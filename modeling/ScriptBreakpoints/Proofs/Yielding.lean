import ScriptBreakpoints.Proofs.Queueing

namespace ScriptBreakpoints

open Fallible Workspace

/-- Whatever is compiled or decompiled makes a view with the property `Q`. -/
structure Compiler.Yields (c : Compiler) (Q : View → Prop) : Prop where
  compile {p : Projection} {text : String} {compiled : Compiled} :
    c.compile p text = .ok compiled → Q ⟨text, compiled.map⟩
  decompile {p : Projection} {binary : Binary} {v : View} : c.decompile p binary = .ok v → Q v

variable {Q : View → Prop}

structure Script.Views (Q : View → Prop) (s : Script) : Prop where
  active (p : Projection) : Q (s.slots.get p).active
  pending {p : Projection} {v : View} : (s.slots.get p).pending = some v → Q v

namespace Script.Views

variable {s t : Script}

theorem ofBinary {file : String} {binary : Binary} {views : Dual View}
    (h : ∀ p, Q (views.get p)) : (Script.ofBinary file binary views).Views Q where
  active p := by
    rw [Script.ofBinary, Dual.get_map]
    exact h p
  pending hv := by
    rw [Script.ofBinary, Dual.get_map] at hv
    cases hv

theorem of_slots (h : s.Views Q) (hslots : t.slots = s.slots) : t.Views Q where
  active p := by
    rw [hslots]
    exact h.active p
  pending hv := by
    rw [hslots] at hv
    exact h.pending hv

theorem latest (h : s.Views Q) (p : Projection) : Q (s.latest p) := by
  rw [Script.latest, Slot.latest]
  cases hv : (s.slots.get p).pending with
  | none => exact h.active p
  | some v => exact h.pending hv

theorem promote (h : s.Views Q) : s.promote.Views Q where
  active p := by
    rw [promote_slots, Dual.get_map]
    exact h.latest p
  pending hv := by
    rw [promote_slots, Dual.get_map] at hv
    cases hv

theorem save {binary : Binary} {views : Dual View} (h : s.Views Q) (hv : ∀ p, Q (views.get p)) :
    (s.save binary views).2.Views Q where
  active p := by
    rw [save_slots, Dual.get_map]
    exact h.active p
  pending {p v} hp := by
    rw [save_slots, Dual.get_map] at hp
    cases hp
    exact hv p

theorem after {h : Happening} (hs : s.Views Q)
    (hsaved : ∀ binary views, h = .saved binary views → ∀ p, Q (views.get p)) :
    (s.after h).Views Q := by
  cases h with
  | asked => exact hs
  | authority projection => exact hs.of_slots rfl
  | openedInEditor => exact hs.of_slots rfl
  | closedInEditor confirm =>
    rw [Script.after, closeInEditor]
    split
    · exact hs.of_slots rfl
    · split
      · exact hs.of_slots rfl
      · exact hs
  | loadedInEngine =>
    rw [Script.after, openInEngine]
    split
    · exact hs.of_slots rfl
    · exact hs.promote.of_slots rfl
  | foreignInEngine => exact hs.of_slots rfl
  | unloadedInEngine =>
    rw [Script.after, closeInEngine]
    split
    · exact hs.of_slots rfl
    · exact hs.promote.of_slots rfl
  | saved binary views => exact hs.save (hsaved binary views rfl)
  | forcedReload =>
    rw [Script.after]
    split
    · exact hs.promote
    · exact hs
  | invalidated => exact hs.of_slots rfl

theorem reload (h : s.Views Q) (p : Projection) : Q (s.reload.views.get p) := by
  rw [Script.reload, get_active]
  exact h.active p

end Script.Views

def Message.Views (Q : View → Prop) (m : Message) : Prop :=
  ∀ e, m = .reload e → ∀ p, Q (e.views.get p)

variable {σ τ : Type} {c : Compiler} {w w' : Workspace σ τ}

namespace Workspace

def Views (Q : View → Prop) (w : Workspace σ τ) : Prop :=
  ∀ (file : String) s, w.scripts[file]? = some s → s.Views Q

theorem Views.insert {file : String} {s : Script} (h : w.Views Q) (hs : s.Views Q)
    (hw : w'.scripts = w.scripts.insert file s) : w'.Views Q := by
  intro other t ht
  rw [hw] at ht
  obtain ⟨-, rfl⟩ | ⟨-, ht⟩ := cases_of_insert ht
  · exact hs
  · exact h other t ht

variable [Archive σ] (hc : c.Yields Q)

include hc

theorem Views.found {file : String} {s : Script} (h : w.Views Q) (hf : Finds c w file s) :
    s.Views Q := by
  cases hf with
  | tracked ht => exact h file s ht
  | loaded _ hl =>
    obtain ⟨bytes, views, -, hv, rfl⟩ := hl
    exact .ofBinary fun p ↦ hc.decompile (hv p)

theorem Views.saving {p : Projection} {text : String} {binary : Binary} {views : Dual View}
    (h : Workspace.saving c p text = .saved binary views) (q : Projection) : Q (views.get q) := by
  rw [Workspace.saving] at h
  cases hcompiled : c.compile p text with
  | error f =>
    rw [hcompiled] at h
    cases h
  | ok compiled =>
    rw [hcompiled] at h
    dsimp only at h
    cases hother : c.decompile p.other compiled.binary with
    | error f =>
      rw [hother] at h
      cases h
    | ok other =>
      rw [hother] at h
      cases h
      rw [savedViews, Dual.get_ofFn]
      split
      · exact hc.compile hcompiled
      · exact hc.decompile hother

theorem Views.turn {r : Request} {s : Script} (hs : s.Views Q) :
    (s.after (r.turn c s)).Views Q := by
  refine hs.after fun binary views hsaved ↦ ?_
  by_cases hr : r.isSave = false
  · have hquiet := r.turn_isSave (c := c) hr s
    rw [hsaved] at hquiet
    cases hquiet
  · cases r with
    | save file p text marked => exact Views.saving hc hsaved
    | _ => exact absurd rfl hr

variable [BreakpointStore τ]

theorem Views.perform (h : w.Views Q) (r : Request) : ((r.perform c).outcome w).2.Views Q := by
  have hturn := r.perform_turn c w
  generalize (r.perform c).outcome w = o at hturn ⊢
  rcases o with ⟨result, w'⟩
  dsimp only at hturn ⊢
  cases hturn with
  | unfound _ hs =>
    intro file s ht
    rw [hs] at ht
    exact h file s ht
  | refused hf hs => exact h.insert (h.found hc hf) hs
  | happened hf hs => exact h.insert (Views.turn hc (h.found hc hf)) hs

theorem Views.emits (h : w.Views Q) (r : Request) : ∀ m ∈ r.emits c w, m.Views Q := by
  intro m hm e he p
  subst he
  rw [Request.emits] at hm
  split at hm
  · rename_i s _ hs
    have hf : Finds c w r.file s := (script_ok (Prod.ext hs rfl)).1
    have hposts := Option.mem_toList.1 hm
    have hafter := Views.turn (r := r) hc (h.found hc hf)
    cases r.effect c s with
    | reloads hp _ =>
      rw [hp] at hposts
      cases hposts
      exact hafter.reload p
    | adds a hp _ _ => rw [hp] at hposts; cases hposts
    | removes a hp _ _ => rw [hp] at hposts; cases hposts
    | saves hp _ => rw [hp] at hposts; cases hposts
    | quiet hp _ _ _ => rw [hp] at hposts; cases hposts
  · cases hm

theorem Views.emitted {ms : List Message} (h : w.Views Q) (hemits : Emits c w ms w') :
    w'.Views Q ∧ ∀ m ∈ ms, m.Views Q := by
  induction hemits with
  | nothing => exact ⟨h, nofun⟩
  | ask r _ ih =>
    obtain ⟨hviews, hmail⟩ := ih
    refine ⟨hviews.perform hc r, fun m hm ↦ ?_⟩
    obtain hm | hm := List.mem_append.1 hm
    · exact hmail m hm
    · exact hviews.emits hc r m hm
  | aside _ _ _ hs ih =>
    refine ⟨fun file s ht ↦ ?_, ih.2⟩
    rw [hs] at ht
    exact ih.1 file s ht

end Workspace

namespace Session

structure Views (Q : View → Prop) (s : Session σ τ) : Prop where
  workspace : s.workspace.Views Q
  mail {i : Nat} {m : Message} : m ∈ s.inbox i → m.Views Q

variable [Archive σ] [BreakpointStore τ] [LawfulStore τ]

/-- What a compiler always yields is all there ever is. -/
theorem views_after (hc : c.Yields Q) {archive : σ} {store : τ} {ms : List Move}
    {s : Session σ τ} (hs : s = (start archive store).after c ms) : s.Views Q := by
  induction ms using List.reverseRecOn generalizing s with
  | nil =>
    subst hs
    exact ⟨nofun, nofun⟩
  | append_singleton ms m ih =>
    obtain ⟨s₀, hs₀⟩ : ∃ s₀, s₀ = (start archive store).after c ms := ⟨_, rfl⟩
    obtain ⟨hworkspace, hmail⟩ := ih hs₀
    obtain ⟨emitted, hemits, -, hreceived⟩ := received_move (sound_after hs₀) (hears_after hs₀) m
    obtain ⟨hworkspace', hemitted⟩ := hworkspace.emitted hc hemits
    rw [hs, ← move_after hs₀]
    refine ⟨hworkspace', fun {i} m' hm' ↦ ?_⟩
    obtain ⟨handled, rest, hinbox, -, hnew⟩ := hreceived i
    rw [hnew] at hm'
    obtain hm' | hm' := List.mem_append.1 hm'
    · exact hmail (by rw [hinbox]; exact List.mem_append_right _ hm')
    · exact hemitted m' (List.mem_filter.1 hm').1

end Session

end ScriptBreakpoints
