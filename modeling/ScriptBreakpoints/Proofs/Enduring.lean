import ScriptBreakpoints.Proofs.Passing
import ScriptBreakpoints.Proofs.Working

namespace ScriptBreakpoints

open Fallible Workspace

/-- Whatever the editor and others do about a script, `P` lasts, if the script is closed only where
its mail is `calm`. -/
structure Enduring (τ : Type) [BreakpointStore τ] (c : Compiler) (file : String)
    (calm : Aspect → Prop) (P : Option OpenScript → Aspect → Prop) : Prop where
  unborn {a : Aspect} : a.reach = 0 → a.mail = [] → P none a
  tracked {o : OpenScript} {a : Aspect} : P (some o) a → a.script.isSome
  passes {v : Option OpenScript} {a a' : Aspect} : P v a → a.Passes c file a' → P v a'
  hears {v : Option OpenScript} {a : Aspect} {m : Message} {mail : List Message}
    (as : List Address) : P v a → a.mail = m :: mail → P (v.map (·.hear as m)) { a with mail }
  opens {a : Aspect} (s : Script) : P none a →
    P (some ((OpenScript.ofScript s).place a.armed.toList))
      { a with script := some s, reach := 1 }
  closes {v : Option OpenScript} {a a' : Aspect} : P v a → (v.isSome → calm a) → a'.reach = 0 →
    a'.mail = a.mail → P none a'
  works {o o' : OpenScript} {a a' : Aspect} {r : EditorRequest} {ok : Prop} : P (some o) a →
    Worked file o a r ok o' a' → P (some o') a'
  saves {o o' : OpenScript} {a a' : Aspect} {s : Script} {t t' : τ}
    {result : Except Fault (Option Readiness)} : P (some o) a → a.script = some s →
    Shows.Stored c file o a s t t' result o' a' → P (some o') a'

theorem Aspect.Passes.closedInEditor {c : Compiler} {file : String} {confirm : Bool} {a : Aspect}
    {s : Script} (hs : a.script = some s) :
    a.Passes c file { a with script := some (s.after (.closedInEditor confirm)) } := by
  have hasked : a.Asked c (.closeInEditor file confirm) _ := .granted (.inl hs)
  rw [hasked.quiet (fun _ _ ↦ rfl) fun _ ↦ rfl] at hasked
  exact .step .refl rfl hasked

/-- A text that is saved is a request, and the reload that comes at once is another one. -/
theorem Aspect.Passes.store {c : Compiler} {file text : String} {p : Projection} {marked : LineSet}
    {a : Aspect} {s : Script} {compiled : Compiled} {other : View} (hs : a.script = some s)
    (hc : c.compile p text = .ok compiled)
    (hd : c.decompile p.other compiled.binary = .ok other) :
    a.Passes c file (a.store s compiled.binary (savedViews p text compiled.map other)
      (compiled.map.breakpointsOn marked)) := by
  have hturn : (Request.save file p text marked).turn c s =
      .saved compiled.binary (savedViews p text compiled.map other) := by
    simp only [Request.turn, saving, hc, hd]
  have hsaved : a.Asked c (.save file p text marked) _ := .granted (.inl hs)
  rw [grant, hturn] at hsaved
  simp only [Request.rearm, Request.posts, hturn, hc, hd, Script.reloads, Script.after,
    Bool.false_eq_true, if_false, Option.elim_none, List.append_nil] at hsaved
  rw [Aspect.store]
  split
  · exact .step .refl rfl hsaved
  · next hin =>
    have hready : (s.save compiled.binary
        (savedViews p text compiled.map other)).2.reloadReady = true := by
      rw [Script.save_reloadReady, Bool.eq_false_iff.2 hin]
      rfl
    have hreloaded := Asked.granted (c := c) (r := .forceReload file)
      (a := { a with
        script := some (s.save compiled.binary (savedViews p text compiled.map other)).2
        armed := .ofList (compiled.map.breakpointsOn marked) }) (.inl rfl)
    simp only [grant, Request.turn, Request.posts, Request.rearm, Script.after, Script.reloads,
      hready, if_true, Option.elim_some] at hreloaded
    exact .step (.step .refl rfl hsaved) rfl hreloaded

def Message.reloads (ms : List Message) : List Reload := ms.filterMap (·.reload?)

namespace Message

variable {ms : List Message} {e : Reload}

theorem mem_reloads : e ∈ reloads ms ↔ .reload e ∈ ms := by
  simp only [reloads, List.mem_filterMap, reload?_eq_some]
  exact ⟨fun ⟨m, hm, h⟩ ↦ h ▸ hm, fun h ↦ ⟨_, h, rfl⟩⟩

theorem reloads_append (ms ms' : List Message) :
    reloads (ms ++ ms') = reloads ms ++ reloads ms' := List.filterMap_append

theorem reloads_replicate {m : Message} (hm : m.reload? = none) (n : Nat) :
    reloads (List.replicate n m) = [] := by
  simp [reloads, hm]

theorem reloads_cons_of_none {m : Message} (hm : m.reload? = none) (ms : List Message) :
    reloads (m :: ms) = reloads ms := List.filterMap_cons_none hm

theorem reloads_cons (e : Reload) (ms : List Message) :
    reloads (.reload e :: ms) = e :: reloads ms := List.filterMap_cons_some rfl

end Message

/-- A relation between what is shown of a script and what a mailbox sees of it that is not about
breakpoints, nor about how the text is edited. -/
structure Indifferent (P : OpenScript → Aspect → Prop) : Prop where
  remark {o o' : OpenScript} {a : Aspect} : P o a → o'.authority = o.authority →
    o'.waiting = o.waiting → (∀ p, ∃ markers, o'.buffers.get p = { o.buffers.get p with markers }) →
    P o' a
  told {o : OpenScript} {a a' : Aspect} : P o a → a'.script = a.script → a'.reach = a.reach →
    Message.reloads a'.mail = Message.reloads a.mail → P o a'
  follow {o : OpenScript} {a : Aspect} (edit : LineEdit) (lines : List String) : P o a →
    P (o.setBuffer ({ o.buffer with lines }.follow edit)) a

namespace Indifferent

variable {P : OpenScript → Aspect → Prop} {o o' : OpenScript} {a a' : Aspect} {x : Address}
  {as : List Address} {file : String} (hP : Indifferent P) (h : P o a)

include hP h

theorem showMarker : P (o.showMarker x) a := by
  refine hP.remark h rfl rfl fun p ↦ ?_
  rw [OpenScript.showMarker, Dual.get_map]
  exact Buffer.showMarker_eq x _

theorem hideMarker : P (o.hideMarker x) a := by
  refine hP.remark h rfl rfl fun p ↦ ?_
  rw [OpenScript.hideMarker, Dual.get_map]
  exact ⟨_, rfl⟩

theorem place : P (o.place as) a := hP.remark h rfl rfl fun p ↦ o.buffer_place as p

theorem post {m : Message} (hm : m.reload? = none) (armed : Std.ExtTreeSet Address) (n : Nat) :
    P o { a with armed, mail := a.mail ++ List.replicate n m } := by
  refine hP.told h rfl rfl ?_
  rw [Message.reloads_append, Message.reloads_replicate hm, List.append_nil]

theorem disarmAll {xs : List Address} : P (xs.foldl (fun o x ↦ o.hideMarker x) o)
    (xs.foldl (fun a x ↦ a.disarm file x) a) :=
  OpenScript.foldl_hide (P := P) file (fun _ _ _ h ↦ hP.post (hP.hideMarker h) rfl _ _) xs h

theorem worked {r : EditorRequest} {ok : Prop} (hw : Worked file o a r ok o' a') : P o' a' := by
  cases hw with
  | still => exact hP.remark h rfl rfl fun p ↦ ⟨_, rfl⟩
  | @edited edit lines _ _ _ _ => exact hP.disarmAll (hP.follow edit lines h)
  | toggled _ _ hclicked =>
    cases hclicked with
    | nothing => exact h
    | hidden => exact hP.disarmAll h
    | shown => exact hP.post (hP.showMarker h) rfl _ _

theorem hear {m : Message} {mail : List Message} (hmail : a.mail = m :: mail)
    (hm : m.reload? = none) : P (o.hear as m) { a with mail } := by
  have htold : P o { a with mail } := hP.told h rfl rfl (by
    rw [hmail, Message.reloads_cons_of_none hm])
  cases m with
  | reload e => cases hm
  | added f x => exact hP.showMarker htold
  | removed f x => exact hP.hideMarker htold
  | shutdown => exact htold

end Indifferent

section Desk

variable {σ τ : Type} [Archive σ] [BreakpointStore τ] [LawfulStore τ] {c : Compiler}
  {file : String} {box : Mailbox} {d : Desk σ τ} {r : EditorRequest} {v : Option OpenScript}
  {a : Aspect} {calm : Aspect → Prop} {P : Option OpenScript → Aspect → Prop}

/-- An editor does not take the property away, whatever it is asked about the script. -/
theorem Enduring.perform (hP : Enduring τ c file calm P) (hd : Shows file box v a d) (h : P v a)
    (hfile : r.file? = some file)
    (hcalm : ∀ confirm, r = .closeScript file confirm → v.isSome →
      ((r.perform c).outcome d).2.editor.scripts[file]? = none → calm a) :
    ∃ v' a', Shows file box v' a' ((r.perform c).outcome d).2 ∧ P v' a' := by
  cases v with
  | none =>
    by_cases hopen : r = .openScript file
    · subst hopen
      obtain ⟨result, d', v', a', ho, hd', ⟨rfl, hreach, hmail⟩ | ⟨s, rfl, rfl⟩⟩ :=
        hd.openScript (c := c)
      · rw [EditorRequest.perform, outcome_bind_pure, ho]
        exact ⟨none, a', hd', hP.closes h (absurd · Bool.false_ne_true) hreach hmail⟩
      · rw [EditorRequest.perform, outcome_bind_pure, ho]
        exact ⟨_, _, hd', hP.opens s h⟩
    · rw [EditorRequest.unopened hd.view hfile hopen]
      exact ⟨none, a, hd, h⟩
  | some o =>
    obtain ⟨s, hs⟩ := Option.isSome_iff_exists.1 (hP.tracked h)
    by_cases hclose : ∃ confirm, r = .closeScript file confirm
    · obtain ⟨confirm, rfl⟩ := hclose
      have hcalm := hcalm confirm rfl rfl
      obtain ⟨result, d', v', a', ho, hd', hmail, ⟨rfl, hreach⟩ | ⟨rfl, rfl | rfl⟩⟩ :=
        hd.closeScript (c := c) hs confirm <;>
        rw [EditorRequest.perform, outcome_bind_pure, ho] at hcalm ⊢
      · exact ⟨none, a', hd', hP.closes h (fun _ ↦ hcalm hd'.view) hreach hmail⟩
      · exact ⟨_, _, hd', h⟩
      · exact ⟨_, _, hd', hP.passes h (.closedInEditor hs)⟩
    by_cases hsave : r = .save file
    · subst hsave
      obtain ⟨result, d', o', a', ho, hd', hstored⟩ := hd.save (c := c) hs
      rw [EditorRequest.perform, outcome_bind_pure, ho]
      exact ⟨some o', a', hd', hP.saves h hs hstored⟩
    · obtain ⟨o', a', hd', hworked⟩ := hd.work (c := c) hs hfile
        (fun confirm h ↦ hclose ⟨confirm, h⟩) hsave
      exact ⟨some o', a', hd', hP.works h hworked⟩

end Desk

namespace Session

variable {σ τ : Type} [Archive σ] [BreakpointStore τ] {c : Compiler} {s : Session σ τ} {i : Nat}
  {file : String}

theorem Along.of_forall {allowed : Session σ τ → Move → Prop} (h : ∀ s m, allowed s m)
    (s : Session σ τ) (ms : List Move) : Along c allowed s ms := by
  induction ms generalizing s with
  | nil => trivial
  | cons m ms ih => exact ⟨h s m, ih _⟩

theorem Along.imp {allowed allowed' : Session σ τ → Move → Prop}
    (h : ∀ s m, allowed s m → allowed' s m) {ms : List Move} (hms : Along c allowed s ms) :
    Along c allowed' s ms := by
  induction ms generalizing s with
  | nil => trivial
  | cons m ms ih => exact ⟨h s m hms.1, ih hms.2⟩

variable [LawfulStore τ] {v : Option OpenScript} {a : Aspect} {calm : Aspect → Prop}
  {P : Option OpenScript → Aspect → Prop} {m : Move}

def ClosesWhere (c : Compiler) (file : String) (calm : Aspect → Prop) (s : Session σ τ)
    (m : Move) : Prop :=
  ∀ i confirm o a, m = .editor i (.closeScript file confirm) → s.Scene i file (some o) a →
    (move c m s).2.shown i file = none → calm a

variable (hP : Enduring (Refusing StoreCall τ) c file calm P)

include hP

theorem Scene.endures_next (hs : s.Sound) (hi : s.Scene i file v a) (h : P v a) :
    ∃ v' a', (move c (.next i) s).2.Scene i file v' a' ∧ P v' a' := by
  obtain haside | ⟨m, rest, hinbox, hfile⟩ := s.aside_next_or i file
  · obtain ⟨a', hi', hpasses⟩ := hi.passes (c := c) hs haside
    exact ⟨v, a', hi', hP.passes h hpasses⟩
  · have htracked (hv : v.isSome) : ∃ t, a.script = some t := by
      obtain ⟨o, rfl⟩ := Option.isSome_iff_exists.1 hv
      exact Option.isSome_iff_exists.1 (hP.tracked h)
    obtain ⟨as, hi', -⟩ := hi.hear (c := c) htracked hinbox hfile
    exact ⟨_, _, hi', hP.hears as h (hi.mail_cons hinbox hfile)⟩

theorem Scene.endures (hs : s.Sound) (hi : s.Scene i file v a) (h : P v a)
    (hcalm : s.ClosesWhere c file calm m) :
    ∃ v' a', (move c m s).2.Scene i file v' a' ∧ P v' a' := by
  rcases s.aside_or i file m with hm | rfl | rfl | ⟨r, rfl, hfile⟩
  · obtain ⟨a', hi', hpasses⟩ := hi.passes (c := c) hs hm
    exact ⟨v, a', hi', hP.passes h hpasses⟩
  · exact hi.endures_next hP hs h
  · refine runPending_keeps (P := fun s ↦ ∃ v a, s.Scene i file v a ∧ P v a) hs
      (fun s hs h ↦ ?_) ⟨v, a, hi, h⟩
    obtain ⟨v, a, hi, h⟩ := h
    exact hi.endures_next hP hs h
  · have hi₀ := hi
    obtain ⟨e, hseat, hshows⟩ := hi
    rw [ClosesWhere, move_editor hs hseat hfile] at hcalm
    rw [move_editor hs hseat hfile]
    obtain ⟨v', a', hshows', h'⟩ := hP.perform hshows h hfile fun confirm hr hv hclosed ↦ by
      obtain ⟨o, rfl⟩ := Option.isSome_iff_exists.1 hv
      refine hcalm i confirm o a (by rw [hr]) hi₀ ?_
      rw [Session.shown, Session.editorAt, seats_put_self hseat]
      exact hclosed
    exact ⟨v', a', put_self hseat hshows', h'⟩

theorem endures_along {ms : List Move} (hs : s.Sound)
    (hall : ∀ {i v a}, s.Scene i file v a → P v a) (hms : Along c (ClosesWhere c file calm) s ms)
    (hi : (s.after c ms).Scene i file v a) : P v a := by
  induction ms generalizing s with
  | nil => exact hall hi
  | cons m ms ih =>
    refine ih (hs.move m) (fun {i v a} hi ↦ ?_) hms.2 hi
    -- all scenes come from scenes, but that of an editor who was not there before
    by_cases hm : m = .newEditor
    · subst hm
      obtain hi | ⟨rfl, hreach, hmail⟩ := hs.scene_newEditor hi
      · exact hall hi
      · exact hP.unborn hreach hmail
    · obtain ⟨v₀, a₀, hi₀⟩ := hs.scene_before hm hi
      obtain ⟨v', a', hi', h⟩ := hi₀.endures hP hs (hall hi₀) hms.1
      obtain ⟨rfl, rfl⟩ := hi.unique hi'
      exact h

/-- What endures holds of what every editor shows of the script, in every session that can be
reached. -/
theorem endures_after {archive : σ} {store : τ} {ms : List Move}
    (hms : Along c (ClosesWhere c file calm) (start archive store) ms)
    (hs : s = (start archive store).after c ms) (hi : s.Scene i file v a) : P v a := by
  subst hs
  refine endures_along hP (sound_start archive store) (fun {i v a} hi ↦ ?_) hms hi
  obtain ⟨e, hseat, -⟩ := hi
  cases hseat

end Session

end ScriptBreakpoints
