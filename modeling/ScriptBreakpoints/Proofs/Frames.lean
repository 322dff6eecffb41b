import ScriptBreakpoints.Proofs.Aspects

namespace ScriptBreakpoints

open Fallible Workspace

/-- A store in a state that is `sound` knows whether it ever refused a call: as long as it is
`clean`, it never did. -/
structure Remembers {τ : Type} [BreakpointStore τ] (sound clean : τ → Prop) : Prop where
  sound_called {t t' : τ} : sound t → Called t t' → sound t'
  clean_before {t t' : τ} : sound t → Called t t' → clean t' → clean t
  remove {t : τ} (file : String) (a : Address) : sound t →
    clean (BreakpointStore.remove file a t).2 → (BreakpointStore.remove file a t).1 = .ok ()
  resync {t : τ} (file : String) (as : List Address) : sound t →
    clean (BreakpointStore.resync file as t).2 → (BreakpointStore.resync file as t).1 = .ok ()
  list {t : τ} (file : String) : sound t → clean (BreakpointStore.list file t).2 →
    ∃ as, (BreakpointStore.list file t).1 = .ok as

theorem remembers_nothing {τ : Type} [BreakpointStore τ] :
    Remembers (fun _ : τ ↦ True) fun _ ↦ False :=
  ⟨fun _ _ ↦ trivial, fun _ _ ↦ id, fun _ _ _ ↦ False.elim, fun _ _ _ ↦ False.elim,
    fun _ _ ↦ False.elim⟩

variable {σ τ : Type} [Archive σ] [BreakpointStore τ] [LawfulStore τ]

/-- The desk `d` after its editor did something about `file`, for which it made requests out of
`asked`. -/
structure Framed (c : Compiler) (clean : τ → Prop) (file : String) (asked : Request → Prop)
    (d₀ d : Desk σ τ) : Prop where
  inbox : d.editor.inbox = d₀.editor.inbox
  orderly : d.workspace.Orderly
  attends {box : Mailbox} : d₀.workspace.Attends box → d.workspace.Attends box
  called : Called d₀.workspace.store d.workspace.store
  scripts {other : String} : other ≠ file → d.editor.scripts[other]? = d₀.editor.scripts[other]?
  elsewhere {other : String} {box : Mailbox} : other ≠ file → d₀.workspace.Attends box →
    d.workspace.aspect other box = d₀.workspace.aspect other box
  here {box : Mailbox} : box ≠ d₀.editor.inbox → d₀.workspace.Attends box →
    (∀ r, asked r → r.isSave = false) ∨ clean d.workspace.store →
    (d₀.workspace.aspect file box).Follows c file asked (d.workspace.aspect file box)

namespace Framed

variable {c : Compiler} {sound clean : τ → Prop} {file : String} {asked : Request → Prop}
  {d₀ d : Desk σ τ}

omit [Archive σ] in
theorem refl (hd : d₀.workspace.Orderly) : Framed c clean file asked d₀ d₀ where
  inbox := rfl
  orderly := hd
  attends := id
  called := .nothing
  scripts _ := rfl
  elsewhere _ _ := rfl
  here _ _ _ := .refl

theorem ask (hr : Remembers sound clean) (hsound : sound d₀.workspace.store)
    (hd : Framed c clean file asked d₀ d) {r : Request} (hasked : asked r) (hfile : r.file = file) :
    Framed c clean file asked d₀
      { d with workspace := ((r.perform c).outcome d.workspace).2 } := by
  have horderly := hd.orderly.perform (c := c) r
  have hend := r.respond c d.workspace
  generalize (r.perform c).outcome d.workspace = o at horderly hend ⊢
  rcases o with ⟨result, w'⟩
  dsimp only at horderly hend ⊢
  have hsound' := hr.sound_called hsound hd.called
  refine ⟨hd.inbox, horderly, fun hbox ↦ hend.attends (hd.attends hbox),
    hd.called.trans hend.called, hd.scripts, fun {other box} ho hbox ↦ ?_,
    fun {box} hne hbox hclean ↦ ?_⟩
  · subst hfile
    exact (hend.elsewhere hd.orderly (hd.attends hbox) ho).trans (hd.elsewhere ho hbox)
  · subst hfile
    have hclean' := hclean.imp_right (hr.clean_before hsound' hend.called)
    refine .ask (hd.here hne hbox hclean') rfl hasked
      (hend.asked hd.orderly (hd.attends hbox) fun hsave t previous e ht hresync ↦ ?_)
    obtain h | h := hclean
    · rw [h r hasked] at hsave
      cases hsave
    · have hok := hr.resync r.file previous (hr.sound_called hsound' ht)
      rw [hresync] at hok
      cases hok h

omit [Archive σ] in
theorem relisten (hd : Framed c clean file asked d₀ d)
    {listeners : Std.ExtTreeMap String (List Mailbox)}
    (horderly : ({ d.workspace with listeners } : Workspace σ τ).Orderly)
    (haspect : ∀ other box, other ≠ file ∨ box ≠ d₀.editor.inbox →
      ({ d.workspace with listeners } : Workspace σ τ).aspect other box =
        d.workspace.aspect other box) :
    Framed c clean file asked d₀ { d with workspace.listeners := listeners } := by
  refine ⟨hd.inbox, horderly, hd.attends, hd.called, hd.scripts, fun ho hbox ↦ ?_,
    fun {box} hne hbox hclean ↦ ?_⟩
  · exact (haspect _ _ (.inl ho)).trans (hd.elsewhere ho hbox)
  · have hhere := hd.here hne hbox hclean
    rwa [← haspect file box (.inr hne)] at hhere

theorem bears (d₀ : Desk σ τ) (hr : Remembers sound clean) (hsound : sound d₀.workspace.store)
    (hfile : ∀ r, asked r → r.file = file) :
    Bears c d₀.editor.inbox file asked (Framed c clean file asked d₀ : Desk σ τ → Prop) where
  inbox hd := hd.inbox
  log _ hd := ⟨hd.inbox, ⟨hd.orderly.named, hd.orderly.listed⟩, hd.attends, hd.called, hd.scripts,
    hd.elsewhere, hd.here⟩
  scripts hscripts hd := ⟨hd.inbox, hd.orderly, hd.attends, hd.called,
    fun ho ↦ (hscripts _ ho).trans (hd.scripts ho), hd.elsewhere, hd.here⟩
  ask {d r} hasked hd := hd.ask hr hsound hasked (hfile r hasked)
  listen {d} hd := by
    have haspect (other : String) (box : Mailbox) :=
      aspect_listen file other d₀.editor.inbox box d.workspace
    have horderly := hd.orderly.listen file d₀.editor.inbox
    obtain ⟨listeners, ho⟩ := listen_outcome file d₀.editor.inbox d.workspace
    rw [ho] at horderly ⊢
    simp only [ho] at haspect
    exact hd.relisten horderly haspect
  unlisten {d} hd := by
    have haspect (other : String) (box : Mailbox) :=
      aspect_unlisten file other d₀.editor.inbox box d.workspace
    have horderly := hd.orderly.unlisten file d₀.editor.inbox
    obtain ⟨listeners, ho⟩ := unlisten_outcome file d₀.editor.inbox d.workspace
    rw [ho] at horderly ⊢
    simp only [ho] at haspect
    exact hd.relisten horderly haspect

end Framed

end ScriptBreakpoints
