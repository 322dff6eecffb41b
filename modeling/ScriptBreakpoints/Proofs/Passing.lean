import ScriptBreakpoints.Proofs.Withstanding

namespace ScriptBreakpoints

open Fallible Workspace

/-- What requests about a script can make of the aspect, whatever is armed after each of them. -/
inductive Aspect.Passes (c : Compiler) (file : String) (a : Aspect) : Aspect → Prop
  | refl : Passes c file a a
  | ask {a₁ a₂ : Aspect} {r : Request} {armed : Std.ExtTreeSet Address} : Passes c file a a₁ →
      r.file = file → a₁.Asked c r a₂ → Passes c file a { a₂ with armed }

theorem Aspect.Passes.step {c : Compiler} {file : String} {a a₁ a₂ : Aspect} {r : Request}
    (h : a.Passes c file a₁) (hfile : r.file = file) (hasked : a₁.Asked c r a₂) :
    a.Passes c file a₂ := by
  have hpasses : a.Passes c file { a₂ with armed := a₂.armed } := h.ask hfile hasked
  exact hpasses

theorem Aspect.Follows.passes {c : Compiler} {file : String} {asked : Request → Prop}
    {a a' : Aspect} (h : a.Follows c file asked a') : a.Passes c file a' := by
  induction h with
  | refl => exact .refl
  | ask _ hfile _ hasked ih => exact ih.step hfile hasked

theorem Aspect.Passes.trans {c : Compiler} {file : String} {a a' a'' : Aspect}
    (h : a.Passes c file a') (h' : a'.Passes c file a'') : a.Passes c file a'' := by
  induction h' with
  | refl => exact h
  | ask _ hfile hasked ih => exact ih.ask hfile hasked

theorem Aspect.Passes.reach {c : Compiler} {file : String} {a a' : Aspect}
    (h : a.Passes c file a') : a'.reach = a.reach := by
  induction h with
  | refl => rfl
  | ask _ _ hasked ih => cases hasked <;> exact ih

theorem Aspect.Passes.tracked {c : Compiler} {file : String} {a a' : Aspect}
    (h : a.Passes c file a') (ha : a.script.isSome) : a'.script.isSome := by
  induction h with
  | refl => exact ha
  | ask _ _ hasked ih =>
    cases hasked with
    | ignored => exact ih
    | found => rfl
    | granted => rfl

theorem Aspect.Passes.unheard {c : Compiler} {file : String} {a a' : Aspect}
    (h : a.Passes c file a') (hreach : a.reach = 0) : a'.mail = a.mail := by
  induction h with
  | refl => rfl
  | @ask a₁ _ r _ hpasses _ hasked ih =>
    cases hasked with
    | ignored => exact ih
    | found => exact ih
    | @granted s =>
      have hsilent : (r.posts c s).elim [] (List.replicate a₁.reach) = [] := by
        rw [hpasses.reach, hreach]
        cases r.posts c s <;> rfl
      rw [Aspect.grant, hsilent, List.append_nil]
      exact ih

section Requests

variable {σ τ : Type} [Archive σ] [BreakpointStore τ] [LawfulStore τ] {c : Compiler} {r : Request}
  {w w' : Workspace σ τ} {result : Except Fault Reply} {box : Mailbox}

theorem Request.Response.passes (h : r.Response c w result w') (hw : w.Orderly)
    (hbox : w.Attends box) (file : String) :
    (w.aspect file box).Passes c file (w'.aspect file box) := by
  by_cases hfile : file = r.file
  · subst hfile
    have hgranted := h
    have hfound {s : Script} (hf : Finds c w r.file s) (hs : w'.scripts = w.scripts.insert r.file s)
        (hsteady : Steady w w') (hm : w'.mail = w.mail) :
        (w.aspect r.file box).Passes c r.file (w'.aspect r.file box) := by
      rw [aspect_put hs hsteady hm]
      exact .ask .refl rfl (.found hf.aspect)
    cases h with
    | unfound _ hp hs =>
      rw [aspect_peeked hp hs]
      exact .refl
    | refused hf hs hsteady hm => exact hfound hf hs hsteady hm
    | unrestored _ hf hs hsteady hm => exact hfound hf hs hsteady hm
    | granted hf =>
      rw [aspect_granted hw hbox hf hgranted]
      exact .step .refl rfl (.granted hf.aspect)
  · rw [h.elsewhere hw hbox hfile]
    exact .refl

/-- The workspace `w'` after others were busy in `w`. What `readers` see of a script went through
requests. -/
structure Workspace.Passes (c : Compiler) (readers : Mailbox → Prop) (w w' : Workspace σ τ) :
    Prop where
  orderly : w'.Orderly
  length : w'.mail.length = w.mail.length
  attends {box : Mailbox} : w.Attends box → w'.Attends box
  passes {box : Mailbox} (file : String) : readers box → w.Attends box →
    (w.aspect file box).Passes c file (w'.aspect file box)

namespace Workspace.Passes

variable {readers : Mailbox → Prop}

omit [Archive σ] in
theorem refl (hw : w.Orderly) : w.Passes c readers w := ⟨hw, rfl, id, fun _ _ _ ↦ .refl⟩

omit [Archive σ] in
theorem trans {w'' : Workspace σ τ} (h : w.Passes c readers w') (h' : w'.Passes c readers w'') :
    w.Passes c readers w'' where
  orderly := h'.orderly
  length := h'.length.trans h.length
  attends hbox := h'.attends (h.attends hbox)
  passes file hreader hbox := (h.passes file hreader hbox).trans
    (h'.passes file hreader (h.attends hbox))

theorem ask (h : w.Passes c readers w') (r : Request) :
    w.Passes c readers ((r.perform c).outcome w').2 := by
  have hend := r.respond c w'
  exact h.trans ⟨h.orderly.perform r, hend.unheard.2, hend.attends,
    fun file _ hbox ↦ hend.passes h.orderly hbox file⟩

omit [Archive σ] in
theorem relisten (h : w.Passes c readers w') {listeners : Std.ExtTreeMap String (List Mailbox)}
    (horderly : ({ w' with listeners } : Workspace σ τ).Orderly)
    (haspect : ∀ file box, readers box →
      ({ w' with listeners } : Workspace σ τ).aspect file box = w'.aspect file box) :
    w.Passes c readers { w' with listeners } :=
  ⟨horderly, h.length, h.attends, fun file hreader hbox ↦ by
    rw [haspect file _ hreader]
    exact h.passes file hreader hbox⟩

omit [Archive σ] in
theorem withQueue {d : Desk σ τ} {queue : List Message} (h : w.Passes c readers d.workspace)
    (hown : ¬readers d.editor.inbox) : w.Passes c readers (d.withQueue queue).workspace where
  orderly := Desk.orderly_withQueue h.orderly
  length := (List.length_modify ..).trans h.length
  attends hbox := Desk.attends_withQueue (h.attends hbox)
  passes file hreader hbox := by
    rw [Desk.aspect_withQueue_of_ne queue fun heq ↦ hown (heq ▸ hreader)]
    exact h.passes file hreader hbox

theorem bears (w : Workspace σ τ) (readers : Mailbox → Prop) {box : Mailbox} (hown : ¬readers box)
    (file : String) (asked : Request → Prop) : Bears c box file asked fun d : Desk σ τ ↦
      w.Passes c readers d.workspace ∧ d.editor.inbox = box where
  inbox hd := hd.2
  log _ hd := ⟨⟨⟨hd.1.orderly.named, hd.1.orderly.listed⟩, hd.1.length, hd.1.attends,
    hd.1.passes⟩, hd.2⟩
  scripts _ hd := hd
  ask {d r} _ hd := ⟨hd.1.ask r, hd.2⟩
  listen {d} hd := by
    have haspect (subject : String) (reader : Mailbox) (hreader : readers reader) :=
      aspect_listen file subject box reader d.workspace (.inr fun heq ↦ hown (heq ▸ hreader))
    have horderly := hd.1.orderly.listen file box
    obtain ⟨listeners, ho⟩ := listen_outcome file box d.workspace
    simp only [ho] at haspect horderly ⊢
    exact ⟨hd.1.relisten horderly haspect, hd.2⟩
  unlisten {d} hd := by
    have haspect (subject : String) (reader : Mailbox) (hreader : readers reader) :=
      aspect_unlisten file subject box reader d.workspace (.inr fun heq ↦ hown (heq ▸ hreader))
    have horderly := hd.1.orderly.unlisten file box
    obtain ⟨listeners, ho⟩ := unlisten_outcome file box d.workspace
    simp only [ho] at haspect horderly ⊢
    exact ⟨hd.1.relisten horderly haspect, hd.2⟩

end Workspace.Passes

end Requests

namespace Session

variable {σ τ : Type} [Archive σ] [BreakpointStore τ] [LawfulStore τ] {c : Compiler}
  {s : Session σ τ} {i : Nat} {file : String} {v : Option OpenScript} {a : Aspect} {m : Move}

theorem Scene.passes (hs : s.Sound) (hi : s.Scene i file v a) (hm : s.Aside i file m) :
    ∃ a', (move c m s).2.Scene i file v a' ∧ a.Passes c file a' := by
  by_cases hsaves : m.saves file
  · -- a save that fails can leave anything armed, so the mailbox need not see what was asked
    obtain ⟨e, hseat, hshows⟩ := hi
    have haspect : s.workspace.aspect file e.inbox = a := hshows.aspect
    cases m with
    | ask r =>
      have hend := r.respond c s.workspace
      have hpasses := hend.passes hs.orderly hshows.attends file
      rw [haspect] at hpasses
      exact ⟨_, ⟨e, hseat, rfl, hs.orderly.perform r, hend.attends hshows.attends, hshows.view,
        rfl⟩, hpasses⟩
    | editor j r =>
      obtain rfl : r = .save file := hsaves
      have hji : j ≠ i := by
        intro hji
        obtain ⟨other, hne, hother⟩ := hm hji
        cases hother
        exact hne rfl
      obtain hj | ⟨e', hj⟩ := hs.seat_cases j
      · rw [(move_vacant hj _).1]
        exact ⟨a, ⟨e, hseat, hshows⟩, .refl⟩
      · have hbox : e.inbox ≠ e'.inbox := fun h ↦ hji (hs.apart hj hseat h.symm)
        obtain ⟨hd, -⟩ := (Workspace.Passes.bears (c := c) s.workspace (· ≠ e'.inbox)
          (not_not.2 rfl) file _).editorRequest (d := ⟨e', s.workspace⟩) (r := .save file) rfl
          ⟨.refl hs.orderly, rfl⟩
        have hpasses := hd.passes file hbox hshows.attends
        rw [haspect] at hpasses
        rw [move_editor hs hj rfl]
        refine ⟨_, ⟨e, ?_, rfl, hd.orderly, hd.attends hshows.attends, hshows.view, rfl⟩, hpasses⟩
        rw [seats_put_of_ne (Ne.symm hji), hseat]
    | next j => exact hsaves.elim
    | newEditor => exact hsaves.elim
  · obtain ⟨a', hi', hfollows⟩ := hi.aside (c := c) remembers_nothing trivial hs hm
      (.inl fun r hr hfile ↦ Asks.unsaved hr hsaves hfile)
    exact ⟨a', hi', hfollows.passes⟩

end Session

end ScriptBreakpoints
