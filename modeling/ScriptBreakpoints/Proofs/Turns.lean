import Mathlib.Logic.Function.Iterate
import ScriptBreakpoints.Proofs.Frames

namespace ScriptBreakpoints

open Fallible Workspace

section Desk

variable {σ τ : Type}

def Desk.withQueue (queue : List Message) (d : Desk σ τ) : Desk σ τ :=
  { d with workspace.mail := d.workspace.mail.modify d.editor.inbox fun c ↦ { c with queue } }

def Editor.handleNext [Archive σ] [BreakpointStore τ] (c : Compiler) : EditorAction σ τ Bool := do
  match Editor.waitingMail (← get) with
  | [] => return true
  | m :: rest =>
    Editor.setMail rest
    Editor.handle c m

namespace Desk

variable {d : Desk σ τ} {queue : List Message} {box : Mailbox}

theorem attends_withQueue (h : d.workspace.Attends box) :
    (d.withQueue queue).workspace.Attends box := by
  obtain ⟨old, hq⟩ := h
  rw [Attends, withQueue, List.getElem?_modify, hq]
  by_cases hb : d.editor.inbox = box
  · exact ⟨queue, by simp [hb]⟩
  · exact ⟨old, by simp [hb]⟩

theorem waiting_withQueue (h : d.workspace.waiting d.editor.inbox ≠ []) :
    (d.withQueue queue).workspace.waiting d.editor.inbox = queue := by
  rw [waiting] at h
  rw [waiting, withQueue, List.getElem?_modify]
  cases hm : d.workspace.mail[d.editor.inbox]? with
  | none =>
    rw [hm] at h
    exact absurd rfl h
  | some c => simp

theorem waiting_withQueue_of_ne (h : box ≠ d.editor.inbox) :
    (d.withQueue queue).workspace.waiting box = d.workspace.waiting box := by
  rw [waiting, withQueue, List.getElem?_modify, waiting]
  cases d.workspace.mail[box]? <;> simp [Ne.symm h]

theorem orderly_withQueue (h : d.workspace.Orderly) : (d.withQueue queue).workspace.Orderly :=
  ⟨h.named, h.listed⟩

variable [BreakpointStore τ] [LawfulStore τ] {file : String}

theorem aspect_withQueue_of_ne (queue : List Message) (h : box ≠ d.editor.inbox) :
    (d.withQueue queue).workspace.aspect file box = d.workspace.aspect file box := by
  rw [aspect, waiting_withQueue_of_ne h]
  rfl

theorem aspect_withQueue (h : d.workspace.waiting d.editor.inbox ≠ []) :
    (d.withQueue queue).workspace.aspect file d.editor.inbox =
      { d.workspace.aspect file d.editor.inbox with mail := queue.filter (·.isAbout file) } := by
  rw [aspect, waiting_withQueue h]
  rfl

end Desk

end Desk

namespace Editor

variable {σ τ : Type} [Archive σ] [BreakpointStore τ] {c : Compiler} {d : Desk σ τ} {m : Message}
  {rest : List Message}

theorem handleNext_nil (h : d.workspace.waiting d.editor.inbox = []) :
    (handleNext c).outcome d = (.ok true, d) := by
  have hw : waitingMail d = [] := h
  simp only [handleNext, outcome_bind, outcome_get, hw, outcome_pure]

theorem handleNext_cons (h : d.workspace.waiting d.editor.inbox = m :: rest) :
    (handleNext c).outcome d = (handle c m).outcome (d.withQueue rest) := by
  have hw : waitingMail d = m :: rest := h
  simp only [handleNext, outcome_bind, outcome_get, hw, setMail, outcome_modify]
  rfl

/-- What every message keeps, and does not depend on what mail the editor has, is kept when the
editor handles what has waited longest. -/
theorem keeps_handleNext {I : Desk σ τ → Prop}
    (hqueue : ∀ (d : Desk σ τ) (queue : List Message), I d → I (d.withQueue queue))
    (hhandle : ∀ m, Keeps I (handle c m)) : Keeps I (handleNext c) := by
  intro d hd
  cases hw : d.workspace.waiting d.editor.inbox with
  | nil =>
    rw [handleNext_nil hw]
    exact hd
  | cons m rest =>
    rw [handleNext_cons hw]
    exact hhandle m _ (hqueue d rest hd)

theorem handle_mail (m : Message) (d : Desk σ τ) :
    ((handle c m).outcome d).2.workspace.mail = d.workspace.mail ∧
      ((handle c m).outcome d).2.editor.inbox = d.editor.inbox := by
  refine keeps_handle (I := fun d' ↦ d'.workspace.mail = d.workspace.mail ∧
    d'.editor.inbox = d.editor.inbox) (fun file ↦ ?_) m d ⟨rfl, rfl⟩
  refine ⟨fun _ ↦ id, fun _ ↦ id, fun {d'} {r} hr hd' ↦ ⟨?_, hd'.2⟩⟩
  subst hr
  exact ((Request.listBreakpoints file).respond c d'.workspace).mail_eq (fun _ _ ↦ rfl) |>.trans
    hd'.1

theorem handleNext_inbox (d : Desk σ τ) :
    ((handleNext c).outcome d).2.editor.inbox = d.editor.inbox :=
  keeps_handleNext (I := fun d' ↦ d'.editor.inbox = d.editor.inbox) (fun _ _ ↦ id)
    (fun m d' hd ↦ (handle_mail m d').2.trans hd) d rfl

theorem iterate_handleNext_inbox (n : Nat) (d : Desk σ τ) :
    ((fun d ↦ ((handleNext c).outcome d).2)^[n] d).editor.inbox = d.editor.inbox := by
  induction n generalizing d with
  | zero => rfl
  | succ n ih => rw [Function.iterate_succ_apply, ih, handleNext_inbox]

/-- All the mail is handled by handling one message after the other. -/
theorem handleAll_eq (ms : List Message) (d : Desk σ τ)
    (h : d.workspace.waiting d.editor.inbox = ms) :
    ∃ n, ((handleAll c ms).outcome d).2 = (fun d ↦ ((handleNext c).outcome d).2)^[n] d := by
  induction ms generalizing d with
  | nil => exact ⟨0, rfl⟩
  | cons m rest ih =>
    obtain ⟨hmail, hinbox⟩ := handle_mail (c := c) m (d.withQueue rest)
    have hnext := handleNext_cons (c := c) h
    have hqueue : (d.withQueue rest).workspace.waiting d.editor.inbox = rest :=
      Desk.waiting_withQueue (by rw [h]; exact List.cons_ne_nil _ _)
    have hstep : (handleAll c (m :: rest)).outcome d =
        (do if ← handle c m then return (← handleAll c rest) + 1 else return 1).outcome
          (d.withQueue rest) := rfl
    rw [hstep, outcome_bind]
    rcases ho : (handle c m).outcome (d.withQueue rest) with ⟨f | goes, d'⟩ <;>
      rw [ho] at hnext hmail hinbox
    · exact ⟨1, by rw [Function.iterate_one, hnext]⟩
    · -- nothing is posted in the meantime, so what is left of the mail is `rest`
      cases goes with
      | false => exact ⟨1, by rw [Function.iterate_one, hnext]; rfl⟩
      | true =>
        dsimp only at hmail hinbox
        obtain ⟨n, hn⟩ := ih d' (by rw [hinbox, waiting, hmail]; exact hqueue)
        refine ⟨n + 1, ?_⟩
        rw [Function.iterate_succ_apply, hnext, ← hn]
        simp only [if_true, ← map_eq_pure_bind, outcome_map]

theorem keeps_runPending {I : Desk σ τ → Prop} (hnext : Keeps I (handleNext c)) :
    Keeps I (runPending c) := by
  intro d hd
  obtain ⟨n, hn⟩ := handleAll_eq (c := c) _ d rfl
  have hrun : ((runPending c).outcome d).2 = (fun d ↦ ((handleNext c).outcome d).2)^[n] d := hn
  rw [hrun]
  exact Function.Iterate.rec I hd hnext n

end Editor

namespace Aspect.Follows

variable {c : Compiler} {file : String} {asked asked' : Request → Prop} {a a₁ a₂ : Aspect}

theorem mono (h : a.Follows c file asked a₁) (hall : ∀ r, asked r → asked' r) :
    a.Follows c file asked' a₁ := by
  induction h with
  | refl => exact .refl
  | ask _ hfile hr hasked ih => exact ih.ask hfile (hall _ hr) hasked

theorem trans (h : a.Follows c file asked a₁) (h' : a₁.Follows c file asked a₂) :
    a.Follows c file asked a₂ := by
  induction h' with
  | refl => exact h
  | ask _ hfile hr hasked ih => exact ih.ask hfile hr hasked

end Aspect.Follows

def Workspace.Housed {σ τ : Type} (w : Workspace σ τ) : Prop :=
  ∀ file, ∀ box ∈ w.audience file, box < w.mail.length

/-- Whatever the first message is, there is a script that it may be about, and another one if it is
not about `file`. -/
theorem Message.exists_subject (m : Option Message) (file : String) :
    ∃ subject, (∀ m' ∈ m, m'.file? = none ∨ m'.file? = some subject) ∧
      ((∀ m' ∈ m, m'.file? ≠ some file) → file ≠ subject) := by
  have hother : ∃ other, file ≠ other := by
    by_cases h : file = ""
    · exact ⟨"x", by rw [h]; decide⟩
    · exact ⟨"", h⟩
  obtain ⟨other, hother⟩ := hother
  cases m with
  | none => exact ⟨other, (fun _ h ↦ nomatch h), fun _ ↦ hother⟩
  | some m =>
    cases hm : m.file? with
    | none => exact ⟨other, fun _ h ↦ .inl (Option.some.inj h ▸ hm), fun _ ↦ hother⟩
    | some subject =>
      refine ⟨subject, fun _ h ↦ .inr (Option.some.inj h ▸ hm), fun h heq ↦ h m rfl ?_⟩
      rw [hm, heq]

theorem EditorRequest.asks_file {e : Editor} {r : EditorRequest} {file : String}
    (hr : r.file? = some file) {asked : Request} (h : r.asks e asked) : asked.file = file := by
  cases entails_of_asks h <;> exact Option.some.inj hr

section Turns

variable {σ τ : Type} [Archive σ] [BreakpointStore τ] {c : Compiler}

theorem Request.Response.unheard {r : Request} {w w' : Workspace σ τ}
    {result : Except Fault Reply} (h : r.Response c w result w') :
    w'.listeners = w.listeners ∧ w'.mail.length = w.mail.length := by
  cases h with
  | unfound _ hp => exact ⟨hp.listeners, congrArg _ hp.mail⟩
  | refused _ _ hsteady hm => exact ⟨hsteady.listeners, congrArg _ hm⟩
  | unrestored _ _ _ hsteady hm => exact ⟨hsteady.listeners, congrArg _ hm⟩
  | @granted _ s _ _ _ hsteady hm =>
    refine ⟨hsteady.listeners, ?_⟩
    rw [hm]
    cases r.posts c s with
    | none => rfl
    | some m => exact length_deliver m _ _

theorem Workspace.Housed.perform {w : Workspace σ τ} (hw : w.Housed) (r : Request) :
    ((r.perform c).outcome w).2.Housed := by
  obtain ⟨hl, hm⟩ := (r.respond c w).unheard
  intro file box hbox
  rw [audience, hl] at hbox
  rw [hm]
  exact hw file box hbox

theorem Workspace.Housed.bears {box : Mailbox} {n : Nat} (hbox : box < n) (file : String)
    (asked : Request → Prop) :
    Bears c box file asked fun d : Desk σ τ ↦
      d.editor.inbox = box ∧ d.workspace.mail.length = n ∧ d.workspace.Housed where
  inbox := And.left
  log _ hd := hd
  scripts _ hd := hd
  ask {d r} _ hd := ⟨hd.1, (r.respond c d.workspace).unheard.2.trans hd.2.1, hd.2.2.perform r⟩
  listen {d} hd := by
    have haudience (other : String) := audience_listen file other box d.workspace
    obtain ⟨listeners, ho⟩ := listen_outcome file box d.workspace
    simp only [ho] at haudience ⊢
    refine ⟨hd.1, hd.2.1, fun other reader hreader ↦ ?_⟩
    rw [haudience] at hreader
    split at hreader
    · obtain h | h := List.mem_append.1 hreader
      · exact hd.2.2 file reader h
      · rw [List.mem_singleton.1 h, hd.2.1]
        exact hbox
    · exact hd.2.2 other reader hreader
  unlisten {d} hd := by
    have haudience (other : String) := audience_unlisten file other box d.workspace
    obtain ⟨listeners, ho⟩ := unlisten_outcome file box d.workspace
    simp only [ho] at haudience ⊢
    refine ⟨hd.1, hd.2.1, fun other reader hreader ↦ ?_⟩
    rw [haudience] at hreader
    split at hreader
    · exact hd.2.2 file reader (List.mem_filter.1 hreader).1
    · exact hd.2.2 other reader hreader

namespace Framed

variable [LawfulStore τ] {sound clean : τ → Prop} {file : String} {asked : Request → Prop}
  {d₀ d : Desk σ τ} {rest : List Message} {m : Message}

omit [Archive σ] in
theorem of_withQueue (hw : d₀.workspace.waiting d₀.editor.inbox = m :: rest)
    (hm : m.file? = none ∨ m.file? = some file)
    (hd : Framed c clean file asked (d₀.withQueue rest) d) :
    Framed c clean file asked d₀ d where
  inbox := hd.inbox
  orderly := hd.orderly
  attends hbox := hd.attends (Desk.attends_withQueue hbox)
  called := hd.called
  scripts := hd.scripts
  elsewhere {other box} ho hbox := by
    rw [hd.elsewhere ho (Desk.attends_withQueue hbox)]
    by_cases hb : box = d₀.editor.inbox
    · have hother : m.isAbout other = false := by
        obtain h | h := hm <;> simp [Message.isAbout, h, Ne.symm ho]
      rw [hb, Desk.aspect_withQueue (by rw [hw]; exact List.cons_ne_nil _ _)]
      rw [aspect, hw, List.filter_cons_of_neg (by rw [hother]; decide)]
    · exact Desk.aspect_withQueue_of_ne rest hb
  here {box} hne hbox hclean := by
    rw [← Desk.aspect_withQueue_of_ne rest hne]
    exact hd.here hne (Desk.attends_withQueue hbox) hclean

theorem handleNext (d₀ : Desk σ τ) (hr : Remembers sound clean)
    (hsound : sound d₀.workspace.store) (hd : d₀.workspace.Orderly)
    (hfile : ∀ m ∈ (d₀.workspace.waiting d₀.editor.inbox).head?,
      m.file? = none ∨ m.file? = some file) :
    Framed c clean file (· = .listBreakpoints file) d₀ ((Editor.handleNext c).outcome d₀).2 := by
  cases hw : d₀.workspace.waiting d₀.editor.inbox with
  | nil =>
    rw [Editor.handleNext_nil hw]
    exact .refl hd
  | cons m rest =>
    have hm := hfile m (by rw [hw]; rfl)
    have hrefl : Framed c clean file (· = .listBreakpoints file) (d₀.withQueue rest)
        (d₀.withQueue rest) := .refl (Desk.orderly_withQueue hd)
    rw [Editor.handleNext_cons hw]
    refine .of_withQueue hw hm ?_
    obtain hnone | hsome := hm
    · cases m with
      | shutdown => exact hrefl
      | _ => cases hnone
    · exact (Framed.bears (d₀.withQueue rest) hr hsound fun _ h ↦ h ▸ rfl).handle hsome _ hrefl

theorem editorRequest (d₀ : Desk σ τ) (hr : Remembers sound clean)
    (hsound : sound d₀.workspace.store) (hd : d₀.workspace.Orderly) {r : EditorRequest}
    (hfile : r.file? = some file) :
    Framed c clean file (r.asks d₀.editor) d₀ ((r.perform c).outcome d₀).2 :=
  (Framed.bears d₀ hr hsound fun _ ↦ EditorRequest.asks_file hfile).editorRequest hfile (.refl hd)

end Framed

end Turns

end ScriptBreakpoints
