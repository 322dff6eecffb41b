import ScriptBreakpoints.Proofs.Moves
import ScriptBreakpoints.Proofs.Sessions

namespace ScriptBreakpoints

open Fallible Workspace

variable {σ τ : Type} [Archive σ] [BreakpointStore τ]

/-- `I` is about scripts and the store, and no request out of `asked` takes it away. -/
structure Withstands (c : Compiler) (asked : Request → Prop) (I : Workspace σ τ → Prop) :
    Prop where
  frame {w w' : Workspace σ τ} : w'.scripts = w.scripts → w'.store = w.store → I w → I w'
  ask {w : Workspace σ τ} {r : Request} : asked r → I w → I ((r.perform c).outcome w).2

namespace Withstands

variable {c : Compiler} {asked : Request → Prop} {I : Workspace σ τ → Prop}

theorem bears (hI : Withstands c asked I) (box : Mailbox) (file : String) :
    Bears c box file asked fun d : Desk σ τ ↦ I d.workspace ∧ d.editor.inbox = box :=
  .of_workspace (fun w _ _ ↦ hI.frame (w := w) rfl rfl) (fun _ hr _ ↦ hI.ask hr) box file

end Withstands

def Move.saves (file : String) : Move → Prop
  | .ask r => r.isSave = true ∧ r.file = file
  | .editor _ r => r = .save file
  | _ => False

namespace Session

theorem Asks.unsaved {σ τ : Type} {s : Session σ τ} {m : Move} {r : Request} {file : String}
    (h : s.Asks m r) (hm : ¬m.saves file) (hfile : r.file = file) : r.isSave = false := by
  cases m with
  | ask r' =>
    cases h
    exact Bool.eq_false_iff.2 fun hsave ↦ hm ⟨hsave, hfile⟩
  | newEditor => exact h.elim
  | next i =>
    obtain ⟨f, rfl⟩ := h
    rfl
  | editor i r' =>
    obtain ⟨e, -, h⟩ | ⟨-, f, rfl⟩ := h
    · cases hsave : r'.isSave with
      | false => exact EditorRequest.asks_isSave hsave h
      | true =>
        cases r' with
        | save f =>
          rw [EditorRequest.asks_file rfl h] at hfile
          exact absurd (hfile ▸ rfl) hm
        | _ => cases hsave
    · rfl

variable {c : Compiler} {asked : Request → Prop} {I : Refusable σ τ → Prop} {s : Session σ τ}
  [LawfulStore τ]

/-- What editors bear, whatever mail they have, is kept by every move but that of a new editor. -/
theorem bears_move
    (hI : ∀ box file, Bears c box file asked
      fun d : Session.Desk σ τ ↦ I d.workspace ∧ d.editor.inbox = box)
    (hmail : ∀ (w : Refusable σ τ) (box : Mailbox) (queue : List Message), I w →
      I { w with mail := w.mail.modify box fun ch ↦ { ch with queue } })
    (hs : s.Sound) {m : Move} (hm : m ≠ .newEditor) (hasks : ∀ r, s.Asks m r → asked r)
    (h : I s.workspace) : I (move c m s).2.workspace := by
  have hnext (s : Session σ τ) (hs : s.Sound) (hlist : ∀ file, asked (.listBreakpoints file))
      (i : Nat) (h : I s.workspace) : I (move c (.next i) s).2.workspace := by
    obtain hi | ⟨e, hi⟩ := hs.seat_cases i
    · rw [(move_vacant hi .runPending).2]
      exact h
    · rw [move_next hi]
      have hhandle (m : Message) : Keeps (fun d : Session.Desk σ τ ↦
          I d.workspace ∧ d.editor.inbox = e.inbox) (Editor.handle c m) :=
        Editor.keeps_handle
          (fun file ↦ (hI e.inbox file).toSpares.mono fun r hr ↦ hr ▸ hlist file) m
      exact (Editor.keeps_handleNext
        (fun d queue hd ↦ ⟨hmail d.workspace d.editor.inbox queue hd.1, hd.2⟩) hhandle
        ⟨e, s.workspace⟩ ⟨h, rfl⟩).1
  cases m with
  | newEditor => exact absurd rfl hm
  | ask r => exact ((hI 0 "").ask (d := ⟨{ inbox := 0 }, s.workspace⟩) (hasks r rfl) ⟨h, rfl⟩).1
  | next i => exact hnext s hs (fun file ↦ hasks _ ⟨file, rfl⟩) i h
  | editor i r =>
    cases hfile : r.file? with
    | none =>
      obtain rfl := EditorRequest.file?_eq_none.1 hfile
      have hlist (file : String) := hasks _ (.inr ⟨rfl, file, rfl⟩)
      exact runPending_keeps (P := fun s ↦ I s.workspace) hs
        (fun s hs h ↦ hnext s hs hlist i h) h
    | some file =>
      obtain hi | ⟨e, hi⟩ := hs.seat_cases i
      · rw [(move_vacant hi r).1]
        exact h
      · have hasked (asked' : Request) (hr : r.asks e asked') : asked asked' :=
          hasks _ (.inl ⟨e, by rw [editorAt, hi]; rfl, hr⟩)
        rw [move_editor hs hi hfile]
        have hbears := (hI e.inbox file).mono hasked
        exact (hbears.editorRequest (d := ⟨e, s.workspace⟩) hfile ⟨h, rfl⟩).1

theorem withstands_move (hI : Withstands c asked I) (hs : s.Sound) {m : Move}
    (hm : ∀ r, s.Asks m r → asked r) (h : I s.workspace) : I (move c m s).2.workspace := by
  by_cases hnew : m = .newEditor
  · subst hnew
    exact hI.frame (w := s.workspace) rfl rfl h
  · exact bears_move (fun box file ↦ hI.bears box file)
      (fun w _ _ hw ↦ hI.frame (w := w) rfl rfl hw) hs hnew hm h

end Session

end ScriptBreakpoints
