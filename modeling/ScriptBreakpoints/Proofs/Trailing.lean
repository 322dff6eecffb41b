import ScriptBreakpoints.Proofs.Moves
import ScriptBreakpoints.Proofs.Parallels

namespace ScriptBreakpoints

open Fallible Workspace

variable {σ τ α : Type}

/-- In the mailbox `box` first `old` waits in one workspace and `old'` in the other one. All else is
alike but for the log. -/
structure Workspace.Trails (box : Mailbox) (old old' : List Message) (w w' : Workspace σ τ) :
    Prop where
  named {file : String} {s : Script} : w.scripts[file]? = some s → s.file = file
  archive : w'.archive = w.archive
  store : w'.store = w.store
  scripts : w'.scripts = w.scripts
  listeners : w'.listeners = w.listeners
  length : w'.mail.length = w.mail.length
  others {other : Mailbox} : other ≠ box → w'.mail[other]? = w.mail[other]?
  mail : ∃ queue, w.mail[box]? = some ⟨old ++ queue, true⟩ ∧
    w'.mail[box]? = some ⟨old' ++ queue, true⟩

namespace Workspace.Trails

variable {box other : Mailbox} {old old' : List Message} {w w' : Workspace σ τ} {file : String}

theorem waiting (h : Trails box old old' w w') (hne : other ≠ box) :
    w'.waiting other = w.waiting other := by
  rw [Workspace.waiting, h.others hne, Workspace.waiting]

theorem of_eq (h : Trails box old old' w w') {v v' : Workspace σ τ}
    (hnamed : ∀ {file : String} {s : Script}, v.scripts[file]? = some s → s.file = file)
    (harchive : v'.archive = v.archive) (hstore : v'.store = v.store)
    (hscripts : v'.scripts = v.scripts) (hlisteners : v'.listeners = v.listeners)
    (hmail : v.mail = w.mail) (hmail' : v'.mail = w'.mail) : Trails box old old' v v' where
  named := hnamed
  archive := harchive
  store := hstore
  scripts := hscripts
  listeners := hlisteners
  length := by rw [hmail, hmail', h.length]
  others hne := by rw [hmail, hmail', h.others hne]
  mail := by rw [hmail, hmail']; exact h.mail

theorem logs (h : Trails box old old' w w') (log log' : List Notice) :
    Trails box old old' { w with log } { w' with log := log' } :=
  h.of_eq h.named h.archive h.store h.scripts h.listeners rfl rfl

theorem askArchive (call : σ → Except StorageFault α × σ) :
    Parallel (Trails box old old') (Workspace.askArchive call : Action σ τ _) := by
  intro w w' h
  rw [outcome_askArchive, outcome_askArchive, h.archive]
  exact ⟨rfl, h.of_eq h.named rfl h.store h.scripts h.listeners rfl rfl⟩

theorem askStore (call : τ → Except StorageFault α × τ) :
    Parallel (Trails box old old') (Workspace.askStore call : Action σ τ _) := by
  intro w w' h
  rw [outcome_askStore, outcome_askStore, h.store]
  exact ⟨rfl, h.of_eq h.named h.archive rfl h.scripts h.listeners rfl rfl⟩

theorem broadcast (m : Message) :
    Parallel (Trails box old old') (Workspace.broadcast file m : Action σ τ Unit) := by
  intro w w' h
  obtain ⟨log, ho⟩ := broadcast_delivers file m w
  obtain ⟨log', ho'⟩ := broadcast_delivers file m w'
  have haudience : w'.audience file = w.audience file := by
    rw [audience, h.listeners, audience]
  rw [ho, ho', haudience]
  refine ⟨rfl, h.named, h.archive, h.store, h.scripts, h.listeners, ?_, fun {other} hne ↦ ?_, ?_⟩
  · rw [length_deliver, length_deliver, h.length]
  · rw [getElem?_deliver, getElem?_deliver, h.others hne]
  · obtain ⟨queue, hq, hq'⟩ := h.mail
    refine ⟨queue ++ List.replicate ((w.audience file).count box) m, ?_, ?_⟩
    · rw [getElem?_deliver, hq, ← List.append_assoc]
      rfl
    · rw [getElem?_deliver, hq', ← List.append_assoc]
      rfl

theorem ties [Archive σ] [BreakpointStore τ] (file : String) :
    Workspace.Ties (σ := σ) (τ := τ) file (Trails box old old') where
  tracked h := by rw [h.scripts]
  named h := h.named
  log log log' h := h.logs log log'
  put {s} hs w w' h := by
    rw [outcome_putScript, outcome_putScript, h.scripts]
    refine ⟨rfl, h.of_eq (fun {other t} ht ↦ ?_) h.archive h.store rfl h.listeners rfl rfl⟩
    obtain ⟨rfl, rfl⟩ | ⟨-, ht⟩ := cases_of_insert ht
    · exact hs
    · exact h.named ht
  read := askArchive _
  write _ := askArchive _
  add _ := askStore _
  remove _ := askStore _
  resync _ := askStore _
  list := askStore _
  broadcast _ := broadcast _
  listen reader w w' h := by
    simp only [listen, outcome_modify, h.listeners]
    split
    · exact ⟨trivial, h⟩
    · exact ⟨trivial, h.of_eq h.named h.archive h.store h.scripts rfl rfl rfl⟩
  unlisten reader w w' h := by
    simp only [unlisten, outcome_modify, h.listeners]
    split
    · exact ⟨trivial, h.of_eq h.named h.archive h.store h.scripts rfl rfl rfl⟩
    · exact ⟨trivial, h.of_eq h.named h.archive h.store h.scripts rfl rfl rfl⟩

theorem newMailbox (h : Trails box old old' w w') :
    Trails box old old' { w with mail := w.mail ++ [.new] }
      { w' with mail := w'.mail ++ [.new] } where
  named := h.named
  archive := h.archive
  store := h.store
  scripts := h.scripts
  listeners := h.listeners
  length := by rw [List.length_append, List.length_append, h.length]
  others {other} hne := by
    rw [List.getElem?_append, List.getElem?_append, h.length, h.others hne]
  mail := by
    obtain ⟨queue, hq, hq'⟩ := h.mail
    refine ⟨queue, ?_, ?_⟩
    · rw [List.getElem?_append_left (List.getElem?_eq_some_iff.1 hq).1, hq]
    · rw [List.getElem?_append_left (List.getElem?_eq_some_iff.1 hq').1, hq']

end Workspace.Trails

namespace Desk

variable {box : Mailbox} {old old' rest rest' : List Message} {d d' : Desk σ τ} {file : String}

def SameAt (inbox : Mailbox) (e e' : Editor) : Prop := e' = e ∧ e.inbox = inbox

theorem SameAt.ties (inbox : Mailbox) (file : String) : Editor.Ties file (SameAt inbox) where
  inbox h := by rw [h.1]
  opened h := by rw [h.1]
  put o h := ⟨by rw [h.1], h.2⟩
  erase h := ⟨by rw [h.1], h.2⟩

abbrev Trail (inbox box : Mailbox) (old old' : List Message) : Desk σ τ → Desk σ τ → Prop :=
  Tied (SameAt inbox) (Trails box old old')

variable {inbox : Mailbox}

theorem Trail.withQueue (h : d.Trail inbox box old old' d') (hne : inbox ≠ box)
    (queue : List Message) :
    (d.withQueue queue).Trail inbox box old old' (d'.withQueue queue) := by
  obtain ⟨⟨he, hinbox⟩, hw⟩ := h
  refine ⟨⟨he, hinbox⟩, hw.named, hw.archive, hw.store, hw.scripts, hw.listeners, ?_, ?_, ?_⟩
  · simp only [Desk.withQueue, List.length_modify, hw.length]
  · intro other hother
    simp only [Desk.withQueue, List.getElem?_modify, hw.others hother, he]
  · obtain ⟨queue', hq, hq'⟩ := hw.mail
    have hne' : d.editor.inbox ≠ box := hinbox ▸ hne
    refine ⟨queue', ?_, ?_⟩
    · simp only [Desk.withQueue, List.getElem?_modify, if_neg hne', hq]
      rfl
    · simp only [Desk.withQueue, List.getElem?_modify, he, if_neg hne', hq']
      rfl

theorem Trail.withOwnQueue (h : d.Trail box box old old' d') (queue : List Message) :
    (d.withQueue (rest ++ queue)).Trail box box rest rest' (d'.withQueue (rest' ++ queue)) := by
  obtain ⟨⟨he, rfl⟩, hw⟩ := h
  refine ⟨⟨he, rfl⟩, hw.named, hw.archive, hw.store, hw.scripts, hw.listeners, ?_, ?_, ?_⟩
  · simp only [Desk.withQueue, List.length_modify, hw.length]
  · intro other hother
    simp only [Desk.withQueue, List.getElem?_modify, hw.others hother, he, if_neg (Ne.symm hother)]
  · obtain ⟨queue', hq, hq'⟩ := hw.mail
    refine ⟨queue, ?_, ?_⟩
    · simp only [Desk.withQueue, List.getElem?_modify, hq]
      simp
    · simp only [Desk.withQueue, List.getElem?_modify, he, hq']
      simp

theorem withQueue_self {queue : List Message}
    (h : d.workspace.mail[d.editor.inbox]? = some ⟨queue, true⟩) : d.withQueue queue = d := by
  have hmail : d.workspace.mail.modify d.editor.inbox (fun c ↦ { c with queue }) =
      d.workspace.mail := by
    refine List.ext_getElem? fun other ↦ ?_
    rw [List.getElem?_modify]
    by_cases ho : d.editor.inbox = other
    · simp [← ho, h]
    · simp [ho]
  rw [Desk.withQueue, hmail]

theorem Trail.withoutFirst {m : Message} (h : d.Trail box box (m :: rest) rest' d') :
    ∃ queue, d.workspace.waiting d.editor.inbox = m :: (rest ++ queue) ∧
      (d.withQueue (rest ++ queue)).Trail box box rest rest' d' := by
  obtain ⟨queue, hq, hq'⟩ := h.workspace.mail
  have htrail : (d.withQueue (rest ++ queue)).Trail box box rest rest'
      (d'.withQueue (rest' ++ queue)) := h.withOwnQueue queue
  rw [← h.editor.2] at hq hq'
  rw [← h.editor.1] at hq'
  rw [withQueue_self hq'] at htrail
  refine ⟨queue, ?_, htrail⟩
  rw [waiting, hq]
  rfl

variable [Archive σ] [BreakpointStore τ] {c : Compiler}

theorem Trail.handle (m : Message) :
    Parallel (Trail (σ := σ) (τ := τ) inbox box old old') (Editor.handle c m) := by
  cases hm : m.file? with
  | none =>
    obtain rfl := Message.file?_eq_none.1 hm
    exact .pure _
  | some file => exact Ties.handle c hm ⟨SameAt.ties inbox file, Trails.ties file⟩

theorem Trail.handleNext (hne : inbox ≠ box) :
    Parallel (Trail (σ := σ) (τ := τ) inbox box old old') (Editor.handleNext c) := by
  intro d d' h
  have hwaiting : d'.workspace.waiting d'.editor.inbox = d.workspace.waiting d.editor.inbox := by
    rw [h.editor.1, h.workspace.waiting (h.editor.2 ▸ hne)]
  cases hw : d.workspace.waiting d.editor.inbox with
  | nil =>
    rw [Editor.handleNext_nil hw, Editor.handleNext_nil (hwaiting.trans hw)]
    exact ⟨rfl, h⟩
  | cons m rest =>
    rw [Editor.handleNext_cons hw, Editor.handleNext_cons (hwaiting.trans hw)]
    exact Trail.handle m _ _ (h.withQueue hne rest)

theorem Trail.handleAll (hne : inbox ≠ box) (ms : List Message) :
    Parallel (Trail (σ := σ) (τ := τ) inbox box old old') (Editor.handleAll c ms) := by
  induction ms with
  | nil => exact .pure _
  | cons m rest ih =>
    refine Parallel.bind (.modify fun d d' h ↦ h.withQueue hne rest) fun _ ↦ ?_
    exact (Trail.handle m).bind fun _ ↦ .ite (ih.bind fun _ ↦ .pure _) (.pure _)

theorem Trail.runPending (hne : inbox ≠ box) :
    Parallel (Trail (σ := σ) (τ := τ) inbox box old old') (Editor.runPending c) := by
  refine .of_get fun d d' h ↦ ⟨?_, Trail.handleAll hne _⟩
  rw [Editor.waitingMail, Editor.waitingMail, h.editor.1, h.workspace.others (h.editor.2 ▸ hne)]

theorem Trail.handleFirst {m : Message} (h : d.Trail box box (m :: rest) (m :: rest') d') :
    ((Editor.handleNext c).outcome d).2.Trail box box rest rest'
      ((Editor.handleNext c).outcome d').2 := by
  obtain ⟨queue, hq, hq'⟩ := h.workspace.mail
  have hw : d.workspace.waiting d.editor.inbox = m :: (rest ++ queue) := by
    rw [h.editor.2, waiting, hq]
    rfl
  have hw' : d'.workspace.waiting d'.editor.inbox = m :: (rest' ++ queue) := by
    rw [h.editor.1, h.editor.2, waiting, hq']
    rfl
  rw [Editor.handleNext_cons hw, Editor.handleNext_cons hw']
  exact (Trail.handle m _ _ (h.withOwnQueue queue)).2

theorem Trail.handleRest (h : d.Trail box box [] [] d') :
    ((Editor.handleNext c).outcome d).2.Trail box box [] []
      ((Editor.handleNext c).outcome d').2 := by
  obtain ⟨queue, hq, hq'⟩ := h.workspace.mail
  cases queue with
  | nil =>
    have hw : d.workspace.waiting d.editor.inbox = [] := by
      rw [h.editor.2, waiting, hq]
      rfl
    have hw' : d'.workspace.waiting d'.editor.inbox = [] := by
      rw [h.editor.1, h.editor.2, waiting, hq']
      rfl
    rw [Editor.handleNext_nil hw, Editor.handleNext_nil hw']
    exact h
  | cons m queue =>
    have hfirst : d.Trail box box [m] [m] d' :=
      ⟨h.editor, { h.workspace with mail := ⟨queue, hq, hq'⟩ }⟩
    exact hfirst.handleFirst

end Desk

namespace Session

/-- Sessions in which all is alike but what waits first for the editor at seat `i`. -/
structure Trails (i : Nat) (old old' : List Message) (s s' : Session σ τ) : Prop where
  seats : s'.seats = s.seats
  workspace : ∃ e, s.seats[i]? = some ⟨e.inbox, some e⟩ ∧
    s.workspace.Trails e.inbox old old' s'.workspace

namespace Trails

variable {i j : Nat} {old old' rest rest' : List Message} {s s' : Session σ τ} {e e' : Editor}
  {x : EditorAction (Refusing ArchiveCall σ) (Refusing StoreCall τ) Reply}

theorem shown (h : s.Trails i old old' s') (j : Nat) (file : String) :
    s'.shown j file = s.shown j file := by
  rw [Session.shown, editorAt, h.seats, Session.shown, editorAt]

theorem desk (h : s.Trails i old old' s') (hi : s.seats[i]? = some ⟨e.inbox, some e⟩) :
    (⟨e, s.workspace⟩ : Session.Desk σ τ).Trail e.inbox e.inbox old old' ⟨e, s'.workspace⟩ := by
  obtain ⟨e', hi', hw⟩ := h.workspace
  obtain rfl := seated_unique hi hi'
  exact ⟨⟨rfl, rfl⟩, hw⟩

theorem of_atSeat (hseats : s'.seats = s.seats) (hi : s.seats[i]? = some ⟨e.inbox, some e⟩)
    (hj : s.seats[j]? = some ⟨e'.inbox, some e'⟩)
    (hx : (x.outcome ⟨e', s.workspace⟩).2.Trail e'.inbox e.inbox rest rest'
      (x.outcome ⟨e', s'.workspace⟩).2) :
    (s.atSeat j x).2.Trails i rest rest' (s'.atSeat j x).2 := by
  have hlt := (List.getElem?_eq_some_iff.1 hj).1
  simp only [atSeat, hseats, hj]
  refine ⟨by rw [hx.editor.1], ?_⟩
  by_cases hji : j = i
  · subst hji
    obtain rfl := seated_unique hi hj
    refine ⟨(x.outcome ⟨e', s.workspace⟩).2.editor, ?_, ?_⟩
    · rw [List.getElem?_set_self hlt, hx.editor.2]
    · rw [hx.editor.2]
      exact hx.workspace
  · exact ⟨e, by rw [List.getElem?_set_ne hji, hi], hx.workspace⟩

theorem atSeat (hs : s.Sound) (h : s.Trails i old old' s')
    (hx : ∀ inbox box, (j ≠ i → inbox ≠ box) → Parallel (Desk.Trail inbox box old old') x) :
    (s.atSeat j x).2.Trails i old old' (s'.atSeat j x).2 := by
  obtain ⟨e, hi, hw⟩ := h.workspace
  obtain hj | ⟨e', hj⟩ := hs.seat_cases j
  · rw [atSeat_vacant hj, atSeat_vacant (by rw [h.seats, hj])]
    exact h
  · have hne (hji : j ≠ i) : e'.inbox ≠ e.inbox := fun hbox ↦ hji (hs.apart hj hi hbox)
    have hdesk : Desk.Trail e'.inbox e.inbox old old' ⟨e', s.workspace⟩ ⟨e', s'.workspace⟩ :=
      ⟨⟨rfl, rfl⟩, hw⟩
    exact of_atSeat h.seats hi hj (hx _ _ hne _ _ hdesk).2

variable [Archive σ] [BreakpointStore τ] {c : Compiler} {m : Move}

/-- Whatever is done but that the editor itself handles mail. -/
theorem move (hs : s.Sound) (h : s.Trails i old old' s') (hnext : m ≠ .next i)
    (hpending : m ≠ .editor i .runPending) :
    (Session.move c m s).2.Trails i old old' (Session.move c m s').2 := by
  cases m with
  | ask r =>
    obtain ⟨e, hi, hw⟩ := h.workspace
    exact ⟨h.seats, e, hi, ((Trails.ties r.file).perform c r _ _ hw).2⟩
  | next j =>
    have hji : j ≠ i := fun hji ↦ hnext (hji ▸ rfl)
    exact h.atSeat hs fun _ _ hne ↦ (Desk.Trail.handleNext (hne hji)).bind fun _ ↦ .pure _
  | newEditor =>
    obtain ⟨e, hi, hw⟩ := h.workspace
    refine ⟨?_, e, ?_, hw.newMailbox⟩
    · simp only [Session.move, step, newEditor, h.seats, hw.length]
    · exact (List.getElem?_append_left (List.getElem?_eq_some_iff.1 hi).1).trans hi
  | editor j r =>
    refine h.atSeat hs fun inbox box hne ↦ ?_
    cases hfile : r.file? with
    | some file =>
      exact Desk.Ties.editorRequest c hfile ⟨Desk.SameAt.ties inbox file, Trails.ties file⟩
    | none =>
      obtain rfl := EditorRequest.file?_eq_none.1 hfile
      have hji : j ≠ i := fun hji ↦ hpending (hji ▸ rfl)
      exact (Desk.Trail.runPending (hne hji)).bind fun _ ↦ .pure _

end Trails

end Session

end ScriptBreakpoints
