import ScriptBreakpoints.Proofs.Scenes
import ScriptBreakpoints.Proofs.Turns
import ScriptBreakpoints.Session

namespace ScriptBreakpoints

open Fallible Workspace

inductive Move
  | ask (r : Request)
  | editor (i : Nat) (r : EditorRequest)
  | next (i : Nat)
  | newEditor

def Message.reload? : Message → Option Reload
  | .reload e => some e
  | _ => none

theorem Message.reload?_eq_some {m : Message} {e : Reload} :
    m.reload? = some e ↔ m = .reload e := by
  cases m <;> simp [reload?]

def Message.reloaded? (m : Message) : Option String := m.reload?.map (·.file)

theorem Message.reloaded?_eq_some {m : Message} {file : String} :
    m.reloaded? = some file ↔ ∃ e, m = .reload e ∧ e.file = file := by
  simp only [reloaded?, Option.map_eq_some_iff, reload?_eq_some]

namespace Session

abbrev Desk (σ τ : Type) := ScriptBreakpoints.Desk (Refusing ArchiveCall σ) (Refusing StoreCall τ)

variable {σ τ : Type}

section Defs

variable [Archive σ] [BreakpointStore τ] (c : Compiler)

def move : Move → Step σ τ
  | .ask r => step c (.ask r)
  | .editor i r => step c (.editor i r)
  | .next i => atSeat i do return .flag (← Editor.handleNext c)
  | .newEditor => step c .newEditor

def after (s : Session σ τ) (ms : List Move) : Session σ τ :=
  ms.foldl (fun s m ↦ (move c m s).2) s

def Along (allowed : Session σ τ → Move → Prop) : Session σ τ → List Move → Prop
  | _, [] => True
  | s, m :: ms => allowed s m ∧ Along allowed (move c m s).2 ms

end Defs

def editorAt (s : Session σ τ) (i : Nat) : Option Editor := s.seats[i]?.bind (·.editor)

def shown (s : Session σ τ) (i : Nat) (file : String) : Option OpenScript :=
  (s.editorAt i).bind (·.scripts[file]?)

def inbox (s : Session σ τ) (i : Nat) : List Message :=
  ((s.editorAt i).map fun e ↦ s.workspace.waiting e.inbox).getD []

def Asks (s : Session σ τ) : Move → Request → Prop
  | .ask r, asked => asked = r
  | .editor i r, asked => (∃ e, s.editorAt i = some e ∧ r.asks e asked) ∨
      r = .runPending ∧ ∃ file, asked = .listBreakpoints file
  | .next _, asked => ∃ file, asked = .listBreakpoints file
  | .newEditor, _ => False

/-- A move by which the editor at seat `i` does nothing about a script. -/
def Aside (i : Nat) (file : String) (s : Session σ τ) : Move → Prop
  | .editor j r => j = i → ∃ other ≠ file, r.file? = some other
  | .next j => j = i → ∀ m ∈ (s.inbox i).head?, m.file? ≠ some file
  | _ => True

def put (i : Nat) (d : Desk σ τ) (s : Session σ τ) : Session σ τ :=
  { s with workspace := d.workspace, seats := s.seats.set i ⟨d.editor.inbox, some d.editor⟩ }

/-- Tracked scripts know their names, and every seat has an editor and a mailbox of its own. -/
structure Sound (s : Session σ τ) : Prop where
  orderly : s.workspace.Orderly
  housed : s.workspace.Housed
  seated {i : Nat} {seat : Seat} : s.seats[i]? = some seat →
    ∃ e, seat = ⟨e.inbox, some e⟩ ∧ s.workspace.Attends e.inbox
  apart {i j : Nat} {seat other : Seat} : s.seats[i]? = some seat → s.seats[j]? = some other →
    seat.inbox = other.inbox → i = j

/-- The editor at seat `i` shows `v` of a script, and its mailbox sees `a` of it. -/
def Scene [BreakpointStore τ] [LawfulStore τ] (i : Nat) (file : String) (v : Option OpenScript)
    (a : Aspect) (s : Session σ τ) : Prop :=
  ∃ e, s.seats[i]? = some ⟨e.inbox, some e⟩ ∧ Shows file e.inbox v a ⟨e, s.workspace⟩

section Answers

def readiness? : Except Failure Reply → Option Readiness
  | .ok (.readiness r) => r
  | _ => none

def isDone : Except Failure Reply → Bool
  | .ok .done => true
  | _ => false

variable {answer : Except Failure Reply}

theorem readiness?_eq_some {r : Readiness} :
    readiness? answer = some r ↔ answer = .ok (.readiness (some r)) := by
  unfold readiness?
  split
  · simp
  · next hne => simpa using hne (some r)

theorem isDone_iff : isDone answer = true ↔ answer = .ok .done := by
  unfold isDone
  split
  · simp
  · next hne => simpa using hne

end Answers

section Seats

variable {s : Session σ τ} {i j : Nat} {e : Editor} {d : Desk σ τ}

theorem atSeat_seated (hi : s.seats[i]? = some ⟨e.inbox, some e⟩)
    (action : EditorAction (Refusing ArchiveCall σ) (Refusing StoreCall τ) Reply)
    (hinbox : (action.outcome ⟨e, s.workspace⟩).2.editor.inbox = e.inbox) :
    s.atSeat i action = ((action.outcome ⟨e, s.workspace⟩).1.mapError .fault,
      s.put i (action.outcome ⟨e, s.workspace⟩).2) := by
  simp only [atSeat, hi, put, hinbox]

theorem atSeat_vacant (hi : s.seats[i]? = none)
    (action : EditorAction (Refusing ArchiveCall σ) (Refusing StoreCall τ) Reply) :
    s.atSeat i action = (.ok .stopped, s) := by
  simp only [atSeat, hi]

theorem put_self (hi : s.seats[i]? = some ⟨e.inbox, some e⟩) : s.put i ⟨e, s.workspace⟩ = s := by
  have hset : s.seats.set i ⟨e.inbox, some e⟩ = s.seats := by
    obtain ⟨hlt, h⟩ := List.getElem?_eq_some_iff.1 hi
    rw [← h, List.set_getElem_self]
  rw [put, hset]

theorem put_put (d' : Desk σ τ) : (s.put i d).put i d' = s.put i d' := by
  simp only [put, List.set_set]

theorem seats_put_self (hi : s.seats[i]? = some seat) :
    (s.put i d).seats[i]? = some ⟨d.editor.inbox, some d.editor⟩ := by
  obtain ⟨hlt, -⟩ := List.getElem?_eq_some_iff.1 hi
  rw [put, List.getElem?_set_self hlt]

theorem seated_unique {e' : Editor} (hi : s.seats[i]? = some ⟨e.inbox, some e⟩)
    (hi' : s.seats[i]? = some ⟨e'.inbox, some e'⟩) : e' = e := by
  have h := congrArg Seat.editor (Option.some.inj (hi'.symm.trans hi))
  exact Option.some.inj h

/-- Whatever an editor does about a script, it handles messages or does what it was asked. -/
theorem aside_or (s : Session σ τ) (i : Nat) (file : String) (m : Move) :
    s.Aside i file m ∨ m = .next i ∨ m = .editor i .runPending ∨
      ∃ r, m = .editor i r ∧ r.file? = some file := by
  cases m with
  | ask r => exact .inl trivial
  | newEditor => exact .inl trivial
  | next j =>
    by_cases hji : j = i
    · exact .inr (.inl (hji ▸ rfl))
    · exact .inl fun h ↦ absurd h hji
  | editor j r =>
    by_cases hji : j = i
    · subst hji
      cases hfile : r.file? with
      | none =>
        obtain rfl := EditorRequest.file?_eq_none.1 hfile
        exact .inr (.inr (.inl rfl))
      | some other =>
        by_cases hother : other = file
        · exact .inr (.inr (.inr ⟨r, rfl, hother ▸ hfile⟩))
        · exact .inl fun _ ↦ ⟨other, hother, hfile⟩
    · exact .inl fun h ↦ absurd h hji

theorem aside_next_or (s : Session σ τ) (i : Nat) (file : String) :
    s.Aside i file (.next i) ∨ ∃ m rest, s.inbox i = m :: rest ∧ m.file? = some file := by
  by_cases h : s.Aside i file (.next i)
  · exact .inl h
  · simp only [Aside, true_implies, not_forall, not_not] at h
    obtain ⟨m, hhead, hfile⟩ := h
    obtain ⟨rest, hinbox⟩ := List.head?_eq_some_iff.1 hhead
    exact .inr ⟨m, rest, hinbox, hfile⟩

theorem Sound.attends (hs : s.Sound) (hi : s.seats[i]? = some ⟨e.inbox, some e⟩) :
    s.workspace.Attends e.inbox := by
  obtain ⟨e', heq, hattends⟩ := hs.seated hi
  have he : e = e' := Option.some.inj (congrArg Seat.editor heq)
  rwa [he]

theorem Sound.inbox_lt (hs : s.Sound) (hi : s.seats[i]? = some ⟨e.inbox, some e⟩) :
    e.inbox < s.workspace.mail.length := by
  obtain ⟨queue, h⟩ := hs.attends hi
  exact (List.getElem?_eq_some_iff.1 h).1

theorem seats_put_of_ne (h : j ≠ i) : (s.put i d).seats[j]? = s.seats[j]? :=
  List.getElem?_set_ne (Ne.symm h)

theorem seats_put_none (h : s.seats[j]? = none) : (s.put i d).seats[j]? = none := by
  rw [List.getElem?_eq_none_iff] at h ⊢
  rwa [put, List.length_set]

end Seats

section Turns

variable [BreakpointStore τ] [LawfulStore τ] {c : Compiler} {clean : Refusing StoreCall τ → Prop}
  {s : Session σ τ} {i j : Nat} {e : Editor} {d : Desk σ τ} {file other : String}
  {asked : Request → Prop} {v : Option OpenScript} {a : Aspect}

theorem Sound.put (hs : s.Sound) (hi : s.seats[i]? = some ⟨e.inbox, some e⟩)
    (hd : Framed c clean file asked ⟨e, s.workspace⟩ d) (hhoused : d.workspace.Housed) :
    (s.put i d).Sound := by
  have hseats {j : Nat} {seat : Seat} (hj : (s.put i d).seats[j]? = some seat) :
      ∃ old, s.seats[j]? = some old ∧ seat.inbox = old.inbox ∧
        ∃ e, seat = ⟨e.inbox, some e⟩ := by
    by_cases hji : j = i
    · subst hji
      rw [seats_put_self hi] at hj
      cases hj
      exact ⟨_, hi, hd.inbox, _, rfl⟩
    · rw [seats_put_of_ne hji] at hj
      obtain ⟨e, rfl, -⟩ := hs.seated hj
      exact ⟨_, hj, rfl, e, rfl⟩
  refine ⟨hd.orderly, hhoused, fun {j seat} hj ↦ ?_, fun {j k seat other} hj hk heq ↦ ?_⟩
  · obtain ⟨old, hold, hinbox, e', rfl⟩ := hseats hj
    obtain ⟨_, rfl, hattends⟩ := hs.seated hold
    refine ⟨e', rfl, hd.attends ?_⟩
    rw [show e'.inbox = _ from hinbox]
    exact hattends
  · obtain ⟨_, hold, hinbox, -⟩ := hseats hj
    obtain ⟨_, hold', hinbox', -⟩ := hseats hk
    exact hs.apart hold hold' (hinbox.symm.trans (heq.trans hinbox'))

/-- What an editor does about one script changes nothing of what it has open of others, and nothing
of what others have open. -/
theorem Scene.put (hs : s.Sound) (hi : s.Scene i file v a)
    (hj : s.seats[j]? = some ⟨e.inbox, some e⟩) (hne : j = i → file ≠ other)
    (hd : Framed c clean other asked ⟨e, s.workspace⟩ d)
    (hclean : (file = other → ∀ r, asked r → r.isSave = false) ∨ clean d.workspace.store) :
    ∃ a', (s.put j d).Scene i file v a' ∧ a.Follows c file asked a' := by
  obtain ⟨e', hi, hshows⟩ := hi
  have hattends : s.workspace.Attends e'.inbox := hshows.attends
  have haspect : s.workspace.aspect file e'.inbox = a := hshows.aspect
  by_cases hji : j = i
  · -- the editor itself is busy with another script
    subst hji
    obtain rfl := seated_unique hj hi
    have hfile := hne rfl
    refine ⟨a, ⟨d.editor, seats_put_self hi, rfl, hd.orderly, ?_, ?_, ?_⟩, .refl⟩
    · rw [hd.inbox]
      exact hd.attends hattends
    · exact (hd.scripts hfile).trans hshows.view
    · rw [hd.inbox]
      exact (hd.elsewhere hfile hattends).trans haspect
  · have hbox : e'.inbox ≠ e.inbox := fun h ↦ hji (hs.apart hj hi h.symm)
    have hseat : (s.put j d).seats[i]? = some ⟨e'.inbox, some e'⟩ := by
      rw [seats_put_of_ne (Ne.symm hji), hi]
    refine ⟨d.workspace.aspect file e'.inbox, ⟨e', hseat, rfl, hd.orderly, hd.attends hattends,
      hshows.view, rfl⟩, ?_⟩
    by_cases hfile : file = other
    · subst hfile
      rw [← haspect]
      exact hd.here hbox hattends (hclean.imp_left fun h ↦ h rfl)
    · rw [hd.elsewhere hfile hattends, haspect]
      exact .refl

theorem Scene.put_self (hi : s.seats[i]? = some ⟨e.inbox, some e⟩)
    (hd : Shows file e.inbox v a d) : (s.put i d).Scene i file v a := by
  refine ⟨d.editor, seats_put_self hi, ?_⟩
  rw [hd.inbox]
  exact hd

variable [Archive σ]

omit [LawfulStore τ] in
theorem perform_housed (hs : s.Sound) (hi : s.seats[i]? = some ⟨e.inbox, some e⟩)
    {r : EditorRequest} (hfile : r.file? = some file) :
    ((r.perform c).outcome ⟨e, s.workspace⟩).2.workspace.Housed := by
  exact ((Housed.bears (hs.inbox_lt hi) file _).editorRequest hfile ⟨rfl, rfl, hs.housed⟩).2.2

omit [LawfulStore τ] in
theorem handleNext_housed (hs : s.Sound) (hi : s.seats[i]? = some ⟨e.inbox, some e⟩) :
    ((Editor.handleNext c).outcome ⟨e, s.workspace⟩).2.workspace.Housed := by
  refine (Editor.keeps_handleNext (I := fun d ↦ d.editor.inbox = e.inbox ∧
    d.workspace.mail.length = s.workspace.mail.length ∧ d.workspace.Housed) (fun d queue hd ↦ ?_)
    (Editor.keeps_handle fun file ↦ (Housed.bears (hs.inbox_lt hi) file _).toSpares)
    ⟨e, s.workspace⟩ ⟨rfl, rfl, hs.housed⟩).2.2
  refine ⟨hd.1, List.length_modify .. |>.trans hd.2.1, fun file box hbox ↦ ?_⟩
  rw [Desk.withQueue, List.length_modify]
  exact hd.2.2 file box hbox

theorem move_editor (hs : s.Sound) (hi : s.seats[i]? = some ⟨e.inbox, some e⟩)
    {r : EditorRequest} (hfile : r.file? = some file)  :
    move c (.editor i r) s = (((r.perform c).outcome ⟨e, s.workspace⟩).1.mapError .fault,
      s.put i ((r.perform c).outcome ⟨e, s.workspace⟩).2) :=
  atSeat_seated hi _ (Framed.editorRequest _ remembers_nothing trivial hs.orderly hfile).inbox

omit [LawfulStore τ] in
theorem move_next (hi : s.seats[i]? = some ⟨e.inbox, some e⟩) :
    (move c (.next i) s).2 = s.put i ((Editor.handleNext c).outcome ⟨e, s.workspace⟩).2 := by
  rw [move, atSeat_seated hi, outcome_bind_pure]
  rw [outcome_bind_pure]
  exact Editor.handleNext_inbox _

omit [LawfulStore τ] in
theorem move_vacant (hi : s.seats[i]? = none) (r : EditorRequest) :
    (move c (.editor i r) s).2 = s ∧ (move c (.next i) s).2 = s :=
  ⟨congrArg Prod.snd (atSeat_vacant hi _), congrArg Prod.snd (atSeat_vacant hi _)⟩

omit [BreakpointStore τ] [LawfulStore τ] [Archive σ] in
theorem Sound.seat_cases (hs : s.Sound) (i : Nat) :
    s.seats[i]? = none ∨ ∃ e, s.seats[i]? = some ⟨e.inbox, some e⟩ := by
  cases h : s.seats[i]? with
  | none => exact .inl rfl
  | some seat =>
    obtain ⟨e, rfl, -⟩ := hs.seated h
    exact .inr ⟨e, rfl⟩

omit [LawfulStore τ] in
theorem after_next (hi : s.seats[i]? = some ⟨e.inbox, some e⟩) (n : Nat) :
    s.after c (List.replicate n (.next i)) =
      s.put i ((fun d ↦ ((Editor.handleNext c).outcome d).2)^[n] ⟨e, s.workspace⟩) := by
  induction n generalizing s e with
  | zero => exact (ScriptBreakpoints.Session.put_self hi).symm
  | succ n ih =>
    rw [List.replicate_succ, after, List.foldl_cons, move_next hi, Function.iterate_succ_apply]
    exact (ih (seats_put_self hi)).trans (put_put _)

omit [LawfulStore τ] in
theorem move_runPending (hs : s.Sound) (i : Nat) :
    ∃ n, (move c (.editor i .runPending) s).2 = s.after c (List.replicate n (.next i)) := by
  obtain hi | ⟨e, hi⟩ := hs.seat_cases i
  · exact ⟨0, (move_vacant hi _).1⟩
  · obtain ⟨n, hn⟩ := Editor.handleAll_eq (c := c) _ (⟨e, s.workspace⟩ : Session.Desk σ τ) rfl
    have hreply : (EditorRequest.runPending.perform c : EditorAction _ _ Reply).outcome
        (⟨e, s.workspace⟩ : Session.Desk σ τ) =
          (((Editor.handleAll c (s.workspace.waiting e.inbox)).outcome ⟨e, s.workspace⟩).1.map
            .count, ((Editor.handleAll c (s.workspace.waiting e.inbox)).outcome
              ⟨e, s.workspace⟩).2) := by
      rw [← outcome_map, map_eq_pure_bind]
      rfl
    refine ⟨n, ?_⟩
    rw [after_next hi, ← hn]
    rw [move, step, atSeat_seated hi] <;> rw [hreply]
    rw [hn]
    exact Editor.iterate_handleNext_inbox n _

theorem Sound.next (hs : s.Sound) (i : Nat) : (move c (.next i) s).2.Sound := by
  obtain hi | ⟨e, hi⟩ := hs.seat_cases i
  · rw [(move_vacant hi .runPending).2]
    exact hs
  · rw [move_next hi]
    obtain ⟨file, hfile, -⟩ := Message.exists_subject (s.workspace.waiting e.inbox).head? ""
    exact hs.put hi (Framed.handleNext _ remembers_nothing trivial hs.orderly hfile)
      (handleNext_housed hs hi)

omit [LawfulStore τ] in
theorem inbox_next (hs : s.Sound) {m : Message} {rest : List Message}
    (hinbox : s.inbox i = m :: rest) : (move c (.next i) s).2.inbox i = rest := by
  obtain hi | ⟨e, hi⟩ := hs.seat_cases i
  · rw [inbox, editorAt, hi] at hinbox
    cases hinbox
  · have hwaiting : s.workspace.waiting e.inbox = m :: rest := by
      rw [inbox, editorAt, hi] at hinbox
      exact hinbox
    obtain ⟨hmail, hsame⟩ :=
      Editor.handle_mail (c := c) m ((⟨e, s.workspace⟩ : Session.Desk σ τ).withQueue rest)
    rw [move_next hi, Editor.handleNext_cons hwaiting, inbox, editorAt, seats_put_self hi]
    refine (congrArg₂ (fun mail box ↦ (mail[box]?.map (·.queue)).getD []) hmail hsame).trans ?_
    exact Desk.waiting_withQueue (by rw [hwaiting]; exact List.cons_ne_nil _ _)

theorem seats_move (hs : s.Sound) {m : Move} (hm : m ≠ .newEditor) {k : Nat}
    (hk : s.seats[k]? = none) : (move c m s).2.seats[k]? = none := by
  cases m with
  | ask r => exact hk
  | newEditor => exact absurd rfl hm
  | next i =>
    obtain hi | ⟨e, hi⟩ := hs.seat_cases i
    · rwa [(move_vacant hi .runPending).2]
    · rw [move_next hi]
      exact seats_put_none hk
  | editor i r =>
    obtain hi | ⟨e, hi⟩ := hs.seat_cases i
    · rwa [(move_vacant hi r).1]
    · cases hfile : r.file? with
      | none =>
        obtain rfl := EditorRequest.file?_eq_none.1 hfile
        obtain ⟨n, hn⟩ := move_runPending (c := c) hs i
        rw [hn, after_next hi]
        exact seats_put_none hk
      | some file =>
        rw [move_editor hs hi hfile]
        exact seats_put_none hk

omit [LawfulStore τ] in
theorem after_replicate {P : Session σ τ → Prop} {m : Move}
    (hstep : ∀ s, P s → P (move c m s).2) (n : Nat) (hs : P s) :
    P (s.after c (List.replicate n m)) := by
  induction n generalizing s with
  | zero => exact hs
  | succ n ih => exact ih (hstep s hs)

theorem called_next (hs : s.Sound) (i : Nat) :
    Called s.workspace.store (move c (.next i) s).2.workspace.store := by
  obtain hi | ⟨e, hi⟩ := hs.seat_cases i
  · rw [(move_vacant hi .runPending).2]
    exact .nothing
  · rw [move_next hi]
    obtain ⟨file, hfile, -⟩ := Message.exists_subject (s.workspace.waiting e.inbox).head? ""
    exact (Framed.handleNext ⟨e, s.workspace⟩ remembers_nothing trivial hs.orderly
      hfile).called

omit [LawfulStore τ] in
theorem Sound.ask (hs : s.Sound) (r : Request) : (move c (.ask r) s).2.Sound where
  orderly := hs.orderly.perform r
  housed := hs.housed.perform r
  seated hi := by
    obtain ⟨e, rfl, hattends⟩ := hs.seated hi
    exact ⟨e, rfl, (r.respond c s.workspace).attends hattends⟩
  apart := hs.apart

omit [Archive σ] [BreakpointStore τ] [LawfulStore τ] in
theorem seats_newEditor {k : Nat} {seat : Seat} (hk : s.newEditor.seats[k]? = some seat) :
    s.seats[k]? = some seat ∨ k = s.seats.length ∧
      seat = ⟨s.workspace.mail.length, some { inbox := s.workspace.mail.length }⟩ := by
  rw [Session.newEditor, List.getElem?_append] at hk
  split at hk
  · exact .inl hk
  · rw [List.getElem?_singleton] at hk
    split at hk
    · exact .inr ⟨by omega, (Option.some.inj hk).symm⟩
    · cases hk

omit [Archive σ] [BreakpointStore τ] [LawfulStore τ] in
theorem Sound.newEditor (hs : s.Sound) : s.newEditor.Sound where
  orderly := ⟨hs.orderly.named, hs.orderly.listed⟩
  housed file box hbox := by
    rw [Session.newEditor, List.length_append]
    exact Nat.lt_add_right _ (hs.housed file box hbox)
  seated {i seat} hi := by
    obtain hi | ⟨rfl, rfl⟩ := seats_newEditor hi
    · obtain ⟨e, rfl, queue, hattends⟩ := hs.seated hi
      refine ⟨e, rfl, queue, ?_⟩
      rw [Session.newEditor, List.getElem?_append_left (List.getElem?_eq_some_iff.1 hattends).1]
      exact hattends
    · exact ⟨{ inbox := s.workspace.mail.length }, rfl, [],
        by simp [Session.newEditor, Channel.new]⟩
  apart {i j seat other} hi hj heq := by
    have hlt {k : Nat} {seat : Seat} (hk : s.seats[k]? = some seat) :
        seat.inbox < s.workspace.mail.length := by
      obtain ⟨e, rfl, queue, hattends⟩ := hs.seated hk
      exact (List.getElem?_eq_some_iff.1 hattends).1
    obtain hi | ⟨rfl, rfl⟩ := seats_newEditor hi <;> obtain hj | ⟨rfl, rfl⟩ := seats_newEditor hj
    · exact hs.apart hi hj heq
    · exact absurd heq (Nat.ne_of_lt (hlt hi))
    · exact absurd heq.symm (Nat.ne_of_lt (hlt hj))
    · rfl

theorem Sound.move (hs : s.Sound) (m : Move) : (move c m s).2.Sound := by
  cases m with
  | ask r => exact hs.ask r
  | next i => exact hs.next i
  | newEditor => exact hs.newEditor
  | editor i r =>
    cases hfile : r.file? with
    | none =>
      obtain rfl := EditorRequest.file?_eq_none.1 hfile
      obtain ⟨n, hn⟩ := move_runPending (c := c) hs i
      rw [hn]
      exact after_replicate (fun s hs ↦ hs.next i) n hs
    | some file =>
      obtain hi | ⟨e, hi⟩ := hs.seat_cases i
      · rw [(move_vacant hi r).1]
        exact hs
      · rw [move_editor hs hi hfile]
        exact hs.put hi (Framed.editorRequest _ remembers_nothing trivial hs.orderly hfile)
          (perform_housed hs hi hfile)

theorem Sound.after (hs : s.Sound) (ms : List Move) : (s.after c ms).Sound := by
  induction ms generalizing s with
  | nil => exact hs
  | cons m ms ih => exact ih (hs.move m)

omit [Archive σ] [BreakpointStore τ] [LawfulStore τ] in
theorem sound_start (archive : σ) (store : τ) : (start archive store).Sound where
  orderly := ⟨nofun, fun _ ↦ List.nodup_nil⟩
  housed := nofun
  seated := nofun
  apart := nofun

theorem sound_after {archive : σ} {store : τ} {ms : List Move}
    (hs : s = (start archive store).after c ms) : s.Sound := by
  rw [hs]
  exact (sound_start archive store).after ms

theorem runPending_keeps {P : Session σ τ → Prop} (hs : s.Sound)
    (hstep : ∀ s : Session σ τ, s.Sound → P s → P (Session.move c (.next i) s).2) (h : P s) :
    P (Session.move c (.editor i .runPending) s).2 := by
  obtain ⟨n, hn⟩ := move_runPending (c := c) hs i
  rw [hn]
  exact (after_replicate (P := fun s ↦ s.Sound ∧ P s)
    (fun s hs ↦ ⟨hs.1.next i, hstep s hs.1 hs.2⟩) n ⟨hs, h⟩).2

theorem called_move (hs : s.Sound) (m : Move) :
    Called s.workspace.store (Session.move c m s).2.workspace.store := by
  cases m with
  | ask r => exact (r.respond c s.workspace).called
  | next i => exact called_next hs i
  | newEditor => exact .nothing
  | editor i r =>
    cases hfile : r.file? with
    | none =>
      obtain rfl := EditorRequest.file?_eq_none.1 hfile
      exact runPending_keeps (P := fun s' ↦ Called s.workspace.store s'.workspace.store) hs
        (fun s hs h ↦ h.trans (called_next hs i)) .nothing
    | some file =>
      obtain hi | ⟨e, hi⟩ := hs.seat_cases i
      · rw [(move_vacant hi r).1]
        exact .nothing
      · rw [move_editor hs hi hfile]
        exact (Framed.editorRequest ⟨e, s.workspace⟩ remembers_nothing trivial hs.orderly
          hfile).called

theorem called_after (hs : s.Sound) (ms : List Move) :
    Called s.workspace.store (s.after c ms).workspace.store := by
  induction ms generalizing s with
  | nil => exact .nothing
  | cons m ms ih => exact (called_move hs m).trans (ih (hs.move m))

theorem Scene.ask {sound : Refusing StoreCall τ → Prop} (hr : Remembers sound clean)
    (hsound : sound s.workspace.store) (hi : s.Scene i file v a) (r : Request)
    (hclean : (r.file = file → r.isSave = false) ∨
      clean (Session.move c (.ask r) s).2.workspace.store) :
    ∃ a', (Session.move c (.ask r) s).2.Scene i file v a' ∧
      a.Follows c file (s.Asks (.ask r)) a' := by
  obtain ⟨e, hseat, hshows⟩ := hi
  have hend := r.respond c s.workspace
  have horderly := hshows.orderly.perform (c := c) r
  have hmove : (Session.move c (.ask r) s).2 =
      { s with workspace := ((r.perform c).outcome s.workspace).2 } := rfl
  rw [hmove] at hclean ⊢
  generalize (r.perform c).outcome s.workspace = o at hend horderly hclean ⊢
  rcases o with ⟨result, w'⟩
  dsimp only at hend horderly hclean ⊢
  refine ⟨w'.aspect file e.inbox, ⟨e, hseat, rfl, horderly, hend.attends hshows.attends,
    hshows.view, rfl⟩, ?_⟩
  have haspect : s.workspace.aspect file e.inbox = a := hshows.aspect
  by_cases hfile : file = r.file
  · subst hfile
    rw [← haspect]
    refine .ask .refl rfl rfl (hend.asked hshows.orderly hshows.attends
      fun hsave t previous f ht hresync ↦ ?_)
    obtain h | h := hclean
    · rw [h rfl] at hsave
      cases hsave
    · have hok := hr.resync r.file previous (hr.sound_called hsound ht)
      rw [hresync] at hok
      cases hok h
  · rw [hend.elsewhere hshows.orderly hshows.attends hfile, haspect]
    exact .refl

theorem Scene.next (hs : s.Sound) (hi : s.Scene i file v a)
    (hm : s.Aside i file (.next j)) :
    ∃ a', (Session.move c (.next j) s).2.Scene i file v a' ∧
      a.Follows c file (s.Asks (.next j)) a' := by
  obtain hj | ⟨e, hj⟩ := hs.seat_cases j
  · rw [(move_vacant hj .runPending).2]
    exact ⟨a, hi, .refl⟩
  · obtain ⟨subject, hfile, hne⟩ :=
      Message.exists_subject (s.workspace.waiting e.inbox).head? file
    have hother (hji : j = i) : file ≠ subject := by
      refine hne fun m h ↦ hm hji m ?_
      rw [inbox, ← hji, editorAt, hj]
      exact h
    obtain ⟨a', hi', ha'⟩ := hi.put hs hj hother
      (Framed.handleNext (c := c) _ remembers_nothing trivial hs.orderly hfile)
      (.inl fun _ r h ↦ h ▸ rfl)
    rw [move_next hj]
    exact ⟨a', hi', ha'.mono fun r h ↦ ⟨subject, h⟩⟩

/-- What the moves of others, and moves about other scripts, do to a scene: nothing but what the
requests do that they make. -/
theorem Scene.aside {sound : Refusing StoreCall τ → Prop} (hr : Remembers sound clean)
    (hsound : sound s.workspace.store) (hs : s.Sound) (hi : s.Scene i file v a) {m : Move}
    (hm : s.Aside i file m) (hclean : (∀ r, s.Asks m r → r.file = file → r.isSave = false) ∨
      clean (Session.move c m s).2.workspace.store) :
    ∃ a', (Session.move c m s).2.Scene i file v a' ∧ a.Follows c file (s.Asks m) a' := by
  cases m with
  | ask r => exact hi.ask hr hsound r (hclean.imp_left fun h ↦ h r rfl)
  | next j => exact hi.next hs hm
  | newEditor =>
    obtain ⟨e, hseat, hshows⟩ := hi
    obtain ⟨queue, hattends⟩ := hs.attends hseat
    have hlt := (List.getElem?_eq_some_iff.1 hattends).1
    have hmail : (s.workspace.mail ++ [Channel.new])[e.inbox]? = s.workspace.mail[e.inbox]? :=
      List.getElem?_append_left hlt
    have haspect : s.newEditor.workspace.aspect file e.inbox = s.workspace.aspect file e.inbox :=
      aspect_congr rfl rfl rfl hmail
    refine ⟨a, ⟨e, ?_, rfl, ⟨hs.orderly.named, hs.orderly.listed⟩, ?_, hshows.view, ?_⟩, .refl⟩
    · have hseat' := (List.getElem?_eq_some_iff.1 hseat).1
      exact (List.getElem?_append_left hseat').trans hseat
    · exact ⟨queue, hmail.trans hattends⟩
    · exact haspect.trans hshows.aspect
  | editor j r =>
    cases hfile : r.file? with
    | none =>
      obtain rfl := EditorRequest.file?_eq_none.1 hfile
      have hji : j ≠ i := fun hji ↦ by
        obtain ⟨other, -, h⟩ := hm hji
        cases h
      refine runPending_keeps (P := fun s' ↦ ∃ a', s'.Scene i file v a' ∧
        a.Follows c file (s.Asks (.editor j .runPending)) a') hs (fun s' hs' h ↦ ?_)
        ⟨a, hi, .refl⟩
      obtain ⟨a', hi', ha'⟩ := h
      obtain ⟨a'', hi'', ha''⟩ := hi'.next (c := c) hs' (j := j) fun h ↦ absurd h hji
      exact ⟨a'', hi'', ha'.trans (ha''.mono fun r h ↦ .inr ⟨rfl, h⟩)⟩
    | some other =>
      obtain hj | ⟨e, hj⟩ := hs.seat_cases j
      · rw [(move_vacant hj r).1]
        exact ⟨a, hi, .refl⟩
      · have hasks {asked : Request} (h : r.asks e asked) : s.Asks (.editor j r) asked :=
          .inl ⟨e, by rw [editorAt, hj]; rfl, h⟩
        have hother (hji : j = i) : file ≠ other := by
          obtain ⟨o, ho, h⟩ := hm hji
          rw [hfile] at h
          cases h
          exact Ne.symm ho
        rw [move_editor hs hj hfile] at hclean ⊢
        obtain ⟨a', hi', ha'⟩ := hi.put hs hj hother
          (Framed.editorRequest _ hr hsound hs.orderly hfile)
          (hclean.imp_left fun h hfo asked ha ↦
            h asked (hasks ha) ((EditorRequest.asks_file hfile ha).trans hfo.symm))
        exact ⟨a', hi', ha'.mono fun _ ↦ hasks⟩

omit [Archive σ] in
theorem Sound.scene (hs : s.Sound) (hi : s.seats[i]? = some ⟨e.inbox, some e⟩) (file : String) :
    s.Scene i file e.scripts[file]? (s.workspace.aspect file e.inbox) :=
  ⟨e, hi, rfl, hs.orderly, hs.attends hi, rfl, rfl⟩

namespace Scene

omit [Archive σ] in
theorem shown (hi : s.Scene i file v a) : s.shown i file = v := by
  obtain ⟨e, hi, hshows⟩ := hi
  rw [Session.shown, editorAt, hi]
  exact hshows.view

omit [Archive σ] in
theorem mail (hi : s.Scene i file v a) : a.mail = (s.inbox i).filter (·.isAbout file) := by
  obtain ⟨e, hi, hshows⟩ := hi
  rw [Session.inbox, editorAt, hi, ← hshows.aspect]
  rfl

omit [Archive σ] in
theorem mail_cons (hi : s.Scene i file v a) {m : Message} {rest : List Message}
    (hinbox : s.inbox i = m :: rest) (hm : m.file? = some file) :
    a.mail = m :: rest.filter (·.isAbout file) := by
  have habout : m.isAbout file = true := decide_eq_true hm
  rw [hi.mail, hinbox, List.filter_cons_of_pos habout]

omit [Archive σ] in
theorem armed (hi : s.Scene i file v a) : a.armed = LawfulStore.armed s.workspace.store file := by
  obtain ⟨e, -, hshows⟩ := hi
  rw [← hshows.aspect]
  rfl

omit [Archive σ] in
theorem script (hi : s.Scene i file v a) : a.script = s.workspace.scripts[file]? := by
  obtain ⟨e, -, hshows⟩ := hi
  rw [← hshows.aspect]
  rfl

omit [Archive σ] in
theorem unique {v' : Option OpenScript} {a' : Aspect} (hi : s.Scene i file v a)
    (hi' : s.Scene i file v' a') : v' = v ∧ a' = a := by
  obtain ⟨e, he, hshows⟩ := hi
  obtain ⟨e', he', hshows'⟩ := hi'
  obtain rfl := seated_unique he he'
  exact ⟨hshows'.view.symm.trans hshows.view, hshows'.aspect.symm.trans hshows.aspect⟩

theorem hear (hi : s.Scene i file v a) (hv : v.isSome → ∃ t, a.script = some t) {m : Message}
    {rest : List Message} (hinbox : s.inbox i = m :: rest) (hm : m.file? = some file) :
    ∃ as, (Session.move c (.next i) s).2.Scene i file (v.map (·.hear as m))
        { a with mail := rest.filter (·.isAbout file) } ∧
      (as = a.armed.toList ∨ Unlisted file s.workspace.store
        (Session.move c (.next i) s).2.workspace.store) := by
  obtain ⟨e, hi, hshows⟩ := hi
  have hwaiting : s.workspace.waiting e.inbox = m :: rest := by
    rw [inbox, editorAt, hi] at hinbox
    exact hinbox
  have hne : s.workspace.waiting e.inbox ≠ [] := by
    rw [hwaiting]
    exact List.cons_ne_nil _ _
  have hleft : Shows file e.inbox v { a with mail := rest.filter (·.isAbout file) }
      (ScriptBreakpoints.Desk.withQueue rest ⟨e, s.workspace⟩) := by
    refine ⟨rfl, Desk.orderly_withQueue hshows.orderly, Desk.attends_withQueue hshows.attends,
      hshows.view, ?_⟩
    refine (Desk.aspect_withQueue hne).trans ?_
    rw [hshows.aspect]
  obtain ⟨result, d', as, ho, hd', has⟩ := hleft.handle (c := c) hv hm
  have hnext := Editor.handleNext_cons (c := c) (d := ⟨e, s.workspace⟩) hwaiting
  rw [ho] at hnext
  rw [move_next hi, hnext]
  exact ⟨as, put_self hi hd', has⟩

end Scene

omit [Archive σ] in
theorem Sound.scene_shown {o : OpenScript} (hs : s.Sound) (ho : s.shown i file = some o) :
    ∃ a, s.Scene i file (some o) a ∧ a.mail = (s.inbox i).filter (·.isAbout file) := by
  obtain hvacant | ⟨e, hseat⟩ := hs.seat_cases i
  · rw [Session.shown, editorAt, hvacant] at ho
    cases ho
  · have hi := hs.scene hseat file
    rw [← hi.shown, ho] at hi
    exact ⟨_, hi, hi.mail⟩

theorem Sound.scene_before (hs : s.Sound) {m : Move} (hm : m ≠ .newEditor)
    (hi : (Session.move c m s).2.Scene i file v a) : ∃ v₀ a₀, s.Scene i file v₀ a₀ := by
  obtain hvacant | ⟨e, hseat⟩ := hs.seat_cases i
  · obtain ⟨e, hseat, -⟩ := hi
    rw [seats_move hs hm hvacant] at hseat
    cases hseat
  · exact ⟨_, _, hs.scene hseat file⟩

theorem Sound.scene_newEditor (hs : s.Sound)
    (hi : (Session.move c .newEditor s).2.Scene i file v a) :
    s.Scene i file v a ∨ v = none ∧ a.reach = 0 ∧ a.mail = [] := by
  obtain hvacant | ⟨e, hseat⟩ := hs.seat_cases i
  · obtain ⟨e, hseat, hshows⟩ := hi
    obtain hseat | ⟨-, hnew⟩ := seats_newEditor hseat
    · rw [hvacant] at hseat
      cases hseat
    · obtain rfl := Option.some.inj (congrArg Seat.editor hnew)
      have hunheard : (s.workspace.audience file).count s.workspace.mail.length = 0 :=
        List.count_eq_zero.2 fun h ↦ Nat.lt_irrefl _ (hs.housed file _ h)
      have hmail : s.newEditor.workspace.waiting s.workspace.mail.length = [] := by
        simp [waiting, Session.newEditor, Channel.new]
      rw [← hshows.aspect, ← hshows.view]
      refine .inr ⟨Std.ExtTreeMap.getElem?_empty, hunheard, ?_⟩
      exact congrArg (List.filter (·.isAbout file)) hmail
  · have hi₀ := hs.scene hseat file
    obtain ⟨a', hi', hfollows⟩ := hi₀.aside (c := c) (m := .newEditor) remembers_nothing trivial hs
      trivial (.inl fun _ h ↦ h.elim)
    obtain ⟨rfl, rfl⟩ := hi'.unique hi
    cases hfollows with
    | refl => exact .inl hi₀
    | ask _ _ h _ => exact h.elim

end Turns

end Session

end ScriptBreakpoints
