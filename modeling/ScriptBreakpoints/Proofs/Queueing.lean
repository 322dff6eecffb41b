import Mathlib.Data.List.Induction
import ScriptBreakpoints.Proofs.Delivering
import ScriptBreakpoints.Proofs.Overwriting

namespace ScriptBreakpoints

open Fallible Workspace

theorem forall_prefix_cons {α : Type} {a : α} {as : List α} {P : List α → Prop} :
    (∀ as', as' <+: a :: as → P as') ↔ P [] ∧ ∀ as', as' <+: as → P (a :: as') := by
  constructor
  · intro h
    exact ⟨h [] List.nil_prefix, fun as' has ↦ h (a :: as') (List.cons_prefix_cons.2 ⟨rfl, has⟩)⟩
  · rintro ⟨hnil, hcons⟩ as' has
    cases as' with
    | nil => exact hnil
    | cons a' as' =>
      obtain ⟨rfl, hprefix⟩ := List.cons_prefix_cons.1 has
      exact hcons as' hprefix

namespace Message

def reloaded (ms : List Message) : List String := ms.filterMap (·.reloaded?)

variable {file : String} {m : Message} {ms ms' : List Message}

theorem mem_reloaded : file ∈ reloaded ms ↔ ∃ e, .reload e ∈ ms ∧ e.file = file := by
  simp only [reloaded, List.mem_filterMap, reloaded?_eq_some]
  constructor
  · rintro ⟨m, hm, e, rfl, he⟩
    exact ⟨e, hm, he⟩
  · rintro ⟨e, he, hfile⟩
    exact ⟨_, he, e, rfl, hfile⟩

theorem mem_reloaded_append : file ∈ reloaded (ms ++ ms') ↔
    file ∈ reloaded ms ∨ file ∈ reloaded ms' := by
  rw [reloaded, List.filterMap_append, List.mem_append, reloaded, reloaded]

end Message

section Desk

variable {σ τ : Type} [Archive σ] [BreakpointStore τ] {c : Compiler}

theorem Editor.handleAll_named (ms : List Message) (d : Desk σ τ)
    (h : d.workspace.waiting d.editor.inbox = ms) (hnamed : ∀ m ∈ ms, m.file?.isSome) :
    ((Editor.handleAll c ms).outcome d).2 =
      (fun d ↦ ((Editor.handleNext c).outcome d).2)^[ms.length] d := by
  induction ms generalizing d with
  | nil => rfl
  | cons m rest ih =>
    obtain ⟨hmail, hinbox⟩ := Editor.handle_mail (c := c) m (d.withQueue rest)
    have hnext := Editor.handleNext_cons (c := c) h
    have hqueue : (d.withQueue rest).workspace.waiting d.editor.inbox = rest :=
      Desk.waiting_withQueue (by rw [h]; exact List.cons_ne_nil _ _)
    have hstep : (Editor.handleAll c (m :: rest)).outcome d =
        (do if ← Editor.handle c m then return (← Editor.handleAll c rest) + 1
            else return 1).outcome (d.withQueue rest) := rfl
    obtain ⟨d', as, hhandle, -⟩ := Editor.handle_scripts (c := c) m (d.withQueue rest)
    rw [hnamed m List.mem_cons_self] at hhandle
    rw [hhandle] at hnext hmail hinbox
    dsimp only at hmail hinbox
    have hrest : d'.workspace.waiting d'.editor.inbox = rest := by
      rw [hinbox, waiting, hmail]
      exact hqueue
    rw [hstep, outcome_bind, hhandle, List.length_cons, Function.iterate_succ_apply, hnext,
      ← ih d' hrest fun m hm ↦ hnamed m (List.mem_cons_of_mem _ hm)]
    simp only [if_true, ← map_eq_pure_bind, outcome_map]

end Desk

namespace Session

section Defs

variable {σ τ : Type}

def handled (i : Nat) (s : Session σ τ) : Move → List Message
  | .next j => if j = i then (s.inbox i).take 1 else []
  | .editor j .runPending => if j = i then s.inbox i else []
  | _ => []

variable [Archive σ] [BreakpointStore τ] (c : Compiler) (i : Nat)

def allHandled : Session σ τ → List Move → List Message
  | _, [] => []
  | s, m :: ms => s.handled i m ++ allHandled (move c m s).2 ms

def posted (s : Session σ τ) (ms : List Move) : List Message :=
  (s.allHandled c i ms ++ (s.after c ms).inbox i).drop (s.inbox i).length

end Defs

variable {σ τ : Type} [Archive σ] [BreakpointStore τ] {c : Compiler} {s : Session σ τ} {i : Nat}
  {file : String} {archive : σ} {store : τ} {before : List Move} {m : Move}

omit [Archive σ] [BreakpointStore τ] in
theorem handled_of_ne (hnext : m ≠ .next i) (hpending : m ≠ .editor i .runPending) :
    s.handled i m = [] := by
  cases m with
  | next j => exact if_neg fun (h : j = i) ↦ hnext (h ▸ rfl)
  | editor j r =>
    cases r with
    | runPending => exact if_neg fun (h : j = i) ↦ hpending (h ▸ rfl)
    | _ => rfl
  | _ => rfl

omit [Archive σ] [BreakpointStore τ] in
theorem handled_aside (hm : s.Aside i file m) : file ∉ Message.reloaded (s.handled i m) := by
  intro h
  obtain ⟨e, he, rfl⟩ := Message.mem_reloaded.1 h
  by_cases hnext : m = .next i
  · subst hnext
    rw [handled, if_pos rfl, List.take_one] at he
    exact hm rfl _ (Option.mem_toList.1 he) rfl
  by_cases hpending : m = .editor i .runPending
  · subst hpending
    obtain ⟨other, -, hother⟩ := hm rfl
    cases hother
  · rw [handled_of_ne hnext hpending] at he
    cases he

theorem move_after (hs : s = (start archive store).after c before) (m : Move) :
    (move c m s).2 = (start archive store).after c (before ++ [m]) := by
  rw [hs, after, after, List.foldl_append]
  rfl

variable [LawfulStore τ]

/-- No message stops an editor, as only what is about scripts is posted. -/
theorem named_after (hs : s = (start archive store).after c before) :
    ∀ i, ∀ m ∈ s.inbox i, m.file?.isSome := by
  induction before using List.reverseRecOn generalizing s with
  | nil =>
    subst hs
    intro i m hm
    cases hm
  | append_singleton before m ih =>
    intro i m' hm'
    obtain ⟨s₀, hs₀⟩ : ∃ s₀, s₀ = (start archive store).after c before := ⟨_, rfl⟩
    obtain ⟨emitted, -, -, hreceived⟩ := received_move (sound_after hs₀) (hears_after hs₀) m
    obtain ⟨handled, rest, hinbox, -, hnew⟩ := hreceived i
    rw [hs, ← move_after hs₀, hnew] at hm'
    obtain hm' | hm' := List.mem_append.1 hm'
    · exact ih hs₀ i m' (by rw [hinbox]; exact List.mem_append_right _ hm')
    · have hshows := (List.mem_filter.1 hm').2
      rw [shows] at hshows
      exact Option.isSome_of_any hshows

omit [LawfulStore τ] in
theorem handled_next (hs : s.Sound) (i : Nat) :
    s.inbox i = s.handled i (.next i) ++ (move c (.next i) s).2.inbox i := by
  rw [handled, if_pos rfl]
  obtain h | ⟨-, m, h⟩ := inbox_next_or (c := c) hs i i
  · cases hinbox : s.inbox i with
    | nil => rw [h, hinbox, List.take_nil, List.append_nil]
    | cons m rest => rw [inbox_next hs hinbox, List.take_one]; rfl
  · rw [h]
    rfl

theorem inbox_nexts (hs : s.Sound) (i n : Nat) :
    (s.after c (List.replicate n (.next i))).inbox i = (s.inbox i).drop n := by
  induction n generalizing s with
  | zero => rfl
  | succ n ih =>
    refine (ih (hs.next i)).trans ?_
    cases hinbox : s.inbox i with
    | nil =>
      have hnext := handled_next (c := c) hs i
      rw [hinbox] at hnext
      rw [(List.append_eq_nil_iff.1 hnext.symm).2, List.drop_nil, List.drop_nil]
    | cons m rest => rw [inbox_next hs hinbox, List.drop_succ_cons]

omit [LawfulStore τ] in
theorem runPending_eq (hs : s.Sound) (hnamed : ∀ m ∈ s.inbox i, m.file?.isSome) :
    (move c (.editor i .runPending) s).2 =
      s.after c (List.replicate (s.inbox i).length (.next i)) := by
  obtain hi | ⟨e, hi⟩ := hs.seat_cases i
  · rw [(move_vacant hi _).1, (vacant_silent hi).1]
    rfl
  · have hw : s.workspace.waiting e.inbox = s.inbox i := (inbox_seated hi).symm
    have hall := Editor.handleAll_named (c := c) (s.inbox i) (⟨e, s.workspace⟩ : Session.Desk σ τ)
      hw hnamed
    have hreply : ((EditorRequest.runPending.perform c : EditorAction _ _ Reply).outcome
        (⟨e, s.workspace⟩ : Session.Desk σ τ)).2 =
          (fun d ↦ ((Editor.handleNext c).outcome d).2)^[(s.inbox i).length] ⟨e, s.workspace⟩ := by
      rw [← hall, ← hw, EditorRequest.perform, outcome_bind_pure]
      rfl
    rw [after_next hi, move, step, atSeat_seated hi, hreply]
    rw [hreply]
    exact Editor.iterate_handleNext_inbox _ _

/-- What is posted to an editor in a move is what is emitted about the scripts that it shows. -/
theorem posted_move (hs : s = (start archive store).after c before) (i : Nat) (m : Move) :
    ∃ emitted, Emits c s.workspace emitted (move c m s).2.workspace ∧
      s.handled i m ++ (move c m s).2.inbox i = s.inbox i ++ emitted.filter (s.shows i) ∧
      s.posted c i [m] = emitted.filter (s.shows i) := by
  have hsound := sound_after hs
  obtain ⟨emitted, hemits, hsilent, hreceived⟩ := received_move hsound (hears_after hs) m
  suffices h : s.handled i m ++ (move c m s).2.inbox i =
      s.inbox i ++ emitted.filter (s.shows i) by
    refine ⟨emitted, hemits, h, ?_⟩
    rw [posted, allHandled, allHandled, List.append_nil]
    exact (congrArg (List.drop _) h).trans List.drop_left
  by_cases hnext : m = .next i
  · subst hnext
    rw [hsilent rfl, List.filter_nil, List.append_nil, ← handled_next hsound]
  by_cases hpending : m = .editor i .runPending
  · subst hpending
    rw [hsilent rfl, List.filter_nil, runPending_eq hsound (named_after hs i), inbox_nexts hsound,
      List.drop_length, handled, if_pos rfl]
  · obtain ⟨handled, rest, hinbox, hown, hinbox'⟩ := hreceived i
    have hnone : handled = [] := by
      by_contra hne
      obtain h | h := hown hne
      · exact hnext h
      · exact hpending h
    subst hnone
    rw [handled_of_ne hnext hpending, hinbox', hinbox]
    rfl

/-- Mail is handled in the order in which it was posted. -/
theorem handled_in_order (hs : s = (start archive store).after c before) (i : Nat)
    (ms : List Move) : s.allHandled c i ms ++ (s.after c ms).inbox i =
      s.inbox i ++ s.posted c i ms := by
  have hposted {new : List Message} (h : s.allHandled c i ms ++ (s.after c ms).inbox i =
      s.inbox i ++ new) : s.posted c i ms = new := by
    rw [posted, h, List.drop_left]
  suffices h : ∃ new, s.allHandled c i ms ++ (s.after c ms).inbox i = s.inbox i ++ new by
    obtain ⟨new, h⟩ := h
    rw [hposted h, h]
  clear hposted
  induction ms generalizing s before with
  | nil => exact ⟨[], (List.append_nil _).symm⟩
  | cons m ms ih =>
    obtain ⟨emitted, -, hmove, -⟩ := posted_move hs i m
    obtain ⟨new, h⟩ := ih (move_after hs m)
    refine ⟨emitted.filter (s.shows i) ++ new, ?_⟩
    rw [← List.append_assoc, ← hmove, allHandled, List.append_assoc, List.append_assoc]
    exact congrArg _ h

theorem take_allHandled (hs : s = (start archive store).after c before) (i : Nat)
    (ms : List Move) : (s.allHandled c i ms).take (s.inbox i).length =
      (s.inbox i).take (s.allHandled c i ms).length := by
  obtain ⟨rest, h, -⟩ | ⟨new, h, -⟩ := List.append_eq_append_iff.1 (handled_in_order hs i ms)
  · rw [h, List.take_left, List.take_of_length_le (by rw [List.length_append]; omega)]
  · rw [h, List.take_left, List.take_of_length_le (by rw [List.length_append]; omega)]

theorem posted_cons (hs : s = (start archive store).after c before) (i : Nat) (m : Move)
    (ms : List Move) :
    s.posted c i (m :: ms) = s.posted c i [m] ++ (move c m s).2.posted c i ms := by
  obtain ⟨emitted, -, hmove, hposted⟩ := posted_move hs i m
  refine List.append_cancel_left (?_ : s.inbox i ++ _ = s.inbox i ++ _)
  rw [← handled_in_order hs, allHandled, List.append_assoc, ← List.append_assoc (s.inbox i),
    hposted, ← hmove, List.append_assoc, ← handled_in_order (move_after hs m)]
  rfl

end Session

end ScriptBreakpoints
