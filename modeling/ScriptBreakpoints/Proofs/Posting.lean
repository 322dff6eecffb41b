import Mathlib.Logic.Function.Basic
import ScriptBreakpoints.Proofs.Tracking

namespace ScriptBreakpoints

namespace Channel

variable {α : Type}

def fill (as : List α) (c : Channel α) : Channel α :=
  if c.isOpen then { c with queue := c.queue ++ as } else c

variable (as bs : List α) (c : Channel α)

theorem send_eq_fill (a : α) : (c.send a).2 = c.fill [a] := by
  cases h : c.isOpen <;> simp [send, fill, h]

@[simp] theorem fill_nil : c.fill [] = c := by
  rw [fill, List.append_nil, ite_self]

theorem fill_fill : (c.fill as).fill bs = c.fill (as ++ bs) := by
  cases h : c.isOpen <;> simp [fill, h]

end Channel

def deliver (m : Message) (boxes : List Mailbox) (mail : List (Channel Message)) :
    List (Channel Message) :=
  mail.mapIdx fun box c ↦ c.fill (List.replicate (boxes.count box) m)

section Deliver

variable (m : Message) (boxes : List Mailbox) (mail : List (Channel Message))

@[simp] theorem length_deliver : (deliver m boxes mail).length = mail.length := List.length_mapIdx

theorem getElem?_deliver (box : Mailbox) : (deliver m boxes mail)[box]? =
    mail[box]?.map (·.fill (List.replicate (boxes.count box) m)) := List.getElem?_mapIdx

@[simp] theorem deliver_nil : deliver m [] mail = mail := by
  refine List.ext_getElem? fun box ↦ ?_
  simp [getElem?_deliver]

theorem deliver_cons (box : Mailbox) :
    deliver m (box :: boxes) mail = deliver m boxes (mail.modify box (·.fill [m])) := by
  refine List.ext_getElem? fun other ↦ ?_
  rw [getElem?_deliver, getElem?_deliver, List.getElem?_modify]
  by_cases h : box = other
  · subst h
    cases mail[box]? <;> simp [Channel.fill_fill, List.replicate_succ]
  · cases mail[other]? <;> simp [h]

end Deliver

namespace Workspace

variable {σ τ α β : Type}

theorem post_fills (box : Mailbox) (m : Message) (w : Workspace σ τ) :
    ∃ sent, (post box m : Action σ τ Bool).outcome w =
      (.ok sent, { w with mail := w.mail.modify box (·.fill [m]) }) := by
  rw [outcome_post]
  cases hc : w.mail[box]? with
  | none =>
    refine ⟨false, ?_⟩
    rw [List.modify_eq_self (List.getElem?_eq_none_iff.1 hc)]
  | some c =>
    have hset : w.mail.set box (c.send m).2 = w.mail.modify box (·.fill [m]) := by
      refine List.ext_getElem? fun other ↦ ?_
      rw [List.getElem?_modify, List.getElem?_set, Channel.send_eq_fill]
      by_cases h : box = other
      · subst h
        obtain ⟨hlt, rfl⟩ := List.getElem?_eq_some_iff.1 hc
        simp [hlt]
      · simp [h]
    simp only [hset]
    exact ⟨_, rfl⟩

def audience (w : Workspace σ τ) (file : String) : List Mailbox := w.listeners[file]?.getD []

theorem listen_outcome (file : String) (box : Mailbox) (w : Workspace σ τ) :
    ∃ listeners, (listen file box : Action σ τ Unit).outcome w =
      (.ok (), { w with listeners }) := by
  simp only [listen, Fallible.outcome_modify]
  split
  · exact ⟨w.listeners, rfl⟩
  · exact ⟨_, rfl⟩

theorem unlisten_outcome (file : String) (box : Mailbox) (w : Workspace σ τ) :
    ∃ listeners, (unlisten file box : Action σ τ Unit).outcome w =
      (.ok (), { w with listeners }) := by
  simp only [unlisten, Fallible.outcome_modify]
  split <;> exact ⟨_, rfl⟩

theorem audience_insert (file other : String) (boxes : List Mailbox) (w : Workspace σ τ) :
    ({ w with listeners := w.listeners.insert file boxes } : Workspace σ τ).audience other =
      if other = file then boxes else w.audience other := by
  by_cases ho : other = file
  · rw [if_pos ho, ho, audience, Std.ExtTreeMap.getElem?_insert_self, Option.getD_some]
  · rw [if_neg ho, audience, getElem?_insert_of_ne ho, audience]

theorem audience_listen (file other : String) (box : Mailbox) (w : Workspace σ τ) :
    ((listen file box : Action σ τ Unit).outcome w).2.audience other =
      if other = file ∧ box ∉ w.audience file then w.audience file ++ [box]
      else w.audience other := by
  by_cases hb : box ∈ w.audience file
  · have hw : ((listen file box : Action σ τ Unit).outcome w).2 = w := if_pos hb
    rw [hw, if_neg fun h ↦ h.2 hb]
  · have hw : ((listen file box : Action σ τ Unit).outcome w).2 =
        { w with listeners := w.listeners.insert file (w.audience file ++ [box]) } := if_neg hb
    simp only [hw, audience_insert, hb, not_false_eq_true, and_true]

theorem audience_unlisten (file other : String) (box : Mailbox) (w : Workspace σ τ) :
    ((unlisten file box : Action σ τ Unit).outcome w).2.audience other =
      if other = file then (w.audience file).filter (· ≠ box) else w.audience other := by
  by_cases hb : (w.audience file).filter (· ≠ box) = []
  · have hw : ((unlisten file box : Action σ τ Unit).outcome w).2 =
        { w with listeners := w.listeners.erase file } := if_pos hb
    rw [hw]
    by_cases ho : other = file
    · rw [if_pos ho, hb, ho, audience, Std.ExtTreeMap.getElem?_erase_self, Option.getD_none]
    · rw [if_neg ho, audience, getElem?_erase_of_ne ho, audience]
  · have hw : ((unlisten file box : Action σ τ Unit).outcome w).2 =
        { w with listeners := w.listeners.insert file ((w.audience file).filter (· ≠ box)) } :=
      if_neg hb
    rw [hw, audience_insert]

/-- A message arrives with everybody who listens to a script, and only the log tells who is gone. -/
theorem broadcast_delivers (file : String) (m : Message) (w : Workspace σ τ) :
    ∃ log, (broadcast file m : Action σ τ Unit).outcome w =
      (.ok (), { w with mail := deliver m (w.audience file) w.mail, log }) := by
  have hall (boxes : List Mailbox) (w : Workspace σ τ) :
      ∃ log, (boxes.forM fun box ↦ do
          unless ← post box m do note (.listenerGone file) : Action σ τ PUnit).outcome w =
        (.ok ⟨⟩, { w with mail := deliver m boxes w.mail, log }) := by
    induction boxes generalizing w with
    | nil => exact ⟨w.log, by rw [deliver_nil]; rfl⟩
    | cons box boxes ih =>
      obtain ⟨sent, hpost⟩ := post_fills box m w
      simp only [Fallible.outcome_forM_cons, Fallible.outcome_bind, hpost, deliver_cons]
      cases sent with
      | true => exact ih { w with mail := w.mail.modify box (·.fill [m]) }
      | false =>
        exact ih { w with
          mail := w.mail.modify box (·.fill [m]), log := w.log ++ [.listenerGone file] }
  simp only [broadcast, Fallible.outcome_bind, Fallible.outcome_get, audience]
  cases w.listeners[file]? with
  | none => exact ⟨_, by rw [Option.getD_none, deliver_nil]; rfl⟩
  | some boxes => exact hall boxes w

inductive Called [BreakpointStore τ] (t : τ) : τ → Prop
  | nothing : Called t t
  | add {t' : τ} (file : String) (a : Address) :
      Called t t' → Called t (BreakpointStore.add file a t').2
  | remove {t' : τ} (file : String) (a : Address) :
      Called t t' → Called t (BreakpointStore.remove file a t').2
  | resync {t' : τ} (file : String) (as : List Address) :
      Called t t' → Called t (BreakpointStore.resync file as t').2
  | list {t' : τ} (file : String) : Called t t' → Called t (BreakpointStore.list file t').2

theorem Called.of_eq [BreakpointStore τ] {t t' : τ} (h : t' = t) : Called t t' := h ▸ .nothing

theorem Called.trans [BreakpointStore τ] {t₁ t₂ t₃ : τ} (h : Called t₁ t₂) (h' : Called t₂ t₃) :
    Called t₁ t₃ := by
  induction h' with
  | nothing => exact h
  | add file a _ ih => exact .add file a ih
  | remove file a _ ih => exact .remove file a ih
  | resync file as _ ih => exact .resync file as ih
  | list file _ ih => exact .list file ih

theorem Called.listed [BreakpointStore τ] {t t₁ t₂ : τ} {file : String}
    {result : Except StorageFault (List Address)} (h : Called t t₁)
    (hl : BreakpointStore.list file t₁ = (result, t₂)) : Called t t₂ := by
  have hc := Called.list file h
  rwa [hl] at hc

theorem Called.resynced [BreakpointStore τ] {t t₁ t₂ : τ} {file : String} {as : List Address}
    {result : Except StorageFault Unit} (h : Called t t₁)
    (hr : BreakpointStore.resync file as t₁ = (result, t₂)) : Called t t₂ := by
  have hc := Called.resync file as h
  rwa [hr] at hc

structure Steady [BreakpointStore τ] (w w' : Workspace σ τ) : Prop where
  called : Called w.store w'.store
  listeners : w'.listeners = w.listeners

end Workspace

end ScriptBreakpoints
