import ScriptBreakpoints.Proofs.Frames

namespace ScriptBreakpoints

structure Counting (τ : Type) where
  inner : τ
  refusals : Nat := 0

namespace Counting

variable {τ α : Type}

def ask (call : τ → Except StorageFault α × τ) (t : Counting τ) :
    Except StorageFault α × Counting τ :=
  match call t.inner with
  | (.ok a, inner) => (.ok a, { t with inner })
  | (.error e, inner) => (.error e, ⟨inner, t.refusals + 1⟩)

instance [BreakpointStore τ] : BreakpointStore (Counting τ) where
  add file a := ask (BreakpointStore.add file a)
  remove file a := ask (BreakpointStore.remove file a)
  resync file as := ask (BreakpointStore.resync file as)
  list file := ask (BreakpointStore.list file)

variable {call : τ → Except StorageFault α × τ} {t : Counting τ}

theorem ask_cases (call : τ → Except StorageFault α × τ) (t : Counting τ) :
    (ask call t).1 = (call t.inner).1 ∧ (ask call t).2.inner = (call t.inner).2 ∧
      ((∃ a, (ask call t).1 = .ok a) ∧ (ask call t).2.refusals = t.refusals ∨
        (ask call t).2.refusals = t.refusals + 1) := by
  rw [ask]
  rcases call t.inner with ⟨e | a, inner⟩
  · exact ⟨rfl, rfl, .inr rfl⟩
  · exact ⟨rfl, rfl, .inl ⟨⟨a, rfl⟩, rfl⟩⟩

theorem ask_fst : (ask call t).1 = (call t.inner).1 := (ask_cases call t).1

theorem ask_inner : (ask call t).2.inner = (call t.inner).2 := (ask_cases call t).2.1

theorem refusals_le : t.refusals ≤ (ask call t).2.refusals := by
  obtain ⟨-, -, ⟨-, h⟩ | h⟩ := ask_cases call t <;> omega

theorem ask_ok (h : (ask call t).2.refusals = 0) : ∃ a, (ask call t).1 = .ok a := by
  obtain ⟨-, -, ⟨hok, -⟩ | hrefused⟩ := ask_cases call t
  · exact hok
  · omega

instance [BreakpointStore τ] [LawfulStore τ] : LawfulStore (Counting τ) where
  armed t := LawfulStore.armed t.inner
  list_eq h := LawfulStore.list_eq (ask_fst.symm.trans h)
  armed_list file t :=
    (congrArg LawfulStore.armed ask_inner).trans (LawfulStore.armed_list file t.inner)
  armed_add h :=
    (congrArg LawfulStore.armed ask_inner).trans (LawfulStore.armed_add (ask_fst.symm.trans h))
  add_refused h :=
    (congrArg LawfulStore.armed ask_inner).trans (LawfulStore.add_refused (ask_fst.symm.trans h))
  armed_remove h :=
    (congrArg LawfulStore.armed ask_inner).trans (LawfulStore.armed_remove (ask_fst.symm.trans h))
  remove_refused h :=
    (congrArg LawfulStore.armed ask_inner).trans (LawfulStore.remove_refused (ask_fst.symm.trans h))
  armed_resync h :=
    (congrArg LawfulStore.armed ask_inner).trans (LawfulStore.armed_resync (ask_fst.symm.trans h))
  resync_refused h :=
    (congrArg LawfulStore.armed ask_inner).trans (LawfulStore.resync_refused (ask_fst.symm.trans h))

end Counting

namespace Refusing

variable {κ σ α : Type} [DecidableEq κ] {r : Refusing κ σ}

/-- Storage that was told of no refusal passes every call on, and goes on to do so. -/
theorem ask_of_queues (hr : ∀ k, r.queues k = []) (k : κ)
    (call : σ → Except StorageFault α × σ) :
    (ask k call r).1 = (call r.inner).1 ∧ (ask k call r).2.inner = (call r.inner).2 ∧
      ∀ k', (ask k call r).2.queues k' = [] := by
  have hpass : r.refuses k = false := by rw [refuses, hr]; rfl
  rw [ask_of_not_refuses hpass]
  refine ⟨rfl, rfl, fun k' ↦ ?_⟩
  simp only [setQueue, hr, List.tail_nil, ite_self]

end Refusing

namespace Counting

variable {τ : Type} [BreakpointStore τ]

def Unhindered (t : Refusing StoreCall (Counting τ)) : Prop := ∀ k, t.queues k = []

def Spotless (t : Refusing StoreCall (Counting τ)) : Prop := t.inner.refusals = 0

variable {t t' : Refusing StoreCall (Counting τ)}

theorem Unhindered.called (ht : Unhindered t) (h : Workspace.Called t t') :
    Unhindered t' ∧ t.inner.refusals ≤ t'.inner.refusals := by
  have hask {α : Type} {k : StoreCall} {call : τ → Except StorageFault α × τ}
      {t' : Refusing StoreCall (Counting τ)}
      (ih : Unhindered t' ∧ t.inner.refusals ≤ t'.inner.refusals) :
      Unhindered (Refusing.ask k (ask call) t').2 ∧
        t.inner.refusals ≤ (Refusing.ask k (ask call) t').2.inner.refusals := by
    obtain ⟨-, hinner, hqueues⟩ := Refusing.ask_of_queues ih.1 k (ask call)
    rw [hinner]
    exact ⟨hqueues, Nat.le_trans ih.2 refusals_le⟩
  induction h with
  | nothing => exact ⟨ht, Nat.le_refl _⟩
  | add file a _ ih => exact hask ih
  | remove file a _ ih => exact hask ih
  | resync file as _ ih => exact hask ih
  | list file _ ih => exact hask ih

omit [BreakpointStore τ] in
theorem Unhindered.ok (ht : Unhindered t) {α : Type} {k : StoreCall}
    {call : τ → Except StorageFault α × τ} (h : Spotless (Refusing.ask k (ask call) t).2) :
    ∃ a, (Refusing.ask k (ask call) t).1 = .ok a := by
  obtain ⟨hresult, hinner, -⟩ := Refusing.ask_of_queues ht k (ask call)
  rw [Spotless, hinner] at h
  rw [hresult]
  exact ask_ok h

theorem remembers : Remembers (τ := Refusing StoreCall (Counting τ)) Unhindered Spotless where
  sound_called ht h := (ht.called h).1
  clean_before ht h hclean := Nat.eq_zero_of_le_zero (hclean ▸ (ht.called h).2)
  remove _ _ ht h := (ht.ok h).choose_spec
  resync _ _ ht h := (ht.ok h).choose_spec
  list _ ht h := ht.ok h

end Counting

end ScriptBreakpoints
