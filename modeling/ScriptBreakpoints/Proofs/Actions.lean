import ScriptBreakpoints.Workspace

namespace ScriptBreakpoints

namespace Fallible

variable {S T α β : Type} {I : S → Prop}

@[simp] theorem outcome_forM_nil (f : α → Fallible S PUnit) (s : S) :
    (([] : List α).forM f).outcome s = (.ok ⟨⟩, s) := rfl

@[simp] theorem outcome_forM_cons (a : α) (as : List α) (f : α → Fallible S PUnit) (s : S) :
    ((a :: as).forM f).outcome s = (f a >>= fun _ ↦ as.forM f).outcome s := rfl

def Keeps (I : S → Prop) (x : Fallible S α) : Prop := ∀ s, I s → I (x.outcome s).2

theorem Keeps.pure (a : α) : Keeps I (pure a : Fallible S α) := fun _ h ↦ h

theorem Keeps.throw (f : Fault) : Keeps I (throw f : Fallible S α) := fun _ h ↦ h

theorem Keeps.get : Keeps I (get : Fallible S S) := fun _ h ↦ h

theorem Keeps.modify {f : S → S} (hf : ∀ s, I s → I (f s)) :
    Keeps I (modify f : Fallible S PUnit) := hf

theorem Keeps.bind {x : Fallible S α} {k : α → Fallible S β} (hx : Keeps I x)
    (hk : ∀ a, Keeps I (k a)) : Keeps I (x >>= k) := by
  intro s hs
  have h := hx s hs
  rw [outcome_bind]
  rcases hr : x.outcome s with ⟨_ | a, t⟩ <;> rw [hr] at h
  · exact h
  · exact hk a t h

theorem Keeps.of_get {k : S → Fallible S α} (hk : ∀ s, I s → I ((k s).outcome s).2) :
    Keeps I (MonadState.get >>= k) := by
  intro s hs
  rw [outcome_bind, outcome_get]
  exact hk s hs

theorem Keeps.ite {p : Prop} [Decidable p] {x y : Fallible S α} (hx : Keeps I x)
    (hy : Keeps I y) : Keeps I (if p then x else y) := by
  by_cases hp : p
  · rw [if_pos hp]
    exact hx
  · rw [if_neg hp]
    exact hy

theorem Keeps.of_bind_pure {x : Fallible S α} {f : α → β}
    (h : Keeps I (x >>= fun a ↦ Pure.pure (f a))) :
    Keeps I x := by
  intro s hs
  have hb := h s hs
  rw [outcome_bind] at hb
  rcases hr : x.outcome s with ⟨_ | a, t⟩ <;> rw [hr] at hb <;> exact hb

theorem Keeps.tryCatch {x : Fallible S α} {k : Fault → Fallible S α} (hx : Keeps I x)
    (hk : ∀ f, Keeps I (k f)) : Keeps I (tryCatch x k) := by
  intro s hs
  have h := hx s hs
  rw [outcome_tryCatch]
  rcases hr : x.outcome s with ⟨f | a, t⟩ <;> rw [hr] at h
  · exact hk f t h
  · exact h

theorem Keeps.forM {as : List α} {f : α → Fallible S PUnit} (hf : ∀ a ∈ as, Keeps I (f a)) :
    Keeps I (as.forM f) := by
  induction as with
  | nil => exact .pure _
  | cons a as ih => exact (hf a List.mem_cons_self).bind fun _ ↦ ih fun b hb ↦ hf b (.tail a hb)

theorem Keeps.mapM {as : List α} {f : α → Fallible S β} (hf : ∀ a, Keeps I (f a)) :
    Keeps I (as.mapM f) := by
  induction as with
  | nil => exact .pure _
  | cons a as ih =>
    rw [List.mapM_cons]
    exact (hf a).bind fun _ ↦ ih.bind fun _ ↦ .pure _

end Fallible

end ScriptBreakpoints
