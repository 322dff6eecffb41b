import ScriptBreakpoints.Fault

namespace ScriptBreakpoints

/-- What an action did before it failed stays done, so its outcome is a result together with a state
in either case. -/
abbrev Fallible (S : Type) := ExceptT Fault (StateM S)

namespace Fallible

variable {S T α β : Type}

def outcome (x : Fallible S α) (s : S) : Except Fault α × S := x s

@[simp] theorem outcome_pure (a : α) (s : S) : outcome (pure a) s = (.ok a, s) := rfl

@[simp] theorem outcome_throw (f : Fault) (s : S) :
    outcome (throw f : Fallible S α) s = (.error f, s) := rfl

@[simp] theorem outcome_bind (x : Fallible S α) (k : α → Fallible S β) (s : S) :
    outcome (x >>= k) s =
      match outcome x s with
      | (.ok a, t) => outcome (k a) t
      | (.error f, t) => (.error f, t) := by
  change (match outcome x s with | (r, t) => ExceptT.bindCont k r t) = _
  rcases outcome x s with ⟨_ | _, t⟩ <;> rfl

@[simp] theorem outcome_map (f : α → β) (x : Fallible S α) (s : S) :
    outcome (f <$> x) s = ((outcome x s).1.map f, (outcome x s).2) := by
  rw [map_eq_pure_bind, outcome_bind]
  rcases outcome x s with ⟨_ | _, t⟩ <;> rfl

theorem outcome_bind_pure (f : α → β) (x : Fallible S α) (s : S) :
    outcome (x >>= fun a ↦ pure (f a)) s = ((outcome x s).1.map f, (outcome x s).2) := by
  rw [← map_eq_pure_bind, outcome_map]

@[simp] theorem outcome_tryCatch (x : Fallible S α) (k : Fault → Fallible S α) (s : S) :
    outcome (tryCatch x k) s =
      match outcome x s with
      | (.ok a, t) => (.ok a, t)
      | (.error f, t) => outcome (k f) t := by
  unfold outcome
  simp only [tryCatch, tryCatchThe, MonadExceptOf.tryCatch, ExceptT.tryCatch, ExceptT.mk, bind,
    StateT.bind]
  rcases x s with ⟨_ | _, t⟩ <;> rfl

@[simp] theorem outcome_get (s : S) : outcome (get : Fallible S S) s = (.ok s, s) := rfl

@[simp] theorem outcome_modify (f : S → S) (s : S) :
    outcome (modify f : Fallible S PUnit) s = (.ok ⟨⟩, f s) := rfl

@[simp] theorem outcome_modifyGet (f : S → α × S) (s : S) :
    outcome (modifyGet f : Fallible S α) s = (.ok (f s).1, (f s).2) := rfl

def zoom (part : T → S) (put : S → T → T) (x : Fallible S α) : Fallible T α :=
  ExceptT.mk fun t => ((x.outcome (part t)).1, put (x.outcome (part t)).2 t)

@[simp] theorem outcome_zoom (part : T → S) (put : S → T → T) (x : Fallible S α) (t : T) :
    outcome (zoom part put x) t =
      ((x.outcome (part t)).1, put (x.outcome (part t)).2 t) := rfl

end Fallible

end ScriptBreakpoints
