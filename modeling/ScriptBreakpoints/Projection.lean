namespace ScriptBreakpoints

inductive Projection
  | primary
  | derived
deriving DecidableEq, Inhabited

namespace Projection

def other : Projection → Projection
  | primary => derived
  | derived => primary

@[simp] theorem other_ne (p : Projection) : p.other ≠ p := by cases p <;> decide

def name : Projection → String
  | primary => "primary"
  | derived => "derived"

def title : Projection → String
  | primary => "Primary"
  | derived => "Derived"

def precedes : Projection → Projection → Bool
  | primary, derived => true
  | _, _ => false

end Projection

structure Dual (α : Type) where
  primary : α
  derived : α
deriving DecidableEq

namespace Dual

variable {α β : Type}

def ofFn (f : Projection → α) : Dual α := ⟨f .primary, f .derived⟩

def get (d : Dual α) : Projection → α
  | .primary => d.primary
  | .derived => d.derived

def set (d : Dual α) (p : Projection) (a : α) : Dual α :=
  match p with
  | .primary => { d with primary := a }
  | .derived => { d with derived := a }

def map (f : Projection → α → β) (d : Dual α) : Dual β := ofFn fun p => f p (d.get p)

def toList (d : Dual α) : List (Projection × α) := [(.primary, d.primary), (.derived, d.derived)]

@[simp] theorem get_ofFn (f : Projection → α) (p : Projection) : (ofFn f).get p = f p := by
  cases p <;> rfl

@[simp] theorem get_map (f : Projection → α → β) (d : Dual α) (p : Projection) :
    (d.map f).get p = f p (d.get p) := get_ofFn _ p

theorem get_set (d : Dual α) (p q : Projection) (a : α) :
    (d.set p a).get q = if q = p then a else d.get q := by
  cases p <;> cases q <;> rfl

@[simp] theorem get_set_self (d : Dual α) (p : Projection) (a : α) : (d.set p a).get p = a := by
  simp [get_set]

@[ext] theorem ext_get {d e : Dual α} (h : ∀ p, d.get p = e.get p) : d = e := by
  have hp := h .primary
  have hd := h .derived
  cases d; cases e
  simp_all [get]

end Dual

end ScriptBreakpoints
