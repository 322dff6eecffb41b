import ScriptBreakpoints.Script

namespace ScriptBreakpoints

inductive Message
  | reload (event : Reload)
  | added (file : String) (address : Address)
  | removed (file : String) (address : Address)
  | shutdown

structure Channel (α : Type) where
  queue : List α
  isOpen : Bool

namespace Channel

variable {α : Type}

def new : Channel α := ⟨[], true⟩

def send (a : α) (c : Channel α) : Bool × Channel α :=
  if c.isOpen then (true, { c with queue := c.queue ++ [a] }) else (false, c)

def close (_ : Channel α) : Channel α := ⟨[], false⟩

end Channel

end ScriptBreakpoints
