import ScriptBreakpoints.Address
import ScriptBreakpoints.Projection

namespace ScriptBreakpoints

inductive StorageFault
  | missing (file : String)
  | corrupt (file reason : String)
  | inaccessible
  | malformed
deriving DecidableEq

def StorageFault.message : StorageFault → String
  | missing file => s!"Archive entry '{file}' does not exist"
  | corrupt file reason => s!"Archive entry '{file}' is corrupt: {reason}"
  | inaccessible => "I/O error"
  | malformed => "Could not (de)serialize stored data"

structure CompileFault where
  reason : String
  place : TextPos
deriving DecidableEq

def CompileFault.message (e : CompileFault) : String := s!"{e.reason} (at {e.place.toText})"

inductive Fault
  | storage (e : StorageFault)
  | compile (e : CompileFault)
  | readOnly (file : String) (projection : Projection)
  | notBreakable (file : String)
  | notOpen (file : String)
  | notReady (file : String)
deriving DecidableEq

namespace Fault

def message : Fault → String
  | storage e => e.message
  | compile e => e.message
  | readOnly file projection => s!"The {projection.name} projection of '{file}' is not editable"
  | notBreakable file => s!"Debugging is disabled for '{file}' until it is reloaded"
  | notOpen file => s!"'{file}' is not open in this editor"
  | notReady file => s!"'{file}' was not saved with a reload ready to be triggered"

/-- Errors of normal use, which only need to be shown. The others are broken contracts of the
caller or failures of storage. -/
def isUserFacing : Fault → Bool
  | compile _ | notBreakable _ => true
  | _ => false

end Fault

end ScriptBreakpoints
