import ScriptBreakpoints.Breakpoints
import ScriptBreakpoints.Json.Fields

namespace ScriptBreakpoints.Armed

open Json

def toJson (t : Armed) : Value :=
  .object (t.toList.map fun (file, set) => (spell file, .array (set.toList.map Address.toJson)))

def setOfJson? : Value → Option (Std.ExtTreeSet Address)
  | .array items => (items.mapM Address.ofJson?).map fun addresses => .ofList addresses
  | _ => none

def ofJson? (v : Value) : Option Armed := do
  return .ofList (← (← v.members?).mapM fun (file, set) => do return (file, ← setOfJson? set))

def document (t : Armed) : Bytes := pretty 0 t.toJson.tokens

def parse? (document : Bytes) : Option Armed := (Json.parse? document).bind ofJson?

end ScriptBreakpoints.Armed
