import ScriptBreakpoints.Address
import ScriptBreakpoints.Json.Layout
import ScriptBreakpoints.Json.Spelling
import ScriptBreakpoints.Json.Value
import ScriptBreakpoints.Text.Decimal

namespace ScriptBreakpoints.Json

namespace Value

/-- A whole number of 64 bits, without sign, point or exponent. -/
def u64? : Value → Option UInt64
  | number digits => Decimal.read? (digits.map fun b => Char.ofNat b.toNat)
  | _ => none

def ofU64 (n : UInt64) : Value := .number ((Decimal.digits n).map fun c => c.toUInt8)

def bool? : Value → Option Bool
  | bool b => some b
  | _ => none

def text? : Value → Option String
  | string raw => read? raw
  | _ => none

def nullable? {α : Type} (f : Value → Option α) : Value → Option (Option α)
  | null => some none
  | v => (f v).map some

def members? : Value → Option (List (String × Value))
  | object members => members.mapM fun (key, v) => do return (← read? key, v)
  | _ => none

end Value

def unique? (key : String) (members : List (String × Value)) : Option (Option Value) :=
  match members.filter (·.1 = key) with
  | [] => some none
  | [(_, v)] => some (some v)
  | _ => none

def field? {α : Type} (key : String) (f : Value → Option α) (default : α)
    (members : List (String × Value)) : Option α := do
  match ← unique? key members with
  | some v => f v
  | none => return default

def required? {α : Type} (key : String) (f : Value → Option α)
    (members : List (String × Value)) : Option α := do
  f (← (← unique? key members))

end ScriptBreakpoints.Json

namespace ScriptBreakpoints.Address

open Json

def toJson (a : Address) : Value :=
  .object [(spell "routineId", .ofU64 a.routine), (spell "opcodeOffset", .ofU64 a.offset)]

def ofJson? : Value → Option Address
  | .array items =>
    match items with
    | [r, o] => do return ⟨← r.u64?, ← o.u64?⟩
    | _ => none
  | v => do
    let members ← v.members?
    return {
      routine := ← required? "routineId" Value.u64? members
      offset := ← required? "opcodeOffset" Value.u64? members }

def document (a : Address) : Bytes := compact a.toJson.tokens

def parse? (document : Bytes) : Option Address := (Json.parse? document).bind ofJson?

end ScriptBreakpoints.Address
