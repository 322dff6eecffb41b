import ScriptBreakpoints.Compiler
import ScriptBreakpoints.Text.Blank
import ScriptBreakpoints.Text.Decimal
import ScriptBreakpoints.Text.Pieces

namespace ScriptBreakpoints.Listing

inductive Line
  | blank
  | header (routine : UInt64)
  | instruction (code : List Char)

def keyword : List Char := "routine ".toList

def Line.ofTrimmed (code : List Char) : Except String Line :=
  if code = [] ∨ ['/', '/'] <+: code then .ok .blank
  else if '!' ∈ code then .error "Unexpected `!`."
  else if keyword <+: code then
    match Decimal.readSigned? (Trim.both (code.drop keyword.length)) with
    | some routine => .ok (.header routine)
    | none => .error "Invalid routine id."
  else .ok (.instruction code)

def Line.read (line : List Char) : Except String Line := Line.ofTrimmed (Trim.both line)

def assemble (line : Nat) (next : Option Address) :
    List (List Char) → Except CompileFault (List (List Char) × List Entry)
  | [] => .ok ([], [])
  | l :: ls =>
    let here : TextPos := ⟨line, Trim.indent l⟩
    match Line.read l, next with
    | .error reason, _ => .error ⟨reason, here⟩
    | .ok .blank, _ => assemble (line + 1) next ls
    | .ok (.header routine), _ => do
      let (code, entries) ← assemble (line + 1) (some ⟨routine, 0⟩) ls
      return ((keyword ++ Decimal.digits routine) :: code, entries)
    | .ok (.instruction _), none => .error ⟨"Instruction outside of a routine.", here⟩
    | .ok (.instruction c), some a => do
      let (code, entries) ← assemble (line + 1) (some { a with offset := a.offset + 1 }) ls
      return ((' ' :: ' ' :: ' ' :: ' ' :: c) :: code, ⟨a, here⟩ :: entries)

def parse (text : String) : Except CompileFault (String × SourceMap) := do
  let (code, entries) ← assemble 0 none (pieces '\n' text.toList)
  let map ← Compiler.mapOf entries
  return (String.ofList (code.flatMap (· ++ ['\n'])), map)

def derivedHeader : String := "// derived view\n"

def display : Projection → String → String
  | .primary, text => text
  | .derived, text => derivedHeader ++ text

def compiler : Compiler where
  compile _ text := do
    let (code, map) ← parse text
    return ⟨⟨Utf8.encode code⟩, map⟩
  decompile projection binary := do
    let text := display projection (← Compiler.textOf binary)
    return ⟨text, (← parse text).2⟩

end ScriptBreakpoints.Listing
