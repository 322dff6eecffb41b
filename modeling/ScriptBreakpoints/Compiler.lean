import ScriptBreakpoints.Binary
import ScriptBreakpoints.Fault
import ScriptBreakpoints.View

namespace ScriptBreakpoints

structure Compiled where
  binary : Binary
  map : SourceMap

structure Compiler where
  compile : Projection → String → Except CompileFault Compiled
  decompile : Projection → Binary → Except CompileFault View

namespace Compiler

/-- The map of compiled entries. No place is to blame for an address that occurs twice, so the
start of the text is named. -/
def mapOf (entries : List Entry) : Except CompileFault SourceMap :=
  (SourceMap.ofEntries entries).mapError fun a => ⟨SourceMap.repeatedText a, ⟨0, 0⟩⟩

def textOf (b : Binary) : Except CompileFault String :=
  match Utf8.decode? b.bytes with
  | some text => .ok text
  | none => .error ⟨"Not a unit.", ⟨0, 0⟩⟩

end Compiler

end ScriptBreakpoints
