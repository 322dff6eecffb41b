import ScriptBreakpoints.SourceMap

namespace ScriptBreakpoints

structure View where
  text : String
  map : SourceMap

namespace View

def empty : View := ⟨"", .empty⟩

instance : Inhabited View := ⟨empty⟩

def ofEntries (text : String) (entries : List Entry) : Except Address View :=
  return ⟨text, ← SourceMap.ofEntries entries⟩

def same (a b : View) : Bool := a.text = b.text && a.map.same b.map

end View

end ScriptBreakpoints
