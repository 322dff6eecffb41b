import ScriptBreakpoints.Text.Pieces

namespace ScriptBreakpoints.Lines

def split (text : String) : List String := (pieces '\n' text.toList).map String.ofList

def join (lines : List String) : String := "\n".intercalate lines

theorem join_split (text : String) : join (split text) = text := by
  apply String.toList_injective
  simp [join, split, Function.comp_def, intercalate_pieces]

def first (text : String) : String :=
  let line := text.toList.takeWhile (· ≠ '\n')
  String.ofList (if line.getLast? = some '\r' then line.dropLast else line)

end ScriptBreakpoints.Lines
