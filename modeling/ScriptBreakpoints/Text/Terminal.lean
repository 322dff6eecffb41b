import ScriptBreakpoints.Text.Quoted

namespace ScriptBreakpoints.Terminal

def spell (c : Char) : List Char :=
  match c with
  | '\x07' => "\\x07".toList
  | '\x08' => "\\x08".toList
  | '\x0c' => "\\x0c".toList
  | '\x1b' => "\\x1b".toList
  | '\x7f' => "\\x7f".toList
  | _ => if 0x80 ≤ c.val ∧ c.val ≤ 0x9f then Quoted.codePoint c else [c]

def escape (s : String) : String := String.ofList (s.toList.flatMap spell)

end ScriptBreakpoints.Terminal
