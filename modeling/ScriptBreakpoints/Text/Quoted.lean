import ScriptBreakpoints.Text.Invisible

namespace ScriptBreakpoints.Quoted

def codePoint (c : Char) : List Char := "\\u\x7b".toList ++ Nat.toDigits 16 c.toNat ++ ['\x7d']

def escape (c : Char) : List Char :=
  match c with
  | '"' => ['\\', '"']
  | '\\' => ['\\', '\\']
  | '\n' => ['\\', 'n']
  | '\r' => ['\\', 'r']
  | '\t' => ['\\', 't']
  | '\x00' => ['\\', '0']
  | _ => if c < ' ' || c = '\x7f' || Invisible.contains c then codePoint c else [c]

def quote (s : String) : String := String.ofList ('"' :: s.toList.flatMap escape ++ ['"'])

end ScriptBreakpoints.Quoted
