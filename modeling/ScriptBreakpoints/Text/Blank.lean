namespace ScriptBreakpoints

def isBlank (c : Char) : Bool :=
  c = ' ' || (0x09 ≤ c.val && c.val ≤ 0x0d) || c.val = 0x85 || c.val = 0xa0 || c.val = 0x1680 ||
    (0x2000 ≤ c.val && c.val ≤ 0x200a) || c.val = 0x2028 || c.val = 0x2029 || c.val = 0x202f ||
    c.val = 0x205f || c.val = 0x3000

namespace Trim

def start (cs : List Char) : List Char := cs.dropWhile isBlank

def both (cs : List Char) : List Char := (start (start cs).reverse).reverse

def indent : List Char → Nat
  | [] => 0
  | c :: cs => if isBlank c then c.utf8Size + indent cs else 0

end Trim

end ScriptBreakpoints
