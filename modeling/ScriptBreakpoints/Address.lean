import Std.Data.ExtTreeMap

namespace ScriptBreakpoints

/-- What a debugger breaks on: a routine and the offset of an instruction inside it. -/
structure Address where
  routine : UInt64
  offset : UInt64
deriving DecidableEq, Inhabited

structure TextPos where
  line : Nat
  column : Nat
deriving DecidableEq, Inhabited

namespace Address

instance : Ord Address := ⟨compareLex (compareOn (·.routine)) (compareOn (·.offset))⟩

instance : Std.TransOrd Address := inferInstanceAs (Std.TransCmp (compareLex _ _))

instance : Std.LawfulEqOrd Address where
  eq_of_compare {a b} h := by
    obtain ⟨hr, ho⟩ := compareLex_eq_eq.1 h
    cases a; cases b
    simp_all [compareOn]

def toText (a : Address) : String := s!"routine {a.routine} opcode {a.offset}"

def routineTag (a : Address) : String := s!"routine-{a.routine}"

def offsetTag (a : Address) : String := s!"opcode-{a.offset}"

def listing (a : Address) : String :=
  "BytecodePosition \x7b routine_id: " ++ a.routineTag ++ ", opcode_offset: " ++ a.offsetTag ++
    " \x7d"

end Address

namespace TextPos

instance : Ord TextPos := ⟨compareLex (compareOn (·.line)) (compareOn (·.column))⟩

def toText (p : TextPos) : String := s!"{p.line + 1}:{p.column + 1}"

def listing (p : TextPos) : String :=
  "TextPosition \x7b line: " ++ toString p.line ++ ", column: " ++ toString p.column ++ " \x7d"

end TextPos

end ScriptBreakpoints
