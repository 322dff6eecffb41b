import ScriptBreakpoints.SourceMap

namespace ScriptBreakpoints

inductive LineEdit
  | insert (start count : Nat)
  /-- The lines `start ≤ · < stop` go. -/
  | delete (start stop : Nat)

namespace LineEdit

def start : LineEdit → Nat
  | insert start _ => start
  | delete start _ => start

def line? : LineEdit → Nat → Option Nat
  | insert start count, line => some (if start ≤ line then line + count else line)
  | delete start stop, line =>
    if start ≤ line ∧ line < stop then none
    else some (if stop ≤ line then line - (stop - start) else line)

end LineEdit

/-- A position on a deleted line goes to the start of the line that follows the deletion. -/
def TextPos.after (e : LineEdit) (p : TextPos) : TextPos :=
  match e.line? p.line with
  | some line => { p with line }
  | none => ⟨e.start, 0⟩

structure Marks where
  places : Std.ExtTreeMap Address TextPos
deriving DecidableEq

namespace Marks

def empty : Marks := ⟨∅⟩

def ofMap (m : SourceMap) : Marks := ⟨.ofList (m.entries.map fun e => (e.address, e.place))⟩

def place? (t : Marks) (a : Address) : Option TextPos := t.places[a]?

def entries (t : Marks) : List Entry := t.places.toList.map fun (a, p) => ⟨a, p⟩

def first? (t : Marks) (line : Nat) : Option Address :=
  (Entry.leftmost? (t.entries.filter (·.place.line = line))).map (·.address)

def edit (e : LineEdit) (t : Marks) : Marks := ⟨t.places.map fun _ p => p.after e⟩

@[simp] theorem place?_edit (e : LineEdit) (t : Marks) (a : Address) :
    (t.edit e).place? a = (t.place? a).map (·.after e) := Std.ExtTreeMap.getElem?_map

@[ext] theorem ext_place? {t u : Marks} (h : ∀ a, t.place? a = u.place? a) : t = u := by
  cases t; cases u
  exact congrArg _ (Std.ExtTreeMap.ext_getElem? h)

end Marks

end ScriptBreakpoints
