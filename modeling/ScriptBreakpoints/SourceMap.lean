import ScriptBreakpoints.Address

namespace ScriptBreakpoints

structure Entry where
  address : Address
  place : TextPos
deriving DecidableEq

namespace Entry

def order : Entry → Entry → Ordering :=
  compareLex (compareOn (·.place.column)) (compareOn (·.address))

instance : Std.TransCmp order := inferInstanceAs (Std.TransCmp (compareLex _ _))

def leftOf (a b : Entry) : Bool := (order a b).isLE

def leftmost? : List Entry → Option Entry
  | [] => none
  | e :: es =>
    match leftmost? es with
    | none => some e
    | some f => if e.leftOf f then some e else some f

end Entry

def firstRepeated? {α : Type} [DecidableEq α] (seen : List α) : List α → Option α
  | [] => none
  | a :: as => if a ∈ seen then some a else firstRepeated? (a :: seen) as

theorem firstRepeated?_eq_none_iff {α : Type} [DecidableEq α] {seen as : List α} :
    firstRepeated? seen as = none ↔ as.Nodup ∧ ∀ a ∈ as, a ∉ seen := by
  induction as generalizing seen with
  | nil => simp [firstRepeated?]
  | cons a as ih =>
    by_cases h : a ∈ seen
    · simp [firstRepeated?, h]
    · rw [firstRepeated?, if_neg h, ih]
      grind

/-- A source map: every address has one place. -/
structure SourceMap where
  entries : List Entry
  nodup : (entries.map (·.address)).Nodup

namespace SourceMap

def empty : SourceMap := ⟨[], .nil⟩

instance : Inhabited SourceMap := ⟨empty⟩

def ofEntries (entries : List Entry) : Except Address SourceMap :=
  match h : firstRepeated? [] (entries.map (·.address)) with
  | some a => .error a
  | none => .ok ⟨entries, (firstRepeated?_eq_none_iff.1 h).1⟩

def repeatedText (a : Address) : String := s!"{a.toText} is mapped more than once"

def size (m : SourceMap) : Nat := m.entries.length

def isEmpty (m : SourceMap) : Bool := m.entries.isEmpty

def place? (m : SourceMap) (a : Address) : Option TextPos :=
  (m.entries.find? (·.address = a)).map (·.place)

def contains (m : SourceMap) (a : Address) : Bool := m.entries.any (·.address = a)

def addressesOn (m : SourceMap) (line : Nat) : List Address :=
  ((m.entries.filter (·.place.line = line)).mergeSort Entry.leftOf).map (·.address)

/-- The instruction a breakpoint on `line` stops at: the leftmost one. -/
def first? (m : SourceMap) (line : Nat) : Option Address := (m.addressesOn line).head?

/-- Two maps are the same if they give the same addresses the same places, in whatever order. -/
def same (m n : SourceMap) : Bool :=
  m.size = n.size && m.entries.all fun e => n.place? e.address = some e.place

end SourceMap

end ScriptBreakpoints
