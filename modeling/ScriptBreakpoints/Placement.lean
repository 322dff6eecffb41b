import Std.Data.ExtTreeSet
import ScriptBreakpoints.Marks

namespace ScriptBreakpoints

abbrev LineSet := Std.ExtTreeSet Nat

/-- The breakpoints that markers on `lines` stand for, by line. A line without instructions has
none. -/
def SourceMap.breakpointsOn (m : SourceMap) (lines : LineSet) : List Address :=
  lines.toList.filterMap m.first?

structure Placement (κ : Type) where
  shown : List (κ × Address × Nat)
  lost : List Address

def Placement.of {κ : Type} (addresses : List Address) (tables : List (κ × Marks)) :
    Placement κ where
  shown := addresses.flatMap fun a =>
    tables.filterMap fun (k, t) => (t.place? a).map fun p => (k, a, p.line)
  lost := addresses.filter fun a => tables.all fun (_, t) => (t.place? a).isNone

end ScriptBreakpoints
