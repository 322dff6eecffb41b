import ScriptBreakpoints.Buffer
import ScriptBreakpoints.Notice
import ScriptBreakpoints.Script

namespace ScriptBreakpoints

structure OpenScript where
  file : String
  authority : Projection
  buffers : Dual Buffer
  /-- The next reload makes the marks of a save active. -/
  waiting : Bool
  /-- Breakpoints that no projection shows any more, and that nobody was told about yet. -/
  lost : List Address

namespace OpenScript

/-- A script is opened on the text of its last save. -/
def ofScript (s : Script) : OpenScript where
  file := s.file
  authority := s.authority
  buffers := s.slots.map fun _ slot =>
    match slot.pending with
    | some v => .ofPending v
    | none => .ofView slot.active
  waiting := s.hasPending
  lost := []

def buffer (s : OpenScript) : Buffer := s.buffers.get s.authority

def setBuffer (b : Buffer) (s : OpenScript) : OpenScript :=
  { s with buffers := s.buffers.set s.authority b }

def hasChanges (s : OpenScript) : Bool := s.buffers.toList.any fun (_, b) => b.modified

def showMarker (a : Address) (s : OpenScript) : OpenScript :=
  { s with buffers := s.buffers.map fun _ b => b.showMarker a }

def unmarked (a : Address) (s : OpenScript) : List Notice :=
  (s.buffers.toList.filter fun (_, b) => (b.marks.place? a).isNone).map fun (p, _) =>
    .unmarked s.file p a

def hideMarker (a : Address) (s : OpenScript) : OpenScript :=
  { s with buffers := s.buffers.map fun _ b => b.hideMarker a }

def placement (addresses : List Address) (s : OpenScript) : Placement Projection :=
  .of addresses (s.buffers.toList.map fun (p, b) => (p, b.table s.waiting))

def place (addresses : List Address) (s : OpenScript) : OpenScript :=
  let placement := s.placement addresses
  let mark (d : Dual Buffer) : Projection × Address × Nat → Dual Buffer
    | (p, a, line) => d.set p ((d.get p).mark a line)
  { s with buffers := placement.shown.foldl mark s.buffers, lost := s.lost ++ placement.lost }

/-- The projection that is not edited shows what was generated. -/
def reload (r : Reload) (s : OpenScript) : OpenScript :=
  { s with
    authority := r.authority
    buffers := s.buffers.map fun p b =>
      if p = r.authority then b.reload s.waiting (r.views.get p).map else .ofView (r.views.get p)
    waiting := false }

end OpenScript

end ScriptBreakpoints
