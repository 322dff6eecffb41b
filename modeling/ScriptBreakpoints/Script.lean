import ScriptBreakpoints.Compiler
import ScriptBreakpoints.Engine

namespace ScriptBreakpoints

/-- The script is clear to reload: `views` are the texts and maps that are active from now on. -/
structure Reload where
  file : String
  authority : Projection
  views : Dual View

structure Flags where
  inEditor : Bool := false
  inEngine : Bool := false
  /-- The engine executes, or would load next, the archived binary. -/
  upToDate : Bool := true
  /-- No map fits what the engine executes. -/
  notBreakable : Bool := false
deriving DecidableEq

structure Slot where
  active : View
  /-- The view of the last save, if its reload has not happened yet. -/
  pending : Option View := none

namespace Slot

def latest (s : Slot) : View := s.pending.getD s.active

def promote (s : Slot) : Slot := ⟨s.latest, none⟩

end Slot

/-- A script exists as text in two projections, as the binary that is archived, and as the copy that
the engine executes. The flags say how far they agree. -/
structure Script where
  file : String
  binary : Binary
  slots : Dual Slot
  authority : Projection := .primary
  flags : Flags := {}
  /-- The last save may be followed by a forced reload. -/
  reloadReady : Bool := false

structure Closing where
  closed : Bool
  asked : Bool
deriving DecidableEq

namespace Script

def ofBinary (file : String) (binary : Binary) (views : Dual View) : Script where
  file
  binary
  slots := views.map fun _ active => { active }

def active (s : Script) : Dual View := s.slots.map fun _ slot => slot.active

def pending (s : Script) : Option (Dual View) := do
  return ⟨← s.slots.primary.pending, ← s.slots.derived.pending⟩

def hasPending (s : Script) : Bool := s.slots.toList.any fun (_, slot) => slot.pending.isSome

def debugState (s : Script) : DebugState :=
  if s.flags.notBreakable then .notBreakable
  else if s.flags.upToDate then .upToDate
  else .outdated

def promote (s : Script) : Script :=
  { s with slots := s.slots.map fun _ slot => slot.promote, reloadReady := false }

def reload (s : Script) : Reload := ⟨s.file, s.authority, s.active⟩

/-- The engine loads the archived binary. The flag says whether that is a reload. -/
def openInEngine (s : Script) : Script × Bool :=
  let held := { s with flags.inEngine := true }
  if s.flags.upToDate then (held, false)
  else ({ held with flags.upToDate := true, flags.notBreakable := false }.promote, true)

def closeInEngine (s : Script) : Script × Bool :=
  let released := { s with flags.inEngine := false, flags.notBreakable := false }
  if s.flags.upToDate then (released, false)
  else ({ released with flags.upToDate := true }.promote, true)

/-- Closing destroys the marks of an old version that the engine still executes, so it has to be
confirmed, and the script can't be debugged from then on. -/
def closeInEditor (confirm : Bool) (s : Script) : Closing × Script :=
  if s.flags.upToDate then (⟨true, false⟩, { s with flags.inEditor := false })
  else if confirm then
    (⟨true, true⟩, { s with flags.notBreakable := true, flags.inEditor := false })
  else (⟨false, true⟩, s)

/-- The engine executes something that no map fits. -/
def invalidate (s : Script) : Script :=
  { s with flags.upToDate := false, flags.notBreakable := true }

/-- A new binary is archived. Its views wait for a reload, which can be had at once unless the
engine holds the old binary. -/
def save (binary : Binary) (views : Dual View) (s : Script) : Readiness × Script :=
  let slots := s.slots.map fun p slot => { slot with pending := some (views.get p) }
  let saved := { s with binary, slots }
  if s.flags.inEngine then
    (.deferred, { saved with flags.upToDate := false, reloadReady := false })
  else (.ready, { saved with flags.upToDate := true, reloadReady := true })

end Script

end ScriptBreakpoints
