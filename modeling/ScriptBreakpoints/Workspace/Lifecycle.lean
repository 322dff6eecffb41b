import ScriptBreakpoints.Placement
import ScriptBreakpoints.Workspace

namespace ScriptBreakpoints

structure Saved where
  readiness : Readiness
  /-- The map of the saved text, which the next reload makes active. -/
  provisional : SourceMap
  breakpoints : List Address

namespace Workspace

variable {σ τ : Type} [Archive σ] [BreakpointStore τ] (c : Compiler)

def digestOf (file : String) : Action σ τ Digest := return (← script c file).binary.digest

def debugStateOf (file : String) : Action σ τ DebugState := return (← script c file).debugState

def setAuthority (file : String) (projection : Projection) : Action σ τ Unit := do
  let s ← script c file
  if s.authority ≠ projection then
    note (.nowEditable file projection)
    putScript file { s with authority := projection }

def openInEditor (file : String) : Action σ τ Script := do
  let s ← script c file
  let s := { s with flags.inEditor := true }
  putScript file s
  note (.openedInEditor file)
  return s

def closeInEditor (file : String) (confirm : Bool) : Action σ τ Closing := do
  let (closing, s) := (← script c file).closeInEditor confirm
  putScript file s
  if closing.closed then
    note (.closedInEditor file)
    if s.flags.notBreakable then note (.debuggingDisabled file)
  else note (.closeDeclined file)
  return closing

/-- Keeps a script after an engine event, and posts the reload if it was one. -/
def settle (file : String) : Script × Bool → Action σ τ Unit
  | (s, reloaded) => do
    putScript file s
    if reloaded then broadcast file (.reload s.reload)

def openInEngine (file : String) : Action σ τ Unit := do
  let s ← script c file
  note (.openedInEngine file)
  settle file s.openInEngine

def closeInEngine (file : String) : Action σ τ Unit := do
  let s ← script c file
  note (.closedInEngine file)
  settle file s.closeInEngine

def invalidate (file : String) : Action σ τ Unit := do
  let s ← script c file
  note (.invalidated file)
  putScript file s.invalidate

def forceReload (file : String) : Action σ τ Unit := do
  let s ← script c file
  if s.reloadReady then
    note (.forcedReload file)
    settle file (s.promote, true)
  else
    note (.reloadRefused file)
    throw (.notReady file)

def build (file : String) (projection : Projection) (text : String) :
    Action σ τ (Compiled × View) := do
  match c.compile projection text with
  | .error e =>
    note (.compileFailed file e)
    throw (.compile e)
  | .ok compiled =>
    match c.decompile projection.other compiled.binary with
    | .error e => throw (.compile e)
    | .ok other => return (compiled, other)

/-- Archives a binary. If that fails, the breakpoints go back to what they were. -/
def archiveBinary (file : String) (binary : Binary) (previous : List Address) :
    Action σ τ Unit := do
  (Archive.announce file binary.bytes (← get).archive).forM note
  match ← askArchive (Archive.write file binary.bytes) with
  | .ok () => return
  | .error e =>
    note (.writeFailed file e)
    match ← askStore (BreakpointStore.resync file previous) with
    | .ok () => pure ()
    | .error e => note (.restoreFailed file e)
    throw (.storage e)

def savedViews (projection : Projection) (text : String) (map : SourceMap) (other : View) :
    Dual View :=
  .ofFn fun p => if p = projection then ⟨text, map⟩ else other

/-- Compiles a text, moves the breakpoints of the marked lines to the new addresses, and archives
the binary. Nothing changes if any of it fails. -/
def save (file : String) (projection : Projection) (text : String) (marked : LineSet) :
    Action σ τ Saved := do
  let s ← script c file
  if projection ≠ s.authority then throw (.readOnly file projection)
  let (compiled, other) ← build c file projection text
  let breakpoints := compiled.map.breakpointsOn marked
  let previous ← demand (← askStore (BreakpointStore.list file))
  demand (← askStore (BreakpointStore.resync file breakpoints))
  archiveBinary file compiled.binary previous
  let (readiness, s) := s.save compiled.binary (savedViews projection text compiled.map other)
  putScript file s
  note (.saved file readiness)
  return ⟨readiness, compiled.map, breakpoints⟩

end Workspace

end ScriptBreakpoints
