import ScriptBreakpoints.Workspace.Lifecycle

namespace ScriptBreakpoints.Workspace

variable {σ τ : Type} [Archive σ] [BreakpointStore τ] (c : Compiler)

def listBreakpoints (file : String) : Action σ τ (List Address) := do
  let _ ← script c file
  demand (← askStore (BreakpointStore.list file))

def arm (s : Script) (file : String) (a : Address) : Action σ τ Unit := do
  if s.flags.notBreakable then throw (.notBreakable s.file)
  demand (← askStore (BreakpointStore.add file a))
  broadcast file (.added file a)

def addBreakpoint (file : String) (line : Nat) (projection : Projection) :
    Action σ τ (Option Address) := do
  let s ← script c file
  match (s.active.get projection).map.first? line with
  | none =>
    note (.emptyLine file line)
    return none
  | some a =>
    arm s file a
    return some a

def addBreakpointAt (file : String) (a : Address) : Action σ τ Unit := do
  arm (← script c file) file a

/-- A breakpoint can be removed even where none can be added. -/
def removeBreakpoint (file : String) (a : Address) : Action σ τ Unit := do
  let _ ← script c file
  demand (← askStore (BreakpointStore.remove file a))
  broadcast file (.removed file a)

/-- The engine loads a binary. If it is not the archived one, no map fits it. -/
def loadedInEngine (file : String) (reported : Option Digest) : Action σ τ Unit := do
  let s ← script c file
  let expected := s.binary.digest
  match reported.filter (· ≠ expected) with
  | some foreign =>
    note (.foreignBinary file foreign expected)
    putScript file { s with flags.inEngine := true }.invalidate
  | none =>
    note (.openedInEngine file)
    settle file s.openInEngine

def handleReport : EngineReport → Action σ τ Unit
  | .loaded file digest => loadedInEngine c file digest
  | .unloaded file => closeInEngine c file

def handleReports (reports : List EngineReport) : Action σ τ Unit := do
  reports.forM fun r => do
    note (.engineEvent r)
    try handleReport c r catch e => note (.eventFailed e)
  note .engineStopped

end ScriptBreakpoints.Workspace
