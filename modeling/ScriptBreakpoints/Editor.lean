import ScriptBreakpoints.OpenScript
import ScriptBreakpoints.Workspace.Debugging

namespace ScriptBreakpoints

structure Editor where
  inbox : Mailbox
  scripts : Std.ExtTreeMap String OpenScript := ∅

structure Desk (σ τ : Type) where
  editor : Editor
  workspace : Workspace σ τ

abbrev EditorAction (σ τ : Type) := Fallible (Desk σ τ)

def perform {σ τ α : Type} (action : Action σ τ α) : EditorAction σ τ α :=
  action.zoom (·.workspace) fun workspace d => { d with workspace }

namespace Editor

variable {σ τ : Type}

def hasChanges (e : Editor) (file : String) : Bool := e.scripts[file]?.any (·.hasChanges)

def isWaiting (e : Editor) (file : String) : Bool := e.scripts[file]?.any (·.waiting)

def note (n : Notice) : EditorAction σ τ Unit := perform (Workspace.note n)

def opened (file : String) : EditorAction σ τ OpenScript := do
  match (← get).editor.scripts[file]? with
  | some s => return s
  | none => throw (.notOpen file)

def put (file : String) (s : OpenScript) : EditorAction σ τ Unit :=
  modify fun d => { d with editor.scripts := d.editor.scripts.insert file s }

def text (file : String) (projection : Projection) : EditorAction σ τ String :=
  return ((← opened file).buffers.get projection).text

def breakpointLines (file : String) (projection : Projection) : EditorAction σ τ LineSet :=
  return ((← opened file).buffers.get projection).markerLines

def takeLost (file : String) : EditorAction σ τ (List Address) := do
  match (← get).editor.scripts[file]? with
  | none => return []
  | some s =>
    put file { s with lost := [] }
    return s.lost

def place (file : String) (addresses : List Address) (s : OpenScript) :
    EditorAction σ τ Unit := do
  (s.placement addresses).lost.forM fun a => note (.breakpointLost s.file a)
  put file (s.place addresses)

def showMarker (file : String) (a : Address) (s : OpenScript) : EditorAction σ τ Unit := do
  (s.unmarked a).forM note
  put file (s.showMarker a)

def editable (file : String) (projection : Projection) : EditorAction σ τ OpenScript := do
  let s ← opened file
  if projection ≠ s.authority then throw (.readOnly s.file projection)
  return s

def insertLines (file : String) (projection : Projection) (start : Nat) (lines : List String) :
    EditorAction σ τ Unit := do
  let s ← editable file projection
  put file (s.setBuffer (s.buffer.insertLines start lines))

variable [Archive σ] [BreakpointStore τ] (c : Compiler)

def removeAll (file : String) (addresses : List Address) : EditorAction σ τ Unit :=
  addresses.forM fun a => do
    perform (Workspace.removeBreakpoint c file a)
    put file ((← opened file).hideMarker a)

/-- Listens before the script is read, so that no reload is missed. -/
def openScript (file : String) : EditorAction σ τ Unit := do
  let e := (← get).editor
  if file ∈ e.scripts then return
  perform (Workspace.listen file e.inbox)
  try
    let s ← perform (Workspace.openInEditor c file)
    let breakpoints ← perform (Workspace.listBreakpoints c file)
    place file breakpoints (.ofScript s)
    match s.debugState.message? with
    | some message => note (.statusTold file message)
    | none => pure ()
  catch fault =>
    perform (Workspace.unlisten file e.inbox)
    throw fault

def closeScript (file : String) (confirm : Bool) : EditorAction σ τ Closing := do
  let _ ← opened file
  let closing ← perform (Workspace.closeInEditor c file confirm)
  if closing.closed then
    let d ← get
    perform (Workspace.unlisten file d.editor.inbox)
    modify fun d => { d with editor.scripts := d.editor.scripts.erase file }
  return closing

/-- A click beside a line: removes the breakpoints shown there, or else adds one for the first
instruction of the line. -/
def toggle (file : String) (projection : Projection) (line : Nat) : EditorAction σ τ Unit := do
  let s ← opened file
  if projection ≠ s.authority then
    note (.clickIgnored file projection)
    return
  let shown := s.buffer.markersOn line
  if shown ≠ [] then removeAll c file shown
  else
    if (← perform (Workspace.debugStateOf c file)) = .notBreakable then throw (.notBreakable file)
    match s.buffer.marks.first? line with
    | none => return
    | some a =>
      perform (Workspace.addBreakpointAt c file a)
      showMarker file a s

def deleteLines (file : String) (projection : Projection) (start stop : Nat) :
    EditorAction σ τ Unit := do
  let s ← editable file projection
  let (removed, b) := s.buffer.deleteLines start stop
  put file (s.setBuffer b)
  removeAll c file removed

def save (file : String) : EditorAction σ τ (Option Readiness) := do
  let s ← opened file
  let b := s.buffer
  if !b.modified then return none
  note (.saving file)
  let saved ← perform (Workspace.save c file s.authority b.text b.markerLines)
  let b := { b with modified := false, provisional := some (.ofMap saved.provisional) }
  put file { s.setBuffer b with waiting := true }
  if saved.readiness = .ready then perform (Workspace.forceReload c file)
  return some saved.readiness

def onReload (r : Reload) : EditorAction σ τ Unit := do
  match (← get).editor.scripts[r.file]? with
  | none => note (.reloadIgnored r.file)
  | some s =>
    note (.reloading r.file)
    let breakpoints ←
      try perform (Workspace.listBreakpoints c r.file)
      catch fault =>
        note (.breakpointsUnknown r.file fault)
        pure []
    place r.file breakpoints (s.reload r)

/-- False if the editor has to stop. -/
def handle : Message → EditorAction σ τ Bool
  | .reload r => do
    onReload c r
    return true
  | .added file a => do
    if let some s := (← get).editor.scripts[file]? then showMarker file a s
    return true
  | .removed file a => do
    if let some s := (← get).editor.scripts[file]? then put file (s.hideMarker a)
    return true
  | .shutdown => return false

def waitingMail (d : Desk σ τ) : List Message :=
  (d.workspace.mail[d.editor.inbox]?.map (·.queue)).getD []

def setMail (queue : List Message) : EditorAction σ τ Unit :=
  modify fun d => { d with
    workspace.mail := d.workspace.mail.modify d.editor.inbox fun c => { c with queue } }

/-- Handles messages one by one, up to the first one that stops the editor. Handling sends no
messages, so what waits behind a message is known when it is taken. -/
def handleAll : List Message → EditorAction σ τ Nat
  | [] => return 0
  | m :: rest => do
    setMail rest
    if ← handle c m then return (← handleAll rest) + 1
    else return 1

def runPending : EditorAction σ τ Nat := do
  handleAll c (waitingMail (← get))

def run : EditorAction σ τ Unit := do
  let _ ← runPending c
  note .editorStopped

end Editor

end ScriptBreakpoints
