import ScriptBreakpoints.Engine
import ScriptBreakpoints.Fault
import ScriptBreakpoints.Text.Lines
import ScriptBreakpoints.Text.Terminal

namespace ScriptBreakpoints

inductive Notice
  | loaded (file : String) (digest : Digest)
  | unheard (file : String)
  | listenerGone (file : String)
  | nowEditable (file : String) (projection : Projection)
  | openedInEditor (file : String)
  | openedInEngine (file : String)
  | closedInEditor (file : String)
  | debuggingDisabled (file : String)
  | closeDeclined (file : String)
  | closedInEngine (file : String)
  | compileFailed (file : String) (e : CompileFault)
  | writeFailed (file : String) (e : StorageFault)
  | restoreFailed (file : String) (e : StorageFault)
  | saved (file : String) (readiness : Readiness)
  | reloadRefused (file : String)
  | forcedReload (file : String)
  | invalidated (file : String)
  | emptyLine (file : String) (line : Nat)
  | foreignBinary (file : String) (reported expected : Digest)
  | engineEvent (event : EngineReport)
  | eventFailed (e : Fault)
  | engineStopped
  | unmarked (file : String) (projection : Projection) (address : Address)
  | breakpointLost (file : String) (address : Address)
  | statusTold (file message : String)
  | clickIgnored (file : String) (projection : Projection)
  | saving (file : String)
  | reloadIgnored (file : String)
  | reloading (file : String)
  | breakpointsUnknown (file : String) (e : Fault)
  | editorStopped
  | writing (size : Nat) (path : String)
  | breakpointsLoaded (path : String)
  | configLoaded (path : String)

namespace Notice

def level : Notice → String
  | restoreFailed .. | reloadRefused .. | eventFailed .. | breakpointsUnknown .. => "ERROR"
  | listenerGone .. | debuggingDisabled .. | compileFailed .. | writeFailed .. | invalidated ..
  | foreignBinary .. | breakpointLost .. => "WARN"
  | nowEditable .. | openedInEditor .. | openedInEngine .. | closedInEditor .. | closedInEngine ..
  | saved .. | forcedReload .. | statusTold .. | saving .. | reloading .. | breakpointsLoaded ..
  | configLoaded .. => "INFO"
  | _ => "DEBUG"

def source : Notice → String
  | unmarked .. | breakpointLost .. | statusTold .. | clickIgnored .. | saving ..
  | reloadIgnored .. | reloading .. | breakpointsUnknown .. | editorStopped => "editor"
  | writing .. => "archive"
  | breakpointsLoaded .. => "breakpoints"
  | configLoaded .. => "config"
  | _ => "registry"

def text : Notice → String
  | loaded file digest => s!"{file}: Loaded unit {digest.tagged}."
  | unheard file => s!"{file}: No editor is listening."
  | listenerGone file => s!"{file}: An editor went away before it got notified."
  | nowEditable file projection => s!"{file}: The {projection.name} projection is now editable."
  | openedInEditor file => s!"{file}: Opened in editor."
  | openedInEngine file => s!"{file}: Opened in ground engine."
  | closedInEditor file => s!"{file}: Closed in editor."
  | debuggingDisabled file => s!"{file}: Debugging is disabled until the file is reloaded."
  | closeDeclined file => s!"{file}: Closing in editor was declined."
  | closedInEngine file => s!"{file}: Closed in ground engine."
  | compileFailed file e => s!"{file}: Compiling failed: {e.message}"
  | writeFailed file e => s!"{file}: Writing the unit failed, restoring breakpoints: {e.message}"
  | restoreFailed file e => s!"{file}: Restoring breakpoints failed: {e.message}"
  | saved file .ready => s!"{file}: Saved, can be reloaded."
  | saved file .deferred => s!"{file}: Saved, can NOT be reloaded while the engine holds it."
  | reloadRefused file => s!"{file}: Reload forced without a save that allows it."
  | forcedReload file => s!"{file}: Force reload."
  | invalidated file => s!"{file}: Marked invalid, breakpoints are disabled."
  | emptyLine file line => s!"{file}: No instruction on line {line}."
  | foreignBinary file reported expected =>
    s!"{file}: The engine loaded an unknown binary ({reported.tagged}, expected {expected.tagged})."
  | engineEvent event => s!"Engine event: {event.listing}"
  | eventFailed e => s!"Handling an engine event failed: {e.message}"
  | engineStopped => "Engine notifications stopped."
  | unmarked file projection address =>
    s!"{file}: No {projection.name} mark for {address.toText}."
  | breakpointLost file address => s!"{file}: Breakpoint at {address.toText} was lost."
  | statusTold file message => s!"{file}: {message}"
  | clickIgnored file projection =>
    s!"{file}: Ignoring a click into the read-only {projection.name} projection."
  | saving file => s!"{file}: Save."
  | reloadIgnored file => s!"{file}: Reload for a file that is no longer open."
  | reloading file => s!"{file}: On reload."
  | breakpointsUnknown file e => s!"{file}: Can't restore breakpoints after reload: {e.message}"
  | editorStopped => "Editor stopped."
  | writing size path => s!"Writing {size} bytes to {path}."
  | breakpointsLoaded path => s!"Loaded breakpoints from {path}."
  | configLoaded path => s!"Loaded config from {path}."

def line (n : Notice) : String :=
  s!"{n.level} {n.source}: {Terminal.escape (Lines.first n.text)}"

end Notice

end ScriptBreakpoints
