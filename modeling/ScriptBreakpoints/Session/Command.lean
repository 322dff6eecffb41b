import ScriptBreakpoints.Editor
import ScriptBreakpoints.Refusal

namespace ScriptBreakpoints

inductive Request
  | get (file : String)
  | digest (file : String)
  | debugState (file : String)
  | setAuthority (file : String) (projection : Projection)
  | openInEditor (file : String)
  | closeInEditor (file : String) (confirm : Bool)
  | openInEngine (file : String)
  | closeInEngine (file : String)
  | save (file : String) (projection : Projection) (text : String) (marked : LineSet)
  | forceReload (file : String)
  | invalidate (file : String)
  | addBreakpoint (file : String) (line : Nat) (projection : Projection)
  | addBreakpointAt (file : String) (address : Address)
  | removeBreakpoint (file : String) (address : Address)
  | listBreakpoints (file : String)
  | report (r : EngineReport)

inductive EditorRequest
  | openScript (file : String)
  | closeScript (file : String) (confirm : Bool)
  | toggle (file : String) (projection : Projection) (line : Nat)
  | insertLines (file : String) (projection : Projection) (start : Nat) (lines : List String)
  | deleteLines (file : String) (projection : Projection) (start stop : Nat)
  | save (file : String)
  | runPending
  | text (file : String) (projection : Projection)
  | breakpointLines (file : String) (projection : Projection)
  | hasChanges (file : String)
  | isWaiting (file : String)
  | takeLost (file : String)

inductive Sighting
  | unknown
  | current
  | of (bytes : Bytes)

inductive Draft
  | loaded (file : String) (binary : Sighting)
  | unloaded (file : String)

inductive Letter
  | reload (file : String) (authority : Projection) (views : Dual (String × List Entry))
  | added (file : String) (address : Address)
  | removed (file : String) (address : Address)
  | shutdown

def Letter.message : Letter → Except Address Message
  | reload file authority views => do
    let primary ← View.ofEntries views.primary.1 views.primary.2
    let derived ← View.ofEntries views.derived.1 views.derived.2
    return .reload ⟨file, authority, ⟨primary, derived⟩⟩
  | added file a => return .added file a
  | removed file a => return .removed file a
  | shutdown => return .shutdown

inductive Call
  | archive (k : ArchiveCall)
  | store (k : StoreCall)

inductive Command
  | ask (r : Request)
  | report (d : Draft)
  /-- Reports that go through a channel. All are sent before any is handled. -/
  | reports (ds : List Draft)
  | unreceived (ds : List Draft)
  | sendUnloaded (file : String)
  | listen (file listener : String)
  | unlisten (file listener : String)
  | drain (listener : String)
  | dropInbox (listener : String)
  | refuse (call : Call) (answers : List Bool)
  /-- The store or the archive itself, past all refusals. -/
  | storeAdd (file : String) (address : Address)
  | storeRemove (file : String) (address : Address)
  | storeResync (file : String) (addresses : List Address)
  | storeList (file : String)
  | archiveRead (file : String)
  | archiveWrite (file : String) (bytes : Bytes)
  | newEditor
  | post (editor : Nat) (l : Letter)
  | isSame (editor other : Nat)
  | editorListen (editor : Nat) (file : String)
  | editorUnlisten (editor : Nat) (file : String)
  | run (editor : Nat)
  | drop (editor : Nat)
  | handle (editor : Nat) (l : Letter)
  | editor (editor : Nat) (r : EditorRequest)

inductive Reply
  | done
  | script (s : Script)
  | digest (d : Digest)
  | debugState (s : DebugState)
  | flags (f : Flags)
  | closing (c : Closing)
  | saved (s : Saved)
  | address (a : Option Address)
  | addresses (as : List Address)
  | flag (b : Bool)
  | sent (answers : List Bool)
  | count (n : Nat)
  | bytes (b : Bytes)
  | messages (ms : List Message)
  | readiness (r : Option Readiness)
  | text (s : String)
  | lines (ls : LineSet)
  | lost (file : String) (as : List Address)
  | stopped

variable {σ τ : Type} [Archive σ] [BreakpointStore τ] (c : Compiler)

namespace Request

open Workspace

def perform : Request → Action σ τ Reply
  | get file => return .script (← Workspace.script c file)
  | digest file => return .digest (← digestOf c file)
  | debugState file => return .debugState (← debugStateOf c file)
  | setAuthority file projection => do Workspace.setAuthority c file projection; return .done
  | openInEditor file => return .flags (← Workspace.openInEditor c file).flags
  | closeInEditor file confirm => return .closing (← Workspace.closeInEditor c file confirm)
  | openInEngine file => do Workspace.openInEngine c file; return .done
  | closeInEngine file => do Workspace.closeInEngine c file; return .done
  | save file projection text marked =>
    return .saved (← Workspace.save c file projection text marked)
  | forceReload file => do Workspace.forceReload c file; return .done
  | invalidate file => do Workspace.invalidate c file; return .done
  | addBreakpoint file line projection =>
    return .address (← Workspace.addBreakpoint c file line projection)
  | addBreakpointAt file a => do Workspace.addBreakpointAt c file a; return .done
  | removeBreakpoint file a => do Workspace.removeBreakpoint c file a; return .done
  | listBreakpoints file => return .addresses (← Workspace.listBreakpoints c file)
  | report r => do handleReport c r; return .done

end Request

namespace EditorRequest

def perform : EditorRequest → EditorAction σ τ Reply
  | openScript file => do Editor.openScript c file; return .done
  | closeScript file confirm => return .closing (← Editor.closeScript c file confirm)
  | toggle file projection line => do Editor.toggle c file projection line; return .done
  | insertLines file projection start lines => do
    Editor.insertLines file projection start lines
    return .done
  | deleteLines file projection start stop => do
    Editor.deleteLines c file projection start stop
    return .done
  | save file => return .readiness (← Editor.save c file)
  | runPending => return .count (← Editor.runPending c)
  | text file projection => return .text (← Editor.text file projection)
  | breakpointLines file projection => return .lines (← Editor.breakpointLines file projection)
  | hasChanges file => return .flag ((← get).editor.hasChanges file)
  | isWaiting file => return .flag ((← get).editor.isWaiting file)
  | takeLost file => return .lost file (← Editor.takeLost file)

end EditorRequest

end ScriptBreakpoints
