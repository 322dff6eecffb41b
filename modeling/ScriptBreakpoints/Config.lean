import ScriptBreakpoints.Archive.Folder
import ScriptBreakpoints.Breakpoints.Ledger

namespace ScriptBreakpoints

structure Config where
  archiveDir : String := "archive"
  breakpointsFile : Option String := none
  logToStdout : Bool := false

namespace Config

open Json

def same (c d : Config) : Bool :=
  Path.same c.archiveDir d.archiveDir && c.logToStdout = d.logToStdout &&
    match c.breakpointsFile, d.breakpointsFile with
    | some a, some b => Path.same a b
    | a, b => a.isNone && b.isNone

/-- Members that are left out, anywhere in an object or at the end of an array, have their
defaults. -/
def ofJson? : Value → Option Config
  | .array items =>
    match items with
    | [] => some {}
    | [dir] => do return { archiveDir := ← dir.text? }
    | [dir, file] => do
      return { archiveDir := ← dir.text?, breakpointsFile := ← file.nullable? Value.text? }
    | [dir, file, log] => do return ⟨← dir.text?, ← file.nullable? Value.text?, ← log.bool?⟩
    | _ => none
  | v => do
    let members ← v.members?
    return {
      archiveDir := ← field? "archiveDir" Value.text? "archive" members
      breakpointsFile := ← field? "breakpointsFile" (Value.nullable? Value.text?) none members
      logToStdout := ← field? "logToStdout" Value.bool? false members }

def parse (document : Bytes) : Except StorageFault Config :=
  ((Json.parse? document).bind ofJson?).elim (.error .malformed) .ok

def load (disk : Disk) (path : String) : Except StorageFault Config :=
  match disk.read path with
  | .ok document => parse document
  | .error _ => .error .inaccessible

def openArchive (c : Config) (disk : Disk) (base : String) : FolderArchive :=
  ⟨disk, Path.join base c.archiveDir⟩

def backing? (c : Config) (disk : Disk) (base : String) : Option BackingFile :=
  c.breakpointsFile.map fun path => ⟨disk, Path.join base path⟩

end Config

end ScriptBreakpoints
