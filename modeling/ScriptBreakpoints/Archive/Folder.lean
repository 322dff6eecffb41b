import ScriptBreakpoints.Archive
import ScriptBreakpoints.Disk

namespace ScriptBreakpoints

structure FolderArchive where
  disk : Disk
  root : String

namespace FolderArchive

/-- Whether a name stays inside: it is not empty, does not start at the root or at a dot, and never
goes up. -/
def isInside (file : String) : Bool :=
  file ≠ "" && !Path.isAbsolute file && !Path.startsAtDot file &&
    !(Path.segments file).contains ".."

def path (a : FolderArchive) (file : String) : Except StorageFault String :=
  if isInside file then .ok (Path.join a.root file)
  else .error (.corrupt file "not a relative path inside the archive")

def read (file : String) (a : FolderArchive) : Except StorageFault Bytes := do
  match a.disk.read (← a.path file) with
  | .ok bytes => return bytes
  | .error .missing => throw (.missing file)
  | .error .other => throw .inaccessible

/-- The folders on the way are made first, and stay even if the file can't be written. -/
def write (file : String) (bytes : Bytes) (a : FolderArchive) :
    Except StorageFault Unit × FolderArchive :=
  match a.path file with
  | .error e => (.error e, a)
  | .ok path =>
    match a.disk.makeParents path with
    | (disk, false) => (.error .inaccessible, { a with disk })
    | (disk, true) =>
      match disk.write path bytes with
      | .ok disk => (.ok (), { a with disk })
      | .error _ => (.error .inaccessible, { a with disk })

def announce (file : String) (bytes : Bytes) (a : FolderArchive) : List Notice :=
  match a.path file with
  | .error _ => []
  | .ok path => if (a.disk.makeParents path).2 then [.writing bytes.length path] else []

instance : Archive FolderArchive where
  read file a := (a.read file, a)
  write := write
  announce := announce

end FolderArchive

end ScriptBreakpoints
