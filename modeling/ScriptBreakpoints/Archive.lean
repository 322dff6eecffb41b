import Std.Data.ExtTreeMap
import ScriptBreakpoints.Notice

namespace ScriptBreakpoints

class Archive (σ : Type) where
  read : String → σ → Except StorageFault Bytes × σ
  write : String → Bytes → σ → Except StorageFault Unit × σ
  /-- What a write tells the log, seen from the state before it. -/
  announce : String → Bytes → σ → List Notice := fun _ _ _ => []

def Archive.fill {σ : Type} [Archive σ] (a : σ) : List (String × Bytes) → Except StorageFault σ
  | [] => .ok a
  | (file, bytes) :: entries =>
    match Archive.write file bytes a with
    | (.ok (), a) => fill a entries
    | (.error e, _) => .error e

structure ArchiveMap where
  entries : Std.ExtTreeMap String Bytes
deriving DecidableEq

namespace ArchiveMap

def ofList (entries : List (String × Bytes)) : ArchiveMap := ⟨.ofList entries⟩

instance : Archive ArchiveMap where
  read file a := (a.entries[file]?.elim (.error (.missing file)) .ok, a)
  write file bytes a := (.ok (), ⟨a.entries.insert file bytes⟩)

end ArchiveMap

structure ReadOnly (σ : Type) where
  inner : σ

instance {σ : Type} [Archive σ] : Archive (ReadOnly σ) where
  read file a :=
    let (result, inner) := Archive.read file a.inner
    (result, ⟨inner⟩)
  write _ _ a := (.error .inaccessible, a)

end ScriptBreakpoints
