import ScriptBreakpoints.Breakpoints.Document
import ScriptBreakpoints.Disk

namespace ScriptBreakpoints

class Backing (μ : Type) where
  read : μ → Except StorageFault (Option Bytes)
  write : Bytes → μ → Except StorageFault Unit × μ

instance : Backing Unit where
  read _ := .ok none
  write _ _ := (.ok (), ())

structure BackingFile where
  disk : Disk
  path : String

instance : Backing BackingFile where
  read m :=
    match m.disk.read m.path with
    | .ok bytes => .ok (some bytes)
    | .error .missing => .ok none
    | .error .other => .error .inaccessible
  write bytes m :=
    match m.disk.write m.path bytes with
    | .ok disk => (.ok (), { m with disk })
    | .error _ => (.error .inaccessible, m)

structure Ledger (μ : Type) where
  armed : Armed
  backing : μ

namespace Ledger

variable {μ : Type} [Backing μ]

/-- The store of the document. Without one it is empty. -/
def load (backing : μ) : Except StorageFault (Ledger μ) := do
  match ← Backing.read backing with
  | none => return ⟨∅, backing⟩
  | some document =>
    match Armed.parse? document with
    | some armed => return ⟨armed, backing⟩
    | none => throw .malformed

/-- Writes a change, then makes it. -/
def commit (armed : Armed) (l : Ledger μ) : Except StorageFault Unit × Ledger μ :=
  match Backing.write armed.document l.backing with
  | (.ok (), backing) => (.ok (), ⟨armed, backing⟩)
  | (.error e, backing) => (.error e, { l with backing })

def commit? (change : Option Armed) (l : Ledger μ) : Except StorageFault Unit × Ledger μ :=
  change.elim (.ok (), l) fun armed => l.commit armed

instance : BreakpointStore (Ledger μ) where
  add file a l := l.commit? (l.armed.add? file a)
  remove file a l := l.commit? (l.armed.remove? file a)
  resync file addresses l := l.commit (l.armed.resync file addresses)
  list file l := (.ok (l.armed.list file), l)

end Ledger

end ScriptBreakpoints
