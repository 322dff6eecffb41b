import ScriptBreakpoints.Archive
import ScriptBreakpoints.Breakpoints

namespace ScriptBreakpoints

inductive ArchiveCall
  | read
  | write
deriving DecidableEq

inductive StoreCall
  | add
  | remove
  | resync
  | list
deriving DecidableEq

/-- Storage with a queue of answers for each kind `κ` of call. A call takes the first answer, and is
refused before it has any effect if that is true. -/
structure Refusing (κ σ : Type) where
  inner : σ
  queues : κ → List Bool := fun _ => []

namespace Refusing

variable {κ σ α : Type} [DecidableEq κ]

def setQueue (k : κ) (queue : List Bool) (r : Refusing κ σ) : Refusing κ σ :=
  { r with queues := fun k' => if k' = k then queue else r.queues k' }

def refuses (k : κ) (r : Refusing κ σ) : Bool := (r.queues k).headD false

def ask (k : κ) (call : σ → Except StorageFault α × σ) (r : Refusing κ σ) :
    Except StorageFault α × Refusing κ σ :=
  let rest := r.setQueue k (r.queues k).tail
  if r.refuses k then (.error .inaccessible, rest)
  else
    let (result, inner) := call r.inner
    (result, { rest with inner })

instance [Archive σ] : Archive (Refusing ArchiveCall σ) where
  read file := ask .read (Archive.read file)
  write file bytes := ask .write (Archive.write file bytes)
  announce file bytes r := if r.refuses .write then [] else Archive.announce file bytes r.inner

instance [BreakpointStore σ] : BreakpointStore (Refusing StoreCall σ) where
  add file a := ask .add (BreakpointStore.add file a)
  remove file a := ask .remove (BreakpointStore.remove file a)
  resync file as := ask .resync (BreakpointStore.resync file as)
  list file := ask .list (BreakpointStore.list file)

end Refusing

end ScriptBreakpoints
