import Std.Data.ExtTreeSet
import ScriptBreakpoints.Address
import ScriptBreakpoints.Fault

namespace ScriptBreakpoints

class BreakpointStore (τ : Type) where
  add : String → Address → τ → Except StorageFault Unit × τ
  remove : String → Address → τ → Except StorageFault Unit × τ
  resync : String → List Address → τ → Except StorageFault Unit × τ
  list : String → τ → Except StorageFault (List Address) × τ

abbrev Armed := Std.ExtTreeMap String (Std.ExtTreeSet Address)

namespace Armed

def list (t : Armed) (file : String) : List Address := (t[file]?.getD ∅).toList

def add? (file : String) (a : Address) (t : Armed) : Option Armed :=
  let set := t[file]?.getD ∅
  if a ∈ set then none else some (t.insert file (set.insert a))

/-- Nothing if the address is not armed. A script without breakpoints is not kept. -/
def remove? (file : String) (a : Address) (t : Armed) : Option Armed :=
  let set := t[file]?.getD ∅
  if a ∉ set then none
  else if (set.erase a).isEmpty then some (t.erase file)
  else some (t.insert file (set.erase a))

def resync (file : String) (addresses : List Address) (t : Armed) : Armed :=
  if addresses.isEmpty then t.erase file else t.insert file (.ofList addresses)

end Armed

structure ResyncRefusing (τ : Type) where
  inner : τ

instance {τ : Type} [BreakpointStore τ] : BreakpointStore (ResyncRefusing τ) where
  add file a s :=
    let (result, inner) := BreakpointStore.add file a s.inner
    (result, ⟨inner⟩)
  remove file a s :=
    let (result, inner) := BreakpointStore.remove file a s.inner
    (result, ⟨inner⟩)
  resync _ _ s := (.error .inaccessible, s)
  list file s :=
    let (result, inner) := BreakpointStore.list file s.inner
    (result, ⟨inner⟩)

end ScriptBreakpoints
