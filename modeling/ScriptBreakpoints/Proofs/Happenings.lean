import ScriptBreakpoints.Workspace.Lifecycle

namespace ScriptBreakpoints

namespace Slot

@[simp] theorem latest_promote (s : Slot) : s.promote.latest = s.latest := rfl

@[simp] theorem pending_promote (s : Slot) : s.promote.pending = none := rfl

end Slot

inductive Happening
  | asked
  | authority (projection : Projection)
  | openedInEditor
  | closedInEditor (confirm : Bool)
  | loadedInEngine
  | foreignInEngine
  | unloadedInEngine
  | saved (binary : Binary) (views : Dual View)
  | forcedReload
  | invalidated

def Happening.isSave : Happening → Bool
  | .saved .. => true
  | _ => false

namespace Script

def after (s : Script) : Happening → Script
  | .asked => s
  | .authority projection => { s with authority := projection }
  | .openedInEditor => { s with flags.inEditor := true }
  | .closedInEditor confirm => (s.closeInEditor confirm).2
  | .loadedInEngine => s.openInEngine.1
  | .foreignInEngine => { s with flags.inEngine := true }.invalidate
  | .unloadedInEngine => s.closeInEngine.1
  | .saved binary views => (s.save binary views).2
  | .forcedReload => if s.reloadReady then s.promote else s
  | .invalidated => s.invalidate

variable (s : Script) (binary : Binary) (views : Dual View)

section Save

@[simp] theorem save_readiness :
    (s.save binary views).1 = if s.flags.inEngine then .deferred else .ready := by
  cases h : s.flags.inEngine <;> simp [save, h]

@[simp] theorem save_file : (s.save binary views).2.file = s.file := by
  cases h : s.flags.inEngine <;> simp [save, h]

@[simp] theorem save_binary : (s.save binary views).2.binary = binary := by
  cases h : s.flags.inEngine <;> simp [save, h]

@[simp] theorem save_slots : (s.save binary views).2.slots =
    s.slots.map fun p slot ↦ { slot with pending := some (views.get p) } := by
  cases h : s.flags.inEngine <;> simp [save, h]

@[simp] theorem save_authority : (s.save binary views).2.authority = s.authority := by
  cases h : s.flags.inEngine <;> simp [save, h]

@[simp] theorem save_flags :
    (s.save binary views).2.flags = { s.flags with upToDate := !s.flags.inEngine } := by
  cases h : s.flags.inEngine <;> simp [save, h]

@[simp] theorem save_reloadReady : (s.save binary views).2.reloadReady = !s.flags.inEngine := by
  cases h : s.flags.inEngine <;> simp [save, h]

end Save

theorem hasPending_eq :
    s.hasPending = (s.slots.primary.pending.isSome || s.slots.derived.pending.isSome) := by
  simp only [hasPending, Dual.toList, List.any_cons, List.any_nil, Bool.or_false]

theorem hasPending_eq_false : s.hasPending = false ↔ ∀ p, (s.slots.get p).pending = none := by
  rw [hasPending_eq, Bool.or_eq_false_iff]
  simp only [Option.isSome_eq_false_iff, Option.isNone_iff_eq_none]
  refine ⟨fun ⟨hp, hd⟩ p ↦ ?_, fun h ↦ ⟨h .primary, h .derived⟩⟩
  cases p
  · exact hp
  · exact hd

@[simp] theorem promote_slots : s.promote.slots = s.slots.map fun _ slot ↦ slot.promote := rfl

@[simp] theorem hasPending_promote : s.promote.hasPending = false := by
  rw [hasPending_eq_false]
  intro p
  rw [promote_slots, Dual.get_map, Slot.pending_promote]

@[simp] theorem hasPending_save : (s.save binary views).2.hasPending = true := by
  rw [hasPending_eq, save_slots]
  rfl

@[simp] theorem get_active (p : Projection) : s.active.get p = (s.slots.get p).active := by
  simp only [active, Dual.get_map]

def latest (p : Projection) : View := (s.slots.get p).latest

@[simp] theorem latest_promote (p : Projection) : s.promote.latest p = s.latest p := by
  rw [latest, promote_slots, Dual.get_map, Slot.latest_promote, latest]

@[simp] theorem latest_save (p : Projection) : (s.save binary views).2.latest p = views.get p := by
  rw [latest, save_slots, Dual.get_map]
  rfl

@[simp] theorem active_save : (s.save binary views).2.active = s.active := by
  refine Dual.ext_get fun p ↦ ?_
  rw [get_active, save_slots, Dual.get_map, get_active]

theorem binary_after {h : Happening} (hh : h.isSave = false) : (s.after h).binary = s.binary := by
  cases h with
  | saved binary views => cases hh
  | closedInEditor confirm =>
    simp only [after, closeInEditor]
    split
    · rfl
    · split <;> rfl
  | loadedInEngine =>
    simp only [after, openInEngine]
    split <;> rfl
  | unloadedInEngine =>
    simp only [after, closeInEngine]
    split <;> rfl
  | forcedReload =>
    simp only [after]
    split <;> rfl
  | _ => rfl

/-- A view may become active, but the newest one is still the newest. -/
theorem latest_after {h : Happening} (hh : h.isSave = false) (p : Projection) :
    (s.after h).latest p = s.latest p := by
  cases h with
  | saved binary views => cases hh
  | closedInEditor confirm =>
    simp only [after, closeInEditor]
    split
    · rfl
    · split <;> rfl
  | loadedInEngine =>
    simp only [after, openInEngine]
    split
    · rfl
    · exact latest_promote _ p
  | unloadedInEngine =>
    simp only [after, closeInEngine]
    split
    · rfl
    · exact latest_promote _ p
  | forcedReload =>
    simp only [after]
    split
    · exact latest_promote _ p
    · rfl
  | _ => rfl

theorem file_after (h : Happening) : (s.after h).file = s.file := by
  cases h with
  | closedInEditor confirm =>
    simp only [after, closeInEditor]
    split
    · rfl
    · split <;> rfl
  | loadedInEngine =>
    simp only [after, openInEngine]
    split <;> rfl
  | unloadedInEngine =>
    simp only [after, closeInEngine]
    split <;> rfl
  | saved binary views => exact s.save_file binary views
  | forcedReload =>
    simp only [after]
    split <;> rfl
  | _ => rfl

theorem latest_eq_active (h : s.hasPending = false) (p : Projection) :
    s.latest p = s.active.get p := by
  rw [latest, Slot.latest, s.hasPending_eq_false.1 h p, get_active]
  rfl

section Load

variable (file : String)

@[simp] theorem hasPending_ofBinary : (ofBinary file binary views).hasPending = false := rfl

@[simp] theorem active_ofBinary : (ofBinary file binary views).active = views := by
  refine Dual.ext_get fun p ↦ ?_
  simp only [get_active, ofBinary, Dual.get_map]

@[simp] theorem latest_ofBinary (p : Projection) :
    (ofBinary file binary views).latest p = views.get p := by
  rw [latest_eq_active _ (hasPending_ofBinary binary views file), active_ofBinary]

end Load

end Script

end ScriptBreakpoints
