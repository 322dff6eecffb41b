import ScriptBreakpoints.Proofs.Happenings
import ScriptBreakpoints.Session.Command

namespace ScriptBreakpoints

def Script.reloads (s : Script) : Happening → Bool
  | .loadedInEngine | .unloadedInEngine => !s.flags.upToDate
  | .forcedReload => s.reloadReady
  | _ => false

/-- What is shown and what waits for a reload stay so, unless there is a reload or something new is
saved. -/
theorem Script.slots_after {s : Script} {h : Happening} (hr : s.reloads h = false)
    (hsave : h.isSave = false) : (s.after h).slots = s.slots := by
  cases h with
  | saved binary views => cases hsave
  | closedInEditor confirm =>
    simp only [after, closeInEditor]
    split
    · rfl
    · split <;> rfl
  | loadedInEngine =>
    have hu : s.flags.upToDate = true := by simpa [reloads] using hr
    rw [after, openInEngine, if_pos hu]
  | unloadedInEngine =>
    have hu : s.flags.upToDate = true := by simpa [reloads] using hr
    rw [after, closeInEngine, if_pos hu]
  | forcedReload => rw [after, if_neg (show ¬s.reloadReady = true from ne_true_of_eq_false hr)]
  | _ => rfl

theorem Script.hasPending_after {s : Script} {h : Happening} (hr : s.reloads h = false)
    (hsave : h.isSave = false) : (s.after h).hasPending = s.hasPending := by
  rw [hasPending, slots_after hr hsave, hasPending]

namespace Workspace

def loading (reported : Option Digest) (s : Script) : Happening :=
  if reported.all (· = s.binary.digest) then .loadedInEngine else .foreignInEngine

theorem loading_foreign {reported : Option Digest} {s : Script} {foreign : Digest}
    (h : reported.filter (· ≠ s.binary.digest) = some foreign) :
    loading reported s = .foreignInEngine := by
  rw [Option.filter_eq_some_iff] at h
  obtain ⟨rfl, hne⟩ := h
  simp_all [loading]

theorem loading_known {reported : Option Digest} {s : Script}
    (h : reported.filter (· ≠ s.binary.digest) = none) : loading reported s = .loadedInEngine := by
  cases reported <;> simp_all [loading]

def saving (c : Compiler) (projection : Projection) (text : String) : Happening :=
  match c.compile projection text with
  | .error _ => .asked
  | .ok compiled =>
    match c.decompile projection.other compiled.binary with
    | .error _ => .asked
    | .ok other => .saved compiled.binary (savedViews projection text compiled.map other)

end Workspace

namespace Request

open Workspace

def file : Request → String
  | get file => file
  | digest file => file
  | debugState file => file
  | setAuthority file _ => file
  | openInEditor file => file
  | closeInEditor file _ => file
  | openInEngine file => file
  | closeInEngine file => file
  | save file _ _ _ => file
  | forceReload file => file
  | invalidate file => file
  | addBreakpoint file _ _ => file
  | addBreakpointAt file _ => file
  | removeBreakpoint file _ => file
  | listBreakpoints file => file
  | report r => r.file

def isSave : Request → Bool
  | save .. => true
  | _ => false

/-- What a request means for the script it is about, if nothing refuses it. -/
def turn (c : Compiler) : Request → Script → Happening
  | get _ | digest _ | debugState _ => fun _ ↦ .asked
  | addBreakpoint .. | addBreakpointAt .. | removeBreakpoint .. | listBreakpoints _ =>
    fun _ ↦ .asked
  | setAuthority _ projection => fun _ ↦ .authority projection
  | openInEditor _ => fun _ ↦ .openedInEditor
  | closeInEditor _ confirm => fun _ ↦ .closedInEditor confirm
  | openInEngine _ => fun _ ↦ .loadedInEngine
  | closeInEngine _ => fun _ ↦ .unloadedInEngine
  | save _ projection text _ => fun _ ↦ Workspace.saving c projection text
  | forceReload _ => fun _ ↦ .forcedReload
  | invalidate _ => fun _ ↦ .invalidated
  | report (.loaded _ reported) => Workspace.loading reported
  | report (.unloaded _) => fun _ ↦ .unloadedInEngine

theorem turn_isSave (c : Compiler) {r : Request} (hr : r.isSave = false) (s : Script) :
    (r.turn c s).isSave = false := by
  cases r with
  | save file projection text marked => cases hr
  | report r =>
    cases r with
    | loaded file reported =>
      simp only [turn, loading]
      split <;> rfl
    | unloaded file => rfl
  | _ => rfl

def rearm (c : Compiler) : Request → Script → Std.ExtTreeSet Address → Std.ExtTreeSet Address
  | save _ projection text marked => fun _ armed ↦
    match c.compile projection text with
    | .error _ => armed
    | .ok compiled =>
      match c.decompile projection.other compiled.binary with
      | .error _ => armed
      | .ok _ => .ofList (compiled.map.breakpointsOn marked)
  | addBreakpoint _ line projection => fun s armed ↦
    match (s.active.get projection).map.first? line with
    | none => armed
    | some a => armed.insert a
  | addBreakpointAt _ a => fun _ armed ↦ armed.insert a
  | removeBreakpoint _ a => fun _ armed ↦ armed.erase a
  | _ => fun _ armed ↦ armed

def posts (c : Compiler) : Request → Script → Option Message
  | addBreakpoint file line projection => fun s ↦
    ((s.active.get projection).map.first? line).map (.added file)
  | addBreakpointAt file a => fun _ ↦ some (.added file a)
  | removeBreakpoint file a => fun _ ↦ some (.removed file a)
  | r => fun s ↦
    if s.reloads (r.turn c s) then some (.reload (s.after (r.turn c s)).reload) else none

/-- All that a request can make of the script it finds, of the breakpoints and of the mail. -/
inductive Effect (c : Compiler) (r : Request) (s : Script) : Prop
  | reloads : r.posts c s = some (.reload (s.after (r.turn c s)).reload) →
      (∀ armed, r.rearm c s armed = armed) → Effect c r s
  | adds (a : Address) : r.posts c s = some (.added r.file a) →
      (∀ armed, r.rearm c s armed = armed.insert a) → r.turn c s = .asked → Effect c r s
  | removes (a : Address) : r.posts c s = some (.removed r.file a) →
      (∀ armed, r.rearm c s armed = armed.erase a) → r.turn c s = .asked → Effect c r s
  | saves : r.posts c s = none → (r.turn c s).isSave = true → Effect c r s
  | quiet : r.posts c s = none → (∀ armed, r.rearm c s armed = armed) →
      s.reloads (r.turn c s) = false → (r.turn c s).isSave = false → Effect c r s

theorem effect (c : Compiler) (r : Request) (s : Script) : r.Effect c s := by
  have hplain (hp : r.posts c s = if s.reloads (r.turn c s)
        then some (.reload (s.after (r.turn c s)).reload) else none)
      (ha : ∀ armed, r.rearm c s armed = armed) (hs : (r.turn c s).isSave = false) :
      r.Effect c s := by
    cases hr : s.reloads (r.turn c s) with
    | true => exact .reloads (hp.trans (by rw [hr]; rfl)) ha
    | false => exact .quiet (hp.trans (by rw [hr]; rfl)) ha hr hs
  cases r with
  | save file projection text marked =>
    cases hc : c.compile projection text with
    | error e =>
      exact hplain rfl (fun _ ↦ by simp only [rearm, hc]) (by simp only [turn, saving, hc]; rfl)
    | ok compiled =>
      cases hd : c.decompile projection.other compiled.binary with
      | error e =>
        exact hplain rfl (fun _ ↦ by simp only [rearm, hc, hd])
          (by simp only [turn, saving, hc, hd]; rfl)
      | ok other =>
        refine .saves ?_ ?_ <;> simp only [posts, turn, saving, hc, hd] <;> rfl
  | addBreakpoint file line projection =>
    cases ha : (s.active.get projection).map.first? line with
    | none =>
      exact .quiet (by simp only [posts, ha]; rfl) (fun _ ↦ by simp only [rearm, ha]) rfl rfl
    | some a => exact .adds a (by simp only [posts, ha]; rfl) (fun _ ↦ by simp only [rearm, ha]) rfl
  | addBreakpointAt file a => exact .adds a rfl (fun _ ↦ rfl) rfl
  | removeBreakpoint file a => exact .removes a rfl (fun _ ↦ rfl) rfl
  | report e => exact hplain rfl (fun _ ↦ rfl) ((report e).turn_isSave c rfl s)
  | _ => exact hplain rfl (fun _ ↦ rfl) rfl

theorem reload_of_posts {c : Compiler} {r : Request} {s : Script} {e : Reload}
    (h : r.posts c s = some (.reload e)) : e = (s.after (r.turn c s)).reload := by
  cases r.effect c s with
  | reloads hm =>
    rw [h] at hm
    exact Message.reload.inj (Option.some.inj hm)
  | adds _ hm | removes _ hm | saves hm | quiet hm =>
    rw [h] at hm
    cases hm

end Request

end ScriptBreakpoints
