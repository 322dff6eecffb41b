import ScriptBreakpoints.Proofs.Posting
import ScriptBreakpoints.Proofs.Requests

namespace ScriptBreakpoints

open Fallible Workspace

/-- What the editor `e` may ask of its workspace while it does what it was asked. -/
def EditorRequest.asks (e : Editor) : EditorRequest → Request → Prop
  | openScript file, r => r = .openInEditor file ∨ r = .listBreakpoints file
  | closeScript file confirm, r => r = .closeInEditor file confirm
  | toggle file _ _, r =>
    r = .debugState file ∨ ∃ a, r = .removeBreakpoint file a ∨ r = .addBreakpointAt file a
  | deleteLines file projection start stop, r =>
    ∃ o a, e.scripts[file]? = some o ∧ projection = o.authority ∧
      a ∈ (o.buffer.deleteLines start stop).1 ∧ r = .removeBreakpoint file a
  | save file, r =>
    (∃ projection text marked, r = .save file projection text marked) ∨ r = .forceReload file
  | _, _ => False

/-- What is asked of the workspace on account of what is asked of an editor, whatever it has
open. -/
inductive EditorRequest.Entails : EditorRequest → Request → Prop
  | openInEditor (file : String) : Entails (.openScript file) (.openInEditor file)
  | listBreakpoints (file : String) : Entails (.openScript file) (.listBreakpoints file)
  | closeInEditor (file : String) (confirm : Bool) :
      Entails (.closeScript file confirm) (.closeInEditor file confirm)
  | debugState (file : String) (projection : Projection) (line : Nat) :
      Entails (.toggle file projection line) (.debugState file)
  | disarm (file : String) (projection : Projection) (line : Nat) (a : Address) :
      Entails (.toggle file projection line) (.removeBreakpoint file a)
  | arm (file : String) (projection : Projection) (line : Nat) (a : Address) :
      Entails (.toggle file projection line) (.addBreakpointAt file a)
  | deleteLines (file : String) (projection : Projection) (start stop : Nat) (a : Address) :
      Entails (.deleteLines file projection start stop) (.removeBreakpoint file a)
  | save (file : String) (projection : Projection) (text : String) (marked : LineSet) :
      Entails (.save file) (.save file projection text marked)
  | forceReload (file : String) : Entails (.save file) (.forceReload file)

theorem EditorRequest.entails_of_asks {e : Editor} {r : EditorRequest} {asked : Request}
    (h : r.asks e asked) : r.Entails asked := by
  cases r with
  | openScript file =>
    obtain rfl | rfl := h
    · exact .openInEditor file
    · exact .listBreakpoints file
  | closeScript file confirm =>
    cases h
    exact .closeInEditor file confirm
  | toggle file projection line =>
    obtain rfl | ⟨a, rfl | rfl⟩ := h
    · exact .debugState file projection line
    · exact .disarm file projection line a
    · exact .arm file projection line a
  | deleteLines file projection start stop =>
    obtain ⟨o, a, -, -, -, rfl⟩ := h
    exact .deleteLines file projection start stop a
  | save file =>
    obtain ⟨projection, text, marked, rfl⟩ | rfl := h
    · exact .save file projection text marked
    · exact .forceReload file
  | _ => cases h

def EditorRequest.file? : EditorRequest → Option String
  | openScript file => some file
  | closeScript file _ => some file
  | toggle file _ _ => some file
  | insertLines file _ _ _ => some file
  | deleteLines file _ _ _ => some file
  | save file => some file
  | runPending => none
  | text file _ => some file
  | breakpointLines file _ => some file
  | hasChanges file => some file
  | isWaiting file => some file
  | takeLost file => some file

theorem EditorRequest.file?_eq_none {r : EditorRequest} : r.file? = none ↔ r = .runPending := by
  cases r <;> simp [file?]

def EditorRequest.relistens : EditorRequest → Bool
  | openScript _ | closeScript _ _ => true
  | _ => false

def EditorRequest.isLook : EditorRequest → Bool
  | text .. | breakpointLines .. | hasChanges _ | isWaiting _ => true
  | _ => false

def Message.file? : Message → Option String
  | reload e => some e.file
  | added file _ => some file
  | removed file _ => some file
  | shutdown => none

theorem Message.file?_eq_none {m : Message} : m.file? = none ↔ m = .shutdown := by
  cases m <;> simp [file?]

variable {σ τ α : Type}

section Frame

variable {I : Desk σ τ → Prop}

theorem keeps_opened (file : String) :
    Keeps I (Editor.opened file : EditorAction σ τ OpenScript) := by
  refine Keeps.get.bind fun d ↦ ?_
  cases d.editor.scripts[file]? with
  | none => exact .throw _
  | some s => exact .pure s

theorem keeps_editable (file : String) (projection : Projection) :
    Keeps I (Editor.editable file projection : EditorAction σ τ OpenScript) := by
  refine (keeps_opened file).bind fun s ↦ ?_
  exact .ite ((Keeps.throw _).bind fun _ ↦ .pure _) (.pure _)

end Frame

theorem EditorRequest.perform_look [Archive σ] [BreakpointStore τ] (c : Compiler)
    {r : EditorRequest} (hr : r.isLook = true) (d : Desk σ τ) :
    ((r.perform c).outcome d).2 = d := by
  cases r with
  | text f projection =>
    rw [perform, outcome_bind_pure]
    simp only [Editor.text, Editor.opened, outcome_bind, outcome_get]
    cases d.editor.scripts[f]? <;> rfl
  | breakpointLines f projection =>
    rw [perform, outcome_bind_pure]
    simp only [Editor.breakpointLines, Editor.opened, outcome_bind, outcome_get]
    cases d.editor.scripts[f]? <;> rfl
  | hasChanges f => rfl
  | isWaiting f => rfl
  | _ => cases hr

structure Spares [Archive σ] [BreakpointStore τ] (c : Compiler) (file : String)
    (asked : Request → Prop) (I : Desk σ τ → Prop) : Prop where
  log {d : Desk σ τ} (log : List Notice) : I d → I { d with workspace.log := log }
  scripts {d : Desk σ τ} {scripts : Std.ExtTreeMap String OpenScript} :
    (∀ other ≠ file, scripts[other]? = d.editor.scripts[other]?) → I d →
      I { d with editor.scripts := scripts }
  ask {d : Desk σ τ} {r : Request} : asked r → I d →
    I { d with workspace := ((r.perform c).outcome d.workspace).2 }

/-- `I` is kept by everything that an editor with the mailbox `box` can do about `file` with
requests out of `asked`. -/
structure Bears [Archive σ] [BreakpointStore τ] (c : Compiler) (box : Mailbox) (file : String)
    (asked : Request → Prop) (I : Desk σ τ → Prop) : Prop extends Spares c file asked I where
  inbox {d : Desk σ τ} : I d → d.editor.inbox = box
  listen {d : Desk σ τ} : I d →
    I { d with workspace := ((listen file box : Action σ τ Unit).outcome d.workspace).2 }
  unlisten {d : Desk σ τ} : I d →
    I { d with workspace := ((unlisten file box : Action σ τ Unit).outcome d.workspace).2 }

section Steps

variable [Archive σ] [BreakpointStore τ] {c : Compiler} {box : Mailbox} {file : String}
  {asked : Request → Prop} {I : Desk σ τ → Prop}

namespace Spares

theorem mono {asked' : Request → Prop} (hI : Spares c file asked I)
    (h : ∀ r, asked' r → asked r) : Spares c file asked' I where
  log := hI.log
  scripts := hI.scripts
  ask hr := hI.ask (h _ hr)

theorem put (hI : Spares c file asked I) (s : OpenScript) :
    Keeps I (Editor.put file s : EditorAction σ τ Unit) :=
  .modify fun _ hd ↦ hI.scripts (fun _ ho ↦ getElem?_insert_of_ne ho) hd

theorem note (hI : Spares c file asked I) (n : Notice) :
    Keeps I (Editor.note n : EditorAction σ τ Unit) :=
  fun d hd ↦ hI.log (d.workspace.log ++ [n]) hd

theorem request (hI : Spares c file asked I) {r : Request} (hr : asked r)
    {x : Action σ τ α} {f : α → Reply} (hx : r.perform c = x >>= fun a ↦ pure (f a)) :
    Keeps I (perform x) := by
  intro d hd
  have h := hI.ask hr hd
  rw [hx, ← map_eq_pure_bind, outcome_map] at h
  exact h

theorem place (hI : Spares c file asked I) (addresses : List Address) (s : OpenScript) :
    Keeps I (Editor.place file addresses s : EditorAction σ τ Unit) :=
  (Keeps.forM fun _ _ ↦ hI.note _).bind fun _ ↦ hI.put _

theorem showMarker (hI : Spares c file asked I) (a : Address) (s : OpenScript) :
    Keeps I (Editor.showMarker file a s : EditorAction σ τ Unit) :=
  (Keeps.forM fun _ _ ↦ hI.note _).bind fun _ ↦ hI.put _

theorem removeAll (hI : Spares c file asked I) {addresses : List Address}
    (hr : ∀ a ∈ addresses, asked (.removeBreakpoint file a)) :
    Keeps I (Editor.removeAll c file addresses) := by
  refine Keeps.forM fun a ha ↦ ?_
  refine (hI.request (hr a ha) rfl).bind fun _ ↦ ?_
  exact (keeps_opened file).bind fun _ ↦ hI.put _

theorem toggle {e : Editor} {projection : Projection} {line : Nat}
    (hI : Spares c file ((EditorRequest.toggle file projection line).asks e) I) :
    Keeps I (Editor.toggle c file projection line) := by
  have hadd (s : OpenScript) (a : Address) : Keeps I (do
      ScriptBreakpoints.perform (addBreakpointAt c file a)
      Editor.showMarker file a s : EditorAction σ τ Unit) :=
    (hI.request (r := .addBreakpointAt file a) (.inr ⟨a, .inr rfl⟩) rfl).bind fun _ ↦
      hI.showMarker a s
  refine (keeps_opened file).bind fun s ↦ .ite ((hI.note _).bind fun _ ↦ .pure _) ?_
  refine .ite (hI.removeAll fun a _ ↦ .inr ⟨a, .inl rfl⟩) ?_
  refine (hI.request (r := .debugState file) (.inl rfl) rfl).bind fun state ↦ ?_
  cases s.buffer.marks.first? line with
  | none => exact .ite ((Keeps.throw _).bind fun _ ↦ .pure _) (.pure _)
  | some a => exact .ite ((Keeps.throw _).bind fun _ ↦ hadd s a) (hadd s a)

theorem insertLines (hI : Spares c file asked I) (projection : Projection) (start : Nat)
    (lines : List String) :
    Keeps I (Editor.insertLines file projection start lines : EditorAction σ τ Unit) :=
  (keeps_editable file projection).bind fun _ ↦ hI.put _

theorem deleteLines {d : Desk σ τ} {projection : Projection} {start stop : Nat}
    (hI : Spares c file ((EditorRequest.deleteLines file projection start stop).asks d.editor) I)
    (hd : I d) : I ((Editor.deleteLines c file projection start stop).outcome d).2 := by
  simp only [Editor.deleteLines, Editor.editable, Editor.opened, outcome_bind, outcome_get]
  cases ho : d.editor.scripts[file]? with
  | none => exact hd
  | some o =>
    simp only [outcome_pure]
    by_cases hp : projection ≠ o.authority
    · rw [if_pos hp]
      exact hd
    · rw [if_neg hp]
      exact (hI.put _).bind (fun _ ↦ hI.removeAll fun a ha ↦ ⟨o, a, ho, not_not.1 hp, ha, rfl⟩)
        d hd

theorem save {e : Editor} (hI : Spares c file ((EditorRequest.save file).asks e) I) :
    Keeps I (Editor.save c file) := by
  refine (keeps_opened file).bind fun s ↦ .ite (.pure _) ?_
  refine (hI.note _).bind fun _ ↦ ?_
  refine (hI.request (r := .save file _ _ _) (.inl ⟨_, _, _, rfl⟩) rfl).bind fun saved ↦ ?_
  refine (hI.put _).bind fun _ ↦ ?_
  refine .ite ((hI.request (r := .forceReload file) (.inr rfl) rfl).bind fun _ ↦ .pure _) (.pure _)

theorem takeLost (hI : Spares c file asked I) :
    Keeps I (Editor.takeLost file : EditorAction σ τ (List Address)) := by
  refine Keeps.get.bind fun d ↦ ?_
  cases d.editor.scripts[file]? with
  | none => exact .pure _
  | some s => exact (hI.put _).bind fun _ ↦ .pure _

theorem handle {m : Message} (hm : m.file? = some file)
    (hI : Spares c file (· = .listBreakpoints file) I) : Keeps I (Editor.handle c m) := by
  cases m with
  | reload r =>
    cases hm
    refine Keeps.bind (Keeps.get.bind fun d ↦ ?_) fun _ ↦ .pure _
    cases d.editor.scripts[r.file]? with
    | none => exact hI.note _
    | some s =>
      refine (hI.note _).bind fun _ ↦ Keeps.bind (.tryCatch ?_ fun f ↦ ?_) fun _ ↦ ?_
      · exact hI.request (r := .listBreakpoints r.file) rfl rfl
      · exact (hI.note _).bind fun _ ↦ .pure _
      · exact hI.place _ _
  | added f a =>
    cases hm
    refine Keeps.get.bind fun d ↦ ?_
    dsimp only
    cases d.editor.scripts[file]? with
    | none => exact .pure _
    | some s => exact (hI.showMarker a s).bind fun _ ↦ .pure _
  | removed f a =>
    cases hm
    refine Keeps.get.bind fun d ↦ ?_
    dsimp only
    cases d.editor.scripts[file]? with
    | none => exact .pure _
    | some s => exact (hI.put _).bind fun _ ↦ .pure _
  | shutdown => cases hm

/-- What is kept by the steps of an editor is kept by all that it is asked about a script that it
listens to. -/
theorem editorRequest {d : Desk σ τ} {r : EditorRequest} (hr : r.file? = some file)
    (hlistens : r.relistens = false) (hI : Spares c file (r.asks d.editor) I) (hd : I d) :
    I ((r.perform c).outcome d).2 := by
  have hreply {β : Type} {x : EditorAction σ τ β} {f : β → Reply} (hx : I (x.outcome d).2) :
      I ((x >>= fun a ↦ pure (f a) : EditorAction σ τ Reply).outcome d).2 := by
    rwa [← map_eq_pure_bind, outcome_map]
  cases r with
  | openScript f => cases hlistens
  | closeScript f confirm => cases hlistens
  | toggle f projection line =>
    cases hr
    exact hI.toggle.bind (fun _ ↦ .pure _) d hd
  | insertLines f projection start lines =>
    cases hr
    exact (hI.insertLines projection start lines).bind (fun _ ↦ .pure _) d hd
  | deleteLines f projection start stop =>
    cases hr
    exact hreply (hI.deleteLines hd)
  | save f =>
    cases hr
    exact hI.save.bind (fun _ ↦ .pure _) d hd
  | runPending => cases hr
  | text f projection =>
    exact ((keeps_opened f).bind fun _ ↦ .pure _).bind (fun _ ↦ .pure _) d hd
  | breakpointLines f projection =>
    exact ((keeps_opened f).bind fun _ ↦ .pure _).bind (fun _ ↦ .pure _) d hd
  | hasChanges f => exact hd
  | isWaiting f => exact hd
  | takeLost f =>
    cases hr
    exact hI.takeLost.bind (fun _ ↦ .pure _) d hd

end Spares

namespace Bears

theorem mono {asked' : Request → Prop} (hI : Bears c box file asked I)
    (h : ∀ r, asked' r → asked r) : Bears c box file asked' I where
  toSpares := hI.toSpares.mono h
  inbox := hI.inbox
  listen := hI.listen
  unlisten := hI.unlisten

/-- A property of the workspace that is not about who listens is borne if the requests keep it. -/
theorem of_workspace {J : Workspace σ τ → Prop}
    (hframe : ∀ (w : Workspace σ τ) listeners log, J w → J { w with listeners, log })
    (hask : ∀ r, asked r → Keeps J (r.perform c)) (box : Mailbox) (file : String) :
    Bears c box file asked fun d ↦ J d.workspace ∧ d.editor.inbox = box where
  inbox hd := hd.2
  log {d} log hd := ⟨hframe d.workspace d.workspace.listeners log hd.1, hd.2⟩
  scripts _ hd := hd
  ask hr hd := ⟨hask _ hr _ hd.1, hd.2⟩
  listen {d} hd := by
    obtain ⟨listeners, ho⟩ := listen_outcome file box d.workspace
    rw [ho]
    exact ⟨hframe d.workspace listeners d.workspace.log hd.1, hd.2⟩
  unlisten {d} hd := by
    obtain ⟨listeners, ho⟩ := unlisten_outcome file box d.workspace
    rw [ho]
    exact ⟨hframe d.workspace listeners d.workspace.log hd.1, hd.2⟩

theorem openScript {e : Editor} (hI : Bears c box file ((EditorRequest.openScript file).asks e) I) :
    Keeps I (Editor.openScript c file) := by
  refine Keeps.of_get fun d hd ↦ Keeps.ite (.pure _) ?_ d hd
  rw [hI.inbox hd]
  refine Keeps.bind (x := perform (Workspace.listen file box)) (fun _ ↦ hI.listen) fun _ ↦
    Keeps.tryCatch ?_ fun fault ↦ ?_
  · refine (hI.request (r := .openInEditor file) (.inl rfl) rfl).bind fun s ↦ ?_
    refine (hI.request (r := .listBreakpoints file) (.inr rfl) rfl).bind fun addresses ↦ ?_
    refine (hI.place addresses _).bind fun _ ↦ ?_
    cases s.debugState.message? with
    | none => exact .pure _
    | some message => exact hI.note _
  · exact Keeps.bind (x := perform (Workspace.unlisten file box)) (fun _ ↦ hI.unlisten) fun _ ↦
      .throw fault

theorem closeScript {e : Editor} {confirm : Bool}
    (hI : Bears c box file ((EditorRequest.closeScript file confirm).asks e) I) :
    Keeps I (Editor.closeScript c file confirm) := by
  refine (keeps_opened file).bind fun _ ↦ ?_
  refine (hI.request (r := .closeInEditor file confirm) rfl rfl).bind fun closing ↦ ?_
  refine .ite (Keeps.of_get fun d hd ↦ ?_) (.pure _)
  rw [hI.inbox hd]
  refine Keeps.bind (x := perform (Workspace.unlisten file box)) (fun _ ↦ hI.unlisten)
    (fun _ ↦ Keeps.bind (.modify fun d hd ↦ ?_) fun _ ↦ .pure _) d hd
  exact hI.scripts (fun _ ho ↦ getElem?_erase_of_ne ho) hd

/-- What is kept by listening as well is kept by all that an editor is asked about a script. -/
theorem editorRequest {d : Desk σ τ} {r : EditorRequest} (hr : r.file? = some file)
    (hI : Bears c box file (r.asks d.editor) I) (hd : I d) : I ((r.perform c).outcome d).2 := by
  cases hlistens : r.relistens with
  | false => exact hI.toSpares.editorRequest hr hlistens hd
  | true =>
    cases r with
    | openScript f =>
      cases hr
      exact hI.openScript.bind (fun _ ↦ .pure _) d hd
    | closeScript f confirm =>
      cases hr
      exact hI.closeScript.bind (fun _ ↦ .pure _) d hd
    | _ => cases hlistens

end Bears

theorem Editor.keeps_handle (hI : ∀ file, Spares c file (· = .listBreakpoints file) I)
    (m : Message) : Keeps I (Editor.handle c m) := by
  cases hm : m.file? with
  | none =>
    obtain rfl := Message.file?_eq_none.1 hm
    exact .pure _
  | some file => exact (hI file).handle hm

end Steps

end ScriptBreakpoints
