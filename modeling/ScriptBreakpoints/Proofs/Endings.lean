import ScriptBreakpoints.Proofs.Desks
import ScriptBreakpoints.Proofs.Responses

namespace ScriptBreakpoints

open Fallible Workspace

namespace OpenScript

def hear (as : List Address) (o : OpenScript) : Message → OpenScript
  | .reload e => (o.reload e).place as
  | .added _ x => o.showMarker x
  | .removed _ x => o.hideMarker x
  | .shutdown => o

def saved (m : SourceMap) (o : OpenScript) : OpenScript :=
  { o.setBuffer { o.buffer with modified := false, provisional := some (.ofMap m) } with
    waiting := true }

end OpenScript

variable {σ τ α : Type}

namespace Workspace

variable [BreakpointStore τ] {file : String} {w : Workspace σ τ}

/-- The breakpoints that the store lists, or none if it does not. -/
def listed (w : Workspace σ τ) (file : String) : List Address :=
  (BreakpointStore.list file w.store).1.toOption.getD []

variable [Archive σ] {c : Compiler} {s : Script}

theorem listBreakpoints_tracked (ht : w.scripts[file]? = some s) :
    (listBreakpoints c file).outcome w =
      ((BreakpointStore.list file w.store).1.mapError .storage,
        { w with store := (BreakpointStore.list file w.store).2 }) := by
  simp only [listBreakpoints, outcome_bind, script_tracked ht, outcome_askStore]
  cases (BreakpointStore.list file w.store).1 <;> rfl

/-- The breakpoints with which a message is heard, and the workspace once they were asked for. Only
a reload asks. -/
inductive Consults (c : Compiler) (file : String) (m : Message) (w : Workspace σ τ) :
    List Address → Workspace σ τ → Prop
  | news {as : List Address} :
      (∀ (o : OpenScript) (as' : List Address), o.hear as' m = o.hear as m) →
      Consults c file m w as w
  | reload {log : List Notice} {result : Except Fault (List Address)} {w' : Workspace σ τ} :
      (listBreakpoints c file).outcome { w with log } = (result, w') →
      Consults c file m w (result.toOption.getD []) w'

theorem Consults.tracked {m : Message} {as : List Address} {w' : Workspace σ τ}
    (h : Consults c file m w as w') (ht : w.scripts[file]? = some s) :
    (∀ o : OpenScript, o.hear as m = o.hear (w.listed file) m) ∧
      ∃ t log, w' = { w with store := t, log } ∧
        (t = w.store ∨ t = (BreakpointStore.list file w.store).2) := by
  cases h with
  | news h => exact ⟨fun o ↦ (h o _).symm, w.store, w.log, rfl, .inl rfl⟩
  | @reload log _ _ h =>
    rw [listBreakpoints_tracked (w := { w with log }) ht] at h
    cases h
    refine ⟨fun o ↦ ?_, _, log, rfl, .inr rfl⟩
    rw [listed]
    cases (BreakpointStore.list file w.store).1 <;> rfl

omit [BreakpointStore τ] in
theorem openInEditor_ok {w' : Workspace σ τ}
    (ho : (openInEditor c file).outcome w = (.ok s, w')) :
    w'.scripts[file]? = some s ∧ s.flags.inEditor = true := by
  simp only [openInEditor, outcome_bind] at ho
  rcases hs : (script c file : Action σ τ _).outcome w with ⟨f | t, w₁⟩ <;> rw [hs] at ho <;>
    cases ho
  exact ⟨Std.ExtTreeMap.getElem?_insert_self, rfl⟩

omit [BreakpointStore τ] in
theorem openInEditor_error {f : Fault} {w' : Workspace σ τ}
    (ho : (openInEditor c file).outcome w = (.error f, w')) :
    w'.scripts = w.scripts ∧ w.scripts[file]? = none := by
  simp only [openInEditor, outcome_bind] at ho
  rcases hs : (script c file : Action σ τ _).outcome w with ⟨f | t, w₁⟩ <;> rw [hs] at ho <;>
    cases ho
  obtain ⟨hn, -, hscripts⟩ := script_error hs
  exact ⟨hscripts, hn⟩

end Workspace

namespace Editor

theorem notes_outcome (as : List α) (f : α → Notice) (d : Desk σ τ) :
    ∃ log, (as.forM fun a ↦ note (f a) : EditorAction σ τ PUnit).outcome d =
      (.ok ⟨⟩, { d with workspace.log := log }) := by
  induction as generalizing d with
  | nil => exact ⟨d.workspace.log, rfl⟩
  | cons a as ih =>
    obtain ⟨log, ho⟩ := ih { d with workspace.log := d.workspace.log ++ [f a] }
    refine ⟨log, ?_⟩
    simp only [outcome_forM_cons, outcome_bind, note, perform, outcome_zoom, outcome_note] at ho ⊢
    rw [ho]

theorem place_outcome (file : String) (as : List Address) (o : OpenScript) (d : Desk σ τ) :
    ∃ log, (place file as o : EditorAction σ τ Unit).outcome d =
      (.ok (), { editor := { d.editor with scripts := d.editor.scripts.insert file (o.place as) },
                 workspace := { d.workspace with log } }) := by
  obtain ⟨log, ho⟩ := notes_outcome (o.placement as).lost (fun a ↦ .breakpointLost o.file a) d
  simp only [place, outcome_bind, ho, put, outcome_modify]
  exact ⟨log, rfl⟩

theorem showMarker_outcome (file : String) (x : Address) (o : OpenScript) (d : Desk σ τ) :
    ∃ log, (showMarker file x o : EditorAction σ τ Unit).outcome d =
      (.ok (),
        { editor := { d.editor with scripts := d.editor.scripts.insert file (o.showMarker x) },
          workspace := { d.workspace with log } }) := by
  obtain ⟨log, ho⟩ := notes_outcome (o.unmarked x) id d
  simp only [id] at ho
  simp only [showMarker, outcome_bind, ho, put, outcome_modify]
  exact ⟨log, rfl⟩

variable {file : String} {d : Desk σ τ} {o : OpenScript}

theorem opened_some (ho : d.editor.scripts[file]? = some o) :
    (opened file : EditorAction σ τ _).outcome d = (.ok o, d) := by
  simp only [opened, outcome_bind, outcome_get, ho, outcome_pure]

theorem opened_none (ho : d.editor.scripts[file]? = none) :
    (opened file : EditorAction σ τ _).outcome d = (.error (.notOpen file), d) := by
  simp only [opened, outcome_bind, outcome_get, ho, outcome_throw]

theorem editable_open (ho : d.editor.scripts[file]? = some o) (projection : Projection) :
    (editable file projection : EditorAction σ τ _).outcome d =
      if projection = o.authority then (.ok o, d)
      else (.error (.readOnly o.file projection), d) := by
  simp only [editable, outcome_bind, opened_some ho]
  by_cases hp : projection = o.authority
  · rw [if_neg (not_not.2 hp), if_pos hp]
    rfl
  · rw [if_pos hp, if_neg hp]
    rfl

variable [Archive σ] [BreakpointStore τ] (c : Compiler)

section Handle

variable {c} {m : Message}

theorem handle_closed (ho : d.editor.scripts[file]? = none) (hm : m.file? = some file) :
    ∃ log, (handle c m).outcome d =
      (.ok true, { d with workspace := { d.workspace with log } }) := by
  cases m with
  | reload e =>
    cases hm
    simp only [handle, onReload, outcome_bind, outcome_get, ho]
    exact ⟨_, rfl⟩
  | added f x =>
    cases hm
    simp only [handle, outcome_bind, outcome_get, ho]
    exact ⟨d.workspace.log, rfl⟩
  | removed f x =>
    cases hm
    simp only [handle, outcome_bind, outcome_get, ho]
    exact ⟨d.workspace.log, rfl⟩
  | shutdown => cases hm

/-- A script that is open hears the messages about it. -/
theorem handle_open (ho : d.editor.scripts[file]? = some o) (hm : m.file? = some file) :
    ∃ as w log, (handle c m).outcome d =
        (.ok true,
          { editor := { d.editor with scripts := d.editor.scripts.insert file (o.hear as m) },
            workspace := { w with log } }) ∧
      Consults c file m d.workspace as w := by
  cases m with
  | reload e =>
    cases hm
    simp only [handle, onReload, outcome_bind, outcome_get, ho, note, perform, outcome_zoom,
      outcome_note, outcome_tryCatch]
    rcases hl : (listBreakpoints c e.file).outcome
      { d.workspace with log := d.workspace.log ++ [.reloading e.file] } with ⟨fault | as, w⟩
    · obtain ⟨log, hplace⟩ := place_outcome e.file [] (o.reload e)
        { d with workspace := { w with log := w.log ++ [.breakpointsUnknown e.file fault] } }
      simp only [outcome_pure, hplace]
      exact ⟨[], w, log, rfl, .reload hl⟩
    · obtain ⟨log, hplace⟩ := place_outcome e.file as (o.reload e) { d with workspace := w }
      simp only [hplace]
      exact ⟨as, w, log, rfl, .reload hl⟩
  | added f x =>
    cases hm
    obtain ⟨log, hshow⟩ := showMarker_outcome file x o d
    simp only [handle, outcome_bind, outcome_get, ho, hshow]
    exact ⟨[], d.workspace, log, rfl, .news fun _ _ ↦ rfl⟩
  | removed f x =>
    cases hm
    simp only [handle, outcome_bind, outcome_get, ho]
    exact ⟨[], d.workspace, d.workspace.log, rfl, .news fun _ _ ↦ rfl⟩
  | shutdown => cases hm

end Handle

variable {c} in
theorem openScript_open (ho : d.editor.scripts[file]? = some o) :
    (openScript c file).outcome d = (.ok (), d) := by
  have hopen : file ∈ d.editor.scripts := by
    rw [Std.ExtTreeMap.mem_iff_isSome_getElem?, ho]
    rfl
  simp only [openScript, outcome_bind, outcome_get, if_pos hopen, outcome_pure]

/-- The ways in which it ends to open a script that was not open. -/
inductive OpenEnds (file : String) (d : Desk σ τ) : Except Fault Unit → Desk σ τ → Prop
  | unfound {f : Fault} {w₁ w₂ w₃ : Workspace σ τ} :
      (listen file d.editor.inbox).outcome d.workspace = (.ok (), w₁) →
      (openInEditor c file).outcome w₁ = (.error f, w₂) →
      (unlisten file d.editor.inbox).outcome w₂ = (.ok (), w₃) →
      OpenEnds file d (.error f) { d with workspace := w₃ }
  | unlisted {s : Script} {f : Fault} {w₁ w₂ w₃ w₄ : Workspace σ τ} :
      (listen file d.editor.inbox).outcome d.workspace = (.ok (), w₁) →
      (openInEditor c file).outcome w₁ = (.ok s, w₂) →
      (listBreakpoints c file).outcome w₂ = (.error f, w₃) →
      (unlisten file d.editor.inbox).outcome w₃ = (.ok (), w₄) →
      OpenEnds file d (.error f) { d with workspace := w₄ }
  | opened {s : Script} {as : List Address} {w₁ w₂ w₃ : Workspace σ τ} {log : List Notice} :
      (listen file d.editor.inbox).outcome d.workspace = (.ok (), w₁) →
      (openInEditor c file).outcome w₁ = (.ok s, w₂) →
      (listBreakpoints c file).outcome w₂ = (.ok as, w₃) →
      OpenEnds file d (.ok ())
        { editor := { d.editor with
            scripts := d.editor.scripts.insert file ((OpenScript.ofScript s).place as) },
          workspace := { w₃ with log } }

theorem openScript_ends (ho : d.editor.scripts[file]? = none) :
    OpenEnds c file d ((openScript c file).outcome d).1 ((openScript c file).outcome d).2 := by
  have hnew : file ∉ d.editor.scripts := by
    rw [Std.ExtTreeMap.mem_iff_isSome_getElem?, ho]
    decide
  simp only [openScript, outcome_bind, outcome_get, if_neg hnew, perform, outcome_zoom,
    outcome_tryCatch]
  obtain ⟨listeners, hlisten⟩ := listen_outcome file d.editor.inbox d.workspace
  simp only [hlisten]
  have hunlisten (w : Workspace σ τ) : ∃ w', (unlisten file d.editor.inbox).outcome w =
      (.ok (), w') := by
    obtain ⟨listeners, h⟩ := unlisten_outcome file d.editor.inbox w
    exact ⟨_, h⟩
  rcases hfound : (openInEditor c file).outcome { d.workspace with listeners } with ⟨f | s, w₂⟩
  · obtain ⟨w₃, hu⟩ := hunlisten w₂
    simp only [hu]
    exact .unfound hlisten hfound hu
  · rcases hl : (listBreakpoints c file).outcome w₂ with ⟨f | as, w₃⟩
    · obtain ⟨w₄, hu⟩ := hunlisten w₃
      simp only [hl, hu]
      exact .unlisted hlisten hfound hl hu
    · obtain ⟨log, hplace⟩ := place_outcome file as (.ofScript s) { d with workspace := w₃ }
      simp only [hl, hplace]
      cases s.debugState.message? with
      | none => exact .opened hlisten hfound hl
      | some message =>
        simp only [note, perform, outcome_zoom, outcome_note]
        exact .opened hlisten hfound hl

/-- The ways in which it ends to close a script that was open. -/
inductive CloseEnds (file : String) (confirm : Bool) (d : Desk σ τ) :
    Except Fault Closing → Desk σ τ → Prop
  | refused {f : Fault} {w : Workspace σ τ} :
      (closeInEditor c file confirm).outcome d.workspace = (.error f, w) →
      CloseEnds file confirm d (.error f) { d with workspace := w }
  | declined {closing : Closing} {w : Workspace σ τ} :
      (closeInEditor c file confirm).outcome d.workspace = (.ok closing, w) →
      closing.closed = false →
      CloseEnds file confirm d (.ok closing) { d with workspace := w }
  | closed {closing : Closing} {w w' : Workspace σ τ} :
      (closeInEditor c file confirm).outcome d.workspace = (.ok closing, w) →
      closing.closed = true →
      (unlisten file d.editor.inbox).outcome w = (.ok (), w') →
      CloseEnds file confirm d (.ok closing)
        { editor := { d.editor with scripts := d.editor.scripts.erase file }, workspace := w' }

omit [BreakpointStore τ] in
theorem closeScript_ends (ho : d.editor.scripts[file]? = some o) (confirm : Bool) :
    CloseEnds c file confirm d ((closeScript c file confirm).outcome d).1
      ((closeScript c file confirm).outcome d).2 := by
  simp only [closeScript, outcome_bind, opened_some ho, perform, outcome_zoom]
  rcases hasked : (closeInEditor c file confirm).outcome d.workspace with ⟨f | closing, w⟩
  · exact .refused hasked
  · cases hclosed : closing.closed with
    | false =>
      simp only [hclosed, Bool.false_eq_true, if_false, outcome_pure]
      exact .declined hasked hclosed
    | true =>
      obtain ⟨listeners, hunlisten⟩ := unlisten_outcome file d.editor.inbox w
      simp only [hclosed, if_true, outcome_bind, outcome_get, outcome_zoom, hunlisten,
        outcome_modify, outcome_pure]
      exact .closed hasked hclosed hunlisten

variable {c} in
theorem save_unopened (ho : d.editor.scripts[file]? = none) :
    (Editor.save c file).outcome d = (.error (.notOpen file), d) := by
  simp only [Editor.save, outcome_bind, opened_none ho]

/-- The ways in which a save ends. The forced reload after one does not fail. -/
inductive SaveEnds (file : String) (d : Desk σ τ) :
    Except Fault (Option Readiness) → Desk σ τ → Prop
  | unopened : d.editor.scripts[file]? = none → SaveEnds file d (.error (.notOpen file)) d
  | unmodified {o : OpenScript} : d.editor.scripts[file]? = some o → o.buffer.modified = false →
      SaveEnds file d (.ok none) d
  | failed {o : OpenScript} {f : Fault} {w : Workspace σ τ} :
      d.editor.scripts[file]? = some o → o.buffer.modified = true →
      (Workspace.save c file o.authority o.buffer.text o.buffer.markerLines).outcome
        { d.workspace with log := d.workspace.log ++ [.saving file] } = (.error f, w) →
      SaveEnds file d (.error f) { d with workspace := w }
  | saved {o : OpenScript} {answer : Saved} {w w' : Workspace σ τ} :
      d.editor.scripts[file]? = some o → o.buffer.modified = true →
      (Workspace.save c file o.authority o.buffer.text o.buffer.markerLines).outcome
        { d.workspace with log := d.workspace.log ++ [.saving file] } = (.ok answer, w) →
      (answer.readiness = .ready ∧ (forceReload c file).outcome w = (.ok (), w') ∨
        answer.readiness = .deferred ∧ w' = w) →
      SaveEnds file d (.ok (some answer.readiness))
        { editor := { d.editor with
            scripts := d.editor.scripts.insert file (o.saved answer.provisional) },
          workspace := w' }

theorem save_ends (file : String) (d : Desk σ τ) :
    SaveEnds c file d ((Editor.save c file).outcome d).1 ((Editor.save c file).outcome d).2 := by
  cases ho : d.editor.scripts[file]? with
  | none =>
    rw [save_unopened ho]
    exact .unopened ho
  | some o =>
    cases hm : o.buffer.modified with
    | false =>
      simp only [Editor.save, outcome_bind, opened_some ho, hm, Bool.not_false, if_true,
        outcome_pure]
      exact .unmodified ho hm
    | true =>
      simp only [Editor.save, outcome_bind, opened_some ho, hm, Bool.not_true, Bool.false_eq_true,
        if_false, note, perform, outcome_zoom, outcome_note]
      rcases hs : (Workspace.save c file o.authority o.buffer.text o.buffer.markerLines).outcome
        { d.workspace with log := d.workspace.log ++ [.saving file] } with ⟨f | answer, w⟩
      · exact .failed ho hm hs
      · simp only [put, outcome_modify]
        cases hr : answer.readiness with
        | deferred =>
          simp only [reduceCtorEq, if_false, outcome_pure]
          exact hr ▸ .saved ho hm hs (.inr ⟨hr, rfl⟩)
        | ready =>
          obtain ⟨s, ht, hready⟩ := save_ready hs hr
          obtain ⟨w', hforced⟩ := forceReload_ok (c := c) ht hready
          simp only [if_true, outcome_bind, outcome_zoom, hforced, outcome_pure]
          exact hr ▸ .saved ho hm hs (.inl ⟨hr, hforced⟩)

end Editor

theorem EditorRequest.unopened [Archive σ] [BreakpointStore τ] {c : Compiler} {r : EditorRequest}
    {file : String} {d : Desk σ τ} (hd : d.editor.scripts[file]? = none)
    (hfile : r.file? = some file) (hopen : r ≠ .openScript file) :
    ((r.perform c).outcome d).2 = d := by
  cases r with
  | openScript f =>
    cases hfile
    exact absurd rfl hopen
  | runPending => cases hfile
  | hasChanges f => rfl
  | isWaiting f => rfl
  | _ =>
    cases hfile
    simp only [EditorRequest.perform, Editor.closeScript, Editor.toggle, Editor.insertLines,
      Editor.deleteLines, Editor.save, Editor.takeLost, Editor.text, Editor.breakpointLines,
      Editor.editable, outcome_bind, Editor.opened_none hd, outcome_get, hd, outcome_pure]

end ScriptBreakpoints
