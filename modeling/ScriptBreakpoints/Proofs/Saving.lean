import Mathlib.Tactic.Common
import ScriptBreakpoints.Proofs.Tracking
import ScriptBreakpoints.Workspace.Lifecycle

namespace ScriptBreakpoints.Workspace

variable {σ τ : Type} (c : Compiler)

theorem forM_note (ns : List Notice) (w : Workspace σ τ) :
    (ns.forM note : Action σ τ PUnit).outcome w = (.ok (), { w with log := w.log ++ ns }) := by
  induction ns generalizing w with
  | nil => simp only [Fallible.outcome_forM_nil, List.append_nil]
  | cons n ns ih =>
    simp only [Fallible.outcome_forM_cons, Fallible.outcome_bind, outcome_note, ih,
      List.append_assoc, List.singleton_append]

theorem build_cases (file : String) (projection : Projection) (text : String)
    (w : Workspace σ τ) :
    (∃ compiled other, (build c file projection text).outcome w = (.ok (compiled, other), w) ∧
        c.compile projection text = .ok compiled ∧
        c.decompile projection.other compiled.binary = .ok other) ∨
      ∃ f log, (build c file projection text).outcome w = (.error f, { w with log }) ∧
        w.log <+: log := by
  unfold build
  cases hc : c.compile projection text with
  | error e => exact .inr ⟨_, _, rfl, List.prefix_append _ _⟩
  | ok compiled =>
    simp only
    cases hd : c.decompile projection.other compiled.binary with
    | error e => exact .inr ⟨.compile e, w.log, rfl, List.prefix_refl _⟩
    | ok other => exact .inl ⟨compiled, other, rfl, rfl, hd⟩

variable [Archive σ] [BreakpointStore τ]

/-- A binary is archived, or else the store is asked for the breakpoints it had before, and it is
logged if and only if it refuses. -/
theorem archiveBinary_cases (file : String) (binary : Binary) (previous : List Address)
    (w : Workspace σ τ) :
    (∃ a log, (archiveBinary file binary previous).outcome w =
          (.ok (), { w with archive := a, log }) ∧
        Archive.write file binary.bytes w.archive = (.ok (), a) ∧ w.log <+: log) ∨
      ∃ e a, Archive.write file binary.bytes w.archive = (.error e, a) ∧
        (archiveBinary file binary previous).outcome w = (.error (.storage e), { w with
          archive := a
          store := (BreakpointStore.resync file previous w.store).2
          log := w.log ++ (Archive.announce file binary.bytes w.archive ++
            .writeFailed file e :: match (BreakpointStore.resync file previous w.store).1 with
              | .ok () => []
              | .error e' => [.restoreFailed file e']) }) := by
  simp only [archiveBinary, Fallible.outcome_bind, Fallible.outcome_get, forM_note,
    outcome_askArchive]
  rcases hw : Archive.write file binary.bytes w.archive with ⟨e | _, a⟩
  · refine .inr ⟨e, a, rfl, ?_⟩
    simp only [Fallible.outcome_bind, outcome_note, outcome_askStore]
    cases (BreakpointStore.resync file previous w.store).1 with
    | ok _ => simp only [Fallible.outcome_throw, List.append_assoc]
    | error e' =>
      simp only [Fallible.outcome_bind, outcome_note, Fallible.outcome_throw, List.append_assoc]
      rfl
  · exact .inl ⟨a, _, rfl, rfl, List.prefix_append _ _⟩

/-- The ways in which a save ends, by the last thing that was asked for. In all of them but the
first the script `s` was found, which led to the workspace `w₁`. -/
inductive SaveEnds (file : String) (projection : Projection) (text : String) (marked : LineSet)
    (w : Workspace σ τ) : Except Fault Saved → Workspace σ τ → Prop
  | unfound {f : Fault} {w' : Workspace σ τ} :
      (script c file).outcome w = (.error f, w') →
      SaveEnds file projection text marked w (.error f) w'
  | rejected {s : Script} {w₁ : Workspace σ τ} {f : Fault} {log : List Notice} :
      (script c file).outcome w = (.ok s, w₁) → w₁.log <+: log →
      SaveEnds file projection text marked w (.error f) { w₁ with log }
  | unlisted {s : Script} {w₁ : Workspace σ τ} {e : StorageFault} {t : τ} :
      (script c file).outcome w = (.ok s, w₁) →
      BreakpointStore.list file w₁.store = (.error e, t) →
      SaveEnds file projection text marked w (.error (.storage e)) { w₁ with store := t }
  | unsynced {s : Script} {w₁ : Workspace σ τ} {previous breakpoints : List Address}
      {e : StorageFault} {t₁ t : τ} :
      (script c file).outcome w = (.ok s, w₁) →
      BreakpointStore.list file w₁.store = (.ok previous, t₁) →
      BreakpointStore.resync file breakpoints t₁ = (.error e, t) →
      SaveEnds file projection text marked w (.error (.storage e)) { w₁ with store := t }
  | unwritten {s : Script} {w₁ : Workspace σ τ} {compiled : Compiled} {previous : List Address}
      {e : StorageFault} {a : σ} {t₁ t : τ} {log : List Notice} :
      (script c file).outcome w = (.ok s, w₁) →
      c.compile projection text = .ok compiled →
      BreakpointStore.list file w₁.store = (.ok previous, t₁) →
      BreakpointStore.resync file (compiled.map.breakpointsOn marked) t₁ = (.ok (), t) →
      Archive.write file compiled.binary.bytes w₁.archive = (.error e, a) →
      w₁.log <+: log →
      (∀ e', (BreakpointStore.resync file previous t).1 = .error e' →
        .restoreFailed file e' ∈ log.drop w₁.log.length) →
      SaveEnds file projection text marked w (.error (.storage e)) { w₁ with
        archive := a, store := (BreakpointStore.resync file previous t).2, log }
  | done {s : Script} {w₁ : Workspace σ τ} {compiled : Compiled} {other : View}
      {previous : List Address} {a : σ} {t₁ t : τ} {log : List Notice} :
      (script c file).outcome w = (.ok s, w₁) →
      projection = s.authority →
      c.compile projection text = .ok compiled →
      c.decompile projection.other compiled.binary = .ok other →
      BreakpointStore.list file w₁.store = (.ok previous, t₁) →
      BreakpointStore.resync file (compiled.map.breakpointsOn marked) t₁ = (.ok (), t) →
      Archive.write file compiled.binary.bytes w₁.archive = (.ok (), a) →
      w₁.log <+: log →
      SaveEnds file projection text marked w
        (.ok ⟨(s.save compiled.binary (savedViews projection text compiled.map other)).1,
          compiled.map, compiled.map.breakpointsOn marked⟩)
        { w₁ with
          archive := a, store := t, log
          scripts := w₁.scripts.insert file
            (s.save compiled.binary (savedViews projection text compiled.map other)).2 }

theorem save_ends (file : String) (projection : Projection) (text : String) (marked : LineSet)
    (w : Workspace σ τ) :
    SaveEnds c file projection text marked w ((save c file projection text marked).outcome w).1
      ((save c file projection text marked).outcome w).2 := by
  rcases hs : (script c file).outcome w with ⟨f | s, w₁⟩
  · simp only [save, Fallible.outcome_bind, hs]
    exact .unfound hs
  by_cases ha : projection ≠ s.authority
  · simp only [save, Fallible.outcome_bind, hs, if_pos ha, Fallible.outcome_throw]
    exact .rejected hs (List.prefix_refl _)
  simp only [save, Fallible.outcome_bind, hs, if_neg ha, Fallible.outcome_pure]
  obtain ⟨compiled, other, hb, hc, hd⟩ | ⟨f, log, hb, hlog⟩ := build_cases c file projection text w₁
  swap
  · simp only [hb]
    exact .rejected hs hlog
  simp only [hb, outcome_askStore]
  rcases hl : BreakpointStore.list file w₁.store with ⟨e | previous, t₁⟩
  · simp only [outcome_demand_error]
    exact .unlisted hs hl
  simp only [outcome_demand_ok]
  rcases hr : BreakpointStore.resync file (compiled.map.breakpointsOn marked) t₁ with ⟨e | _, t⟩
  · simp only [outcome_demand_error]
    exact .unsynced hs hl hr
  simp only [outcome_demand_ok]
  obtain ⟨a, log, ho, hw, hlog⟩ | ⟨e, a, hw, ho⟩ :=
    archiveBinary_cases file compiled.binary previous { w₁ with store := t }
  · simp only [ho, outcome_putScript, outcome_note]
    exact .done hs (not_not.1 ha) hc hd hl hr hw (hlog.trans (List.prefix_append _ _))
  · simp only [ho]
    refine .unwritten hs hc hl hr hw (List.prefix_append _ _) fun e' he ↦ ?_
    simp only [he, List.drop_left, List.mem_append, List.mem_cons, true_or, or_true]

end ScriptBreakpoints.Workspace
