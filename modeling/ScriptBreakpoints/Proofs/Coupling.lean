import ScriptBreakpoints.Compiler.Listing
import ScriptBreakpoints.Proofs.Responses

namespace ScriptBreakpoints

namespace Script

/-- A saved view is pending only as long as something is left that will make it active. -/
structure Coupled (s : Script) : Prop where
  paired : s.slots.primary.pending.isSome = s.slots.derived.pending.isSome
  ready : s.reloadReady = true → s.hasPending = true
  waiting : s.hasPending = true → s.reloadReady = true ∨ s.flags.upToDate = false
  outdated : s.flags.upToDate = false → s.flags.notBreakable = false →
    s.flags.inEngine = true ∧ s.hasPending = true ∧ s.reloadReady = false

namespace Coupled

variable {s : Script}

theorem ofBinary (file : String) (binary : Binary) (views : Dual View) :
    (Script.ofBinary file binary views).Coupled where
  paired := rfl
  ready := nofun
  waiting := nofun
  outdated := nofun

theorem of_notBreakable {t : Script} (hs : s.Coupled) (hslots : t.slots = s.slots)
    (hready : t.reloadReady = s.reloadReady) (hu : t.flags.upToDate = false)
    (hb : t.flags.notBreakable = true) : t.Coupled where
  paired := by rw [hslots, hs.paired]
  ready h := by
    rw [hready] at h
    rw [hasPending, hslots]
    exact hs.ready h
  waiting _ := .inr hu
  outdated _ h := by
    rw [hb] at h
    cases h

/-- A reload leaves no view behind, and so it must not leave the script outdated. -/
theorem promote (h : s.flags.upToDate = true ∨ s.flags.notBreakable = true) :
    s.promote.Coupled where
  paired := rfl
  ready := nofun
  waiting h := by
    rw [hasPending_promote] at h
    cases h
  outdated hu hb := by
    obtain h | h := h
    · rw [show s.promote.flags.upToDate = true from h] at hu
      cases hu
    · rw [show s.promote.flags.notBreakable = true from h] at hb
      cases hb

theorem openInEngine (hs : s.Coupled) : s.openInEngine.1.Coupled := by
  by_cases hu : s.flags.upToDate = true
  · rw [Script.openInEngine, if_pos hu]
    refine ⟨hs.paired, hs.ready, hs.waiting, fun h ↦ ?_⟩
    rw [hu] at h
    cases h
  · rw [Script.openInEngine, if_neg hu]
    exact promote (.inl rfl)

theorem closeInEngine (hs : s.Coupled) : s.closeInEngine.1.Coupled := by
  by_cases hu : s.flags.upToDate = true
  · rw [Script.closeInEngine, if_pos hu]
    refine ⟨hs.paired, hs.ready, hs.waiting, fun h ↦ ?_⟩
    rw [hu] at h
    cases h
  · rw [Script.closeInEngine, if_neg hu]
    exact promote (.inl rfl)

theorem closeInEditor (hs : s.Coupled) (confirm : Bool) : (s.closeInEditor confirm).2.Coupled := by
  by_cases hu : s.flags.upToDate = true
  · rw [Script.closeInEditor, if_pos hu]
    exact ⟨hs.paired, hs.ready, hs.waiting, hs.outdated⟩
  · rw [Script.closeInEditor, if_neg hu]
    cases confirm with
    | false => exact hs
    | true => exact hs.of_notBreakable rfl rfl (eq_false_of_ne_true hu) rfl

theorem save (binary : Binary) (views : Dual View) : (s.save binary views).2.Coupled where
  paired := by
    rw [save_slots]
    rfl
  ready _ := s.hasPending_save binary views
  waiting _ := by
    rw [save_reloadReady, save_flags]
    cases s.flags.inEngine with
    | false => exact .inl rfl
    | true => exact .inr rfl
  outdated h _ := by
    rw [save_flags] at h ⊢
    simp only [Bool.not_eq_false'] at h
    rw [hasPending_save, save_reloadReady, h]
    exact ⟨rfl, rfl, rfl⟩

theorem forcedReload (hs : s.Coupled) (hr : s.reloadReady = true) : s.promote.Coupled := by
  refine promote ?_
  -- a script that is outdated is not ready for a reload
  by_contra h
  obtain ⟨hu, hb⟩ := not_or.1 h
  have hold := (hs.outdated (eq_false_of_ne_true hu) (eq_false_of_ne_true hb)).2.2
  rw [hr] at hold
  cases hold

/-- Whatever happens to a script, its flags and its views change together. -/
theorem after (hs : s.Coupled) (h : Happening) : (s.after h).Coupled := by
  cases h with
  | asked => exact hs
  | authority projection => exact ⟨hs.paired, hs.ready, hs.waiting, hs.outdated⟩
  | openedInEditor => exact ⟨hs.paired, hs.ready, hs.waiting, hs.outdated⟩
  | closedInEditor confirm => exact hs.closeInEditor confirm
  | loadedInEngine => exact hs.openInEngine
  | foreignInEngine => exact hs.of_notBreakable rfl rfl rfl rfl
  | unloadedInEngine => exact hs.closeInEngine
  | saved binary views => exact save binary views
  | forcedReload =>
    by_cases hr : s.reloadReady = true
    · rw [Script.after, if_pos hr]
      exact hs.forcedReload hr
    · rw [Script.after, if_neg hr]
      exact hs
  | invalidated => exact hs.of_notBreakable rfl rfl rfl rfl

end Coupled

theorem debugState_outdated {s : Script} (h : s.debugState = .outdated) :
    s.flags.upToDate = false ∧ s.flags.notBreakable = false := by
  unfold debugState at h
  split at h
  · cases h
  · split at h
    · cases h
    · next hb hu => exact ⟨Bool.not_eq_true _ ▸ hu, Bool.not_eq_true _ ▸ hb⟩

end Script

namespace Workspace

variable {σ τ : Type} [Archive σ] (c : Compiler)

theorem forceReload_refused {w : Workspace σ τ} {file : String} {s : Script}
    (ht : w.scripts[file]? = some s) (hr : s.reloadReady = false) :
    ((forceReload c file : Action σ τ Unit).outcome w).1 = .error (.notReady file) := by
  simp only [forceReload, Fallible.outcome_bind, script_tracked ht, hr, Bool.false_eq_true,
    ↓reduceIte, outcome_note, Fallible.outcome_throw]

variable [BreakpointStore τ]

/-- Whatever is asked of a workspace, and whatever its storage refuses, the pending views of the two
projections come and go together, a forced reload is possible only if there are some, and there are
some only as long as a forced reload or the engine will make them active. A script that is outdated
is held by the engine and has pending views, but it can't be reloaded by force. -/
theorem flags_and_views_coupled (rs : List Request) (w : Workspace σ τ) (hw : w.scripts = ∅)
    (file : String) (s : Script) (hs : (run c rs w).scripts[file]? = some s) :
    ((s.slots.get .primary).pending.isSome ↔ (s.slots.get .derived).pending.isSome) ∧
      (s.reloadReady → s.hasPending) ∧
      (s.hasPending → s.reloadReady ∨ ¬s.flags.upToDate) ∧
      (s.debugState = .outdated →
        s.flags.inEngine ∧ s.hasPending ∧ ¬s.reloadReady ∧
          ((forceReload c file).outcome (run c rs w)).1 = .error (.notReady file)) := by
  have hcoupled : s.Coupled := by
    refine run_tracked c Script.Coupled.ofBinary (fun _ h hs ↦ hs.after h) rs w ?_ file s hs
    intro file s h
    rw [hw] at h
    cases h
  refine ⟨iff_of_eq (congrArg (· = true) hcoupled.paired), hcoupled.ready, fun h ↦ ?_, fun h ↦ ?_⟩
  · simpa only [Bool.not_eq_true] using hcoupled.waiting h
  · obtain ⟨hu, hb⟩ := s.debugState_outdated h
    obtain ⟨hin, hpending, hready⟩ := hcoupled.outdated hu hb
    exact ⟨hin, hpending, ne_true_of_eq_false hready, forceReload_refused c hs hready⟩

/-- A save while the engine executes the script makes it outdated. -/
theorem outdated_once_saved_in_engine :
    ∃ s, (run Listing.compiler [.openInEngine "a", .save "a" .primary "routine 7\n    a\n" ∅]
        (holding "a" "routine 5\n    a\n")).scripts["a"]? = some s ∧
      s.debugState = .outdated ∧ s.flags.inEngine ∧ s.hasPending ∧ ¬s.reloadReady := by
  have hstate :
      ((run Listing.compiler [.openInEngine "a", .save "a" .primary "routine 7\n    a\n" ∅]
        (holding "a" "routine 5\n    a\n")).scripts["a"]?.map (·.debugState)) =
      some .outdated := by
    decide +kernel
  obtain ⟨s, hs, hd⟩ := Option.map_eq_some_iff.1 hstate
  have hcoupled := flags_and_views_coupled Listing.compiler _ _ rfl "a" s hs
  obtain ⟨hin, hpending, hready, -⟩ := hcoupled.2.2.2 hd
  exact ⟨s, hs, hd, hin, hpending, hready⟩

end Workspace

end ScriptBreakpoints
