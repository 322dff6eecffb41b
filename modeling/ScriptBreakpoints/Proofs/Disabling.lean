import ScriptBreakpoints.Compiler.Listing
import ScriptBreakpoints.Proofs.Responses

namespace ScriptBreakpoints

namespace Script

variable {s : Script}

structure Jammed (s : Script) : Prop where
  upToDate : s.flags.upToDate = true
  notBreakable : s.flags.notBreakable = true

theorem Jammed.before {h : Happening} (hj : (s.after h).Jammed) :
    s.Jammed ∨ h.isSave = true ∧ s.flags.inEngine = false ∧ s.flags.notBreakable = true := by
  obtain ⟨hu, hn⟩ := hj
  cases h with
  | asked => exact .inl ⟨hu, hn⟩
  | authority projection => exact .inl ⟨hu, hn⟩
  | openedInEditor => exact .inl ⟨hu, hn⟩
  | closedInEditor confirm =>
    simp only [after, closeInEditor] at hu hn
    split at hu
    · next hup =>
      rw [if_pos hup] at hn
      exact .inl ⟨hup, hn⟩
    · next hup =>
      split at hu
      · exact absurd hu hup
      · exact absurd hu hup
  | loadedInEngine =>
    simp only [after, openInEngine] at hn
    split at hn
    · next hup => exact .inl ⟨hup, hn⟩
    · cases hn
  | foreignInEngine => cases hu
  | unloadedInEngine =>
    simp only [after, closeInEngine] at hn
    split at hn <;> cases hn
  | saved binary views =>
    -- here alone one flag is set and the other one left as it is
    simp only [after, save_flags, Bool.not_eq_true'] at hu hn
    exact .inr ⟨rfl, hu, hn⟩
  | forcedReload =>
    simp only [after] at hu hn
    split at hu
    · next hr =>
      rw [if_pos hr] at hn
      exact .inl ⟨hu, hn⟩
    · next hr =>
      rw [if_neg hr] at hn
      exact .inl ⟨hu, hn⟩
  | invalidated => cases hu

theorem jammed_save (binary : Binary) (views : Dual View) (hin : s.flags.inEngine = false)
    (hn : s.flags.notBreakable = true) : (s.save binary views).2.Jammed := by
  refine ⟨?_, ?_⟩ <;> rw [save_flags]
  · rw [hin]
    rfl
  · exact hn

end Script

namespace Workspace

variable {σ τ : Type} [Archive σ] [BreakpointStore τ] (c : Compiler) {w : Workspace σ τ}
  {s : Script} {file : String}

omit [Archive σ] in
theorem arm_notBreakable {a : Address} {f : String}
    (h : ((arm s file a : Action σ τ Unit).outcome w).1 = .error (.notBreakable f)) :
    s.flags.notBreakable = true := by
  by_contra hn
  simp only [arm, if_neg hn, Fallible.outcome_bind, outcome_askStore] at h
  rcases ho : BreakpointStore.add file a w.store with ⟨e | _, t⟩ <;> rw [ho] at h
  · cases h
  · obtain ⟨log, hb⟩ := broadcast_delivers file (.added file a) { w with store := t }
    simp only [outcome_demand_ok, hb] at h
    cases h

omit [BreakpointStore τ] in
theorem disabled_of_refused {α : Type} {k : Script → Action σ τ α} {f : String}
    (hk : ∀ s w, ((k s).outcome w).1 = .error (.notBreakable f) → s.flags.notBreakable = true)
    (h : ((script c file >>= k).outcome w).1 = .error (.notBreakable f)) :
    ∃ s, w.scripts[file]? = some s ∧ s.flags.notBreakable = true := by
  rw [Fallible.outcome_bind] at h
  obtain ⟨s, w₁, ho, hf, -⟩ | ⟨e, w₁, ho, -⟩ := script_cases c file w <;> rw [ho] at h
  · have hn := hk s w₁ h
    cases hf with
    | tracked ht => exact ⟨s, ht, hn⟩
    | loaded _ hl =>
      obtain ⟨bytes, views, -, -, rfl⟩ := hl
      cases hn
  · cases h

theorem addBreakpointAt_refused {a : Address} {f : String}
    (h : ((addBreakpointAt c file a).outcome w).1 = .error (.notBreakable f)) :
    ∃ s, w.scripts[file]? = some s ∧ s.flags.notBreakable = true :=
  disabled_of_refused c (fun _ _ ↦ arm_notBreakable) h

theorem addBreakpoint_refused {line : Nat} {projection : Projection} {f : String}
    (h : ((addBreakpoint c file line projection).outcome w).1 = .error (.notBreakable f)) :
    ∃ s, w.scripts[file]? = some s ∧ s.flags.notBreakable = true := by
  refine disabled_of_refused c (fun s w h ↦ ?_) h
  cases hx : (s.active.get projection).map.first? line with
  | none =>
    rw [hx] at h
    cases h
  | some a =>
    simp only [hx, ← map_eq_pure_bind, Fallible.outcome_map] at h
    cases ha : ((arm s file a : Action σ τ Unit).outcome w).1 with
    | ok _ =>
      rw [ha] at h
      cases h
    | error e =>
      rw [ha] at h
      cases h
      exact arm_notBreakable ha

/-- A request that would arm an instruction is refused while the script is disabled. -/
theorem refused_of_notBreakable {r : Request} {a : Address} (hs : w.scripts[r.file]? = some s)
    (hn : s.flags.notBreakable = true) (hr : r.posts c s = some (.added r.file a)) :
    ((r.perform c).outcome w).1 = .error (.notBreakable s.file) := by
  cases r with
  | addBreakpoint file line projection =>
    have hs : w.scripts[file]? = some s := hs
    obtain ⟨x, hx, -⟩ := Option.map_eq_some_iff.1 hr
    simp only [Request.perform, addBreakpoint, arm, Fallible.outcome_bind, script_tracked hs, hx,
      if_pos hn, Fallible.outcome_throw]
  | addBreakpointAt file x =>
    have hs : w.scripts[file]? = some s := hs
    simp only [Request.perform, addBreakpointAt, arm, Fallible.outcome_bind, script_tracked hs,
      if_pos hn, Fallible.outcome_throw]
  | removeBreakpoint file x => cases hr
  | _ =>
    simp only [Request.posts, Option.ite_none_right_eq_some] at hr
    obtain ⟨-, hr⟩ := hr
    cases hr

/-- Only a script that is outdated is disabled, and if the script is up to date then no breakpoint
is refused because it is disabled. -/
structure Enabled (file : String) (w : Workspace σ τ) : Prop where
  flags {s : Script} : w.scripts[file]? = some s → s.flags.notBreakable = true →
    s.flags.upToDate = false
  adds : (∀ s, w.scripts[file]? = some s → s.flags.upToDate = true) → ∀ line projection a,
    ((addBreakpoint c file line projection).outcome w).1 ≠ .error (.notBreakable file) ∧
      ((addBreakpointAt c file a).outcome w).1 ≠ .error (.notBreakable file)

theorem enabled_iff : Enabled c file w ↔ ∀ s, w.scripts[file]? = some s → ¬s.Jammed := by
  constructor
  · intro h s hs hj
    have hu := h.flags hs hj.notBreakable
    rw [hj.upToDate] at hu
    cases hu
  · intro h
    have hflags {s : Script} (hs : w.scripts[file]? = some s) (hn : s.flags.notBreakable = true) :
        s.flags.upToDate = false := Bool.eq_false_iff.2 fun hu ↦ h s hs ⟨hu, hn⟩
    refine ⟨hflags, fun hup line projection a ↦ ⟨fun hadd ↦ ?_, fun hadd ↦ ?_⟩⟩
    · obtain ⟨s, hs, hn⟩ := addBreakpoint_refused c hadd
      exact h s hs ⟨hup s hs, hn⟩
    · obtain ⟨s, hs, hn⟩ := addBreakpointAt_refused c hadd
      exact h s hs ⟨hup s hs, hn⟩

/-- The request saves a script that is disabled and that the engine does not hold. -/
structure SavesDisabled (file : String) (w : Workspace σ τ) (r : Request) : Prop where
  about : r.file = file
  isSave : r.isSave = true
  granted : ∃ a, ((r.perform c).outcome w).1 = .ok a
  disabled : ∃ s, w.scripts[file]? = some s ∧ s.flags.inEngine = false ∧
    s.flags.notBreakable = true

theorem jammed_of_savesDisabled {r : Request} (hr : SavesDisabled c file w r) :
    ∃ t, ((r.perform c).outcome w).2.scripts[file]? = some t ∧ t.Jammed := by
  obtain ⟨rfl, hsave, ⟨reply, hok⟩, s, hs, hin, hn⟩ := hr
  cases r with
  | save file projection text marked =>
    have hends := save_ends c file projection text marked w
    simp only [Request.perform, ← map_eq_pure_bind, Fallible.outcome_map] at hok ⊢
    generalize (Workspace.save c file projection text marked).outcome w = o at hends hok ⊢
    rcases o with ⟨result, w'⟩
    cases hends with
    | done hscript =>
      have hs : w.scripts[file]? = some s := hs
      rw [script_tracked hs] at hscript
      cases hscript
      exact ⟨_, Std.ExtTreeMap.getElem?_insert_self, Script.jammed_save _ _ hin hn⟩
    | _ => cases hok
  | _ => cases hsave

theorem jammed_perform {r : Request} {t : Script}
    (ht : ((r.perform c).outcome w).2.scripts[file]? = some t) (hj : t.Jammed) :
    (∃ s, w.scripts[file]? = some s ∧ s.Jammed) ∨ SavesDisabled c file w r := by
  have hfound {s : Script} (hf : Finds c w r.file s) (hs : s.flags.notBreakable = true) :
      w.scripts[r.file]? = some s := by
    cases hf with
    | tracked hs => exact hs
    | loaded _ hl =>
      obtain ⟨bytes, views, -, -, rfl⟩ := hl
      cases hs
  have hturn := r.perform_turn c w
  rcases ho : (r.perform c).outcome w with ⟨result, w'⟩
  rw [ho] at hturn ht
  dsimp only at hturn ht
  cases hturn with
  | unfound _ hscripts =>
    rw [hscripts] at ht
    exact .inl ⟨t, ht, hj⟩
  | refused hf hscripts =>
    rw [hscripts] at ht
    obtain ⟨rfl, rfl⟩ | ⟨-, ht⟩ := cases_of_insert ht
    · exact .inl ⟨_, hfound hf hj.notBreakable, hj⟩
    · exact .inl ⟨t, ht, hj⟩
  | @happened a s _ hf hscripts =>
    rw [hscripts] at ht
    obtain ⟨rfl, rfl⟩ | ⟨-, ht⟩ := cases_of_insert ht
    · obtain hs | ⟨hsave, hin, hn⟩ := hj.before
      · exact .inl ⟨s, hfound hf hs.notBreakable, hs⟩
      · refine .inr ⟨rfl, ?_, ⟨a, by rw [ho]⟩, s, hfound hf hn, hin, hn⟩
        by_contra hr
        rw [r.turn_isSave c (Bool.eq_false_iff.2 hr)] at hsave
        cases hsave
    · exact .inl ⟨t, ht, hj⟩

theorem not_jammed_run {rs : List Request} (hw : ∀ s, w.scripts[file]? = some s → ¬s.Jammed)
    (hrs : ∀ before r since, rs = before ++ r :: since →
      ¬SavesDisabled c file (run c before w) r) :
    ∀ s, (run c rs w).scripts[file]? = some s → ¬s.Jammed := by
  induction rs generalizing w with
  | nil => exact hw
  | cons r rs ih =>
    refine ih (fun t ht hj ↦ ?_) fun before r' since h ↦ hrs (r :: before) r' since (by rw [h]; rfl)
    obtain ⟨s, hs, hj⟩ | hr := jammed_perform c ht hj
    · exact hw s hs hj
    · exact hrs [] r rs rfl hr

/-- Along a whole run, whatever is asked and whatever storage refuses, only outdated scripts are
disabled and no script that is up to date refuses a breakpoint, exactly if no save was granted while
the script was disabled and the engine did not hold it. -/
theorem enabled_iff_no_save_disabled (rs : List Request) (w : Workspace σ τ) (hw : w.scripts = ∅)
    (file : String) :
    (∀ before since, rs = before ++ since → Enabled c file (run c before w)) ↔
      ∀ before r since, rs = before ++ r :: since →
        ¬SavesDisabled c file (run c before w) r := by
  constructor
  · intro h before r since hrs hr
    have henabled := h (before ++ [r]) since (by rw [hrs, List.append_assoc]; rfl)
    rw [run, List.foldl_append] at henabled
    obtain ⟨t, ht, hj⟩ := jammed_of_savesDisabled c hr
    exact (enabled_iff c).1 henabled t ht hj
  · intro h before since hrs
    refine (enabled_iff c).2 (not_jammed_run c (fun s hs ↦ ?_) fun b r since' hb ↦ ?_)
    · rw [hw] at hs
      cases hs
    · exact h b r (since' ++ since) (by rw [hrs, hb, List.append_assoc]; rfl)

/-- What is loaded by the engine after it was invalidated can be debugged again. -/
theorem enabled_once_loaded :
    Enabled Listing.compiler "a" (run Listing.compiler [.invalidate "a", .openInEngine "a"]
      (holding "a" "routine 5\n    a\n")) := by
  have hiff := enabled_iff_no_save_disabled Listing.compiler [.invalidate "a", .openInEngine "a"]
    (holding "a" "routine 5\n    a\n") rfl "a"
  refine hiff.2 (fun before r since hrs hr ↦ ?_) _ [] rfl
  have hmem : r ∈ [Request.invalidate "a", .openInEngine "a"] := by
    rw [hrs]
    exact List.mem_append_right _ List.mem_cons_self
  have hsave := hr.isSave
  obtain rfl | ⟨rfl⟩ := by simpa using hmem
  · cases hsave
  · cases hsave

/-- A script is invalidated and saved while the engine does not hold it. Even after the reload no
breakpoint can be added, although the script is up to date. -/
theorem breakpoint_refused_after_reload :
    ∃ s, (run Listing.compiler [.invalidate "a", .save "a" .primary "routine 7\n    a\n" ∅,
        .forceReload "a"] (holding "a" "routine 5\n    a\n")).scripts["a"]? = some s ∧
      s.flags.upToDate = true ∧ s.flags.notBreakable = true ∧
      ((addBreakpoint Listing.compiler "a" 1 .primary).outcome (run Listing.compiler
        [.invalidate "a", .save "a" .primary "routine 7\n    a\n" ∅, .forceReload "a"]
        (holding "a" "routine 5\n    a\n"))).1 = .error (.notBreakable "a") := by
  have hflags : (run Listing.compiler [.invalidate "a",
      .save "a" .primary "routine 7\n    a\n" ∅, .forceReload "a"]
      (holding "a" "routine 5\n    a\n")).scripts["a"]?.map
        (fun s ↦ s.flags.upToDate && s.flags.notBreakable) = some true := by
    decide +kernel
  obtain ⟨s, hs, hflags⟩ := Option.map_eq_some_iff.1 hflags
  rw [Bool.and_eq_true] at hflags
  exact ⟨s, hs, hflags.1, hflags.2, by decide +kernel⟩

end Workspace

end ScriptBreakpoints
