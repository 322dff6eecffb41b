import ScriptBreakpoints.Proofs.Happenings
import ScriptBreakpoints.Proofs.Saving

namespace ScriptBreakpoints.Workspace

variable {σ τ : Type} [Archive σ] [LawfulArchive σ] [BreakpointStore τ] [LawfulStore τ]
variable (c : Compiler)

/-- Nothing is different, but that a script may be tracked now, as it is loaded, and that something
may have happened to the breakpoints of `file`. -/
structure Untouched (file : String) (w w' : Workspace σ τ) : Prop where
  scripts : w'.scripts = w.scripts ∨
    w.scripts[file]? = none ∧ ∃ s, Loads c w.archive file s ∧ w'.scripts = w.scripts.insert file s
  archived : LawfulArchive.content w'.archive = LawfulArchive.content w.archive
  armed : ∀ other ≠ file, LawfulStore.armed w'.store other = LawfulStore.armed w.store other
  listeners : w'.listeners = w.listeners
  mail : w'.mail = w.mail

structure Renewed (file : String) (projection : Projection) (text : String) (marked : LineSet)
    (w w' : Workspace σ τ) (saved : Saved) (s s' : Script) (compiled : Compiled) : Prop where
  found : Finds c w file s
  editable : projection = s.authority
  compiles : c.compile projection text = .ok compiled
  archived : LawfulArchive.content w'.archive file = some compiled.binary.bytes
  tracked : w'.scripts = w.scripts.insert file s'
  binary : s'.binary = compiled.binary
  active : s'.active = s.active
  pending : (s'.slots.get projection).pending = some ⟨text, compiled.map⟩
  generated : ∃ other, c.decompile projection.other compiled.binary = .ok other ∧
    (s'.slots.get projection.other).pending = some other
  flags : s'.flags = { s.flags with upToDate := !s.flags.inEngine }
  authority : s'.authority = s.authority
  reloadReady : s'.reloadReady = !s.flags.inEngine
  readiness : saved.readiness = if s.flags.inEngine then .deferred else .ready
  provisional : saved.provisional = compiled.map
  armed_file : ∀ a, a ∈ LawfulStore.armed w'.store file ↔
    ∃ line ∈ marked, compiled.map.first? line = some a
  listed : ∀ as, (BreakpointStore.list file w'.store).1 = .ok as →
    as.Pairwise (compare · · = .lt) ∧
      ∀ a, a ∈ as ↔ ∃ line ∈ marked, compiled.map.first? line = some a
  armed : ∀ other ≠ file, LawfulStore.armed w'.store other = LawfulStore.armed w.store other
  listeners : w'.listeners = w.listeners
  mail : w'.mail = w.mail

/-- The store took the breakpoints of a save, and when the archive refused the binary it refused to
take back those that it had listed. -/
inductive RestoreRefused (file : String) (projection : Projection) (text : String)
    (marked : LineSet) (w w' : Workspace σ τ) : Prop
  | refused {s : Script} {w₁ : Workspace σ τ} {compiled : Compiled} {previous : List Address}
      {t₁ t : τ} {unwritten unrestored : StorageFault} :
      (script c file).outcome w = (.ok s, w₁) →
      c.compile projection text = .ok compiled →
      BreakpointStore.list file w₁.store = (.ok previous, t₁) →
      BreakpointStore.resync file (compiled.map.breakpointsOn marked) t₁ = (.ok (), t) →
      (Archive.write file compiled.binary.bytes w₁.archive).1 = .error unwritten →
      BreakpointStore.resync file previous t = (.error unrestored, w'.store) →
      .restoreFailed file unrestored ∈ w'.log.drop w.log.length →
      RestoreRefused file projection text marked w w'

variable {c} {file : String} {w w₁ : Workspace σ τ}

theorem Untouched.of_script_error {f : Fault}
    (h : (script c file).outcome w = (.error f, w₁)) : Untouched c file w w₁ := by
  obtain ⟨-, hp, hs⟩ := script_error h
  exact ⟨.inl hs, hp.archive.content_eq, fun _ _ ↦ by rw [hp.store], hp.listeners, hp.mail⟩

theorem Untouched.of_script_ok {s : Script} (h : (script c file).outcome w = (.ok s, w₁)) :
    Untouched c file w w₁ := by
  obtain ⟨hf, hp, hs⟩ := script_ok h
  refine ⟨?_, hp.archive.content_eq, fun _ _ ↦ by rw [hp.store], hp.listeners, hp.mail⟩
  cases hf with
  | tracked ht => exact .inl (hs.trans (insert_of_getElem? ht))
  | loaded hn hl => exact .inr ⟨hn, s, hl, hs⟩

theorem Untouched.of_storage {s : Script} {a : σ} {t : τ} {log : List Notice}
    (h : (script c file).outcome w = (.ok s, w₁))
    (ha : LawfulArchive.content a = LawfulArchive.content w₁.archive)
    (ht : ∀ other ≠ file, LawfulStore.armed t other = LawfulStore.armed w₁.store other) :
    Untouched c file w { w₁ with archive := a, store := t, log } := by
  have hu := Untouched.of_script_ok h
  exact ⟨hu.scripts, ha.trans hu.archived, fun other ho ↦ (ht other ho).trans (hu.armed other ho),
    hu.listeners, hu.mail⟩

theorem armed_listed {t t₁ : τ} {result : Except StorageFault (List Address)}
    (h : BreakpointStore.list file t = (result, t₁)) :
    LawfulStore.armed t₁ = LawfulStore.armed t := by
  have hl := LawfulStore.armed_list file t
  rwa [h] at hl

theorem armed_resynced {as : List Address} {t t₁ : τ}
    (h : BreakpointStore.resync file as t = (.ok (), t₁)) :
    LawfulStore.armed t₁ = Function.update (LawfulStore.armed t) file (.ofList as) := by
  have hr := LawfulStore.armed_resync (congrArg Prod.fst h)
  rwa [h] at hr

theorem armed_unsynced {as : List Address} {t t₁ : τ} {e : StorageFault}
    (h : BreakpointStore.resync file as t = (.error e, t₁)) :
    LawfulStore.armed t₁ = LawfulStore.armed t := by
  have hr := LawfulStore.resync_refused (congrArg Prod.fst h)
  rwa [h] at hr

theorem armed_resync_of_ne {other : String} (ho : other ≠ file) (as : List Address) (t : τ) :
    LawfulStore.armed (BreakpointStore.resync file as t).2 other = LawfulStore.armed t other := by
  rcases hr : BreakpointStore.resync file as t with ⟨e | _, t₁⟩
  · rw [armed_unsynced hr]
  · rw [armed_resynced hr, Function.update_of_ne ho]

/-- The store was given back what it had listed. -/
theorem armed_restored {breakpoints previous : List Address} {t t₁ t₂ : τ}
    (hl : BreakpointStore.list file t = (.ok previous, t₁))
    (hr : BreakpointStore.resync file breakpoints t₁ = (.ok (), t₂))
    (hp : (BreakpointStore.resync file previous t₂).1 = .ok ()) :
    LawfulStore.armed (BreakpointStore.resync file previous t₂).2 = LawfulStore.armed t := by
  have hprevious : previous = (LawfulStore.armed t file).toList :=
    LawfulStore.list_eq (congrArg Prod.fst hl)
  rw [LawfulStore.armed_resync hp, armed_resynced hr, armed_listed hl, Function.update_idem,
    hprevious, ofList_toList, Function.update_eq_self]

theorem mem_breakpointsOn {m : SourceMap} {lines : LineSet} {a : Address} :
    a ∈ m.breakpointsOn lines ↔ ∃ line ∈ lines, m.first? line = some a := by
  simp only [SourceMap.breakpointsOn, List.mem_filterMap, Std.ExtTreeSet.mem_toList]

namespace SaveEnds

variable {projection : Projection} {text : String} {marked : LineSet} {w' : Workspace σ τ}

theorem untouched {f : Fault} (h : SaveEnds c file projection text marked w (.error f) w') :
    Untouched c file w w' := by
  cases h with
  | unfound hs => exact .of_script_error hs
  | rejected hs => exact .of_storage hs rfl fun _ _ ↦ rfl
  | unlisted hs hl =>
    refine .of_storage hs rfl fun other _ ↦ ?_
    rw [armed_listed hl]
  | unsynced hs hl hr =>
    refine .of_storage hs rfl fun other _ ↦ ?_
    rw [armed_unsynced hr, armed_listed hl]
  | @unwritten s w₁ compiled previous e a t₁ t log hs hc hl hr hw =>
    have ha : LawfulArchive.content a = LawfulArchive.content w₁.archive := by
      have h := LawfulArchive.content_refused (congrArg Prod.fst hw)
      rwa [hw] at h
    refine .of_storage hs ha fun other hne ↦ ?_
    rw [armed_resync_of_ne hne, armed_resynced hr, Function.update_of_ne hne, armed_listed hl]

omit [LawfulArchive σ] in
theorem armed_or_refused {f : Fault} (h : SaveEnds c file projection text marked w (.error f) w') :
    LawfulStore.armed w'.store = LawfulStore.armed w.store ∨
      RestoreRefused c file projection text marked w w' := by
  cases h with
  | unfound hs => exact .inl (by rw [(script_error hs).2.1.store])
  | rejected hs => exact .inl (congrArg _ (script_ok hs).2.1.store)
  | unlisted hs hl => exact .inl ((armed_listed hl).trans (congrArg _ (script_ok hs).2.1.store))
  | unsynced hs hl hr =>
    left
    rw [armed_unsynced hr, armed_listed hl, (script_ok hs).2.1.store]
  | @unwritten s w₁ compiled previous e a t₁ t log hs hc hl hr hw hlog hlogged =>
    have hp := (script_ok hs).2.1
    cases hrestore : (BreakpointStore.resync file previous t).1 with
    | ok _ => exact .inl ((armed_restored hl hr hrestore).trans (congrArg _ hp.store))
    | error e' =>
      refine .inr (.refused hs hc hl hr (congrArg Prod.fst hw) (Prod.ext hrestore rfl) ?_)
      -- what is new in the log since the script was found is new since the save began
      have hmem := hlogged e' hrestore
      obtain ⟨old, hold⟩ := hp.log
      obtain ⟨new, rfl⟩ := hlog
      rw [List.drop_left] at hmem
      simp only [← hold, List.append_assoc, List.drop_left]
      exact List.mem_append_right _ hmem

theorem renewed {saved : Saved}
    (h : SaveEnds c file projection text marked w (.ok saved) w') :
    ∃ s s' compiled, Renewed c file projection text marked w w' saved s s' compiled := by
  cases h with
  | @done s w₁ compiled other previous a t₁ t log hs ha hc hd hl hr hw hlog =>
    obtain ⟨hf, hp, hscripts⟩ := script_ok hs
    have ht : LawfulStore.armed t = Function.update (LawfulStore.armed w.store) file
        (.ofList (compiled.map.breakpointsOn marked)) := by
      rw [armed_resynced hr, armed_listed hl, hp.store]
    have hset (a : Address) : a ∈ LawfulStore.armed t file ↔
        ∃ line ∈ marked, compiled.map.first? line = some a := by
      rw [ht, Function.update_self, mem_ofList, mem_breakpointsOn]
    refine ⟨s, (s.save compiled.binary (savedViews projection text compiled.map other)).2,
      compiled, ?_⟩
    exact {
      found := hf
      editable := ha
      compiles := hc
      archived := by
        have h := LawfulArchive.content_write (congrArg Prod.fst hw)
        rwa [hw] at h
      tracked := by rw [hscripts, insert_insert]
      binary := s.save_binary _ _
      active := s.active_save _ _
      pending := by
        simp only [Script.save_slots, Dual.get_map, savedViews, Dual.get_ofFn, ↓reduceIte]
      generated := by
        refine ⟨other, hd, ?_⟩
        simp only [Script.save_slots, Dual.get_map, savedViews, Dual.get_ofFn,
          if_neg projection.other_ne]
      flags := s.save_flags _ _
      authority := s.save_authority _ _
      reloadReady := s.save_reloadReady _ _
      readiness := s.save_readiness _ _
      provisional := rfl
      armed_file := hset
      listed := fun as hl ↦ by
        obtain rfl := LawfulStore.list_eq hl
        refine ⟨Std.ExtTreeSet.ordered_toList, fun b ↦ ?_⟩
        rw [Std.ExtTreeSet.mem_toList]
        exact hset b
      armed := fun other hne ↦ by rw [ht, Function.update_of_ne hne]
      listeners := hp.listeners
      mail := hp.mail }

end SaveEnds

/-- A save that fails changes nothing, unless the store refuses to take its old breakpoints back. A
save that succeeds does all of its work. -/
theorem save_all_or_nothing (c : Compiler) (file : String) (projection : Projection)
    (text : String) (marked : LineSet) (w : Workspace σ τ) :
    match (save c file projection text marked).outcome w with
    | (.error _, w') => Untouched c file w w' ∧
        (LawfulStore.armed w'.store = LawfulStore.armed w.store ∨
          RestoreRefused c file projection text marked w w')
    | (.ok saved, w') => ∃ s s' compiled,
        Renewed c file projection text marked w w' saved s s' compiled := by
  have hends := save_ends c file projection text marked w
  rcases ho : (save c file projection text marked).outcome w with ⟨f | saved, w'⟩
  · rw [ho] at hends
    exact ⟨hends.untouched, hends.armed_or_refused⟩
  · rw [ho] at hends
    exact hends.renewed

end ScriptBreakpoints.Workspace
