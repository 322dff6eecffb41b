import ScriptBreakpoints.Proofs.Coupling

namespace ScriptBreakpoints

structure Version where
  binary : Binary
  views : Dual View

/-- The versions of a script, counted from the load on. No request looks at this history; it is kept
beside a run. -/
structure Chronicle where
  older : List Version
  newest : Version
  active : Nat := 0
  /-- The version that was archived when the engine last loaded the archived binary, unless the
  engine let go of it since. -/
  executed : Option Nat := none
  /-- The engine loaded a version that still waited for its reload, and the reload did not come. -/
  overtaken : Bool := false

namespace Chronicle

def last (k : Chronicle) : Nat := k.older.length

def version? (k : Chronicle) (n : Nat) : Option Version := (k.older ++ [k.newest])[n]?

def ofLoad (s : Script) : Chronicle where
  older := []
  newest := ⟨s.binary, s.active⟩

def reloaded (k : Chronicle) : Chronicle := { k with active := k.last, overtaken := false }

def after (k : Chronicle) (s : Script) : Happening → Chronicle
  | .loadedInEngine =>
    let k := { k with executed := some k.last }
    if s.openInEngine.2 then k.reloaded else { k with overtaken := s.reloadReady }
  | .unloadedInEngine =>
    let k := { k with executed := none, overtaken := false }
    if s.closeInEngine.2 then k.reloaded else k
  | .saved binary views =>
    { k with older := k.older ++ [k.newest], newest := ⟨binary, views⟩ }
  | .forcedReload => if s.reloadReady then k.reloaded else k
  | _ => k

section Versions

variable (k : Chronicle)

theorem version?_last : k.version? k.last = some k.newest := List.getElem?_concat_length

theorem version?_isSome {n : Nat} (h : n ≤ k.last) : ∃ v, k.version? n = some v := by
  have hlt : n < (k.older ++ [k.newest]).length := by
    rw [List.length_append, List.length_singleton]
    exact Nat.lt_succ_of_le h
  exact ⟨_, List.getElem?_eq_getElem hlt⟩

theorem version?_of_le {n : Nat} (h : n ≤ k.last) (v : Version) :
    ({ k with older := k.older ++ [k.newest], newest := v } : Chronicle).version? n =
      k.version? n := by
  have hlt : n < (k.older ++ [k.newest]).length := by
    rw [List.length_append, List.length_singleton]
    exact Nat.lt_succ_of_le h
  exact List.getElem?_append_left hlt

end Versions

/-- A history is true of a script. -/
structure Tells (k : Chronicle) (s : Script) : Prop where
  coupled : s.Coupled
  binary : s.binary = k.newest.binary
  latest : ∀ p, s.latest p = k.newest.views.get p
  active : ∃ v, k.version? k.active = some v ∧ s.active = v.views
  settled : s.hasPending = false → k.active = k.last
  unsettled : s.hasPending = true → k.active < k.last
  executed : s.flags.inEngine = true → s.flags.notBreakable = false →
    ∃ n ≤ k.last, k.executed = some n ∧
      ((k.overtaken = false ∧ k.active = n) ∨ (k.overtaken = true ∧ k.active < n))
  awaited : s.flags.inEngine = true → s.flags.notBreakable = false → s.reloadReady = true →
    k.overtaken = true ∧ k.executed = some k.last

namespace Tells

variable {k : Chronicle} {s t : Script}

theorem ofLoad (file : String) (binary : Binary) (views : Dual View) :
    (Chronicle.ofLoad (.ofBinary file binary views)).Tells (.ofBinary file binary views) where
  coupled := .ofBinary file binary views
  binary := rfl
  latest p := by
    rw [Script.latest_ofBinary, Chronicle.ofLoad, Script.active_ofBinary]
  active := ⟨_, rfl, rfl⟩
  settled _ := rfl
  unsettled := nofun
  executed := nofun
  awaited := nofun

theorem of_slots (hk : k.Tells s) (ht : t.Coupled) (hbinary : t.binary = s.binary)
    (hslots : t.slots = s.slots) (hready : t.reloadReady = s.reloadReady)
    (hflags : t.flags.inEngine = true → t.flags.notBreakable = false →
      s.flags.inEngine = true ∧ s.flags.notBreakable = false) : k.Tells t := by
  have hactive : t.active = s.active := by
    rw [Script.active, Script.active, hslots]
  have hpending : t.hasPending = s.hasPending := by
    rw [Script.hasPending, Script.hasPending, hslots]
  refine ⟨ht, hbinary.trans hk.binary, fun p ↦ ?_, hactive ▸ hk.active, hpending ▸ hk.settled,
    hpending ▸ hk.unsettled, fun hin hb ↦ ?_, fun hin hb hr ↦ ?_⟩
  · rw [Script.latest, hslots]
    exact hk.latest p
  · obtain ⟨hin, hb⟩ := hflags hin hb
    exact hk.executed hin hb
  · obtain ⟨hin, hb⟩ := hflags hin hb
    exact hk.awaited hin hb (hready ▸ hr)

theorem of_notBreakable (hk : k.Tells s) (ht : t.Coupled) (hbinary : t.binary = s.binary)
    (hslots : t.slots = s.slots) (hready : t.reloadReady = s.reloadReady)
    (hb : t.flags.notBreakable = true) : k.Tells t := by
  refine hk.of_slots ht hbinary hslots hready fun _ h ↦ ?_
  rw [hb] at h
  cases h

/-- After a reload the active views are those of the newest version, so the engine has to execute
that one if it executes any. -/
theorem reloaded (hk : k.Tells s) (ht : t.Coupled) (hbinary : t.binary = s.binary)
    (hslots : t.slots = s.promote.slots) (hready : t.reloadReady = false) {executed : Option Nat}
    (hexecuted : t.flags.inEngine = true → t.flags.notBreakable = false →
      executed = some k.last) :
    ({ k.reloaded with executed } : Chronicle).Tells t := by
  have hpending : t.hasPending = false := by
    rw [← s.hasPending_promote, Script.hasPending, Script.hasPending, hslots]
  have hlatest (p : Projection) : t.latest p = k.newest.views.get p := by
    rw [← hk.latest p, ← s.latest_promote, Script.latest, Script.latest, hslots]
  refine ⟨ht, hbinary.trans hk.binary, hlatest, ⟨k.newest, k.version?_last, ?_⟩, fun _ ↦ rfl,
    fun h ↦ ?_, fun hin hb ↦ ?_, fun _ _ h ↦ ?_⟩
  · refine Dual.ext_get fun p ↦ ?_
    rw [← Script.latest_eq_active t hpending, hlatest]
  · rw [hpending] at h
    cases h
  · exact ⟨k.last, Nat.le_refl _, hexecuted hin hb, .inl ⟨rfl, rfl⟩⟩
  · rw [hready] at h
    cases h

theorem loadedInEngine (hk : k.Tells s) : (k.after s .loadedInEngine).Tells s.openInEngine.1 := by
  by_cases hu : s.flags.upToDate = true
  · have ho : s.openInEngine = ({ s with flags.inEngine := true }, false) := if_pos hu
    -- nothing is promoted, so views can only be pending if a forced reload was still to come
    have hsettled : s.reloadReady = false → k.active = k.last := by
      intro hr
      refine hk.settled ?_
      by_contra hp
      rcases hk.coupled.waiting (by simpa using hp) with h | h
      · rw [hr] at h
        cases h
      · rw [hu] at h
        cases h
    have hcoupled := hk.coupled.openInEngine
    rw [ho] at hcoupled
    rw [Chronicle.after, ho]
    refine ⟨hcoupled, hk.binary, hk.latest, hk.active, hk.settled, hk.unsettled, fun _ _ ↦ ?_,
      fun _ _ hr ↦ ⟨hr, rfl⟩⟩
    refine ⟨k.last, Nat.le_refl _, rfl, ?_⟩
    by_cases hr : s.reloadReady = true
    · exact .inr ⟨hr, hk.unsettled (hk.coupled.ready hr)⟩
    · have hr := eq_false_of_ne_true hr
      exact .inl ⟨hr, hsettled hr⟩
  · have ho : s.openInEngine = (({ s with
        flags.inEngine := true, flags.upToDate := true, flags.notBreakable := false } :
          Script).promote, true) := if_neg hu
    have hcoupled := hk.coupled.openInEngine
    rw [ho] at hcoupled
    rw [Chronicle.after, ho]
    exact hk.reloaded hcoupled rfl rfl rfl fun _ _ ↦ rfl

theorem unloadedInEngine (hk : k.Tells s) :
    (k.after s .unloadedInEngine).Tells s.closeInEngine.1 := by
  have hcoupled := hk.coupled.closeInEngine
  by_cases hu : s.flags.upToDate = true
  · have ho : s.closeInEngine =
        ({ s with flags.inEngine := false, flags.notBreakable := false }, false) := if_pos hu
    rw [ho] at hcoupled
    rw [Chronicle.after, ho]
    exact ⟨hcoupled, hk.binary, hk.latest, hk.active, hk.settled, hk.unsettled, nofun, nofun⟩
  · have ho : s.closeInEngine = (({ s with
        flags.inEngine := false, flags.notBreakable := false, flags.upToDate := true } :
          Script).promote, true) := if_neg hu
    rw [ho] at hcoupled
    rw [Chronicle.after, ho]
    exact hk.reloaded hcoupled rfl rfl rfl nofun

theorem saved (hk : k.Tells s) (binary : Binary) (views : Dual View) :
    (k.after s (.saved binary views)).Tells (s.save binary views).2 := by
  have hle : k.active ≤ k.last := by
    cases hp : s.hasPending with
    | false => exact Nat.le_of_eq (hk.settled hp)
    | true => exact Nat.le_of_lt (hk.unsettled hp)
  have hlast : (k.after s (.saved binary views)).last = k.last + 1 := by
    simp only [Chronicle.after, last, List.length_append, List.length_singleton]
  obtain ⟨v, hv, hactive⟩ := hk.active
  refine ⟨.save binary views, s.save_binary binary views, s.latest_save binary views,
    ⟨v, ?_, ?_⟩, fun h ↦ ?_, fun _ ↦ ?_, fun hin hb ↦ ?_, fun hin _ hr ↦ ?_⟩
  · rw [Chronicle.after, k.version?_of_le hle, hv]
  · rw [Script.active_save, hactive]
  · rw [Script.hasPending_save] at h
    cases h
  · rw [hlast]
    exact Nat.lt_succ_of_le hle
  · rw [Script.save_flags] at hin hb
    obtain ⟨n, hn, he, hover⟩ := hk.executed hin hb
    exact ⟨n, hlast ▸ Nat.le_succ_of_le hn, he, hover⟩
  · rw [Script.save_flags] at hin
    rw [Script.save_reloadReady, show s.flags.inEngine = true from hin] at hr
    cases hr

theorem forcedReload (hk : k.Tells s) :
    (k.after s .forcedReload).Tells (s.after .forcedReload) := by
  by_cases hr : s.reloadReady = true
  · rw [Chronicle.after, if_pos hr, Script.after, if_pos hr]
    exact hk.reloaded (hk.coupled.forcedReload hr) rfl rfl rfl fun hin hb ↦
      (hk.awaited hin hb hr).2
  · rw [Chronicle.after, if_neg hr, Script.after, if_neg hr]
    exact hk

theorem after (hk : k.Tells s) (h : Happening) : (k.after s h).Tells (s.after h) := by
  have hcoupled := hk.coupled.after h
  cases h with
  | asked => exact hk
  | authority projection => exact hk.of_slots hcoupled rfl rfl rfl fun hin hb ↦ ⟨hin, hb⟩
  | openedInEditor => exact hk.of_slots hcoupled rfl rfl rfl fun hin hb ↦ ⟨hin, hb⟩
  | closedInEditor confirm =>
    rw [Script.after, Script.closeInEditor] at hcoupled ⊢
    by_cases hu : s.flags.upToDate = true
    · rw [if_pos hu] at hcoupled ⊢
      exact hk.of_slots hcoupled rfl rfl rfl fun hin hb ↦ ⟨hin, hb⟩
    · rw [if_neg hu] at hcoupled ⊢
      cases confirm with
      | false => exact hk
      | true => exact hk.of_notBreakable hcoupled rfl rfl rfl rfl
  | loadedInEngine => exact hk.loadedInEngine
  | foreignInEngine => exact hk.of_notBreakable hcoupled rfl rfl rfl rfl
  | unloadedInEngine => exact hk.unloadedInEngine
  | saved binary views => exact hk.saved binary views
  | forcedReload => exact hk.forcedReload
  | invalidated => exact hk.of_notBreakable hcoupled rfl rfl rfl rfl

end Tells

end Chronicle

namespace Workspace

variable {σ τ : Type} (c : Compiler) (file : String)

section Follow

variable [Archive σ] [BreakpointStore τ]

def follow (r : Request) (w : Workspace σ τ) (k : Option Chronicle) : Option Chronicle :=
  if r.file = file then
    match ((script c file).outcome w).1, ((r.perform c).outcome w).1 with
    | .error _, _ => k
    | .ok s, .error _ => some (k.getD (.ofLoad s))
    | .ok s, .ok _ => some ((k.getD (.ofLoad s)).after s (r.turn c s))
  else k

def chronicle : List Request → Workspace σ τ → Option Chronicle → Option Chronicle
  | [], _, k => k
  | r :: rs, w, k => chronicle rs ((r.perform c).outcome w).2 (follow c file r w k)

end Follow

/-- There is a history of a script as long as it is tracked, and it is true. -/
structure Recorded (k : Option Chronicle) (w : Workspace σ τ) : Prop where
  untracked : w.scripts[file]? = none → k = none
  tracked {s : Script} : w.scripts[file]? = some s → ∃ k', k = some k' ∧ k'.Tells s

variable {file}

theorem Recorded.of_tells {k : Chronicle} {w : Workspace σ τ} {s : Script} (hk : k.Tells s)
    (hs : w.scripts[file]? = some s) : Recorded file (some k) w where
  untracked hn := by
    rw [hs] at hn
    cases hn
  tracked ht := by
    rw [hs] at ht
    cases ht
    exact ⟨k, rfl, hk⟩

variable [Archive σ]

theorem Recorded.found {k : Option Chronicle} {w : Workspace σ τ} {s : Script}
    (hk : Recorded file k w) (hs : Finds c w file s) : (k.getD (.ofLoad s)).Tells s := by
  cases hs with
  | tracked ht =>
    obtain ⟨k', rfl, h⟩ := hk.tracked ht
    exact h
  | loaded hn hl =>
    obtain rfl := hk.untracked hn
    obtain ⟨bytes, views, -, -, rfl⟩ := hl
    exact .ofLoad file ⟨bytes⟩ views

variable [BreakpointStore τ]

theorem Recorded.perform {k : Option Chronicle} {w : Workspace σ τ} (hk : Recorded file k w)
    (r : Request) : Recorded file (follow c file r w k) ((r.perform c).outcome w).2 := by
  have hturn := r.perform_turn c w
  unfold follow
  generalize (r.perform c).outcome w = o at hturn ⊢
  rcases o with ⟨result, w'⟩
  dsimp only at hturn ⊢
  by_cases hfile : r.file = file
  · subst hfile
    rw [if_pos rfl]
    cases hturn with
    | unfound ho hscripts =>
      rw [ho]
      exact ⟨fun hn ↦ hk.untracked (hscripts ▸ hn), fun ht ↦ hk.tracked (hscripts ▸ ht)⟩
    | refused hf hscripts =>
      rw [hf.outcome]
      refine .of_tells (hk.found c hf) ?_
      rw [hscripts, Std.ExtTreeMap.getElem?_insert_self]
    | happened hf hscripts =>
      rw [hf.outcome]
      refine .of_tells ((hk.found c hf).after _) ?_
      rw [hscripts, Std.ExtTreeMap.getElem?_insert_self]
  · rw [if_neg hfile]
    have hother : w'.scripts[file]? = w.scripts[file]? := by
      cases hturn with
      | unfound _ hscripts => rw [hscripts]
      | refused _ hscripts => rw [hscripts, getElem?_insert_of_ne (Ne.symm hfile)]
      | happened _ hscripts => rw [hscripts, getElem?_insert_of_ne (Ne.symm hfile)]
    exact ⟨fun hn ↦ hk.untracked (hother ▸ hn), fun ht ↦ hk.tracked (hother ▸ ht)⟩

theorem Recorded.run {k : Option Chronicle} {w : Workspace σ τ} (hk : Recorded file k w)
    (rs : List Request) : Recorded file (chronicle c file rs w k) (run c rs w) := by
  induction rs generalizing w k with
  | nil => exact hk
  | cons r rs ih => exact ih (hk.perform c r)

theorem addBreakpoint_resolves {w : Workspace σ τ} {s : Script} {line : Nat}
    {projection : Projection} {answer : Option Address} (ht : w.scripts[file]? = some s)
    (ha : ((addBreakpoint c file line projection).outcome w).1 = .ok answer) :
    answer = (s.active.get projection).map.first? line := by
  simp only [addBreakpoint, Fallible.outcome_bind, script_tracked ht] at ha
  cases hf : (s.active.get projection).map.first? line with
  | none =>
    simp only [hf, Fallible.outcome_bind, outcome_note, Fallible.outcome_pure] at ha
    exact (Except.ok.inj ha).symm
  | some a =>
    simp only [hf, Fallible.outcome_bind] at ha
    rcases ho : (arm s file a).outcome w with ⟨f | u, w₁⟩ <;> rw [ho] at ha
    · cases ha
    · exact (Except.ok.inj ha).symm

/-- While the engine executes a script that can be debugged, the active views are those of the
version that it executes, and breakpoints are set in the code that runs. There is one exception. If
the engine loads the script after a save that could have been followed by a forced reload, but
before that reload, then it executes the new version, and the active views are those of an older one
until the next reload. -/
theorem active_views_of_executed_version (rs : List Request) (w : Workspace σ τ)
    (hw : w.scripts = ∅) (s : Script) (hs : (run c rs w).scripts[file]? = some s)
    (hin : s.flags.inEngine = true) (hb : s.flags.notBreakable = false) :
    ∃ k n v, chronicle c file rs w none = some k ∧ s.binary = k.newest.binary ∧
      k.executed = some n ∧ k.version? n = some v ∧
      (k.overtaken = false →
        k.active = n ∧ s.active = v.views ∧
          ∀ line projection answer,
            ((addBreakpoint c file line projection).outcome (run c rs w)).1 = .ok answer →
            answer = (v.views.get projection).map.first? line) ∧
      (k.overtaken = true →
        k.active < n ∧ ∃ old, k.version? k.active = some old ∧ s.active = old.views) := by
  have hbegin : Recorded file none w := by
    refine ⟨fun _ ↦ rfl, fun h ↦ ?_⟩
    rw [hw] at h
    cases h
  obtain ⟨k, hk, htells⟩ := (hbegin.run c rs).tracked hs
  obtain ⟨n, hn, he, hover⟩ := htells.executed hin hb
  obtain ⟨v, hv⟩ := k.version?_isSome hn
  obtain ⟨old, hold, hactive⟩ := htells.active
  refine ⟨k, n, v, hk, htells.binary, he, hv, fun ho ↦ ?_, fun ho ↦ ?_⟩
  · rcases hover with ⟨-, han⟩ | ⟨ho', -⟩
    · rw [han, hv] at hold
      cases hold
      refine ⟨han, hactive, fun line projection answer ha ↦ ?_⟩
      rw [addBreakpoint_resolves c hs ha, hactive]
    · rw [ho] at ho'
      cases ho'
  · rcases hover with ⟨ho', -⟩ | ⟨-, han⟩
    · rw [ho] at ho'
      cases ho'
    · exact ⟨han, old, hold, hactive⟩

/-- The engine executes the loaded version, and the active views are those of that version although
a newer one was saved. -/
theorem active_views_kept_by_deferred_save :
    ∃ s k v, (run Listing.compiler [.openInEngine "a", .save "a" .primary "routine 7\n    a\n" ∅]
        (holding "a" "routine 5\n    a\n")).scripts["a"]? = some s ∧
      chronicle Listing.compiler "a"
        [.openInEngine "a", .save "a" .primary "routine 7\n    a\n" ∅]
        (holding "a" "routine 5\n    a\n") none = some k ∧
      k.executed = some 0 ∧ k.version? 0 = some v ∧ s.active = v.views := by
  have hstate :
      ((run Listing.compiler [.openInEngine "a", .save "a" .primary "routine 7\n    a\n" ∅]
        (holding "a" "routine 5\n    a\n")).scripts["a"]?.map
          fun s ↦ (s.flags.inEngine, s.flags.notBreakable)) = some (true, false) := by
    decide +kernel
  have hhistory :
      ((chronicle Listing.compiler "a"
        [.openInEngine "a", .save "a" .primary "routine 7\n    a\n" ∅]
        (holding "a" "routine 5\n    a\n") none).map
          fun k ↦ (k.executed, k.overtaken)) = some (some 0, false) := by
    decide +kernel
  obtain ⟨s, hs, hflags⟩ := Option.map_eq_some_iff.1 hstate
  obtain ⟨hin, hb⟩ := Prod.mk.inj hflags
  obtain ⟨k, n, v, hk, -, hn, hv, hfit, -⟩ :=
    active_views_of_executed_version Listing.compiler _ _ rfl s hs hin hb
  rw [hk, Option.map_some, Option.some_inj] at hhistory
  obtain ⟨he, ho⟩ := Prod.mk.inj hhistory
  rw [he] at hn
  cases hn
  exact ⟨s, k, v, hs, hk, he, hv, (hfit ho).2.1⟩

/-- A load that comes between a save and its forced reload overtakes the reload: the engine executes
the new version, whose first instruction is in routine 7, and the active views still place it in
routine 5. -/
theorem active_views_overtaken_by_load :
    ∃ s k n v, (run Listing.compiler [.save "a" .primary "routine 7\n    a\n" ∅, .openInEngine "a"]
        (holding "a" "routine 5\n    a\n")).scripts["a"]? = some s ∧
      s.flags.inEngine = true ∧ s.flags.notBreakable = false ∧
      chronicle Listing.compiler "a"
        [.save "a" .primary "routine 7\n    a\n" ∅, .openInEngine "a"]
        (holding "a" "routine 5\n    a\n") none = some k ∧
      k.executed = some n ∧ k.version? n = some v ∧ s.active ≠ v.views ∧
      (s.active.get .primary).map.first? 1 = some ⟨5, 0⟩ ∧
      (v.views.get .primary).map.first? 1 = some ⟨7, 0⟩ := by
  have hstate :
      ((run Listing.compiler [.save "a" .primary "routine 7\n    a\n" ∅, .openInEngine "a"]
        (holding "a" "routine 5\n    a\n")).scripts["a"]?.map
          fun s ↦ (s.flags.inEngine, s.flags.notBreakable,
            (s.active.get .primary).map.first? 1)) = some (true, false, some ⟨5, 0⟩) := by
    decide +kernel
  have hhistory :
      ((chronicle Listing.compiler "a"
        [.save "a" .primary "routine 7\n    a\n" ∅, .openInEngine "a"]
        (holding "a" "routine 5\n    a\n") none).map
          fun k ↦ (k.executed, (k.version? 1).map fun v ↦ (v.views.get .primary).map.first? 1)) =
        some (some 1, some (some ⟨7, 0⟩)) := by
    decide +kernel
  obtain ⟨s, hs, hfacts⟩ := Option.map_eq_some_iff.1 hstate
  obtain ⟨hin, hb, hline⟩ := by simpa only [Prod.mk.injEq] using hfacts
  obtain ⟨k, hk, hfacts⟩ := Option.map_eq_some_iff.1 hhistory
  obtain ⟨he, hversion⟩ := Prod.mk.inj hfacts
  obtain ⟨v, hv, hline'⟩ := Option.map_eq_some_iff.1 hversion
  refine ⟨s, k, 1, v, hs, hin, hb, hk, he, hv, fun hsame ↦ ?_, hline, hline'⟩
  rw [hsame, hline'] at hline
  cases hline

end Workspace

end ScriptBreakpoints
