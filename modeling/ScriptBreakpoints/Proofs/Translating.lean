import ScriptBreakpoints.Proofs.Changing
import ScriptBreakpoints.Proofs.Indexing
import ScriptBreakpoints.Proofs.Regenerating

namespace ScriptBreakpoints

namespace SourceMap

variable {m : SourceMap} {lines lines' : LineSet} {line : Nat} {a : Address}

def line? (m : SourceMap) (a : Address) : Option Nat := (m.place? a).map (·.line)

def HasCode (m : SourceMap) (line : Nat) : Prop := ∃ e ∈ m.entries, e.place.line = line

theorem eq_of_entries {m' : SourceMap} (h : m.entries = m'.entries) : m = m' := by
  cases m; cases m'
  cases h
  rfl

theorem line?_ofMap : (Marks.ofMap m).line? a = m.line? a := by
  rw [Marks.line?, place?_ofMap, line?]

theorem line?_of_first? (h : m.first? line = some a) : m.line? a = some line := by
  rw [← line?_ofMap]
  exact Marks.line?_ofMap h

theorem hasCode_iff : m.HasCode line ↔ ∃ a, m.first? line = some a := by
  constructor
  · rintro ⟨e, he, hline⟩
    have hmem : e.address ∈ m.addressesOn line := List.mem_map_of_mem (mem_entriesOn.2 ⟨he, hline⟩)
    exact Option.isSome_iff_exists.1 (List.isSome_head?.2 (List.ne_nil_of_mem hmem))
  · rintro ⟨a, ha⟩
    obtain ⟨p, hp, hline⟩ := Option.map_eq_some_iff.1 (line?_of_first? ha)
    exact ⟨⟨a, p⟩, place?_eq_some.1 hp, hline⟩

theorem mem_markedLines_iff : line ∈ m.markedLines lines ↔ line ∈ lines ∧ m.HasCode line := by
  rw [mem_markedLines, hasCode_iff]

def Above (m : SourceMap) (a b : Address) : Prop :=
  ∃ i j, m.line? a = some i ∧ m.line? b = some j ∧ i < j

theorem Above.not_above {b : Address} (h : m.Above a b) : ¬m.Above b a := by
  rintro ⟨j, i, hj, hi, hlt⟩
  obtain ⟨i', j', hi', hj', hlt'⟩ := h
  rw [hi] at hi'
  rw [hj] at hj'
  cases hi'; cases hj'
  exact Nat.lt_asymm hlt hlt'

theorem pairwise_breakpointsOn (m : SourceMap) (lines : LineSet) :
    (m.breakpointsOn lines).Pairwise m.Above := by
  refine List.pairwise_filterMap.2 (Std.ExtTreeSet.ordered_toList.imp fun {i j} hlt a ha b hb ↦ ?_)
  exact ⟨i, j, line?_of_first? ha, line?_of_first? hb, Nat.compare_eq_lt.1 hlt⟩

/-- No instruction is on two lines, so none is found twice. -/
theorem nodup_breakpointsOn (m : SourceMap) (lines : LineSet) : (m.breakpointsOn lines).Nodup :=
  (m.pairwise_breakpointsOn lines).imp fun h heq ↦ (heq ▸ h).not_above (heq ▸ h)

theorem mem_breakpointsOn_iff : a ∈ m.breakpointsOn lines ↔
    ∃ line ∈ lines, m.first? line = some a ∧ m.line? a = some line := by
  rw [Workspace.mem_breakpointsOn]
  exact exists_congr fun line ↦ and_congr_right fun _ ↦
    ⟨fun h ↦ ⟨h, line?_of_first? h⟩, And.left⟩

theorem exists_line?_iff :
    (∃ a ∈ m.breakpointsOn lines, m.line? a = some line) ↔ line ∈ m.markedLines lines := by
  rw [mem_markedLines]
  constructor
  · rintro ⟨a, ha, hline⟩
    obtain ⟨line', hmarked, hfirst, hline'⟩ := mem_breakpointsOn_iff.1 ha
    rw [hline] at hline'
    cases hline'
    exact ⟨hmarked, a, hfirst⟩
  · rintro ⟨hmarked, a, hfirst⟩
    have hline := line?_of_first? hfirst
    exact ⟨a, mem_breakpointsOn_iff.2 ⟨line, hmarked, hfirst, hline⟩, hline⟩

theorem line?_of_mem (h : a ∈ m.breakpointsOn lines) : ∃ line ∈ lines, m.line? a = some line := by
  obtain ⟨line, hmarked, -, hline⟩ := mem_breakpointsOn_iff.1 h
  exact ⟨line, hmarked, hline⟩

theorem breakpointsOn_congr (h : ∀ line, m.HasCode line → (line ∈ lines ↔ line ∈ lines')) :
    m.breakpointsOn lines = m.breakpointsOn lines' := by
  have hmem (a : Address) : a ∈ m.breakpointsOn lines ↔ a ∈ m.breakpointsOn lines' := by
    rw [Workspace.mem_breakpointsOn, Workspace.mem_breakpointsOn]
    exact exists_congr fun line ↦ and_congr_left fun ha ↦ h line (hasCode_iff.2 ⟨a, ha⟩)
  have hperm := (List.perm_ext_iff_of_nodup (m.nodup_breakpointsOn lines)
    (m.nodup_breakpointsOn lines')).2 hmem
  refine hperm.eq_of_pairwise ?_ (m.pairwise_breakpointsOn lines) (m.pairwise_breakpointsOn lines')
  intro a b _ _ hab hba
  exact absurd hba hab.not_above

theorem breakpointsOn_markedLines :
    m.breakpointsOn (m.markedLines lines) = m.breakpointsOn lines := by
  refine breakpointsOn_congr fun line hcode ↦ ?_
  rw [mem_markedLines_iff, and_iff_left hcode]

end SourceMap

namespace Placement

variable {κ : Type} {k : κ} {m : SourceMap} {as : List Address} {lines : LineSet}

theorem shown_ofMap : (Placement.of as [(k, Marks.ofMap m)]).shown =
    as.filterMap fun a ↦ (m.line? a).map fun line ↦ (k, a, line) := by
  induction as with
  | nil => rfl
  | cons a as ih =>
    rw [List.filterMap_cons, ← ih, SourceMap.line?, ← SourceMap.place?_ofMap]
    simp only [Placement.of, List.flatMap_cons, List.filterMap_cons, List.filterMap_nil]
    cases (Marks.ofMap m).place? a <;> rfl

theorem mem_shown_ofMap {x : κ × Address × Nat} :
    x ∈ (Placement.of as [(k, Marks.ofMap m)]).shown ↔
      x.1 = k ∧ x.2.1 ∈ as ∧ m.line? x.2.1 = some x.2.2 := by
  rw [shown_ofMap, List.mem_filterMap]
  constructor
  · rintro ⟨a, ha, hx⟩
    obtain ⟨line, hline, rfl⟩ := Option.map_eq_some_iff.1 hx
    exact ⟨rfl, ha, hline⟩
  · rintro ⟨rfl, ha, hline⟩
    exact ⟨x.2.1, ha, by rw [hline]; rfl⟩

/-- Each breakpoint of a map is found by the fresh marks of the map. -/
theorem addresses_ofMap (h : ∀ a ∈ as, ∃ line, m.line? a = some line) :
    (Placement.of as [(k, Marks.ofMap m)]).shown.map (·.2.1) = as := by
  rw [shown_ofMap, List.map_filterMap]
  refine (List.filterMap_congr fun a ha ↦ ?_).trans List.filterMap_some
  obtain ⟨line, hline⟩ := h a ha
  rw [hline]
  rfl

theorem lost_ofMap (h : ∀ a ∈ as, ∃ line, m.line? a = some line) :
    (Placement.of as [(k, Marks.ofMap m)]).lost = [] := by
  refine List.filter_eq_nil_iff.2 fun a ha ↦ ?_
  obtain ⟨line, hline⟩ := h a ha
  obtain ⟨p, hp, -⟩ := Option.map_eq_some_iff.1 hline
  simp [SourceMap.place?_ofMap, hp]

theorem lines_ofMap : (Std.ExtTreeSet.ofList ((Placement.of (m.breakpointsOn lines)
    [(k, Marks.ofMap m)]).shown.map (·.2.2)) : LineSet) = m.markedLines lines := by
  refine Std.ExtTreeSet.ext_mem fun line ↦ ?_
  rw [mem_ofList, ← SourceMap.exists_line?_iff, List.mem_map]
  constructor
  · rintro ⟨x, hx, rfl⟩
    exact ⟨x.2.1, (mem_shown_ofMap.1 hx).2⟩
  · rintro ⟨a, ha, hline⟩
    exact ⟨(k, a, line), mem_shown_ofMap.2 ⟨rfl, ha, hline⟩, rfl⟩

end Placement

namespace OpenScript

variable {o : OpenScript} {e : Reload} {as : List Address} {m : SourceMap} {lines : LineSet}
  {line : Nat}

theorem mem_markerLines_hear : line ∈ (o.hear as (.reload e)).buffer.markerLines ↔
    ∃ x ∈ as, (o.reload e).buffer.marks.line? x = some line := by
  rw [Buffer.mem_markerLines]
  refine exists_congr fun x ↦ ?_
  have hmarkers := (o.reload e).markers_place as e.authority x
  rw [markers_reload, Std.ExtTreeMap.getElem?_empty, Option.or_none] at hmarkers
  rw [← Option.ite_none_right_eq_some]
  exact Eq.congr_left hmarkers

/-- A reload of a text whose marks are fresh shows breakpoints on the lines that they stand for. -/
theorem markerLines_hear (hmarks : (o.reload e).buffer.marks = .ofMap m)
    (has : ∀ x, x ∈ as ↔ x ∈ m.breakpointsOn lines) :
    (o.hear as (.reload e)).buffer.markerLines = m.markedLines lines := by
  refine Std.ExtTreeSet.ext_mem fun line ↦ ?_
  rw [mem_markerLines_hear, hmarks, ← SourceMap.exists_line?_iff]
  exact exists_congr fun x ↦ and_congr (has x) (by rw [SourceMap.line?_ofMap])

theorem lost_hear (hmarks : (o.reload e).buffer.marks = .ofMap m)
    (has : ∀ x, x ∈ as ↔ x ∈ m.breakpointsOn lines) :
    (o.hear as (.reload e)).lost = o.lost := by
  refine lost_place as (o.reload e) fun x hx ↦ ⟨e.authority, fun hnone ↦ ?_⟩
  obtain ⟨line, -, hline⟩ := SourceMap.line?_of_mem ((has x).1 hx)
  have hplace : (o.reload e).buffer.marks.place? x = none := hnone
  rw [← SourceMap.line?_ofMap, ← hmarks, Marks.line?, hplace] at hline
  cases hline

end OpenScript

namespace Workspace

variable {σ τ : Type} {c : Compiler} {file text : String} {projection : Projection} {m : SourceMap}
  {lines : LineSet} {saved : Saved} {w w' : Workspace σ τ}

theorem exists_saved {β : Type} {f : Saved → β} {b : β} {r : Except Fault Saved × Workspace σ τ}
    (h : r.1.toOption.map f = some b) : ∃ saved, r = (.ok saved, r.2) ∧ f saved = b := by
  rcases r with ⟨_ | saved, w⟩
  · cases h
  · exact ⟨saved, rfl, Option.some.inj h⟩

variable [BreakpointStore τ] [LawfulStore τ]

/-- The breakpoints of some marked lines are armed, and a reload of a text that did not change since
it was compiled to `m` shows them there. -/
structure Arms (file : String) (m : SourceMap) (lines : LineSet) (w : Workspace σ τ) : Prop where
  armed : LawfulStore.armed w.store file = .ofList (m.breakpointsOn lines)
  shown : ∀ (as : List Address) (o : OpenScript) (e : Reload),
    (BreakpointStore.list file w.store).1 = .ok as → (o.reload e).buffer.marks = .ofMap m →
    (o.hear as (.reload e)).buffer.markerLines = m.markedLines lines ∧
      (o.hear as (.reload e)).lost = o.lost

theorem Arms.of_armed (h : LawfulStore.armed w.store file = .ofList (m.breakpointsOn lines)) :
    w.Arms file m lines := by
  refine ⟨h, fun as o e hlist hmarks ↦ ?_⟩
  have has (x : Address) : x ∈ as ↔ x ∈ m.breakpointsOn lines := by
    rw [LawfulStore.list_eq hlist, Std.ExtTreeSet.mem_toList, h, mem_ofList]
  exact ⟨OpenScript.markerLines_hear hmarks has, OpenScript.lost_hear hmarks has⟩

variable [Archive σ]

theorem SaveEnds.arms (h : SaveEnds c file projection text lines w (.ok saved) w') :
    ∃ compiled, c.compile projection text = .ok compiled ∧ saved.provisional = compiled.map ∧
      saved.breakpoints = compiled.map.breakpointsOn lines ∧ w'.Arms file compiled.map lines := by
  cases h with
  | done _ _ hc _ _ hr _ _ =>
    refine ⟨_, hc, rfl, rfl, .of_armed ?_⟩
    rw [armed_resynced hr, Function.update_self]

/-- A text is saved with markers on `lines`, and after that any number of times again. Before every
other save a reload comes to an editor that has not changed the text since; the next markers are
where it shows what the store lists. Whatever else happens in between arms and disarms nothing in
the script. -/
inductive Resaves (c : Compiler) (file : String) (projection : Projection) (text : String)
    (lines : LineSet) : Saved → Workspace σ τ → Prop
  | once {saved : Saved} {w w' : Workspace σ τ} :
      (save c file projection text lines).outcome w = (.ok saved, w') →
      Resaves c file projection text lines saved w'
  | again {saved saved' : Saved} {w w₁ w' : Workspace σ τ} {as : List Address} {o : OpenScript}
      {e : Reload} :
      Resaves c file projection text lines saved w →
      LawfulStore.armed w₁.store file = LawfulStore.armed w.store file →
      (BreakpointStore.list file w₁.store).1 = .ok as →
      (o.reload e).buffer.marks = .ofMap saved.provisional →
      (save c file projection text (o.hear as (.reload e)).buffer.markerLines).outcome w₁ =
        (.ok saved', w') →
      Resaves c file projection text lines saved' w'

/-- The first save decides, and all others arm the same. -/
theorem Resaves.arms (h : Resaves c file projection text lines saved w) :
    ∃ compiled, c.compile projection text = .ok compiled ∧ saved.provisional = compiled.map ∧
      saved.breakpoints = compiled.map.breakpointsOn lines ∧ w.Arms file compiled.map lines := by
  induction h with
  | @once saved w w' hsave =>
    have hends := save_ends c file projection text lines w
    rw [hsave] at hends
    exact hends.arms
  | @again saved saved' w w₁ w' as o e _ harmed hlist hmarks hsave ih =>
    obtain ⟨compiled, hc, hm, -, harms⟩ := ih
    rw [hm] at hmarks
    obtain ⟨hlines, -⟩ := (Arms.of_armed (harmed.trans harms.armed)).shown as o e hlist hmarks
    have hends := save_ends c file projection text (compiled.map.markedLines lines) w₁
    rw [← hlines, hsave, hlines] at hends
    obtain ⟨compiled', hc', hm', hbreakpoints, harms'⟩ := hends.arms
    obtain rfl : compiled = compiled' := Except.ok.inj (hc.symm.trans hc')
    -- the lines that are no longer marked have no instructions, and stood for nothing before
    rw [SourceMap.breakpointsOn_markedLines] at hbreakpoints
    refine ⟨compiled, hc, hm', hbreakpoints, .of_armed ?_⟩
    rw [harms'.armed, SourceMap.breakpointsOn_markedLines]

end Workspace

namespace SourceMap

/-- What `as` has to be as the breakpoints of the marked lines, and `placed` as the places where
fresh marks of the map show them under the key `k`. -/
structure RoundTrip {κ : Type} (m : SourceMap) (k : κ) (lines : LineSet) (as : List Address)
    (placed : Placement κ) : Prop where
  nodup : as.Nodup
  ordered : as.Pairwise m.Above
  marked : ∀ a ∈ as, ∃ line ∈ lines, m.line? a = some line
  one : ∀ line ∈ lines, m.HasCode line → ∃! a, a ∈ as ∧ m.line? a = some line
  lost : placed.lost = []
  addresses : placed.shown.map (·.2.1) = as
  shown : ∀ x ∈ placed.shown, x.1 = k ∧ m.line? x.2.1 = some x.2.2
  places : ∀ line, line ∈ placed.shown.map (·.2.2) ↔ line ∈ lines ∧ m.HasCode line
  again : m.breakpointsOn (.ofList (placed.shown.map (·.2.2))) = as
  resaved : ∀ {σ τ : Type} [Archive σ] [BreakpointStore τ] [LawfulStore τ] {c : Compiler}
    {file text : String} {projection : Projection} {saved : Saved} {w : Workspace σ τ},
    Workspace.Resaves c file projection text lines saved w → saved.provisional = m →
      saved.breakpoints = as ∧ w.Arms file m lines

variable {m : SourceMap} {lines : LineSet}

theorem exists_unique_breakpoint {line : Nat} (hmarked : line ∈ lines) (hcode : m.HasCode line) :
    ∃! a, a ∈ m.breakpointsOn lines ∧ m.line? a = some line := by
  obtain ⟨a, ha⟩ := hasCode_iff.1 hcode
  have hline := line?_of_first? ha
  refine ⟨a, ⟨mem_breakpointsOn_iff.2 ⟨line, hmarked, ha, hline⟩, hline⟩, ?_⟩
  rintro b ⟨hb, hb'⟩
  obtain ⟨line', -, hfirst, hline'⟩ := mem_breakpointsOn_iff.1 hb
  rw [hb'] at hline'
  cases hline'
  exact Option.some.inj (hfirst.symm.trans ha)

/-- The breakpoints of marked lines are one for each line that has instructions, in the order of the
lines. Marks that were made from the map show them on just those lines, these lines stand for the
same breakpoints again, and so they remain however often an unchanged text is saved and reloaded. -/
theorem lines_round_trip {κ : Type} (m : SourceMap) (k : κ) (lines : LineSet) :
    m.RoundTrip k lines (m.breakpointsOn lines)
      (.of (m.breakpointsOn lines) [(k, .ofMap m)]) := by
  have hknown (a : Address) (ha : a ∈ m.breakpointsOn lines) : ∃ line, m.line? a = some line :=
    (line?_of_mem ha).imp fun _ ↦ And.right
  have hlines : _ = m.markedLines lines := Placement.lines_ofMap (k := k)
  refine ⟨m.nodup_breakpointsOn lines, m.pairwise_breakpointsOn lines, fun a ↦ line?_of_mem,
    fun line ↦ exists_unique_breakpoint, Placement.lost_ofMap hknown,
    Placement.addresses_ofMap hknown, fun x hx ↦ ?_, fun line ↦ ?_, ?_, fun h hm ↦ ?_⟩
  · obtain ⟨hk, -, hline⟩ := Placement.mem_shown_ofMap.1 hx
    exact ⟨hk, hline⟩
  · rw [← mem_ofList, hlines, mem_markedLines_iff]
  · rw [hlines, breakpointsOn_markedLines]
  · obtain ⟨compiled, -, hmap, hbreakpoints, harms⟩ := h.arms
    obtain rfl := hmap.symm.trans hm
    exact ⟨hbreakpoints, harms⟩

open Workspace in
/-- The second of three marked lines has no instruction. The text is saved, its reload shows the
other two, and it is saved again. -/
theorem lines_round_trip_resaved : ∃ (saved : Saved) (w : Workspace ArchiveMap (Ledger Unit)),
    Resaves Tokens.compiler "a" .primary "5:0\n\n5:2" (.ofList [0, 1, 2]) saved w ∧
      saved.breakpoints = [⟨5, 0⟩, ⟨5, 2⟩] ∧
      w.Arms "a" saved.provisional (.ofList [0, 1, 2]) := by
  let m : SourceMap := ⟨[⟨⟨5, 0⟩, ⟨0, 0⟩⟩, ⟨⟨5, 2⟩, ⟨2, 0⟩⟩], by decide⟩
  let v : View := ⟨"5:0\n\n5:2", m⟩
  let o : OpenScript := ⟨"a", .primary, ⟨.ofView v, .ofView v⟩, false, []⟩
  let e : Reload := ⟨"a", .primary, ⟨v, v⟩⟩
  obtain ⟨w, hw⟩ : ∃ w, w = withEmptyScript := ⟨_, rfl⟩
  obtain ⟨w₁, hw₁⟩ : ∃ w₁, w₁ = ((save Tokens.compiler "a" .primary "5:0\n\n5:2"
      (.ofList [0, 1, 2])).outcome w).2 := ⟨_, rfl⟩
  have hfirst : ((save Tokens.compiler "a" .primary "5:0\n\n5:2"
      (.ofList [0, 1, 2])).outcome w).1.toOption.map (·.provisional.entries) = some m.entries := by
    rw [hw]
    decide +kernel
  have hlist : (BreakpointStore.list "a" w₁.store).1 = .ok [⟨5, 0⟩, ⟨5, 2⟩] := by
    rw [hw₁, hw]
    decide +kernel
  have hsecond : ((save Tokens.compiler "a" .primary "5:0\n\n5:2"
      (o.hear [⟨5, 0⟩, ⟨5, 2⟩] (.reload e)).buffer.markerLines).outcome w₁).1.toOption.map
        (·.breakpoints) = some [⟨5, 0⟩, ⟨5, 2⟩] := by
    rw [hw₁, hw]
    decide +kernel
  obtain ⟨saved, hsave, hentries⟩ := exists_saved hfirst
  obtain ⟨saved', hsave', hbreakpoints⟩ := exists_saved hsecond
  rw [← hw₁] at hsave
  have hmap : saved.provisional = m := eq_of_entries hentries
  have hresaves : Resaves Tokens.compiler "a" .primary "5:0\n\n5:2" (.ofList [0, 1, 2]) saved' _ :=
    .again (o := o) (e := e) (.once hsave) rfl hlist (by rw [hmap]; rfl) hsave'
  obtain ⟨-, harms⟩ :=
    (lines_round_trip saved'.provisional "a" (.ofList [0, 1, 2])).resaved hresaves rfl
  exact ⟨saved', _, hresaves, hbreakpoints, harms⟩

end SourceMap

end ScriptBreakpoints
