import ScriptBreakpoints.Proofs.Scenes

namespace ScriptBreakpoints

namespace Buffer

variable {b : Buffer} {a x : Address} {line : Nat} {set : Std.ExtTreeSet Address} {e : LineEdit}

theorem markers_mark (b : Buffer) (a x : Address) (line : Nat) :
    (b.mark x line).markers[a]? = if a = x then some line else b.markers[a]? := by
  rw [mark, Std.ExtTreeMap.getElem?_insert]
  exact if_congr (Std.compare_eq_iff_eq.trans eq_comm) rfl rfl

theorem markers_hideMarker (b : Buffer) (a x : Address) :
    (b.hideMarker x).markers[a]? = if a = x then none else b.markers[a]? := by
  rw [hideMarker, Std.ExtTreeMap.getElem?_erase]
  exact if_congr (Std.compare_eq_iff_eq.trans eq_comm) rfl rfl

theorem markers_showMarker (b : Buffer) (a x : Address) : (b.showMarker x).markers[a]? =
    if a = x then ((b.marks.place? x).map (·.line)).or b.markers[x]? else b.markers[a]? := by
  cases hx : b.marks.place? x with
  | none =>
    simp only [showMarker, hx, Option.map_none, Option.none_or]
    split
    · next h => rw [h]
    · rfl
  | some p => simp only [showMarker, hx, markers_mark, Option.map_some, Option.some_or]

theorem showMarker_eq (x : Address) (b : Buffer) :
    ∃ markers, b.showMarker x = { b with markers } := by
  rw [showMarker]
  split
  · exact ⟨_, rfl⟩
  · exact ⟨_, rfl⟩

@[simp] theorem marks_showMarker : (b.showMarker x).marks = b.marks := by
  rw [showMarker]
  split <;> rfl

@[simp] theorem provisional_showMarker : (b.showMarker x).provisional = b.provisional := by
  rw [showMarker]
  split <;> rfl

@[simp] theorem marks_hideMarker : (b.hideMarker x).marks = b.marks := rfl

theorem markers_follow (e : LineEdit) (b : Buffer) (a : Address) :
    (b.follow e).markers[a]? = b.markers[a]?.bind e.line? := by
  rw [follow, Std.ExtTreeMap.getElem?_filterMap']

theorem mem_markersOn : a ∈ b.markersOn line ↔ b.markers[a]? = some line := by
  simp only [markersOn, List.mem_map, List.mem_filter, decide_eq_true_eq, Prod.exists,
    Std.ExtTreeMap.mem_toList_iff_getElem?_eq_some]
  constructor
  · rintro ⟨a, line, ⟨h, rfl⟩, rfl⟩
    exact h
  · intro h
    exact ⟨a, line, ⟨h, rfl⟩, rfl⟩

theorem mem_markerLines : line ∈ b.markerLines ↔ ∃ a : Address, b.markers[a]? = some line := by
  rw [markerLines, Std.ExtTreeSet.mem_ofList, List.contains_iff_mem, List.mem_map]
  simp only [Prod.exists, Std.ExtTreeMap.mem_toList_iff_getElem?_eq_some]
  constructor
  · rintro ⟨a, line, h, rfl⟩
    exact ⟨a, h⟩
  · rintro ⟨a, h⟩
    exact ⟨a, line, h, rfl⟩

def insertion (start count : Nat) (b : Buffer) : LineEdit :=
  .insert (min start b.lines.length) count

def deletion? (start stop : Nat) (b : Buffer) : Option LineEdit :=
  let start := min start b.lines.length
  let stop := min stop b.lines.length
  if stop ≤ start then none else some (.delete start stop)

theorem insertLines_eq (start : Nat) (new : List String) (b : Buffer) :
    ∃ lines, b.insertLines start new =
      { b with lines }.follow (b.insertion start new.length) := ⟨_, rfl⟩

theorem deleteLines_eq (start stop : Nat) (b : Buffer) :
    (b.deletion? start stop = none ∧ b.deleteLines start stop = ([], b)) ∨
      ∃ e lines, b.deletion? start stop = some e ∧
        (b.deleteLines start stop).2 = { b with lines }.follow e ∧
        ∀ a, a ∈ (b.deleteLines start stop).1 ↔
          ∃ line, b.markers[a]? = some line ∧ e.line? line = none := by
  by_cases h : min stop b.lines.length ≤ min start b.lines.length
  · refine .inl ⟨if_pos h, ?_⟩
    simp only [deleteLines, if_pos h]
  · refine .inr ⟨.delete (min start b.lines.length) (min stop b.lines.length),
      b.lines.take (min start b.lines.length) ++ b.lines.drop (min stop b.lines.length),
      if_neg h, ?_, fun a ↦ ?_⟩
    · simp only [deleteLines, if_neg h]
    · simp only [deleteLines, if_neg h, List.mem_map, List.mem_filter, Bool.and_eq_true,
        decide_eq_true_eq, Prod.exists, Std.ExtTreeMap.mem_toList_iff_getElem?_eq_some,
        LineEdit.line?, ite_eq_left_iff, reduceCtorEq, imp_false, not_not]
      constructor
      · rintro ⟨a, line, ⟨hm, hl⟩, rfl⟩
        exact ⟨line, hm, hl⟩
      · rintro ⟨line, hm, hl⟩
        exact ⟨a, line, ⟨hm, hl⟩, rfl⟩

/-- As to the breakpoint `a`, the buffer shows `set`, on the line of its mark. -/
def Displays (set : Std.ExtTreeSet Address) (b : Buffer) (a : Address) : Prop :=
  b.markers[a]? = if a ∈ set then (b.marks.place? a).map (·.line) else none

namespace Displays

theorem showMarker (h : b.Displays set a) : (b.showMarker x).Displays (set.insert x) a := by
  have hmem : a ∈ set.insert x ↔ x = a ∨ a ∈ set :=
    Std.ExtTreeSet.mem_insert.trans (or_congr Std.compare_eq_iff_eq Iff.rfl)
  rw [Displays, markers_showMarker, marks_showMarker, if_congr hmem rfl rfl]
  by_cases hx : a = x
  · subst hx
    rw [if_pos rfl, if_pos (.inl rfl), h]
    cases b.marks.place? a <;> simp
  · rw [if_neg hx, h]
    exact if_congr ⟨.inr, fun h ↦ h.resolve_left (Ne.symm hx)⟩ rfl rfl

theorem hideMarker (h : a ≠ x → b.Displays set a) : (b.hideMarker x).Displays (set.erase x) a := by
  have hmem : a ∈ set.erase x ↔ ¬x = a ∧ a ∈ set :=
    Std.ExtTreeSet.mem_erase.trans (and_congr (not_congr Std.compare_eq_iff_eq) Iff.rfl)
  rw [Displays, markers_hideMarker, marks_hideMarker, if_congr hmem rfl rfl]
  by_cases hx : a = x
  · subst hx
    rw [if_pos rfl, if_neg fun h ↦ h.1 rfl]
  · rw [if_neg hx, h hx]
    exact if_congr ⟨fun h ↦ ⟨Ne.symm hx, h⟩, And.right⟩ rfl rfl

theorem follow (h : b.Displays set a)
    (hkept : ∀ line, b.markers[a]? = some line → e.line? line ≠ none) :
    (b.follow e).Displays set a := by
  rw [Displays, markers_follow]
  rw [Displays] at h
  by_cases ha : a ∈ set
  · rw [if_pos ha] at h ⊢
    rw [Buffer.follow, Marks.place?_edit]
    cases hp : b.marks.place? a with
    | none => rw [h, hp]; rfl
    | some p =>
      rw [hp] at h
      have hline := hkept p.line h
      rw [h]
      cases hl : e.line? p.line with
      | none => exact absurd hl hline
      | some line => simp [TextPos.after, hl]
  · rw [if_neg ha] at h ⊢
    rw [h]
    rfl

end Displays

end Buffer

namespace OpenScript

variable {o : OpenScript} {a x : Address} {as : List Address} {set : Std.ExtTreeSet Address}
  {p : Projection}

def mark (d : Dual Buffer) : Projection × Address × Nat → Dual Buffer
  | (p, a, line) => d.set p ((d.get p).mark a line)

theorem foldl_mark (l : List (Projection × Address × Nat)) (d : Dual Buffer) (p : Projection) :
    ∃ markers, (l.foldl mark d).get p = { d.get p with markers } := by
  induction l generalizing d with
  | nil => exact ⟨_, rfl⟩
  | cons entry l ih =>
    obtain ⟨q, a, line⟩ := entry
    obtain ⟨markers, h⟩ := ih (mark d (q, a, line))
    refine ⟨markers, ?_⟩
    rw [List.foldl_cons, h, mark, Dual.get_set]
    split
    · next hq => rw [hq]; rfl
    · rfl

theorem markers_foldl_mark {l : List (Projection × Address × Nat)} (line : Nat)
    (hl : ∀ line', (p, a, line') ∈ l → line' = line) (d : Dual Buffer) :
    ((l.foldl mark d).get p).markers[a]? =
      if (p, a, line) ∈ l then some line else (d.get p).markers[a]? := by
  induction l generalizing d with
  | nil => rw [if_neg List.not_mem_nil]; rfl
  | cons entry l ih =>
    obtain ⟨q, x, line'⟩ := entry
    rw [List.foldl_cons, ih (fun line' h ↦ hl line' (.tail _ h)), mark, Dual.get_set]
    simp only [List.mem_cons, Prod.mk.injEq]
    by_cases htail : (p, a, line) ∈ l
    · rw [if_pos htail, if_pos (.inr htail)]
    · rw [if_neg htail]
      by_cases hp : p = q
      · subst hp
        rw [if_pos rfl, Buffer.markers_mark]
        by_cases hx : a = x
        · subst hx
          have hline := hl line' List.mem_cons_self
          subst hline
          simp
        · simp [hx, htail]
      · simp [hp, htail]

theorem mem_shown {line : Nat} : (p, a, line) ∈ (o.placement as).shown ↔
    a ∈ as ∧ (((o.buffers.get p).table o.waiting).place? a).map (·.line) = some line := by
  simp only [placement, Placement.of, Dual.toList, List.map_cons, List.map_nil, List.mem_flatMap,
    List.mem_filterMap, List.mem_cons, List.not_mem_nil, or_false, Option.map_eq_some_iff]
  constructor
  · rintro ⟨x, hx, t, rfl | rfl, pos, hpos, heq⟩ <;> cases heq <;> exact ⟨hx, pos, hpos, rfl⟩
  · rintro ⟨ha, pos, hpos, rfl⟩
    refine ⟨a, ha, (p, (o.buffers.get p).table o.waiting), ?_, pos, hpos, rfl⟩
    cases p
    · exact .inl rfl
    · exact .inr rfl

theorem buffer_place (as : List Address) (o : OpenScript) (p : Projection) :
    ∃ markers, (o.place as).buffers.get p = { o.buffers.get p with markers } :=
  foldl_mark _ _ p

theorem markers_place (as : List Address) (o : OpenScript) (p : Projection) (a : Address) :
    ((o.place as).buffers.get p).markers[a]? =
      if a ∈ as then (((o.buffers.get p).table o.waiting).place? a).map (·.line) |>.or
        (o.buffers.get p).markers[a]? else (o.buffers.get p).markers[a]? := by
  have hplace : (o.place as).buffers = (o.placement as).shown.foldl mark o.buffers := rfl
  rw [hplace]
  cases hline : (((o.buffers.get p).table o.waiting).place? a).map (·.line) with
  | none =>
    have hout (line : Nat) : (p, a, line) ∉ (o.placement as).shown := by
      rw [mem_shown, hline]
      exact fun h ↦ nomatch h.2
    rw [markers_foldl_mark 0 fun line h ↦ absurd h (hout line), if_neg (hout 0)]
    simp
  | some line =>
    rw [markers_foldl_mark line]
    · simp only [mem_shown, hline, and_true]
      rfl
    · intro line' h
      have h := (mem_shown.1 h).2
      rw [hline] at h
      exact (Option.some.inj h).symm

theorem lost_place (as : List Address) (o : OpenScript)
    (h : ∀ a ∈ as, ∃ p, ((o.buffers.get p).table o.waiting).place? a ≠ none) :
    (o.place as).lost = o.lost := by
  have hlost : (o.placement as).lost = [] := by
    rw [placement, Placement.of, List.filter_eq_nil_iff]
    intro a ha
    obtain ⟨p, hp⟩ := h a ha
    cases p <;> simp_all [Dual.toList, Dual.get]
  rw [place, hlost]
  exact List.append_nil _

def Displays (set : Std.ExtTreeSet Address) (o : OpenScript) (a : Address) : Prop :=
  ∀ p, (o.buffers.get p).Displays set a

theorem displays_place (as : List Address) (hclear : ∀ p, (o.buffers.get p).markers = ∅)
    (hw : o.waiting = false) (a : Address) : (o.place as).Displays (.ofList as) a := by
  intro p
  obtain ⟨markers, hb⟩ := o.buffer_place as p
  have hm := o.markers_place as p a
  rw [hclear, Std.ExtTreeMap.getElem?_empty, Option.or_none, hw] at hm
  rw [Buffer.Displays, hm, hb]
  exact if_congr mem_ofList.symm rfl rfl

theorem get_ofScript (s : Script) (p : Projection) : (ofScript s).buffers.get p =
    (s.slots.get p).pending.elim (.ofView (s.slots.get p).active) .ofPending := by
  rw [ofScript, Dual.get_map]
  cases (s.slots.get p).pending <;> rfl

theorem get_reload (r : Reload) (o : OpenScript) (p : Projection) :
    (o.reload r).buffers.get p = if p = r.authority
      then (o.buffers.get p).reload o.waiting (r.views.get p).map
      else .ofView (r.views.get p) := Dual.get_map _ _ p

theorem markers_reload (r : Reload) (o : OpenScript) (p : Projection) :
    ((o.reload r).buffers.get p).markers = ∅ := by
  rw [get_reload]
  split <;> rfl

theorem displays_hear_reload (as : List Address) (r : Reload) (o : OpenScript) (a : Address) :
    (o.hear as (.reload r)).Displays (.ofList as) a :=
  displays_place as (markers_reload r o) rfl a

theorem Displays.showMarker (h : o.Displays set a) :
    (o.showMarker x).Displays (set.insert x) a := by
  intro p
  rw [OpenScript.showMarker, Dual.get_map]
  exact (h p).showMarker

theorem Displays.hideMarker (h : a ≠ x → o.Displays set a) :
    (o.hideMarker x).Displays (set.erase x) a := by
  intro p
  rw [OpenScript.hideMarker, Dual.get_map]
  exact Buffer.Displays.hideMarker fun hx ↦ h hx p

theorem setBuffer_buffer (o : OpenScript) : o.setBuffer o.buffer = o := by
  have hset : o.buffers.set o.authority (o.buffers.get o.authority) = o.buffers := by
    cases o.authority <;> rfl
  rw [setBuffer, buffer, hset]

theorem Displays.setBuffer {b : Buffer} (h : o.Displays set a) (hb : b.Displays set a) :
    (o.setBuffer b).Displays set a := by
  intro p
  rw [OpenScript.setBuffer, Dual.get_set]
  split
  · exact hb
  · exact h p

end OpenScript

end ScriptBreakpoints
