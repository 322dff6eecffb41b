import ScriptBreakpoints.Compiler.Tokens
import ScriptBreakpoints.Proofs.Clicking
import ScriptBreakpoints.Proofs.Numbering

namespace ScriptBreakpoints

namespace Entry

variable {e f : Entry} {es : List Entry}

theorem leftOf_iff : e.leftOf f = true ↔ e.place.column < f.place.column ∨
    e.place.column = f.place.column ∧ (compare e.address f.address).isLE = true :=
  Ordering.isLE_then_iff_or.trans
    (or_congr Nat.compare_eq_lt (and_congr_left' Nat.compare_eq_eq))

theorem leftOf_total (e f : Entry) : (e.leftOf f || f.leftOf e) = true := by
  have hswap : order f e = (order e f).swap := Std.OrientedCmp.eq_swap
  rw [leftOf, leftOf, hswap]
  cases order e f <;> rfl

theorem leftOf_trans (e f g : Entry) (hef : e.leftOf f = true) (hfg : f.leftOf g = true) :
    e.leftOf g = true := Std.TransCmp.isLE_trans hef hfg

theorem address_eq_of_leftOf (hef : e.leftOf f = true) (hfe : f.leftOf e = true) :
    e.address = f.address :=
  Std.compare_eq_iff_eq.1 (compareLex_eq_eq.1 (Std.OrientedCmp.isLE_antisymm hef hfe)).2

theorem exists_leftmost? (h : e ∈ es) : ∃ f, leftmost? es = some f := by
  cases es with
  | nil => cases h
  | cons g es =>
    rw [leftmost?]
    split
    · exact ⟨g, rfl⟩
    · split <;> exact ⟨_, rfl⟩

theorem leftOf_of_leftmost? (h : leftmost? es = some e) (hf : f ∈ es) : e.leftOf f = true := by
  induction es generalizing e f with
  | nil => cases hf
  | cons g es ih =>
    have hg : g.leftOf g = true := by simpa using leftOf_total g g
    rw [leftmost?] at h
    cases hr : leftmost? es with
    | none =>
      rw [hr] at h
      cases h
      obtain rfl | hf := List.mem_cons.1 hf
      · exact hg
      · obtain ⟨_, hsome⟩ := exists_leftmost? hf
        cases hr.symm.trans hsome
    | some first =>
      rw [hr] at h
      dsimp only at h
      split at h <;> cases h <;> obtain rfl | hf := List.mem_cons.1 hf
      · exact hg
      · exact leftOf_trans _ _ _ ‹_› (ih hr hf)
      · have htotal := leftOf_total f e
        rw [Bool.or_eq_true] at htotal
        exact htotal.resolve_left ‹_›
      · exact ih hr hf

end Entry

theorem Marks.mem_entries {t : Marks} {e : Entry} :
    e ∈ t.entries ↔ t.place? e.address = some e.place := by
  rw [entries, List.mem_map, place?, ← Std.ExtTreeMap.mem_toList_iff_getElem?_eq_some]
  constructor
  · rintro ⟨_, hmem, rfl⟩
    exact hmem
  · exact fun h ↦ ⟨_, h, rfl⟩

theorem Marks.eq_of_address {t : Marks} {e f : Entry} (he : e ∈ t.entries) (hf : f ∈ t.entries)
    (h : e.address = f.address) : e = f := by
  rw [mem_entries] at he hf
  rw [h, hf] at he
  cases e; cases f; cases h; cases he
  rfl

theorem Marks.exists_first? {t : Marks} {e : Entry} (he : e ∈ t.entries) :
    ∃ f ∈ t.entries, f.place.line = e.place.line ∧ t.first? e.place.line = some f.address ∧
      ∀ g ∈ t.entries, g.place.line = e.place.line → f.leftOf g = true := by
  have hmem (f : Entry) : f ∈ t.entries.filter (·.place.line = e.place.line) ↔
      f ∈ t.entries ∧ f.place.line = e.place.line := by
    rw [List.mem_filter, decide_eq_true_eq]
  obtain ⟨f, hf⟩ := Entry.exists_leftmost? ((hmem e).2 ⟨he, rfl⟩)
  obtain ⟨hfound, hline⟩ := (hmem f).1 (Entry.mem_of_leftmost? hf)
  exact ⟨f, hfound, hline, congrArg (Option.map _) hf, fun g hg hl ↦
    Entry.leftOf_of_leftmost? hf ((hmem g).2 ⟨hg, hl⟩)⟩

/-- An instruction on a line is the leftmost mark there if it stands left of all others. -/
theorem Marks.first?_eq_some_iff {t : Marks} {e : Entry} (he : e ∈ t.entries) :
    t.first? e.place.line = some e.address ↔
      ∀ f ∈ t.entries, f.place.line = e.place.line → e.leftOf f = true := by
  obtain ⟨first, hfound, hline, hfirst, hleft⟩ := exists_first? he
  rw [hfirst, Option.some.injEq]
  constructor
  · intro heq f hf hl
    obtain rfl := eq_of_address hfound he heq
    exact hleft f hf hl
  · exact fun h ↦ Entry.address_eq_of_leftOf (hleft e he rfl) (h first hfound hline)

namespace SourceMap

variable {m : SourceMap} {e f : Entry} {line : Nat}

theorem mem_entries_ofMap : e ∈ (Marks.ofMap m).entries ↔ e ∈ m.entries := by
  have hof {f : Entry} (hf : f ∈ m.entries) : f ∈ (Marks.ofMap m).entries :=
    Marks.mem_entries.2 (Marks.place?_ofMap hf)
  refine ⟨fun h ↦ ?_, hof⟩
  have hmem := Std.ExtTreeMap.mem_iff_isSome_getElem?.2
    (Option.isSome_of_mem (Marks.mem_entries.1 h))
  rw [Marks.ofMap, Std.ExtTreeMap.mem_ofList, List.contains_iff_mem, List.map_map] at hmem
  obtain ⟨f, hf, heq⟩ := List.mem_map.1 hmem
  obtain rfl := Marks.eq_of_address (hof hf) h heq
  exact hf

theorem eq_of_address (he : e ∈ m.entries) (hf : f ∈ m.entries) (h : e.address = f.address) :
    e = f :=
  Marks.eq_of_address (mem_entries_ofMap.2 he) (mem_entries_ofMap.2 hf) h

theorem leftOf_of_first? (he : e ∈ m.entries) (h : m.first? line = some e.address) :
    e.place.line = line ∧ ∀ f ∈ m.entries, f.place.line = line → e.leftOf f = true := by
  rw [first?, addressesOn] at h
  have hmem (f : Entry) : f ∈ (m.entries.filter (·.place.line = line)).mergeSort Entry.leftOf ↔
      f ∈ m.entries ∧ f.place.line = line := by
    rw [List.mem_mergeSort, List.mem_filter, decide_eq_true_eq]
  have hsorted := List.pairwise_mergeSort Entry.leftOf_trans Entry.leftOf_total
    (m.entries.filter (·.place.line = line))
  cases hs : (m.entries.filter (·.place.line = line)).mergeSort Entry.leftOf with
  | nil =>
    rw [hs] at h
    cases h
  | cons first rest =>
    simp only [hs] at h hmem hsorted
    obtain ⟨hfirst, hline⟩ := (hmem first).1 List.mem_cons_self
    obtain rfl := eq_of_address hfirst he (Option.some.inj h)
    refine ⟨hline, fun f hf hl ↦ ?_⟩
    obtain rfl | hrest := List.mem_cons.1 ((hmem f).2 ⟨hf, hl⟩)
    · simpa using Entry.leftOf_total f f
    · exact List.rel_of_pairwise_cons hsorted hrest

end SourceMap

theorem LineEdit.line?_inj {e : LineEdit} {i j k : Nat} (hi : e.line? i = some k)
    (hj : e.line? j = some k) : i = j := by
  cases e with
  | insert =>
    simp only [line?, Option.some.injEq] at hi hj
    split at hi <;> split at hj <;> omega
  | delete =>
    simp only [line?, Option.ite_none_left_eq_some, Option.some.injEq] at hi hj
    obtain ⟨hi, hk⟩ := hi
    obtain ⟨hj, hk'⟩ := hj
    split at hk <;> split at hk' <;> omega

theorem LineEdit.through?_inj {es : List LineEdit} {i j k : Nat} (hi : through? es i = some k)
    (hj : through? es j = some k) : i = j := by
  induction es generalizing i j with
  | nil => exact (Option.some.inj hi).trans (Option.some.inj hj).symm
  | cons e es ih =>
    rw [through?_cons] at hi hj
    obtain ⟨i', hi', hi⟩ := Option.bind_eq_some_iff.1 hi
    obtain ⟨j', hj', hj⟩ := Option.bind_eq_some_iff.1 hj
    obtain rfl := ih hi hj
    exact line?_inj hi' hj'

namespace Entry

variable {m : SourceMap} {e f : Entry} {es : List LineEdit} {now : Nat}

def through (es : List LineEdit) (e : Entry) : Entry := { e with place := e.place.through es }

/-- The line of the instruction was deleted, and its mark is now at the start of line `now`. -/
structure Collapsed (es : List LineEdit) (now : Nat) (e : Entry) : Prop where
  deleted : LineEdit.through? es e.place.line = none
  lands : LineEdit.lands es e.place.line = now

instance : Decidable (e.Collapsed es now) :=
  decidable_of_iff (LineEdit.through? es e.place.line = none ∧
      LineEdit.lands es e.place.line = now)
    ⟨fun h ↦ ⟨h.1, h.2⟩, fun h ↦ ⟨h.deleted, h.lands⟩⟩

theorem through_of_through? (h : LineEdit.through? es e.place.line = some now) :
    e.through es = ⟨e.address, now, e.place.column⟩ := by
  rw [through, TextPos.through_eq, h, LineEdit.lands_of_through? h]
  rfl

theorem Collapsed.through_eq (h : e.Collapsed es now) : e.through es = ⟨e.address, now, 0⟩ := by
  rw [through, TextPos.through_eq, h.deleted, h.lands]
  rfl

theorem mem_edited : e ∈ ((Marks.ofMap m).edited es).entries ↔
    ∃ f ∈ m.entries, f.through es = e := by
  rw [Marks.mem_entries, Marks.place?_edited, Option.map_eq_some_iff]
  constructor
  · rintro ⟨p, hp, hthrough⟩
    exact ⟨⟨e.address, p⟩, SourceMap.mem_entries_ofMap.1 (Marks.mem_entries.2 hp), by
      rw [through, hthrough]⟩
  · rintro ⟨f, hf, rfl⟩
    exact ⟨f.place, Marks.mem_entries.1 (SourceMap.mem_entries_ofMap.2 hf), rfl⟩

/-- What is marked on a line that is there from the start was compiled from it, or has collapsed
onto it. -/
theorem line_or_collapsed (he : LineEdit.through? es e.place.line = some now)
    (hf : (f.through es).place.line = now) :
    (f.place.line = e.place.line ∧ f.through es = ⟨f.address, now, f.place.column⟩) ∨
      f.Collapsed es now := by
  rw [through, TextPos.through_eq] at hf
  cases hthrough : LineEdit.through? es f.place.line with
  | none => exact .inr ⟨hthrough, hf⟩
  | some line =>
    obtain rfl : line = now := (LineEdit.lands_of_through? hthrough).symm.trans hf
    exact .inl ⟨LineEdit.through?_inj hthrough he, through_of_through? hthrough⟩

theorem leftOf_collapsed (hne : e.address ≠ f.address) :
    Entry.leftOf ⟨e.address, now, e.place.column⟩ ⟨f.address, now, 0⟩ = true ↔
      e.place.column = 0 ∧ compare e.address f.address = .lt := by
  rw [leftOf_iff, or_iff_right (Nat.not_lt_zero _), Ordering.isLE_iff_eq_lt_or_eq_eq]
  exact and_congr_right fun _ ↦ or_iff_left fun heq ↦ hne (Std.compare_eq_iff_eq.1 heq)

variable (he : e ∈ m.entries) (hnow : LineEdit.through? es e.place.line = some now)

include he hnow

theorem own_mem_edited :
    ⟨e.address, now, e.place.column⟩ ∈ ((Marks.ofMap m).edited es).entries :=
  mem_edited.2 ⟨e, he, through_of_through? hnow⟩

variable (hfirst : m.first? e.place.line = some e.address)

include hfirst

/-- The leftmost instruction of a line is the leftmost mark of that line as long as nothing has
collapsed onto it, but for later instructions in front of which it stands at column 0. -/
theorem first?_edited_iff : ((Marks.ofMap m).edited es).first? now = some e.address ↔
    ∀ f ∈ m.entries, f.Collapsed es now →
      e.place.column = 0 ∧ compare e.address f.address = .lt := by
  rw [Marks.first?_eq_some_iff (own_mem_edited he hnow)]
  constructor
  · intro h f hf hcollapsed
    have hleft := h _ (mem_edited.2 ⟨f, hf, rfl⟩) (by rw [hcollapsed.through_eq])
    rw [hcollapsed.through_eq] at hleft
    refine (leftOf_collapsed fun heq ↦ ?_).1 hleft
    obtain rfl := SourceMap.eq_of_address he hf heq
    cases hnow.symm.trans hcollapsed.deleted
  · intro h f' hf' hline
    obtain ⟨f, hf, rfl⟩ := mem_edited.1 hf'
    obtain ⟨hsame, hf'⟩ | hcollapsed := line_or_collapsed hnow hline
    · rw [hf', leftOf_iff]
      exact leftOf_iff.1 ((SourceMap.leftOf_of_first? he hfirst).2 f hf hsame)
    · rw [hcollapsed.through_eq, leftOf_iff]
      obtain ⟨hcolumn, hlt⟩ := h f hf hcollapsed
      exact .inr ⟨hcolumn, Ordering.isLE_iff_eq_lt_or_eq_eq.2 (.inl hlt)⟩

/-- The leftmost mark of a line is its own leftmost instruction or one that collapsed onto it. -/
theorem exists_first?_edited : ∃ f ∈ m.entries,
    ((Marks.ofMap m).edited es).first? now = some f.address ∧ (f = e ∨ f.Collapsed es now) := by
  have hown := own_mem_edited he hnow
  obtain ⟨f', hf', hline, hf₁, hleft⟩ := Marks.exists_first? hown
  obtain ⟨f, hf, rfl⟩ := mem_edited.1 hf'
  refine ⟨f, hf, hf₁, ?_⟩
  obtain ⟨hsame, hf'⟩ | hcollapsed := line_or_collapsed hnow hline
  · refine .inl (SourceMap.eq_of_address hf he (address_eq_of_leftOf ?_ ?_))
    · -- within a line the order looks at columns and addresses only, and edits keep both
      have hfe := hleft _ hown rfl
      rw [hf'] at hfe
      exact leftOf_iff.2 (leftOf_iff.1 hfe)
    · exact (SourceMap.leftOf_of_first? he hfirst).2 f hf hsame
  · exact .inr hcollapsed

end Entry

open Session in
/-- In whatever session `t` has become the marks of the text that is edited, a click beside line
`line` that succeeds arms the instruction `x` and no other, unless a breakpoint is shown there. -/
def Marks.ClickArms (t : Marks) (line : Nat) (x : Address) : Prop :=
  ∀ {σ τ : Type} [Archive σ] [BreakpointStore τ] [LawfulStore τ] (c : Compiler) (archive : σ)
    (store : τ) (es : List Event) {s s' : Session σ τ} {i : Nat} {file : String} {o : OpenScript},
    s = es.foldl (undergo c) (Session.start archive store) → s.shown i file = some o →
    o.buffer.marks = t → o.buffer.markersOn line = [] →
    s.step c (.editor i (.toggle file o.authority line)) = (.ok .done, s') →
    ∀ y, y ∈ s'.armed file ↔ y = x ∨ y ∈ s.armed file

theorem Marks.clickArms_of_first? {t : Marks} {line : Nat} {x : Address}
    (hx : t.first? line = some x) : t.ClickArms line x := by
  intro σ τ _ _ _ c archive store es s s' i file o hs ho hmarks hline hclick y
  have hpins : s.Pins file := hs ▸ (Session.pins_start archive store file).after es
  obtain ⟨result, s'', o', hstep, -, hclicked, -⟩ := hpins.toggle (c := c) ho line
  obtain ⟨rfl, rfl⟩ := Prod.mk.inj (hclick.symm.trans hstep)
  rw [← hmarks] at hx
  by_cases hy : y = x
  · obtain ⟨-, harmed, -⟩ := hclicked.shown rfl hline y (hy ▸ hx)
    exact iff_of_true harmed (.inl hy)
  · have hsame := hclicked.same y (by rw [hline]; exact List.not_mem_nil)
      fun h ↦ hy (Option.some.inj (h.2.2.symm.trans hx))
    rw [hsame.1, or_iff_right hy]

namespace Session

/-- A click beside a line that was never deleted, now line `now`, arms one instruction: the leftmost
one of that line, or one of a deleted line that has collapsed onto it. It is the line's own exactly
if that stands at column 0 and comes before all those that have collapsed onto it. -/
theorem own_instruction_clicked_iff {m : SourceMap} {e : Entry} {es : List LineEdit} {now : Nat}
    (he : e ∈ m.entries) (hfirst : m.first? e.place.line = some e.address)
    (hnow : LineEdit.through? es e.place.line = some now) :
    ∃ f ∈ m.entries, ((Marks.ofMap m).edited es).first? now = some f.address ∧
      ((Marks.ofMap m).edited es).ClickArms now f.address ∧ (f = e ∨ f.Collapsed es now) ∧
      (f = e ↔ ∀ g ∈ m.entries, g.Collapsed es now →
        e.place.column = 0 ∧ compare e.address g.address = .lt) := by
  obtain ⟨f, hf, hf₁, hown⟩ := Entry.exists_first?_edited he hnow hfirst
  refine ⟨f, hf, hf₁, Marks.clickArms_of_first? hf₁, hown, ?_⟩
  rw [← Entry.first?_edited_iff he hnow hfirst, hf₁, Option.some.injEq]
  exact ⟨fun h ↦ h ▸ rfl, SourceMap.eq_of_address hf he⟩

/-- The first of two lines is deleted. Its instruction stays behind the other one, which starts its
line and comes before it. -/
theorem own_instruction_clicked_at_column_zero : ∃ s o s', s = ([.command .newEditor,
      .command (.editor 0 (.openScript "a")),
      .command (.editor 0 (.deleteLines "a" .primary 0 1))] : List Event).foldl
      (undergo Tokens.compiler) (Session.start
        (ArchiveMap.ofList [("a", Utf8.encode "5:1\n5:0\n")]) (⟨∅, ()⟩ : Ledger Unit)) ∧
    s.shown 0 "a" = some o ∧ o.buffer.marks.place? ⟨5, 1⟩ = some ⟨0, 0⟩ ∧
    o.buffer.marks.first? 0 = some ⟨5, 0⟩ ∧
    s.step Tokens.compiler (.editor 0 (.toggle "a" .primary 0)) = (.ok .done, s') ∧
    ∀ y, y ∈ s'.armed "a" ↔ y = ⟨5, 0⟩ ∨ y ∈ s.armed "a" := by
  obtain ⟨s, hs⟩ : ∃ s, s = ([.command .newEditor, .command (.editor 0 (.openScript "a")),
      .command (.editor 0 (.deleteLines "a" .primary 0 1))] : List Event).foldl
      (undergo Tokens.compiler) (Session.start
        (ArchiveMap.ofList [("a", Utf8.encode "5:1\n5:0\n")]) (⟨∅, ()⟩ : Ledger Unit)) := ⟨_, rfl⟩
  let m : SourceMap := ⟨[⟨⟨5, 1⟩, ⟨0, 0⟩⟩, ⟨⟨5, 0⟩, ⟨1, 0⟩⟩], by decide⟩
  have hshown : (s.shown 0 "a").map (fun o ↦ (o.authority, o.buffer.markersOn 0,
      o.buffer.marks)) = some (.primary, [], (Marks.ofMap m).edited [.delete 0 1]) := by
    rw [hs]
    decide +kernel
  have hdone : isDone (s.step Tokens.compiler (.editor 0 (.toggle "a" .primary 0))).1 = true := by
    rw [hs]
    decide +kernel
  obtain ⟨o, ho, heq⟩ := Option.map_eq_some_iff.1 hshown
  simp only [Prod.mk.injEq] at heq
  obtain ⟨hauthority, hline, hmarks⟩ := heq
  have hnow : LineEdit.through? [.delete 0 1] (⟨⟨5, 0⟩, ⟨1, 0⟩⟩ : Entry).place.line = some 0 := by
    decide
  obtain ⟨f, -, hfirst, harms, -, hiff⟩ := own_instruction_clicked_iff (m := m) (by decide)
    (by decide +kernel) hnow
  obtain rfl := hiff.2 (by decide)
  have hstep : s.step Tokens.compiler (.editor 0 (.toggle "a" o.authority 0)) = (.ok .done, _) :=
    Prod.ext (by rw [hauthority]; exact isDone_iff.1 hdone) rfl
  refine ⟨s, o, _, hs, ho, ?_, hmarks ▸ hfirst, hauthority ▸ hstep,
    harms Tokens.compiler _ _ _ hs ho hmarks hline hstep⟩
  rw [hmarks]
  decide +kernel

/-- Of two indented lines the first one is deleted. A click beside the other one arms the
instruction of the deleted line. -/
theorem deleted_instruction_clicked :
    let m : SourceMap := ⟨[⟨⟨5, 0⟩, ⟨1, 4⟩⟩, ⟨⟨5, 1⟩, ⟨2, 4⟩⟩], by decide⟩
    m.first? 2 = some ⟨5, 1⟩ ∧ LineEdit.through? [.delete 1 2] 2 = some 1 ∧
    ∃ s o s', s = ([.command .newEditor, .command (.editor 0 (.openScript "a")),
        .command (.editor 0 (.deleteLines "a" .primary 1 2))] : List Event).foldl
        (undergo Listing.compiler) (Session.start
          (ArchiveMap.ofList [("a", Utf8.encode "routine 5\n    a\n    b\n")])
          (⟨∅, ()⟩ : Ledger Unit)) ∧
      s.shown 0 "a" = some o ∧ o.authority = .primary ∧
      o.buffer.lines = ["routine 5", "    b", ""] ∧
      o.buffer.marks = (Marks.ofMap m).edited [.delete 1 2] ∧
      s.step Listing.compiler (.editor 0 (.toggle "a" .primary 1)) = (.ok .done, s') ∧
      (⟨5, 0⟩ : Address) ∈ s'.armed "a" ∧ (⟨5, 1⟩ : Address) ∉ s'.armed "a" := by
  intro m
  obtain ⟨s, hs⟩ : ∃ s, s = ([.command .newEditor, .command (.editor 0 (.openScript "a")),
      .command (.editor 0 (.deleteLines "a" .primary 1 2))] : List Event).foldl
      (undergo Listing.compiler) (Session.start
        (ArchiveMap.ofList [("a", Utf8.encode "routine 5\n    a\n    b\n")])
        (⟨∅, ()⟩ : Ledger Unit)) := ⟨_, rfl⟩
  have hshown : (s.shown 0 "a").map (fun o ↦ (o.authority, o.buffer.lines, o.buffer.marks)) =
      some (.primary, ["routine 5", "    b", ""], (Marks.ofMap m).edited [.delete 1 2]) := by
    rw [hs]
    decide +kernel
  obtain ⟨o, ho, heq⟩ := Option.map_eq_some_iff.1 hshown
  simp only [Prod.mk.injEq] at heq
  obtain ⟨hauthority, hlines, hmarks⟩ := heq
  refine ⟨by decide +kernel, by decide, s, o, _, hs, ho, hauthority, hlines, hmarks,
    Prod.ext (isDone_iff.1 ?_) rfl, ?_, ?_⟩
  · rw [hs]
    decide +kernel
  · rw [hs]
    decide +kernel
  · rw [hs]
    decide +kernel

end Session

end ScriptBreakpoints
