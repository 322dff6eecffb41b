import Mathlib.Data.List.Nodup
import Mathlib.Data.List.Perm.Subperm
import ScriptBreakpoints.Proofs.Indexing

namespace ScriptBreakpoints

namespace Entry

variable {e f : Entry} {es fs : List Entry}

theorem Before.not_before (h : e.Before f) : ¬f.Before e := by
  rintro (hlt | ⟨heq, hlt⟩) <;> obtain hlt' | ⟨heq', hlt'⟩ := h
  · exact Nat.lt_asymm hlt hlt'
  · exact Nat.ne_of_gt hlt heq'
  · exact Nat.ne_of_gt hlt' heq
  · exact Std.OrientedCmp.not_lt_of_lt hlt hlt'

/-- Which entry is the leftmost one does not depend on the order in which they are looked at, if no
address occurs twice. -/
theorem leftmost?_eq_of_perm (h : es.Perm fs) (hes : (es.map (·.address)).Nodup) :
    leftmost? es = leftmost? fs := by
  cases es with
  | nil => rw [h.nil_eq]
  | cons g es =>
    obtain ⟨e, he⟩ : ∃ e, leftmost? (g :: es) = some e := exists_leftmost? List.mem_cons_self
    have hmem := mem_of_leftmost? he
    obtain ⟨f, hf⟩ := exists_leftmost? (h.mem_iff.1 hmem)
    have hmem' := h.mem_iff.2 (mem_of_leftmost? hf)
    -- each of the two is left of the other, and no two addresses are
    have haddress : e.address = f.address := address_eq_of_leftOf (leftOf_of_leftmost? he hmem')
      (leftOf_of_leftmost? hf (h.mem_iff.1 hmem))
    rw [he, hf, List.inj_on_of_nodup_map hes hmem hmem' haddress]

end Entry

namespace Marks

theorem nodup_entries (t : Marks) : (t.entries.map (·.address)).Nodup := by
  rw [entries, List.map_map]
  refine List.pairwise_map.2 (Std.ExtTreeMap.distinct_keys_toList.imp fun h heq ↦ ?_)
  exact h (Std.compare_eq_iff_eq.2 heq)

theorem first?_of_perm {t : Marks} {es : List Entry} (h : es.Perm t.entries) (line : Nat) :
    (Entry.leftmost? (es.filter (·.place.line = line))).map (·.address) = t.first? line := by
  have hnodup : ((es.filter (·.place.line = line)).map (·.address)).Nodup :=
    ((h.map _).nodup_iff.2 t.nodup_entries).sublist (List.filter_sublist.map _)
  rw [first?, Entry.leftmost?_eq_of_perm (h.filter _) hnodup]

end Marks

namespace Indices

variable {i i' : Indices} {e : Entry} {es : List Entry}

def Filled (i : Indices) : Prop := ∀ line : Nat, i.lines[line]? ≠ some []

theorem Filled.add (h : i.Filled) (hadd : i.add e = .ok i') : i'.Filled := by
  intro line
  rw [Indices.add] at hadd
  split at hadd
  · cases hadd
  · cases hadd
    rw [Std.ExtTreeMap.getElem?_insert]
    split
    · simp
    · exact h line

theorem Filled.foldlM_add (h : i.Filled) (hadd : es.foldlM Indices.add i = .ok i') :
    i'.Filled := by
  induction es generalizing i with
  | nil =>
    cases hadd
    exact h
  | cons e es ih =>
    rw [List.foldlM_cons] at hadd
    cases he : i.add e with
    | error x =>
      rw [he] at hadd
      cases hadd
    | ok i₁ =>
      rw [he] at hadd
      exact ih (h.add he) hadd

theorem Filled.sorted (h : i.Filled) : i.sorted.Filled := by
  intro line hline
  rw [Indices.sorted, Std.ExtTreeMap.getElem?_map, Option.map_eq_some_iff] at hline
  obtain ⟨es, hes, hsorted⟩ := hline
  have hnil : es = [] := by
    have hlength : (es.mergeSort Entry.leftOf).length = es.length := List.length_mergeSort es
    rw [hsorted] at hlength
    exact List.eq_nil_of_length_eq_zero hlength.symm
  exact h line (hnil ▸ hes)

theorem Filled.ext (h : i.Filled) (h' : i'.Filled) (hplaces : i.places = i'.places)
    (hlines : ∀ line : Nat, (i.lines[line]?).getD [] = (i'.lines[line]?).getD []) : i = i' := by
  have hsame : i.lines = i'.lines := by
    refine Std.ExtTreeMap.ext_getElem? fun line ↦ ?_
    have hline := hlines line
    have hn := h line
    have hn' := h' line
    cases hi : i.lines[line]? <;> cases hi' : i'.lines[line]? <;> simp_all
  cases i; cases i'
  cases hplaces; cases hsame
  rfl

end Indices

namespace SourceMap

variable {a b : SourceMap}

theorem nodup_entries (m : SourceMap) : m.entries.Nodup := .of_map _ m.nodup

theorem same_iff_perm : a.same b = true ↔ a.entries.Perm b.entries := by
  rw [same, Bool.and_eq_true, decide_eq_true_eq, List.all_eq_true]
  constructor
  · rintro ⟨hsize, hall⟩
    have hsub : a.entries ⊆ b.entries := fun e he ↦
      place?_eq_some.1 (of_decide_eq_true (hall e he))
    exact (List.subperm_of_subset a.nodup_entries hsub).perm_of_length_le (Nat.le_of_eq hsize.symm)
  · intro h
    exact ⟨h.length_eq, fun e he ↦ decide_eq_true (place?_eq_some.2 (h.mem_iff.1 he))⟩

theorem perm_iff_place? : a.entries.Perm b.entries ↔ ∀ x, a.place? x = b.place? x := by
  rw [List.perm_ext_iff_of_nodup a.nodup_entries b.nodup_entries]
  constructor
  · intro h x
    ext p
    rw [place?_eq_some, place?_eq_some, h]
  · intro h e
    have he : a.place? e.address = some e.place ↔ b.place? e.address = some e.place := by rw [h]
    rwa [place?_eq_some, place?_eq_some] at he

theorem entriesOn_eq_of_perm (h : a.entries.Perm b.entries) (line : Nat) :
    a.entriesOn line = b.entriesOn line := by
  have hperm : (a.entriesOn line).Perm (b.entriesOn line) :=
    (List.mergeSort_perm _ _).trans ((h.filter _).trans (List.mergeSort_perm _ _).symm)
  refine hperm.eq_of_pairwise ?_ (a.pairwise_entriesOn line) (b.pairwise_entriesOn line)
  intro e f _ _ hef hfe
  exact absurd hfe hef.not_before

theorem first?_eq_of_perm (h : a.entries.Perm b.entries) (line : Nat) :
    a.first? line = b.first? line := by
  have hline : a.addressesOn line = b.addressesOn line :=
    congrArg (List.map _) (entriesOn_eq_of_perm h line)
  rw [first?, hline, first?]

theorem ofMap_eq_of_perm (h : a.entries.Perm b.entries) : Marks.ofMap a = Marks.ofMap b := by
  ext x : 1
  rw [place?_ofMap, place?_ofMap, perm_iff_place?.1 h]

/-- The loop over the entries ends with the same indices, in whatever order it takes the entries. -/
theorem build_eq_of_perm (h : a.entries.Perm b.entries) :
    Indices.build a.entries = Indices.build b.entries := by
  obtain ⟨i, hi, hold⟩ := a.exists_hold
  obtain ⟨j, hj, hold'⟩ := b.exists_hold
  have hempty : Indices.Filled ⟨∅, ∅⟩ := fun line ↦ by simp
  have hplaces : i.places = j.places := by
    refine Std.ExtTreeMap.ext_getElem? fun x ↦ Option.ext fun p ↦ ?_
    rw [hold.place, hold'.place, h.mem_iff]
  have hsorted : i.sorted = j.sorted := by
    refine (hempty.foldlM_add hi).sorted.ext (hempty.foldlM_add hj).sorted hplaces fun line ↦ ?_
    rw [hold.sorted_line, hold'.sorted_line]
    exact entriesOn_eq_of_perm h line
  rw [Indices.build, Indices.build, hi, hj]
  exact congrArg Except.ok hsorted

/-- Nothing that can be asked of two maps tells them apart. -/
structure Alike (a b : SourceMap) : Prop where
  size : a.size = b.size
  place : ∀ x, a.place? x = b.place? x
  contains : ∀ x, a.contains x = b.contains x
  addressesOn : ∀ line, a.addressesOn line = b.addressesOn line
  first : ∀ line, a.first? line = b.first? line
  breakpointsOn : ∀ lines, a.breakpointsOn lines = b.breakpointsOn lines
  marks : ∀ es, (Marks.ofMap a).edited es = (Marks.ofMap b).edited es
  firstMarked : ∀ es (marks : List Entry) line, marks.Perm ((Marks.ofMap a).edited es).entries →
    (Entry.leftmost? (marks.filter (·.place.line = line))).map (·.address) =
      ((Marks.ofMap b).edited es).first? line

theorem Alike.of_perm (h : a.entries.Perm b.entries) : a.Alike b where
  size := h.length_eq
  place := perm_iff_place?.1 h
  contains x := by rw [a.indexed.contains, b.indexed.contains, perm_iff_place?.1 h]
  addressesOn line := congrArg (List.map _) (entriesOn_eq_of_perm h line)
  first := first?_eq_of_perm h
  breakpointsOn lines := congrArg (lines.toList.filterMap ·) (funext (first?_eq_of_perm h))
  marks es := congrArg (Marks.edited es) (ofMap_eq_of_perm h)
  firstMarked es marks line hmarks := by
    rw [Marks.first?_of_perm hmarks, ofMap_eq_of_perm h]

/-- Maps are the same if the entries of one are those of the other in another order. Then both of
their indices are the same, although only the one by address is compared, and so is all that they
answer and all that their marks answer after any edits. -/
theorem same_iff_alike (a b : SourceMap) :
    (a.same b = true ↔ a.entries.Perm b.entries) ∧ (a.same b = true ↔ a.Alike b) ∧
      ∃ i j, Indices.build a.entries = .ok i ∧ Indices.build b.entries = .ok j ∧
        (a.same b = true ↔ i.places = j.places) ∧ (a.same b = true ↔ i = j) := by
  obtain ⟨i, hi, hplace, -⟩ := a.built
  obtain ⟨j, hj, hplace', -⟩ := b.built
  have hperm : i.places = j.places → a.entries.Perm b.entries := by
    intro h
    refine perm_iff_place?.2 fun x ↦ ?_
    rw [← hplace, ← hplace', h]
  have hsame : a.entries.Perm b.entries → i = j := by
    intro h
    rw [build_eq_of_perm h, hj] at hi
    exact (Except.ok.inj hi).symm
  rw [same_iff_perm]
  refine ⟨.rfl, ⟨.of_perm, fun h ↦ perm_iff_place?.2 h.place⟩, i, j, hi, hj, ?_, ?_⟩
  · exact ⟨fun h ↦ congrArg _ (hsame h), hperm⟩
  · exact ⟨hsame, fun h ↦ hperm (congrArg _ h)⟩

example : (⟨[⟨⟨0, 0⟩, ⟨0, 0⟩⟩, ⟨⟨0, 1⟩, ⟨1, 0⟩⟩], by decide⟩ : SourceMap).same
    ⟨[⟨⟨0, 1⟩, ⟨1, 0⟩⟩, ⟨⟨0, 0⟩, ⟨0, 0⟩⟩], by decide⟩ = true := by decide

end SourceMap

end ScriptBreakpoints
