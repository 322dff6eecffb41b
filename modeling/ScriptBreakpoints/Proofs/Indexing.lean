import ScriptBreakpoints.Proofs.Collapsing

namespace ScriptBreakpoints

namespace Entry

variable {e f : Entry}

def Before (e f : Entry) : Prop :=
  e.place.column < f.place.column ∨
    e.place.column = f.place.column ∧ compare e.address f.address = .lt

theorem before_of_leftOf (h : e.leftOf f = true) (hne : e.address ≠ f.address) : e.Before f := by
  refine (leftOf_iff.1 h).imp_right (And.imp_right fun hle ↦ ?_)
  exact (Ordering.isLE_iff_eq_lt_or_eq_eq.1 hle).resolve_right (hne <| Std.compare_eq_iff_eq.1 ·)

theorem leftOf_of_before (h : e.Before f) : e.leftOf f = true :=
  leftOf_iff.2 (h.imp_right (And.imp_right fun hlt ↦ by rw [hlt]; rfl))

end Entry

/-- The first element that occurred earlier: up to it nothing is repeated. -/
theorem firstRepeated?_eq_some {α : Type} [DecidableEq α] {seen as : List α} {a : α}
    (h : firstRepeated? seen as = some a) : ∃ before after, as = before ++ a :: after ∧
      (a ∈ before ∨ a ∈ seen) ∧ before.Nodup ∧ ∀ b ∈ before, b ∉ seen := by
  induction as generalizing seen with
  | nil => cases h
  | cons b as ih =>
    rw [firstRepeated?] at h
    split at h
    · obtain rfl := Option.some.inj h
      exact ⟨[], as, rfl, .inr ‹_›, .nil, by simp⟩
    · obtain ⟨before, after, rfl, hin, hnodup, hnew⟩ := ih h
      have hb : b ∉ before := fun hmem ↦ hnew b hmem List.mem_cons_self
      refine ⟨b :: before, after, rfl, ?_, List.nodup_cons.2 ⟨hb, hnodup⟩, ?_⟩
      · grind
      · grind

example : firstRepeated? [] [1, 2, 3, 2, 1] = some 2 := by decide

structure Indices where
  places : Std.ExtTreeMap Address TextPos
  lines : Std.ExtTreeMap Nat (List Entry)

namespace Indices

def add (i : Indices) (e : Entry) : Except Address Indices :=
  if e.address ∈ i.places then .error e.address
  else .ok {
    places := i.places.insert e.address e.place
    lines := i.lines.insert e.place.line ((i.lines[e.place.line]?).getD [] ++ [e]) }

def sorted (i : Indices) : Indices :=
  { i with lines := i.lines.map fun _ es => es.mergeSort Entry.leftOf }

def build (entries : List Entry) : Except Address Indices :=
  sorted <$> entries.foldlM add ⟨∅, ∅⟩

structure Hold (i : Indices) (es : List Entry) : Prop where
  place : ∀ a p, i.places[a]? = some p ↔ ⟨a, p⟩ ∈ es
  line : ∀ line, (i.lines[line]?).getD [] = es.filter (·.place.line = line)

variable {i i' : Indices} {e : Entry} {es : List Entry}

theorem hold_nil : Hold ⟨∅, ∅⟩ [] where
  place := by simp
  line := by simp

theorem Hold.mem_places (h : i.Hold es) {a : Address} :
    a ∈ i.places ↔ a ∈ es.map (·.address) := by
  rw [Std.ExtTreeMap.mem_iff_isSome_getElem?, Option.isSome_iff_exists, List.mem_map]
  constructor
  · rintro ⟨p, hp⟩
    exact ⟨_, (h.place a p).1 hp, rfl⟩
  · rintro ⟨e, he, rfl⟩
    exact ⟨_, (h.place _ _).2 he⟩

theorem Hold.add (h : i.Hold es) (hnew : e.address ∉ es.map (·.address)) :
    ∃ i', i.add e = .ok i' ∧ i'.Hold (es ++ [e]) := by
  rw [← h.mem_places] at hnew
  refine ⟨_, if_neg hnew, fun a p ↦ ?_, fun line ↦ ?_⟩
  · rw [Std.ExtTreeMap.getElem?_insert, List.mem_append, List.mem_singleton, ← h.place]
    split
    · rename_i heq
      obtain rfl := Std.compare_eq_iff_eq.1 heq
      rw [Std.ExtTreeMap.getElem?_eq_none hnew]
      grind [Entry]
    · rename_i hne
      rw [Std.compare_eq_iff_eq] at hne
      grind [Entry]
  · rw [Std.ExtTreeMap.getElem?_insert, List.filter_append]
    split
    · rename_i heq
      obtain rfl := Std.compare_eq_iff_eq.1 heq
      simp [h.line]
    · rename_i hne
      rw [Std.compare_eq_iff_eq] at hne
      simp [h.line, hne]

theorem Hold.add_of_mem (h : i.Hold es) (hmem : e.address ∈ es.map (·.address)) :
    i.add e = .error e.address := if_pos (h.mem_places.2 hmem)

/-- The loop stops at the first address that occurred earlier, or else it holds all entries. -/
theorem Hold.foldlM_add {seen : List Entry} (h : i.Hold seen) (rest : List Entry) :
    match firstRepeated? (seen.map (·.address)).reverse (rest.map (·.address)) with
    | some a => rest.foldlM Indices.add i = .error a
    | none => ∃ i', rest.foldlM Indices.add i = .ok i' ∧ i'.Hold (seen ++ rest) := by
  induction rest generalizing i seen with
  | nil => exact ⟨i, rfl, by simpa using h⟩
  | cons e rest ih =>
    rw [List.foldlM_cons, List.map_cons, firstRepeated?]
    by_cases hmem : e.address ∈ seen.map (·.address)
    · rw [if_pos (List.mem_reverse.2 hmem), h.add_of_mem hmem]
      rfl
    · obtain ⟨i', hadd, h'⟩ := h.add hmem
      have hih := ih h'
      rw [List.map_append, List.reverse_append, List.append_assoc] at hih
      rw [if_neg (mt List.mem_reverse.1 hmem), hadd]
      exact hih

theorem Hold.sorted_line (h : i.Hold es) (line : Nat) :
    (i.sorted.lines[line]?).getD [] =
      (es.filter (·.place.line = line)).mergeSort Entry.leftOf := by
  rw [← h.line, sorted, Std.ExtTreeMap.getElem?_map]
  cases i.lines[line]? <;> simp

end Indices

namespace SourceMap

variable {m : SourceMap} {a : Address} {line : Nat}

theorem place?_eq_some {p : TextPos} : m.place? a = some p ↔ ⟨a, p⟩ ∈ m.entries := by
  rw [place?, Option.map_eq_some_iff]
  constructor
  · rintro ⟨e, he, rfl⟩
    obtain rfl : e.address = a := by simpa using List.find?_some he
    exact List.mem_of_find?_eq_some he
  · intro h
    cases hf : m.entries.find? (·.address = a) with
    | none => exact absurd (List.find?_eq_none.1 hf _ h) (by simp)
    | some e =>
      have heq : e.address = a := by simpa using List.find?_some hf
      exact ⟨e, rfl, congrArg _ (eq_of_address (List.mem_of_find?_eq_some hf) h heq)⟩

def entriesOn (m : SourceMap) (line : Nat) : List Entry :=
  (m.entries.filter (·.place.line = line)).mergeSort Entry.leftOf

theorem mem_entriesOn {e : Entry} :
    e ∈ m.entriesOn line ↔ e ∈ m.entries ∧ e.place.line = line := by
  rw [entriesOn, List.mem_mergeSort, List.mem_filter, decide_eq_true_eq]

theorem nodup_addressesOn (m : SourceMap) (line : Nat) : (m.addressesOn line).Nodup := by
  have hline : ((m.entries.filter (·.place.line = line)).map (·.address)).Nodup :=
    m.nodup.sublist (List.filter_sublist.map _)
  exact ((List.mergeSort_perm _ _).map _).nodup_iff.2 hline

theorem pairwise_entriesOn (m : SourceMap) (line : Nat) :
    (m.entriesOn line).Pairwise Entry.Before := by
  have hsorted : (m.entriesOn line).Pairwise (Entry.leftOf · ·) :=
    List.pairwise_mergeSort Entry.leftOf_trans Entry.leftOf_total _
  have hdistinct := List.pairwise_map.1 (m.nodup_addressesOn line)
  exact (hsorted.and hdistinct).imp fun h ↦ Entry.before_of_leftOf h.1 h.2

theorem place?_ofMap : (Marks.ofMap m).place? a = m.place? a := by
  ext p
  rw [place?_eq_some, ← mem_entries_ofMap, Marks.mem_entries]

theorem first?_ofMap : (Marks.ofMap m).first? line = m.first? line := by
  have hmem {e : Entry} : e ∈ m.entriesOn line ↔
      e ∈ (Marks.ofMap m).entries ∧ e.place.line = line := by
    rw [mem_entriesOn, mem_entries_ofMap]
  have hsorted := m.pairwise_entriesOn line
  change _ = ((m.entriesOn line).map (·.address)).head?
  cases hs : m.entriesOn line with
  | nil =>
    have hnone : (Marks.ofMap m).entries.filter (·.place.line = line) = [] := by
      refine List.filter_eq_nil_iff.2 fun e he hline ↦ ?_
      have hin := hmem.2 ⟨he, of_decide_eq_true hline⟩
      rw [hs] at hin
      cases hin
    rw [Marks.first?, hnone]
    rfl
  | cons e rest =>
    rw [hs] at hmem hsorted
    obtain ⟨he, rfl⟩ := hmem.1 List.mem_cons_self
    refine (Marks.first?_eq_some_iff he).2 fun f hf hline ↦ ?_
    obtain rfl | hrest := List.mem_cons.1 (hmem.2 ⟨hf, hline⟩)
    · simpa using Entry.leftOf_total f f
    · exact Entry.leftOf_of_before (List.rel_of_pairwise_cons hsorted hrest)

structure Indexed (m : SourceMap) : Prop where
  place : ∀ a p, m.place? a = some p ↔ ⟨a, p⟩ ∈ m.entries
  contains : ∀ a, m.contains a = (m.place? a).isSome
  line : ∀ line, ∃ es : List Entry, m.addressesOn line = es.map (·.address) ∧
    (∀ e, e ∈ es ↔ e ∈ m.entries ∧ e.place.line = line) ∧ es.Pairwise Entry.Before ∧
    (m.addressesOn line).Nodup
  first : ∀ line, m.first? line = (m.addressesOn line).head?
  marked : ∀ a, (Marks.ofMap m).place? a = m.place? a
  firstMarked : ∀ line, (Marks.ofMap m).first? line = m.first? line
  /-- The loop over the entries succeeds, and its indices give the same answers. -/
  built : ∃ i, Indices.build m.entries = .ok i ∧ (∀ a, i.places[a]? = m.place? a) ∧
    ∀ line, ((i.lines[line]?).getD []).map (·.address) = m.addressesOn line

theorem exists_hold (m : SourceMap) :
    ∃ i, m.entries.foldlM Indices.add ⟨∅, ∅⟩ = .ok i ∧ i.Hold m.entries := by
  have hloop := Indices.hold_nil.foldlM_add m.entries
  rw [List.map_nil, List.reverse_nil, firstRepeated?_eq_none_iff.2 ⟨m.nodup, by simp⟩] at hloop
  exact hloop

theorem built (m : SourceMap) : ∃ i, Indices.build m.entries = .ok i ∧
    (∀ a, i.places[a]? = m.place? a) ∧
    ∀ line, ((i.lines[line]?).getD []).map (·.address) = m.addressesOn line := by
  obtain ⟨i, hi, hold⟩ := m.exists_hold
  refine ⟨i.sorted, congrArg _ hi, fun a ↦ ?_, fun line ↦ ?_⟩
  · ext p
    rw [place?_eq_some]
    exact hold.place a p
  · rw [hold.sorted_line]
    rfl

theorem indexed (m : SourceMap) : m.Indexed where
  place _ _ := place?_eq_some
  contains a := Bool.eq_iff_iff.2 (by simp [contains, place?])
  line line := ⟨m.entriesOn line, rfl, fun _ ↦ mem_entriesOn, m.pairwise_entriesOn line,
    m.nodup_addressesOn line⟩
  first _ := rfl
  marked _ := place?_ofMap
  firstMarked _ := first?_ofMap
  built := m.built

/-- Entries make a map exactly if no address occurs twice. The map answers just what they say, by
either index and by its fresh marks; and a failure names the first address that occurred earlier. -/
theorem ofEntries_indexed (entries : List Entry) :
    match ofEntries entries with
    | .ok m => (entries.map (·.address)).Nodup ∧ m.entries = entries ∧ m.Indexed
    | .error a => ¬(entries.map (·.address)).Nodup ∧ Indices.build entries = .error a ∧
        ∃ before e after, entries = before ++ e :: after ∧ e.address = a ∧
          a ∈ before.map (·.address) ∧ (before.map (·.address)).Nodup := by
  rw [ofEntries]
  split
  · rename_i h
    split at h
    · cases h
    · cases h
      exact ⟨(firstRepeated?_eq_none_iff.1 ‹_›).1, rfl, indexed _⟩
  · rename_i h
    split at h
    · rename_i a hrepeated
      cases h
      have hloop := Indices.hold_nil.foldlM_add entries
      rw [List.map_nil, List.reverse_nil, hrepeated] at hloop
      obtain ⟨before', after', heq, hin, hnodup, -⟩ := firstRepeated?_eq_some hrepeated
      obtain ⟨before, rest, rfl, rfl, hrest⟩ := List.map_eq_append_iff.1 heq
      obtain ⟨e, after, rfl, rfl, rfl⟩ := List.map_eq_cons_iff.1 hrest
      have hbefore := hin.resolve_right List.not_mem_nil
      refine ⟨fun hall ↦ ?_, congrArg _ hloop, before, e, after, rfl, rfl, hbefore, hnodup⟩
      rw [heq, List.nodup_append] at hall
      exact hall.2.2 _ hbefore _ List.mem_cons_self rfl
    · cases h

end SourceMap

end ScriptBreakpoints
