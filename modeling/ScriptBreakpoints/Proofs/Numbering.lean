import ScriptBreakpoints.Proofs.Rebuilding

namespace ScriptBreakpoints

inductive TextEdit
  | insert (start : Nat) (new : List String)
  /-- The lines `start ≤ · < stop` go, as far as there are any. -/
  | delete (start stop : Nat)

namespace TextEdit

variable {α β : Type} {e : TextEdit} {new : List String → List α} {l : List α} {le : LineEdit}
  {i j : Nat}

/-- The list after the edit, where `new` makes elements of the lines that come. -/
def splice (e : TextEdit) (new : List String → List α) (l : List α) : List α :=
  match e with
  | insert start lines => l.take start ++ new lines ++ l.drop start
  | delete start stop => l.take start ++ l.drop (max start stop)

def lineEdit? (length : Nat) : TextEdit → Option LineEdit
  | insert start new => some (.insert (min start length) new.length)
  | delete start stop =>
    if min stop length ≤ min start length then none
    else some (.delete (min start length) (min stop length))

theorem map_splice (f : α → β) :
    (e.splice new l).map f = e.splice (fun lines ↦ (new lines).map f) (l.map f) := by
  cases e <;> simp only [splice, List.map_append, List.map_take, List.map_drop]

theorem splice_of_still (h : e.lineEdit? l.length = none) : e.splice new l = l := by
  cases e with
  | insert start lines => cases h
  | delete start stop =>
    simp only [lineEdit?, ite_eq_left_iff, reduceCtorEq, imp_false, not_not] at h
    rw [splice]
    by_cases hs : l.length ≤ start
    · rw [List.take_of_length_le hs, List.drop_eq_nil_of_le (by omega), List.append_nil]
    · rw [show max start stop = start by omega, List.take_append_drop]

/-- What stays in the list is where its line goes. -/
theorem getElem?_splice (new : List String → List α)
    (hnew : ∀ lines, (new lines).length = lines.length) (h : e.lineEdit? l.length = some le)
    (hi : i ≤ l.length) (hj : le.line? i = some j) :
    j ≤ (e.splice new l).length ∧ (e.splice new l)[j]? = l[i]? := by
  cases e with
  | insert start lines =>
    cases h
    simp only [LineEdit.line?, Option.some.injEq] at hj
    rw [splice, List.take_eq_take_min, List.drop_eq_drop_min]
    generalize hs : min start l.length = s at hj ⊢
    simp only [List.length_append, List.length_take, List.length_drop, hnew,
      List.getElem?_append, List.getElem?_take, List.getElem?_drop]
    subst hj
    split <;> refine ⟨by omega, ?_⟩
    · rw [if_neg (by omega)]
      congr 1
      omega
    · rw [if_pos (by omega), if_pos (by omega), if_pos (by omega)]
  | delete start stop =>
    simp only [lineEdit?, Option.ite_none_left_eq_some, Option.some.injEq] at h
    obtain ⟨hlt, rfl⟩ := h
    simp only [LineEdit.line?, Option.ite_none_left_eq_some, Option.some.injEq] at hj
    obtain ⟨hout, hj⟩ := hj
    have hdrop : min (max start stop) l.length = min stop l.length := by omega
    rw [splice, List.take_eq_take_min, List.drop_eq_drop_min, hdrop]
    generalize hs : min start l.length = s at hlt hout hj ⊢
    generalize ht : min stop l.length = t at hlt hout hj ⊢
    simp only [List.length_append, List.length_take, List.length_drop,
      List.getElem?_append, List.getElem?_take, List.getElem?_drop]
    subst hj
    split <;> refine ⟨by omega, ?_⟩
    · rw [if_neg (by omega)]
      congr 1
      omega
    · rw [if_pos (by omega), if_pos (by omega)]

/-- Behind the deleted lines comes what followed them. -/
theorem getElem?_splice_start (new : List String → List α) {start stop : Nat}
    (h : (delete start stop).lineEdit? l.length = some le) :
    le.start ≤ ((delete start stop).splice new l).length ∧
      ((delete start stop).splice new l)[le.start]? = l[stop]? := by
  simp only [lineEdit?, Option.ite_none_left_eq_some, Option.some.injEq] at h
  obtain ⟨hlt, rfl⟩ := h
  simp only [LineEdit.start, splice, List.length_append, List.length_take, List.length_drop,
    List.getElem?_append, List.getElem?_drop]
  refine ⟨by omega, ?_⟩
  rw [if_neg (by omega)]
  congr 1
  omega

theorem notMem_splice {start stop : Nat} {x : α} (hl : l.Nodup) (hx : l[i]? = some x)
    (hstart : start ≤ i) (hstop : i < stop) : x ∉ (delete start stop).splice new l := by
  obtain ⟨hi, -⟩ := List.getElem?_eq_some_iff.1 hx
  intro hmem
  obtain hmem | hmem := List.mem_append.1 hmem <;> obtain ⟨k, hk⟩ := List.mem_iff_getElem?.1 hmem
  · rw [List.getElem?_take, Option.ite_none_right_eq_some] at hk
    have heq := (List.getElem?_inj hi hl).1 (hx.trans hk.2.symm)
    omega
  · rw [List.getElem?_drop] at hk
    have heq := (List.getElem?_inj hi hl).1 (hx.trans hk.symm)
    omega

theorem mem_splice {x : α} (h : x ∈ e.splice new l) : x ∈ l ∨ ∃ lines, x ∈ new lines := by
  cases e with
  | insert start lines =>
    simp only [splice, List.mem_append] at h
    obtain (h | h) | h := h
    · exact .inl (List.mem_of_mem_take h)
    · exact .inr ⟨lines, h⟩
    · exact .inl (List.mem_of_mem_drop h)
  | delete start stop =>
    exact .inl ((List.mem_append.1 h).elim List.mem_of_mem_take List.mem_of_mem_drop)

end TextEdit

/-- The lines of a text, each with a number. -/
structure Roll where
  lines : List (String × Nat)
  next : Nat

namespace Roll

variable {r : Roll} {e : TextEdit} {es : List TextEdit} {s : Option Nat} {le : LineEdit}
  {i j n : Nat}

def ofLines (lines : List String) : Roll := ⟨lines.zipIdx, lines.length⟩

def text (r : Roll) : List String := r.lines.map (·.1)

def numbers (r : Roll) : List Nat := r.lines.map (·.2)

def edit (e : TextEdit) (r : Roll) : Roll where
  lines := e.splice (fun new ↦ new.zipIdx r.next) r.lines
  next := r.next + match e with
    | .insert _ new => new.length
    | .delete .. => 0

def edited (es : List TextEdit) (r : Roll) : Roll := es.foldl (fun r e ↦ r.edit e) r

/-- The line with the number `s` is line `i` of the text. The number `none` is that of the end of
the text, which stands behind the last line. -/
def At (r : Roll) (s : Option Nat) (i : Nat) : Prop := i ≤ r.lines.length ∧ r.numbers[i]? = s

/-- Where a mark goes from `s` by an edit: from a deleted line to the line that followed the
deletion, or to the end. -/
def pass (e : TextEdit) (r : Roll) (s : Option Nat) : Option Nat :=
  match e, s with
  | .delete _ stop, some n => if n ∈ (r.edit e).numbers then some n else r.numbers[stop]?
  | _, s => s

def heir : List TextEdit → Roll → Option Nat → Option Nat
  | [], _, s => s
  | e :: es, r, s => heir es (r.edit e) (r.pass e s)

structure Sound (r : Roll) : Prop where
  nodup : r.numbers.Nodup
  lt : ∀ n ∈ r.numbers, n < r.next

theorem length_numbers : r.numbers.length = r.lines.length := List.length_map _

theorem text_edit : (r.edit e).text = e.splice id r.text := by
  refine (TextEdit.map_splice _).trans (congrArg (e.splice · _) (funext fun lines ↦ ?_))
  exact List.zipIdx_map_fst _ _

theorem numbers_edit : (r.edit e).numbers =
    e.splice (fun lines ↦ List.range' r.next lines.length) r.numbers := by
  refine (TextEdit.map_splice _).trans (congrArg (e.splice · _) (funext fun lines ↦ ?_))
  exact List.zipIdx_map_snd _ _

theorem edit_of_still (h : e.lineEdit? r.lines.length = none) : r.edit e = r := by
  cases e with
  | insert => cases h
  | delete => exact congrArg (Roll.mk · r.next) (TextEdit.splice_of_still h)

theorem sound_ofLines (lines : List String) : (ofLines lines).Sound := by
  have hnumbers : (ofLines lines).numbers = List.range' 0 lines.length := List.zipIdx_map_snd _ _
  refine ⟨?_, fun n hn ↦ ?_⟩
  · rw [hnumbers]
    exact List.nodup_range'
  · rw [hnumbers, List.mem_range'_1, Nat.zero_add] at hn
    exact hn.2

theorem Sound.edit (hr : r.Sound) (e : TextEdit) : (r.edit e).Sound := by
  cases e with
  | insert start new =>
    have hnumbers : (r.edit (.insert start new)).numbers =
      r.numbers.take start ++ List.range' r.next new.length ++ r.numbers.drop start := numbers_edit
    refine ⟨?_, fun n hn ↦ ?_⟩
    · have hperm : (r.edit (.insert start new)).numbers.Perm
          (List.range' r.next new.length ++ r.numbers) := by
        rw [hnumbers, List.append_assoc]
        refine (List.perm_append_comm_assoc _ _ _).trans ?_
        rw [List.take_append_drop]
      refine hperm.nodup_iff.2 (List.nodup_append.2 ⟨List.nodup_range', hr.nodup, ?_⟩)
      rintro n hnew m hold rfl
      exact absurd (hr.lt n hold) (Nat.not_lt.2 (List.mem_range'_1.1 hnew).1)
    · show n < r.next + new.length
      rw [hnumbers, List.mem_append, List.mem_append, List.mem_range'_1] at hn
      obtain (hn | hn) | hn := hn
      · exact Nat.lt_add_right _ (hr.lt n (List.mem_of_mem_take hn))
      · exact hn.2
      · exact Nat.lt_add_right _ (hr.lt n (List.mem_of_mem_drop hn))
  | delete start stop =>
    have hnumbers : (r.edit (.delete start stop)).numbers =
      r.numbers.take start ++ r.numbers.drop (max start stop) := numbers_edit
    have hsub : (r.edit (.delete start stop)).numbers.Sublist r.numbers := by
      rw [hnumbers]
      nth_rewrite 3 [← List.take_append_drop start r.numbers]
      exact (List.Sublist.refl _).append
        (List.drop_sublist_drop_left _ (Nat.le_max_left start stop))
    exact ⟨hr.nodup.sublist hsub, fun n hn ↦ hr.lt n (hsub.subset hn)⟩

theorem Sound.edited (hr : r.Sound) (es : List TextEdit) : (r.edited es).Sound := by
  induction es generalizing r with
  | nil => exact hr
  | cons e es ih => exact ih (hr.edit e)

/-- A number that is gone does not come back. -/
theorem notMem_edited (hn : n < r.next) (hgone : n ∉ r.numbers) (es : List TextEdit) :
    n ∉ (r.edited es).numbers := by
  induction es generalizing r with
  | nil => exact hgone
  | cons e es ih =>
    refine ih (r := r.edit e) (Nat.lt_add_right _ hn) fun h ↦ ?_
    rw [numbers_edit] at h
    obtain h | ⟨lines, h⟩ := TextEdit.mem_splice h
    · exact hgone h
    · exact absurd hn (Nat.not_lt.2 (List.mem_range'_1.1 h).1)

theorem mem_numbers : n ∈ r.numbers ↔ ∃ i, r.At (some n) i := by
  rw [List.mem_iff_getElem?]
  constructor
  · rintro ⟨i, hi⟩
    obtain ⟨hlt, -⟩ := List.getElem?_eq_some_iff.1 hi
    rw [length_numbers] at hlt
    exact ⟨i, Nat.le_of_lt hlt, hi⟩
  · rintro ⟨i, hi⟩
    exact ⟨i, hi.2⟩

theorem at_end (r : Roll) : r.At none r.lines.length :=
  ⟨Nat.le_refl _, List.getElem?_eq_none_iff.2 (Nat.le_of_eq length_numbers)⟩

theorem At.unique (hr : r.Sound) (hi : r.At s i) (hj : r.At s j) : i = j := by
  cases s with
  | none =>
    have hi' := List.getElem?_eq_none_iff.1 hi.2
    have hj' := List.getElem?_eq_none_iff.1 hj.2
    rw [length_numbers] at hi' hj'
    exact (Nat.le_antisymm hi.1 hi').trans (Nat.le_antisymm hj' hj.1)
  | some n =>
    obtain ⟨hlt, -⟩ := List.getElem?_eq_some_iff.1 hi.2
    exact (List.getElem?_inj hlt hr.nodup).1 (hi.2.trans hj.2.symm)

theorem pass_of_at (h : (r.edit e).At s j) : r.pass e s = s := by
  cases e with
  | insert => rfl
  | delete =>
    cases s with
    | none => rfl
    | some n => exact if_pos (List.mem_of_getElem? h.2)

theorem At.moved (h : r.At s i) (he : e.lineEdit? r.lines.length = some le)
    (hj : le.line? i = some j) : (r.edit e).At s j := by
  obtain ⟨hlen, -⟩ := TextEdit.getElem?_splice (fun new ↦ new.zipIdx r.next)
    (fun _ ↦ List.length_zipIdx) he h.1 hj
  rw [← length_numbers] at he
  obtain ⟨-, hget⟩ := TextEdit.getElem?_splice
    (fun lines ↦ List.range' r.next lines.length) (fun _ ↦ List.length_range') he
    (by rw [length_numbers]; exact h.1) hj
  exact ⟨hlen, by rw [numbers_edit, hget, h.2]⟩

theorem At.deleted (hr : r.Sound) (h : r.At s i) (he : e.lineEdit? r.lines.length = some le)
    (hj : le.line? i = none) :
    (r.edit e).At (r.pass e s) le.start ∧ ∀ es j, ¬((r.edit e).edited es).At s j := by
  cases e with
  | insert =>
    cases he
    cases hj
  | delete start stop =>
    obtain ⟨hlen, -⟩ := TextEdit.getElem?_splice_start (fun new ↦ new.zipIdx r.next) he
    rw [← length_numbers] at he
    obtain ⟨-, hget⟩ := TextEdit.getElem?_splice_start
      (fun lines ↦ List.range' r.next lines.length) he
    simp only [TextEdit.lineEdit?, Option.ite_none_left_eq_some, Option.some.injEq] at he
    obtain ⟨-, rfl⟩ := he
    simp only [LineEdit.line?, ite_eq_left_iff, reduceCtorEq, imp_false, not_not] at hj
    have hi : i < r.numbers.length := by omega
    obtain ⟨n, hn⟩ : ∃ n, r.numbers[i]? = some n := ⟨_, List.getElem?_eq_getElem hi⟩
    obtain rfl : some n = s := hn.symm.trans h.2
    have hgone : n ∉ (r.edit (.delete start stop)).numbers := by
      rw [numbers_edit]
      exact TextEdit.notMem_splice hr.nodup hn (by omega) (by omega)
    refine ⟨⟨hlen, ?_⟩, fun es j hat ↦ ?_⟩
    · rw [numbers_edit, hget]
      exact (if_neg hgone).symm
    · have hlt : n < (r.edit (.delete start stop)).next :=
        Nat.lt_add_right _ (hr.lt n (List.mem_of_getElem? hn))
      exact notMem_edited hlt hgone es (List.mem_of_getElem? hat.2)

end Roll

def TextPos.through (es : List LineEdit) (p : TextPos) : TextPos :=
  es.foldl (fun p e ↦ p.after e) p

theorem LineEdit.through?_cons (e : LineEdit) (es : List LineEdit) (line : Nat) :
    through? (e :: es) line = (e.line? line).bind (through? es) := rfl

theorem LineEdit.lands_cons (e : LineEdit) (es : List LineEdit) (line : Nat) :
    lands (e :: es) line = lands es ((e.line? line).getD e.start) := rfl

/-- A position keeps its column as long as its line is there, and then it is at the start of a
line. -/
theorem TextPos.through_eq (es : List LineEdit) (p : TextPos) : p.through es =
    ⟨LineEdit.lands es p.line,
      if (LineEdit.through? es p.line).isSome then p.column else 0⟩ := by
  induction es generalizing p with
  | nil => rfl
  | cons e es ih =>
    refine (ih (p.after e)).trans ?_
    rw [LineEdit.through?_cons, LineEdit.lands_cons, after]
    obtain he | ⟨line, he⟩ := Option.eq_none_or_eq_some (e.line? p.line)
    · simp [he]
    · simp [he]

theorem LineEdit.lands_of_through? {es : List LineEdit} {line now : Nat}
    (h : through? es line = some now) : lands es line = now := by
  induction es generalizing line with
  | nil => exact Option.some.inj h
  | cons e es ih =>
    rw [through?_cons] at h
    obtain ⟨line', he, h⟩ := Option.bind_eq_some_iff.1 h
    rw [lands_cons, he]
    exact ih h

theorem Marks.place?_edited (es : List LineEdit) (t : Marks) (a : Address) :
    (t.edited es).place? a = (t.place? a).map (·.through es) := by
  induction es generalizing t with
  | nil => exact Option.map_id'.symm
  | cons e es ih =>
    refine (ih (t.edit e)).trans ?_
    rw [place?_edit, Option.map_map]
    rfl

namespace Buffer

variable {b b' : Buffer} {r : Roll} {e : TextEdit} {es : List TextEdit} {les : List LineEdit}
  {s : Option Nat} {i j : Nat}

def change (e : TextEdit) (b : Buffer) : Buffer :=
  match e with
  | .insert start new => b.insertLines start new
  | .delete start stop => (b.deleteLines start stop).2

def changed (es : List TextEdit) (b : Buffer) : Buffer := es.foldl (fun b e ↦ b.change e) b

theorem change_cases (e : TextEdit) (b : Buffer) :
    (e.lineEdit? b.lines.length = none ∧ b.change e = b) ∨
      ∃ le, e.lineEdit? b.lines.length = some le ∧
        b.change e = { b with lines := e.splice id b.lines }.follow le := by
  cases e with
  | insert start new =>
    refine .inr ⟨_, rfl, ?_⟩
    rw [TextEdit.splice, List.take_eq_take_min, List.drop_eq_drop_min]
    rfl
  | delete start stop =>
    by_cases h : min stop b.lines.length ≤ min start b.lines.length
    · refine .inl ⟨if_pos h, ?_⟩
      simp only [change, deleteLines, if_pos h]
    · have hdrop : min (max start stop) b.lines.length = min stop b.lines.length := by omega
      refine .inr ⟨_, if_neg h, ?_⟩
      rw [TextEdit.splice, List.take_eq_take_min, List.drop_eq_drop_min, hdrop]
      simp only [change, deleteLines, if_neg h]

/-- What some edits do to a buffer whose lines have the numbers of `r`. -/
structure Moved (les : List LineEdit) (es : List TextEdit) (r : Roll) (b b' : Buffer) : Prop where
  lines : b'.lines = (r.edited es).text
  marks : b'.marks = b.marks.edited les
  provisional : b'.provisional = b.provisional.map (·.edited les)
  markers : ∀ a : Address, b'.markers[a]? = b.markers[a]?.bind (LineEdit.through? les)
  stays : ∀ {s i}, r.At s i → ∀ j, LineEdit.through? les i = some j ↔ (r.edited es).At s j
  heir : ∀ {s i}, r.At s i → (r.edited es).At (r.heir es s) (LineEdit.lands les i)

theorem Moved.cons {le : LineEdit} (hr : r.Sound) (he : e.lineEdit? r.lines.length = some le)
    {lines : List String}
    (h : Moved les es (r.edit e) ({ b with lines }.follow le) b') :
    Moved (le :: les) (e :: es) r b b' where
  lines := h.lines
  marks := h.marks
  provisional := by
    rw [h.provisional, follow, Option.map_map]
    rfl
  markers a := by
    rw [h.markers, markers_follow, Option.bind_assoc]
    rfl
  stays {s i} hat j := by
    rw [LineEdit.through?_cons]
    cases hi : le.line? i with
    | none =>
      have hgone := (hat.deleted hr he hi).2 es j
      exact iff_of_false (Option.some_ne_none j).symm hgone
    | some i' => exact h.stays (hat.moved he hi) j
  heir {s i} hat := by
    rw [LineEdit.lands_cons]
    cases hi : le.line? i with
    | none => exact h.heir (hat.deleted hr he hi).1
    | some i' =>
      have hat' := hat.moved he hi
      rw [Roll.heir, Roll.pass_of_at hat']
      exact h.heir hat'

theorem Moved.still (he : e.lineEdit? r.lines.length = none) (h : Moved les es r b b') :
    Moved les (e :: es) r b b' := by
  have hedit : r.edit e = r := Roll.edit_of_still he
  have hedited : r.edited (e :: es) = r.edited es := congrArg (Roll.edited es) hedit
  refine ⟨hedited ▸ h.lines, h.marks, h.provisional, h.markers, hedited ▸ h.stays, ?_⟩
  intro s i hat
  have hpass : r.pass e s = s := Roll.pass_of_at (hedit.symm ▸ hat)
  rw [hedited, Roll.heir, hpass, hedit]
  exact h.heir hat

theorem exists_moved (hr : r.Sound) (hb : b.lines = r.text) (es : List TextEdit) :
    ∃ les, Moved les es r b (b.changed es) := by
  induction es generalizing r b with
  | nil =>
    refine ⟨[], hb, rfl, Option.map_id'.symm, fun a ↦ (Option.bind_fun_some _).symm, ?_, id⟩
    intro s i hi j
    exact ⟨fun h ↦ Option.some.inj h ▸ hi, fun hj ↦ congrArg some (hi.unique hr hj)⟩
  | cons e es ih =>
    have hlen : b.lines.length = r.lines.length := by rw [hb]; exact List.length_map _
    obtain ⟨he, hsame⟩ | ⟨le, he, hchange⟩ := b.change_cases e
    · rw [hlen] at he
      obtain ⟨les, h⟩ := ih hr hb
      refine ⟨les, ?_⟩
      rw [changed, List.foldl_cons, hsame]
      exact h.still he
    · rw [hlen] at he
      have hlines : (b.change e).lines = (r.edit e).text := by
        rw [hchange, Roll.text_edit, ← hb]
        rfl
      obtain ⟨les, h⟩ := ih (hr.edit e) hlines
      rw [hchange] at h
      refine ⟨le :: les, ?_⟩
      rw [changed, List.foldl_cons, hchange]
      exact h.cons hr he

end Buffer

/-- The instructions that `t` knows are known by `t'` after the edits, each where its line is now,
or at the start of the line that its own line left its marks to. -/
structure Marks.Follow (r : Roll) (es : List TextEdit) (t t' : Marks) : Prop where
  known : ∀ a, t'.place? a = none ↔ t.place? a = none
  kept : ∀ {a p}, t.place? a = some p → ∀ i, (r.edited es).At r.numbers[p.line]? i →
    t'.place? a = some ⟨i, p.column⟩
  collapsed : ∀ {a p}, t.place? a = some p → (∀ i, ¬(r.edited es).At r.numbers[p.line]? i) →
    ∃ i, (r.edited es).At (r.heir es r.numbers[p.line]?) i ∧ t'.place? a = some ⟨i, 0⟩

namespace Buffer

variable {b b' : Buffer} {r : Roll} {e : TextEdit} {es : List TextEdit} {les : List LineEdit}
  {s : Option Nat} {i j start stop : Nat} {a : Address}

structure Grounded (b : Buffer) : Prop where
  marks : ∀ a p, b.marks.place? a = some p → p.line ≤ b.lines.length
  provisional : ∀ t ∈ b.provisional, ∀ a p, t.place? a = some p → p.line ≤ b.lines.length
  markers : ∀ (a : Address) line, b.markers[a]? = some line → line ≤ b.lines.length

/-- The marks and markers of a buffer follow the lines, whose numbers are those of `r`. -/
structure Follows (r : Roll) (es : List TextEdit) (b : Buffer) : Prop where
  lines : (b.changed es).lines = (r.edited es).text
  distinct : (r.edited es).numbers.Nodup
  marks : Marks.Follow r es b.marks (b.changed es).marks
  provisional : Option.Rel (Marks.Follow r es) b.provisional (b.changed es).provisional
  markers : ∀ (a : Address) i, (b.changed es).markers[a]? = some i ↔
    ∃ i₀, b.markers[a]? = some i₀ ∧ (r.edited es).At r.numbers[i₀]? i
  told : ∀ start stop, ((b.changed es).deleteLines start stop).1.Nodup ∧
    ∀ a, a ∈ ((b.changed es).deleteLines start stop).1 ↔
      ∃ i n, b.markers[a]? = some i ∧ r.numbers[i]? = some n ∧ n ∈ (r.edited es).numbers ∧
        n ∉ ((r.edited es).edit (.delete start stop)).numbers
  gone : ∀ start stop, ∀ a ∈ ((b.changed es).deleteLines start stop).1,
    ((b.changed es).deleteLines start stop).2.markers[a]? = none

theorem nodup_deleteLines (start stop : Nat) (b : Buffer) :
    (b.deleteLines start stop).1.Nodup := by
  rw [deleteLines]
  split
  · exact .nil
  · refine List.pairwise_map.2 ?_
    refine (Std.ExtTreeMap.distinct_keys_toList.sublist List.filter_sublist).imp fun h heq ↦ ?_
    exact h (Std.compare_eq_iff_eq.2 heq)

theorem markers_deleteLines (h : a ∈ (b.deleteLines start stop).1) :
    (b.deleteLines start stop).2.markers[a]? = none := by
  obtain ⟨-, hsame⟩ | ⟨e, lines, -, hb, hmem⟩ := b.deleteLines_eq start stop
  · rw [hsame] at h
    cases h
  · obtain ⟨line, hm, hl⟩ := (hmem a).1 h
    rw [hb, markers_follow, hm]
    exact hl

theorem mem_deleteLines (hr : r.Sound) (hb : b.lines = r.text)
    (hm : ∀ line, b.markers[a]? = some line → line ≤ b.lines.length) :
    a ∈ (b.deleteLines start stop).1 ↔ ∃ i n, b.markers[a]? = some i ∧ r.numbers[i]? = some n ∧
      n ∉ (r.edit (.delete start stop)).numbers := by
  have hlen : b.lines.length = r.lines.length := by rw [hb]; exact List.length_map _
  have hdeletion : b.deletion? start stop = (TextEdit.delete start stop).lineEdit?
    b.lines.length := rfl
  rw [hlen] at hdeletion
  obtain ⟨hnone, hsame⟩ | ⟨le, lines, he, -, hmem⟩ := b.deleteLines_eq start stop
  · rw [hsame]
    rw [hdeletion] at hnone
    refine ⟨nofun, ?_⟩
    rintro ⟨i, n, -, hn, hgone⟩
    rw [Roll.edit_of_still hnone] at hgone
    exact absurd (List.mem_of_getElem? hn) hgone
  · rw [hdeletion] at he
    rw [hmem]
    constructor
    · rintro ⟨i, hi, hline⟩
      have hat : r.At r.numbers[i]? i := ⟨hlen ▸ hm i hi, rfl⟩
      have hgone := (hat.deleted hr he hline).2 []
      cases hn : r.numbers[i]? with
      | none =>
        rw [hn] at hgone
        exact absurd (Roll.at_end _) (hgone _)
      | some n =>
        rw [hn] at hgone
        exact ⟨i, n, hi, hn, fun hmem ↦ (Roll.mem_numbers.1 hmem).elim hgone⟩
    · rintro ⟨i, n, hi, hn, hgone⟩
      refine ⟨i, hi, ?_⟩
      have hat : r.At (some n) i := ⟨hlen ▸ hm i hi, hn⟩
      cases hline : le.line? i with
      | none => rfl
      | some j => exact absurd (Roll.mem_numbers.2 ⟨j, hat.moved he hline⟩) hgone

end Buffer

namespace Buffer.Moved

variable {b b' : Buffer} {r : Roll} {es : List TextEdit} {les : List LineEdit}
  {a : Address} {i start stop : Nat} (h : Moved les es r b b')

include h

theorem follow {t : Marks} (ht : ∀ a p, t.place? a = some p → p.line ≤ r.lines.length) :
    Marks.Follow r es t (t.edited les) where
  known a := by
    rw [Marks.place?_edited]
    exact Option.map_eq_none_iff
  kept {a p} hp i hi := by
    have hthrough := (h.stays ⟨ht a p hp, rfl⟩ i).2 hi
    rw [Marks.place?_edited, hp, Option.map_some, TextPos.through_eq, hthrough,
      LineEdit.lands_of_through? hthrough]
    rfl
  collapsed {a p} hp hgone := by
    have hat : r.At r.numbers[p.line]? p.line := ⟨ht a p hp, rfl⟩
    have hthrough : LineEdit.through? les p.line = none :=
      Option.eq_none_iff_forall_ne_some.2 fun i h' ↦ hgone i ((h.stays hat i).1 h')
    refine ⟨_, h.heir hat, ?_⟩
    rw [Marks.place?_edited, hp, Option.map_some, TextPos.through_eq, hthrough]
    rfl

variable (hm : ∀ (a : Address) line, b.markers[a]? = some line → line ≤ r.lines.length)

include hm

theorem markers_iff : b'.markers[a]? = some i ↔
    ∃ i₀, b.markers[a]? = some i₀ ∧ (r.edited es).At r.numbers[i₀]? i := by
  rw [h.markers, Option.bind_eq_some_iff]
  exact exists_congr fun i₀ ↦ and_congr_right fun hi₀ ↦ h.stays ⟨hm a i₀ hi₀, rfl⟩ i

theorem mem_deleteLines (hr : r.Sound) : a ∈ (b'.deleteLines start stop).1 ↔
    ∃ i n, b.markers[a]? = some i ∧ r.numbers[i]? = some n ∧ n ∈ (r.edited es).numbers ∧
      n ∉ ((r.edited es).edit (.delete start stop)).numbers := by
  have hlen : b'.lines.length = (r.edited es).lines.length := by
    rw [h.lines]
    exact List.length_map _
  have hm' (line : Nat) (hline : b'.markers[a]? = some line) : line ≤ b'.lines.length := by
    obtain ⟨_, _, hat⟩ := (h.markers_iff hm).1 hline
    exact hlen ▸ hat.1
  rw [Buffer.mem_deleteLines (hr.edited es) h.lines hm']
  constructor
  · rintro ⟨i, n, hi, hn, hgone⟩
    obtain ⟨i₀, hi₀, hat⟩ := (h.markers_iff hm).1 hi
    exact ⟨i₀, n, hi₀, hat.2.symm.trans hn, List.mem_of_getElem? hn, hgone⟩
  · rintro ⟨i₀, n, hi₀, hn, hmem, hgone⟩
    obtain ⟨i, hat⟩ := Roll.mem_numbers.1 hmem
    exact ⟨i, n, (h.markers_iff hm).2 ⟨i₀, hi₀, hn ▸ hat⟩, hat.2, hgone⟩

end Buffer.Moved

/-- Marks and markers follow their lines through all edits. A mark whose line was deleted goes to
the start of the line that followed, and then follows that one. What was shown on deleted lines is
told once, and no longer shown. -/
theorem marks_follow_lines (b : Buffer) (hb : b.Grounded) (es : List TextEdit) :
    b.Follows (.ofLines b.lines) es := by
  have hr := Roll.sound_ofLines b.lines
  have htext : b.lines = (Roll.ofLines b.lines).text := (List.zipIdx_map_fst _ _).symm
  have hlen : (Roll.ofLines b.lines).lines.length = b.lines.length := List.length_zipIdx
  obtain ⟨les, h⟩ := Buffer.exists_moved hr htext es
  have hm := hb.markers
  rw [← hlen] at hm
  refine ⟨h.lines, (hr.edited es).nodup, ?_, ?_, fun a i ↦ h.markers_iff hm,
    fun start stop ↦ ⟨Buffer.nodup_deleteLines _ _ _, fun a ↦ h.mem_deleteLines hm hr⟩,
    fun start stop a ↦ Buffer.markers_deleteLines⟩
  · rw [h.marks]
    exact h.follow (hlen ▸ hb.marks)
  · rw [h.provisional]
    cases ht : b.provisional with
    | none => exact .none
    | some t => exact .some (h.follow (hlen ▸ hb.provisional t ht))

/-- Three lines, of which the second one goes, and then all that is behind the first one. In between
there come lines behind the end, and a deletion has its ends in the wrong order. -/
theorem marks_follow_lines_to_end :
    let marks := Marks.ofMap ⟨[⟨⟨5, 0⟩, ⟨1, 4⟩⟩, ⟨⟨5, 1⟩, ⟨2, 4⟩⟩], by decide⟩
    let text : Buffer :=
      { lines := ["routine 5", "    a", "    b"], marks, provisional := some marks }
    let b := (text.mark ⟨5, 0⟩ 1).mark ⟨5, 1⟩ 2
    let es : List TextEdit := [.delete 1 2, .delete 2 0, .insert 9 ["    c"], .delete 1 7]
    b.Grounded ∧ b.Follows (.ofLines b.lines) es ∧ (b.changed es).lines = ["routine 5"] ∧
      (b.changed es).marks.place? ⟨5, 0⟩ = some ⟨1, 0⟩ := by
  intro marks text b es
  have hmarks (a : Address) (p : TextPos) (h : marks.place? a = some p) :
      p.line ≤ b.lines.length := by
    have hall : ∀ e ∈ marks.places.toList, e.2.line ≤ b.lines.length := by decide +kernel
    exact hall (a, p) (Std.ExtTreeMap.mem_toList_iff_getElem?_eq_some.2 h)
  have hmarkers (a : Address) (line : Nat) (h : b.markers[a]? = some line) :
      line ≤ b.lines.length := by
    have hall : ∀ e ∈ b.markers.toList, e.2 ≤ b.lines.length := by decide +kernel
    exact hall (a, line) (Std.ExtTreeMap.mem_toList_iff_getElem?_eq_some.2 h)
  have hb : b.Grounded := by
    refine ⟨hmarks, fun t ht ↦ ?_, hmarkers⟩
    cases ht
    exact hmarks
  exact ⟨hb, marks_follow_lines b hb es, by decide +kernel, by decide +kernel⟩

end ScriptBreakpoints
