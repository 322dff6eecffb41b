import ScriptBreakpoints.Proofs.Aligning
import ScriptBreakpoints.Proofs.Indexing
import ScriptBreakpoints.Proofs.Normalizing
import ScriptBreakpoints.Proofs.Yielding

namespace ScriptBreakpoints

open Fallible Workspace

/-- The map of the view tells of lines of its text only. -/
def View.Inside (v : View) : Prop :=
  ∀ e ∈ v.map.entries, e.place.line < (Lines.split v.text).length

namespace Listing

theorem Assembles.lt_of_mem {line : Nat} {next : Option Address} {ls code : List (List Char)}
    {entries : List Entry} (h : Assembles line next ls code entries) :
    ∀ e ∈ entries, e.place.line < line + ls.length := by
  induction h with
  | nil => exact nofun
  | blank _ _ ih | header _ _ ih =>
    intro e he
    have hlt := ih e he
    rw [List.length_cons]
    omega
  | instruction _ _ ih =>
    rw [List.forall_mem_cons, List.length_cons]
    refine ⟨by dsimp only; omega, fun e he ↦ ?_⟩
    have hlt := ih e he
    omega

theorem inside_of_parse {text result : String} {map : SourceMap}
    (h : parse text = .ok (result, map)) : View.Inside ⟨text, map⟩ := by
  obtain ⟨code, -, hcode⟩ := assembles_of_parse h
  intro e he
  rw [Lines.split, List.length_map, ← Nat.zero_add (List.length _)]
  exact hcode.lt_of_mem e he

theorem yields_inside : compiler.Yields View.Inside where
  compile h := by
    obtain ⟨result, hparse, -⟩ := compile_eq_ok.1 h
    exact inside_of_parse hparse
  decompile {p binary v} h := by
    simp only [compiler, bind, Except.bind, pure, Except.pure] at h
    split at h
    · cases h
    · rename_i text _
      rcases hparse : parse (display p text) with e | ⟨result, map⟩
      · rw [hparse] at h
        cases h
      · rw [hparse] at h
        cases h
        exact inside_of_parse hparse

end Listing

namespace TextEdit

variable {α : Type} {e : TextEdit} {l : List α} {le : LineEdit} {i j : Nat}

/-- The line is deleted with all lines behind it, so that no line follows the deletion. -/
def Cuts (length line : Nat) : TextEdit → Prop
  | insert .. => False
  | delete start stop => start ≤ line ∧ length ≤ stop

theorem lt_of_line? (new : List String → List α)
    (hnew : ∀ lines, (new lines).length = lines.length) (h : e.lineEdit? l.length = some le)
    (hi : i < l.length) (hj : le.line? i = some j) : j < (e.splice new l).length := by
  obtain ⟨-, hget⟩ := getElem?_splice new hnew h (Nat.le_of_lt hi) hj
  rw [List.getElem?_eq_getElem hi] at hget
  exact (List.getElem?_eq_some_iff.1 hget).1

/-- What is on a line of the list stays on one, unless the edit cuts it off. -/
theorem lands_lt_iff (new : List String → List α)
    (hnew : ∀ lines, (new lines).length = lines.length) (h : e.lineEdit? l.length = some le)
    (hi : i < l.length) :
    (le.line? i).getD le.start < (e.splice new l).length ↔ ¬e.Cuts l.length i := by
  cases hj : le.line? i with
  | some j =>
    refine iff_of_true (lt_of_line? new hnew h hi hj) ?_
    cases e with
    | insert => exact id
    | delete start stop =>
      rintro ⟨hstart, hstop⟩
      simp only [lineEdit?, Option.ite_none_left_eq_some, Option.some.injEq] at h
      obtain ⟨-, rfl⟩ := h
      simp only [LineEdit.line?, Option.ite_none_left_eq_some] at hj
      omega
  | none =>
    cases e with
    | insert =>
      cases h
      cases hj
    | delete start stop =>
      obtain ⟨hle, hget⟩ := getElem?_splice_start new h
      simp only [lineEdit?, Option.ite_none_left_eq_some, Option.some.injEq] at h
      obtain ⟨-, rfl⟩ := h
      simp only [LineEdit.line?, ite_eq_left_iff, reduceCtorEq, imp_false, not_not] at hj
      have hstart : start ≤ i := by omega
      rw [Option.getD_none, Cuts, and_iff_right hstart, Nat.not_le]
      constructor
      · intro hlt
        rw [List.getElem?_eq_getElem hlt] at hget
        exact (List.getElem?_eq_some_iff.1 hget.symm).1
      · intro hlt
        rw [List.getElem?_eq_getElem hlt] at hget
        exact (List.getElem?_eq_some_iff.1 hget).1

end TextEdit

def Marks.On (t : Marks) (line : Nat) : Prop := ∃ a, t.line? a = some line

theorem Marks.on_edit {t : Marks} {e : LineEdit} {line : Nat} :
    (t.edit e).On line ↔ ∃ old, t.On old ∧ (e.line? old).getD e.start = line := by
  simp only [On, line?_edit, Option.map_eq_some_iff]
  constructor
  · rintro ⟨a, old, ha, hline⟩
    exact ⟨old, ⟨a, ha⟩, hline⟩
  · rintro ⟨old, ⟨a, ha⟩, hline⟩
    exact ⟨a, old, ha, hline⟩

theorem Marks.on_ofMap {m : SourceMap} {line : Nat} :
    (Marks.ofMap m).On line ↔ ∃ e ∈ m.entries, e.place.line = line := by
  simp only [On, line?_eq_some, SourceMap.mem_entries_ofMap]
  constructor
  · rintro ⟨-, e, he, -, hline⟩
    exact ⟨e, he, hline⟩
  · rintro ⟨e, he, hline⟩
    exact ⟨e.address, e, he, rfl, hline⟩

theorem Marks.not_on_empty {line : Nat} : ¬Marks.empty.On line := by
  rintro ⟨a, ha⟩
  rw [line?, place?, empty, Std.ExtTreeMap.getElem?_empty] at ha
  cases ha

namespace Buffer

variable {b b' : Buffer} {v : View} {e : TextEdit} {le : LineEdit} {line : Nat} {x : Address}

/-- There is a mark on the line, of those by which breakpoints are shown now or of those by which
they will be after a reload. -/
def Marked (b : Buffer) (line : Nat) : Prop :=
  b.marks.On line ∨ ∃ t, b.provisional = some t ∧ t.On line

structure Landed (b : Buffer) : Prop where
  marks : ∀ line, b.Marked line → line < b.lines.length
  markers : ∀ line ∈ b.markerLines, line < b.lines.length

theorem marked_follow :
    (b.follow le).Marked line ↔ ∃ old, b.Marked old ∧ (le.line? old).getD le.start = line := by
  simp only [Marked, follow, Marks.on_edit, Option.map_eq_some_iff]
  constructor
  · rintro (⟨old, hold, hline⟩ | ⟨-, ⟨t, ht, rfl⟩, hon⟩)
    · exact ⟨old, .inl hold, hline⟩
    · obtain ⟨old, hold, hline⟩ := Marks.on_edit.1 hon
      exact ⟨old, .inr ⟨t, ht, hold⟩, hline⟩
  · rintro ⟨old, hold | ⟨t, ht, hold⟩, hline⟩
    · exact .inl ⟨old, hold, hline⟩
    · exact .inr ⟨_, ⟨t, ht, rfl⟩, Marks.on_edit.2 ⟨old, hold, hline⟩⟩

theorem marked_of_table {waiting : Bool} (h : (b.table waiting).line? x = some line) :
    b.Marked line := by
  rw [table] at h
  split at h
  · cases hp : b.provisional with
    | none =>
      rw [hp] at h
      exact .inl ⟨x, h⟩
    | some t =>
      rw [hp] at h
      exact .inr ⟨t, hp, x, h⟩
  · exact .inl ⟨x, h⟩

theorem not_mem_markerLines (h : b.markers = ∅) : line ∉ b.markerLines := by
  intro hline
  obtain ⟨a, ha⟩ := mem_markerLines.1 hline
  rw [h, Std.ExtTreeMap.getElem?_empty] at ha
  cases ha

theorem landed_ofView (h : v.Inside) : (ofView v).Landed where
  marks line hline := by
    obtain hline | ⟨t, ht, -⟩ := hline
    · obtain ⟨e, he, rfl⟩ := Marks.on_ofMap.1 hline
      exact h e he
    · cases ht
  markers _ hline := absurd hline (not_mem_markerLines rfl)

theorem landed_ofPending (h : v.Inside) : (ofPending v).Landed where
  marks line hline := by
    obtain hline | ⟨t, ht, hline⟩ := hline
    · exact absurd hline Marks.not_on_empty
    · cases ht
      obtain ⟨e, he, rfl⟩ := Marks.on_ofMap.1 hline
      exact h e he
  markers _ hline := absurd hline (not_mem_markerLines rfl)

theorem Landed.remarked (h : b.Landed) (hb : ∃ markers, b' = { b with markers })
    (hm : ∀ (a : Address) line, b'.markers[a]? = some line →
      b.markers[a]? = some line ∨ b.Marked line) : b'.Landed := by
  obtain ⟨markers, rfl⟩ := hb
  refine ⟨h.marks, fun line hline ↦ ?_⟩
  obtain ⟨a, ha⟩ := mem_markerLines.1 hline
  obtain hold | hmarked := hm a line ha
  · exact h.markers line (mem_markerLines.2 ⟨a, hold⟩)
  · exact h.marks line hmarked

theorem marked_iff_of_settled (h : b.provisional = none) : b.Marked line ↔ b.marks.On line := by
  refine or_iff_left ?_
  rintro ⟨t, ht, -⟩
  rw [h] at ht
  cases ht

theorem marked_reload (waiting : Bool) (m : SourceMap) (b : Buffer) :
    (∃ t, waiting = true ∧ b.provisional = some t ∧
      ∀ line, (b.reload waiting m).Marked line ↔ t.On line) ∨
    (waiting = true → b.provisional = none) ∧
      ∀ line, (b.reload waiting m).Marked line ↔ ∃ e ∈ m.entries, e.place.line = line := by
  have hmarked (line : Nat) : (b.reload waiting m).Marked line ↔
      (b.reload waiting m).marks.On line := marked_iff_of_settled rfl
  simp only [hmarked]
  obtain ⟨lines, modified, marks, provisional, markers⟩ := b
  cases provisional with
  | none => exact .inr ⟨fun _ ↦ rfl, fun _ ↦ Marks.on_ofMap⟩
  | some t =>
    cases waiting with
    | false => exact .inr ⟨(absurd · Bool.false_ne_true), fun _ ↦ Marks.on_ofMap⟩
    | true => exact .inl ⟨t, rfl, rfl, fun _ ↦ Iff.rfl⟩

/-- An edit leaves all marks on the text unless it cuts some off. -/
theorem marks_change_iff (h : b.Landed) (e : TextEdit) :
    (∀ line, (b.change e).Marked line → line < (b.change e).lines.length) ↔
      ∀ line, b.Marked line → ¬e.Cuts b.lines.length line := by
  obtain ⟨hstill, hb⟩ | ⟨le, he, hb⟩ := b.change_cases e
  · rw [hb]
    refine iff_of_true h.marks fun line hline hcut ↦ ?_
    cases e with
    | insert => exact hcut
    | delete start stop =>
      obtain ⟨hstart, hstop⟩ := hcut
      have hlt := h.marks line hline
      simp only [TextEdit.lineEdit?, ite_eq_left_iff, reduceCtorEq, imp_false, not_not] at hstill
      omega
  · have hlands (line : Nat) (hline : b.Marked line) :=
      TextEdit.lands_lt_iff id (fun _ ↦ rfl) he (h.marks line hline)
    rw [hb]
    constructor
    · intro hlanded line hline
      exact (hlands line hline).1 (hlanded _ (marked_follow.2 ⟨line, hline, rfl⟩))
    · intro hall line hline
      obtain ⟨old, hold, rfl⟩ := marked_follow.1 hline
      exact (hlands old hold).2 (hall old hold)

theorem Landed.markers_change (h : b.Landed) (e : TextEdit) :
    ∀ line ∈ (b.change e).markerLines, line < (b.change e).lines.length := by
  obtain ⟨-, hb⟩ | ⟨le, he, hb⟩ := b.change_cases e <;> rw [hb]
  · exact h.markers
  · intro line hline
    obtain ⟨a, ha⟩ := mem_markerLines.1 hline
    rw [markers_follow] at ha
    obtain ⟨old, hold, hmoved⟩ := Option.bind_eq_some_iff.1 ha
    exact TextEdit.lt_of_line? id (fun _ ↦ rfl) he
      (h.markers old (mem_markerLines.2 ⟨a, hold⟩)) hmoved

end Buffer

namespace OpenScript

variable {o o' : OpenScript}

def Landed (o : OpenScript) : Prop := ∀ p, (o.buffers.get p).Landed

/-- The reload marks the text that is edited by a map, as no marks of a save wait for it. -/
def Remarks (o : OpenScript) (r : Reload) : Prop :=
  o.waiting = true → (o.buffers.get r.authority).provisional = none

namespace Landed

theorem setBuffer {b : Buffer} (h : o.Landed) (hb : b.Landed) : (o.setBuffer b).Landed := by
  intro p
  rw [OpenScript.setBuffer, Dual.get_set]
  split
  · exact hb
  · exact h p

theorem showMarker (h : o.Landed) (x : Address) : (o.showMarker x).Landed := by
  intro p
  refine (h p).remarked ((remarked_showMarker x o).2 p) fun a line ha ↦ ?_
  rw [OpenScript.showMarker, Dual.get_map, Buffer.markers_showMarker] at ha
  split at ha
  · rename_i heq
    subst heq
    obtain ha | ⟨-, ha⟩ := Option.or_eq_some_iff.1 ha
    · exact .inr (.inl ⟨a, ha⟩)
    · exact .inl ha
  · exact .inl ha

theorem hideAll (h : o.Landed) (xs : List Address) :
    (xs.foldl (fun o x ↦ o.hideMarker x) o).Landed := by
  intro p
  refine (h p).remarked ((remarked_hideAll xs o).2 p) fun a line ha ↦ ?_
  rw [markers_hideAll, Option.ite_none_left_eq_some] at ha
  exact .inl ha.2

theorem place (h : o.Landed) (as : List Address) : (o.place as).Landed := by
  intro p
  refine (h p).remarked (o.buffer_place as p) fun a line ha ↦ ?_
  rw [markers_place] at ha
  split at ha
  · obtain ha | ⟨-, ha⟩ := Option.or_eq_some_iff.1 ha
    · exact .inr (Buffer.marked_of_table ha)
    · exact .inl ha
  · exact .inl ha

theorem ofScript {s : Script} (h : s.Views View.Inside) : (ofScript s).Landed := by
  intro p
  rw [get_ofScript]
  cases hp : (s.slots.get p).pending with
  | none => exact Buffer.landed_ofView (h.active p)
  | some v => exact Buffer.landed_ofPending (h.pending hp)

theorem insertLines (h : o.Landed) (start : Nat) (new : List String) :
    (o.setBuffer (o.buffer.insertLines start new)).Landed := by
  have hb : (o.buffer.change (.insert start new)).Landed :=
    ⟨(Buffer.marks_change_iff (h o.authority) _).2 fun _ _ ↦ id,
      (h o.authority).markers_change _⟩
  exact h.setBuffer hb

/-- The marks land unless the deletion goes to the end of the text and there are marks on the
deleted lines. -/
theorem deleteLines_iff (h : o.Landed) (start stop : Nat) (removed : List Address) :
    (removed.foldl (fun o x ↦ o.hideMarker x)
      (o.setBuffer (o.buffer.deleteLines start stop).2)).Landed ↔
      ∀ line, o.buffer.Marked line → ¬(start ≤ line ∧ o.buffer.lines.length ≤ stop) := by
  have hmarks := Buffer.marks_change_iff (h o.authority) (.delete start stop)
  constructor
  · intro hall
    obtain ⟨markers, hb⟩ := (remarked_hideAll removed
      (o.setBuffer (o.buffer.deleteLines start stop).2)).2 o.authority
    have hlanded := (hall o.authority).marks
    rw [hb, OpenScript.setBuffer, Dual.get_set, if_pos rfl] at hlanded
    exact hmarks.1 hlanded
  · intro hgood
    have hb : (o.buffer.change (.delete start stop)).Landed :=
      ⟨hmarks.2 hgood, (h o.authority).markers_change _⟩
    exact (h.setBuffer hb).hideAll _

/-- The marks of a save land if the lines that it counted are there. -/
theorem saved_iff (h : o.Landed) (m : SourceMap) :
    (o.saved m).Landed ↔ ∀ e ∈ m.entries, e.place.line < o.buffer.lines.length := by
  refine ⟨fun hall e he ↦ ?_, fun hall ↦ h.setBuffer ⟨fun line hline ↦ ?_, ?_⟩⟩
  · have hmarks := (hall o.authority).marks
    rw [OpenScript.saved, OpenScript.setBuffer, Dual.get_set, if_pos rfl] at hmarks
    exact hmarks _ (.inr ⟨_, rfl, Marks.on_ofMap.2 ⟨e, he, rfl⟩⟩)
  · obtain hline | ⟨t, ht, hline⟩ := hline
    · exact (h o.authority).marks line (.inl hline)
    · cases ht
      obtain ⟨e, he, rfl⟩ := Marks.on_ofMap.1 hline
      exact hall e he
  · exact (h o.authority).markers

/-- What is generated is marked by its map. What is edited keeps its lines, and lands unless it is
marked by a map that tells of more lines. -/
theorem reload_iff (h : o.Landed) {r : Reload} (hr : ∀ p, (r.views.get p).Inside) :
    (o.reload r).Landed ↔ (o.Remarks r → ∀ e ∈ (r.views.get r.authority).map.entries,
      e.place.line < (o.buffers.get r.authority).lines.length) := by
  have hedited := o.get_reload r r.authority
  rw [if_pos rfl] at hedited
  constructor
  · intro hall hremarks e he
    have hmarks := (hall r.authority).marks
    rw [hedited] at hmarks
    obtain ⟨t, hw, ht, -⟩ | ⟨-, hmarked⟩ := Buffer.marked_reload o.waiting
      (r.views.get r.authority).map (o.buffers.get r.authority)
    · rw [hremarks hw] at ht
      cases ht
    · exact hmarks _ ((hmarked _).2 ⟨e, he, rfl⟩)
  · intro hall p
    by_cases hp : p = r.authority
    · subst hp
      refine ⟨fun line hline ↦ ?_,
        fun _ hline ↦ absurd hline (Buffer.not_mem_markerLines (markers_reload r o _))⟩
      rw [hedited] at hline ⊢
      obtain ⟨t, -, ht, hmarked⟩ | ⟨hremarks, hmarked⟩ := Buffer.marked_reload o.waiting
        (r.views.get r.authority).map (o.buffers.get r.authority)
      · exact (h r.authority).marks line (.inr ⟨t, ht, (hmarked line).1 hline⟩)
      · obtain ⟨e, he, rfl⟩ := (hmarked line).1 hline
        exact hall hremarks e he
    · rw [get_reload, if_neg hp]
      exact Buffer.landed_ofView (hr p)

theorem place_iff (hempty : ∀ p, (o.buffers.get p).markers = ∅) (as : List Address) :
    (o.place as).Landed ↔ o.Landed := by
  refine ⟨fun h p ↦ ?_, fun h ↦ h.place as⟩
  obtain ⟨markers, hb⟩ := o.buffer_place as p
  have hp := h p
  rw [hb] at hp
  exact ⟨hp.marks, fun _ hline ↦ absurd hline (Buffer.not_mem_markerLines (hempty p))⟩

end Landed

end OpenScript

namespace Session

variable {σ τ : Type} [Archive σ] [BreakpointStore τ] [LawfulStore τ] {c : Compiler}
  {archive : σ} {store : τ} {before : List Move} {s : Session σ τ} {i : Nat} {file : String}
  {o : OpenScript}

def Landed (i : Nat) (file : String) (s : Session σ τ) : Prop :=
  ∀ o, s.shown i file = some o → o.Landed

/-- A move that gets marks of a script off its text. -/
inductive Strands (c : Compiler) (i : Nat) (file : String) (s : Session σ τ) : Move → Prop
  | deleted {o : OpenScript} {projection : Projection} {start stop line : Nat} :
      s.shown i file = some o → projection = o.authority → o.buffer.Marked line →
      start ≤ line → o.buffer.lines.length ≤ stop →
      Strands c i file s (.editor i (.deleteLines file projection start stop))
  | saved {o : OpenScript} {readiness : Readiness} {compiled : Compiled} {e : Entry} :
      s.shown i file = some o →
      (move c (.editor i (.save file)) s).1 = .ok (.readiness (some readiness)) →
      c.compile o.authority o.buffer.text = .ok compiled → e ∈ compiled.map.entries →
      o.buffer.lines.length ≤ e.place.line → Strands c i file s (.editor i (.save file))
  | heard {o : OpenScript} {r : Reload} {rest : List Message} {e : Entry} :
      s.shown i file = some o → s.inbox i = .reload r :: rest → r.file = file → o.Remarks r →
      e ∈ (r.views.get r.authority).map.entries →
      (o.buffers.get r.authority).lines.length ≤ e.place.line → Strands c i file s (.next i)

omit [LawfulStore τ] in
/-- What is heard leaves all marks on the text unless it is the map of a longer one. -/
theorem landed_hear_iff {m : Message} {rest : List Message} (h : o.Landed)
    (ho : s.shown i file = some o) (hinbox : s.inbox i = m :: rest) (hm : m.file? = some file)
    (hviews : m.Views View.Inside) (as : List Address) :
    (o.hear as m).Landed ↔ ¬s.Strands c i file (.next i) := by
  have hother (hno : ∀ r, m ≠ .reload r) : ¬s.Strands c i file (.next i) := by
    intro hbad
    cases hbad with
    | heard _ hinbox' => exact hno _ (List.cons.inj (hinbox.symm.trans hinbox')).1
  cases m with
  | reload r =>
    rw [show o.hear as (.reload r) = (o.reload r).place as from rfl,
      OpenScript.Landed.place_iff (OpenScript.markers_reload r o), h.reload_iff (hviews r rfl)]
    constructor
    · intro hall hbad
      cases hbad with
      | heard ho' hinbox' _ hremarks he hoff =>
        cases ho.symm.trans ho'
        cases (List.cons.inj (hinbox.symm.trans hinbox')).1
        exact absurd (hall hremarks _ he) (Nat.not_lt.2 hoff)
    · intro hgood hremarks e he
      by_contra hoff
      exact hgood (.heard ho hinbox (Option.some.inj hm) hremarks he (Nat.not_lt.1 hoff))
  | added f x => exact iff_of_true (h.showMarker x) (hother nofun)
  | removed f x => exact iff_of_true (h.hideAll [x]) (hother nofun)
  | shutdown => cases hm

theorem landed_move_iff (hc : c.Yields View.Inside)
    (hs : s = (start archive store).after c before) {m : Move} (hm : m ≠ .editor i .runPending)
    (h : s.Landed i file) : (move c m s).2.Landed i file ↔ ¬s.Strands c i file m := by
  have hshift := shifted_move hs i file hm
  rw [Landed] at h ⊢
  generalize hv : s.shown i file = v at h hshift
  generalize (move c m s).2.shown i file = v' at hshift ⊢
  have hshown {o : OpenScript} : (∀ o', some o = some o' → o'.Landed) ↔ o.Landed :=
    ⟨fun hall ↦ hall o rfl, fun ho _ heq ↦ Option.some.inj heq ▸ ho⟩
  have hclosed (o : OpenScript) (ho : none = some o) : o.Landed := by cases ho
  cases hshift with
  | aside haside =>
    refine iff_of_true h fun hbad ↦ ?_
    cases hbad with
    | deleted | saved => exact not_aside rfl haside
    | heard _ hinbox hr => exact not_aside_next hinbox (congrArg some hr) haside
  | still hfile hidle =>
    refine iff_of_true h fun hbad ↦ ?_
    cases hbad with
    | deleted ho hp =>
      rw [← hv, ho] at hidle
      exact hidle hp
    | saved ho =>
      rw [← hv, ho] at hidle
      exact hidle
  | @heard m rest _ hinbox hfile =>
    cases v with
    | none =>
      refine iff_of_true hclosed fun hbad ↦ ?_
      cases hbad with
      | heard ho => cases hv.symm.trans ho
    | some o =>
      have hviews := (views_after hc hs).mail (i := i) (m := m) (hinbox ▸ List.mem_cons_self)
      exact hshown.trans (landed_hear_iff (h o rfl) hv hinbox hfile hviews _)
  | unopened => exact iff_of_true h fun hbad ↦ by cases hbad
  | opened _ ht =>
    have hviews := (views_after hc (move_after hs _)).workspace file _ ht
    refine iff_of_true (hshown.2 ?_) fun hbad ↦ by cases hbad
    exact (OpenScript.Landed.ofScript hviews).place _
  | closed => exact iff_of_true hclosed fun hbad ↦ by cases hbad
  | inserted =>
    exact iff_of_true (hshown.2 ((h _ rfl).insertLines _ _)) fun hbad ↦ by cases hbad
  | @deleted o start stop removed =>
    rw [hshown, (h o rfl).deleteLines_iff]
    constructor
    · intro hall hbad
      cases hbad with
      | deleted ho' _ hline hstart hstop =>
        cases hv.symm.trans ho'
        exact hall _ hline ⟨hstart, hstop⟩
    · rintro hgood line hline ⟨hstart, hstop⟩
      exact hgood (.deleted hv rfl hline hstart hstop)
  | hidden => exact iff_of_true (hshown.2 ((h _ rfl).hideAll _)) fun hbad ↦ by cases hbad
  | showed => exact iff_of_true (hshown.2 ((h _ rfl).showMarker _)) fun hbad ↦ by cases hbad
  | unsaved hno =>
    refine iff_of_true h fun hbad ↦ ?_
    cases hbad with
    | saved _ hok => exact hno _ hok
  | @saved o readiness compiled hok hcompile =>
    rw [hshown, (h o rfl).saved_iff]
    constructor
    · intro hall hbad
      cases hbad with
      | saved ho' _ hcompile' he hoff =>
        cases hv.symm.trans ho'
        cases hcompile.symm.trans hcompile'
        exact absurd (hall _ he) (Nat.not_lt.2 hoff)
    · intro hgood e he
      by_contra hoff
      exact hgood (.saved hv hok hcompile he (Nat.not_lt.1 hoff))
  | @told o =>
    have ho : OpenScript.Landed { o with lost := [] } := h o rfl
    exact iff_of_true (hshown.2 ho) fun hbad ↦ by cases hbad

/-- The marker of a breakpoint that is added comes off the text where its mark is off the text. -/
theorem marker_off_of_added (hs : s = (start archive store).after c before)
    (ho : s.shown i file = some o) {x : Address} {rest : List Message}
    (hinbox : s.inbox i = .added file x :: rest) {p : Projection} {line : Nat}
    (hx : (o.buffers.get p).marks.line? x = some line)
    (hoff : (o.buffers.get p).lines.length ≤ line) :
    ∃ o', (move c (.next i) s).2.shown i file = some o' ∧
      line ∈ (o'.buffers.get p).markerLines ∧ (o'.buffers.get p).lines.length ≤ line := by
  refine ⟨o.showMarker x, (shown_heard hs hinbox rfl).trans (by rw [ho]; rfl), ?_⟩
  obtain ⟨markers, hb⟩ := (OpenScript.remarked_showMarker x o).2 p
  refine ⟨Buffer.mem_markerLines.2 ⟨x, ?_⟩, by rw [hb]; exact hoff⟩
  rw [OpenScript.showMarker, Dual.get_map, Buffer.markers_showMarker, if_pos rfl]
  exact Option.or_eq_some_iff.2 (.inl hx)

/-- If a compiler tells of no lines but those of its texts, then all marks and markers of a script
are on lines of its texts until a move strands some: one that deletes the last lines with marks on
them, a save of lines that are none, or a reload that marks a text by the map of another one. Where
a mark is off the text, the marker of its breakpoint is so too. -/
theorem markers_on_lines_iff (hc : c.Yields View.Inside) (archive : σ) (store : τ)
    {s₀ : Session σ τ} (hs₀ : s₀ = start archive store) (i : Nat) (file : String)
    (ms : List Move) :
    s₀.after c (s₀.singly c i ms) = s₀.after c ms ∧
    ((∀ ms', ms' <+: s₀.singly c i ms → (s₀.after c ms').Landed i file) ↔
      Along c (fun s m ↦ ¬s.Strands c i file m) s₀ (s₀.singly c i ms)) ∧
    ∀ o x rest p line, (s₀.after c ms).shown i file = some o →
      (s₀.after c ms).inbox i = .added file x :: rest →
      (o.buffers.get p).marks.line? x = some line → (o.buffers.get p).lines.length ≤ line →
      ∃ o', (move c (.next i) (s₀.after c ms)).2.shown i file = some o' ∧
        line ∈ (o'.buffers.get p).markerLines ∧ (o'.buffers.get p).lines.length ≤ line := by
  have hstart : s₀ = (start archive store).after c [] := hs₀
  have hnone : s₀.Landed i file := by
    intro o ho
    rw [hs₀] at ho
    cases ho
  have halong := good_singly_iff (fun hs hm ↦ landed_move_iff hc hs hm) hstart hnone ms
  refine ⟨after_singly hstart ms, halong, fun o x rest p line ho hinbox hx hoff ↦ ?_⟩
  exact marker_off_of_added (c := c) (s := s₀.after c ms) (by rw [hs₀]) ho hinbox hx hoff

/-- A line is put in front of a text and the two lines behind it are deleted. The marker below them
goes to where its line is. -/
theorem markers_on_lines_of_edited :
    ∃ s o, s = (start (ArchiveMap.ofList [("a", Utf8.encode "routine 5\n    a\n    b\n")])
        (⟨∅, ()⟩ : Ledger Unit)).after Listing.compiler [.newEditor, .editor 0 (.openScript "a"),
          .editor 0 (.toggle "a" .primary 2), .editor 0 (.insertLines "a" .primary 0 ["// x"]),
          .editor 0 (.deleteLines "a" .primary 1 3)] ∧
      s.shown 0 "a" = some o ∧ o.Landed ∧ o.buffer.lines = ["// x", "    b", ""] ∧
      o.buffer.markerLines.toList = [1] := by
  obtain ⟨s₀, hs₀⟩ : ∃ s₀, s₀ =
      start (ArchiveMap.ofList [("a", Utf8.encode "routine 5\n    a\n    b\n")])
        (⟨∅, ()⟩ : Ledger Unit) := ⟨_, rfl⟩
  obtain ⟨ms, hms⟩ : ∃ ms : List Move, ms = [.newEditor, .editor 0 (.openScript "a"),
      .editor 0 (.toggle "a" .primary 2), .editor 0 (.insertLines "a" .primary 0 ["// x"]),
      .editor 0 (.deleteLines "a" .primary 1 3)] := ⟨_, rfl⟩
  have hshown : ((s₀.after Listing.compiler ms).shown 0 "a").map
      (fun o ↦ (o.buffer.lines, o.buffer.markerLines.toList)) =
        some (["// x", "    b", ""], [1]) := by
    rw [hs₀, hms]
    decide +kernel
  have hlength : ((s₀.after Listing.compiler (ms.take 4)).shown 0 "a").map
      (·.buffer.lines.length) = some 5 := by
    rw [hs₀, hms]
    decide +kernel
  have hkeeps : Along Listing.compiler (fun s m ↦ ¬s.Strands Listing.compiler 0 "a" m) s₀
      (s₀.singly Listing.compiler 0 ms) := by
    rw [hms] at hlength ⊢
    refine ⟨nofun, nofun, nofun, nofun, fun hbad ↦ ?_, trivial⟩
    cases hbad with
    | deleted ho _ _ _ hstop =>
      obtain ⟨o, ho', hlength⟩ := Option.map_eq_some_iff.1 hlength
      cases ho.symm.trans ho'
      rw [hlength] at hstop
      exact absurd hstop (by decide)
  obtain ⟨o, ho, heq⟩ := Option.map_eq_some_iff.1 hshown
  obtain ⟨hlines, hmarked⟩ := Prod.mk.inj heq
  obtain ⟨hsame, hlanded, -⟩ :=
    markers_on_lines_iff Listing.yields_inside _ _ hs₀ 0 "a" ms
  have hgood := hlanded.2 hkeeps _ (List.prefix_refl _)
  rw [hsame] at hgood
  exact ⟨_, o, by rw [hs₀, hms], ho, hgood o ho, hlines, hmarked⟩

/-- The last lines of a text are deleted, and then a breakpoint is added that was on them. Its
marker is on line 1 of a text of one line. -/
theorem marker_off_behind_deletion :
    ∃ s o, s = (start (ArchiveMap.ofList [("a", Utf8.encode "routine 5\n    a\n")])
        (⟨∅, ()⟩ : Ledger Unit)).after Listing.compiler [.newEditor, .editor 0 (.openScript "a"),
          .editor 0 (.deleteLines "a" .primary 1 3), .ask (.addBreakpointAt "a" ⟨5, 0⟩),
          .next 0] ∧
      s.shown 0 "a" = some o ∧ o.buffer.lines = ["routine 5"] ∧
      o.buffer.markerLines.toList = [1] := by
  obtain ⟨s, hs⟩ : ∃ s, s = (start (ArchiveMap.ofList [("a", Utf8.encode "routine 5\n    a\n")])
      (⟨∅, ()⟩ : Ledger Unit)).after Listing.compiler [.newEditor, .editor 0 (.openScript "a"),
        .editor 0 (.deleteLines "a" .primary 1 3), .ask (.addBreakpointAt "a" ⟨5, 0⟩),
        .next 0] := ⟨_, rfl⟩
  have hshown : (s.shown 0 "a").map (fun o ↦ (o.buffer.lines, o.buffer.markerLines.toList)) =
      some (["routine 5"], [1]) := by
    rw [hs]
    decide +kernel
  obtain ⟨o, ho, heq⟩ := Option.map_eq_some_iff.1 hshown
  obtain ⟨hlines, hmarked⟩ := Prod.mk.inj heq
  exact ⟨s, o, hs, ho, hlines, hmarked⟩

end Session

end ScriptBreakpoints
