import ScriptBreakpoints.Proofs.Markers

namespace ScriptBreakpoints

open Workspace

def LineEdit.through? (es : List LineEdit) (line : Nat) : Option Nat :=
  es.foldlM (fun line e ↦ e.line? line) line

theorem LineEdit.through?_append (es : List LineEdit) (e : LineEdit) (line : Nat) :
    through? (es ++ [e]) line = (through? es line).bind e.line? := by
  simp only [through?, List.foldlM_append, List.foldlM_cons, List.foldlM_nil, bind_pure]
  rfl

theorem Entry.mem_of_leftmost? {es : List Entry} {e : Entry} (h : leftmost? es = some e) :
    e ∈ es := by
  induction es generalizing e with
  | nil => cases h
  | cons f es ih =>
    simp only [leftmost?] at h
    cases hr : leftmost? es with
    | none =>
      rw [hr] at h
      cases h
      exact List.mem_cons_self
    | some g =>
      rw [hr] at h
      dsimp only at h
      split at h
      · cases h
        exact List.mem_cons_self
      · cases h
        exact .tail _ (ih hr)

namespace Marks

variable {t : Marks} {a : Address} {line : Nat}

def line? (a : Address) (t : Marks) : Option Nat := (t.place? a).map (·.line)

theorem line?_edit (e : LineEdit) (t : Marks) (a : Address) :
    (t.edit e).line? a = (t.line? a).map fun line ↦ (e.line? line).getD e.start := by
  rw [line?, place?_edit, line?]
  cases t.place? a with
  | none => rfl
  | some p =>
    simp only [Option.map_some, TextPos.after]
    cases e.line? p.line <;> rfl

theorem place?_ofMap {m : SourceMap} {e : Entry} (h : e ∈ m.entries) :
    (Marks.ofMap m).place? e.address = some e.place := by
  refine Std.ExtTreeMap.getElem?_ofList_of_mem (k := e.address) Std.compare_self ?_
    (List.mem_map_of_mem h)
  have hnodup := List.pairwise_map.1 m.nodup
  rw [List.pairwise_map]
  exact hnodup.imp fun hne heq ↦ hne (Std.compare_eq_iff_eq.1 heq)

theorem line?_ofMap {m : SourceMap} (h : m.first? line = some a) :
    (Marks.ofMap m).line? a = some line := by
  obtain ⟨e, he, rfl⟩ := List.mem_map.1 (List.mem_of_mem_head? h)
  rw [List.mem_mergeSort, List.mem_filter, decide_eq_true_eq] at he
  obtain ⟨hmem, rfl⟩ := he
  rw [line?, place?_ofMap hmem]
  rfl

theorem line?_eq_some :
    t.line? a = some line ↔ ∃ e ∈ t.entries, e.address = a ∧ e.place.line = line := by
  simp only [line?, place?, Option.map_eq_some_iff, entries, List.mem_map, Prod.exists,
    ← Std.ExtTreeMap.mem_toList_iff_getElem?_eq_some]
  constructor
  · rintro ⟨p, hp, rfl⟩
    exact ⟨⟨a, p⟩, ⟨a, p, hp, rfl⟩, rfl, rfl⟩
  · rintro ⟨-, ⟨x, p, hp, rfl⟩, rfl, rfl⟩
    exact ⟨p, hp, rfl⟩

theorem line?_of_first? (h : t.first? line = some a) : t.line? a = some line := by
  obtain ⟨e, he, rfl⟩ := Option.map_eq_some_iff.1 h
  have hmem := Entry.mem_of_leftmost? he
  rw [List.mem_filter, decide_eq_true_eq] at hmem
  exact line?_eq_some.2 ⟨e, hmem.1, rfl, hmem.2⟩

end Marks

theorem Script.authority_after {s : Script} {p : Projection} {h : Happening}
    (hs : s.authority = p) (hh : ∀ q, h = .authority q → q = p) : (s.after h).authority = p := by
  cases h with
  | authority q => exact hh q rfl
  | closedInEditor confirm =>
    simp only [after, closeInEditor]
    split
    · exact hs
    · split <;> exact hs
  | loadedInEngine =>
    simp only [after, openInEngine]
    split <;> exact hs
  | unloadedInEngine =>
    simp only [after, closeInEngine]
    split <;> exact hs
  | saved binary views => exact (s.save_authority binary views).trans hs
  | forcedReload =>
    simp only [after]
    split <;> exact hs
  | _ => exact hs

namespace Request

variable {r : Request} {s : Script} {p : Projection} {c : Compiler}

def Spares (p : Projection) : Request → Prop
  | save .. => False
  | setAuthority _ q => q = p
  | _ => True

theorem Spares.isSave (hr : r.Spares p) : r.isSave = false := by
  cases r <;> first | exact hr.elim | rfl

theorem Spares.authority (hr : r.Spares p) (hs : s.authority = p) :
    (s.after (r.turn c s)).authority = p := by
  refine Script.authority_after hs fun q hq ↦ ?_
  cases r with
  | setAuthority file q' =>
    cases hq
    exact hr
  | save => exact hr.elim
  | report e =>
    cases e with
    | loaded file reported =>
      simp only [turn, loading] at hq
      split at hq <;> cases hq
    | unloaded => cases hq
  | _ => cases hq

end Request

namespace Aspect

variable {a a' a'' : Aspect} {p : Projection} {c : Compiler} {r : Request}

def Edits (p : Projection) (a : Aspect) : Prop := ∃ s, a.script = some s ∧ s.authority = p

structure Spared (p : Projection) (a a' : Aspect) : Prop where
  edits : a'.Edits p
  mail : ∃ ms, a'.mail = a.mail ++ ms ∧ ∀ e, .reload e ∈ ms → e.authority = p

theorem Spared.refl (ha : a.Edits p) : a.Spared p a :=
  ⟨ha, [], (List.append_nil _).symm, nofun⟩

theorem Spared.trans (h : a.Spared p a') (h' : a'.Spared p a'') : a.Spared p a'' := by
  obtain ⟨ms, hmail, hms⟩ := h.mail
  obtain ⟨ms', hmail', hms'⟩ := h'.mail
  refine ⟨h'.edits, ms ++ ms', ?_, fun e he ↦ ?_⟩
  · rw [hmail', hmail, List.append_assoc]
  · exact (List.mem_append.1 he).elim (hms e) (hms' e)

theorem Asked.spared (h : a.Asked c r a') (hr : r.Spares p) (ha : a.Edits p) : a.Spared p a' := by
  obtain ⟨s, hs, hp⟩ := ha
  cases h with
  | ignored => exact .refl ⟨s, hs, hp⟩
  | found ht =>
    obtain rfl := ht.unique hs
    exact ⟨⟨_, rfl, hp⟩, [], (List.append_nil _).symm, nofun⟩
  | granted ht =>
    obtain rfl := ht.unique hs
    rename_i t
    refine ⟨⟨_, rfl, hr.authority hp⟩, _, rfl, fun e he ↦ ?_⟩
    cases hm : r.posts c t with
    | none =>
      rw [hm] at he
      cases he
    | some m =>
      rw [hm] at he
      obtain rfl := List.eq_of_mem_replicate he
      rw [Request.reload_of_posts hm]
      exact hr.authority hp

theorem Follows.spared {file : String} {asked : Request → Prop} (h : a.Follows c file asked a')
    (hasked : ∀ r, asked r → r.file = file → r.Spares p) (ha : a.Edits p) : a.Spared p a' := by
  induction h with
  | refl => exact .refl ha
  | ask _ hfile hr hstep ih => exact ih.trans (hstep.spared (hasked _ hr hfile) ih.edits)

/-- After a save the projection that was saved is the one that is edited, and nothing is posted but
the reload of what was saved. -/
theorem store_edits {t : Script} {binary : Binary} {views : Dual View} {armed : List Address} :
    (a.store t binary views armed).Edits t.authority := by
  have hauthority := t.save_authority binary views
  rw [store]
  split <;> exact ⟨_, rfl, hauthority⟩

theorem mem_mail_store {t : Script} {binary : Binary} {views : Dual View} {armed : List Address}
    {m : Message} (hm : m ∈ (a.store t binary views armed).mail) :
    m ∈ a.mail ∨ ∃ e : Reload, m = .reload e ∧ e.authority = t.authority := by
  rw [store] at hm
  split at hm
  · exact .inl hm
  · refine (List.mem_append.1 hm).imp id fun hm ↦ ?_
    exact ⟨_, List.eq_of_mem_replicate hm, t.save_authority binary views⟩

@[simp] theorem armed_store {t : Script} {binary : Binary} {views : Dual View}
    {armed : List Address} : (a.store t binary views armed).armed = .ofList armed := by
  rw [store]
  split <;> rfl

theorem Follows.listed {file : String} {asked : Request → Prop} (h : a.Follows c file asked a')
    (hasked : ∀ r, asked r → ∃ f, r = .listBreakpoints f) :
    a'.armed = a.armed ∧ a'.mail = a.mail := by
  induction h with
  | refl => exact ⟨rfl, rfl⟩
  | ask _ _ hr hstep ih =>
    obtain ⟨f, rfl⟩ := hasked _ hr
    rw [hstep.quiet (fun _ _ ↦ rfl) fun _ ↦ rfl]
    exact ih

end Aspect

theorem Buffer.reload_of_provisional {b : Buffer} {marks : Marks} {m : SourceMap}
    (h : b.provisional = some marks) :
    b.reload true m = { b with marks, provisional := none, markers := ∅ } := by
  simp only [reload, h]

/-- A reload takes the marks of the save that waits for it, or else those of its map. -/
theorem Buffer.marks_reload (waiting : Bool) (m : SourceMap) (b : Buffer) :
    (b.reload waiting m).marks =
      if waiting then b.provisional.getD (.ofMap m) else .ofMap m := by
  cases waiting <;> cases hp : b.provisional <;> simp [reload, hp]

namespace OpenScript

variable {o : OpenScript} {a a' : Aspect} {marks : Marks} {as : List Address} {e : Reload}

@[simp] theorem buffer_setBuffer (b : Buffer) : (o.setBuffer b).buffer = b :=
  Dual.get_set_self _ _ b

@[simp] theorem buffer_hideMarker (x : Address) (o : OpenScript) :
    (o.hideMarker x).buffer = o.buffer.hideMarker x := Dual.get_map _ _ _

@[simp] theorem buffer_showMarker (x : Address) (o : OpenScript) :
    (o.showMarker x).buffer = o.buffer.showMarker x := Dual.get_map _ _ _

theorem buffer_saved (m : SourceMap) : (o.saved m).buffer =
    { o.buffer with modified := false, provisional := some (.ofMap m) } := buffer_setBuffer _

theorem buffer_hear_reload (as : List Address) (he : e.authority = o.authority) :
    ∃ markers, (o.hear as (.reload e)).buffer =
      { o.buffer.reload o.waiting (e.views.get o.authority).map with markers } := by
  obtain ⟨markers, hb⟩ := (o.reload e).buffer_place as e.authority
  have hget := get_reload e o e.authority
  rw [if_pos rfl] at hget
  rw [hget] at hb
  refine ⟨markers, hb.trans ?_⟩
  rw [he]
  rfl

/-- The next reload shows the breakpoints that are armed then by `marks`. -/
structure Awaits (marks : Marks) (o : OpenScript) (a : Aspect) : Prop where
  waiting : o.waiting = true
  provisional : o.buffer.provisional = some marks
  edits : a.Edits o.authority
  reloads : ∀ e, .reload e ∈ a.mail → e.authority = o.authority

namespace Awaits

theorem spared (h : o.Awaits marks a) (ha : a.Spared o.authority a') : o.Awaits marks a' := by
  refine ⟨h.waiting, h.provisional, ha.edits, fun e he ↦ ?_⟩
  obtain ⟨ms, hmail, hms⟩ := ha.mail
  rw [hmail, List.mem_append] at he
  exact he.elim (h.reloads e) (hms e)

theorem saved {t : Script} {m : SourceMap} {binary : Binary} {views : Dual View}
    {armed : List Address} (ho : o.authority = t.authority) (hunread : ∀ e, .reload e ∉ a.mail) :
    (o.saved m).Awaits (.ofMap m) (a.store t binary views armed) := by
  refine ⟨rfl, by rw [buffer_saved], ?_, fun e he ↦ ?_⟩
  · have hedits : (a.store t binary views armed).Edits t.authority := Aspect.store_edits
    rwa [← ho] at hedits
  · obtain he | ⟨e', heq, he'⟩ := Aspect.mem_mail_store he
    · exact absurd he (hunread e)
    · cases heq
      exact he'.trans ho.symm

theorem follow (h : o.Awaits marks a) (edit : LineEdit) (lines : List String) :
    (o.setBuffer ({ o.buffer with lines }.follow edit)).Awaits (marks.edit edit) a := by
  refine ⟨h.waiting, ?_, h.edits, h.reloads⟩
  rw [buffer_setBuffer]
  simp only [Buffer.follow, h.provisional, Option.map_some]

variable (h : o.Awaits marks a) (he : e.authority = o.authority)

include h he

theorem buffer_reload :
    (o.reload e).buffer = { o.buffer with marks, provisional := none, markers := ∅ } := by
  have hget := get_reload e o e.authority
  rw [if_pos rfl, he, h.waiting] at hget
  rw [buffer, show (o.reload e).authority = o.authority from he]
  exact hget.trans (Buffer.reload_of_provisional h.provisional)

theorem markers_hear (x : Address) : (o.hear as (.reload e)).buffer.markers[x]? =
    if x ∈ as then marks.line? x else none := by
  have hbuffer := h.buffer_reload he
  have hplace := (o.reload e).markers_place as (o.reload e).authority x
  rw [show (o.reload e).buffers.get (o.reload e).authority = _ from hbuffer] at hplace
  refine hplace.trans ?_
  rw [Std.ExtTreeMap.getElem?_empty, Option.or_none]
  rfl

theorem lost_hear (hknown : ∀ x ∈ as, marks.line? x ≠ none) :
    (o.hear as (.reload e)).lost = o.lost := by
  refine lost_place as (o.reload e) fun x hx ↦ ⟨(o.reload e).authority, ?_⟩
  rw [show (o.reload e).buffers.get (o.reload e).authority = _ from h.buffer_reload he]
  exact fun hnone ↦ hknown x hx (by rw [Marks.line?]; exact Option.map_eq_none_iff.2 hnone)

end Awaits

end OpenScript

end ScriptBreakpoints
