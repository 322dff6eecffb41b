import ScriptBreakpoints.Compiler.Listing
import ScriptBreakpoints.Proofs.Working

namespace ScriptBreakpoints

open Fallible Workspace

def SourceMap.markedLines (m : SourceMap) (marked : LineSet) : LineSet :=
  .ofList (marked.toList.filter fun line ↦ (m.first? line).isSome)

def LineEdit.moved (e : LineEdit) (lines : LineSet) : LineSet :=
  .ofList (lines.toList.filterMap e.line?)

/-- The lines that are to have breakpoints after an editor was asked something about a script, where
`lines` were to have them before. -/
def EditorRequest.intends (o : OpenScript) (lines : LineSet) : EditorRequest → LineSet
  | toggle _ projection line =>
    if projection ≠ o.authority then lines
    else if o.buffer.markersOn line ≠ [] then lines.erase line
    else if o.buffer.marks.first? line = none then lines
    else lines.insert line
  | r => (r.lineEdit? o).elim lines fun e ↦ e.moved lines

theorem EditorRequest.intends_eq {o : OpenScript} {lines : LineSet} {r : EditorRequest}
    (hr : ∀ file projection line, r ≠ .toggle file projection line) :
    r.intends o lines = (r.lineEdit? o).elim lines fun e ↦ e.moved lines := by
  cases r with
  | toggle file projection line => exact absurd rfl (hr file projection line)
  | _ => rfl

/-- News about a script that can be heard before its reload: it was not overtaken by a change. -/
def Message.Timely (armed : Std.ExtTreeSet Address) : Message → Prop
  | reload _ => False
  | removed _ x => x ∉ armed
  | _ => True

theorem SourceMap.mem_markedLines {m : SourceMap} {marked : LineSet} {line : Nat} :
    line ∈ m.markedLines marked ↔ line ∈ marked ∧ ∃ x, m.first? line = some x := by
  rw [markedLines, mem_ofList, List.mem_filter, Std.ExtTreeSet.mem_toList,
    Option.isSome_iff_exists]

theorem LineEdit.mem_moved {e : LineEdit} {lines : LineSet} {line : Nat} :
    line ∈ e.moved lines ↔ ∃ old ∈ lines, e.line? old = some line := by
  rw [moved, mem_ofList, List.mem_filterMap]
  exact exists_congr fun old ↦ and_congr_left fun _ ↦ Std.ExtTreeSet.mem_toList

namespace OpenScript

variable {o o' : OpenScript} {a a' : Aspect} {marks : Marks} {p : Projection} {lines : LineSet}
  {except : List Address} {x : Address} {file : String} {e : Reload} {r : EditorRequest}

theorem Awaits.hideMarker (h : o.Awaits marks a) : (o.hideMarker x).Awaits marks a :=
  ⟨h.waiting, by rw [buffer_hideMarker]; exact h.provisional, h.edits, h.reloads⟩

theorem Awaits.showMarker (h : o.Awaits marks a) : (o.showMarker x).Awaits marks a := by
  refine ⟨h.waiting, ?_, h.edits, h.reloads⟩
  rw [buffer_showMarker, Buffer.provisional_showMarker]
  exact h.provisional

theorem Awaits.mail (h : o.Awaits marks a) (hs : a'.script = a.script)
    (hmail : ∀ e, .reload e ∈ a'.mail → .reload e ∈ a.mail) : o.Awaits marks a' := by
  refine ⟨h.waiting, h.provisional, ?_, fun e he ↦ h.reloads e (hmail e he)⟩
  rw [Aspect.Edits, hs]
  exact h.edits

theorem Awaits.disarm (h : o.Awaits marks a) : o.Awaits marks (a.disarm file x) := by
  refine h.mail rfl fun e he ↦ (List.mem_append.1 he).resolve_right fun he ↦ ?_
  cases List.eq_of_mem_replicate he

theorem Awaits.arm (h : o.Awaits marks a) : o.Awaits marks (a.arm file x) := by
  refine h.mail rfl fun e he ↦ (List.mem_append.1 he).resolve_right fun he ↦ ?_
  cases List.eq_of_mem_replicate he

structure Intends (p : Projection) (except : List Address) (lines : LineSet) (marks : Marks)
    (o : OpenScript) (a : Aspect) : Prop where
  authority : o.authority = p
  awaits : o.Awaits marks a
  lines : ∀ line, line ∈ lines ↔ ∃ x ∈ a.armed, x ∉ except ∧ marks.line? x = some line

/-- What is shown is what the reload will show: the old marks are among the new ones, and what is
armed is shown by them. -/
structure Fits (p : Projection) (except : List Address) (lines : LineSet) (marks : Marks)
    (o : OpenScript) (a : Aspect) : Prop extends Intends p except lines marks o a where
  fits : ∀ x line, o.buffer.marks.line? x = some line → marks.line? x = some line
  shown : ∀ x ∈ a.armed, x ∉ except → o.buffer.markers[x]? = marks.line? x

theorem Intends.spared (h : o.Intends p except lines marks a) (ha : a.Spared o.authority a')
    (harmed : a'.armed = a.armed) : o.Intends p except lines marks a' := by
  refine ⟨h.authority, h.awaits.spared ha, ?_⟩
  rw [harmed]
  exact h.lines

theorem Intends.hear (h : o.Intends p [] lines marks a) (he : e.authority = o.authority)
    (line : Nat) :
    line ∈ (o.hear a.armed.toList (.reload e)).buffer.markerLines ↔ line ∈ lines := by
  rw [Buffer.mem_markerLines, h.lines]
  simp only [h.awaits.markers_hear he, Std.ExtTreeSet.mem_toList, Option.ite_none_right_eq_some,
    List.not_mem_nil, not_false_eq_true, true_and]

theorem Intends.news (h : o.Intends p [] lines marks a) {m : Message} {rest : List Message}
    (as : List Address) (hm : ∀ e, m ≠ .reload e) (hmail : ∀ m' ∈ rest, m' ∈ a.mail) :
    (o.hear as m).Intends p [] lines marks { a with mail := rest } := by
  have hawaits : o.Awaits marks { a with mail := rest } :=
    h.awaits.mail rfl fun e he ↦ hmail _ he
  cases m with
  | reload e => exact absurd rfl (hm e)
  | added f x => exact ⟨h.authority, hawaits.showMarker, h.lines⟩
  | removed f x => exact ⟨h.authority, hawaits.hideMarker, h.lines⟩
  | shutdown => exact ⟨h.authority, hawaits, h.lines⟩

namespace Fits

theorem hideMarker (h : o.Fits p (x :: except) lines marks a) :
    (o.hideMarker x).Fits p except lines marks (a.disarm file x) := by
  have hmem {y : Address} : y ∈ (a.disarm file x).armed ∧ y ∉ except ↔
      y ∈ a.armed ∧ y ∉ x :: except := by
    rw [List.mem_cons, not_or, Aspect.disarm, mem_erase_iff]
    tauto
  refine ⟨⟨h.authority, h.awaits.hideMarker.disarm, fun line ↦ (h.lines line).trans ?_⟩, ?_,
    fun y hy hne ↦ ?_⟩
  · exact exists_congr fun y ↦ by rw [← and_assoc, ← and_assoc, hmem]
  · rw [buffer_hideMarker]
    exact h.fits
  · obtain ⟨hy, hne⟩ := hmem.1 ⟨hy, hne⟩
    rw [buffer_hideMarker, Buffer.markers_hideMarker, if_neg (List.ne_of_not_mem_cons hne)]
    exact h.shown y hy hne

theorem hideAll {xs : List Address} (h : o.Fits p xs lines marks a) :
    (xs.foldl (fun o x ↦ o.hideMarker x) o).Fits p [] lines marks
      (xs.foldl (fun a x ↦ a.disarm file x) a) := by
  induction xs generalizing o a with
  | nil => exact h
  | cons x xs ih => exact ih h.hideMarker

theorem saved {m : SourceMap} {t : Script} {binary : Binary} {views : Dual View}
    (ho : o.authority = t.authority) (hunread : ∀ e, .reload e ∉ a.mail)
    (hfits : ∀ x line, o.buffer.marks.line? x = some line → (Marks.ofMap m).line? x = some line)
    (hshown : ∀ line ∈ o.buffer.markerLines, ∀ x, m.first? line = some x →
      o.buffer.markers[x]? = some line) :
    (o.saved m).Fits o.authority [] (m.markedLines o.buffer.markerLines) (.ofMap m)
      (a.store t binary views (m.breakpointsOn o.buffer.markerLines)) := by
  have hmem {x : Address} : x ∈ (a.store t binary views
      (m.breakpointsOn o.buffer.markerLines)).armed ↔
      ∃ line ∈ o.buffer.markerLines, m.first? line = some x := by
    rw [Aspect.armed_store, mem_ofList, mem_breakpointsOn]
  refine ⟨⟨rfl, .saved ho hunread, fun line ↦ ?_⟩, ?_, fun x hx _ ↦ ?_⟩
  · rw [SourceMap.mem_markedLines]
    constructor
    · rintro ⟨hline, x, hx⟩
      exact ⟨x, hmem.2 ⟨line, hline, hx⟩, List.not_mem_nil, Marks.line?_ofMap hx⟩
    · rintro ⟨x, hx, -, hmark⟩
      obtain ⟨line', hline', hx⟩ := hmem.1 hx
      rw [Marks.line?_ofMap hx] at hmark
      cases hmark
      exact ⟨hline', x, hx⟩
  · rw [buffer_saved]
    exact hfits
  · obtain ⟨line, hline, hx⟩ := hmem.1 hx
    rw [buffer_saved, Marks.line?_ofMap hx]
    exact hshown line hline x hx

theorem spared (h : o.Fits p except lines marks a) (ha : a.Spared o.authority a')
    (harmed : a'.armed = a.armed) : o.Fits p except lines marks a' := by
  refine ⟨h.toIntends.spared ha harmed, h.fits, ?_⟩
  rw [harmed]
  exact h.shown

theorem still {lost : List Address} (h : o.Fits p except lines marks a) :
    OpenScript.Fits p except lines marks { o with lost } a :=
  ⟨⟨h.authority, ⟨h.awaits.waiting, h.awaits.provisional, h.awaits.edits, h.awaits.reloads⟩,
    h.lines⟩, h.fits, h.shown⟩

/-- Nothing that is armed is hidden by news that is still true. -/
theorem news (h : o.Fits p [] lines marks a) {m : Message} {rest : List Message}
    (as : List Address) (hm : m.Timely a.armed) (hmail : ∀ m' ∈ rest, m' ∈ a.mail) :
    (o.hear as m).Fits p [] lines marks { a with mail := rest } := by
  have hreload (e : Reload) : m ≠ .reload e := by
    rintro rfl
    exact hm
  refine ⟨h.toIntends.news as hreload hmail, ?_, fun y hy _ ↦ ?_⟩
  · cases m with
    | reload e => exact absurd rfl (hreload e)
    | added f x =>
      rw [hear, buffer_showMarker, Buffer.marks_showMarker]
      exact h.fits
    | removed f x =>
      rw [hear, buffer_hideMarker]
      exact h.fits
    | shutdown => exact h.fits
  · have hshown := h.shown y hy List.not_mem_nil
    cases m with
    | reload e => exact absurd rfl (hreload e)
    | shutdown => exact hshown
    | added f x =>
      rw [hear, buffer_showMarker, Buffer.markers_showMarker]
      by_cases hyx : y = x
      · subst hyx
        rw [if_pos rfl, hshown]
        change (o.buffer.marks.line? y).or (marks.line? y) = marks.line? y
        cases hline : o.buffer.marks.line? y with
        | none => rfl
        | some line => exact (h.fits y line hline).symm
      · rw [if_neg hyx, hshown]
    | removed f x =>
      have hne : y ≠ x := fun heq ↦ hm (heq ▸ hy)
      rw [hear, buffer_hideMarker, Buffer.markers_hideMarker, if_neg hne, hshown]

/-- Lines are moved with their breakpoints, and those of deleted lines become exceptions. -/
theorem follow (h : o.Fits p [] lines marks a) {edit : LineEdit} (text : List String)
    {removed : List Address}
    (hremoved : ∀ x, x ∈ removed ↔
      ∃ line, o.buffer.markers[x]? = some line ∧ edit.line? line = none) :
    (o.setBuffer ({ o.buffer with lines := text }.follow edit)).Fits p removed (edit.moved lines)
      (marks.edit edit) a := by
  have hmoved {x : Address} (hx : x ∈ a.armed) (hkept : x ∉ removed) :
      (marks.line? x).bind edit.line? = (marks.edit edit).line? x := by
    have hshown := h.shown x hx List.not_mem_nil
    rw [Marks.line?_edit]
    cases hline : marks.line? x with
    | none => rfl
    | some line =>
      rw [hline] at hshown
      cases hgone : edit.line? line with
      | none => exact absurd ((hremoved x).2 ⟨line, hshown, hgone⟩) hkept
      | some line' => simp [hgone]
  refine ⟨⟨h.authority, h.awaits.follow edit text, fun line ↦ ?_⟩, fun x line ↦ ?_,
    fun x hx hkept ↦ ?_⟩
  · rw [LineEdit.mem_moved]
    constructor
    · rintro ⟨old, hold, hline⟩
      obtain ⟨x, hx, -, hmark⟩ := (h.lines old).1 hold
      have hkept : x ∉ removed := fun hgone ↦ by
        obtain ⟨old', hold', hgone⟩ := (hremoved x).1 hgone
        rw [h.shown x hx List.not_mem_nil, hmark] at hold'
        cases hold'
        rw [hline] at hgone
        cases hgone
      refine ⟨x, hx, hkept, ?_⟩
      rw [← hmoved hx hkept, hmark]
      exact hline
    · rintro ⟨x, hx, hkept, hmark⟩
      rw [← hmoved hx hkept] at hmark
      obtain ⟨old, hold, hline⟩ := Option.bind_eq_some_iff.1 hmark
      exact ⟨old, (h.lines old).2 ⟨x, hx, List.not_mem_nil, hold⟩, hline⟩
  · rw [buffer_setBuffer]
    intro hx
    have hedit : ((o.buffer.marks.edit edit).line? x) = some line := hx
    rw [Marks.line?_edit] at hedit ⊢
    obtain ⟨old, hold, hline⟩ := Option.map_eq_some_iff.1 hedit
    rw [h.fits x old hold, Option.map_some, hline]
  · rw [buffer_setBuffer, Buffer.markers_follow]
    exact (congrArg (·.bind edit.line?) (h.shown x hx List.not_mem_nil)).trans (hmoved hx hkept)

/-- A click removes the breakpoints of a line, or else adds one. -/
theorem clicked (h : o.Fits p [] lines marks a) {projection : Projection} {line : Nat}
    (hclicked : Shows.Clicked file projection line o a (.ok ()) o' a') :
    o'.Fits p [] ((EditorRequest.toggle file projection line).intends o lines) marks a' := by
  cases hclicked with
  | nothing hnothing =>
    rw [EditorRequest.intends]
    by_cases hp : projection ≠ o.authority
    · rwa [if_pos hp]
    · obtain ⟨hshown, hfirst⟩ := hnothing rfl (not_not.1 hp)
      rwa [if_neg hp, if_neg (not_not.2 hshown), if_pos hfirst]
  | hidden hp _ hall hshown =>
    rw [EditorRequest.intends, if_neg (not_not.2 hp), if_pos hshown, hall rfl]
    refine hideAll ⟨⟨h.authority, h.awaits, fun other ↦ ?_⟩, h.fits,
      fun x hx _ ↦ h.shown x hx List.not_mem_nil⟩
    rw [mem_erase_iff, h.lines]
    have hline {x : Address} (hx : x ∈ a.armed) :
        x ∉ o.buffer.markersOn line ↔ marks.line? x ≠ some line := by
      rw [Buffer.mem_markersOn, h.shown x hx List.not_mem_nil]
    constructor
    · rintro ⟨hne, x, hx, -, hmark⟩
      refine ⟨x, hx, (hline hx).2 ?_, hmark⟩
      rw [hmark]
      exact fun h ↦ hne (Option.some.inj h).symm
    · rintro ⟨x, hx, hkept, hmark⟩
      refine ⟨?_, x, hx, List.not_mem_nil, hmark⟩
      rintro rfl
      exact (hline hx).1 hkept hmark
  | @shown x hp hshown hfirst =>
    have hmark := h.fits x line (Marks.line?_of_first? hfirst)
    have hunset : ¬o.buffer.marks.first? line = none := by
      rw [hfirst]
      exact Option.some_ne_none x
    rw [EditorRequest.intends, if_neg (not_not.2 hp), if_neg (not_not.2 hshown), if_neg hunset]
    refine ⟨⟨h.authority, h.awaits.showMarker.arm, fun other ↦ ?_⟩, ?_, fun y hy _ ↦ ?_⟩
    · rw [mem_insert_iff, h.lines, Aspect.arm]
      simp only [mem_insert_iff, List.not_mem_nil, not_false_eq_true, true_and]
      constructor
      · rintro (rfl | ⟨y, hy, hline⟩)
        · exact ⟨x, .inl rfl, hmark⟩
        · exact ⟨y, .inr hy, hline⟩
      · rintro ⟨y, rfl | hy, hline⟩
        · rw [hmark] at hline
          exact .inl (Option.some.inj hline)
        · exact .inr ⟨y, hy, hline⟩
    · rw [buffer_showMarker, Buffer.marks_showMarker]
      exact h.fits
    · rw [buffer_showMarker, Buffer.markers_showMarker]
      by_cases hyx : y = x
      · subst hyx
        rw [if_pos rfl, hmark]
        exact congrArg (Option.or · _) (Marks.line?_of_first? hfirst)
      · rw [if_neg hyx]
        exact h.shown y ((mem_insert_iff.1 hy).resolve_left (Ne.symm hyx)) List.not_mem_nil

theorem worked (h : o.Fits p [] lines marks a) (hfile : r.file? = some file) {ok : Prop} (hok : ok)
    (hworked : Worked file o a r ok o' a') :
    ∃ marks', o'.Fits p [] (r.intends o lines) marks' a' := by
  cases hworked with
  | still hedit hclick =>
    have hnot (f : String) (projection : Projection) (line : Nat) :
        r ≠ .toggle f projection line := by
      rintro rfl
      cases hfile
      exact hclick projection line rfl
    rw [EditorRequest.intends_eq hnot, hedit]
    exact ⟨marks, h.still⟩
  | @edited edit text removed hedit hgone hall =>
    have hnot (f : String) (projection : Projection) (line : Nat) :
        r ≠ .toggle f projection line := by
      rintro rfl
      cases hedit
    rw [EditorRequest.intends_eq hnot, hedit]
    refine ⟨_, (h.follow text fun x ↦ ⟨hgone x, ?_⟩).hideAll⟩
    rintro ⟨line, hx, hline⟩
    exact hall hok x line hx hline
  | toggled hr hresult hclicked =>
    subst hr
    rw [hresult hok] at hclicked
    exact ⟨marks, h.clicked hclicked⟩

end Fits

end OpenScript

namespace Session

section Defs

variable {σ τ : Type} [Archive σ] [BreakpointStore τ]

/-- A move by which a script is not saved and nobody but the editor at seat `i` changes its
breakpoints. That editor is obeyed in all it is asked about the script, and it hears no news that
was overtaken. -/
structure Tinkers [LawfulStore τ] (c : Compiler) (i : Nat) (file : String) (s : Session σ τ)
    (m : Move) : Prop extends Spares i file s m where
  others : s.Aside i file m → LawfulStore.armed (move c m s).2.workspace.store file =
    LawfulStore.armed s.workspace.store file
  obeyed : ∀ r, m = .editor i r → r.file? = some file → ∃ reply, (move c m s).1 = .ok reply
  news : ∀ m', s.Handles i m m' → m'.file? = some file →
    m'.Timely (LawfulStore.armed s.workspace.store file)

def intends (i : Nat) (file : String) (lines : LineSet) (s : Session σ τ) : Move → LineSet
  | .editor j r =>
    if j = i ∧ r.file? = some file then
      (s.shown i file).elim lines fun o ↦ r.intends o lines
    else lines
  | _ => lines

def intended (c : Compiler) (i : Nat) (file : String) :
    LineSet → Session σ τ → List Move → LineSet
  | lines, _, [] => lines
  | lines, s, m :: ms => intended c i file (s.intends i file lines m) (move c m s).2 ms

omit [Archive σ] [BreakpointStore τ] in
theorem intends_aside {s : Session σ τ} {i : Nat} {file : String} {lines : LineSet} {m : Move}
    (hm : s.Aside i file m) : s.intends i file lines m = lines := by
  cases m with
  | editor j r =>
    refine if_neg fun h ↦ ?_
    obtain ⟨other, hne, hother⟩ := hm h.1
    rw [hother] at h
    exact hne (Option.some.inj h.2)
  | _ => rfl

theorem Tinkers.of_toggle [LawfulStore τ] {c : Compiler} {s : Session σ τ} {i : Nat}
    {file : String} {projection : Projection} {line : Nat}
    (hok : (move c (.editor i (.toggle file projection line)) s).1.isOk = true) :
    Tinkers c i file s (.editor i (.toggle file projection line)) := by
  refine ⟨⟨fun r hr _ ↦ ?_, nofun, nofun⟩, fun haside ↦ ?_, fun r hr _ ↦ ?_, nofun⟩
  · obtain ⟨e, -, hr⟩ | ⟨hr, -⟩ := hr
    · cases r with
      | save => simp [EditorRequest.asks] at hr
      | _ => rfl
    · cases hr
  · obtain ⟨other, hne, hother⟩ := haside rfl
    exact absurd (Option.some.inj hother).symm hne
  · cases hr
    cases hresult : (move c (.editor i (.toggle file projection line)) s).1 with
    | ok reply => exact ⟨reply, rfl⟩
    | error f =>
      rw [hresult] at hok
      cases hok

end Defs

variable {σ τ : Type} [Archive σ] [BreakpointStore τ] [LawfulStore τ] {c : Compiler}
  {s saved s' read : Session σ τ} {i : Nat} {file : String} {o : OpenScript} {marks : Marks}
  {a : Aspect} {p : Projection} {lines : LineSet}

namespace Scene

variable (hs : s.Sound) (hi : s.Scene i file (some o) a)

include hs hi

section

variable (hk : o.Fits p [] lines marks a)

include hk

theorem tinkers_aside {m : Move} (haside : s.Aside i file m) (hm : Tinkers c i file s m) :
    ∃ a', (move c m s).2.Scene i file (some o) a' ∧ o.Fits p [] lines marks a' := by
  obtain ⟨a', hi', ha'⟩ := hi.spared (c := c) hs haside (hm.requests hi.shown) hk.awaits.edits
  refine ⟨a', hi', hk.spared ha' ?_⟩
  rw [hi'.armed, hm.others haside, hi.armed]

/-- To hear news changes nothing that is to be shown. -/
theorem fits_next (hnews : ∀ m ∈ (s.inbox i).head?, m.file? = some file → m.Timely a.armed) :
    ∃ o' a', (move c (.next i) s).2.Scene i file (some o') a' ∧ o'.Fits p [] lines marks a' ∧
      a'.armed = a.armed ∧ ∀ m ∈ a'.mail, m ∈ a.mail := by
  obtain ⟨a', hi', hspared, harmed, hmail⟩ | ⟨m, rest, as, hhead, hfile, hmail, hi'⟩ :=
    hi.handled (c := c) hs hk.awaits.edits
  · exact ⟨o, a', hi', hk.spared hspared harmed, harmed, fun m hm ↦ hmail ▸ hm⟩
  · have hrest (m' : Message) (hm' : m' ∈ rest) : m' ∈ a.mail := hmail ▸ .tail _ hm'
    exact ⟨_, _, hi', hk.news as (hnews m hhead hfile) hrest, rfl, hrest⟩

theorem fits_nexts (hnews : ∀ m ∈ a.mail, m.Timely a.armed) (n : Nat) :
    ∃ o' a', (s.after c (List.replicate n (.next i))).Scene i file (some o') a' ∧
      o'.Fits p [] lines marks a' := by
  have hstep (s : Session σ τ) (h : s.Sound ∧ ∃ o a, s.Scene i file (some o) a ∧
      o.Fits p [] lines marks a ∧ ∀ m ∈ a.mail, m.Timely a.armed) :
      (move c (.next i) s).2.Sound ∧ ∃ o a, (move c (.next i) s).2.Scene i file (some o) a ∧
        o.Fits p [] lines marks a ∧ ∀ m ∈ a.mail, m.Timely a.armed := by
    obtain ⟨hs, o, a, hi, hk, hnews⟩ := h
    have hhead (m : Message) (hm : m ∈ (s.inbox i).head?) (hfile : m.file? = some file) :
        m.Timely a.armed := by
      refine hnews m ?_
      rw [hi.mail, List.mem_filter]
      exact ⟨List.mem_of_mem_head? hm, decide_eq_true hfile⟩
    obtain ⟨o', a', hi', hk', harmed, hmail⟩ := hi.fits_next (c := c) hs hk hhead
    refine ⟨hs.next i, o', a', hi', hk', fun m hm ↦ ?_⟩
    rw [harmed]
    exact hnews m (hmail m hm)
  obtain ⟨-, o', a', hi', hk', -⟩ := after_replicate hstep n ⟨hs, o, a, hi, hk, hnews⟩
  exact ⟨o', a', hi', hk'⟩

theorem tinkers_work {r : EditorRequest} (hfile : r.file? = some file)
    (hm : Tinkers c i file s (.editor i r)) : ∃ marks' o' a',
      (move c (.editor i r) s).2.Scene i file (some o') a' ∧
        o'.Fits p [] (s.intends i file lines (.editor i r)) marks' a' := by
  obtain ⟨t, ht, -⟩ := hk.awaits.edits
  obtain ⟨o', a', hi', hworked⟩ := hi.work (c := c) hs ht hfile
    (fun confirm h ↦ hm.closes confirm (h ▸ rfl)) (hm.saves hi.shown)
  obtain ⟨marks', hk'⟩ := hk.worked hfile (hm.obeyed r rfl hfile) hworked
  have hintends : s.intends i file lines (.editor i r) = r.intends o lines := by
    rw [intends, if_pos ⟨rfl, hfile⟩, hi.shown]
    rfl
  rw [hintends]
  exact ⟨marks', o', a', hi', hk'⟩

theorem tinkers {m : Move} (hm : Tinkers c i file s m) : ∃ marks' o' a',
    (move c m s).2.Scene i file (some o') a' ∧
      o'.Fits p [] (s.intends i file lines m) marks' a' := by
  rcases s.aside_or i file m with haside | rfl | rfl | ⟨r, rfl, hr⟩
  · obtain ⟨a', hi', hk'⟩ := hi.tinkers_aside hs hk haside hm
    rw [intends_aside haside]
    exact ⟨marks, o, a', hi', hk'⟩
  · have hnews (m' : Message) (hm' : m' ∈ (s.inbox i).head?) (hfile : m'.file? = some file) :
        m'.Timely a.armed := by
      rw [hi.armed]
      exact hm.news m' ⟨rfl, hm'⟩ hfile
    obtain ⟨o', a', hi', hk', -⟩ := hi.fits_next (c := c) hs hk hnews
    exact ⟨marks, o', a', hi', hk'⟩
  · have hnews (m' : Message) (hm' : m' ∈ a.mail) : m'.Timely a.armed := by
      rw [hi.mail, List.mem_filter] at hm'
      rw [hi.armed]
      exact hm.news m' ⟨rfl, hm'.1⟩ (of_decide_eq_true hm'.2)
    have hsame : s.intends i file lines (.editor i .runPending) = lines :=
      if_neg fun h ↦ nomatch h.2
    obtain ⟨n, hn⟩ := move_runPending (c := c) hs i
    rw [hn, hsame]
    obtain ⟨o', a', hi', hk'⟩ := hi.fits_nexts (c := c) hs hk hnews n
    exact ⟨marks, o', a', hi', hk'⟩
  · exact hi.tinkers_work hs hk hr hm

theorem tinkers_after {ms : List Move} (hms : Along c (Tinkers c i file) s ms) : ∃ marks' o' a',
    (s.after c ms).Scene i file (some o') a' ∧
      o'.Fits p [] (intended c i file lines s ms) marks' a' := by
  induction ms generalizing s o a marks lines with
  | nil => exact ⟨marks, o, a, hi, hk⟩
  | cons m ms ih =>
    obtain ⟨marks', o', a', hi', hk'⟩ := hi.tinkers hs hk hms.1
    exact ih (hs.move m) hi' hk' hms.2

end

/-- All the news before a reload can be heard, be it true or not. -/
theorem intends_nexts (hk : o.Intends p [] lines marks a) {before rest : List Message}
    (hinbox : s.inbox i = before ++ rest) (hbefore : ∀ e, .reload e ∈ before → e.file ≠ file) :
    ∃ o' a', (s.after c (List.replicate before.length (.next i))).Scene i file (some o') a' ∧
      o'.Intends p [] lines marks a' ∧
      (s.after c (List.replicate before.length (.next i))).inbox i = rest := by
  induction before generalizing s o a with
  | nil => exact ⟨o, a, hi, hk, hinbox⟩
  | cons m before ih =>
    have hnext := inbox_next (c := c) hs hinbox
    have hlater (e : Reload) (he : .reload e ∈ before) : e.file ≠ file := hbefore e (.tail _ he)
    obtain ⟨a', hi', hspared, harmed, -⟩ | ⟨m', mail, as, hhead, hfile, hmail, hi'⟩ :=
      hi.handled (c := c) hs hk.awaits.edits
    · exact ih (hs.next i) hi' (hk.spared hspared harmed) hnext hlater
    · rw [hinbox] at hhead
      cases hhead
      have hnot (e : Reload) : m ≠ .reload e := by
        rintro rfl
        exact hbefore e List.mem_cons_self (Option.some.inj hfile)
      exact ih (hs.next i) hi' (hk.news as hnot fun m' hm' ↦ hmail ▸ .tail _ hm') hnext hlater

end Scene

/-- An editor saves a text in which every instruction has the address that it had before, and no
earlier reload waits for it. Whatever breakpoints it changes then until it handles the reload, and
wherever it moves the lines, the reload shows the breakpoints as they were changed. -/
theorem changes_last_unless_renumbered (c : Compiler) (archive : σ) (store : τ)
    {history changes : List Move} (hs : s = (start archive store).after c history)
    (ho : s.shown i file = some o) (hunread : ∀ e, .reload e ∈ s.inbox i → e.file ≠ file)
    {readiness : Readiness}
    (hsave : move c (.editor i (.save file)) s = (.ok (.readiness (some readiness)), saved))
    {compiled : Compiled} (hcompile : c.compile o.authority o.buffer.text = .ok compiled)
    (hfits : ∀ x line, o.buffer.marks.line? x = some line →
      (Marks.ofMap compiled.map).line? x = some line)
    (hshown : ∀ line ∈ o.buffer.markerLines, ∀ x, compiled.map.first? line = some x →
      o.buffer.markers[x]? = some line)
    (hchanges : Along c (Tinkers c i file) saved changes) (hs' : s' = saved.after c changes)
    {before rest : List Message} {e : Reload} (hreload : s'.inbox i = before ++ .reload e :: rest)
    (hfile : e.file = file) (hfirst : ∀ e, .reload e ∈ before → e.file ≠ file)
    (hread : read = s'.after c (List.replicate before.length (.next i))) {as : List Address}
    (hlist : (BreakpointStore.list file read.workspace.store).1 = .ok as) :
    ∃ o', (move c (.next i) read).2.shown i file = some o' ∧ o'.authority = o.authority ∧
      ∀ line, line ∈ o'.buffer.markerLines ↔
        line ∈ intended c i file (compiled.map.markedLines o.buffer.markerLines) saved changes := by
  have hsound : s.Sound := by
    rw [hs]
    exact (sound_start archive store).after history
  obtain ⟨a, hi, hmail⟩ := hsound.scene_shown ho
  have hnone (e : Reload) : .reload e ∉ a.mail := by
    rw [hmail, List.mem_filter]
    rintro ⟨he, habout⟩
    exact hunread e he (Option.some.inj (of_decide_eq_true habout))
  have hsaved : (move c (.editor i (.save file)) s).2 = saved := by rw [hsave]
  obtain ⟨t, compiled', other, hauthority, hc, hi⟩ := hi.save hsound (by rw [hsave])
  rw [hcompile] at hc
  cases hc
  rw [hsaved] at hi
  have hsound := hsound.move (c := c) (.editor i (.save file))
  rw [hsaved] at hsound
  obtain ⟨marks, o', a', hi', hk⟩ := hi.tinkers_after hsound
    (OpenScript.Fits.saved hauthority hnone hfits hshown) hchanges
  have hsound := hsound.after (c := c) changes
  rw [← hs'] at hi' hsound
  obtain ⟨o'', a'', hi'', hk, hinbox⟩ :=
    hi'.intends_nexts (c := c) hsound hk.toIntends hreload hfirst
  rw [← hread] at hi'' hinbox
  have he : e.authority = o''.authority := by
    refine hk.awaits.reloads e ?_
    rw [hi''.mail, hinbox, List.mem_filter]
    exact ⟨List.mem_cons_self, decide_eq_true (congrArg some hfile)⟩
  obtain ⟨t', ht', -⟩ := hk.awaits.edits
  obtain ⟨as', hend, has⟩ := hi''.hear (c := c) (fun _ ↦ ⟨t', ht'⟩) hinbox (congrArg some hfile)
  obtain rfl : as' = a''.armed.toList := has.resolve_right fun h ↦ h.2 as hlist
  exact ⟨_, hend.shown, he.trans hk.authority, hk.hear he⟩

/-- A breakpoint is moved to the next line between a save and its reload. -/
theorem breakpoint_moved_before_reload :
    ∃ s saved o, s = (start (ArchiveMap.ofList [("a", Utf8.encode "routine 0\n    a\n    b\n")])
        (⟨∅, ()⟩ : Ledger Unit)).after Listing.compiler [.newEditor, .editor 0 (.openScript "a"),
          .editor 0 (.toggle "a" .primary 1), .editor 0 .runPending,
          .editor 0 (.insertLines "a" .primary 1 [""])] ∧
      move Listing.compiler (.editor 0 (.save "a")) s = (.ok (.readiness (some .ready)), saved) ∧
      (saved.after Listing.compiler [.editor 0 (.toggle "a" .primary 2),
        .editor 0 (.toggle "a" .primary 3), .next 0]).shown 0 "a" = some o ∧
      ∀ line, line ∈ o.buffer.markerLines ↔ line = 3 := by
  obtain ⟨s, hs⟩ : ∃ s, s = (start (ArchiveMap.ofList
      [("a", Utf8.encode "routine 0\n    a\n    b\n")]) (⟨∅, ()⟩ : Ledger Unit)).after
        Listing.compiler [.newEditor, .editor 0 (.openScript "a"),
          .editor 0 (.toggle "a" .primary 1), .editor 0 .runPending,
          .editor 0 (.insertLines "a" .primary 1 [""])] := ⟨_, rfl⟩
  obtain ⟨saved, hsaved⟩ : ∃ saved, saved = (move Listing.compiler (.editor 0 (.save "a")) s).2 :=
    ⟨_, rfl⟩
  obtain ⟨s', hs'⟩ : ∃ s', s' = saved.after Listing.compiler
      [.editor 0 (.toggle "a" .primary 2), .editor 0 (.toggle "a" .primary 3)] := ⟨_, rfl⟩
  have hinbox : (s.inbox 0).isEmpty = true := by
    rw [hs]
    decide +kernel
  have hanswer : readiness? (move Listing.compiler (.editor 0 (.save "a")) s).1 = some .ready := by
    rw [hs]
    decide +kernel
  have hbefore : (s.shown 0 "a").map (fun o ↦
      (Listing.compiler.compile o.authority o.buffer.text).toOption.any fun compiled ↦
        (o.buffer.marks.entries.all fun e ↦
          (Marks.ofMap compiled.map).line? e.address = some e.place.line) &&
        (o.buffer.markerLines.toList.all fun line ↦ (compiled.map.first? line).all fun x ↦
          o.buffer.markers[x]? = some line) &&
        ((intended Listing.compiler 0 "a" (compiled.map.markedLines o.buffer.markerLines) saved
          [.editor 0 (.toggle "a" .primary 2), .editor 0 (.toggle "a" .primary 3)]).toList =
            [3] : Bool)) = some true := by
    rw [hsaved, hs]
    decide +kernel
  have hobeyed : (move Listing.compiler (.editor 0 (.toggle "a" .primary 2)) saved).1.isOk = true ∧
      (move Listing.compiler (.editor 0 (.toggle "a" .primary 3))
        (move Listing.compiler (.editor 0 (.toggle "a" .primary 2)) saved).2).1.isOk = true := by
    rw [hsaved, hs]
    decide +kernel
  have hmail : (s'.inbox 0).map Message.reloaded? = [some "a", none, none] := by
    rw [hs', hsaved, hs]
    decide +kernel
  have hlist : (BreakpointStore.list "a" s'.workspace.store).1 = .ok [⟨0, 1⟩] := by
    rw [hs', hsaved, hs]
    decide +kernel
  have hsave : move Listing.compiler (.editor 0 (.save "a")) s =
      (.ok (.readiness (some .ready)), saved) :=
    Prod.ext (readiness?_eq_some.1 hanswer) hsaved.symm
  obtain ⟨m, rest, hreload, hm, -⟩ := List.map_eq_cons_iff.1 hmail
  obtain ⟨e, rfl, hfile⟩ := Message.reloaded?_eq_some.1 hm
  have hchanges : Along Listing.compiler (Tinkers Listing.compiler 0 "a") saved
      [.editor 0 (.toggle "a" .primary 2), .editor 0 (.toggle "a" .primary 3)] :=
    ⟨.of_toggle hobeyed.1, .of_toggle hobeyed.2, trivial⟩
  obtain ⟨o, ho, hbefore⟩ := Option.map_eq_some_iff.1 hbefore
  cases hcompile : Listing.compiler.compile o.authority o.buffer.text with
  | error f =>
    rw [hcompile] at hbefore
    cases hbefore
  | ok compiled =>
    rw [hcompile] at hbefore
    simp only [Except.toOption, Option.any_some, Bool.and_eq_true, List.all_eq_true,
      decide_eq_true_eq] at hbefore
    obtain ⟨⟨hmarks, hmarkers⟩, hlines⟩ := hbefore
    have hfits (x : Address) (line : Nat) (hx : o.buffer.marks.line? x = some line) :
        (Marks.ofMap compiled.map).line? x = some line := by
      obtain ⟨entry, hentry, rfl, rfl⟩ := Marks.line?_eq_some.1 hx
      exact hmarks entry hentry
    have hshown (line : Nat) (hline : line ∈ o.buffer.markerLines) (x : Address)
        (hx : compiled.map.first? line = some x) : o.buffer.markers[x]? = some line := by
      have h := hmarkers line (Std.ExtTreeSet.mem_toList.2 hline)
      rw [hx] at h
      exact of_decide_eq_true h
    have hunread (e : Reload) : .reload e ∈ s.inbox 0 → e.file ≠ "a" := by
      rw [List.isEmpty_iff.1 hinbox]
      simp
    have hreload : s'.inbox 0 = [] ++ .reload e :: rest := hreload
    obtain ⟨o', ho', -, hend⟩ := changes_last_unless_renumbered Listing.compiler _ _ hs ho hunread
      hsave hcompile hfits hshown hchanges hs' hreload hfile (by simp) rfl hlist
    refine ⟨s, saved, o', hs, hsave, ?_, fun line ↦ ?_⟩
    · rw [hs'] at ho'
      exact ho'
    · rw [hend, ← Std.ExtTreeSet.mem_toList, hlines, List.mem_singleton]

/-- A save puts an instruction in front of two others, and its reload is put off. A click removes
the breakpoint of the last of them, but the reload shows that one, and not the other. -/
theorem change_lost_when_renumbered :
    ∃ s saved changed, s = (start (ArchiveMap.ofList
        [("a", Utf8.encode "routine 0\n    a\n    b\n")]) (⟨∅, ()⟩ : Ledger Unit)).after
          Listing.compiler [.newEditor, .editor 0 (.openScript "a"), .ask (.openInEngine "a"),
            .editor 0 (.toggle "a" .primary 1), .editor 0 (.toggle "a" .primary 2),
            .editor 0 .runPending, .editor 0 (.insertLines "a" .primary 1 ["    x"])] ∧
      move Listing.compiler (.editor 0 (.save "a")) s = (.ok (.readiness (some .deferred)), saved) ∧
      (saved.shown 0 "a").map (·.buffer.markerLines.toList) = some [2, 3] ∧
      move Listing.compiler (.editor 0 (.toggle "a" .primary 3)) saved = (.ok .done, changed) ∧
      (changed.shown 0 "a").map (·.buffer.markerLines.toList) = some [2] ∧
      ((changed.after Listing.compiler [.editor 0 .runPending, .ask (.closeInEngine "a"),
        .editor 0 .runPending]).shown 0 "a").map (·.buffer.markerLines.toList) = some [3] := by
  obtain ⟨s, hs⟩ : ∃ s, s = (start (ArchiveMap.ofList
      [("a", Utf8.encode "routine 0\n    a\n    b\n")]) (⟨∅, ()⟩ : Ledger Unit)).after
        Listing.compiler [.newEditor, .editor 0 (.openScript "a"), .ask (.openInEngine "a"),
          .editor 0 (.toggle "a" .primary 1), .editor 0 (.toggle "a" .primary 2),
          .editor 0 .runPending, .editor 0 (.insertLines "a" .primary 1 ["    x"])] := ⟨_, rfl⟩
  refine ⟨s, _, _, hs, Prod.ext (readiness?_eq_some.1 ?_) rfl, ?_, Prod.ext (isDone_iff.1 ?_) rfl,
    ?_, ?_⟩
  · rw [hs]
    decide +kernel
  · rw [hs]
    decide +kernel
  · rw [hs]
    decide +kernel
  · rw [hs]
    decide +kernel
  · rw [hs]
    decide +kernel

end Session

end ScriptBreakpoints
