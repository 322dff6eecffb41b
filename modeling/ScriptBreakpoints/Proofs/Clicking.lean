import ScriptBreakpoints.Compiler.Listing
import ScriptBreakpoints.Proofs.Pinning

namespace ScriptBreakpoints

open Fallible Workspace

theorem Buffer.Pinned.markers_showMarker {b : Buffer} (h : b.Pinned) (x y : Address) :
    (b.showMarker x).markers[y]? = if y = x then b.marks.line? x else b.markers[y]? := by
  rw [Buffer.markers_showMarker]
  refine if_congr Iff.rfl ?_ rfl
  cases hm : b.markers[x]? with
  | none => exact Option.or_none
  | some line =>
    have hmark := h x line hm
    rw [Marks.line?] at hmark ⊢
    rw [hmark, Option.some_or]

namespace OpenScript

variable {o : OpenScript} {x : Address}

def Remarked (o o' : OpenScript) : Prop :=
  o' = { o with buffers := o'.buffers } ∧
    ∀ p, ∃ markers, o'.buffers.get p = { o.buffers.get p with markers }

theorem Remarked.refl (o : OpenScript) : o.Remarked o := ⟨rfl, fun _ ↦ ⟨_, rfl⟩⟩

theorem remarked_showMarker (x : Address) (o : OpenScript) : o.Remarked (o.showMarker x) := by
  refine ⟨rfl, fun p ↦ ?_⟩
  rw [showMarker, Dual.get_map]
  exact Buffer.showMarker_eq x _

theorem remarked_hideAll (xs : List Address) (o : OpenScript) :
    o.Remarked (xs.foldl (fun o x ↦ o.hideMarker x) o) := by
  induction xs generalizing o with
  | nil => exact .refl o
  | cons x xs ih =>
    obtain ⟨hrest, hbuffers⟩ := ih (o.hideMarker x)
    refine ⟨hrest, fun p ↦ ?_⟩
    obtain ⟨markers, hb⟩ := hbuffers p
    refine ⟨markers, hb.trans ?_⟩
    rw [hideMarker, Dual.get_map]
    rfl

theorem markers_hideAll (xs : List Address) (o : OpenScript) (p : Projection) (x : Address) :
    ((xs.foldl (fun o x ↦ o.hideMarker x) o).buffers.get p).markers[x]? =
      if x ∈ xs then none else (o.buffers.get p).markers[x]? := by
  induction xs generalizing o with
  | nil => rw [if_neg List.not_mem_nil]; rfl
  | cons y xs ih =>
    rw [List.foldl_cons, ih, hideMarker, Dual.get_map, Buffer.markers_hideMarker]
    by_cases hx : x ∈ xs
    · rw [if_pos hx, if_pos (.tail _ hx)]
    · rw [if_neg hx]
      exact if_congr (by rw [List.mem_cons, or_iff_left hx]) rfl rfl

end OpenScript

theorem Aspect.mem_disarmAll {file : String} {xs : List Address} {a : Aspect} {x : Address} :
    x ∈ (xs.foldl (fun a x ↦ a.disarm file x) a).armed ↔ x ∉ xs ∧ x ∈ a.armed := by
  induction xs generalizing a with
  | nil => simp
  | cons y xs ih =>
    rw [List.foldl_cons, ih, Aspect.disarm, mem_erase_iff, List.mem_cons]
    tauto

namespace OpenScript

variable {o o' : OpenScript} {x : Address} {line : Nat} {ok : Prop}
  {armed armed' : Std.ExtTreeSet Address}

def Gone (x : Address) (o' : OpenScript) (armed' : Std.ExtTreeSet Address) : Prop :=
  x ∉ armed' ∧ ∀ p, (o'.buffers.get p).markers[x]? = none

def Same (x : Address) (o : OpenScript) (armed : Std.ExtTreeSet Address) (o' : OpenScript)
    (armed' : Std.ExtTreeSet Address) : Prop :=
  (x ∈ armed' ↔ x ∈ armed) ∧ ∀ p, (o'.buffers.get p).markers[x]? = (o.buffers.get p).markers[x]?

def Added (x : Address) (line : Nat) (o o' : OpenScript) (armed' : Std.ExtTreeSet Address) : Prop :=
  o.buffer.markers[x]? = none ∧ x ∈ armed' ∧ o'.buffer.markers[x]? = some line ∧
    ∀ p, (o'.buffers.get p).markers[x]? = (o.buffers.get p).marks.line? x

/-- What a click beside a line does to a script whose breakpoints `armed` become `armed'`; `ok` says
that it succeeded. -/
structure Clicked (line : Nat) (ok : Prop) (o : OpenScript) (armed : Std.ExtTreeSet Address)
    (o' : OpenScript) (armed' : Std.ExtTreeSet Address) : Prop where
  remarked : o.Remarked o'
  hidden : ok → ∀ x ∈ o.buffer.markersOn line, Gone x o' armed'
  halted : ∀ x ∈ o.buffer.markersOn line, Gone x o' armed' ∨ Same x o armed o' armed'
  shown : ok → o.buffer.markersOn line = [] → ∀ x, o.buffer.marks.first? line = some x →
    Added x line o o' armed'
  same : ∀ x, x ∉ o.buffer.markersOn line →
    ¬(ok ∧ o.buffer.markersOn line = [] ∧ o.buffer.marks.first? line = some x) →
    Same x o armed o' armed'

theorem Pinned.unshown (h : o.Pinned) (hline : o.buffer.markersOn line = [])
    (hx : o.buffer.marks.first? line = some x) :
    o.buffer.markers[x]? = none ∧ ∀ p, (o.buffers.get p).Pinned := by
  have hmark := Marks.line?_of_first? hx
  obtain h | hempty := h
  · refine ⟨Option.eq_none_iff_forall_ne_some.2 fun other hother ↦ ?_, h⟩
    have hsame := h o.authority x other hother
    rw [show (o.buffers.get o.authority).marks.line? x = some line from hmark] at hsame
    obtain rfl := Option.some.inj hsame
    have hmem := Buffer.mem_markersOn.2 hother
    rw [hline] at hmem
    cases hmem
  · rw [show o.buffer.marks = .empty from hempty o.authority] at hmark
    have hnone : Marks.empty.place? x = none := Std.ExtTreeMap.getElem?_empty
    rw [Marks.line?, hnone] at hmark
    cases hmark

end OpenScript

theorem Shows.Clicked.gutter {file : String} {line : Nat} {o o' : OpenScript} {a a' : Aspect}
    {result : Except Fault Unit} (ho : o.Pinned)
    (h : Shows.Clicked file o.authority line o a result o' a') :
    o.Clicked line (result = .ok ()) a.armed o' a'.armed := by
  cases h with
  | nothing hnothing =>
    have hempty (hok : result = .ok ()) := hnothing hok rfl
    refine ⟨.refl o, fun hok x hx ↦ ?_, fun _ _ ↦ .inr ⟨Iff.rfl, fun _ ↦ rfl⟩,
      fun hok _ x hx ↦ ?_, fun _ _ _ ↦ ⟨Iff.rfl, fun _ ↦ rfl⟩⟩
    · rw [(hempty hok).1] at hx
      cases hx
    · rw [(hempty hok).2] at hx
      cases hx
  | @hidden _ removed _ hpre hall hshown =>
    have hgone (x : Address) (hx : x ∈ removed) :
        OpenScript.Gone x (removed.foldl (fun o x ↦ o.hideMarker x) o)
          (removed.foldl (fun a x ↦ a.disarm file x) a).armed :=
      ⟨fun hmem ↦ (Aspect.mem_disarmAll.1 hmem).1 hx, fun p ↦ by
        rw [OpenScript.markers_hideAll, if_pos hx]⟩
    have hsame (x : Address) (hx : x ∉ removed) :
        OpenScript.Same x o a.armed (removed.foldl (fun o x ↦ o.hideMarker x) o)
          (removed.foldl (fun a x ↦ a.disarm file x) a).armed :=
      ⟨Aspect.mem_disarmAll.trans (and_iff_right hx), fun p ↦ by
        rw [OpenScript.markers_hideAll, if_neg hx]⟩
    refine ⟨OpenScript.remarked_hideAll _ _, fun hok x hx ↦ hgone x (hall hok ▸ hx), fun x _ ↦ ?_,
      fun _ hempty ↦ absurd hempty hshown, fun x hx _ ↦ hsame x fun hmem ↦ hx (hpre.subset hmem)⟩
    by_cases hx : x ∈ removed
    · exact .inl (hgone x hx)
    · exact .inr (hsame x hx)
  | @shown x _ hline hx =>
    obtain ⟨hnew, hpinned⟩ := ho.unshown hline hx
    have hmarkers (p : Projection) (y : Address) :
        ((o.showMarker x).buffers.get p).markers[y]? =
          if y = x then (o.buffers.get p).marks.line? x else (o.buffers.get p).markers[y]? := by
      rw [OpenScript.showMarker, Dual.get_map, (hpinned p).markers_showMarker]
    refine ⟨OpenScript.remarked_showMarker x o, fun _ y hy ↦ ?_, fun y hy ↦ ?_,
      fun _ _ y hy ↦ ?_, fun y _ hne ↦ ⟨?_, fun p ↦ ?_⟩⟩
    · rw [hline] at hy
      cases hy
    · rw [hline] at hy
      cases hy
    · obtain rfl := Option.some.inj (hx.symm.trans hy)
      refine ⟨hnew, mem_insert_iff.2 (.inl rfl), ?_, fun p ↦ by rw [hmarkers, if_pos rfl]⟩
      rw [← Marks.line?_of_first? hx]
      exact (hmarkers o.authority x).trans (if_pos rfl)
    · have hother : x ≠ y := fun heq ↦ hne ⟨rfl, hline, heq ▸ hx⟩
      exact mem_insert_iff.trans (or_iff_right hother)
    · have hother : y ≠ x := fun heq ↦ hne ⟨rfl, hline, heq ▸ hx⟩
      rw [hmarkers, if_neg hother]

variable {σ τ : Type} [Archive σ] [BreakpointStore τ] {c : Compiler}

theorem Editor.toggle_ignored {d : Desk σ τ} {file : String} {o : OpenScript}
    {projection : Projection} (ho : d.editor.scripts[file]? = some o)
    (hp : projection ≠ o.authority) (line : Nat) :
    (EditorRequest.perform c (.toggle file projection line)).outcome d = (.ok .done,
      { d with workspace.log := d.workspace.log ++ [.clickIgnored file projection] }) := by
  rw [EditorRequest.perform, outcome_bind_pure]
  simp only [Editor.toggle, outcome_bind, Editor.opened_some ho, if_pos hp]
  rfl

variable [LawfulStore τ]

namespace Session

variable {s s' : Session σ τ} {file : String} {i : Nat} {e : Editor} {o : OpenScript}

def armed (s : Session σ τ) (file : String) : Std.ExtTreeSet Address :=
  LawfulStore.armed s.workspace.store file

/-- Other scripts are armed and shown as before, and the script itself is by other editors. -/
structure Apart (i : Nat) (file : String) (s s' : Session σ τ) : Prop where
  armed : ∀ other ≠ file, s'.armed other = s.armed other
  shown : ∀ j other, j ≠ i ∨ other ≠ file → s'.shown j other = s.shown j other

omit [Archive σ] in
theorem Pins.view (h : s.Pins file) (ho : s.shown i file = some o) : ∃ e t a,
    s.editorAt i = some e ∧ a.script = some t ∧ a.armed = s.armed file ∧
      Shows file e.inbox (some o) a (⟨e, s.workspace⟩ : Desk σ τ) := by
  obtain ⟨e, hi, hopen⟩ := Option.bind_eq_some_iff.1 ho
  have hdesk := h.desk hi
  obtain ⟨t, ht⟩ := hdesk.found (Option.isSome_of_mem hopen)
  exact ⟨e, t, _, hi, ht, rfl, hopen ▸ hdesk.shows⟩

/-- What an editor is asked about a script is seen there, and nowhere else. -/
theorem Pins.editor (h : s.Pins file) (hi : s.editorAt i = some e) {r : EditorRequest}
    (hr : r.file? = some file) {result : Except Fault Reply} {d : Desk σ τ}
    (ho : (r.perform c).outcome (⟨e, s.workspace⟩ : Desk σ τ) = (result, d))
    {box : Mailbox} {v : Option OpenScript} {a : Aspect} (hd : Shows file box v a d) :
    ∃ s', s.step c (.editor i r) = (result.mapError .fault, s') ∧ s'.shown i file = v ∧
      s'.armed file = a.armed ∧ Apart i file s s' := by
  have hframed := Framed.editorRequest (c := c) (⟨e, s.workspace⟩ : Desk σ τ) remembers_nothing
    trivial h.orderly hr
  rw [ho] at hframed
  obtain ⟨s', hs', hworkspace, hshown, -⟩ := atSeat_outcome file hi ho
  refine ⟨s', hs', hshown.trans hd.view, ?_, fun other hother ↦ ?_, fun j other hj ↦ ?_⟩
  · rw [armed, hworkspace]
    exact congrArg Aspect.armed hd.aspect
  · rw [armed, hworkspace]
    exact congrArg Aspect.armed (hframed.elsewhere hother (h.attends hi))
  · obtain ⟨s'', hs'', -, hshown', hothers⟩ := atSeat_outcome other hi ho
    obtain rfl : s'' = s' := congrArg Prod.snd (hs''.symm.trans hs')
    by_cases hij : j = i
    · subst hij
      rw [hshown', hframed.scripts (hj.resolve_left (absurd rfl)), shown_of_editorAt hi]
    · exact hothers j hij

theorem answer_done_iff {result : Except Fault Unit} :
    (result.map fun _ ↦ Reply.done).mapError Failure.fault = .ok .done ↔ result = .ok () := by
  cases result with
  | ok _ => exact iff_of_true rfl rfl
  | error f => exact iff_of_false nofun nofun

theorem Pins.toggle (h : s.Pins file) (ho : s.shown i file = some o) (line : Nat) :
    ∃ result s' o', s.step c (.editor i (.toggle file o.authority line)) = (result, s') ∧
      s'.shown i file = some o' ∧
      o.Clicked line (result = .ok .done) (s.armed file) o' (s'.armed file) ∧
      Apart i file s s' := by
  obtain ⟨e, t, a, hi, ht, ha, hshows⟩ := h.view ho
  obtain ⟨result, d', o', a', houtcome, hclicked, hd'⟩ := hshows.toggle (c := c) ht o.authority line
  have hperform : (EditorRequest.perform c (.toggle file o.authority line)).outcome
      (⟨e, s.workspace⟩ : Desk σ τ) = (result.map fun _ ↦ .done, d') := by
    rw [EditorRequest.perform, outcome_bind_pure, houtcome]
  obtain ⟨s', hs', hshown, harmed, hapart⟩ := h.editor hi rfl hperform hd'
  refine ⟨_, s', o', hs', hshown, ?_, hapart⟩
  rw [answer_done_iff, harmed, ← ha]
  exact hclicked.gutter (h.pinned ho)

/-- A click does what the gutter shows. In every session that can be reached markers are on the
lines of their marks, and so a click beside the text that is edited removes exactly what is shown
there, or adds the leftmost mark of the line, which was not shown, or changes nothing. If it fails
then every breakpoint of the line is gone, or still armed and shown. -/
theorem click_matches_gutter (c : Compiler) (archive : σ) (store : τ) (es : List Event)
    (hs : s = es.foldl (undergo c) (Session.start archive store)) (ho : s.shown i file = some o) :
    (∀ p (x : Address) line pos, (o.buffers.get p).markers[x]? = some line →
        (o.buffers.get p).marks.place? x = some pos → pos.line = line) ∧
      (∀ line, ∃ result s' o', s.step c (.editor i (.toggle file o.authority line)) = (result, s') ∧
        s'.shown i file = some o' ∧
        o.Clicked line (result = .ok .done) (s.armed file) o' (s'.armed file) ∧
        Apart i file s s') ∧
      ∀ projection ≠ o.authority, ∀ line, ∃ log,
        s.step c (.editor i (.toggle file projection line)) =
          (.ok .done, { s with workspace.log := log }) := by
  have h : s.Pins file := hs ▸ (pins_start archive store file).after es
  refine ⟨fun p x line pos hx hpos ↦ ?_, fun line ↦ h.toggle ho line, fun projection hp line ↦ ?_⟩
  · have hmark : (o.buffers.get p).marks.line? x = some pos.line := by
      rw [Marks.line?, hpos, Option.map_some]
    obtain hpinned | hempty := h.pinned ho
    · exact Option.some.inj (hmark.symm.trans (hpinned p x line hx))
    · rw [hempty p] at hpos
      cases Std.ExtTreeMap.getElem?_empty.symm.trans hpos
  · obtain ⟨e, hi, hopen⟩ := Option.bind_eq_some_iff.1 ho
    obtain ⟨box, hseat⟩ := seats_of_editorAt hi
    refine ⟨s.workspace.log ++ [.clickIgnored file projection], ?_⟩
    have hsame := List.set_getElem_self (List.getElem?_eq_some_iff.1 hseat).1
    rw [(List.getElem?_eq_some_iff.1 hseat).2] at hsame
    simp only [Session.step, atSeat, hseat, Editor.toggle_ignored (d := ⟨e, s.workspace⟩) hopen hp,
      hsame]
    rfl

/-- The second click beside a line takes away what the first one added. -/
theorem click_matches_gutter_again : ∃ s o s' o', s = ([.command .newEditor,
      .command (.editor 0 (.openScript "a")), .command (.editor 0 (.toggle "a" .primary 1))] :
      List Event).foldl (undergo Listing.compiler) (Session.start
        (ArchiveMap.ofList [("a", Utf8.encode "routine 5\n    a\n    b\n")])
        (⟨∅, ()⟩ : Ledger Unit)) ∧
    s.shown 0 "a" = some o ∧ o.authority = .primary ∧ o.buffer.markersOn 1 = [⟨5, 0⟩] ∧
    s.step Listing.compiler (.editor 0 (.toggle "a" .primary 1)) = (.ok .done, s') ∧
    s'.shown 0 "a" = some o' ∧ OpenScript.Gone ⟨5, 0⟩ o' (s'.armed "a") := by
  obtain ⟨s, hs⟩ : ∃ s, s = ([.command .newEditor, .command (.editor 0 (.openScript "a")),
      .command (.editor 0 (.toggle "a" .primary 1))] : List Event).foldl
      (undergo Listing.compiler) (Session.start
        (ArchiveMap.ofList [("a", Utf8.encode "routine 5\n    a\n    b\n")])
        (⟨∅, ()⟩ : Ledger Unit)) := ⟨_, rfl⟩
  have hshown : (s.shown 0 "a").map (fun o ↦ (o.authority, o.buffer.markersOn 1)) =
      some (.primary, [⟨5, 0⟩]) := by
    rw [hs]
    decide +kernel
  have hdone : isDone (s.step Listing.compiler (.editor 0 (.toggle "a" .primary 1))).1 = true := by
    rw [hs]
    decide +kernel
  obtain ⟨o, ho, heq⟩ := Option.map_eq_some_iff.1 hshown
  obtain ⟨hauthority, hmarkers⟩ := Prod.mk.inj heq
  obtain ⟨-, hclick, -⟩ := click_matches_gutter Listing.compiler _ _ _ hs ho
  obtain ⟨result, s', o', hstep, ho', hclicked, -⟩ := hclick 1
  rw [hauthority] at hstep
  rw [hstep] at hdone
  obtain rfl := isDone_iff.1 hdone
  have hgone := hclicked.hidden rfl ⟨5, 0⟩ (by rw [hmarkers]; exact .head _)
  exact ⟨s, o, s', o', hs, ho, hauthority, hmarkers, hstep, ho', hgone⟩

end Session

end ScriptBreakpoints
