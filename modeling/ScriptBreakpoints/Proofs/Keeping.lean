import ScriptBreakpoints.Compiler.Listing
import ScriptBreakpoints.Proofs.Working

namespace ScriptBreakpoints

open Fallible Workspace

/-- A script since it was saved as `o₀` with the map `m`, where `es` are the changes of lines since
and `marks` the marks that followed them: every marked line is still there, and so is the place of
the breakpoint that is armed for it. -/
structure Retained (o₀ : OpenScript) (m : SourceMap) (es : List LineEdit) (marks : Marks)
    (o : OpenScript) (a : Aspect) : Prop where
  authority : o.authority = o₀.authority
  lost : o.lost <+: o₀.lost
  awaits : o.Awaits marks a
  armed : a.armed = .ofList (m.breakpointsOn o₀.buffer.markerLines)
  mail : ∀ m ∈ a.mail, ∃ e, m = .reload e
  lines : ∀ l ∈ o₀.buffer.markerLines, ∃ line ∈ o.buffer.markerLines,
    LineEdit.through? es l = some line ∧ ∀ x, m.first? l = some x → marks.line? x = some line

namespace Retained

variable {o₀ o : OpenScript} {m : SourceMap} {es : List LineEdit} {marks : Marks} {a a' : Aspect}
  {as : List Address} {e : Reload}

theorem saved {t : Script} {binary : Binary} {views : Dual View} (ho : o.authority = t.authority)
    (hmail : a.mail = []) : Retained o m [] (.ofMap m) (o.saved m)
      (a.store t binary views (m.breakpointsOn o.buffer.markerLines)) := by
  refine ⟨rfl, List.prefix_refl _, .saved ho fun e he ↦ ?_, Aspect.armed_store, fun m' hm' ↦ ?_,
    fun l hl ↦ ⟨l, ?_, rfl, fun x hx ↦ Marks.line?_ofMap hx⟩⟩
  · rw [hmail] at he
    cases he
  · obtain hm' | ⟨e, he, -⟩ := Aspect.mem_mail_store hm'
    · rw [hmail] at hm'
      cases hm'
    · exact ⟨e, he⟩
  · rw [OpenScript.buffer_saved]
    exact hl

theorem still {lost : List Address} (h : Retained o₀ m es marks o a)
    (hlost : lost = o.lost ∨ lost = []) : Retained o₀ m es marks { o with lost } a := by
  refine ⟨h.authority, ?_, ⟨h.awaits.waiting, h.awaits.provisional, h.awaits.edits,
    h.awaits.reloads⟩, h.armed, h.mail, h.lines⟩
  obtain rfl | rfl := hlost
  · exact h.lost
  · exact List.nil_prefix

theorem spared (h : Retained o₀ m es marks o a) (ha : a.Spared o.authority a')
    (harmed : a'.armed = a.armed) (hmail : ∀ m ∈ a'.mail, ∃ e, m = .reload e) :
    Retained o₀ m es marks o a' :=
  ⟨h.authority, h.lost, h.awaits.spared ha, harmed.trans h.armed, hmail, h.lines⟩

theorem follow (h : Retained o₀ m es marks o a) {edit : LineEdit} (lines : List String)
    (hkept : ∀ (x : Address) line, o.buffer.markers[x]? = some line → edit.line? line ≠ none) :
    Retained o₀ m (es ++ [edit]) (marks.edit edit)
      (o.setBuffer ({ o.buffer with lines }.follow edit)) a := by
  refine ⟨h.authority, h.lost, h.awaits.follow edit lines, h.armed, h.mail, fun l hl ↦ ?_⟩
  obtain ⟨line, hline, hthrough, hmarks⟩ := h.lines l hl
  obtain ⟨x, hx⟩ := Buffer.mem_markerLines.1 hline
  obtain ⟨line', hline'⟩ := Option.ne_none_iff_exists'.1 (hkept x line hx)
  refine ⟨line', Buffer.mem_markerLines.2 ⟨x, ?_⟩, ?_, fun y hy ↦ ?_⟩
  · rw [OpenScript.buffer_setBuffer, Buffer.markers_follow]
    exact (congrArg (·.bind edit.line?) hx).trans hline'
  · rw [LineEdit.through?_append, hthrough]
    exact hline'
  · rw [Marks.line?_edit, hmarks y hy, Option.map_some, hline', Option.getD_some]

theorem mem_armed (h : Retained o₀ m es marks o a) {x : Address} :
    x ∈ a.armed ↔ ∃ l ∈ o₀.buffer.markerLines, m.first? l = some x := by
  rw [h.armed, mem_ofList, mem_breakpointsOn]

theorem hear (h : Retained o₀ m es marks o a) (he : e.authority = o.authority) (line : Nat) :
    line ∈ (o.hear a.armed.toList (.reload e)).buffer.markerLines ↔
      ∃ l ∈ o₀.buffer.markerLines, m.first? l ≠ none ∧ LineEdit.through? es l = some line := by
  rw [Buffer.mem_markerLines]
  simp only [h.awaits.markers_hear he, Std.ExtTreeSet.mem_toList, h.mem_armed,
    Option.ite_none_right_eq_some]
  constructor
  · rintro ⟨x, ⟨l, hl, hx⟩, hline⟩
    obtain ⟨line', -, hthrough, hmarks⟩ := h.lines l hl
    rw [hmarks x hx] at hline
    cases hline
    exact ⟨l, hl, by rw [hx]; exact Option.some_ne_none x, hthrough⟩
  · rintro ⟨l, hl, hfirst, hthrough⟩
    obtain ⟨x, hx⟩ := Option.ne_none_iff_exists'.1 hfirst
    obtain ⟨line', -, hthrough', hmarks⟩ := h.lines l hl
    rw [hthrough] at hthrough'
    cases hthrough'
    exact ⟨x, ⟨l, hl, hx⟩, hmarks x hx⟩

theorem lost_hear (h : Retained o₀ m es marks o a) (he : e.authority = o.authority) :
    (o.hear a.armed.toList (.reload e)).lost = o.lost := by
  refine h.awaits.lost_hear he fun x hx ↦ ?_
  obtain ⟨l, hl, hx⟩ := h.mem_armed.1 (Std.ExtTreeSet.mem_toList.1 hx)
  obtain ⟨line, -, -, hmarks⟩ := h.lines l hl
  rw [hmarks x hx]
  exact Option.some_ne_none line

end Retained

namespace Session

section Defs

variable {σ τ : Type} [Archive σ] [BreakpointStore τ]

/-- A move by which nobody changes the breakpoints of a script, saves it or changes which projection
is edited. The editor at seat `i` may change lines, but it deletes none that has a marker, and it
neither closes the script nor handles a reload of it. -/
structure Calm [LawfulStore τ] (c : Compiler) (i : Nat) (file : String) (s : Session σ τ)
    (m : Move) : Prop extends Spares i file s m where
  armed : LawfulStore.armed (move c m s).2.workspace.store file =
    LawfulStore.armed s.workspace.store file
  announced : ∀ m' ∈ (move c m s).2.inbox i, m'.file? = some file → ∃ e, m' = .reload e
  clicks : ∀ projection line, m ≠ .editor i (.toggle file projection line)
  handles : ∀ e, s.Handles i m (.reload e) → e.file ≠ file
  deletes : ∀ o edit r, s.shown i file = some o → m = .editor i r → r.file? = some file →
    r.lineEdit? o = some edit → ∀ line ∈ o.buffer.markerLines, edit.line? line ≠ none

end Defs

variable {σ τ : Type} [Archive σ] [BreakpointStore τ] [LawfulStore τ] {c : Compiler}
  {s saved s' : Session σ τ} {i : Nat} {file : String} {o₀ o : OpenScript} {m : SourceMap}
  {es : List LineEdit} {marks : Marks} {a : Aspect}

namespace Scene

variable (hs : s.Sound) (hi : s.Scene i file (some o) a) (hk : Retained o₀ m es marks o a)

include hs hi hk

theorem calm_aside {mv : Move} (haside : s.Aside i file mv) (hm : Calm c i file s mv) :
    ∃ a', (move c mv s).2.Scene i file (some o) a' ∧ Retained o₀ m es marks o a' := by
  obtain ⟨a', hi', ha'⟩ := hi.spared (c := c) hs haside (hm.requests hi.shown) hk.awaits.edits
  refine ⟨a', hi', hk.spared ha' ?_ fun m' hm' ↦ ?_⟩
  · rw [hi'.armed, hm.armed, hi.armed]
  · rw [hi'.mail, List.mem_filter] at hm'
    exact hm.announced m' hm'.1 (of_decide_eq_true hm'.2)

theorem calm_next (hunheard : ∀ e, .reload e ∈ a.mail → .reload e ∉ (s.inbox i).head?) :
    ∃ a', (move c (.next i) s).2.Scene i file (some o) a' ∧ Retained o₀ m es marks o a' ∧
      a'.mail = a.mail := by
  obtain ⟨a', hi', hspared, harmed, hmail⟩ | ⟨m', rest, as, hhead, -, hmail, -⟩ :=
    hi.handled (c := c) hs hk.awaits.edits
  · exact ⟨a', hi', hk.spared hspared harmed fun m' hm' ↦ hk.mail m' (hmail ▸ hm'), hmail⟩
  · have hmem : m' ∈ a.mail := hmail ▸ List.mem_cons_self
    obtain ⟨e, rfl⟩ := hk.mail m' hmem
    exact absurd hhead (hunheard e hmem)

theorem calm_nexts (hmail : a.mail = []) (n : Nat) :
    ∃ a', (s.after c (List.replicate n (.next i))).Scene i file (some o) a' ∧
      Retained o₀ m es marks o a' := by
  have hstep (s : Session σ τ) (h : s.Sound ∧ ∃ a, a.mail = [] ∧ s.Scene i file (some o) a ∧
      Retained o₀ m es marks o a) : (move c (.next i) s).2.Sound ∧ ∃ a, a.mail = [] ∧
        (move c (.next i) s).2.Scene i file (some o) a ∧ Retained o₀ m es marks o a := by
    obtain ⟨hs, a, hmail, hi, hk⟩ := h
    have hunheard (e : Reload) (he : .reload e ∈ a.mail) : .reload e ∉ (s.inbox i).head? := by
      rw [hmail] at he
      cases he
    obtain ⟨a', hi', hk', hmail'⟩ := hi.calm_next (c := c) hs hk hunheard
    exact ⟨hs.next i, a', hmail'.trans hmail, hi', hk'⟩
  obtain ⟨-, a', -, hi', hk'⟩ := after_replicate hstep n ⟨hs, a, hmail, hi, hk⟩
  exact ⟨a', hi', hk'⟩

/-- The editor's own work on the script changes lines, and nothing else that matters. -/
theorem calm_work {r : EditorRequest} (hfile : r.file? = some file)
    (hm : Calm c i file s (.editor i r)) : ∃ marks' o' a',
      (move c (.editor i r) s).2.Scene i file (some o') a' ∧
        Retained o₀ m (es ++ (s.lineEdit? i file (.editor i r)).toList) marks' o' a' := by
  obtain ⟨t, ht, -⟩ := hk.awaits.edits
  obtain ⟨o', a', hi', hworked⟩ := hi.work (c := c) hs ht hfile
    (fun confirm h ↦ hm.closes confirm (h ▸ rfl)) (hm.saves hi.shown)
  have hedit : s.lineEdit? i file (.editor i r) = r.lineEdit? o := by
    rw [lineEdit?, if_pos ⟨rfl, hfile⟩, hi.shown]
    rfl
  rw [hedit]
  cases hworked with
  | still hnone _ hlost =>
    rw [hnone, Option.toList_none, List.append_nil]
    exact ⟨marks, _, _, hi', hk.still hlost⟩
  | @edited edit lines removed hsome hgone _ =>
    have hkept (x : Address) (line : Nat) (hx : o.buffer.markers[x]? = some line) :
        edit.line? line ≠ none :=
      hm.deletes o edit r hi.shown rfl hfile hsome line (Buffer.mem_markerLines.2 ⟨x, hx⟩)
    obtain rfl : removed = [] := by
      refine List.eq_nil_iff_forall_not_mem.2 fun x hx ↦ ?_
      obtain ⟨line, hx, hline⟩ := hgone x hx
      exact hkept x line hx hline
    rw [hsome, Option.toList_some]
    exact ⟨_, _, _, hi', hk.follow lines hkept⟩
  | toggled hr =>
    subst hr
    exact absurd rfl (hm.clicks _ _)

theorem calm {mv : Move} (hm : Calm c i file s mv) : ∃ marks' o' a',
    (move c mv s).2.Scene i file (some o') a' ∧
      Retained o₀ m (es ++ (s.lineEdit? i file mv).toList) marks' o' a' := by
  have hfile (e : Reload) (he : .reload e ∈ a.mail) : .reload e ∈ s.inbox i ∧ e.file = file := by
    rw [hi.mail, List.mem_filter] at he
    exact ⟨he.1, Option.some.inj (of_decide_eq_true he.2)⟩
  rcases s.aside_or i file mv with haside | rfl | rfl | ⟨r, rfl, hr⟩
  · obtain ⟨a', hi', hk'⟩ := hi.calm_aside hs hk haside hm
    rw [lineEdit?_aside haside, Option.toList_none, List.append_nil]
    exact ⟨marks, o, a', hi', hk'⟩
  · have hunheard (e : Reload) (he : .reload e ∈ a.mail) : .reload e ∉ (s.inbox i).head? :=
      fun hhead ↦ hm.handles e ⟨rfl, hhead⟩ (hfile e he).2
    obtain ⟨a', hi', hk', -⟩ := hi.calm_next (c := c) hs hk hunheard
    have hnone : s.lineEdit? i file (.next i) = none := rfl
    rw [hnone, Option.toList_none, List.append_nil]
    exact ⟨marks, o, a', hi', hk'⟩
  · have hmail : a.mail = [] := by
      refine List.eq_nil_iff_forall_not_mem.2 fun m' hm' ↦ ?_
      obtain ⟨e, rfl⟩ := hk.mail m' hm'
      exact hm.handles e ⟨rfl, (hfile e hm').1⟩ (hfile e hm').2
    have hnone : s.lineEdit? i file (.editor i .runPending) = none := if_neg fun h ↦ nomatch h.2
    obtain ⟨n, hn⟩ := move_runPending (c := c) hs i
    rw [hn, hnone, Option.toList_none, List.append_nil]
    obtain ⟨a', hi', hk'⟩ := hi.calm_nexts (c := c) hs hk hmail n
    exact ⟨marks, o, a', hi', hk'⟩
  · exact hi.calm_work hs hk hr hm

theorem calm_after {ms : List Move} (hms : Along c (Calm c i file) s ms) : ∃ marks' o' a',
    (s.after c ms).Scene i file (some o') a' ∧
      Retained o₀ m (es ++ lineEdits c i file s ms) marks' o' a' := by
  induction ms generalizing s o a es marks with
  | nil =>
    rw [lineEdits, List.append_nil]
    exact ⟨marks, o, a, hi, hk⟩
  | cons mv ms ih =>
    obtain ⟨marks', o', a', hi', hk'⟩ := hi.calm hs hk hms.1
    rw [lineEdits, ← List.append_assoc]
    exact ih (hs.move mv) hi' hk' hms.2

end Scene

/-- An editor with no mail saves a text, and until it handles the next reload of the script nobody
changes breakpoints, saves the script or changes which projection is edited, and no line with a
marker is deleted. If the breakpoints can be listed then, markers stand exactly where the marked
lines with instructions were moved to, their first instructions are armed and no others, and nothing
is lost. -/
theorem breakpoints_kept_by_save (c : Compiler) (archive : σ) (store : τ) {history ms : List Move}
    (hs : s = (start archive store).after c history) (ho : s.shown i file = some o)
    (hinbox : s.inbox i = []) {readiness : Readiness}
    (hsave : move c (.editor i (.save file)) s = (.ok (.readiness (some readiness)), saved))
    (hms : Along c (Calm c i file) saved ms) (hs' : s' = saved.after c ms) {e : Reload}
    {rest : List Message} (hreload : s'.inbox i = .reload e :: rest) (hfile : e.file = file)
    {as : List Address} (hlist : (BreakpointStore.list file s'.workspace.store).1 = .ok as) :
    ∃ compiled o' o'', c.compile o.authority o.buffer.text = .ok compiled ∧
      s'.shown i file = some o' ∧ (move c (.next i) s').2.shown i file = some o'' ∧
      o''.authority = o.authority ∧
      (∀ line, line ∈ o''.buffer.markerLines ↔ ∃ l ∈ o.buffer.markerLines,
        compiled.map.first? l ≠ none ∧
          LineEdit.through? (lineEdits c i file saved ms) l = some line) ∧
      (∀ x, x ∈ LawfulStore.armed (move c (.next i) s').2.workspace.store file ↔
        ∃ l ∈ o.buffer.markerLines, compiled.map.first? l = some x) ∧
      o''.lost = o'.lost ∧ o'.lost <+: o.lost := by
  have hsound : s.Sound := by
    rw [hs]
    exact (sound_start archive store).after history
  obtain ⟨a, hi, hmail⟩ := hsound.scene_shown ho
  rw [hinbox, List.filter_nil] at hmail
  have hsaved : (move c (.editor i (.save file)) s).2 = saved := by rw [hsave]
  obtain ⟨t, compiled, other, hauthority, hc, hi⟩ := hi.save hsound (by rw [hsave])
  rw [hsaved] at hi
  have hsound := hsound.move (c := c) (.editor i (.save file))
  rw [hsaved] at hsound
  obtain ⟨marks, o', a', hi', hk⟩ := hi.calm_after hsound (Retained.saved hauthority hmail) hms
  rw [← hs'] at hi'
  rw [List.nil_append] at hk
  obtain ⟨t', ht', -⟩ := hk.awaits.edits
  obtain ⟨as', hi'', has⟩ := hi'.hear (c := c) (fun _ ↦ ⟨t', ht'⟩) hreload (congrArg some hfile)
  obtain rfl : as' = a'.armed.toList := has.resolve_right fun h ↦ h.2 as hlist
  have he : e.authority = o'.authority := by
    refine hk.awaits.reloads e ?_
    rw [hi'.mail, hreload, List.mem_filter]
    exact ⟨List.mem_cons_self, decide_eq_true (congrArg some hfile)⟩
  refine ⟨compiled, o', _, hc, hi'.shown, hi''.shown, he.trans hk.authority, hk.hear he, fun x ↦ ?_,
    hk.lost_hear he, hk.lost⟩
  rw [← hi''.armed]
  exact hk.mem_armed

/-- A breakpoint is kept although an instruction was put in front of its own and a line above it was
inserted before the reload. -/
theorem breakpoints_kept_across_insertion :
    ∃ s saved o, s = (start (ArchiveMap.ofList [("a", Utf8.encode "routine 5\n    a\n")])
        (⟨∅, ()⟩ : Ledger Unit)).after Listing.compiler [.newEditor, .editor 0 (.openScript "a"),
          .editor 0 (.toggle "a" .primary 1), .editor 0 .runPending,
          .editor 0 (.insertLines "a" .primary 1 ["    b"])] ∧
      move Listing.compiler (.editor 0 (.save "a")) s = (.ok (.readiness (some .ready)), saved) ∧
      (saved.after Listing.compiler [.editor 0 (.insertLines "a" .primary 0 [""]),
        .next 0]).shown 0 "a" = some o ∧ 3 ∈ o.buffer.markerLines := by
  obtain ⟨s, hs⟩ : ∃ s, s = (start (ArchiveMap.ofList [("a", Utf8.encode "routine 5\n    a\n")])
      (⟨∅, ()⟩ : Ledger Unit)).after Listing.compiler [.newEditor, .editor 0 (.openScript "a"),
        .editor 0 (.toggle "a" .primary 1), .editor 0 .runPending,
        .editor 0 (.insertLines "a" .primary 1 ["    b"])] := ⟨_, rfl⟩
  obtain ⟨saved, hsaved⟩ : ∃ saved, saved = (move Listing.compiler (.editor 0 (.save "a")) s).2 :=
    ⟨_, rfl⟩
  obtain ⟨s', hs'⟩ : ∃ s', s' = saved.after Listing.compiler
      [.editor 0 (.insertLines "a" .primary 0 [""])] := ⟨_, rfl⟩
  have hinbox : (s.inbox 0).isEmpty = true := by
    rw [hs]
    decide +kernel
  have hanswer : readiness? (move Listing.compiler (.editor 0 (.save "a")) s).1 = some .ready := by
    rw [hs]
    decide +kernel
  have hbefore : (s.shown 0 "a").map (fun o ↦ (2 ∈ o.buffer.markerLines : Bool) &&
      (Listing.compiler.compile o.authority o.buffer.text).toOption.any fun compiled ↦
        (compiled.map.first? 2).isSome) = some true := by
    rw [hs]
    decide +kernel
  have hthrough : LineEdit.through? (lineEdits Listing.compiler 0 "a" saved
      [.editor 0 (.insertLines "a" .primary 0 [""])]) 2 = some 3 := by
    rw [hsaved, hs]
    decide +kernel
  have harmed : (LawfulStore.armed s'.workspace.store "a").toList =
      (LawfulStore.armed saved.workspace.store "a").toList := by
    rw [hs', hsaved, hs]
    decide +kernel
  have hmail : (s'.inbox 0).map Message.reloaded? = [some "a"] := by
    rw [hs', hsaved, hs]
    decide +kernel
  have hlist : (BreakpointStore.list "a" s'.workspace.store).1 = .ok [⟨5, 1⟩] := by
    rw [hs', hsaved, hs]
    decide +kernel
  have hsave : move Listing.compiler (.editor 0 (.save "a")) s =
      (.ok (.readiness (some .ready)), saved) :=
    Prod.ext (readiness?_eq_some.1 hanswer) hsaved.symm
  obtain ⟨e, hreload, hfile⟩ : ∃ e, s'.inbox 0 = [.reload e] ∧ e.file = "a" := by
    obtain ⟨m, hreload, hm⟩ := List.map_eq_singleton_iff.1 hmail
    obtain ⟨e, rfl, hfile⟩ := Message.reloaded?_eq_some.1 hm
    exact ⟨e, hreload, hfile⟩
  have hcalm : Calm Listing.compiler 0 "a" saved
      (.editor 0 (.insertLines "a" .primary 0 [""])) := by
    rw [hs'] at harmed hreload
    refine ⟨⟨fun r hr ↦ ?_, by simp, by simp⟩, Std.ExtTreeSet.toList_inj.1 harmed,
      fun m hm _ ↦ ⟨e, List.mem_singleton.1 (hreload ▸ hm)⟩, by simp, by simp [Handles],
      fun o edit r _ hr _ hedit line _ ↦ ?_⟩
    · obtain ⟨_, -, hr⟩ | ⟨hr, -⟩ := hr <;> cases hr
    · cases hr
      rw [EditorRequest.lineEdit?, Option.ite_none_right_eq_some] at hedit
      obtain ⟨-, hedit⟩ := hedit
      cases hedit
      exact Option.some_ne_none _
  have hms : Along Listing.compiler (Calm Listing.compiler 0 "a") saved
      [.editor 0 (.insertLines "a" .primary 0 [""])] := ⟨hcalm, trivial⟩
  obtain ⟨o, ho, hbefore⟩ := Option.map_eq_some_iff.1 hbefore
  obtain ⟨compiled, -, o', hc, -, ho', -, hlines, -⟩ :=
    breakpoints_kept_by_save Listing.compiler _ _ hs ho (List.isEmpty_iff.1 hinbox) hsave hms hs'
      hreload hfile hlist
  rw [hc, Except.toOption, Option.any_some, Bool.and_eq_true] at hbefore
  obtain ⟨hmarked, hfirst⟩ := hbefore
  rw [hs'] at ho'
  exact ⟨s, saved, o', hs, hsave, ho', (hlines 3).2 ⟨2, of_decide_eq_true hmarked,
    Option.ne_none_iff_isSome.2 hfirst, hthrough⟩⟩

end Session

end ScriptBreakpoints
