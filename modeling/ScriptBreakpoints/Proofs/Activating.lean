import Mathlib.Data.List.Infix
import ScriptBreakpoints.Proofs.Queueing
import ScriptBreakpoints.Proofs.Rebuilding

namespace ScriptBreakpoints

open Fallible Workspace

namespace OpenScript

structure Holds (p : Projection) (marks : Marks) (o : OpenScript) : Prop where
  authority : o.authority = p
  waiting : o.waiting = true
  marks : o.buffer.marks = marks

/-- What becomes of it when the editor handles `ms`: a reload of the script ends the waiting. -/
structure HoldsAfter (file : String) (ms : List Message) (p : Projection) (marks : Marks)
    (o : OpenScript) : Prop where
  ended : file ∈ Message.reloaded ms → o.waiting = false
  holds : file ∉ Message.reloaded ms → o.Holds p marks

variable {file : String} {o o' : OpenScript} {a a' : Aspect} {p : Projection} {marks : Marks}
  {x : Address} {m : Message} {ms : List Message} {as : List Address}

theorem waiting_hear_reload (e : Reload) : (o.hear as (.reload e)).waiting = false := rfl

namespace Holds

theorem showMarker (h : o.Holds p marks) : (o.showMarker x).Holds p marks := by
  refine ⟨h.authority, h.waiting, ?_⟩
  rw [buffer_showMarker, Buffer.marks_showMarker, h.marks]

theorem hideMarker (h : o.Holds p marks) : (o.hideMarker x).Holds p marks := by
  refine ⟨h.authority, h.waiting, ?_⟩
  rw [buffer_hideMarker, Buffer.marks_hideMarker, h.marks]

theorem follow (h : o.Holds p marks) (edit : LineEdit) (lines : List String) :
    (o.setBuffer ({ o.buffer with lines }.follow edit)).Holds p (marks.edit edit) := by
  refine ⟨h.authority, h.waiting, ?_⟩
  rw [buffer_setBuffer, ← h.marks]
  rfl

theorem saved (h : o.buffer.marks = marks) (m : SourceMap) :
    (o.saved m).Holds o.authority marks := by
  refine ⟨rfl, rfl, ?_⟩
  rw [buffer_saved]
  exact h

theorem worked {r : EditorRequest} {ok : Prop} (h : o.Holds p marks)
    (hw : Worked file o a r ok o' a') : o'.Holds p (marks.edited (r.lineEdit? o).toList) :=
  hw.follows (P := fun e o ↦ o.Holds p (marks.edited e.toList))
    (fun _ ↦ ⟨h.authority, h.waiting, h.marks⟩) h.follow (fun _ h ↦ h.showMarker)
    fun _ h ↦ h.hideMarker

end Holds

namespace HoldsAfter

theorem nothing (h : o.Holds p marks) : o.HoldsAfter file [] p marks :=
  ⟨fun hmem ↦ absurd hmem List.not_mem_nil, fun _ ↦ h⟩

theorem append (h : o.HoldsAfter file ms p marks) {more : List Message}
    (hmore : file ∉ Message.reloaded more) (hended : o.waiting = false → o'.waiting = false)
    (hholds : o.Holds p marks → o'.Holds p marks) : o'.HoldsAfter file (ms ++ more) p marks := by
  have hsame : file ∈ Message.reloaded (ms ++ more) ↔ file ∈ Message.reloaded ms := by
    rw [Message.mem_reloaded_append, or_iff_left hmore]
  exact ⟨fun hmem ↦ hended (h.ended (hsame.1 hmem)), fun hmem ↦ hholds (h.holds (mt hsame.2 hmem))⟩

theorem aside (h : o.HoldsAfter file ms p marks) {more : List Message}
    (hmore : file ∉ Message.reloaded more) : o.HoldsAfter file (ms ++ more) p marks :=
  h.append hmore id id

theorem hear (h : o.HoldsAfter file ms p marks) (hm : m.file? = some file) :
    (o.hear as m).HoldsAfter file (ms ++ [m]) p marks := by
  cases m with
  | reload e =>
    refine ⟨fun _ ↦ waiting_hear_reload e, fun hnone ↦ absurd ?_ hnone⟩
    exact Message.mem_reloaded.2
      ⟨e, List.mem_append_right _ List.mem_cons_self, Option.some.inj hm⟩
  | added f x => exact h.append List.not_mem_nil id fun h ↦ h.showMarker
  | removed f x => exact h.append List.not_mem_nil id fun h ↦ h.hideMarker
  | shutdown => cases hm

end HoldsAfter

end OpenScript

namespace Session

variable {σ τ : Type} [Archive σ] [BreakpointStore τ] [LawfulStore τ] {c : Compiler}
  {s : Session σ τ} {i : Nat} {file : String} {o : OpenScript} {a : Aspect} {p : Projection}
  {marks : Marks} {archive : σ} {store : τ} {before : List Move} {m : Move}

namespace Scene

theorem holds_next (hs : s.Sound) (hi : s.Scene i file (some o) a) (h : Attended (some o) a)
    {ms : List Message} (hk : o.HoldsAfter file ms p marks) :
    ∃ o' a', (move c (.next i) s).2.Scene i file (some o') a' ∧ Attended (some o') a' ∧
      o'.HoldsAfter file (ms ++ s.handled i (.next i)) p marks := by
  obtain haside | ⟨m, rest, hinbox, hfile⟩ := s.aside_next_or i file
  · obtain ⟨a', hi', hpasses⟩ := hi.passes (c := c) hs haside
    exact ⟨o, a', hi', h.passes hpasses, hk.aside (handled_aside haside)⟩
  · obtain ⟨as, hi', -⟩ := hi.hear (c := c) (fun _ ↦ h.tracked) hinbox hfile
    refine ⟨_, _, hi', h.hear as m _, ?_⟩
    rw [Session.handled, if_pos rfl, hinbox]
    exact hk.hear hfile

theorem holds_pending (hs : s.Sound) (hnamed : ∀ m ∈ s.inbox i, m.file?.isSome)
    (hi : s.Scene i file (some o) a) (h : Attended (some o) a) (hk : o.Holds p marks) :
    ∃ o' a', (move c (.editor i .runPending) s).2.Scene i file (some o') a' ∧
      o'.HoldsAfter file (s.handled i (.editor i .runPending)) p marks := by
  obtain ⟨ms, o', a', hmail, hi', -, hk'⟩ := runPending_keeps (c := c) (i := i)
    (P := fun s' ↦ ∃ ms o' a', s.inbox i = ms ++ s'.inbox i ∧ s'.Scene i file (some o') a' ∧
      Attended (some o') a' ∧ o'.HoldsAfter file ms p marks) hs
    (fun s' hs' ⟨ms, o', a', hmail, hi', h', hk'⟩ ↦ by
      obtain ⟨o'', a'', hi'', h'', hk''⟩ := hi'.holds_next (c := c) hs' h' hk'
      refine ⟨_, o'', a'', ?_, hi'', h'', hk''⟩
      rw [hmail, List.append_assoc, ← handled_next hs'])
    ⟨[], o, a, rfl, hi, h, .nothing hk⟩
  refine ⟨o', a', hi', ?_⟩
  rw [runPending_eq hs hnamed, inbox_nexts hs, List.drop_length, List.append_nil] at hmail
  rw [Session.handled, if_pos rfl, hmail]
  exact hk'

theorem holds_own (hs : s.Sound) (hi : s.Scene i file (some o) a) (h : Attended (some o) a)
    (hk : o.Holds p marks) {r : EditorRequest} (hfile : r.file? = some file)
    (hopen : ((move c (.editor i r) s).2.shown i file).isSome) :
    ∃ o' a', (move c (.editor i r) s).2.Scene i file (some o') a' ∧
      o'.Holds p (marks.edited (r.lineEdit? o).toList) := by
  obtain ⟨t, ht⟩ := h.tracked
  by_cases hsave : r = .save file
  · subst hsave
    obtain ⟨result, o', a', -, hi', hstored⟩ := hi.stored (c := c) hs ht
    refine ⟨o', a', hi', ?_⟩
    cases hstored with
    | unmodified => exact hk
    | failed => exact hk
    | unrestored => exact hk
    | @saved compiled =>
      rw [← hk.authority]
      exact .saved hk.marks compiled.map
  by_cases hclose : ∃ confirm, r = .closeScript file confirm
  · obtain ⟨confirm, rfl⟩ := hclose
    obtain ⟨e, hseat, hshows⟩ := hi
    obtain ⟨result, d', v', a', ho, hd', -, hv'⟩ := hshows.closeScript (c := c) ht confirm
    rw [move_editor hs hseat rfl, EditorRequest.perform, outcome_bind_pure, ho] at hopen ⊢
    have hi' := put_self hseat hd'
    rw [hi'.shown] at hopen
    obtain ⟨rfl, -⟩ | ⟨rfl, -⟩ := hv'
    · cases hopen
    · exact ⟨o, a', hi', hk⟩
  · obtain ⟨o', a', hi', hworked⟩ := hi.work (c := c) hs ht hfile
      (fun confirm h ↦ hclose ⟨confirm, h⟩) hsave
    exact ⟨o', a', hi', hk.worked hworked⟩

theorem holds_move (hs : s = (start archive store).after c before)
    (hi : s.Scene i file (some o) a) (hk : o.Holds p marks)
    (hopen : ((move c m s).2.shown i file).isSome) :
    ∃ o', (move c m s).2.shown i file = some o' ∧
      o'.HoldsAfter file (s.handled i m) p (marks.edited (s.lineEdit? i file m).toList) := by
  have hsound := sound_after hs
  have h := attended_after hs hi
  rcases s.aside_or i file m with haside | rfl | rfl | ⟨r, rfl, hfile⟩
  · obtain ⟨a', hi', -⟩ := hi.passes (c := c) hsound haside
    rw [lineEdit?_aside haside]
    exact ⟨o, hi'.shown, (OpenScript.HoldsAfter.nothing hk).aside (handled_aside haside)⟩
  · obtain ⟨o', a', hi', -, hk'⟩ := hi.holds_next (c := c) hsound h (.nothing hk)
    exact ⟨o', hi'.shown, hk'⟩
  · obtain ⟨o', a', hi', hk'⟩ := hi.holds_pending (c := c) hsound (named_after hs i) h hk
    have hnone : s.lineEdit? i file (.editor i .runPending) = none := if_neg fun h ↦ by cases h.2
    rw [hnone]
    exact ⟨o', hi'.shown, hk'⟩
  · obtain ⟨o', a', hi', hk'⟩ := hi.holds_own hsound h hk hfile hopen
    have hedit : s.lineEdit? i file (.editor i r) = r.lineEdit? o := by
      rw [lineEdit?, if_pos ⟨rfl, hfile⟩, hi.shown]
      rfl
    have hnothing : s.handled i (.editor i r) = [] := by
      refine handled_of_ne (fun hnext ↦ ?_) fun hpending ↦ ?_
      · cases hnext
      · cases hpending
        cases hfile
    rw [hedit, hnothing]
    exact ⟨o', hi'.shown, .nothing hk'⟩

end Scene

/-- Along a run the marks follow the lines and the reload is awaited exactly as long as the editor
has the script open and handles no reload of it. -/
theorem holds_along_iff (hs : s = (start archive store).after c before)
    (ho : s.shown i file = some o) (hk : o.Holds p marks) (ms : List Move) :
    (∀ ms', ms' <+: ms → ∃ o', (s.after c ms').shown i file = some o' ∧
        o'.Holds p (marks.edited (lineEdits c i file s ms'))) ↔
      (∀ ms', ms' <+: ms → ((s.after c ms').shown i file).isSome) ∧
        file ∉ Message.reloaded (s.allHandled c i ms) := by
  induction ms generalizing s before o marks with
  | nil =>
    simp only [List.prefix_nil, forall_eq]
    refine iff_of_true ⟨o, ho, hk⟩ ⟨?_, List.not_mem_nil⟩
    rw [after, List.foldl_nil, ho]
    rfl
  | cons m ms ih =>
    obtain ⟨a, hi, -⟩ := (sound_after hs).scene_shown ho
    have hnow : ∃ o', (s.after c []).shown i file = some o' ∧
        o'.Holds p (marks.edited (lineEdits c i file s [])) := ⟨o, ho, hk⟩
    have hopen : ((s.after c []).shown i file).isSome := Option.isSome_of_eq_some ho
    have hend {o' : OpenScript} (ho' : (move c m s).2.shown i file = some o')
        (hk' : o'.Holds p (marks.edited (s.lineEdit? i file m).toList)) :=
      ih (move_after hs m) ho' hk'
    simp only [← Marks.edited_append] at hend
    rw [forall_prefix_cons, forall_prefix_cons, and_iff_right hnow, and_iff_right hopen, allHandled,
      Message.mem_reloaded_append, not_or]
    constructor
    · intro hall
      obtain ⟨o₁, ho₁, hk₁⟩ := hall [] List.nil_prefix
      obtain ⟨o', ho', hafter⟩ := hi.holds_move hs hk (Option.isSome_of_eq_some ho₁)
      obtain rfl : o' = o₁ := Option.some.inj (ho'.symm.trans ho₁)
      have hunread : file ∉ Message.reloaded (s.handled i m) := by
        intro hreload
        have hended := hafter.ended hreload
        rw [hk₁.waiting] at hended
        cases hended
      obtain ⟨hshown, hnone⟩ := (hend ho' (hafter.holds hunread)).1 hall
      exact ⟨hshown, hunread, hnone⟩
    · rintro ⟨hshown, hunread, hnone⟩
      obtain ⟨o', ho', hafter⟩ := hi.holds_move hs hk (hshown [] List.nil_prefix)
      exact (hend ho' (hafter.holds hunread)).2 ⟨hshown, hnone⟩

omit [LawfulStore τ] in
theorem active_perform {w : Refusable σ τ} {t : Script} (ht : w.scripts[file]? = some t)
    (hname : t.file = file) (r : Request) :
    ∃ t', ((r.perform c).outcome w).2.scripts[file]? = some t' ∧ t'.file = file ∧
      (file ∉ Message.reloaded (r.emits c w) → t'.active = t.active) := by
  have hend := r.respond c w
  rw [Request.emits]
  generalize (r.perform c).outcome w = outcome at hend ⊢
  rcases outcome with ⟨result, w'⟩
  dsimp only at hend ⊢
  have hfound {t₀ t₁ : Script} (hf : Finds c w r.file t₀)
      (hs : w'.scripts = w.scripts.insert r.file t₁) :
      file = r.file ∧ t₀ = t ∧ w'.scripts[file]? = some t₁ ∨
        w'.scripts[file]? = some t := by
    rw [hs]
    by_cases hfile : file = r.file
    · subst hfile
      exact .inl ⟨rfl, hf.unique (.tracked ht), Std.ExtTreeMap.getElem?_insert_self⟩
    · exact .inr ((getElem?_insert_of_ne hfile).trans ht)
  cases hend with
  | unfound _ _ hs => exact ⟨t, by rw [hs, ht], hname, fun _ ↦ rfl⟩
  | refused hf hs =>
    obtain ⟨-, rfl, ht'⟩ | ht' := hfound hf hs <;> exact ⟨_, ht', hname, fun _ ↦ rfl⟩
  | unrestored _ hf hs =>
    obtain ⟨-, rfl, ht'⟩ | ht' := hfound hf hs <;> exact ⟨_, ht', hname, fun _ ↦ rfl⟩
  | @granted _ t₀ _ hf hs =>
    obtain ⟨hfile, rfl, ht'⟩ | ht' := hfound hf hs
    · refine ⟨_, ht', (t₀.file_after _).trans hname, fun hnone ↦ Script.active_after ?_⟩
      rw [r.reloads_turn c t₀, ← Bool.not_eq_true]
      intro hpromotes
      have hposts := r.posts_of_promotes c t₀ hpromotes
      simp only [hf.outcome, hposts] at hnone
      refine hnone (Message.mem_reloaded.2 ⟨_, List.mem_singleton.2 rfl, ?_⟩)
      exact (t₀.file_after _).trans hname
    · exact ⟨t, ht', hname, fun _ ↦ rfl⟩

omit [LawfulStore τ] in
theorem active_emits {w w' : Refusable σ τ} {ms : List Message} (h : Emits c w ms w') {t : Script}
    (ht : w.scripts[file]? = some t) (hname : t.file = file) :
    ∃ t', w'.scripts[file]? = some t' ∧ t'.file = file ∧
      (file ∉ Message.reloaded ms → t'.active = t.active) := by
  induction h with
  | nothing => exact ⟨t, ht, hname, fun _ ↦ rfl⟩
  | ask r _ ih =>
    obtain ⟨t₁, ht₁, hname₁, hactive₁⟩ := ih
    obtain ⟨t₂, ht₂, hname₂, hactive₂⟩ := active_perform (c := c) ht₁ hname₁ r
    refine ⟨t₂, ht₂, hname₂, fun hnone ↦ ?_⟩
    rw [Message.mem_reloaded_append, not_or] at hnone
    rw [hactive₂ hnone.2, hactive₁ hnone.1]
  | aside _ _ _ hs ih =>
    rw [hs]
    exact ih

/-- As long as no reload of a script is posted to an editor that has it open, the engine executes
what it did. -/
theorem active_along (hs : s = (start archive store).after c before) {t : Script}
    (ht : s.workspace.scripts[file]? = some t) (hname : t.file = file) (ms : List Move)
    (hopen : ∀ ms', ms' <+: ms → ((s.after c ms').shown i file).isSome)
    (hnone : file ∉ Message.reloaded (s.posted c i ms)) :
    ∃ t', (s.after c ms).workspace.scripts[file]? = some t' ∧ t'.active = t.active := by
  induction ms generalizing s before t with
  | nil => exact ⟨t, ht, rfl⟩
  | cons m ms ih =>
    obtain ⟨emitted, hemits, -, hposted⟩ := posted_move hs i m
    obtain ⟨t₁, ht₁, hname₁, hactive₁⟩ := active_emits hemits ht hname
    rw [posted_cons hs, Message.mem_reloaded_append, not_or, hposted] at hnone
    have hemitted : file ∉ Message.reloaded emitted := by
      intro h
      obtain ⟨e, he, hfile⟩ := Message.mem_reloaded.1 h
      refine hnone.1 (Message.mem_reloaded.2 ⟨e, List.mem_filter.2 ⟨he, ?_⟩, hfile⟩)
      rw [shows, Message.file?, Option.any_some, hfile]
      exact hopen [] List.nil_prefix
    obtain ⟨t₂, ht₂, hactive₂⟩ := ih (move_after hs m) ht₁ hname₁
      (fun ms' hms' ↦ hopen (m :: ms') (List.cons_prefix_cons.2 ⟨rfl, hms'⟩)) hnone.2
    exact ⟨t₂, ht₂, hactive₂.trans (hactive₁ hemitted)⟩

/-- A text was saved, and the editor has not handled a reload that was posted to it since. The
script waits for its reload, with the marks that it had when it was saved, which follow the lines,
exactly if the editor has it open all along and what it handled of the mail that waited for it then
was no reload of the script either. As long as none is posted the engine executes what it did. -/
theorem save_held_until_reload_iff (c : Compiler) (archive : σ) (store : τ)
    {before ms : List Move} {s s₁ : Session σ τ} {o : OpenScript} {readiness : Readiness}
    (hs : s = (start archive store).after c before) (ho : s.shown i file = some o)
    (hsave : move c (.editor i (.save file)) s = (.ok (.readiness (some readiness)), s₁))
    (hnew : file ∉ Message.reloaded ((s₁.allHandled c i ms).drop (s.inbox i).length)) :
    ((∀ ms', ms' <+: ms → ∃ o', (s₁.after c ms').shown i file = some o' ∧
        o'.Holds o.authority (o.buffer.marks.edited (lineEdits c i file s₁ ms'))) ↔
      (∀ ms', ms' <+: ms → ((s₁.after c ms').shown i file).isSome) ∧
        file ∉ Message.reloaded ((s.inbox i).take (s₁.allHandled c i ms).length)) ∧
    ((∀ ms', ms' <+: ms → ((s₁.after c ms').shown i file).isSome) →
      file ∉ Message.reloaded (s.posted c i (.editor i (.save file) :: ms)) →
      (s₁.after c ms).workspace.scripts[file]?.map (·.active) =
        s.workspace.scripts[file]?.map (·.active)) := by
  have hsound := sound_after hs
  obtain ⟨a, hi, -⟩ := hsound.scene_shown ho
  have hs₁ : s₁ = (move c (.editor i (.save file)) s).2 := by rw [hsave]
  refine ⟨?_, fun hopen hnone ↦ ?_⟩
  · obtain ⟨t, compiled, other, -, -, hi'⟩ := hi.save hsound (congrArg Prod.fst hsave)
    have hall : s.allHandled c i (.editor i (.save file) :: ms) = s₁.allHandled c i ms := by
      rw [hs₁]
      rfl
    have hsplit : file ∉ Message.reloaded (s₁.allHandled c i ms) ↔
        file ∉ Message.reloaded ((s.inbox i).take (s₁.allHandled c i ms).length) := by
      rw [← hall, ← take_allHandled hs, hall, not_iff_not]
      conv_lhs => rw [← List.take_append_drop (s.inbox i).length (s₁.allHandled c i ms)]
      rw [Message.mem_reloaded_append, or_iff_left hnew]
    rw [← hsplit]
    rw [← hs₁] at hi'
    exact holds_along_iff (hs₁.trans (move_after hs _)) hi'.shown (.saved rfl _) ms
  · obtain ⟨t, ht⟩ := tracked_after hs ho
    have hopen' (ms' : List Move) (hms' : ms' <+: .editor i (.save file) :: ms) :
        ((s.after c ms').shown i file).isSome := by
      cases ms' with
      | nil => rw [after, List.foldl_nil, ho, Option.isSome_some]
      | cons m' ms' =>
        obtain ⟨rfl, hprefix⟩ := List.cons_prefix_cons.1 hms'
        rw [after, List.foldl_cons, hsave]
        exact hopen ms' hprefix
    obtain ⟨t', ht', hactive⟩ :=
      active_along hs ht (hsound.orderly.named ht) _ hopen' hnone
    rw [after, List.foldl_cons, hsave] at ht'
    rw [ht, Option.map_some, ← hactive, after, ht', Option.map_some]

/-- A breakpoint is added in front of the save, and the editor handles this message after it. -/
theorem save_held_across_older_breakpoint :
    ∃ s s₁ o o', s = (start (ArchiveMap.ofList [("a", Utf8.encode "routine 5\n    a\n")])
        (⟨∅, ()⟩ : Ledger Unit)).after Listing.compiler [.newEditor, .editor 0 (.openScript "a"),
          .ask (.openInEngine "a"), .ask (.addBreakpoint "a" 1 .primary),
          .editor 0 (.insertLines "a" .primary 1 ["    x"])] ∧
      s.shown 0 "a" = some o ∧ (s.inbox 0).length = 1 ∧
      move Listing.compiler (.editor 0 (.save "a")) s =
        (.ok (.readiness (some .deferred)), s₁) ∧
      (s₁.after Listing.compiler
        [.next 0, .editor 0 (.insertLines "a" .primary 0 [""])]).shown 0 "a" = some o' ∧
      o'.Holds o.authority (o.buffer.marks.edited (lineEdits Listing.compiler 0 "a" s₁
        [.next 0, .editor 0 (.insertLines "a" .primary 0 [""])])) ∧
      (s₁.after Listing.compiler
          [.next 0, .editor 0 (.insertLines "a" .primary 0 [""])]).workspace.scripts["a"]?.map
        (·.active) = s.workspace.scripts["a"]?.map (·.active) := by
  obtain ⟨s, hs⟩ : ∃ s, s = (start (ArchiveMap.ofList [("a", Utf8.encode "routine 5\n    a\n")])
      (⟨∅, ()⟩ : Ledger Unit)).after Listing.compiler [.newEditor, .editor 0 (.openScript "a"),
        .ask (.openInEngine "a"), .ask (.addBreakpoint "a" 1 .primary),
        .editor 0 (.insertLines "a" .primary 1 ["    x"])] := ⟨_, rfl⟩
  obtain ⟨ms, hms⟩ : ∃ ms : List Move,
      ms = [.next 0, .editor 0 (.insertLines "a" .primary 0 [""])] := ⟨_, rfl⟩
  obtain ⟨s₁, hs₁⟩ : ∃ s₁, s₁ = (move Listing.compiler (.editor 0 (.save "a")) s).2 := ⟨_, rfl⟩
  have hshown : (s.shown 0 "a").isSome = true := by
    rw [hs]
    decide +kernel
  have hlength : (s.inbox 0).length = 1 := by
    rw [hs]
    decide +kernel
  have hanswer : readiness? (move Listing.compiler (.editor 0 (.save "a")) s).1 =
      some .deferred := by
    rw [hs]
    decide +kernel
  have hnew : "a" ∉ Message.reloaded
      ((s₁.allHandled Listing.compiler 0 ms).drop (s.inbox 0).length) := by
    rw [hs₁, hs, hms]
    decide +kernel
  have hopen : ∀ ms' ∈ ms.inits, ((s₁.after Listing.compiler ms').shown 0 "a").isSome := by
    rw [hs₁, hs, hms]
    decide +kernel
  have hold : "a" ∉ Message.reloaded
      ((s.inbox 0).take (s₁.allHandled Listing.compiler 0 ms).length) := by
    rw [hs₁, hs, hms]
    decide +kernel
  have hposted : "a" ∉ Message.reloaded
      (s.posted Listing.compiler 0 (.editor 0 (.save "a") :: ms)) := by
    rw [hs, hms]
    decide +kernel
  obtain ⟨o, ho⟩ := Option.isSome_iff_exists.1 hshown
  have hsave : move Listing.compiler (.editor 0 (.save "a")) s =
      (.ok (.readiness (some .deferred)), s₁) := by rw [hs₁, ← readiness?_eq_some.1 hanswer]
  obtain ⟨hheld, hactive⟩ :=
    save_held_until_reload_iff Listing.compiler _ _ hs ho hsave hnew
  have hopen' (ms' : List Move) (h : ms' <+: ms) := hopen ms' ((List.mem_inits ms' ms).2 h)
  obtain ⟨o', ho', hholds⟩ := hheld.2 ⟨hopen', hold⟩ ms (List.prefix_refl ms)
  have hactive' := hactive hopen' hposted
  rw [hms] at ho' hholds hactive'
  exact ⟨s, s₁, o, o', hs, ho, hlength, hsave, ho', hholds, hactive'⟩

/-- The engine was made to reload before the save, and the editor handles this reload after it. Then
it shows the marks of a text that the engine does not execute yet. -/
theorem save_activated_by_older_reload :
    ∃ s s₁ o o', s = (start (ArchiveMap.ofList [("a", Utf8.encode "routine 5\n    a\n")])
        (⟨∅, ()⟩ : Ledger Unit)).after Listing.compiler [.newEditor, .editor 0 (.openScript "a"),
          .ask (.invalidate "a"), .ask (.openInEngine "a"),
          .editor 0 (.insertLines "a" .primary 1 ["    x"])] ∧
      s.shown 0 "a" = some o ∧
      move Listing.compiler (.editor 0 (.save "a")) s =
        (.ok (.readiness (some .deferred)), s₁) ∧
      (s.posted Listing.compiler 0 [.editor 0 (.save "a"), .next 0]).isEmpty = true ∧
      (move Listing.compiler (.next 0) s₁).2.shown 0 "a" = some o' ∧
      o'.waiting = false ∧ o.buffer.marks.line? ⟨5, 0⟩ = some 2 ∧
      o'.buffer.marks.line? ⟨5, 0⟩ = some 1 ∧
      (move Listing.compiler (.next 0) s₁).2.workspace.scripts["a"]?.map
        (fun t ↦ (t.active.get .primary).text) = some "routine 5\n    a\n" := by
  obtain ⟨s, hs⟩ : ∃ s, s = (start (ArchiveMap.ofList [("a", Utf8.encode "routine 5\n    a\n")])
      (⟨∅, ()⟩ : Ledger Unit)).after Listing.compiler [.newEditor, .editor 0 (.openScript "a"),
        .ask (.invalidate "a"), .ask (.openInEngine "a"),
        .editor 0 (.insertLines "a" .primary 1 ["    x"])] := ⟨_, rfl⟩
  obtain ⟨s₁, hs₁⟩ : ∃ s₁, s₁ = (move Listing.compiler (.editor 0 (.save "a")) s).2 := ⟨_, rfl⟩
  have hbefore : (s.shown 0 "a").map (·.buffer.marks.line? ⟨5, 0⟩) = some (some 2) := by
    rw [hs]
    decide +kernel
  have hanswer : readiness? (move Listing.compiler (.editor 0 (.save "a")) s).1 =
      some .deferred := by
    rw [hs]
    decide +kernel
  have hposted : (s.posted Listing.compiler 0 [.editor 0 (.save "a"), .next 0]).isEmpty = true := by
    rw [hs]
    decide +kernel
  have hafter : ((move Listing.compiler (.next 0) s₁).2.shown 0 "a").map
      (fun o ↦ (o.waiting, o.buffer.marks.line? ⟨5, 0⟩)) = some (false, some 1) := by
    rw [hs₁, hs]
    decide +kernel
  have hactive : (move Listing.compiler (.next 0) s₁).2.workspace.scripts["a"]?.map
      (fun t ↦ (t.active.get .primary).text) = some "routine 5\n    a\n" := by
    rw [hs₁, hs]
    decide +kernel
  obtain ⟨o, ho, hline⟩ := Option.map_eq_some_iff.1 hbefore
  obtain ⟨o', ho', hend⟩ := Option.map_eq_some_iff.1 hafter
  simp only [Prod.mk.injEq] at hend
  exact ⟨s, s₁, o, o', hs, ho, by rw [hs₁, ← readiness?_eq_some.1 hanswer], hposted, ho', hend.1,
    hline, hend.2, hactive⟩

end Session

end ScriptBreakpoints
