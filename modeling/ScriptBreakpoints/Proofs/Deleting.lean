import ScriptBreakpoints.Proofs.Clicking

namespace ScriptBreakpoints

open Fallible Workspace

namespace Buffer

variable {b : Buffer} {x : Address} {line start stop : Nat}

/-- A deletion takes the markers of the lines that go, as far as there are such lines. -/
theorem markers_deleteLines_eq_none_iff (hx : b.markers[x]? = some line) :
    (b.deleteLines start stop).2.markers[x]? = none ↔
      start ≤ line ∧ line < stop ∧ line < b.lines.length := by
  obtain ⟨hnone, hsame⟩ | ⟨e, lines, he, hb, -⟩ := b.deleteLines_eq start stop
  · rw [hsame, hx]
    simp only [deletion?, ite_eq_left_iff, reduceCtorEq, imp_false, not_not] at hnone
    exact iff_of_false nofun (by omega)
  · simp only [deletion?, Option.ite_none_left_eq_some, Option.some.injEq] at he
    obtain ⟨-, rfl⟩ := he
    rw [hb, markers_follow, hx, Option.bind_some]
    simp only [LineEdit.line?, ite_eq_left_iff, reduceCtorEq, imp_false, not_not]
    omega

end Buffer

namespace OpenScript

variable {o : OpenScript} {x : Address} {p : Projection} {line start stop : Nat}

/-- The marker of a breakpoint is beside the text that is edited, on a line that a deletion in
`projection` takes away. -/
structure OnDeleted (o : OpenScript) (projection : Projection) (start stop : Nat) (p : Projection)
    (line : Nat) : Prop where
  edited : projection = o.authority
  side : p = o.authority
  first : start ≤ line
  last : line < stop
  existing : line < o.buffer.lines.length

theorem markers_deleteLines_iff (hx : (o.buffers.get p).markers[x]? = some line) :
    ((o.setBuffer (o.buffer.deleteLines start stop).2).buffers.get p).markers[x]? ≠ none ↔
      ¬o.OnDeleted o.authority start stop p line := by
  rw [setBuffer, Dual.get_set]
  refine not_congr ?_
  split
  · next hp =>
    subst hp
    refine (Buffer.markers_deleteLines_eq_none_iff hx).trans ?_
    exact ⟨fun h ↦ ⟨rfl, rfl, h.1, h.2.1, h.2.2⟩, fun h ↦ ⟨h.first, h.last, h.existing⟩⟩
  · next hp =>
    rw [hx]
    exact iff_of_false (Option.some_ne_none line) fun h ↦ hp h.side

end OpenScript

variable {σ τ : Type} [Archive σ] [BreakpointStore τ] [LawfulStore τ] {c : Compiler}

namespace Session

variable {s s' : Session σ τ} {file : String} {i : Nat} {o : OpenScript}

/-- What is still armed after a deletion, failed or not, is shown as before but for the lines that
went. -/
theorem Pins.deleteLines (h : s.Pins file) (ho : s.shown i file = some o)
    (projection : Projection) (start stop : Nat) :
    ∃ result s' o', s.step c (.editor i (.deleteLines file projection start stop)) = (result, s') ∧
      s'.shown i file = some o' ∧
      ∀ p x line, (o.buffers.get p).markers[x]? = some line → x ∈ s'.armed file →
        ((o'.buffers.get p).markers[x]? ≠ none ↔ ¬o.OnDeleted projection start stop p line) := by
  obtain ⟨e, t, a, hi, ht, -, hshows⟩ := h.view ho
  obtain ⟨result, d', o', a', houtcome, hd', hcases⟩ :=
    hshows.deleteLines (c := c) ht projection start stop
  have hperform : (EditorRequest.perform c (.deleteLines file projection start stop)).outcome
      (⟨e, s.workspace⟩ : Desk σ τ) = (result.map fun _ ↦ .done, d') := by
    rw [EditorRequest.perform, outcome_bind_pure, houtcome]
  obtain ⟨s', hs', hshown, harmed, -⟩ := h.editor hi rfl hperform hd'
  refine ⟨_, s', o', hs', hshown, fun p x line hx hx' ↦ ?_⟩
  rw [harmed] at hx'
  obtain ⟨hp, rfl, -⟩ | ⟨rfl, removed, -, -, -, rfl, rfl⟩ := hcases
  · rw [hx]
    exact iff_of_true (Option.some_ne_none line) fun hdeleted ↦ hp hdeleted.edited
  · rw [OpenScript.markers_hideAll, if_neg (Aspect.mem_disarmAll.1 hx').1]
    exact OpenScript.markers_deleteLines_iff hx

/-- After a deletion that fails, a breakpoint that is still armed is shown where it was shown
before, unless that was beside the text that is edited and on one of the lines to delete. -/
theorem failed_deletion_shows_iff (c : Compiler) (archive : σ) (store : τ) (es : List Event)
    (hs : s = es.foldl (undergo c) (Session.start archive store)) (ho : s.shown i file = some o)
    {projection : Projection} {start stop : Nat} {f : Failure}
    (hfail : s.step c (.editor i (.deleteLines file projection start stop)) = (.error f, s')) :
    ∃ o', s'.shown i file = some o' ∧
      ∀ p x line, (o.buffers.get p).markers[x]? = some line → x ∈ s'.armed file →
        ((o'.buffers.get p).markers[x]? ≠ none ↔ ¬o.OnDeleted projection start stop p line) := by
  have h : s.Pins file := hs ▸ (pins_start archive store file).after es
  obtain ⟨result, s'', o', hstep, ho', hmarkers⟩ :=
    h.deleteLines (c := c) ho projection start stop
  obtain ⟨-, rfl⟩ := Prod.mk.inj (hfail.symm.trans hstep)
  exact ⟨o', ho', hmarkers⟩

/-- Of two breakpoints the line of the first one is to be deleted, and the store refuses. The second
one is still shown beside the text that is edited, and the first one beside the other text. -/
theorem failed_deletion_shows_rest : ∃ s s' o' f, s = ([.command .newEditor,
      .command (.editor 0 (.openScript "a")), .command (.editor 0 (.toggle "a" .primary 1)),
      .command (.editor 0 (.toggle "a" .primary 2)),
      .command (.refuse (.store .remove) [true])] : List Event).foldl (undergo Listing.compiler)
      (Session.start (ArchiveMap.ofList [("a", Utf8.encode "routine 5\n    a\n    b\n")])
        (⟨∅, ()⟩ : Ledger Unit)) ∧
    s.step Listing.compiler (.editor 0 (.deleteLines "a" .primary 1 2)) = (.error f, s') ∧
    s'.shown 0 "a" = some o' ∧ (o'.buffers.get .primary).markers[(⟨5, 1⟩ : Address)]? ≠ none ∧
    (o'.buffers.get .derived).markers[(⟨5, 0⟩ : Address)]? ≠ none := by
  obtain ⟨s, hs⟩ : ∃ s, s = ([.command .newEditor,
      .command (.editor 0 (.openScript "a")), .command (.editor 0 (.toggle "a" .primary 1)),
      .command (.editor 0 (.toggle "a" .primary 2)),
      .command (.refuse (.store .remove) [true])] : List Event).foldl (undergo Listing.compiler)
      (Session.start (ArchiveMap.ofList [("a", Utf8.encode "routine 5\n    a\n    b\n")])
        (⟨∅, ()⟩ : Ledger Unit)) := ⟨_, rfl⟩
  have hshown : (s.shown 0 "a").map (fun o ↦ (o.authority,
      (o.buffers.get .primary).markers[(⟨5, 1⟩ : Address)]?,
      (o.buffers.get .derived).markers[(⟨5, 0⟩ : Address)]?)) =
      some (.primary, some 2, some 2) := by
    rw [hs]
    decide +kernel
  obtain ⟨answer, hanswer⟩ : ∃ answer, answer =
    (s.step Listing.compiler (.editor 0 (.deleteLines "a" .primary 1 2))).1 := ⟨_, rfl⟩
  obtain ⟨s', hs'⟩ : ∃ s', s' =
    (s.step Listing.compiler (.editor 0 (.deleteLines "a" .primary 1 2))).2 := ⟨_, rfl⟩
  have hfailed : answer.toOption.isNone = true := by
    rw [hanswer, hs]
    decide +kernel
  have harmed : (⟨5, 1⟩ : Address) ∈ s'.armed "a" ∧ (⟨5, 0⟩ : Address) ∈ s'.armed "a" := by
    rw [hs', hs]
    decide +kernel
  obtain ⟨o, ho, heq⟩ := Option.map_eq_some_iff.1 hshown
  simp only [Prod.mk.injEq] at heq
  obtain ⟨hauthority, hprimary, hderived⟩ := heq
  cases answer with
  | ok reply => cases hfailed
  | error f =>
    have hstep : s.step Listing.compiler (.editor 0 (.deleteLines "a" .primary 1 2)) =
      (.error f, s') := Prod.ext hanswer.symm hs'.symm
    obtain ⟨o', ho', hmarkers⟩ := failed_deletion_shows_iff Listing.compiler _ _ _ hs ho hstep
    refine ⟨s, s', o', f, hs, hstep, ho', (hmarkers _ _ _ hprimary harmed.1).2 fun h ↦ ?_,
      (hmarkers _ _ _ hderived harmed.2).2 fun h ↦ ?_⟩
    · exact absurd h.last (by decide)
    · exact absurd (h.side.trans hauthority) (by decide)

/-- The store refuses to remove a breakpoint whose line is deleted. It stays armed, but it is no
longer shown, and the next save disarms it. -/
theorem failed_deletion_hides_breakpoint : ∃ s o s' o' f, s = ([.command .newEditor,
      .command (.editor 0 (.openScript "a")), .command (.editor 0 (.toggle "a" .primary 1)),
      .command (.refuse (.store .remove) [true])] : List Event).foldl (undergo Listing.compiler)
      (Session.start (ArchiveMap.ofList [("a", Utf8.encode "routine 5\n    a\n    b\n")])
        (⟨∅, ()⟩ : Ledger Unit)) ∧
    s.shown 0 "a" = some o ∧ o.buffer.markers[(⟨5, 0⟩ : Address)]? = some 1 ∧
    s.step Listing.compiler (.editor 0 (.deleteLines "a" .primary 1 2)) = (.error f, s') ∧
    (⟨5, 0⟩ : Address) ∈ s'.armed "a" ∧ s'.shown 0 "a" = some o' ∧
    o'.buffer.markers[(⟨5, 0⟩ : Address)]? = none ∧
    ((s'.step Listing.compiler (.editor 0 (.save "a"))).2.armed "a").toList = [] := by
  obtain ⟨s, hs⟩ : ∃ s, s = ([.command .newEditor,
      .command (.editor 0 (.openScript "a")), .command (.editor 0 (.toggle "a" .primary 1)),
      .command (.refuse (.store .remove) [true])] : List Event).foldl (undergo Listing.compiler)
      (Session.start (ArchiveMap.ofList [("a", Utf8.encode "routine 5\n    a\n    b\n")])
        (⟨∅, ()⟩ : Ledger Unit)) := ⟨_, rfl⟩
  obtain ⟨answer, hanswer⟩ : ∃ answer, answer =
    (s.step Listing.compiler (.editor 0 (.deleteLines "a" .primary 1 2))).1 := ⟨_, rfl⟩
  obtain ⟨s', hs'⟩ : ∃ s', s' =
    (s.step Listing.compiler (.editor 0 (.deleteLines "a" .primary 1 2))).2 := ⟨_, rfl⟩
  have hfailed : answer.toOption.isNone = true := by
    rw [hanswer, hs]
    decide +kernel
  have hshown : (s.shown 0 "a").map (·.buffer.markers[(⟨5, 0⟩ : Address)]?) = some (some 1) := by
    rw [hs]
    decide +kernel
  have hshown' : (s'.shown 0 "a").map (·.buffer.markers[(⟨5, 0⟩ : Address)]?) = some none := by
    rw [hs', hs]
    decide +kernel
  obtain ⟨o, ho, hmarker⟩ := Option.map_eq_some_iff.1 hshown
  obtain ⟨o', ho', hmarker'⟩ := Option.map_eq_some_iff.1 hshown'
  cases answer with
  | ok reply => cases hfailed
  | error f =>
    refine ⟨s, o, s', o', f, hs, ho, hmarker, Prod.ext hanswer.symm hs'.symm, ?_, ho', hmarker', ?_⟩
    · rw [hs', hs]
      decide +kernel
    · rw [hs', hs]
      decide +kernel

end Session

end ScriptBreakpoints
