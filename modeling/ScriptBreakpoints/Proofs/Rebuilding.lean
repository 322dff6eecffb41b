import ScriptBreakpoints.Compiler.Listing
import ScriptBreakpoints.Proofs.Attending

namespace ScriptBreakpoints

open Fallible Workspace

def LineEdit.lands (es : List LineEdit) (line : Nat) : Nat :=
  es.foldl (fun line e ↦ (e.line? line).getD e.start) line

namespace Marks

def edited (es : List LineEdit) (t : Marks) : Marks := es.foldl (fun t e ↦ t.edit e) t

theorem edited_append (es more : List LineEdit) (t : Marks) :
    t.edited (es ++ more) = (t.edited es).edited more := List.foldl_append

theorem line?_edited (es : List LineEdit) (t : Marks) (x : Address) :
    (t.edited es).line? x = (t.line? x).map (LineEdit.lands es) := by
  induction es generalizing t with
  | nil => exact Option.map_id'.symm
  | cons e es ih =>
    refine (ih (t.edit e)).trans ?_
    rw [line?_edit, Option.map_map]
    rfl

end Marks

def SourceMap.Stays (m : SourceMap) (es : List LineEdit) (x : Address) : Prop :=
  ∀ line, (Marks.ofMap m).line? x = some line → LineEdit.lands es line = line

theorem SourceMap.stays_iff {m : SourceMap} {es : List LineEdit} {x : Address} :
    (Marks.ofMap m).line? x = ((Marks.ofMap m).edited es).line? x ↔ m.Stays es x := by
  rw [Marks.line?_edited, Stays]
  cases (Marks.ofMap m).line? x with
  | none => simp
  | some line => simp [eq_comm]

namespace Buffer

variable {b : Buffer} {x : Address} {waiting : Bool}

@[simp] theorem table_showMarker : (b.showMarker x).table waiting = b.table waiting := by
  rw [table, marks_showMarker, provisional_showMarker, table]

theorem table_follow (e : LineEdit) (lines : List String) :
    ({ b with lines }.follow e).table waiting = (b.table waiting).edit e := by
  cases waiting with
  | false => rfl
  | true =>
    simp only [table, follow, if_true]
    cases b.provisional <;> rfl

end Buffer

namespace OpenScript

variable {o o' : OpenScript} {p : Projection} {marks : Marks} {x : Address} {e : Reload}
  {as : List Address}

/-- The projection `p` is edited, and `marks` are the marks that count in it: those of the last save
while its reload is awaited. -/
structure Marked (p : Projection) (marks : Marks) (o : OpenScript) : Prop where
  authority : o.authority = p
  table : o.buffer.table o.waiting = marks

/-- The reload makes the marks of the last save, which followed the lines since, the marks. -/
structure Adopts (e : Reload) (o : OpenScript) : Prop where
  authority : e.authority = o.authority
  waiting : o.waiting = true
  provisional : o.buffer.provisional ≠ none

namespace Marked

theorem showMarker (h : o.Marked p marks) : (o.showMarker x).Marked p marks := by
  refine ⟨h.authority, ?_⟩
  rw [buffer_showMarker, Buffer.table_showMarker]
  exact h.table

theorem hideMarker (h : o.Marked p marks) : (o.hideMarker x).Marked p marks := by
  refine ⟨h.authority, ?_⟩
  rw [buffer_hideMarker]
  exact h.table

theorem follow (h : o.Marked p marks) (edit : LineEdit) (lines : List String) :
    (o.setBuffer ({ o.buffer with lines }.follow edit)).Marked p (marks.edit edit) := by
  refine ⟨h.authority, ?_⟩
  rw [buffer_setBuffer, ← h.table]
  exact Buffer.table_follow edit lines

theorem adopt (h : o.Marked p marks) (he : o.Adopts e) :
    (o.hear as (.reload e)).Marked p marks := by
  obtain ⟨provisional, hp⟩ := Option.ne_none_iff_exists'.1 he.provisional
  obtain ⟨markers, hb⟩ := buffer_hear_reload as he.authority
  refine ⟨he.authority.trans h.authority, ?_⟩
  rw [← h.table, hb, Buffer.table, Buffer.table, he.waiting, if_pos rfl, hp, Option.getD_some]
  refine (Buffer.marks_reload _ _ _).trans ?_
  rw [if_pos rfl, hp, Option.getD_some]

theorem worked {file : String} {a a' : Aspect} {r : EditorRequest} {ok : Prop}
    (h : o.Marked p marks) (hw : Worked file o a r ok o' a') :
    o'.Marked p (marks.edited (r.lineEdit? o).toList) :=
  hw.follows (P := fun e o ↦ o.Marked p (marks.edited e.toList))
    (fun _ ↦ ⟨h.authority, h.table⟩) h.follow (fun _ h ↦ h.showMarker) fun _ h ↦ h.hideMarker

end Marked

/-- A reload that is not awaited takes the marks from its map, and shows the breakpoints by them. -/
theorem line?_hear_reload (as : List Address) (hw : o.waiting = false) (x : Address) :
    ((o.hear as (.reload e)).buffers.get p).marks.line? x =
        (Marks.ofMap (e.views.get p).map).line? x ∧
      (x ∈ as → ((o.hear as (.reload e)).buffers.get p).markers[x]? =
        (Marks.ofMap (e.views.get p).map).line? x) := by
  have hget := get_reload e o p
  have hmarks : ((o.reload e).buffers.get p).marks = .ofMap (e.views.get p).map := by
    rw [hget, hw]
    split
    · exact Buffer.marks_reload _ _ _
    · rfl
  obtain ⟨markers, hb⟩ := (o.reload e).buffer_place as p
  refine ⟨?_, fun hx ↦ ?_⟩
  · rw [hear, hb, hmarks]
  · have hplace := (o.reload e).markers_place as p x
    rw [markers_reload, Std.ExtTreeMap.getElem?_empty, Option.or_none, if_pos hx] at hplace
    rw [hear, hplace, ← hmarks]
    rfl

theorem lines_hear_reload (he : e.authority = o.authority) :
    (o.hear as (.reload e)).buffer.lines = o.buffer.lines := by
  obtain ⟨markers, hb⟩ := buffer_hear_reload as he
  rw [hb]
  rfl

end OpenScript

namespace Session

section Defs

variable {σ τ : Type} [Archive σ] [BreakpointStore τ]

/-- A move by which the marks of a script at seat `i` are not made anew: the editor neither closes
the script nor saves it, and it handles a reload of it only to adopt the marks of a save. -/
structure Carries (c : Compiler) (i : Nat) (file : String) (s : Session σ τ) (m : Move) :
    Prop where
  closes : ∀ confirm, m ≠ .editor i (.closeScript file confirm)
  saves : m = .editor i (.save file) → ∀ r, (move c m s).1 ≠ .ok (.readiness (some r))
  handles : ∀ e, s.Handles i m (.reload e) → e.file = file →
    m = .next i ∧ ∃ o, s.shown i file = some o ∧ o.Adopts e

end Defs

variable {σ τ : Type} [Archive σ] [BreakpointStore τ] [LawfulStore τ] {c : Compiler}
  {s : Session σ τ} {i : Nat} {file : String} {o : OpenScript} {a : Aspect} {p : Projection}
  {marks : Marks}

namespace Scene

variable (hs : s.Sound) (hi : s.Scene i file (some o) a) (h : Attended (some o) a)
  (hk : o.Marked p marks)

include hs hi h hk

theorem carries_next
    (hadopts : ∀ e, .reload e ∈ (s.inbox i).head? → e.file = file → o.Adopts e) :
    ∃ o' a', (move c (.next i) s).2.Scene i file (some o') a' ∧ o'.Marked p marks ∧
      (a'.mail = a.mail ∨ ∃ m, a.mail = m :: a'.mail) := by
  obtain ⟨t, ht⟩ := h.tracked
  obtain ⟨a', hi', -, -, hmail⟩ | ⟨m, rest, as, hhead, hfile, hmail, hi'⟩ :=
    hi.handled (c := c) hs ⟨t, ht, rfl⟩
  · exact ⟨o, a', hi', hk, .inl hmail⟩
  · refine ⟨_, _, hi', ?_, .inr ⟨m, hmail⟩⟩
    cases m with
    | reload e => exact hk.adopt (hadopts e hhead (Option.some.inj hfile))
    | added f x => exact hk.showMarker
    | removed f x => exact hk.hideMarker
    | shutdown => cases hfile

theorem carries_pending (hunread : ∀ e, .reload e ∉ a.mail) :
    ∃ o' a', (move c (.editor i .runPending) s).2.Scene i file (some o') a' ∧
      o'.Marked p marks := by
  have hnext (s : Session σ τ) (hs : s.Sound) (h : ∃ o a, s.Scene i file (some o) a ∧
      Attended (some o) a ∧ o.Marked p marks ∧ ∀ e, .reload e ∉ a.mail) :
      ∃ o a, (move c (.next i) s).2.Scene i file (some o) a ∧
        Attended (some o) a ∧ o.Marked p marks ∧ ∀ e, .reload e ∉ a.mail := by
    obtain ⟨o, a, hi, h, hk, hunread⟩ := h
    obtain ⟨o', a', hi', hk', hmail⟩ := hi.carries_next (c := c) hs h hk fun e hhead he ↦ by
      refine absurd ?_ (hunread e)
      rw [hi.mail, List.mem_filter]
      exact ⟨List.mem_of_mem_head? hhead, decide_eq_true (congrArg some he)⟩
    obtain ⟨v, a'', hi'', h'⟩ := hi.attended_move (c := c) hs h (.next i)
    obtain ⟨rfl, rfl⟩ := hi'.unique hi''
    refine ⟨o', _, hi', h', hk', fun e he ↦ hunread e ?_⟩
    obtain hmail | ⟨m, hmail⟩ := hmail
    · rwa [hmail] at he
    · rw [hmail]
      exact List.mem_cons_of_mem m he
  obtain ⟨o', a', hi', -, hk', -⟩ := runPending_keeps hs hnext ⟨o, a, hi, h, hk, hunread⟩
  exact ⟨o', a', hi', hk'⟩

theorem carries_own {r : EditorRequest} (hfile : r.file? = some file)
    (hm : Carries c i file s (.editor i r)) :
    ∃ o' a', (move c (.editor i r) s).2.Scene i file (some o') a' ∧
      o'.Marked p (marks.edited (r.lineEdit? o).toList) := by
  obtain ⟨t, ht⟩ := h.tracked
  by_cases hsave : r = .save file
  · subst hsave
    obtain ⟨result, o', a', hresult, hi', hstored⟩ := hi.stored (c := c) hs ht
    refine ⟨o', a', hi', ?_⟩
    cases hstored with
    | unmodified => exact hk
    | failed => exact hk
    | unrestored => exact hk
    | saved => exact absurd hresult (hm.saves rfl _)
  · obtain ⟨o', a', hi', hworked⟩ := hi.work (c := c) hs ht hfile
      (fun confirm h ↦ hm.closes confirm (h ▸ rfl)) hsave
    exact ⟨o', a', hi', hk.worked hworked⟩

theorem carries {m : Move} (hm : Carries c i file s m) :
    ∃ o' a', (move c m s).2.Scene i file (some o') a' ∧ Attended (some o') a' ∧
      o'.Marked p (marks.edited (s.lineEdit? i file m).toList) := by
  have hattended {o' : OpenScript} {a' : Aspect} {marks' : Marks}
      (hi' : (move c m s).2.Scene i file (some o') a') (hk' : o'.Marked p marks') :
      ∃ o' a', (move c m s).2.Scene i file (some o') a' ∧ Attended (some o') a' ∧
        o'.Marked p marks' := by
    obtain ⟨v, a'', hi'', h'⟩ := hi.attended_move (c := c) hs h m
    obtain ⟨rfl, rfl⟩ := hi'.unique hi''
    exact ⟨o', _, hi', h', hk'⟩
  rcases s.aside_or i file m with haside | rfl | rfl | ⟨r, rfl, hfile⟩
  · obtain ⟨a', hi', -⟩ := hi.passes (c := c) hs haside
    rw [lineEdit?_aside haside]
    exact hattended hi' hk
  · obtain ⟨o', a', hi', hk', -⟩ := hi.carries_next (c := c) hs h hk fun e hhead he ↦ by
      obtain ⟨-, o', ho', hadopts⟩ := hm.handles e ⟨rfl, hhead⟩ he
      rw [hi.shown] at ho'
      cases ho'
      exact hadopts
    exact hattended hi' hk'
  · -- a reload is only adopted by the move that handles it alone, so there is none in all the mail
    have hunread (e : Reload) : .reload e ∉ a.mail := by
      intro he
      rw [hi.mail, List.mem_filter] at he
      have habout : some e.file = some file := of_decide_eq_true he.2
      exact absurd (hm.handles e ⟨rfl, he.1⟩ (Option.some.inj habout)).1 (by simp)
    have hnone : s.lineEdit? i file (.editor i .runPending) = none := if_neg fun h ↦ by cases h.2
    obtain ⟨o', a', hi', hk'⟩ := hi.carries_pending (c := c) hs h hk hunread
    rw [hnone]
    exact hattended hi' hk'
  · have hedit : s.lineEdit? i file (.editor i r) = r.lineEdit? o := by
      rw [lineEdit?, if_pos ⟨rfl, hfile⟩, hi.shown]
      rfl
    obtain ⟨o', a', hi', hk'⟩ := hi.carries_own hs h hk hfile hm
    rw [hedit]
    exact hattended hi' hk'

theorem carries_after {ms : List Move} (hms : Along c (Carries c i file) s ms) :
    ∃ o' a', (s.after c ms).Scene i file (some o') a' ∧ Attended (some o') a' ∧
      o'.Marked p (marks.edited (lineEdits c i file s ms)) := by
  induction ms generalizing s o a marks with
  | nil => exact ⟨o, a, hi, h, hk⟩
  | cons m ms ih =>
    obtain ⟨o', a', hi', h', hk'⟩ := hi.carries hs h hk hms.1
    rw [lineEdits, Marks.edited_append]
    exact ih (hs.move m) hi' h' hk' hms.2

end Scene

/-- The marks of a script were made from a map, and lines were edited since. A reload with the same
map that no save waits for leaves a mark, and the marker of a breakpoint, on its line exactly if the
edits did so with the line that the map tells. -/
theorem stays_on_reload_iff (c : Compiler) (archive : σ) (store : τ) {history ms : List Move}
    {s₀ : Session σ τ} {o₀ : OpenScript} {m : SourceMap}
    (hs₀ : s₀ = (start archive store).after c history) (ho₀ : s₀.shown i file = some o₀)
    (hmade : o₀.buffer.table o₀.waiting = .ofMap m) (hms : Along c (Carries c i file) s₀ ms)
    (hs : s = s₀.after c ms) (ho : s.shown i file = some o) (hwaiting : o.waiting = false)
    {e : Reload} {rest : List Message} (hreload : s.inbox i = .reload e :: rest)
    (hfile : e.file = file) (hmap : (e.views.get o.authority).map = m) {as : List Address}
    (hlist : (BreakpointStore.list file s.workspace.store).1 = .ok as) :
    ∃ o', (move c (.next i) s).2.shown i file = some o' ∧
      (e.authority = o.authority → o'.buffer.lines = o.buffer.lines) ∧
      ∀ x, ((o'.buffers.get o.authority).marks.line? x = o.buffer.marks.line? x ↔
          m.Stays (lineEdits c i file s₀ ms) x) ∧
        (x ∈ LawfulStore.armed s.workspace.store file → ∀ line,
          o.buffer.markers[x]? = some line →
            ((o'.buffers.get o.authority).markers[x]? = some line ↔
              m.Stays (lineEdits c i file s₀ ms) x)) := by
  have hsound₀ : s₀.Sound := by
    rw [hs₀]
    exact (sound_start archive store).after history
  obtain ⟨a₀, hi₀, -⟩ := hsound₀.scene_shown ho₀
  obtain ⟨o₁, a, hi, h, hk⟩ :=
    hi₀.carries_after hsound₀ (attended_after hs₀ hi₀) ⟨rfl, hmade⟩ hms
  rw [← hs] at hi
  obtain rfl : o₁ = o := by
    rw [hi.shown] at ho
    exact Option.some.inj ho
  cases h with
  | opened hreach ht hanchored =>
    obtain ⟨as', hi', has⟩ := hi.hear (c := c) (fun _ ↦ Option.isSome_iff_exists.1 ht) hreload
      (congrArg some hfile)
    obtain rfl : as' = a.armed.toList := has.resolve_right fun h ↦ h.2 as hlist
    have hmarks : o₁.buffer.marks = (Marks.ofMap m).edited (lineEdits c i file s₀ ms) := by
      have htable := hk.table
      rwa [hwaiting] at htable
    refine ⟨_, hi'.shown, fun he ↦ ?_, fun x ↦ ?_⟩
    · exact OpenScript.lines_hear_reload he
    · obtain ⟨hmark, hmarker⟩ := OpenScript.line?_hear_reload (e := e)
        (p := o₁.authority) a.armed.toList hwaiting x
      rw [hmap] at hmark hmarker
      refine ⟨?_, fun hx line hline ↦ ?_⟩
      · rw [hmark, hmarks]
        exact SourceMap.stays_iff
      · have hold : ((Marks.ofMap m).edited (lineEdits c i file s₀ ms)).line? x = some line := by
          rw [← hmarks]
          refine (hanchored o₁.authority x line hline).resolve_right fun hnone ↦ ?_
          rw [hwaiting] at hnone
          cases hnone.1
        rw [← hi.armed] at hx
        rw [hmarker (Std.ExtTreeSet.mem_toList.2 hx), ← hold]
        exact SourceMap.stays_iff

/-- A line is inserted below a breakpoint, and the breakpoint stays. -/
theorem breakpoint_stays_on_reload :
    ∃ s₀ s o', s₀ = (start (ArchiveMap.ofList [("a", Utf8.encode "routine 5\n    a\n")])
        (⟨∅, ()⟩ : Ledger Unit)).after Listing.compiler [.newEditor, .editor 0 (.openScript "a"),
          .editor 0 (.toggle "a" .primary 1), .editor 0 .runPending] ∧
      s = s₀.after Listing.compiler [.editor 0 (.insertLines "a" .primary 2 [""]),
        .ask (.invalidate "a"), .ask (.closeInEngine "a")] ∧
      (move Listing.compiler (.next 0) s).2.shown 0 "a" = some o' ∧
      (o'.buffers.get .primary).markers[(⟨5, 0⟩ : Address)]? = some 1 := by
  obtain ⟨s₀, hs₀⟩ : ∃ s₀, s₀ = (start (ArchiveMap.ofList
      [("a", Utf8.encode "routine 5\n    a\n")]) (⟨∅, ()⟩ : Ledger Unit)).after Listing.compiler
      [.newEditor, .editor 0 (.openScript "a"), .editor 0 (.toggle "a" .primary 1),
        .editor 0 .runPending] := ⟨_, rfl⟩
  obtain ⟨s, hs⟩ : ∃ s, s = s₀.after Listing.compiler
      [.editor 0 (.insertLines "a" .primary 2 [""]), .ask (.invalidate "a"),
        .ask (.closeInEngine "a")] := ⟨_, rfl⟩
  have hreload : (s.inbox 0).map Message.reloaded? = [some "a"] := by
    rw [hs, hs₀]
    decide +kernel
  have hmade : (s₀.shown 0 "a").map (fun o ↦ o.buffer.table o.waiting) =
      ((s.inbox 0).head?.bind Message.reload?).map fun e ↦ .ofMap (e.views.get .primary).map := by
    rw [hs, hs₀]
    decide +kernel
  have hbefore : (s.shown 0 "a").map (fun o ↦
      (o.authority, o.waiting, o.buffer.markers[(⟨5, 0⟩ : Address)]?)) =
        some (.primary, false, some 1) := by
    rw [hs, hs₀]
    decide +kernel
  have harmed : (⟨5, 0⟩ : Address) ∈ LawfulStore.armed s.workspace.store "a" := by
    rw [hs, hs₀]
    decide +kernel
  have hlist : (BreakpointStore.list "a" s.workspace.store).1 = .ok [⟨5, 0⟩] := by
    rw [hs, hs₀]
    decide +kernel
  have hlines : ((s.inbox 0).head?.bind Message.reload?).map
      (fun e ↦ (Marks.ofMap (e.views.get .primary).map).line? ⟨5, 0⟩) = some (some 1) := by
    rw [hs, hs₀]
    decide +kernel
  have hedits : LineEdit.lands (lineEdits Listing.compiler 0 "a" s₀
      [.editor 0 (.insertLines "a" .primary 2 [""]), .ask (.invalidate "a"),
        .ask (.closeInEngine "a")]) 1 = 1 := by
    rw [hs₀]
    decide +kernel
  obtain ⟨m, hinbox, hm⟩ := List.map_eq_singleton_iff.1 hreload
  obtain ⟨e, rfl, hfile⟩ := Message.reloaded?_eq_some.1 hm
  rw [hinbox] at hmade hlines
  obtain ⟨o₀, ho₀, hmade⟩ := Option.map_eq_some_iff.1 hmade
  obtain ⟨o, ho, hbefore⟩ := Option.map_eq_some_iff.1 hbefore
  simp only [Prod.mk.injEq] at hbefore
  obtain ⟨hauthority, hwaiting, hmarker⟩ := hbefore
  have hms : Along Listing.compiler (Carries Listing.compiler 0 "a") s₀
      [.editor 0 (.insertLines "a" .primary 2 [""]), .ask (.invalidate "a"),
        .ask (.closeInEngine "a")] := by
    refine ⟨⟨by simp, by simp, by simp [Handles]⟩, ⟨by simp, by simp, by simp [Handles]⟩,
      ⟨by simp, by simp, by simp [Handles]⟩, trivial⟩
  obtain ⟨o', ho', -, hstays⟩ := stays_on_reload_iff Listing.compiler _ _ hs₀ ho₀ hmade hms hs ho
    hwaiting hinbox hfile (congrArg (fun p ↦ (e.views.get p).map) hauthority) hlist
  refine ⟨s₀, s, o', hs₀, hs, ho', ?_⟩
  rw [hauthority] at hstays
  refine ((hstays ⟨5, 0⟩).2 harmed 1 hmarker).2 fun line hline ↦ ?_
  obtain rfl : 1 = line := Option.some.inj ((Option.some.inj hlines).symm.trans hline)
  exact hedits

/-- A line is inserted above a breakpoint. A reload with the map that the marks were made from shows
the breakpoint on the line where it was before that. -/
theorem breakpoint_moved_by_reload :
    ∃ s₀ s e, s₀ = (start (ArchiveMap.ofList [("a", Utf8.encode "routine 5\n    a\n")])
        (⟨∅, ()⟩ : Ledger Unit)).after Listing.compiler [.newEditor, .editor 0 (.openScript "a"),
          .editor 0 (.toggle "a" .primary 1), .editor 0 .runPending] ∧
      s = s₀.after Listing.compiler [.editor 0 (.insertLines "a" .primary 0 [""]),
        .ask (.invalidate "a"), .ask (.closeInEngine "a")] ∧
      s.inbox 0 = [.reload e] ∧
      (s₀.shown 0 "a").map (·.buffer.marks) = some (.ofMap (e.views.get .primary).map) ∧
      (s.shown 0 "a").map (·.waiting) = some false ∧
      (⟨5, 0⟩ : Address) ∈ LawfulStore.armed s.workspace.store "a" ∧
      (s.shown 0 "a").map (fun o ↦ (o.authority, o.buffer.markersOn 2, o.buffer.lines)) =
        some (.primary, [⟨5, 0⟩], ["", "routine 5", "    a", ""]) ∧
      ((move Listing.compiler (.next 0) s).2.shown 0 "a").map
        (fun o ↦ (o.authority, o.buffer.markersOn 1, o.buffer.lines)) =
          some (.primary, [⟨5, 0⟩], ["", "routine 5", "    a", ""]) := by
  obtain ⟨s₀, hs₀⟩ : ∃ s₀, s₀ = (start (ArchiveMap.ofList
      [("a", Utf8.encode "routine 5\n    a\n")]) (⟨∅, ()⟩ : Ledger Unit)).after Listing.compiler
      [.newEditor, .editor 0 (.openScript "a"), .editor 0 (.toggle "a" .primary 1),
        .editor 0 .runPending] := ⟨_, rfl⟩
  obtain ⟨s, hs⟩ : ∃ s, s = s₀.after Listing.compiler
      [.editor 0 (.insertLines "a" .primary 0 [""]), .ask (.invalidate "a"),
        .ask (.closeInEngine "a")] := ⟨_, rfl⟩
  have hreload : (s.inbox 0).map Message.reloaded? = [some "a"] := by
    rw [hs, hs₀]
    decide +kernel
  have hmade : (s₀.shown 0 "a").map (·.buffer.marks) =
      ((s.inbox 0).head?.bind Message.reload?).map fun e ↦ .ofMap (e.views.get .primary).map := by
    rw [hs, hs₀]
    decide +kernel
  obtain ⟨m, hinbox, hm⟩ := List.map_eq_singleton_iff.1 hreload
  obtain ⟨e, rfl, -⟩ := Message.reloaded?_eq_some.1 hm
  rw [hinbox] at hmade
  refine ⟨s₀, s, e, hs₀, hs, hinbox, hmade, ?_, ?_, ?_, ?_⟩
  · rw [hs, hs₀]
    decide +kernel
  · rw [hs, hs₀]
    decide +kernel
  · rw [hs, hs₀]
    decide +kernel
  · rw [hs, hs₀]
    decide +kernel

end Session

end ScriptBreakpoints
