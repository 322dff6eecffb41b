import ScriptBreakpoints.Compiler.Listing
import ScriptBreakpoints.Proofs.Coupling
import ScriptBreakpoints.Proofs.Shifting

namespace ScriptBreakpoints

open Fallible Workspace

theorem Script.Coupled.pending {s : Script} (h : s.Coupled) (hs : s.hasPending = true)
    (p : Projection) : (s.slots.get p).pending.isSome := by
  rw [hasPending_eq, h.paired, Bool.or_self] at hs
  cases p
  · exact h.paired.trans hs
  · exact hs

namespace OpenScript

variable {o o' : OpenScript} {set : Std.ExtTreeSet Address} {x : Address} {p : Projection}

def placed? (o : OpenScript) (p : Projection) (x : Address) : Option Nat :=
  ((o.buffers.get p).table o.waiting).line? x

def unplaced (o : OpenScript) (set : Std.ExtTreeSet Address) : List Address :=
  set.toList.filter fun x ↦ (o.placed? .primary x).isNone && (o.placed? .derived x).isNone

/-- Each breakpoint of a set is shown where the tables tell its line, and nothing else is shown.
Those that no table knows are reported behind the reports `old`. The tables are those of a save if
the script waits for the reload. -/
structure Places (old : List Address) (set : Std.ExtTreeSet Address) (o : OpenScript) : Prop where
  tables : ∀ p, if o.waiting
    then (o.buffers.get p).provisional = some ((o.buffers.get p).table o.waiting)
    else (o.buffers.get p).marks = (o.buffers.get p).table o.waiting
  shown : ∀ p (x : Address),
    (o.buffers.get p).markers[x]? = if x ∈ set then o.placed? p x else none
  lost : o.lost = old ++ o.unplaced set

theorem mem_unplaced : x ∈ o.unplaced set ↔ x ∈ set ∧ ∀ p, o.placed? p x = none := by
  simp only [unplaced, List.mem_filter, Std.ExtTreeSet.mem_toList, Bool.and_eq_true,
    Option.isNone_iff_eq_none]
  refine and_congr_right fun _ ↦ ⟨fun h p ↦ ?_, fun h ↦ ⟨h .primary, h .derived⟩⟩
  cases p
  · exact h.1
  · exact h.2

theorem nodup_unplaced (o : OpenScript) (set : Std.ExtTreeSet Address) :
    (o.unplaced set).Nodup := by
  refine List.Pairwise.filter _ ?_
  exact set.distinct_toList.imp fun h heq ↦ h (Std.compare_eq_iff_eq.2 heq)

theorem placed?_place (as : List Address) : (o.place as).placed? p x = o.placed? p x := by
  obtain ⟨markers, hb⟩ := o.buffer_place as p
  rw [placed?, hb]
  rfl

theorem places_place (hempty : ∀ p, (o.buffers.get p).markers = ∅)
    (hwaiting : o.waiting = true → ∀ p, (o.buffers.get p).provisional.isSome)
    (set : Std.ExtTreeSet Address) : (o.place set.toList).Places o.lost set where
  tables p := by
    obtain ⟨markers, hb⟩ := o.buffer_place set.toList p
    rw [hb, show (o.place set.toList).waiting = o.waiting from rfl, Buffer.table]
    cases hw : o.waiting with
    | false => rfl
    | true =>
      obtain ⟨t, ht⟩ := Option.isSome_iff_exists.1 (hwaiting hw p)
      simp only [ht, ↓reduceIte, Option.getD_some]
  shown p x := by
    rw [markers_place, hempty, Std.ExtTreeMap.getElem?_empty, Option.or_none, placed?_place]
    exact if_congr Std.ExtTreeSet.mem_toList rfl rfl
  lost := by
    simp only [unplaced, placed?_place]
    refine congrArg (o.lost ++ ·) (List.filter_congr fun x _ ↦ ?_)
    simp [placed?, Marks.line?, Dual.toList, Dual.get]

theorem places_ofScript {t : Script} (ht : t.Coupled) (set : Std.ExtTreeSet Address) :
    ((ofScript t).place set.toList).Places [] set := by
  refine places_place (o := .ofScript t) (fun p ↦ ?_) (fun hw p ↦ ?_) set <;> rw [get_ofScript]
  · cases (t.slots.get p).pending <;> rfl
  · obtain ⟨v, hv⟩ := Option.isSome_iff_exists.1 (ht.pending hw p)
    rw [hv]
    rfl

theorem places_reload (o : OpenScript) (r : Reload) (set : Std.ExtTreeSet Address) :
    ((o.reload r).place set.toList).Places o.lost set :=
  places_place (markers_reload r o) nofun set

theorem Remarked.lost (h : o.Remarked o') : o'.lost = o.lost := by rw [h.1]

end OpenScript

theorem Emits.coupled {σ τ : Type} [Archive σ] [BreakpointStore τ] {c : Compiler}
    {w w' : Workspace σ τ} {ms : List Message} (h : Emits c w ms w')
    (hw : ∀ (file : String) t, w.scripts[file]? = some t → t.Coupled) :
    ∀ (file : String) t, w'.scripts[file]? = some t → t.Coupled := by
  induction h with
  | nothing => exact hw
  | ask r _ ih => exact perform_tracked c Script.Coupled.ofBinary (fun _ h ht ↦ ht.after h) r _ ih
  | aside _ _ _ hscripts ih => rwa [hscripts]

namespace Session

variable {σ τ : Type} [Archive σ] [BreakpointStore τ] [LawfulStore τ] {c : Compiler}
  {archive : σ} {store : τ} {before : List Move} {s : Session σ τ} {i : Nat} {file : String}
  {o : OpenScript} {m : Move}

def lost (s : Session σ τ) (i : Nat) (file : String) : List Address :=
  ((s.shown i file).map (·.lost)).getD []

/-- Whether the move shows the stored breakpoints of a script anew: it opens the script, or it
handles a reload of it while it is open and the store lists its breakpoints. -/
def places (c : Compiler) (i : Nat) (file : String) (s : Session σ τ) : Move → Bool
  | .editor j (.openScript f) =>
    j = i && f = file && (s.shown i file).isNone && isDone (move c (.editor j (.openScript f)) s).1
  | .next j =>
    j = i && (s.shown i file).isSome &&
      ((s.inbox i).head?.bind (·.reload?)).any (·.file = file) &&
      (BreakpointStore.list file s.workspace.store).1.isOk
  | _ => false

def takes (i : Nat) (file : String) : Move → Bool
  | .editor j (.takeLost f) => j = i && f = file
  | _ => false

def losses (c : Compiler) (i : Nat) (file : String) (s : Session σ τ) (m : Move) : List Address :=
  if s.places c i file m then
    (((move c m s).2.shown i file).map (·.unplaced ((move c m s).2.armed file))).getD []
  else []

/-- What was reported and not taken at the end of a run, if it was `as` at its start: the reports
since they were taken or the script was not open. -/
def untold (c : Compiler) (i : Nat) (file : String) :
    List Move → Session σ τ → List Address → List Address
  | [], _, as => as
  | m :: ms, s, as =>
    untold c i file ms (move c m s).2 <|
      if takes i file m ∨ (move c m s).2.shown i file = none then []
      else as ++ s.losses c i file m

omit [LawfulStore τ] in
theorem places_cases (h : s.places c i file m = true) :
    m = .editor i (.openScript file) ∧ s.shown i file = none ∧ (move c m s).1 = .ok .done ∨
      ∃ o r rest as, m = .next i ∧ s.shown i file = some o ∧ s.inbox i = .reload r :: rest ∧
        r.file = file ∧ (BreakpointStore.list file s.workspace.store).1 = .ok as := by
  cases m with
  | ask r => cases h
  | newEditor => cases h
  | editor j r =>
    cases r with
    | openScript f =>
      simp only [places, Bool.and_eq_true, decide_eq_true_eq, Option.isNone_iff_eq_none,
        isDone_iff] at h
      obtain ⟨⟨⟨rfl, rfl⟩, hclosed⟩, hdone⟩ := h
      exact .inl ⟨rfl, hclosed, hdone⟩
    | _ => cases h
  | next j =>
    simp only [places, Bool.and_eq_true, decide_eq_true_eq, Option.isSome_iff_exists,
      Option.any_eq_true] at h
    obtain ⟨⟨⟨rfl, o, ho⟩, r, hr, hfile⟩, hok⟩ := h
    obtain ⟨m, hm, hreload⟩ := Option.bind_eq_some_iff.1 hr
    obtain rfl := Message.reload?_eq_some.1 hreload
    obtain ⟨rest, hinbox⟩ := List.head?_eq_some_iff.1 hm
    cases hlist : (BreakpointStore.list file s.workspace.store).1 with
    | error e =>
      rw [hlist] at hok
      cases hok
    | ok as => exact .inr ⟨o, r, rest, as, rfl, ho, hinbox, hfile, rfl⟩

theorem coupled_after (hs : s = (start archive store).after c before) {t : Script}
    (ht : s.workspace.scripts[file]? = some t) : t.Coupled := by
  induction before using List.reverseRecOn generalizing s file t with
  | nil =>
    rw [hs] at ht
    cases ht
  | append_singleton before m ih =>
    obtain ⟨s₀, hs₀⟩ : ∃ s₀, s₀ = (start archive store).after c before := ⟨_, rfl⟩
    obtain ⟨emitted, hemits, -⟩ := received_move (sound_after hs₀) (hears_after hs₀) m
    rw [hs, ← move_after hs₀] at ht
    exact hemits.coupled (fun _ _ ↦ ih hs₀) file t ht

theorem armed_heard (hs : s = (start archive store).after c before) {r : Reload}
    {rest : List Message} (ho : s.shown i file = some o) (hinbox : s.inbox i = .reload r :: rest)
    (hfile : r.file = file) : (move c (.next i) s).2.armed file = s.armed file := by
  obtain ⟨a, hi, -⟩ := (sound_after hs).scene_shown ho
  obtain ⟨as, hi', -⟩ := hi.hear (c := c)
    (fun _ ↦ hi.script ▸ tracked_after hs ho) hinbox (congrArg some hfile)
  exact hi'.armed.symm.trans hi.armed

/-- A move that shows the stored breakpoints anew shows or reports each of them. -/
theorem places_move (hs : s = (start archive store).after c before)
    (h : s.places c i file m = true) : ∃ o, (move c m s).2.shown i file = some o ∧
      o.Places (s.lost i file) ((move c m s).2.armed file) := by
  obtain ⟨rfl, hclosed, hdone⟩ | ⟨o, r, rest, as, rfl, ho, hinbox, hfile, hlist⟩ := places_cases h
  · have hshift := shifted_move hs i file (m := .editor i (.openScript file)) nofun
    rw [hclosed] at hshift
    generalize (move c (.editor i (.openScript file)) s).2.shown i file = v' at hshift ⊢
    cases hshift with
    | aside haside => exact absurd haside (not_aside rfl)
    | still _ hidle => exact hidle.elim
    | unopened hfailed => exact absurd hdone hfailed
    | @opened t _ ht harmed =>
      rw [harmed, lost, hclosed]
      exact ⟨_, rfl, OpenScript.places_ofScript (coupled_after (move_after hs _) ht) _⟩
  · rw [shown_heard hs hinbox (congrArg some hfile), ho, armed_heard hs ho hinbox hfile, lost, ho]
    rw [Workspace.listed, hlist, LawfulStore.list_eq hlist]
    exact ⟨_, rfl, OpenScript.places_reload o r _⟩

theorem takes_iff : takes i file m = true ↔ m = .editor i (.takeLost file) := by
  constructor
  · intro h
    cases m with
    | editor j r =>
      cases r with
      | takeLost f =>
        simp only [takes, Bool.and_eq_true, decide_eq_true_eq] at h
        obtain ⟨rfl, rfl⟩ := h
        rfl
      | _ => cases h
    | _ => cases h
  · rintro rfl
    simp [takes]

theorem lost_of_takes (hs : s = (start archive store).after c before)
    (ho : (move c (.editor i (.takeLost file)) s).2.shown i file = some o) : o.lost = [] := by
  have hshift := shifted_move hs i file (m := .editor i (.takeLost file)) nofun
  rw [ho] at hshift
  generalize s.shown i file = v at hshift
  cases hshift with
  | aside haside => exact absurd haside (not_aside rfl)
  | still _ hidle => exact hidle.elim
  | told => rfl

theorem lost_of_not_places (hs : s = (start archive store).after c before)
    (hm : m ≠ .editor i .runPending) (hplaces : s.places c i file m = false)
    (htakes : takes i file m = false) (ho : (move c m s).2.shown i file = some o) :
    o.lost = s.lost i file := by
  have hshift := shifted_move hs i file hm
  obtain ⟨v', hv'⟩ : ∃ v', (move c m s).2.shown i file = v' := ⟨_, rfl⟩
  rw [ho] at hv'
  rw [ho, hv'] at hshift
  rw [lost]
  generalize hv : s.shown i file = v at hshift ⊢
  cases hshift with
  | aside | still =>
    subst hv'
    rfl
  | @heard m rest _ hinbox hfile =>
    obtain ⟨o₁, rfl, rfl⟩ := Option.map_eq_some_iff.1 hv'.symm
    cases m with
    | reload r =>
      have hunlisted : s.workspace.listed file = [] := by
        cases hlist : (BreakpointStore.list file s.workspace.store).1 with
        | error e =>
          rw [Workspace.listed, hlist]
          rfl
        | ok as =>
          simp [places, hv, hinbox, hlist, Message.reload?, Except.isOk, Except.toBool] at hplaces
          exact absurd (Option.some.inj hfile) hplaces
      rw [hunlisted]
      exact List.append_nil _
    | added f x => exact (OpenScript.remarked_showMarker x o₁).lost
    | removed f x => exact (OpenScript.remarked_hideAll [x] o₁).lost
    | shutdown => cases hfile
  | opened hdone =>
    simp [places, hv, isDone_iff.2 hdone] at hplaces
  | inserted | unsaved | saved =>
    cases hv'
    rfl
  | deleted =>
    cases hv'
    exact (OpenScript.remarked_hideAll _ _).lost
  | hidden =>
    cases hv'
    exact (OpenScript.remarked_hideAll _ _).lost
  | showed =>
    cases hv'
    exact (OpenScript.remarked_showMarker _ _).lost
  | unopened | closed => cases hv'
  | told => simp [takes] at htakes

theorem lost_move (hs : s = (start archive store).after c before)
    (hm : m ≠ .editor i .runPending) : (move c m s).2.lost i file =
      if takes i file m ∨ (move c m s).2.shown i file = none then []
      else s.lost i file ++ s.losses c i file m := by
  cases hv : (move c m s).2.shown i file with
  | none => rw [lost, hv, if_pos (.inr rfl)]; rfl
  | some o =>
    rw [lost, hv, Option.map_some, Option.getD_some]
    by_cases htakes : takes i file m = true
    · rw [if_pos (.inl htakes)]
      obtain rfl := takes_iff.1 htakes
      exact lost_of_takes hs hv
    · rw [if_neg (by simp [htakes]), losses]
      by_cases hplaces : s.places c i file m = true
      · obtain ⟨o', ho', hshows⟩ := places_move hs hplaces
        obtain rfl := Option.some.inj (hv.symm.trans ho')
        rw [if_pos hplaces, hv]
        exact hshows.lost
      · rw [if_neg hplaces, List.append_nil]
        exact lost_of_not_places hs hm (Bool.eq_false_iff.2 hplaces)
          (Bool.eq_false_iff.2 htakes) hv

/-- What a run makes of the reports that wait. -/
theorem lost_after (hs : s = (start archive store).after c before) (i : Nat) (file : String)
    (ms : List Move) (hms : .editor i .runPending ∉ ms) :
    (s.after c ms).lost i file = untold c i file ms s (s.lost i file) := by
  induction ms generalizing s before with
  | nil => rfl
  | cons m ms ih =>
    have hm : m ≠ .editor i .runPending := fun h ↦ hms (h ▸ List.mem_cons_self)
    rw [untold, ← lost_move hs hm]
    exact ih (move_after hs m) fun h ↦ hms (.tail _ h)

theorem takeLost_answer (hs : s.Sound) {e : Editor} (hi : s.editorAt i = some e) (file : String) :
    (move c (.editor i (.takeLost file)) s).1 = .ok (.lost file (s.lost i file)) := by
  obtain hvacant | ⟨e', hseat⟩ := hs.seat_cases i
  · rw [editorAt, hvacant] at hi
    cases hi
  · rw [move_editor hs hseat rfl, EditorRequest.perform, outcome_bind_pure, lost, shown, editorAt,
      hseat]
    simp only [Editor.takeLost, outcome_bind, outcome_get, Option.bind_some]
    cases e'.scripts[file]? <;> rfl

/-- Whenever a script is opened that was not open, and whenever a reload of an open one is handled
and the store lists its breakpoints, each stored breakpoint is shown by the buffers whose tables
know it, on the lines that they tell, and nothing else is shown; those that no table knows are
reported, each once. Who takes the reports gets those since they were last taken, or since the
script was opened, in the order in which they were made. -/
theorem shown_or_reported (c : Compiler) (archive : σ) (store : τ) {s₀ : Session σ τ}
    (hs₀ : s₀ = start archive store) (i : Nat) (file : String) (ms : List Move) :
    s₀.after c (s₀.singly c i ms) = s₀.after c ms ∧
    (∀ m, (s₀.after c ms).places c i file m = true →
      ∃ o, (move c m (s₀.after c ms)).2.shown i file = some o ∧
        o.Places ((s₀.after c ms).lost i file) ((move c m (s₀.after c ms)).2.armed file)) ∧
    (∀ (o : OpenScript) set, (o.unplaced set).Nodup ∧
      ∀ x, x ∈ o.unplaced set ↔ x ∈ set ∧ ∀ p, o.placed? p x = none) ∧
    ∀ e, (s₀.after c ms).editorAt i = some e →
      (move c (.editor i (.takeLost file)) (s₀.after c ms)).1 =
        .ok (.lost file (untold c i file (s₀.singly c i ms) s₀ [])) := by
  have hstart : s₀ = (start archive store).after c [] := hs₀
  have hafter : s₀.after c ms = (start archive store).after c ms := by rw [hs₀]
  refine ⟨after_singly hstart ms, fun m ↦ places_move hafter,
    fun o set ↦ ⟨o.nodup_unplaced set, fun _ ↦ OpenScript.mem_unplaced⟩, fun e hi ↦ ?_⟩
  have hlost := lost_after hstart i file (s₀.singly c i ms) (pending_notMem_singly s₀ ms)
  have hnone : s₀.lost i file = [] := by rw [hs₀]; rfl
  rw [takeLost_answer (sound_after hafter) hi file, ← after_singly hstart ms, hlost, hnone]

/-- A script is opened with a breakpoint that it has and one that it does not have. -/
theorem shown_or_reported_once_opened :
    ∃ s o, s = (start (ArchiveMap.ofList [("a", Utf8.encode "routine 5\n    a\n")])
        (⟨∅, ()⟩ : Ledger Unit)).after Listing.compiler [.ask (.addBreakpointAt "a" ⟨7, 7⟩),
          .ask (.addBreakpointAt "a" ⟨5, 0⟩), .newEditor] ∧
      (move Listing.compiler (.editor 0 (.openScript "a")) s).2.shown 0 "a" = some o ∧
      o.Places [] ((move Listing.compiler (.editor 0 (.openScript "a")) s).2.armed "a") ∧
      (o.buffers.get .primary).markers.toList = [(⟨5, 0⟩, 1)] ∧
      (o.buffers.get .derived).markers.toList = [(⟨5, 0⟩, 2)] ∧ o.lost = [⟨7, 7⟩] ∧
      (move Listing.compiler (.editor 0 (.takeLost "a")) <|
        (move Listing.compiler (.editor 0 (.openScript "a")) s).2).1 =
          .ok (.lost "a" [⟨7, 7⟩]) := by
  obtain ⟨s₀, hs₀⟩ : ∃ s₀, s₀ = start (ArchiveMap.ofList [("a", Utf8.encode "routine 5\n    a\n")])
      (⟨∅, ()⟩ : Ledger Unit) := ⟨_, rfl⟩
  obtain ⟨ms, hms⟩ : ∃ ms : List Move, ms = [.ask (.addBreakpointAt "a" ⟨7, 7⟩),
      .ask (.addBreakpointAt "a" ⟨5, 0⟩), .newEditor] := ⟨_, rfl⟩
  have hplaces : (s₀.after Listing.compiler ms).places Listing.compiler 0 "a"
      (.editor 0 (.openScript "a")) = true := by
    rw [hs₀, hms]
    decide +kernel
  have hmarkers : ((s₀.after Listing.compiler
      (ms ++ [.editor 0 (.openScript "a")])).shown 0 "a").map (fun o ↦ (
        (o.buffers.get .primary).markers.toList, (o.buffers.get .derived).markers.toList,
        o.lost)) = some ([(⟨5, 0⟩, 1)], [(⟨5, 0⟩, 2)], [⟨7, 7⟩]) := by
    rw [hs₀, hms]
    decide +kernel
  have huntold : untold Listing.compiler 0 "a"
      (s₀.singly Listing.compiler 0 (ms ++ [.editor 0 (.openScript "a")])) s₀ [] = [⟨7, 7⟩] := by
    rw [hs₀, hms]
    decide +kernel
  have hstep : (move Listing.compiler (.editor 0 (.openScript "a"))
      (s₀.after Listing.compiler ms)).2 =
        s₀.after Listing.compiler (ms ++ [.editor 0 (.openScript "a")]) := by
    rw [after, after, List.foldl_append]
    rfl
  obtain ⟨-, hshows, -⟩ := shown_or_reported Listing.compiler _ _ hs₀ 0 "a" ms
  obtain ⟨-, -, -, htake⟩ := shown_or_reported Listing.compiler _ _ hs₀ 0 "a"
    (ms ++ [.editor 0 (.openScript "a")])
  obtain ⟨o, ho, hplaced⟩ := hshows _ hplaces
  rw [hstep] at ho hplaced
  rw [ho, Option.map_some, Option.some.injEq, Prod.mk.injEq, Prod.mk.injEq] at hmarkers
  obtain ⟨hprimary, hderived, hlost⟩ := hmarkers
  obtain ⟨e, he, -⟩ := Option.bind_eq_some_iff.1 ho
  have hclosed : (s₀.after Listing.compiler ms).lost 0 "a" = [] := by
    rw [hs₀, hms]
    decide +kernel
  rw [hclosed] at hplaced
  refine ⟨_, o, by rw [← hs₀, ← hms], ?_⟩
  rw [hstep]
  exact ⟨ho, hplaced, hprimary, hderived, hlost, huntold ▸ htake e he⟩

/-- A breakpoint is reported as lost and nobody takes the report. It is gone when the script is
opened again. To open a script that is open does not show a breakpoint that was added since. -/
theorem report_gone_breakpoint_unshown :
    ∃ s₁ s₂ s₃ o, s₁ = (start (ArchiveMap.ofList [("a", Utf8.encode "routine 5\n    a\n")])
        (⟨∅, ()⟩ : Ledger Unit)).after Listing.compiler
          [.ask (.addBreakpointAt "a" ⟨7, 7⟩), .newEditor] ∧
      s₁.losses Listing.compiler 0 "a" (.editor 0 (.openScript "a")) = [⟨7, 7⟩] ∧
      s₂ = s₁.after Listing.compiler [.editor 0 (.openScript "a"),
        .editor 0 (.closeScript "a" true), .ask (.removeBreakpoint "a" ⟨7, 7⟩),
        .editor 0 (.openScript "a"), .ask (.addBreakpointAt "a" ⟨5, 0⟩)] ∧
      (move Listing.compiler (.editor 0 (.takeLost "a")) s₂).1 = .ok (.lost "a" []) ∧
      move Listing.compiler (.editor 0 (.openScript "a")) s₂ = (.ok .done, s₃) ∧
      (s₃.armed "a").toList = [⟨5, 0⟩] ∧ s₃.shown 0 "a" = some o ∧
      o.placed? .primary ⟨5, 0⟩ = some 1 ∧ (o.buffers.get .primary).markers.toList = [] := by
  obtain ⟨s₁, hs₁⟩ : ∃ s₁, s₁ = (start (ArchiveMap.ofList [("a", Utf8.encode "routine 5\n    a\n")])
      (⟨∅, ()⟩ : Ledger Unit)).after Listing.compiler
        [.ask (.addBreakpointAt "a" ⟨7, 7⟩), .newEditor] := ⟨_, rfl⟩
  obtain ⟨s₂, hs₂⟩ : ∃ s₂, s₂ = s₁.after Listing.compiler [.editor 0 (.openScript "a"),
      .editor 0 (.closeScript "a" true), .ask (.removeBreakpoint "a" ⟨7, 7⟩),
      .editor 0 (.openScript "a"), .ask (.addBreakpointAt "a" ⟨5, 0⟩)] := ⟨_, rfl⟩
  have hlosses : s₁.losses Listing.compiler 0 "a" (.editor 0 (.openScript "a")) = [⟨7, 7⟩] := by
    rw [hs₁]
    decide +kernel
  have hseated : (s₂.editorAt 0).isSome = true ∧ s₂.lost 0 "a" = [] := by
    rw [hs₂, hs₁]
    decide +kernel
  have hopened : isDone (move Listing.compiler (.editor 0 (.openScript "a")) s₂).1 = true ∧
      ((move Listing.compiler (.editor 0 (.openScript "a")) s₂).2.armed "a").toList = [⟨5, 0⟩] ∧
      ((move Listing.compiler (.editor 0 (.openScript "a")) s₂).2.shown 0 "a").map (fun o ↦
        (o.placed? .primary ⟨5, 0⟩, (o.buffers.get .primary).markers.toList)) =
          some (some 1, []) := by
    rw [hs₂, hs₁]
    decide +kernel
  obtain ⟨e, he⟩ := Option.isSome_iff_exists.1 hseated.1
  have hreached := hs₂
  rw [hs₁, after, after, ← List.foldl_append] at hreached
  have htake := takeLost_answer (c := Listing.compiler) (sound_after hreached) he "a"
  rw [hseated.2] at htake
  obtain ⟨hdone, harmed, hshown⟩ := hopened
  obtain ⟨o, ho, heq⟩ := Option.map_eq_some_iff.1 hshown
  obtain ⟨hplaced, hmarkers⟩ := Prod.mk.inj heq
  exact ⟨s₁, s₂, _, o, hs₁, hlosses, hs₂, htake, Prod.ext (isDone_iff.1 hdone) rfl, harmed, ho,
    hplaced, hmarkers⟩

end Session

end ScriptBreakpoints
