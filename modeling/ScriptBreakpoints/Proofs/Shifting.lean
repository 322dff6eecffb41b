import ScriptBreakpoints.Proofs.Clicking
import ScriptBreakpoints.Proofs.Leftovers

namespace ScriptBreakpoints

open Fallible Workspace

def EditorRequest.Idle : Option OpenScript → EditorRequest → Prop
  | none, openScript _ => False
  | none, _ => True
  | some o, insertLines _ projection _ _ => projection ≠ o.authority
  | some o, deleteLines _ projection _ _ => projection ≠ o.authority
  | some _, toggle .. | some _, save _ | some _, takeLost _ => False
  | some _, _ => True

section Desk

variable {σ τ : Type} [Archive σ] [BreakpointStore τ] {c : Compiler} {d : Desk σ τ}
  {file : String} {t : Script} {m : Message}

/-- A message about a script is heard with the breakpoints that the store lists. -/
theorem Editor.handle_heard (hm : m.file? = some file)
    (ht : d.editor.scripts[file]?.isSome → ∃ t, d.workspace.scripts[file]? = some t) :
    ((Editor.handle c m).outcome d).2.editor.scripts[file]? =
      d.editor.scripts[file]?.map (·.hear (d.workspace.listed file) m) := by
  cases ho : d.editor.scripts[file]? with
  | none =>
    obtain ⟨log, hd⟩ := Editor.handle_closed (c := c) ho hm
    rw [hd]
    exact ho
  | some o =>
    obtain ⟨t, ht⟩ := ht (Option.isSome_of_mem ho)
    obtain ⟨as, w, log, hd, hconsults⟩ := Editor.handle_open (c := c) ho hm
    rw [hd, (hconsults.tracked ht).1]
    exact Std.ExtTreeMap.getElem?_insert_self

end Desk

namespace Session

variable {σ τ : Type} [Archive σ] [BreakpointStore τ] [LawfulStore τ] {c : Compiler}
  {archive : σ} {store : τ} {before : List Move} {s : Session σ τ} {i : Nat} {file : String}

/-- What a move makes of what the editor at seat `i` shows of a script, unless the editor handles
all its mail. -/
inductive Shifted (c : Compiler) (i : Nat) (file : String) (s : Session σ τ) :
    Move → Option OpenScript → Option OpenScript → Prop
  | aside {m : Move} {v : Option OpenScript} : s.Aside i file m → Shifted c i file s m v v
  | still {r : EditorRequest} {v : Option OpenScript} : r.file? = some file → r.Idle v →
      Shifted c i file s (.editor i r) v v
  | heard {m : Message} {rest : List Message} {v : Option OpenScript} :
      s.inbox i = m :: rest → m.file? = some file →
      Shifted c i file s (.next i) v (v.map (·.hear (s.workspace.listed file) m))
  | unopened : (move c (.editor i (.openScript file)) s).1 ≠ .ok .done →
      Shifted c i file s (.editor i (.openScript file)) none none
  | opened {t : Script} : (move c (.editor i (.openScript file)) s).1 = .ok .done →
      (move c (.editor i (.openScript file)) s).2.workspace.scripts[file]? = some t →
      (move c (.editor i (.openScript file)) s).2.armed file = s.armed file →
      Shifted c i file s (.editor i (.openScript file)) none
        (some ((OpenScript.ofScript t).place (s.armed file).toList))
  | closed {o : OpenScript} {confirm : Bool} :
      Shifted c i file s (.editor i (.closeScript file confirm)) (some o) none
  | inserted {o : OpenScript} {start : Nat} {new : List String} :
      Shifted c i file s (.editor i (.insertLines file o.authority start new)) (some o)
        (some (o.setBuffer (o.buffer.insertLines start new)))
  | deleted {o : OpenScript} {start stop : Nat} {removed : List Address} :
      removed <+: (o.buffer.deleteLines start stop).1 →
      Shifted c i file s (.editor i (.deleteLines file o.authority start stop)) (some o)
        (some (removed.foldl (fun o x ↦ o.hideMarker x)
          (o.setBuffer (o.buffer.deleteLines start stop).2)))
  | hidden {o : OpenScript} {projection : Projection} {line : Nat} {removed : List Address} :
      Shifted c i file s (.editor i (.toggle file projection line)) (some o)
        (some (removed.foldl (fun o x ↦ o.hideMarker x) o))
  | showed {o : OpenScript} {projection : Projection} {line : Nat} {x : Address} :
      o.buffer.marks.first? line = some x →
      Shifted c i file s (.editor i (.toggle file projection line)) (some o)
        (some (o.showMarker x))
  | unsaved {o : OpenScript} :
      (∀ r, (move c (.editor i (.save file)) s).1 ≠ .ok (.readiness (some r))) →
      Shifted c i file s (.editor i (.save file)) (some o) (some o)
  | saved {o : OpenScript} {readiness : Readiness} {compiled : Compiled} :
      (move c (.editor i (.save file)) s).1 = .ok (.readiness (some readiness)) →
      c.compile o.authority o.buffer.text = .ok compiled →
      Shifted c i file s (.editor i (.save file)) (some o) (some (o.saved compiled.map))
  | told {o : OpenScript} :
      (move c (.editor i (.takeLost file)) s).1 = .ok (.lost file o.lost) →
      Shifted c i file s (.editor i (.takeLost file)) (some o) (some { o with lost := [] })

omit [Archive σ] [BreakpointStore τ] [LawfulStore τ] in
theorem not_aside {r : EditorRequest} (hfile : r.file? = some file) :
    ¬s.Aside i file (.editor i r) := by
  intro haside
  obtain ⟨other, hne, hother⟩ := haside rfl
  exact hne (Option.some.inj (hother.symm.trans hfile))

omit [Archive σ] [BreakpointStore τ] [LawfulStore τ] in
theorem not_aside_next {m : Message} {rest : List Message} (hinbox : s.inbox i = m :: rest)
    (hm : m.file? = some file) : ¬s.Aside i file (.next i) :=
  fun haside ↦ haside rfl m (by rw [hinbox]; rfl) hm

section Vacant

omit [BreakpointStore τ] [LawfulStore τ] [Archive σ] in
theorem shown_of_seats (hi : s.seats[i]? = none) : s.shown i file = none :=
  shown_vacant (by rw [editorAt, hi, Option.bind_none])

theorem shifted_vacant (hs : s.Sound) (hi : s.seats[i]? = none) {m : Move}
    (hm : m ≠ .editor i .runPending) :
    Shifted c i file s m (s.shown i file) ((move c m s).2.shown i file) := by
  have hafter : (move c m s).2.shown i file = none := by
    by_cases hnew : m = .newEditor
    · subst hnew
      exact (shown_newEditor s i file).trans (shown_of_seats hi)
    · exact shown_of_seats (seats_move hs hnew hi)
  rw [hafter, shown_of_seats hi]
  obtain haside | rfl | rfl | ⟨r, rfl, hfile⟩ := s.aside_or i file m
  · exact .aside haside
  · refine .aside fun _ m hhead ↦ ?_
    rw [(vacant_silent hi).1] at hhead
    cases hhead
  · exact absurd rfl hm
  · by_cases hopen : r = .openScript file
    · subst hopen
      refine .unopened ?_
      rw [move, step, atSeat_vacant hi]
      exact fun h ↦ by cases h
    · refine .still hfile ?_
      cases r with
      | openScript f => cases hfile; exact hopen rfl
      | _ => trivial

end Vacant

theorem Shifted.of_desk (hs : s.Sound) {e : Editor} (hi : s.seats[i]? = some ⟨e.inbox, some e⟩)
    {r : EditorRequest} (hfile : r.file? = some file) {result : Except Fault Reply}
    {d : Session.Desk σ τ} (ho : (r.perform c).outcome ⟨e, s.workspace⟩ = (result, d))
    {v v' : Option OpenScript} (hv : e.scripts[file]? = v) (hv' : d.editor.scripts[file]? = v')
    (h : (move c (.editor i r) s).1 = result.mapError .fault →
      (move c (.editor i r) s).2.workspace = d.workspace →
        Shifted c i file s (.editor i r) v v') :
    Shifted c i file s (.editor i r) (s.shown i file)
      ((move c (.editor i r) s).2.shown i file) := by
  have hmove := move_editor (c := c) hs hi hfile
  rw [ho] at hmove
  have hshown : (move c (.editor i r) s).2.shown i file = v' := by
    rw [hmove, shown, editorAt, seats_put_self hi]
    exact hv'
  have hbefore : s.shown i file = v := by
    rw [shown, editorAt, hi]
    exact hv
  rw [hshown, hbefore]
  exact h (congrArg Prod.fst hmove) (by rw [hmove]; rfl)

theorem Shifted.of_action (hs : s.Sound) {e : Editor}
    (hi : s.seats[i]? = some ⟨e.inbox, some e⟩) {r : EditorRequest} (hfile : r.file? = some file)
    {β : Type} {x : EditorAction (Refusing ArchiveCall σ) (Refusing StoreCall τ) β}
    {f : β → Reply} (hx : r.perform c = x >>= fun a ↦ pure (f a)) {result : Except Fault β}
    {d : Session.Desk σ τ} (ho : x.outcome ⟨e, s.workspace⟩ = (result, d))
    {v v' : Option OpenScript} (hv : e.scripts[file]? = v) (hv' : d.editor.scripts[file]? = v')
    (h : (move c (.editor i r) s).1 = (result.map f).mapError .fault →
      (move c (.editor i r) s).2.workspace = d.workspace →
        Shifted c i file s (.editor i r) v v') :
    Shifted c i file s (.editor i r) (s.shown i file)
      ((move c (.editor i r) s).2.shown i file) := by
  have hperform : (r.perform c).outcome (⟨e, s.workspace⟩ : Session.Desk σ τ) =
      (result.map f, d) := by rw [hx, outcome_bind_pure, ho]
  exact .of_desk hs hi hfile hperform hv hv' h

section Desk

variable {e : Editor} {o : OpenScript} {t : Script} {a : Aspect} {r : EditorRequest}
  (hs : s.Sound) (hi : s.seats[i]? = some ⟨e.inbox, some e⟩) (hfile : r.file? = some file)

include hs hi

theorem shifted_unopened (hv : e.scripts[file]? = none) (hfile : r.file? = some file) :
    Shifted c i file s (.editor i r) (s.shown i file)
      ((move c (.editor i r) s).2.shown i file) := by
  by_cases hopen : r = .openScript file
  · subst hopen
    have hshows : Shows file e.inbox none _ (⟨e, s.workspace⟩ : Session.Desk σ τ) :=
      ⟨rfl, hs.orderly, hs.attends hi, hv, rfl⟩
    obtain ⟨result, d, v', a', ho, hd, hcases⟩ := hshows.openScript (c := c)
    obtain ⟨result', d', ho', hend⟩ := Desk.openScript_cases c (d := ⟨e, s.workspace⟩) hv
    obtain ⟨rfl, rfl⟩ := Prod.mk.inj (ho.symm.trans ho')
    rw [hd.view] at hend
    refine .of_action hs hi rfl rfl ho hv hd.view fun hanswer hworkspace ↦ ?_
    obtain ⟨rfl, -, -⟩ | ⟨t, rfl, rfl⟩ := hcases
    · obtain ⟨-, hopen, -⟩ | ⟨⟨f, rfl⟩, -, -⟩ := hend
      · cases hopen
      · refine .unopened ?_
        rw [hanswer]
        exact fun h ↦ by cases h
    · obtain ⟨rfl, -, -⟩ | ⟨-, hclosed, -⟩ := hend
      · refine .opened hanswer (hworkspace ▸ hd.tracked rfl) ?_
        rw [armed, hworkspace]
        exact congrArg Aspect.armed hd.aspect
      · cases hclosed
  · have hsame := EditorRequest.unopened (c := c) (d := (⟨e, s.workspace⟩ : Session.Desk σ τ)) hv
      hfile hopen
    rcases ho : (r.perform c).outcome (⟨e, s.workspace⟩ : Session.Desk σ τ) with ⟨result, d⟩
    rw [ho] at hsame
    subst hsame
    refine .of_desk hs hi hfile ho hv hv fun _ _ ↦ .still hfile ?_
    cases r with
    | openScript f => cases hfile; exact hopen rfl
    | _ => trivial

theorem shifted_save (hv : e.scripts[file]? = some o)
    (ht : s.workspace.scripts[file]? = some t) :
    Shifted c i file s (.editor i (.save file)) (s.shown i file)
      ((move c (.editor i (.save file)) s).2.shown i file) := by
  have hshows : Shows file e.inbox (some o) _ (⟨e, s.workspace⟩ : Session.Desk σ τ) :=
    ⟨rfl, hs.orderly, hs.attends hi, hv, rfl⟩
  obtain ⟨result, d, o', a', ho, hd, hstored⟩ := hshows.save (c := c) ht
  refine .of_action hs hi rfl rfl ho hv hd.view fun hanswer _ ↦ ?_
  cases hstored with
  | unmodified => exact .unsaved fun r h ↦ by rw [hanswer] at h; cases h
  | failed => exact .unsaved fun r h ↦ by rw [hanswer] at h; cases h
  | unrestored => exact .unsaved fun r h ↦ by rw [hanswer] at h; cases h
  | saved _ hc => exact .saved hanswer hc

theorem shifted_open (hv : e.scripts[file]? = some o) (ht : s.workspace.scripts[file]? = some t)
    (hfile : r.file? = some file) : Shifted c i file s (.editor i r) (s.shown i file)
      ((move c (.editor i r) s).2.shown i file) := by
  have hshows : Shows file e.inbox (some o) _ (⟨e, s.workspace⟩ : Session.Desk σ τ) :=
    ⟨rfl, hs.orderly, hs.attends hi, hv, rfl⟩
  have hstill (hr : r.Idle (some o)) (ho : ((r.perform c).outcome
      (⟨e, s.workspace⟩ : Session.Desk σ τ)).2.editor.scripts[file]? = some o) :
      Shifted c i file s (.editor i r) (s.shown i file)
        ((move c (.editor i r) s).2.shown i file) := by
    rcases hd : (r.perform c).outcome (⟨e, s.workspace⟩ : Session.Desk σ τ) with ⟨result, d⟩
    rw [hd] at ho
    exact .of_desk hs hi hfile hd hv ho fun _ _ ↦ .still hfile hr
  cases r with
  | openScript f =>
    cases hfile
    refine hstill trivial ?_
    rw [EditorRequest.perform, outcome_bind_pure, Editor.openScript_open (d := ⟨e, s.workspace⟩) hv]
    exact hv
  | closeScript f confirm =>
    cases hfile
    obtain ⟨result, d, v', a', ho, hd, -, hcases⟩ := hshows.closeScript (c := c) ht confirm
    refine .of_action hs hi rfl rfl ho hv hd.view fun _ _ ↦ ?_
    obtain ⟨rfl, -⟩ | ⟨rfl, -⟩ := hcases
    · exact .closed
    · exact .still rfl trivial
  | toggle f projection line =>
    cases hfile
    obtain ⟨result, d, o', a', ho, hclicked, hd⟩ := hshows.toggle (c := c) ht projection line
    refine .of_action hs hi rfl rfl ho hv hd.view fun _ _ ↦ ?_
    cases hclicked with
    | nothing => exact (.hidden : Shifted c i file s _ (some o) (some (([] : List Address).foldl
        (fun o x ↦ o.hideMarker x) o)))
    | hidden => exact .hidden
    | shown _ _ hx => exact .showed hx
  | insertLines f projection start new =>
    cases hfile
    obtain ⟨result, d, ho, hd⟩ := hshows.insertLines projection start new
    refine .of_action hs hi rfl rfl ho hv hd.view fun _ _ ↦ ?_
    by_cases hp : projection = o.authority
    · subst hp
      rw [if_pos rfl]
      exact .inserted
    · rw [if_neg hp]
      exact .still rfl hp
  | deleteLines f projection start stop =>
    cases hfile
    obtain ⟨result, d, o', a', ho, hd, hcases⟩ :=
      hshows.deleteLines (c := c) ht projection start stop
    refine .of_action hs hi rfl rfl ho hv hd.view fun _ _ ↦ ?_
    obtain ⟨hp, rfl, -⟩ | ⟨rfl, removed, hpre, -, -, rfl, -⟩ := hcases
    · exact .still rfl hp
    · exact .deleted hpre
  | save f =>
    cases hfile
    exact shifted_save hs hi hv ht
  | runPending => cases hfile
  | takeLost f =>
    cases hfile
    have ho : (Editor.takeLost file).outcome (⟨e, s.workspace⟩ : Session.Desk σ τ) = (.ok o.lost,
        ⟨{ e with scripts := e.scripts.insert file { o with lost := [] } }, s.workspace⟩) := by
      simp only [Editor.takeLost, outcome_bind, outcome_get, hv, Editor.put, outcome_modify,
        outcome_pure]
    exact .of_action hs hi rfl rfl ho hv Std.ExtTreeMap.getElem?_insert_self
      fun hanswer _ ↦ .told hanswer
  | _ =>
    refine hstill trivial ?_
    rw [EditorRequest.perform_look c rfl]
    exact hv

end Desk

theorem shown_heard (hs : s = (start archive store).after c before) {m : Message}
    {rest : List Message} (hinbox : s.inbox i = m :: rest) (hm : m.file? = some file) :
    (move c (.next i) s).2.shown i file =
      (s.shown i file).map (·.hear (s.workspace.listed file) m) := by
  obtain hvacant | ⟨e, hi⟩ := (sound_after hs).seat_cases i
  · rw [(vacant_silent hvacant).1] at hinbox
    cases hinbox
  · rw [inbox_seated hi] at hinbox
    have hshown : s.shown i file = e.scripts[file]? := by
      rw [shown, editorAt, hi]
      rfl
    have hheard := Editor.handle_heard (c := c)
      (d := (⟨e, s.workspace⟩ : Session.Desk σ τ).withQueue rest) hm fun hv ↦ by
        obtain ⟨o, ho⟩ := Option.isSome_iff_exists.1 hv
        exact tracked_after hs (hshown.trans ho)
    rw [hshown, move_next hi, Editor.handleNext_cons hinbox, shown, editorAt, seats_put_self hi]
    exact hheard

theorem shifted_move (hs : s = (start archive store).after c before) (i : Nat) (file : String)
    {m : Move} (hm : m ≠ .editor i .runPending) :
    Shifted c i file s m (s.shown i file) ((move c m s).2.shown i file) := by
  have hsound := sound_after hs
  obtain hvacant | ⟨e, hi⟩ := hsound.seat_cases i
  · exact shifted_vacant hsound hvacant hm
  obtain haside | rfl | rfl | ⟨r, rfl, hfile⟩ := s.aside_or i file m
  · obtain ⟨a', hi', -⟩ := (hsound.scene hi file).passes (c := c) hsound haside
    rw [hi'.shown, (hsound.scene hi file).shown]
    exact .aside haside
  · obtain haside | ⟨m, rest, hinbox, hfile⟩ := s.aside_next_or i file
    · obtain ⟨a', hi', -⟩ := (hsound.scene hi file).passes (c := c) hsound haside
      rw [hi'.shown, (hsound.scene hi file).shown]
      exact .aside haside
    · rw [shown_heard hs hinbox hfile]
      exact .heard hinbox hfile
  · exact absurd rfl hm
  · cases hv : e.scripts[file]? with
    | none => exact shifted_unopened hsound hi hv hfile
    | some o =>
      have ho : s.shown i file = some o := by
        rw [shown, editorAt, hi]
        exact hv
      obtain ⟨t, ht⟩ := tracked_after hs ho
      exact shifted_open hsound hi hv ht hfile

omit [LawfulStore τ] in
/-- If one move keeps what is good exactly if it is not bad, then all is good along a run exactly if
no move of it is bad. -/
theorem good_along_iff {good : Session σ τ → Prop} {bad : Session σ τ → Move → Prop}
    {ms : List Move}
    (hstep : ∀ {s before m}, s = (start archive store).after c before → m ∈ ms → good s →
      (good (move c m s).2 ↔ ¬bad s m))
    (hs : s = (start archive store).after c before) (h : good s) :
    (∀ ms', ms' <+: ms → good (s.after c ms')) ↔ Along c (fun s m ↦ ¬bad s m) s ms := by
  induction ms generalizing s before with
  | nil => exact iff_of_true (fun ms' hms ↦ List.prefix_nil.1 hms ▸ h) trivial
  | cons m ms ih =>
    have hfirst := hstep hs (.head _) h
    have hrest (hgood : good (move c m s).2) := ih
      (fun hs hm ↦ hstep hs (.tail _ hm)) (move_after hs m) hgood
    rw [forall_prefix_cons, and_iff_right (show good (s.after c []) from h)]
    constructor
    · intro hall
      have hgood := hall [] List.nil_prefix
      exact ⟨hfirst.1 hgood, (hrest hgood).1 hall⟩
    · rintro ⟨hbad, halong⟩
      exact (hrest (hfirst.2 hbad)).2 halong

omit [LawfulStore τ] in
theorem good_singly_iff {good : Session σ τ → Prop} {bad : Session σ τ → Move → Prop}
    (hstep : ∀ {s before m}, s = (start archive store).after c before →
      m ≠ .editor i .runPending → good s → (good (move c m s).2 ↔ ¬bad s m))
    (hs : s = (start archive store).after c before) (h : good s) (ms : List Move) :
    (∀ ms', ms' <+: s.singly c i ms → good (s.after c ms')) ↔
      Along c (fun s m ↦ ¬bad s m) s (s.singly c i ms) := by
  refine good_along_iff (fun hs hm ↦ hstep hs ?_) hs h
  rintro rfl
  exact pending_notMem_singly _ ms hm

end Session

end ScriptBreakpoints
