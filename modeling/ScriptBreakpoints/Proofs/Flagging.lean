import ScriptBreakpoints.Proofs.Commands
import ScriptBreakpoints.Proofs.Visiting

namespace ScriptBreakpoints

open Fallible Workspace

variable {σ τ α : Type}

namespace Session

variable {s s' s'' : Session σ τ} {file : String} {i : Nat} {e : Editor}

theorem shown_of_editorAt (hi : s.editorAt i = some e) : s.shown i file = e.scripts[file]? := by
  rw [shown, hi, Option.bind_some]

theorem shown_vacant (hi : s.editorAt i = none) : s.shown i file = none := by
  rw [shown, hi, Option.bind_none]

theorem shown_newEditor (s : Session σ τ) (i : Nat) (file : String) :
    s.newEditor.shown i file = s.shown i file := by
  simp only [shown, editorAt, newEditor, List.getElem?_append]
  split
  · rfl
  · next hi =>
    rw [List.getElem?_eq_none (Nat.not_lt.1 hi), List.getElem?_singleton]
    split
    · exact Std.ExtTreeMap.getElem?_empty
    · rfl

structure Leaves (file : String) (s s' : Session σ τ) : Prop where
  unvisited : Unvisited file s.workspace s'.workspace
  shown (i : Nat) : (s'.shown i file).isSome = (s.shown i file).isSome

structure Tracks (file : String) (s : Session σ τ) : Prop extends Manned s where
  tracked {i : Nat} : (s.shown i file).isSome → s.workspace.scripts[file]?.isSome

theorem Tracks.desk (h : s.Tracks file) (hi : s.editorAt i = some e) :
    ScriptBreakpoints.Desk.Tracks file (⟨e, s.workspace⟩ : Desk σ τ) where
  orderly := h.orderly
  attends := h.attends hi
  tracked hv := h.tracked (i := i) (by rw [shown_of_editorAt hi]; exact hv)

namespace Leaves

theorem refl (s : Session σ τ) : Leaves file s s := ⟨.refl _, fun _ ↦ rfl⟩

theorem trans (h : Leaves file s s') (h' : Leaves file s' s'') : Leaves file s s'' :=
  ⟨h.unvisited.trans h'.unvisited, fun i ↦ (h'.shown i).trans (h.shown i)⟩

end Leaves

theorem atSeat_outcome (file : String)
    {x : EditorAction (Refusing ArchiveCall σ) (Refusing StoreCall τ) Reply}
    {result : Except Fault Reply} {d : Desk σ τ} (hi : s.editorAt i = some e)
    (ho : x.outcome ⟨e, s.workspace⟩ = (result, d)) :
    ∃ s', s.atSeat i x = (result.mapError .fault, s') ∧ s'.workspace = d.workspace ∧
      s'.shown i file = d.editor.scripts[file]? ∧ ∀ j ≠ i, s'.shown j file = s.shown j file := by
  obtain ⟨inbox, hseat⟩ := seats_of_editorAt hi
  have hlt := (List.getElem?_eq_some_iff.1 hseat).1
  refine ⟨_, by simp only [atSeat, hseat, ho]; rfl, rfl, ?_, fun j hj ↦ ?_⟩
  · rw [shown, editorAt, List.getElem?_set_self hlt]
    rfl
  · rw [shown, editorAt, List.getElem?_set_ne (Ne.symm hj), shown, editorAt]

theorem Leaves.of_seat (hleaves : Unvisited file s.workspace s'.workspace)
    (hi : (s'.shown i file).isSome = (s.shown i file).isSome)
    (hothers : ∀ j ≠ i, s'.shown j file = s.shown j file) : Leaves file s s' := by
  refine ⟨hleaves, fun j ↦ ?_⟩
  by_cases hj : j = i
  · rw [hj, hi]
  · rw [hothers j hj]

theorem Leaves.atSeat {x : EditorAction (Refusing ArchiveCall σ) (Refusing StoreCall τ) Reply}
    (h : s.Tracks file) (i : Nat) (hx : ∀ d : Desk σ τ, d.Tracks file →
      d.Leaves file (x.outcome d).2) : Leaves file s (s.atSeat i x).2 := by
  cases hi : s.editorAt i with
  | none =>
    rw [atSeat_gone hi]
    exact .refl s
  | some e =>
    have hleaves := hx _ (h.desk hi)
    rcases ho : x.outcome ⟨e, s.workspace⟩ with ⟨result, d⟩
    obtain ⟨s', hs', hworkspace, hshown, hothers⟩ := atSeat_outcome file hi ho
    rw [ho] at hleaves
    rw [hs']
    refine .of_seat (hworkspace ▸ hleaves.unvisited) ?_ hothers
    rw [hshown, hleaves.shown, shown_of_editorAt hi]

theorem shown_leave (s : Session σ τ) (i : Nat) (file : String) :
    (s.leave i).shown i file = none ∧ ∀ j ≠ i, (s.leave i).shown j file = s.shown j file := by
  cases hi : s.seats[i]? with
  | none =>
    simp only [leave, hi]
    exact ⟨shown_vacant (by rw [editorAt, hi]; rfl), fun _ _ ↦ trivial⟩
  | some seat =>
    have hlt := (List.getElem?_eq_some_iff.1 hi).1
    simp only [leave, hi, shown, editorAt]
    refine ⟨?_, fun j hj ↦ ?_⟩
    · rw [List.getElem?_set_self hlt]
      rfl
    · rw [List.getElem?_set_ne (Ne.symm hj)]

theorem scripts_leave (s : Session σ τ) (i : Nat) :
    (s.leave i).workspace.scripts = s.workspace.scripts := by
  unfold leave
  split <;> rfl

section Commands

variable [Archive σ] [BreakpointStore τ] {c : Compiler} {cmd : Command}

theorem seats_unseated (hseat : cmd.isSeated = false) (hnew : cmd ≠ .newEditor) :
    (s.step c cmd).2.seats = s.seats := by
  have hinbox (j : Nat) (x : Mailbox → Fallible (Refusable σ τ) Reply) :
      (s.withInbox j x).2.seats = s.seats := by
    unfold withInbox
    split <;> rfl
  cases cmd with
  | newEditor => exact absurd rfl hnew
  | unreceived ds =>
    simp only [step, reportUnreceived]
    split <;> next h => exact congrArg (·.2.seats) h.symm
  | sendUnloaded f =>
    simp only [step, sendUnloaded]
    split <;> rfl
  | listen f name =>
    simp only [step, mailboxOf]
    split <;> rfl
  | unlisten f name =>
    simp only [step]
    split <;> rfl
  | drain name =>
    simp only [step, drain]
    split <;> rfl
  | dropInbox name =>
    simp only [step]
    split <;> rfl
  | refuse call answers => cases call <;> rfl
  | post j l =>
    simp only [step, opening]
    split
    · exact hinbox _ _
    · rfl
  | editorListen j f => exact hinbox _ _
  | editorUnlisten j f => exact hinbox _ _
  | handle j l => cases hseat
  | run j => cases hseat
  | drop j => cases hseat
  | editor j r => cases hseat
  | _ => rfl

theorem shown_unseated (hseat : cmd.isSeated = false) (i : Nat) (file : String) :
    (s.step c cmd).2.shown i file = s.shown i file := by
  by_cases hnew : cmd = .newEditor
  · subst hnew
    exact shown_newEditor s i file
  · rw [shown, editorAt, seats_unseated hseat hnew, shown, editorAt]

theorem run_posted (hi : s.editorAt i = some e) :
    (s.run c i).2 = ((s.step c (.post i .shutdown)).2.atSeat i (do
      Editor.run c
      return .done)).2.leave i := by
  obtain ⟨box, hseat⟩ := seats_of_editorAt hi
  have hpost : s.step c (.post i .shutdown) =
      s.withInbox i fun box ↦ do return .flag (← Workspace.post box .shutdown) := rfl
  rw [hpost]
  simp only [run, withInbox, hseat, Alert.reply_outcome]

theorem run_gone (hi : s.editorAt i = none) : s.run c i = (.ok .stopped, s) := by
  unfold editorAt at hi
  unfold Session.run
  split
  · next hseat =>
    rw [hseat] at hi
    cases hi
  · rfl

theorem Leaves.unopened {r : EditorRequest} (hv : s.shown i file = none)
    (hfile : r.file? = some file) (hopen : r ≠ .openScript file) :
    Leaves file s (s.step c (.editor i r)).2 := by
  rw [Session.step]
  cases hi : s.editorAt i with
  | none =>
    rw [atSeat_gone hi]
    exact .refl s
  | some e =>
    rw [shown_of_editorAt hi] at hv
    have hsame := EditorRequest.unopened (c := c) (d := (⟨e, s.workspace⟩ : Desk σ τ)) hv hfile
      hopen
    rcases ho : (r.perform c).outcome (⟨e, s.workspace⟩ : Desk σ τ) with ⟨result, d⟩
    rw [ho] at hsame
    subst hsame
    obtain ⟨s', hs', hworkspace, hshown, hothers⟩ := atSeat_outcome file hi ho
    rw [hs']
    refine .of_seat (.of_scripts (by rw [hworkspace])) ?_ hothers
    rw [hshown, shown_of_editorAt hi]

inductive Visits (file : String) : Command → Prop
  | ask {r : Request} : r.file = file → r.isVisit = true → Visits file (.ask r)
  | editor {i : Nat} {r : EditorRequest} : r.file? = some file → r.relistens = true →
      Visits file (.editor i r)
  | run (i : Nat) : Visits file (.run i)
  | drop (i : Nat) : Visits file (.drop i)

omit [Archive σ] [BreakpointStore τ] in
theorem Visits.of_asks {r : Request} (h : cmd.Asks r) (hfile : r.file = file)
    (hr : r.isVisit = true) : Visits file cmd := by
  obtain rfl | ⟨f, rfl⟩ | ⟨r, rfl⟩ := h.cases
  · exact .ask hfile hr
  · cases hr
  · cases hr

theorem Leaves.unseated (hseat : cmd.isSeated = false) (hcmd : ¬Visits file cmd) :
    Leaves file s (s.step c cmd).2 := by
  refine ⟨?_, fun i ↦ by rw [shown_unseated hseat]⟩
  refine kept_unseated (I := Unvisited file s.workspace) hseat
    (fun w _ h hw ↦ hw.trans (.of_scripts h.scripts)) (fun r hr w hw ↦ ?_) s (.refl _)
  refine hw.trans (.perform (fun hfile ↦ ?_) w)
  rw [← Bool.not_eq_true]
  exact fun hvisit ↦ hcmd (.of_asks hr hfile hvisit)

variable [LawfulStore τ]

theorem Leaves.handle (h : s.Tracks file) (i : Nat) (l : Letter) :
    Leaves file s (s.handle c i l).2 := by
  unfold Session.handle
  split
  · unfold Session.opening
    split
    · refine .atSeat h i fun d hd ↦ ?_
      rw [outcome_bind_pure]
      exact .handle hd _
    · exact .refl s
  · exact .refl s

theorem Leaves.step (h : s.Tracks file) (hcmd : ¬Visits file cmd) :
    Leaves file s (s.step c cmd).2 := by
  cases hseat : cmd.isSeated with
  | false => exact .unseated hseat hcmd
  | true =>
    cases cmd with
    | handle j l => exact .handle h j l
    | run j => exact absurd (.run j) hcmd
    | drop j => exact absurd (.drop j) hcmd
    | editor j r =>
      refine .atSeat h j fun d hd ↦ .perform hd fun hfile ↦ ?_
      rw [← Bool.not_eq_true]
      exact fun hr ↦ hcmd (.editor hfile hr)
    | _ => cases hseat

omit [Archive σ] in
theorem Manned.alert (h : s.Manned) (file : String) : s.Alert s.seats.length file :=
  ⟨h, fun he ↦ by
    obtain ⟨box, hseat⟩ := seats_of_editorAt he
    exact absurd (List.getElem?_eq_some_iff.1 hseat).1 (Nat.lt_irrefl _)⟩

theorem Manned.undergo (h : s.Manned) (e : Event) : (s.undergo c e).Manned :=
  ((h.alert "").undergo (c := c) fun _ ↦ shown_vacant (by
    rw [editorAt, List.getElem?_eq_none (Nat.le_refl _)]
    rfl)).toManned

theorem Leaves.run (h : s.Tracks file) (hi : s.editorAt i = some e) :
    ∃ s', Leaves file s s' ∧ (s.run c i).2 = s'.leave i := by
  have hposted : Leaves file s (s.step c (.post i .shutdown)).2 := .unseated rfl nofun
  have htracks : (s.step c (.post i .shutdown)).2.Tracks file :=
    ⟨h.undergo (.command (.post i .shutdown)), fun {j} hj ↦
      hposted.unvisited.tracked (h.tracked (hposted.shown j ▸ hj))⟩
  refine ⟨_, hposted.trans (.atSeat htracks i fun d hd ↦ ?_), run_posted hi⟩
  rw [outcome_bind_pure]
  exact .run hd

end Commands

/-- The flag of a script that is tracked says whether an editor has the script open. -/
def Truthful (file : String) (s : Session σ τ) : Prop :=
  ∀ t, s.workspace.scripts[file]? = some t →
    (t.flags.inEditor = true ↔ ∃ i o, s.shown i file = some o)

section Truth

variable [Archive σ] [BreakpointStore τ] {c : Compiler}

/-- What makes the flag wrong. -/
inductive Misleads (c : Compiler) (file : String) (s : Session σ τ) : Event → Prop
  | closed {i j : Nat} {confirm : Bool} : j ≠ i → (s.shown j file).isSome →
      (s.shown i file).isSome →
      (s.step c (.editor i (.closeScript file confirm))).2.shown i file = none →
      Misleads c file s (.command (.editor i (.closeScript file confirm)))
  | refused {i : Nat} {f : Failure} : (∀ j, s.shown j file = none) →
      (s.step c (.editor i (.openScript file))).1 = .error f →
      (s.step c (.editor i (.openScript file))).2.workspace.scripts[file]?.isSome →
      Misleads c file s (.command (.editor i (.openScript file)))
  | gone {i : Nat} {cmd : Command} : cmd = .run i ∨ cmd = .drop i → (s.shown i file).isSome →
      (∀ j ≠ i, s.shown j file = none) → Misleads c file s (.command cmd)

omit [Archive σ] [BreakpointStore τ] in
theorem Tracks.truthful_iff (h : s.Tracks file) :
    s.Truthful file ↔ (s.workspace.flagged file = true ↔ ∃ i, (s.shown i file).isSome) := by
  have hshown : (∃ i o, s.shown i file = some o) ↔ ∃ i, (s.shown i file).isSome :=
    exists_congr fun _ ↦ Option.isSome_iff_exists.symm
  cases ht : s.workspace.scripts[file]? with
  | none =>
    have hclosed : ¬∃ i, (s.shown i file).isSome := by
      rintro ⟨i, hi⟩
      have htracked := h.tracked hi
      rw [ht] at htracked
      cases htracked
    rw [flagged, ht, iff_false_right hclosed]
    exact iff_of_true (fun t ht' ↦ by rw [ht] at ht'; cases ht') Bool.false_ne_true
  | some t =>
    rw [flagged_of_tracked ht, ← hshown]
    exact ⟨fun htruth ↦ htruth t ht, fun htruth t' ht' ↦ by
      obtain rfl := Option.some.inj (ht.symm.trans ht')
      exact htruth⟩

theorem misleads_openScript :
    s.Misleads c file (.command (.editor i (.openScript file))) ↔
      (∀ j, s.shown j file = none) ∧
        (∃ f, (s.step c (.editor i (.openScript file))).1 = .error f) ∧
        (s.step c (.editor i (.openScript file))).2.workspace.scripts[file]?.isSome := by
  refine ⟨?_, fun ⟨hclosed, ⟨_, hf⟩, htracked⟩ ↦ .refused hclosed hf htracked⟩
  rintro (_ | ⟨hclosed, hf, htracked⟩ | ⟨h | h, -, -⟩)
  · exact ⟨hclosed, ⟨_, hf⟩, htracked⟩
  · cases h
  · cases h

theorem misleads_closeScript {confirm : Bool} :
    s.Misleads c file (.command (.editor i (.closeScript file confirm))) ↔
      (∃ j ≠ i, (s.shown j file).isSome) ∧ (s.shown i file).isSome ∧
        (s.step c (.editor i (.closeScript file confirm))).2.shown i file = none := by
  refine ⟨?_, fun ⟨⟨_, hj, hother⟩, hi, hclosed⟩ ↦ .closed hj hother hi hclosed⟩
  rintro (⟨hj, hother, hi, hclosed⟩ | _ | ⟨h | h, -, -⟩)
  · exact ⟨⟨_, hj, hother⟩, hi, hclosed⟩
  · cases h
  · cases h

theorem misleads_gone {cmd : Command} (hcmd : cmd = .run i ∨ cmd = .drop i) :
    s.Misleads c file (.command cmd) ↔
      (s.shown i file).isSome ∧ ∀ j ≠ i, s.shown j file = none := by
  refine ⟨fun h ↦ ?_, fun ⟨hi, hothers⟩ ↦ .gone hcmd hi hothers⟩
  cases h with
  | closed => obtain h | h := hcmd <;> cases h
  | refused => obtain h | h := hcmd <;> cases h
  | gone h hi hothers =>
    obtain rfl | rfl := hcmd <;> obtain h | h := h <;> cases h <;> exact ⟨hi, hothers⟩

theorem Misleads.visits {cmd : Command} (h : s.Misleads c file (.command cmd)) :
    Visits file cmd := by
  cases h with
  | closed => exact .editor rfl rfl
  | refused => exact .editor rfl rfl
  | gone h =>
    obtain rfl | rfl := h
    · exact .run _
    · exact .drop _

variable [LawfulStore τ]

structure Judged (c : Compiler) (file : String) (s : Session σ τ) (e : Event) : Prop where
  tracks : (s.undergo c e).Tracks file
  truthful : s.Truthful file → ((s.undergo c e).Truthful file ↔ ¬s.Misleads c file e)

theorem Tracks.judged_of {e : Event} (h : s.Tracks file)
    (htracked : ∀ i, ((s.undergo c e).shown i file).isSome →
      (s.undergo c e).workspace.scripts[file]?.isSome)
    (htruth : (s.workspace.flagged file = true ↔ ∃ i, (s.shown i file).isSome) →
      (((s.undergo c e).workspace.flagged file = true ↔
        ∃ i, ((s.undergo c e).shown i file).isSome) ↔ ¬s.Misleads c file e)) :
    s.Judged c file e := by
  have htracks : (s.undergo c e).Tracks file := ⟨h.undergo e, fun hi ↦ htracked _ hi⟩
  refine ⟨htracks, fun ht ↦ ?_⟩
  rw [htracks.truthful_iff]
  exact htruth (h.truthful_iff.1 ht)

theorem Tracks.judged_left {e : Event} (h : s.Tracks file) (hl : Leaves file s (s.undergo c e))
    (hm : ¬s.Misleads c file e) : s.Judged c file e := by
  refine h.judged_of (fun i hi ↦ hl.unvisited.tracked (h.tracked (hl.shown i ▸ hi))) fun ht ↦ ?_
  rw [hl.unvisited.flagged]
  simp only [hl.shown]
  exact iff_of_true ht hm

theorem Tracks.judged_openScript (h : s.Tracks file) (i : Nat) :
    s.Judged c file (.command (.editor i (.openScript file))) := by
  have hstep : s.step c (.editor i (.openScript file)) =
      s.atSeat i (EditorRequest.perform c (.openScript file)) := rfl
  have hunmisled {r : Reply} (hok : (s.step c (.editor i (.openScript file))).1 = .ok r) :
      ¬s.Misleads c file (.command (.editor i (.openScript file))) := by
    rw [misleads_openScript, hok]
    rintro ⟨-, ⟨f, hf⟩, -⟩
    cases hf
  cases hi : s.editorAt i with
  | none =>
    rw [atSeat_gone hi] at hstep
    refine h.judged_left ?_ (hunmisled (congrArg Prod.fst hstep))
    rw [undergo, hstep]
    exact .refl s
  | some e =>
    rcases ho : (Editor.openScript c file).outcome (⟨e, s.workspace⟩ : Desk σ τ) with ⟨result, d⟩
    have hreply : (EditorRequest.perform c (.openScript file)).outcome ⟨e, s.workspace⟩ =
        (result.map fun _ ↦ .done, d) := by rw [EditorRequest.perform, outcome_bind_pure, ho]
    obtain ⟨s', hs', hworkspace, hshown, hothers⟩ := atSeat_outcome file hi hreply
    rw [hs'] at hstep
    have hnext : s.undergo c (.command (.editor i (.openScript file))) = s' :=
      congrArg Prod.snd hstep
    cases hv : e.scripts[file]? with
    | some o =>
      rw [Editor.openScript_open hv] at ho
      cases ho
      refine h.judged_left ?_ (hunmisled (congrArg Prod.fst hstep))
      rw [hnext]
      refine .of_seat (.of_scripts (by rw [hworkspace])) ?_ hothers
      rw [hshown, shown_of_editorAt hi]
    | none =>
      have hclosed : s.shown i file = none := by rw [shown_of_editorAt hi, hv]
      obtain ⟨result', d', ho', hend⟩ := Desk.openScript_cases c (d := ⟨e, s.workspace⟩) hv
      rw [ho] at ho'
      cases ho'
      obtain ⟨rfl, hopen, hflag⟩ | ⟨⟨f, rfl⟩, hopen, hflag | ⟨huntracked, hunvisited⟩⟩ := hend
      · have hflag' : s'.workspace.flagged file = true := by rw [hworkspace, hflag]
        refine h.judged_of (fun _ _ ↦ ?_) fun _ ↦ ?_ <;> rw [hnext]
        · exact isSome_of_flagged hflag'
        · refine iff_of_true (iff_of_true hflag' ⟨i, ?_⟩) (hunmisled (congrArg Prod.fst hstep))
          rw [hshown]
          exact hopen
      · have hflag' : s'.workspace.flagged file = true := by rw [hworkspace, hflag]
        have hsame (j : Nat) : s'.shown j file = s.shown j file := by
          by_cases hj : j = i
          · rw [hj, hshown, hopen, hclosed]
          · exact hothers j hj
        refine h.judged_of (fun _ _ ↦ ?_) fun _ ↦ ?_
        · rw [hnext]
          exact isSome_of_flagged hflag'
        · have hsomebody : (∃ j, (s'.shown j file).isSome) ↔ ¬∀ j, s.shown j file = none := by
            simp only [hsame, not_forall, Option.isSome_iff_ne_none, ne_eq]
          rw [misleads_openScript, hnext, iff_true_left hflag', hsomebody, hstep]
          exact not_congr (iff_self_and.2 fun _ ↦ ⟨⟨_, rfl⟩, isSome_of_flagged hflag'⟩)
      · refine h.judged_left ?_ fun hm ↦ ?_
        · rw [hnext]
          refine .of_seat (hworkspace ▸ hunvisited) ?_ hothers
          rw [hshown, hopen, hclosed]
        · obtain ⟨-, -, htracked⟩ := misleads_openScript.1 hm
          rw [hstep, hworkspace, huntracked] at htracked
          cases htracked

theorem Tracks.judged_closeScript (h : s.Tracks file) (i : Nat) (confirm : Bool) :
    s.Judged c file (.command (.editor i (.closeScript file confirm))) := by
  have hstep : s.step c (.editor i (.closeScript file confirm)) =
      s.atSeat i (EditorRequest.perform c (.closeScript file confirm)) := rfl
  cases hv : s.shown i file with
  | none =>
    refine h.judged_left (.unopened hv rfl nofun) fun hm ↦ ?_
    · obtain ⟨-, hopen, -⟩ := misleads_closeScript.1 hm
      rw [hv] at hopen
      cases hopen
  | some o =>
    obtain ⟨e, hi, hopen⟩ := Option.bind_eq_some_iff.1 hv
    obtain ⟨t, ht⟩ := Option.isSome_iff_exists.1 (h.tracked (by rw [hv]; rfl))
    obtain ⟨result, d, ho, hend⟩ := Desk.closeScript_cases (c := c) (d := ⟨e, s.workspace⟩) hopen
      ht confirm
    have hreply : (EditorRequest.perform c (.closeScript file confirm)).outcome ⟨e, s.workspace⟩ =
        (result.map .closing, d) := by rw [EditorRequest.perform, outcome_bind_pure, ho]
    obtain ⟨s', hs', hworkspace, hshown, hothers⟩ := atSeat_outcome file hi hreply
    rw [hs'] at hstep
    have hnext : s.undergo c (.command (.editor i (.closeScript file confirm))) = s' :=
      congrArg Prod.snd hstep
    obtain ⟨hclosed, htracked, hflag⟩ | hleaves := hend
    · refine h.judged_of (fun _ _ ↦ ?_) fun _ ↦ ?_
      · rw [hnext, hworkspace]
        exact htracked
      · have hnobody : (∃ j, (s'.shown j file).isSome) ↔ ∃ j ≠ i, (s.shown j file).isSome := by
          refine exists_congr fun j ↦ ?_
          by_cases hj : j = i
          · simp [hj, hshown, hclosed]
          · simp [hj, hothers j hj]
        rw [misleads_closeScript, hnext, hnobody, hstep, hworkspace, hflag, iff_false_left
          Bool.false_ne_true]
        exact not_congr (iff_self_and.2 fun _ ↦ ⟨by rw [hv]; rfl, by rw [hshown, hclosed]⟩)
    · refine h.judged_left ?_ fun hm ↦ ?_
      · rw [hnext]
        refine .of_seat (hworkspace ▸ hleaves.unvisited) ?_ hothers
        rw [hshown, hleaves.shown, shown_of_editorAt hi]
      · obtain ⟨-, -, hgone⟩ := misleads_closeScript.1 hm
        have hstill := hleaves.shown
        rw [← hshown, ← hnext, undergo, hgone] at hstill
        rw [hopen] at hstill
        cases hstill

theorem Tracks.judged_gone (h : s.Tracks file) {cmd : Command}
    (hcmd : cmd = .run i ∨ cmd = .drop i) : s.Judged c file (.command cmd) := by
  have hleaves : ∃ s', Leaves file s s' ∧
      ((s.step c cmd).2 = s'.leave i ∨ s.editorAt i = none ∧ (s.step c cmd).2 = s') := by
    obtain rfl | rfl := hcmd
    · cases hi : s.editorAt i with
      | none => exact ⟨s, .refl s, .inr ⟨rfl, congrArg Prod.snd (run_gone hi)⟩⟩
      | some e =>
        obtain ⟨s', hleaves, hrun⟩ := Leaves.run (c := c) h hi
        exact ⟨s', hleaves, .inl hrun⟩
    · exact ⟨s, .refl s, .inl rfl⟩
  obtain ⟨s', hleaves, hnext | ⟨hi, hnext⟩⟩ := hleaves
  · obtain ⟨hgone, hothers⟩ := shown_leave s' i file
    have hscripts := hleaves.unvisited.trans (.of_scripts (scripts_leave s' i))
    have hshown (j : Nat) : ((s'.leave i).shown j file).isSome ↔
        j ≠ i ∧ (s.shown j file).isSome := by
      by_cases hj : j = i
      · simp [hj, hgone]
      · simp [hj, hothers j hj, hleaves.shown]
    refine h.judged_of (fun j hj ↦ ?_) fun ht ↦ ?_
    · rw [undergo, hnext] at hj ⊢
      exact hscripts.tracked (h.tracked ((hshown j).1 hj).2)
    · have hsomebody : (∃ j, (s.shown j file).isSome) ↔
          (s.shown i file).isSome ∨ ∃ j, j ≠ i ∧ (s.shown j file).isSome := by
        refine ⟨fun ⟨j, hj⟩ ↦ ?_, fun h ↦ h.elim (fun hi ↦ ⟨i, hi⟩) fun ⟨j, _, hj⟩ ↦ ⟨j, hj⟩⟩
        by_cases hji : j = i
        · exact .inl (hji ▸ hj)
        · exact .inr ⟨j, hji, hj⟩
      have halone : (∀ j ≠ i, s.shown j file = none) ↔
          ¬∃ j, j ≠ i ∧ (s.shown j file).isSome := by
        simp
      rw [misleads_gone hcmd, undergo, hnext, hscripts.flagged, ht, halone, hsomebody]
      simp only [hshown]
      by_cases hother : ∃ j, j ≠ i ∧ (s.shown j file).isSome
      · exact iff_of_true (iff_of_true (.inr hother) hother) fun h ↦ h.2 hother
      · rw [or_iff_left hother, and_iff_left hother, iff_false_right hother]
  · refine h.judged_left (by rw [undergo, hnext]; exact hleaves) fun hm ↦ ?_
    have hopen := ((misleads_gone hcmd).1 hm).1
    rw [shown_vacant hi] at hopen
    cases hopen

theorem Tracks.judged (h : s.Tracks file) {e : Event}
    (he : ∀ r, e = .command (.ask r) → r.file = file → r.isVisit = false) :
    s.Judged c file e := by
  cases e with
  | next i =>
    refine h.judged_left ?_ nofun
    refine .atSeat h i fun d hd ↦ ?_
    rw [outcome_bind_pure]
    exact .handleNext hd
  | command cmd =>
    by_cases hcmd : Visits file cmd
    · cases hcmd with
      | @ask r hfile hr =>
        rw [he r rfl hfile] at hr
        cases hr
      | @editor i r hfile hr =>
        cases r with
        | openScript f =>
          cases hfile
          exact h.judged_openScript i
        | closeScript f confirm =>
          cases hfile
          exact h.judged_closeScript i confirm
        | _ => cases hr
      | run i => exact h.judged_gone (.inl rfl)
      | drop i => exact h.judged_gone (.inr rfl)
    · exact h.judged_left (.step h hcmd) fun hm ↦ hcmd hm.visits

theorem truthful_along {es : List Event} (h : s.Tracks file) (ht : s.Truthful file)
    (hes : ∀ r, .command (.ask r) ∈ es → r.file = file → r.isVisit = false) :
    (∀ before, before <+: es → (before.foldl (undergo c) s).Truthful file) ↔
      ∀ before e, before ++ [e] <+: es → ¬(before.foldl (undergo c) s).Misleads c file e := by
  induction es generalizing s with
  | nil =>
    refine iff_of_true (fun before hbefore ↦ ?_) fun before e hbefore ↦ ?_
    · rw [List.prefix_nil.1 hbefore]
      exact ht
    · simp at hbefore
  | cons e es ih =>
    have hjudged := h.judged (c := c) (e := e) fun r hr ↦ hes r (hr ▸ List.mem_cons_self)
    have hes' (r : Request) (hr : .command (.ask r) ∈ es) := hes r (List.mem_cons_of_mem _ hr)
    constructor
    · intro hall before e' hbefore
      cases before with
      | nil =>
        obtain ⟨rfl, -⟩ := List.cons_prefix_cons.1 hbefore
        exact (hjudged.truthful ht).1 (hall [e'] hbefore)
      | cons e₁ before =>
        obtain ⟨rfl, hrest⟩ := List.cons_prefix_cons.1 hbefore
        have ht₁ := hall [e₁] (List.cons_prefix_cons.2 ⟨rfl, List.nil_prefix⟩)
        exact (ih hjudged.tracks ht₁ hes').1
          (fun before hb ↦ hall (e₁ :: before) (List.cons_prefix_cons.2 ⟨rfl, hb⟩))
          before e' hrest
    · intro hall before hbefore
      cases before with
      | nil => exact ht
      | cons e₁ before =>
        obtain ⟨rfl, hrest⟩ := List.cons_prefix_cons.1 hbefore
        have ht₁ := (hjudged.truthful ht).2
          (hall [] e₁ (List.cons_prefix_cons.2 ⟨rfl, List.nil_prefix⟩))
        exact (ih hjudged.tracks ht₁ hes').2
          (fun before e' hb ↦ hall (e₁ :: before) e' (List.cons_prefix_cons.2 ⟨rfl, hb⟩))
          before hrest

/-- In every session that comes of the events the flag of the script is set if and only if an editor
has the script open, unless one of the events misleads; and then it is wrong. -/
theorem flag_truthful_iff (c : Compiler) (archive : σ) (store : τ) (file : String)
    (es : List Event) (hes : ∀ r, .command (.ask r) ∈ es → r.file = file → r.isVisit = false) :
    (∀ before, before <+: es →
      (before.foldl (undergo c) (Session.start archive store)).Truthful file) ↔
    ∀ before e, before ++ [e] <+: es →
      ¬(before.foldl (undergo c) (Session.start archive store)).Misleads c file e :=
  have halert : (start archive store).Alert 0 file := .start archive store
  truthful_along ⟨halert.toManned, nofun⟩ nofun hes

end Truth

/-- An editor has the script open when another one is refused the breakpoints. -/
theorem flag_truthful_beside_refused :
    ∃ s t, s = ([.command .newEditor, .command .newEditor, .command (.editor 0 (.openScript "a")),
        .command (.refuse (.store .list) [true]), .command (.editor 1 (.openScript "a"))] :
        List Event).foldl (undergo Listing.compiler) (Session.start (ArchiveMap.ofList
          [("a", Utf8.encode "routine 5\n    a\n")]) (⟨∅, ()⟩ : Ledger Unit)) ∧
      s.shown 1 "a" = none ∧ s.workspace.scripts["a"]? = some t ∧ t.flags.inEditor = true ∧
      ∃ i o, s.shown i "a" = some o := by
  obtain ⟨s₀, hs₀⟩ : ∃ s₀, s₀ = (Session.start (ArchiveMap.ofList
      [("a", Utf8.encode "routine 5\n    a\n")]) (⟨∅, ()⟩ : Ledger Unit)) := ⟨_, rfl⟩
  obtain ⟨s, hs⟩ : ∃ s, s = ([.command .newEditor, .command .newEditor,
      .command (.editor 0 (.openScript "a")), .command (.refuse (.store .list) [true]),
      .command (.editor 1 (.openScript "a"))] : List Event).foldl (undergo Listing.compiler) s₀ :=
    ⟨_, rfl⟩
  have hopened : isDone (([.command .newEditor, .command .newEditor] : List Event).foldl
      (undergo Listing.compiler) s₀ |>.step Listing.compiler
        (.editor 0 (.openScript "a"))).1 = true := by
    rw [hs₀]
    decide +kernel
  have hshown : (([.command .newEditor, .command .newEditor,
      .command (.editor 0 (.openScript "a")), .command (.refuse (.store .list) [true])] :
      List Event).foldl (undergo Listing.compiler) s₀ |>.shown 0 "a").isSome = true := by
    rw [hs₀]
    decide +kernel
  have hrefused : (s.shown 1 "a").isNone = true := by
    rw [hs, hs₀]
    decide +kernel
  have hflag : s.workspace.scripts["a"]?.map (·.flags.inEditor) = some true := by
    rw [hs, hs₀]
    decide +kernel
  obtain ⟨t, ht, hflag⟩ := Option.map_eq_some_iff.1 hflag
  have htruth : s.Truthful "a" := by
    rw [hs, hs₀]
    refine (flag_truthful_iff Listing.compiler _ _ "a" _ (by simp)).2 (fun before e hbefore hm ↦ ?_)
      _ (List.prefix_refl _)
    rw [← hs₀] at hm
    rcases before with _ | ⟨_, _ | ⟨_, _ | ⟨_, _ | ⟨_, _ | ⟨_, before⟩⟩⟩⟩⟩ <;>
      simp only [List.nil_append, List.cons_append, List.cons_prefix_cons, List.nil_prefix,
        List.prefix_nil, List.append_eq_nil_iff, List.cons_ne_nil, and_true, and_false] at hbefore
    · subst hbefore
      cases hm.visits
    · obtain ⟨rfl, rfl⟩ := hbefore
      cases hm.visits
    · obtain ⟨rfl, rfl, rfl⟩ := hbefore
      obtain ⟨-, ⟨f, hf⟩, -⟩ := misleads_openScript.1 hm
      rw [isDone_iff.1 hopened] at hf
      cases hf
    · obtain ⟨rfl, rfl, rfl, rfl⟩ := hbefore
      cases hm.visits
    · obtain ⟨rfl, rfl, rfl, rfl, rfl⟩ := hbefore
      obtain ⟨hclosed, -, -⟩ := misleads_openScript.1 hm
      rw [hclosed 0] at hshown
      cases hshown
  exact ⟨s, t, hs₀ ▸ hs, Option.isNone_iff_eq_none.1 hrefused, ht, hflag, (htruth t ht).1 hflag⟩

/-- An editor that is refused the breakpoints leaves the script flagged though nobody has it open,
and an editor that closes the script takes the flag away though another one has it open. -/
theorem flag_wrong_after_refusal_and_closing :
    (∃ s t, s = ([.command .newEditor, .command (.refuse (.store .list) [true]),
        .command (.editor 0 (.openScript "a"))] : List Event).foldl (undergo Listing.compiler)
        (Session.start (ArchiveMap.ofList [("a", Utf8.encode "routine 5\n    a\n")])
          (⟨∅, ()⟩ : Ledger Unit)) ∧
      s.workspace.scripts["a"]? = some t ∧ t.flags.inEditor = true ∧
        ¬∃ i o, s.shown i "a" = some o) ∧
    ∃ s t o, s = ([.command .newEditor, .command .newEditor,
        .command (.editor 0 (.openScript "a")), .command (.editor 1 (.openScript "a")),
        .command (.editor 0 (.closeScript "a" true))] : List Event).foldl
        (undergo Listing.compiler) (Session.start (ArchiveMap.ofList
          [("a", Utf8.encode "routine 5\n    a\n")]) (⟨∅, ()⟩ : Ledger Unit)) ∧
      s.workspace.scripts["a"]? = some t ∧ t.flags.inEditor = false ∧ s.shown 1 "a" = some o := by
  constructor
  · obtain ⟨s, hs⟩ : ∃ s, s = ([.command .newEditor, .command (.refuse (.store .list) [true]),
        .command (.editor 0 (.openScript "a"))] : List Event).foldl (undergo Listing.compiler)
        (Session.start (ArchiveMap.ofList [("a", Utf8.encode "routine 5\n    a\n")])
          (⟨∅, ()⟩ : Ledger Unit)) := ⟨_, rfl⟩
    have hflag : s.workspace.scripts["a"]?.map (·.flags.inEditor) = some true := by
      rw [hs]
      decide +kernel
    have hseats : s.seats.all (fun seat ↦ seat.editor.all (·.scripts["a"]?.isNone)) = true := by
      rw [hs]
      decide +kernel
    obtain ⟨t, ht, hflag⟩ := Option.map_eq_some_iff.1 hflag
    refine ⟨s, t, hs, ht, hflag, fun ⟨i, o, ho⟩ ↦ ?_⟩
    obtain ⟨e, he, ho⟩ := Option.bind_eq_some_iff.1 ho
    obtain ⟨seat, hseat, he⟩ := Option.bind_eq_some_iff.1 he
    have hclosed := List.all_eq_true.1 hseats seat (List.mem_of_getElem? hseat)
    rw [he, Option.all_some, ho] at hclosed
    cases hclosed
  · obtain ⟨s, hs⟩ : ∃ s, s = ([.command .newEditor, .command .newEditor,
        .command (.editor 0 (.openScript "a")), .command (.editor 1 (.openScript "a")),
        .command (.editor 0 (.closeScript "a" true))] : List Event).foldl
        (undergo Listing.compiler) (Session.start (ArchiveMap.ofList
          [("a", Utf8.encode "routine 5\n    a\n")]) (⟨∅, ()⟩ : Ledger Unit)) := ⟨_, rfl⟩
    have hflag : s.workspace.scripts["a"]?.map (·.flags.inEditor) = some false := by
      rw [hs]
      decide +kernel
    have hshown : (s.shown 1 "a").isSome = true := by
      rw [hs]
      decide +kernel
    obtain ⟨t, ht, hflag⟩ := Option.map_eq_some_iff.1 hflag
    obtain ⟨o, ho⟩ := Option.isSome_iff_exists.1 hshown
    exact ⟨s, t, o, hs, ht, hflag, ho⟩

end Session

end ScriptBreakpoints
