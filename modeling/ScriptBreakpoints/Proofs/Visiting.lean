import ScriptBreakpoints.Proofs.Expecting

namespace ScriptBreakpoints

open Fallible Workspace

def Happening.isVisit : Happening → Bool
  | openedInEditor | closedInEditor _ => true
  | _ => false

def Request.isVisit : Request → Bool
  | openInEditor _ | closeInEditor .. => true
  | _ => false

theorem Script.inEditor_after (s : Script) {h : Happening} (hh : h.isVisit = false) :
    (s.after h).flags.inEditor = s.flags.inEditor := by
  cases h with
  | openedInEditor => cases hh
  | closedInEditor confirm => cases hh
  | loadedInEngine =>
    simp only [after, openInEngine]
    split <;> rfl
  | unloadedInEngine =>
    simp only [after, closeInEngine]
    split <;> rfl
  | saved binary views => simp only [after, save_flags]
  | forcedReload =>
    simp only [after]
    split <;> rfl
  | _ => rfl

theorem Request.turn_isVisit (c : Compiler) {r : Request} (hr : r.isVisit = false) (s : Script) :
    (r.turn c s).isVisit = false := by
  cases r with
  | openInEditor file => cases hr
  | closeInEditor file confirm => cases hr
  | save file projection text marked =>
    simp only [turn, saving]
    split
    · rfl
    · split <;> rfl
  | report r =>
    cases r with
    | loaded file reported =>
      simp only [turn, loading]
      split <;> rfl
    | unloaded file => rfl
  | _ => rfl

theorem EditorRequest.asks_isVisit {e : Editor} {r : EditorRequest} (hr : r.relistens = false)
    {asked : Request} (h : r.asks e asked) : asked.isVisit = false := by
  cases entails_of_asks h with
  | openInEditor => cases hr
  | closeInEditor => cases hr
  | _ => rfl

variable {σ τ α : Type}

namespace Workspace

def flagged (w : Workspace σ τ) (file : String) : Bool :=
  w.scripts[file]?.any (·.flags.inEditor)

structure Unvisited (file : String) (w w' : Workspace σ τ) : Prop where
  flagged : w'.flagged file = w.flagged file
  tracked : w.scripts[file]?.isSome → w'.scripts[file]?.isSome

namespace Unvisited

variable {file subject : String} {w w₀ w' : Workspace σ τ}

theorem refl (w : Workspace σ τ) : Unvisited file w w := ⟨rfl, id⟩

theorem trans (h : Unvisited file w₀ w) (h' : Unvisited file w w') : Unvisited file w₀ w' :=
  ⟨h'.flagged.trans h.flagged, fun ht ↦ h'.tracked (h.tracked ht)⟩

theorem of_scripts (h : w'.scripts = w.scripts) : Unvisited file w w' := by
  refine ⟨?_, fun ht ↦ ?_⟩
  · rw [Workspace.flagged, h, Workspace.flagged]
  · rw [h]
    exact ht

variable [Archive σ] {c : Compiler}

theorem insert {s t : Script} (hf : Finds c w subject s)
    (ht : subject = file → t.flags.inEditor = s.flags.inEditor)
    (hs : w'.scripts = w.scripts.insert subject t) : Unvisited file w w' := by
  by_cases hfile : file = subject
  · subst hfile
    refine ⟨?_, fun _ ↦ ?_⟩
    · rw [Workspace.flagged, hs, Std.ExtTreeMap.getElem?_insert_self, Option.any_some, ht rfl,
        Workspace.flagged]
      cases hf with
      | tracked h => rw [h, Option.any_some]
      | loaded h hl =>
        obtain ⟨bytes, views, -, -, rfl⟩ := hl
        rw [h]
        rfl
    · rw [hs, Std.ExtTreeMap.getElem?_insert_self]
      rfl
  · have hsame : w'.scripts[file]? = w.scripts[file]? := by
      rw [hs, getElem?_insert_of_ne hfile]
    exact ⟨by rw [Workspace.flagged, hsame, Workspace.flagged], by rw [hsame]; exact id⟩

variable [BreakpointStore τ]

theorem perform {r : Request} (hr : r.file = file → r.isVisit = false) (w : Workspace σ τ) :
    Unvisited file w ((r.perform c).outcome w).2 := by
  have hturn := r.perform_turn c w
  generalize (r.perform c).outcome w = o at hturn ⊢
  rcases o with ⟨result, w'⟩
  dsimp only at hturn ⊢
  cases hturn with
  | unfound _ hs => exact .of_scripts hs
  | refused hf hs => exact .insert hf (fun _ ↦ rfl) hs
  | happened hf hs =>
    exact .insert hf (fun h ↦ Script.inEditor_after _ (r.turn_isVisit c (hr h) _)) hs

theorem bears (w₀ : Workspace σ τ) (box : Mailbox) {asked : Request → Prop}
    (hasked : ∀ r, asked r → r.file = file → r.isVisit = false) :
    Bears c box subject asked fun d : Desk σ τ ↦
      Unvisited file w₀ d.workspace ∧ d.editor.inbox = box :=
  .of_workspace (fun _ _ _ h ↦ h.trans (.of_scripts rfl))
    (fun r hr _ h ↦ h.trans (.perform (hasked r hr) _)) box subject

end Unvisited

end Workspace

namespace Desk

structure Tracks (file : String) (d : Desk σ τ) : Prop where
  orderly : d.workspace.Orderly
  attends : d.workspace.Attends d.editor.inbox
  tracked : d.editor.scripts[file]?.isSome → d.workspace.scripts[file]?.isSome

/-- A script is still open, or still not, and nobody opened or closed it. -/
structure Leaves (file : String) (d d' : Desk σ τ) : Prop where
  unvisited : Unvisited file d.workspace d'.workspace
  shown : d'.editor.scripts[file]?.isSome = d.editor.scripts[file]?.isSome

variable {file subject : String} {d d' d'' : Desk σ τ}

namespace Leaves

theorem refl (d : Desk σ τ) : d.Leaves file d := ⟨.refl _, rfl⟩

theorem trans (h : d.Leaves file d') (h' : d'.Leaves file d'') : d.Leaves file d'' :=
  ⟨h.unvisited.trans h'.unvisited, h'.shown.trans h.shown⟩

end Leaves

variable [BreakpointStore τ] [LawfulStore τ]

theorem Tracks.shows (h : d.Tracks file) : Shows file d.editor.inbox d.editor.scripts[file]?
    (d.workspace.aspect file d.editor.inbox) d :=
  ⟨rfl, h.orderly, h.attends, rfl, rfl⟩

theorem Tracks.found (h : d.Tracks file) (hv : d.editor.scripts[file]?.isSome) :
    ∃ t, (d.workspace.aspect file d.editor.inbox).script = some t :=
  Option.isSome_iff_exists.1 (h.tracked hv)

variable {c : Compiler}

theorem Tracks.minds (h : d.Tracks file) (hm : d.Minds c d') (hl : d.Leaves file d') :
    d'.Tracks file where
  orderly := hm.passes.orderly
  attends := by
    rw [hm.inbox]
    exact hm.passes.attends h.attends
  tracked hv := hl.unvisited.tracked (h.tracked (hl.shown ▸ hv))

variable [Archive σ]

namespace Leaves

theorem handle (h : d.Tracks file) (m : Message) :
    d.Leaves file ((Editor.handle c m).outcome d).2 := by
  cases hm : m.file? with
  | none =>
    obtain rfl := Message.file?_eq_none.1 hm
    exact .refl d
  | some subject =>
    have hlists (r : Request) (hr : r = .listBreakpoints subject) (_ : r.file = file) :
        r.isVisit = false := hr ▸ rfl
    refine ⟨((Unvisited.bears _ _ hlists).toSpares.handle hm d ⟨.refl _, rfl⟩).1, ?_⟩
    by_cases hfile : file = subject
    · subst hfile
      obtain ⟨result, d', as, ho, hd', -⟩ := h.shows.handle (c := c) h.found hm
      rw [ho, hd'.view, Option.isSome_map]
    · have hframed := (Framed.bears d (c := c) remembers_nothing trivial
        fun r (hr : r = .listBreakpoints subject) ↦ hr ▸ rfl).handle hm d (.refl h.orderly)
      rw [hframed.scripts hfile]

theorem handleNext (h : d.Tracks file) :
    d.Leaves file ((Editor.handleNext c).outcome d).2 := by
  cases hw : d.workspace.waiting d.editor.inbox with
  | nil =>
    rw [Editor.handleNext_nil hw]
    exact .refl d
  | cons m rest =>
    have hqueue : (d.withQueue rest).Tracks file :=
      ⟨orderly_withQueue h.orderly, attends_withQueue h.attends, h.tracked⟩
    have htaken : d.Leaves file (d.withQueue rest) := ⟨.of_scripts rfl, rfl⟩
    rw [Editor.handleNext_cons hw]
    exact htaken.trans (handle hqueue m)

theorem runPending (h : d.Tracks file) :
    d.Leaves file ((Editor.runPending c).outcome d).2 := by
  refine (Editor.keeps_runPending (I := fun d' ↦ d.Minds c d' ∧ d.Leaves file d')
    (fun d' hd ↦ ?_) d ⟨.refl h.orderly, .refl d⟩).2
  obtain ⟨hminds, hleaves⟩ := hd
  exact ⟨hminds.trans (Mindful.handleNext c d' hminds.passes.orderly),
    hleaves.trans (handleNext (h.minds hminds hleaves))⟩

theorem run (h : d.Tracks file) : d.Leaves file ((Editor.run c).outcome d).2 := by
  have hpending := runPending (c := c) h
  rw [Editor.run, outcome_bind]
  generalize (Editor.runPending c).outcome d = o at hpending ⊢
  rcases o with ⟨_ | n, d'⟩
  · exact hpending
  · exact hpending.trans ⟨.of_scripts rfl, rfl⟩

theorem perform (h : d.Tracks file) {r : EditorRequest}
    (hr : r.file? = some file → r.relistens = false) :
    d.Leaves file ((r.perform c).outcome d).2 := by
  cases hfile : r.file? with
  | none =>
    obtain rfl := EditorRequest.file?_eq_none.1 hfile
    rw [EditorRequest.perform, outcome_bind_pure]
    exact runPending h
  | some subject =>
    have hasks (asked : Request) (ha : r.asks d.editor asked) (heq : asked.file = file) :
        asked.isVisit = false :=
      EditorRequest.asks_isVisit (hr (by rw [hfile, ← EditorRequest.asks_file hfile ha, heq])) ha
    refine ⟨((Unvisited.bears _ _ hasks).editorRequest hfile ⟨.refl _, rfl⟩).1, ?_⟩
    by_cases hsubject : file = subject
    · subst hsubject
      have hrelistens := hr hfile
      cases hv : d.editor.scripts[file]? with
      | none =>
        have hopen : r ≠ .openScript file := by
          rintro rfl
          cases hrelistens
        rw [EditorRequest.unopened hv hfile hopen, hv]
      | some o =>
        obtain ⟨t, ht⟩ := h.found (by rw [hv]; rfl)
        have hshows := h.shows
        rw [hv] at hshows
        by_cases hsave : r = .save file
        · subst hsave
          obtain ⟨result, d', o', a', ho, hd', -⟩ := hshows.save (c := c) ht
          rw [EditorRequest.perform, outcome_bind_pure, ho, hd'.view]
          rfl
        · have hclose (confirm : Bool) : r ≠ .closeScript file confirm := by
            rintro rfl
            cases hrelistens
          obtain ⟨o', a', hd', -⟩ := hshows.work (c := c) ht hfile hclose hsave
          rw [hd'.view]
          rfl
    · have hframed := Framed.editorRequest (c := c) d remembers_nothing trivial h.orderly hfile
      rw [hframed.scripts hsubject]

end Leaves

end Desk

section Visits

variable {file : String} {d : Desk σ τ} {s : Script}

namespace Workspace

variable {w : Workspace σ τ}

theorem flagged_of_tracked (hs : w.scripts[file]? = some s) :
    w.flagged file = s.flags.inEditor := by
  rw [flagged, hs, Option.any_some]

theorem isSome_of_flagged (h : w.flagged file = true) : w.scripts[file]?.isSome := by
  rw [flagged, Option.any_eq_true] at h
  obtain ⟨t, ht, -⟩ := h
  exact Option.isSome_of_mem ht

variable [Archive σ]

variable {c : Compiler}

theorem closeInEditor_tracked (hs : w.scripts[file]? = some s) (confirm : Bool) :
    ∃ w', (closeInEditor c file confirm).outcome w = (.ok (s.closeInEditor confirm).1, w') ∧
      w'.scripts = w.scripts.insert file (s.closeInEditor confirm).2 := by
  simp only [closeInEditor, outcome_bind, script_tracked hs]
  rcases s.closeInEditor confirm with ⟨⟨closed, asked⟩, t⟩
  simp only [outcome_putScript]
  cases closed with
  | false => exact ⟨_, rfl, rfl⟩
  | true => cases t.flags.notBreakable <;> exact ⟨_, rfl, rfl⟩

end Workspace

theorem Script.closeInEditor_cases (s : Script) (confirm : Bool) :
    ((s.closeInEditor confirm).1.closed = true ∧
        (s.closeInEditor confirm).2.flags.inEditor = false) ∨
      (s.closeInEditor confirm).1.closed = false ∧ (s.closeInEditor confirm).2 = s := by
  unfold closeInEditor
  split
  · exact .inl ⟨rfl, rfl⟩
  · cases confirm with
    | true => exact .inl ⟨rfl, rfl⟩
    | false => exact .inr ⟨rfl, rfl⟩

namespace Desk

variable [Archive σ] {c : Compiler}

/-- An editor that fails to open a script leaves it flagged, unless it could not be loaded. -/
theorem openScript_cases [BreakpointStore τ] (c : Compiler)
    (hv : d.editor.scripts[file]? = none) :
    ∃ result d', (Editor.openScript c file).outcome d = (result, d') ∧
      (result = .ok () ∧ d'.editor.scripts[file]?.isSome ∧ d'.workspace.flagged file = true ∨
        (∃ f, result = .error f) ∧ d'.editor.scripts[file]? = none ∧
          (d'.workspace.flagged file = true ∨
            d'.workspace.scripts[file]? = none ∧ Unvisited file d.workspace d'.workspace)) := by
  have hends := Editor.openScript_ends c hv
  rcases ho : (Editor.openScript c file).outcome d with ⟨result, d'⟩
  rw [ho] at hends
  refine ⟨result, d', rfl, ?_⟩
  have hlistened {w : Workspace σ τ}
      (h : (listen file d.editor.inbox).outcome d.workspace = (.ok (), w)) :
      w.scripts = d.workspace.scripts := by
    obtain ⟨listeners, ho⟩ := listen_outcome file d.editor.inbox d.workspace
    rw [ho] at h
    cases h
    rfl
  have hunlistened {w w' : Workspace σ τ}
      (h : (unlisten file d.editor.inbox).outcome w = (.ok (), w')) : w'.scripts = w.scripts := by
    obtain ⟨listeners, ho⟩ := unlisten_outcome file d.editor.inbox w
    rw [ho] at h
    cases h
    rfl
  have hlisted {s : Script} {result : Except Fault (List Address)} {w₁ w₂ w₃ : Workspace σ τ}
      (hasked : (openInEditor c file).outcome w₁ = (.ok s, w₂))
      (hl : (listBreakpoints c file).outcome w₂ = (result, w₃)) : w₃.flagged file = true := by
    obtain ⟨hs, hflag⟩ := openInEditor_ok hasked
    rw [listBreakpoints_tracked hs] at hl
    cases hl
    rw [flagged_of_tracked (by exact hs), hflag]
  cases hends with
  | unfound hlisten hasked hunlisten =>
    obtain ⟨hscripts, hn⟩ := openInEditor_error hasked
    have hsame := (hunlistened hunlisten).trans (hscripts.trans (hlistened hlisten))
    rw [hlistened hlisten] at hn
    exact .inr ⟨⟨_, rfl⟩, hv, .inr ⟨hsame ▸ hn, .of_scripts hsame⟩⟩
  | unlisted hlisten hasked hl hunlisten =>
    refine .inr ⟨⟨_, rfl⟩, hv, .inl ?_⟩
    rw [flagged, hunlistened hunlisten]
    exact hlisted hasked hl
  | opened hlisten hasked hl =>
    refine .inl ⟨rfl, ?_, (hlisted hasked hl :)⟩
    rw [Std.ExtTreeMap.getElem?_insert_self]
    rfl

theorem closeScript_cases (hv : d.editor.scripts[file]? = some o)
    (hs : d.workspace.scripts[file]? = some s) (confirm : Bool) :
    ∃ result d', (Editor.closeScript c file confirm).outcome d = (result, d') ∧
      (d'.editor.scripts[file]? = none ∧ d'.workspace.scripts[file]?.isSome ∧
          d'.workspace.flagged file = false ∨ d.Leaves file d') := by
  obtain ⟨w, ho, hscripts⟩ := closeInEditor_tracked (c := c) hs confirm
  simp only [Editor.closeScript, outcome_bind, Editor.opened_some hv, perform, outcome_zoom, ho]
  obtain ⟨hclosed, hflag⟩ | ⟨hdeclined, hsame⟩ := s.closeInEditor_cases confirm
  · have htracked : w.scripts[file]? = some (s.closeInEditor confirm).2 := by
      rw [hscripts, Std.ExtTreeMap.getElem?_insert_self]
    obtain ⟨listeners, hunlisten⟩ := unlisten_outcome file d.editor.inbox w
    simp only [hclosed, if_true, outcome_bind, outcome_get, hunlisten, outcome_zoom, outcome_modify,
      outcome_pure]
    refine ⟨_, _, rfl, .inl ⟨Std.ExtTreeMap.getElem?_erase_self, ?_, ?_⟩⟩
    · exact Option.isSome_iff_exists.2 ⟨_, htracked⟩
    · rw [flagged_of_tracked (by exact htracked), hflag]
  · have hkept : w.scripts = d.workspace.scripts := by
      rw [hscripts, hsame, insert_of_getElem? hs]
    simp only [hdeclined, Bool.false_eq_true, if_false, outcome_pure]
    exact ⟨_, _, rfl, .inr ⟨.of_scripts hkept, rfl⟩⟩

end Desk

end Visits

end ScriptBreakpoints
