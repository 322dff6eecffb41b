import ScriptBreakpoints.Proofs.Coupling
import ScriptBreakpoints.Proofs.Flagging

namespace ScriptBreakpoints

open Fallible Workspace

theorem Marks.edit_empty (e : LineEdit) : Marks.empty.edit e = .empty := by
  refine ext_place? fun a ↦ ?_
  have hnone : Marks.empty.place? a = none := Std.ExtTreeMap.getElem?_empty
  rw [place?_edit, hnone, Option.map_none]

/-- Every marker has a mark, and is on its line. -/
def Buffer.Pinned (b : Buffer) : Prop :=
  ∀ (x : Address) line, b.markers[x]? = some line → b.marks.line? x = some line

namespace Buffer.Pinned

variable {b : Buffer} {x : Address}

theorem showMarker (h : b.Pinned) : (b.showMarker x).Pinned := by
  intro y line hy
  rw [marks_showMarker]
  rw [markers_showMarker] at hy
  split at hy
  · next heq =>
    subst heq
    obtain hy | ⟨-, hy⟩ := Option.or_eq_some_iff.1 hy
    · exact hy
    · exact h y line hy
  · exact h y line hy

theorem hideMarker (h : b.Pinned) : (b.hideMarker x).Pinned := by
  intro y line hy
  rw [markers_hideMarker] at hy
  split at hy
  · cases hy
  · exact h y line hy

theorem follow (h : b.Pinned) (e : LineEdit) (lines : List String) :
    ({ b with lines }.follow e).Pinned := by
  intro x line hx
  rw [markers_follow] at hx
  obtain ⟨old, hold, hline⟩ := Option.bind_eq_some_iff.1 hx
  rw [Buffer.follow, Marks.line?_edit, h x old hold, Option.map_some, hline, Option.getD_some]

end Buffer.Pinned

namespace OpenScript

variable {o o' : OpenScript} {x : Address} {as : List Address} {a a' : Aspect}

/-- Markers are pinned in both buffers, or neither one has marks. -/
def Pinned (o : OpenScript) : Prop :=
  (∀ p, (o.buffers.get p).Pinned) ∨ ∀ p, (o.buffers.get p).marks = .empty

namespace Pinned

theorem showMarker (h : o.Pinned) : (o.showMarker x).Pinned := by
  refine h.imp (fun h p ↦ ?_) fun h p ↦ ?_ <;> rw [OpenScript.showMarker, Dual.get_map]
  · exact (h p).showMarker
  · rw [Buffer.marks_showMarker, h p]

theorem hideMarker (h : o.Pinned) : (o.hideMarker x).Pinned := by
  refine h.imp (fun h p ↦ ?_) fun h p ↦ ?_ <;> rw [OpenScript.hideMarker, Dual.get_map]
  · exact (h p).hideMarker
  · exact h p

theorem setBuffer {b : Buffer} (h : o.Pinned) (hpinned : o.buffer.Pinned → b.Pinned)
    (hmarks : o.buffer.marks = .empty → b.marks = .empty) : (o.setBuffer b).Pinned := by
  refine h.imp (fun h p ↦ ?_) fun h p ↦ ?_ <;> rw [OpenScript.setBuffer, Dual.get_set] <;> split
  · exact hpinned (h _)
  · exact h p
  · exact hmarks (h _)
  · exact h p

theorem follow (h : o.Pinned) (e : LineEdit) (lines : List String) :
    (o.setBuffer ({ o.buffer with lines }.follow e)).Pinned := by
  refine h.setBuffer (fun hb ↦ hb.follow e lines) fun hmarks ↦ ?_
  rw [Buffer.follow, hmarks, Marks.edit_empty]

theorem saved (h : o.Pinned) (m : SourceMap) : (o.saved m).Pinned := h.setBuffer id id

theorem place (hclear : ∀ p, (o.buffers.get p).markers = ∅)
    (hmarks : ∀ p, (o.buffers.get p).table o.waiting = (o.buffers.get p).marks) :
    (o.place as).Pinned := by
  refine .inl fun p y line hy ↦ ?_
  obtain ⟨markers, hb⟩ := o.buffer_place as p
  rw [markers_place, hclear, Std.ExtTreeMap.getElem?_empty, Option.or_none, hmarks] at hy
  rw [hb]
  split at hy
  · exact hy
  · cases hy

theorem opened {s : Script} (hs : s.Coupled) (as : List Address) :
    ((ofScript s).place as).Pinned := by
  have hpaired (p : Projection) :
      (s.slots.get p).pending.isSome = s.slots.primary.pending.isSome := by
    cases p with
    | primary => rfl
    | derived => exact hs.paired.symm
  cases hp : s.slots.primary.pending with
  | none =>
    have hnone (p : Projection) : (s.slots.get p).pending = none := by
      have h := hpaired p
      rw [hp] at h
      exact Option.isNone_iff_eq_none.1 (Option.isSome_eq_false_iff.1 h)
    refine place (fun p ↦ ?_) fun p ↦ ?_ <;> rw [get_ofScript, hnone p]
    · rfl
    · exact ite_self _
  | some v =>
    refine .inr fun p ↦ ?_
    have h := hpaired p
    rw [hp] at h
    obtain ⟨v', hv'⟩ := Option.isSome_iff_exists.1 h
    obtain ⟨markers, hb⟩ := (ofScript s).buffer_place as p
    rw [hb, get_ofScript, hv']
    rfl

theorem hear (h : o.Pinned) (m : Message) : (o.hear as m).Pinned := by
  cases m with
  | reload e => exact place (markers_reload e o) fun _ ↦ rfl
  | added f x => exact h.showMarker
  | removed f x => exact h.hideMarker
  | shutdown => exact h

theorem worked {file : String} {r : EditorRequest} {ok : Prop} (h : o.Pinned)
    (hw : Worked file o a r ok o' a') : o'.Pinned :=
  hw.follows (P := fun _ ↦ Pinned) (fun _ ↦ h) (fun _ _ ↦ h.follow _ _) (fun _ h ↦ h.showMarker)
    fun _ h ↦ h.hideMarker

theorem stored {τ : Type} [BreakpointStore τ] {c : Compiler} {file : String} {s : Script}
    {t t' : τ} {result : Except Fault (Option Readiness)} (h : o.Pinned)
    (hw : Shows.Stored c file o a s t t' result o' a') : o'.Pinned := by
  cases hw with
  | saved => exact h.saved _
  | _ => exact h

end Pinned

end OpenScript

variable {σ τ α : Type}

namespace Workspace

structure Upholds (file : String) (w w' : Workspace σ τ) : Prop where
  tracked : w.scripts[file]?.isSome → w'.scripts[file]?.isSome
  coupled : (∀ (f : String) t, w.scripts[f]? = some t → t.Coupled) →
    ∀ (f : String) t, w'.scripts[f]? = some t → t.Coupled

namespace Upholds

variable {file subject : String} {w w₀ w' : Workspace σ τ}

theorem refl (w : Workspace σ τ) : Upholds file w w := ⟨id, id⟩

theorem trans (h : Upholds file w₀ w) (h' : Upholds file w w') : Upholds file w₀ w' :=
  ⟨fun ht ↦ h'.tracked (h.tracked ht), fun hc ↦ h'.coupled (h.coupled hc)⟩

theorem of_scripts (h : w'.scripts = w.scripts) : Upholds file w w' := by
  refine ⟨fun ht ↦ ?_, fun hc f t ht ↦ hc f t ?_⟩
  · rw [h]
    exact ht
  · rw [← h]
    exact ht

variable [Archive σ] [BreakpointStore τ] {c : Compiler}

theorem perform (r : Request) (w : Workspace σ τ) : Upholds file w ((r.perform c).outcome w).2 := by
  refine ⟨fun ht ↦ ?_, perform_tracked c Script.Coupled.ofBinary (fun _ h hs ↦ hs.after h) r w⟩
  have hinsert {s : Script} : (w.scripts.insert r.file s)[file]?.isSome := by
    by_cases hfile : file = r.file
    · rw [hfile, Std.ExtTreeMap.getElem?_insert_self]
      rfl
    · rw [getElem?_insert_of_ne hfile]
      exact ht
  have hturn := r.perform_turn c w
  generalize (r.perform c).outcome w = o at hturn ⊢
  rcases o with ⟨result, w'⟩
  dsimp only at hturn ⊢
  cases hturn with
  | unfound _ hs => rwa [hs]
  | refused _ hs => rw [hs, hinsert]
  | happened _ hs => rw [hs, hinsert]

theorem bears (file : String) (w₀ : Workspace σ τ) (box : Mailbox) (asked : Request → Prop) :
    Bears c box subject asked fun d : Desk σ τ ↦
      Upholds file w₀ d.workspace ∧ d.editor.inbox = box :=
  .of_workspace (fun _ _ _ h ↦ h.trans (.of_scripts rfl)) (fun r _ _ h ↦ h.trans (.perform r _))
    box subject

end Upholds

end Workspace

structure Desk.Pins (file : String) (w₀ : Workspace σ τ) (d : Desk σ τ) : Prop
    extends Desk.Tracks file d where
  kept : Upholds file w₀ d.workspace
  coupled : ∀ (f : String) t, d.workspace.scripts[f]? = some t → t.Coupled
  pinned : ∀ o, d.editor.scripts[file]? = some o → o.Pinned

namespace Desk.Pins

variable [BreakpointStore τ] [LawfulStore τ] {c : Compiler} {file : String}
  {w₀ : Workspace σ τ} {d d' : Desk σ τ}

theorem minds (h : d.Pins file w₀) (hm : d.Minds c d') (hk : Upholds file d.workspace d'.workspace)
    (ht : d'.editor.scripts[file]?.isSome → d.editor.scripts[file]?.isSome ∨
      d'.workspace.scripts[file]?.isSome)
    (hp : ∀ o, d'.editor.scripts[file]? = some o → o.Pinned) : d'.Pins file w₀ where
  orderly := hm.passes.orderly
  attends := by
    rw [hm.inbox]
    exact hm.passes.attends h.attends
  tracked hv := (ht hv).elim (fun hv ↦ hk.tracked (h.tracked hv)) id
  kept := h.kept.trans hk
  coupled := hk.coupled h.coupled
  pinned := hp

variable [Archive σ]

theorem handle (m : Message) : Keeps (Desk.Pins file w₀) (Editor.handle c m) := by
  intro d h
  have hminds := Mindful.handle c m d h.orderly
  cases hm : m.file? with
  | none =>
    obtain rfl := Message.file?_eq_none.1 hm
    exact h
  | some subject =>
    have hkept := ((Upholds.bears (c := c) file d.workspace d.editor.inbox
      _).toSpares.handle hm d ⟨.refl _, rfl⟩).1
    have hleaves : d.Leaves file _ := .handle (c := c) h.toTracks m
    refine h.minds hminds hkept (fun hv ↦ .inl (hleaves.shown ▸ hv)) fun o ho ↦ ?_
    by_cases hfile : file = subject
    · subst hfile
      obtain ⟨result, d', as, houtcome, hd', -⟩ := h.shows.handle (c := c) h.found hm
      rw [houtcome, hd'.view] at ho
      obtain ⟨o₀, ho₀, rfl⟩ := Option.map_eq_some_iff.1 ho
      exact (h.pinned o₀ ho₀).hear m
    · have hframed := (Framed.bears d (c := c) remembers_nothing trivial
        fun r (hr : r = .listBreakpoints subject) ↦ hr ▸ rfl).handle hm d (.refl h.orderly)
      rw [hframed.scripts hfile] at ho
      exact h.pinned o ho

theorem handleNext : Keeps (Desk.Pins file w₀) (Editor.handleNext c) :=
  Editor.keeps_handleNext (fun _ _ h ↦
    ⟨⟨orderly_withQueue h.orderly, attends_withQueue h.attends, h.tracked⟩,
      h.kept.trans (.of_scripts rfl), h.coupled, h.pinned⟩) handle

theorem runPending : Keeps (Desk.Pins file w₀) (Editor.runPending c) :=
  Editor.keeps_runPending handleNext

theorem run : Keeps (Desk.Pins file w₀) (Editor.run c) :=
  runPending.bind fun _ _ h ↦ ⟨⟨⟨h.orderly.named, h.orderly.listed⟩, h.attends, h.tracked⟩,
    h.kept.trans (.of_scripts rfl), h.coupled, h.pinned⟩

theorem subject (h : d.Pins file w₀) {r : EditorRequest} (hr : r.file? = some file) :
    ((r.perform c).outcome d).2.Pins file w₀ := by
  have hminds := Mindful.perform c r d h.orderly
  have hkept := ((Upholds.bears (c := c) file d.workspace d.editor.inbox
    _).editorRequest hr ⟨.refl _, rfl⟩).1
  have hnext {v' : Option OpenScript} {a' : Aspect}
      (hd' : Shows file d.editor.inbox v' a' ((r.perform c).outcome d).2)
      (ht : v'.isSome → d.editor.scripts[file]?.isSome ∨ a'.script.isSome)
      (hp : ∀ o ∈ v', o.Pinned) : ((r.perform c).outcome d).2.Pins file w₀ := by
    refine h.minds hminds hkept (fun hv ↦ ?_) fun o ho ↦ hp o (hd'.view ▸ ho)
    refine (ht (hd'.view ▸ hv)).imp_right fun hs ↦ ?_
    obtain ⟨s, hs⟩ := Option.isSome_iff_exists.1 hs
    rw [hd'.tracked hs]
    rfl
  have hshows := h.shows
  cases hv : d.editor.scripts[file]? with
  | none =>
    rw [hv] at hshows hnext
    by_cases hopen : r = .openScript file
    · subst hopen
      obtain ⟨result, d', v', a', ho, hd', ⟨rfl, -, -⟩ | ⟨s, rfl, rfl⟩⟩ :=
        hshows.openScript (c := c) <;>
        rw [EditorRequest.perform, outcome_bind_pure, ho] at hnext hkept ⊢
      · exact hnext hd' (fun hv ↦ absurd hv Bool.false_ne_true)
          fun o ho ↦ absurd ho (Option.not_mem_none o)
      · refine hnext hd' (fun _ ↦ .inr rfl) fun o ho ↦ ?_
        cases ho
        exact .opened (hkept.coupled h.coupled file s (hd'.tracked rfl)) _
    · rw [EditorRequest.unopened hv hr hopen]
      exact h
  | some o =>
    obtain ⟨s, hs⟩ := h.found (by rw [hv]; rfl)
    have hpinned := h.pinned o hv
    rw [hv] at hshows hnext
    have hstill {o' : OpenScript} {a' : Aspect}
        (hd' : Shows file d.editor.inbox (some o') a' ((r.perform c).outcome d).2)
        (hp : o'.Pinned) : ((r.perform c).outcome d).2.Pins file w₀ :=
      hnext hd' (fun _ ↦ .inl rfl) fun o ho ↦ by cases ho; exact hp
    by_cases hclose : ∃ confirm, r = .closeScript file confirm
    · obtain ⟨confirm, rfl⟩ := hclose
      obtain ⟨result, d', v', a', ho, hd', -, ⟨rfl, -⟩ | ⟨rfl, -⟩⟩ :=
        hshows.closeScript (c := c) hs confirm <;>
        rw [EditorRequest.perform, outcome_bind_pure, ho] at hnext hstill ⊢
      · exact hnext hd' (fun hv ↦ absurd hv Bool.false_ne_true)
          fun o ho ↦ absurd ho (Option.not_mem_none o)
      · exact hstill hd' hpinned
    by_cases hsave : r = .save file
    · subst hsave
      obtain ⟨result, d', o', a', ho, hd', hstored⟩ := hshows.save (c := c) hs
      rw [EditorRequest.perform, outcome_bind_pure, ho] at hstill ⊢
      exact hstill hd' (hpinned.stored hstored)
    · obtain ⟨o', a', hd', hworked⟩ := hshows.work (c := c) hs hr
        (fun confirm h ↦ hclose ⟨confirm, h⟩) hsave
      exact hstill hd' (hpinned.worked hworked)

theorem perform (r : EditorRequest) : Keeps (Desk.Pins file w₀) (r.perform c) := by
  intro d h
  cases hfile : r.file? with
  | none =>
    obtain rfl := EditorRequest.file?_eq_none.1 hfile
    exact (runPending.bind fun _ ↦ .pure _) d h
  | some subject =>
    by_cases hsubject : file = subject
    · subst hsubject
      exact h.subject hfile
    · have hframed := Framed.editorRequest (c := c) d remembers_nothing trivial h.orderly hfile
      have hkept := ((Upholds.bears (c := c) file d.workspace d.editor.inbox
        _).editorRequest hfile ⟨.refl _, rfl⟩).1
      have hscripts := hframed.scripts hsubject
      refine h.minds (Mindful.perform c r d h.orderly) hkept (fun hv ↦ .inl ?_) fun o ho ↦ ?_
      · rw [← hscripts]
        exact hv
      · exact h.pinned o (hscripts ▸ ho)

end Desk.Pins

namespace Session

variable {s s' s'' : Session σ τ} {file : String} {i : Nat} {e : Editor}

structure Pins (file : String) (s : Session σ τ) : Prop extends Tracks file s where
  coupled : ∀ (f : String) t, s.workspace.scripts[f]? = some t → t.Coupled
  pinned {i : Nat} {o : OpenScript} : s.shown i file = some o → o.Pinned

/-- What is shown was shown before, or it is tracked and pinned. -/
structure Fares (file : String) (s s' : Session σ τ) : Prop where
  kept : Upholds file s.workspace s'.workspace
  shown {i : Nat} {o : OpenScript} : s'.shown i file = some o →
    s.shown i file = some o ∨ o.Pinned ∧ s'.workspace.scripts[file]?.isSome

theorem Pins.fares (h : s.Pins file) (hf : Fares file s s') (hm : s'.Manned) : s'.Pins file where
  toManned := hm
  tracked hi := by
    obtain ⟨o, ho⟩ := Option.isSome_iff_exists.1 hi
    obtain hold | ⟨-, ht⟩ := hf.shown ho
    · exact hf.kept.tracked (h.tracked (Option.isSome_of_mem hold))
    · exact ht
  coupled := hf.kept.coupled h.coupled
  pinned ho := (hf.shown ho).elim h.pinned And.left

namespace Fares

theorem refl (s : Session σ τ) : Fares file s s := ⟨.refl _, .inl⟩

theorem trans (h : Fares file s s') (h' : Fares file s' s'') : Fares file s s'' := by
  refine ⟨h.kept.trans h'.kept, fun ho ↦ ?_⟩
  obtain ho | hnew := h'.shown ho
  · exact (h.shown ho).imp_right (And.imp_right h'.kept.tracked)
  · exact .inr hnew

theorem leave (i : Nat) : Fares file s (s.leave i) := by
  obtain ⟨hgone, hothers⟩ := shown_leave s i file
  refine ⟨.of_scripts (scripts_leave s i), fun {j o} ho ↦ ?_⟩
  by_cases hj : j = i
  · rw [hj, hgone] at ho
    cases ho
  · rw [hothers j hj] at ho
    exact .inl ho

end Fares

theorem Pins.desk (h : s.Pins file) (hi : s.editorAt i = some e) :
    ScriptBreakpoints.Desk.Pins file s.workspace (⟨e, s.workspace⟩ : Desk σ τ) where
  toTracks := h.toTracks.desk hi
  kept := .refl _
  coupled := h.coupled
  pinned o ho := h.pinned (i := i) (by rw [shown_of_editorAt hi]; exact ho)

theorem Fares.atSeat {x : EditorAction (Refusing ArchiveCall σ) (Refusing StoreCall τ) Reply}
    (h : s.Pins file) (i : Nat) (hx : ∀ w₀, Keeps (ScriptBreakpoints.Desk.Pins file w₀) x) :
    Fares file s (s.atSeat i x).2 := by
  cases hi : s.editorAt i with
  | none =>
    rw [atSeat_gone hi]
    exact .refl s
  | some e =>
    have hpins := hx _ _ (h.desk hi)
    rcases ho : x.outcome ⟨e, s.workspace⟩ with ⟨result, d⟩
    obtain ⟨s', hs', hworkspace, hshown, hothers⟩ := atSeat_outcome file hi ho
    rw [ho] at hpins
    rw [hs']
    refine ⟨hworkspace ▸ hpins.kept, fun {j o} hj ↦ ?_⟩
    by_cases hij : j = i
    · rw [hij, hshown] at hj
      refine .inr ⟨hpins.pinned o hj, ?_⟩
      rw [hworkspace]
      exact hpins.tracked (Option.isSome_of_mem hj)
    · rw [hothers j hij] at hj
      exact .inl hj

section Commands

variable [Archive σ] [BreakpointStore τ] [LawfulStore τ] {c : Compiler}

omit [LawfulStore τ] in
theorem Fares.unseated {cmd : Command} (hseat : cmd.isSeated = false) :
    Fares file s (s.step c cmd).2 := by
  refine ⟨?_, fun {i o} ho ↦ ?_⟩
  · exact kept_unseated (I := Upholds file s.workspace) hseat
      (fun _ _ h hw ↦ hw.trans (.of_scripts h.scripts)) (fun r _ w hw ↦ hw.trans (.perform r w))
      s (.refl _)
  · rw [shown_unseated hseat] at ho
    exact .inl ho

theorem Fares.handle (h : s.Pins file) (i : Nat) (l : Letter) :
    Fares file s (s.handle c i l).2 := by
  unfold Session.handle
  split
  · unfold Session.opening
    split
    · exact .atSeat h i fun w₀ ↦ (Desk.Pins.handle _).bind fun _ ↦ .pure _
    · exact .refl s
  · exact .refl s

theorem Fares.run (h : s.Pins file) (i : Nat) : Fares file s (s.run c i).2 := by
  cases hi : s.editorAt i with
  | none =>
    rw [run_gone hi]
    exact .refl s
  | some e =>
    have hposted : Fares file s (s.step c (.post i .shutdown)).2 := .unseated rfl
    have hpins := h.fares hposted (h.undergo (.command (.post i .shutdown)))
    rw [run_posted hi]
    exact (hposted.trans (.atSeat hpins i fun w₀ ↦ Desk.Pins.run.bind fun _ ↦ .pure _)).trans
      (.leave i)

theorem Fares.step (h : s.Pins file) (cmd : Command) : Fares file s (s.step c cmd).2 := by
  cases hseat : cmd.isSeated with
  | false => exact .unseated hseat
  | true =>
    cases cmd with
    | handle j l => exact .handle h j l
    | run j => exact .run h j
    | drop j => exact .leave j
    | editor j r => exact .atSeat h j fun w₀ ↦ Desk.Pins.perform r
    | _ => cases hseat

theorem Pins.undergo (h : s.Pins file) (e : Event) : (s.undergo c e).Pins file := by
  refine h.fares ?_ (h.toManned.undergo e)
  cases e with
  | command cmd => exact .step h cmd
  | next i => exact .atSeat h i fun w₀ ↦ Desk.Pins.handleNext.bind fun _ ↦ .pure _

omit [Archive σ] in
theorem pins_start (archive : σ) (store : τ) (file : String) :
    (Session.start archive store).Pins file where
  toManned := (Alert.start archive store : Alert 0 file _).toManned
  tracked hi := by cases hi
  coupled f t ht := by cases Std.ExtTreeMap.getElem?_empty.symm.trans ht
  pinned ho := by cases ho

/-- Whatever is done in a session, markers stay pinned to their marks. -/
theorem Pins.after (h : s.Pins file) (es : List Event) :
    (es.foldl (Session.undergo c) s).Pins file := by
  induction es generalizing s with
  | nil => exact h
  | cons e es ih => exact ih (h.undergo e)

end Commands

end Session

end ScriptBreakpoints
