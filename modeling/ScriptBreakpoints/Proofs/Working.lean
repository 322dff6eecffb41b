import ScriptBreakpoints.Proofs.Awaiting
import ScriptBreakpoints.Proofs.Moves

namespace ScriptBreakpoints

open Fallible Workspace

def EditorRequest.lineEdit? (o : OpenScript) : EditorRequest → Option LineEdit
  | insertLines _ projection start lines =>
    if projection = o.authority then some (o.buffer.insertion start lines.length) else none
  | deleteLines _ projection start stop =>
    if projection = o.authority then o.buffer.deletion? start stop else none
  | _ => none

/-- What becomes of a script that is open when its editor is asked something else about it than to
save or to close it; `ok` says that the editor did not fail. -/
inductive Worked (file : String) (o : OpenScript) (a : Aspect) (r : EditorRequest) (ok : Prop) :
    OpenScript → Aspect → Prop
  | still {lost : List Address} : r.lineEdit? o = none →
      (∀ projection line, r ≠ .toggle file projection line) → lost = o.lost ∨ lost = [] →
      Worked file o a r ok { o with lost } a
  | edited {edit : LineEdit} {lines : List String} {removed : List Address} :
      r.lineEdit? o = some edit →
      (∀ x ∈ removed, ∃ line, o.buffer.markers[x]? = some line ∧ edit.line? line = none) →
      (ok → ∀ x line, o.buffer.markers[x]? = some line → edit.line? line = none → x ∈ removed) →
      Worked file o a r ok
        (removed.foldl (fun o x ↦ o.hideMarker x)
          (o.setBuffer ({ o.buffer with lines }.follow edit)))
        (removed.foldl (fun a x ↦ a.disarm file x) a)
  | toggled {projection : Projection} {line : Nat} {result : Except Fault Unit} {o' : OpenScript}
      {a' : Aspect} : r = .toggle file projection line → (ok → result = .ok ()) →
      Shows.Clicked file projection line o a result o' a' → Worked file o a r ok o' a'

theorem OpenScript.foldl_hide {P : OpenScript → Aspect → Prop} {o : OpenScript} {a : Aspect}
    (file : String) (hP : ∀ o a x, P o a → P (o.hideMarker x) (a.disarm file x))
    (xs : List Address) (h : P o a) : P (xs.foldl (fun o x ↦ o.hideMarker x) o)
      (xs.foldl (fun a x ↦ a.disarm file x) a) := by
  induction xs generalizing o a with
  | nil => exact h
  | cons x xs ih => exact ih (hP o a x h)

namespace Worked

variable {file : String} {o o' : OpenScript} {a a' : Aspect} {r : EditorRequest} {ok ok' : Prop}

theorem imp (h : Worked file o a r ok o' a') (hok : ok' → ok) : Worked file o a r ok' o' a' := by
  cases h with
  | still hedit hclick hlost => exact .still hedit hclick hlost
  | edited hedit hgone hall => exact .edited hedit hgone fun h ↦ hall (hok h)
  | toggled hr hresult hclicked => exact .toggled hr (fun h ↦ hresult (hok h)) hclicked

/-- What markers and reports do not matter to follows the edits of all that an editor is asked. -/
theorem follows {P : Option LineEdit → OpenScript → Prop} (hw : Worked file o a r ok o' a')
    (hstill : ∀ lost, P none { o with lost })
    (hedited : ∀ edit lines, P (some edit) (o.setBuffer ({ o.buffer with lines }.follow edit)))
    (hshow : ∀ {e o} x, P e o → P e (o.showMarker x))
    (hhide : ∀ {e o} x, P e o → P e (o.hideMarker x)) : P (r.lineEdit? o) o' := by
  cases hw with
  | @still lost hedit =>
    rw [hedit]
    exact hstill lost
  | @edited edit lines removed hedit =>
    rw [hedit]
    exact OpenScript.foldl_hide (P := fun o _ ↦ P (some edit) o) (a := a) file
      (fun _ _ x h ↦ hhide x h) removed (hedited edit lines)
  | toggled hr _ hclicked =>
    subst hr
    cases hclicked with
    | nothing => exact hstill o.lost
    | hidden =>
      exact OpenScript.foldl_hide (P := fun o _ ↦ P none o) (a := a) file
        (fun _ _ x h ↦ hhide x h) _ (hstill o.lost)
    | shown => exact hshow _ (hstill o.lost)

theorem same (hedit : r.lineEdit? o = none)
    (hclick : ∀ projection line, r ≠ .toggle file projection line) : Worked file o a r ok o a :=
  .still hedit hclick (.inl rfl)

theorem inserted {projection : Projection} {start : Nat} {new : List String} :
    Worked file o a (.insertLines file projection start new) ok
      (if projection = o.authority then o.setBuffer (o.buffer.insertLines start new) else o) a := by
  by_cases hp : projection = o.authority
  · obtain ⟨lines, hb⟩ := o.buffer.insertLines_eq start new
    have hedit : (EditorRequest.insertLines file projection start new).lineEdit? o =
        some (o.buffer.insertion start new.length) := if_pos hp
    have hgone : ∀ x ∈ ([] : List Address), ∃ line, o.buffer.markers[x]? = some line ∧
        (o.buffer.insertion start new.length).line? line = none := nofun
    rw [if_pos hp, hb]
    exact .edited hedit hgone fun _ _ _ _ h ↦ nomatch h
  · rw [if_neg hp]
    exact .same (if_neg hp) nofun

theorem deleted {projection : Projection} {start stop : Nat} {removed : List Address}
    (hp : projection = o.authority) (hpre : removed <+: (o.buffer.deleteLines start stop).1)
    (hall : ok → removed = (o.buffer.deleteLines start stop).1) :
    Worked file o a (.deleteLines file projection start stop) ok
      (removed.foldl (fun o x ↦ o.hideMarker x) (o.setBuffer (o.buffer.deleteLines start stop).2))
      (removed.foldl (fun a x ↦ a.disarm file x) a) := by
  obtain ⟨hnone, heq⟩ | ⟨edit, lines, hsome, hb, hmem⟩ := o.buffer.deleteLines_eq start stop
  · rw [heq] at hpre ⊢
    obtain rfl := List.prefix_nil.1 hpre
    rw [OpenScript.setBuffer_buffer]
    exact .same ((if_pos hp).trans hnone) nofun
  · rw [hb]
    refine .edited ((if_pos hp).trans hsome) (fun x hx ↦ ?_) fun hok x line hx hgone ↦ ?_
    · exact (hmem x).1 (hpre.subset hx)
    · rw [hall hok]
      exact (hmem x).2 ⟨line, hx, hgone⟩

end Worked

section Shows

variable {σ τ : Type} [Archive σ] [BreakpointStore τ] [LawfulStore τ] {c : Compiler}
  {file : String} {box : Mailbox} {o : OpenScript} {a : Aspect} {d : Desk σ τ} {s : Script}

theorem Shows.work (hd : Shows file box (some o) a d) (hs : a.script = some s) {r : EditorRequest}
    (hfile : r.file? = some file) (hclose : ∀ confirm, r ≠ .closeScript file confirm)
    (hsave : r ≠ .save file) :
    ∃ o' a', Shows file box (some o') a' ((r.perform c).outcome d).2 ∧
      Worked file o a r (∃ reply, ((r.perform c).outcome d).1 = .ok reply) o' a' := by
  have hok {α : Type} {result : Except Fault α} {f : α → Reply}
      (h : ∃ reply, result.map f = .ok reply) : ∃ b, result = .ok b := by
    obtain ⟨reply, h⟩ := h
    cases result with
    | error e => cases h
    | ok b => exact ⟨b, rfl⟩
  have hsame (hedit : r.lineEdit? o = none)
      (hclick : ∀ projection line, r ≠ .toggle file projection line)
      (ho : ((r.perform c).outcome d).2 = d) :
      ∃ o' a', Shows file box (some o') a' ((r.perform c).outcome d).2 ∧
        Worked file o a r (∃ reply, ((r.perform c).outcome d).1 = .ok reply) o' a' :=
    ⟨o, a, by rw [ho]; exact hd, .same hedit hclick⟩
  cases r with
  | openScript f =>
    cases hfile
    refine hsame rfl (by simp) ?_
    rw [EditorRequest.perform, outcome_bind_pure, Editor.openScript_open hd.view]
  | closeScript f confirm =>
    cases hfile
    exact absurd rfl (hclose confirm)
  | toggle f projection line =>
    cases hfile
    obtain ⟨result, d', o', a', ho, hclicked, hd'⟩ := hd.toggle (c := c) hs projection line
    rw [EditorRequest.perform, outcome_bind_pure, ho]
    refine ⟨o', a', hd', .toggled rfl (fun h ↦ ?_) hclicked⟩
    obtain ⟨_, h⟩ := hok h
    exact h
  | insertLines f projection start new =>
    cases hfile
    obtain ⟨result, d', ho, hd'⟩ := hd.insertLines projection start new
    rw [EditorRequest.perform, outcome_bind_pure, ho]
    exact ⟨_, a, hd', .inserted⟩
  | deleteLines f projection start stop =>
    cases hfile
    obtain ⟨result, d', o', a', ho, hd', ⟨hp, rfl, rfl⟩ | ⟨hp, removed, hpre, hall, -, rfl, rfl⟩⟩ :=
      hd.deleteLines (c := c) hs projection start stop
    · rw [EditorRequest.perform, outcome_bind_pure, ho]
      exact ⟨_, _, hd', .same (if_neg hp) (by simp)⟩
    · rw [EditorRequest.perform, outcome_bind_pure, ho]
      refine ⟨_, _, hd', .deleted hp hpre fun h ↦ ?_⟩
      obtain ⟨_, h⟩ := hok h
      exact hall h
  | save f =>
    cases hfile
    exact absurd rfl hsave
  | runPending => cases hfile
  | takeLost f =>
    cases hfile
    refine ⟨{ o with lost := [] }, a, ?_, .still rfl (by simp) (.inr rfl)⟩
    rw [EditorRequest.perform, outcome_bind_pure]
    simp only [Editor.takeLost, outcome_bind, outcome_get, hd.view, Editor.put, outcome_modify,
      outcome_pure]
    exact hd.put _
  | _ => exact hsame rfl (by simp) (EditorRequest.perform_look c rfl d)

end Shows

namespace Session

section Defs

variable {σ τ : Type} {s : Session σ τ} {i : Nat} {file : String} {m : Move}

/-- A move by which nobody saves a script or changes which projection is edited, and by which the
editor at seat `i` does not close the script. -/
structure Spares (i : Nat) (file : String) (s : Session σ τ) (m : Move) : Prop where
  unsaved : ∀ r, s.Asks m r → r.file = file → r.isSave = false
  authority : ∀ o q, s.shown i file = some o → m = .ask (.setAuthority file q) → q = o.authority
  closes : ∀ confirm, m ≠ .editor i (.closeScript file confirm)

def Handles (i : Nat) (s : Session σ τ) : Move → Message → Prop
  | .next j, m => j = i ∧ m ∈ (s.inbox i).head?
  | .editor j .runPending, m => j = i ∧ m ∈ s.inbox i
  | _, _ => False

def lineEdit? (i : Nat) (file : String) (s : Session σ τ) : Move → Option LineEdit
  | .editor j r =>
    if j = i ∧ r.file? = some file then (s.shown i file).bind fun o ↦ r.lineEdit? o else none
  | _ => none

theorem lineEdit?_aside (hm : s.Aside i file m) : s.lineEdit? i file m = none := by
  cases m with
  | editor j r =>
    refine if_neg fun h ↦ ?_
    obtain ⟨other, hne, hother⟩ := hm h.1
    rw [hother] at h
    exact hne (Option.some.inj h.2)
  | _ => rfl

theorem Spares.requests {o : OpenScript} (hm : s.Spares i file m) (ho : s.shown i file = some o) :
    ∀ r, s.Asks m r → r.file = file → r.Spares o.authority := by
  intro r hr hfile
  cases r with
  | save => exact Bool.noConfusion (hm.unsaved _ hr hfile)
  | setAuthority f q =>
    cases hfile
    cases m with
    | ask r =>
      cases hr
      exact hm.authority o q ho rfl
    | newEditor => exact hr.elim
    | next j =>
      obtain ⟨f, hf⟩ := hr
      cases hf
    | editor j r =>
      obtain ⟨e, -, hr⟩ | ⟨rfl, f, hf⟩ := hr
      · cases r <;> simp [EditorRequest.asks] at hr
      · cases hf
  | _ => trivial

theorem Spares.saves {o : OpenScript} {r : EditorRequest} (hm : s.Spares i file (.editor i r))
    (ho : s.shown i file = some o) : r ≠ .save file := by
  rintro rfl
  cases he : s.editorAt i with
  | none =>
    rw [shown, he] at ho
    cases ho
  | some e =>
    have hasks : s.Asks (.editor i (.save file)) (.save file .primary "" ∅) :=
      .inl ⟨e, he, .inl ⟨_, _, _, rfl⟩⟩
    exact Bool.noConfusion (hm.unsaved _ hasks rfl)

end Defs

def lineEdits {σ τ : Type} [Archive σ] [BreakpointStore τ] (c : Compiler) (i : Nat)
    (file : String) : Session σ τ → List Move → List LineEdit
  | _, [] => []
  | s, m :: ms => (s.lineEdit? i file m).toList ++ lineEdits c i file (move c m s).2 ms

variable {σ τ : Type} [Archive σ] [BreakpointStore τ] [LawfulStore τ] {c : Compiler}
  {s : Session σ τ} {i : Nat} {file : String} {o : OpenScript} {a : Aspect} {t : Script}

/-- Unless a script is saved or another projection is to be edited, every new reload is one of the
projection that is edited. -/
theorem Scene.spared (hs : s.Sound) {v : Option OpenScript} (hi : s.Scene i file v a) {m : Move}
    (hm : s.Aside i file m) {p : Projection}
    (hspares : ∀ r, s.Asks m r → r.file = file → r.Spares p) (ha : a.Edits p) :
    ∃ a', (move c m s).2.Scene i file v a' ∧ a.Spared p a' := by
  obtain ⟨a', hi', hfollows⟩ := hi.aside (c := c) remembers_nothing trivial hs hm
    (.inl fun r hr hfile ↦ (hspares r hr hfile).isSave)
  exact ⟨a', hi', hfollows.spared hspares ha⟩

theorem Scene.handled (hs : s.Sound) (hi : s.Scene i file (some o) a) {p : Projection}
    (ha : a.Edits p) :
    (∃ a', (move c (.next i) s).2.Scene i file (some o) a' ∧ a.Spared p a' ∧
      a'.armed = a.armed ∧ a'.mail = a.mail) ∨
    ∃ m rest as, m ∈ (s.inbox i).head? ∧ m.file? = some file ∧ a.mail = m :: rest ∧
      (move c (.next i) s).2.Scene i file (some (o.hear as m)) { a with mail := rest } := by
  obtain haside | ⟨m, rest, hinbox, hfile⟩ := s.aside_next_or i file
  · obtain ⟨a', hi', ha'⟩ := hi.aside (c := c) remembers_nothing trivial hs haside
      (.inl fun r ⟨_, hr⟩ _ ↦ by rw [hr]; rfl)
    obtain ⟨harmed, hmail⟩ := ha'.listed fun _ ↦ id
    exact .inl ⟨a', hi', ha'.spared (fun r ⟨_, hr⟩ _ ↦ by rw [hr]; trivial) ha, harmed, hmail⟩
  · obtain ⟨t, ht, -⟩ := ha
    obtain ⟨as, hi', -⟩ := hi.hear (c := c) (fun _ ↦ ⟨t, ht⟩) hinbox hfile
    exact .inr ⟨m, _, as, by rw [hinbox]; rfl, hfile, hi.mail_cons hinbox hfile, hi'⟩

theorem Scene.work (hs : s.Sound) (hi : s.Scene i file (some o) a) (ht : a.script = some t)
    {r : EditorRequest} (hfile : r.file? = some file)
    (hclose : ∀ confirm, r ≠ .closeScript file confirm) (hsave : r ≠ .save file) :
    ∃ o' a', (move c (.editor i r) s).2.Scene i file (some o') a' ∧
      Worked file o a r (∃ reply, (move c (.editor i r) s).1 = .ok reply) o' a' := by
  obtain ⟨e, hi, hshows⟩ := hi
  obtain ⟨o', a', hshows', hworked⟩ := hshows.work (c := c) ht hfile hclose hsave
  rw [move_editor hs hi hfile]
  refine ⟨o', a', Scene.put_self hi hshows', hworked.imp ?_⟩
  rintro ⟨reply, h⟩
  cases hr : ((r.perform c).outcome ⟨e, s.workspace⟩).1 with
  | error f =>
    rw [hr] at h
    cases h
  | ok reply => exact ⟨reply, rfl⟩

theorem Scene.stored (hs : s.Sound) (hi : s.Scene i file (some o) a) (ht : a.script = some t) :
    ∃ result o' a',
      (move c (.editor i (.save file)) s).1 = (result.map Reply.readiness).mapError .fault ∧
        (move c (.editor i (.save file)) s).2.Scene i file (some o') a' ∧
          Shows.Stored c file o a t s.workspace.store
            (move c (.editor i (.save file)) s).2.workspace.store result o' a' := by
  obtain ⟨e, hi, hshows⟩ := hi
  obtain ⟨result, d', o', a', ho, hd', hstored⟩ := hshows.save (c := c) ht
  rw [move_editor hs hi rfl, EditorRequest.perform, outcome_bind_pure, ho]
  exact ⟨result, o', a', rfl, put_self hi hd', hstored⟩

theorem Scene.save (hs : s.Sound) (hi : s.Scene i file (some o) a) {readiness : Readiness}
    (hok : (move c (.editor i (.save file)) s).1 = .ok (.readiness (some readiness))) :
    ∃ t compiled other, o.authority = t.authority ∧
      c.compile o.authority o.buffer.text = .ok compiled ∧
      (move c (.editor i (.save file)) s).2.Scene i file (some (o.saved compiled.map))
        (a.store t compiled.binary (savedViews o.authority o.buffer.text compiled.map other)
          (compiled.map.breakpointsOn o.buffer.markerLines)) := by
  obtain ⟨e, hi, hshows⟩ := hi
  rw [move_editor hs hi rfl, EditorRequest.perform, outcome_bind_pure] at hok ⊢
  have hends := Editor.save_ends c file (⟨e, s.workspace⟩ : Session.Desk σ τ)
  rcases ho : (Editor.save c file).outcome (⟨e, s.workspace⟩ : Session.Desk σ τ) with ⟨result, d⟩
  rw [ho] at hends hok
  cases hends with
  | unopened | unmodified | failed => cases hok
  | saved hopen hm hsave hreload =>
    cases hshows.view.symm.trans hopen
    obtain ⟨t, compiled, other, -, ha, hc, -, -, hprovisional, hd⟩ := hshows.saved hsave hreload
    rw [hprovisional]
    exact ⟨t, compiled, other, ha, hc, put_self hi hd⟩

end Session

end ScriptBreakpoints
