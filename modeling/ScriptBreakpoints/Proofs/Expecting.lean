import ScriptBreakpoints.Proofs.Generating

namespace ScriptBreakpoints

open Fallible Workspace

/-- An editor that has a script open listens to it, and a reload that the script waits for has not
happened, or the editor has not handled it. -/
structure OpenScript.Expects (o : OpenScript) (a : Aspect) : Prop where
  reach : a.reach = 1
  tracked : a.script.isSome
  due : o.waiting = true →
    (∃ t, a.script = some t ∧ t.hasPending = true) ∨ Message.reloads a.mail ≠ []

namespace OpenScript.Expects

variable {o o' : OpenScript} {t : Script} {a a' : Aspect} {as : List Address} {c : Compiler}
  {file : String}

theorem indifferent : Indifferent fun o a ↦ o.Expects a where
  remark h _ hwaiting _ := ⟨h.reach, h.tracked, by rw [hwaiting]; exact h.due⟩
  told h hscript hreach hmail :=
    ⟨hreach.trans h.reach, by rw [hscript]; exact h.tracked, by rw [hscript, hmail]; exact h.due⟩
  follow _ _ h := ⟨h.reach, h.tracked, h.due⟩

theorem more (h : o.Expects a) (ms : List Message) :
    o.Expects { a with mail := a.mail ++ ms } where
  reach := h.reach
  tracked := h.tracked
  due hwaiting := (h.due hwaiting).imp_right fun hmail ↦ by
    rw [Message.reloads_append]
    exact List.append_ne_nil_of_left_ne_nil hmail _

theorem asked {r : Request} (h : o.Expects a) (ha : a.Asked c r a') : o.Expects a' := by
  obtain ⟨t, ht⟩ := Option.isSome_iff_exists.1 h.tracked
  cases ha with
  | ignored => exact h
  | found hs =>
    obtain rfl := hs.unique ht
    exact indifferent.told h ht.symm rfl rfl
  | @granted s hs =>
    obtain rfl := hs.unique ht
    have hmail := Aspect.reloads_grant (c := c) (r := r) (s := s) h.reach
    have hreloads := r.reloads_turn c s
    refine ⟨h.reach, rfl, fun hwaiting ↦ ?_⟩
    cases hp : r.promotes s with
    | true =>
      rw [hp, if_pos rfl] at hmail
      exact .inr (by rw [hmail]; exact List.concat_ne_nil _ _)
    | false =>
      -- what was pending is still pending, or something else is
      rw [hp, if_neg Bool.false_ne_true, List.append_nil] at hmail
      rw [hmail]
      refine (h.due hwaiting).imp_left fun ⟨t, ht', hpending⟩ ↦ ⟨_, rfl, ?_⟩
      obtain rfl := Option.some.inj (ht.symm.trans ht')
      rw [hp] at hreloads
      rw [← Bool.not_eq_false] at hpending ⊢
      exact fun hnone ↦ hpending (Script.hasPending_before hreloads hnone)

theorem passes (h : o.Expects a) (ha : a.Passes c file a') : o.Expects a' := by
  induction ha with
  | refl => exact h
  | ask _ _ hasked ih => exact indifferent.told (ih.asked hasked) rfl rfl rfl

theorem opened (t : Script) : ((OpenScript.ofScript t).place as).Expects
    { a with script := some t, reach := 1 } :=
  indifferent.place ⟨rfl, rfl, fun hwaiting ↦ .inl ⟨t, rfl, hwaiting⟩⟩

theorem reload (h : o.Expects a) (e : Reload) (mail : List Message) :
    (o.reload e).Expects { a with mail } :=
  ⟨h.reach, h.tracked, (absurd · Bool.false_ne_true)⟩

theorem hear {m : Message} {mail : List Message} (h : o.Expects a) (hmail : a.mail = m :: mail) :
    (o.hear as m).Expects { a with mail } := by
  cases m with
  | reload e => exact indifferent.place (h.reload e mail)
  | _ => exact indifferent.hear h hmail rfl

theorem hear_unposted (h : o.Expects a) (m : Message) : (o.hear as m).Expects a := by
  cases m with
  | reload e => exact indifferent.place (h.reload e a.mail)
  | added f x => exact indifferent.showMarker h
  | removed f x => exact indifferent.hideMarker h
  | shutdown => exact h

theorem stored {τ : Type} [BreakpointStore τ] {store store' : τ}
    {result : Except Fault (Option Readiness)} (h : o.Expects a)
    (hw : Shows.Stored c file o a t store store' result o' a') : o'.Expects a' := by
  cases hw with
  | unmodified => exact h
  | failed => exact h
  | unrestored => exact indifferent.told h rfl rfl rfl
  | @saved compiled other =>
    rw [Aspect.store]
    split
    · exact ⟨h.reach, rfl, fun _ ↦ .inl ⟨_, rfl, t.hasPending_save _ _⟩⟩
    · refine ⟨h.reach, rfl, fun _ ↦ .inr ?_⟩
      rw [Message.reloads_append, h.reach]
      exact List.concat_ne_nil _ _

theorem enduring (τ : Type) [BreakpointStore τ] (c : Compiler) (file : String) :
    Enduring τ c file (fun _ ↦ True) fun v a ↦ ∀ o ∈ v, o.Expects a where
  unborn _ _ _ h := nomatch h
  tracked h := (h _ rfl).tracked
  passes h ha o ho := (h o ho).passes ha
  hears as h hmail o ho := by
    obtain ⟨o₀, rfl, rfl⟩ := Option.map_eq_some_iff.1 ho
    exact (h o₀ rfl).hear hmail
  opens s _ o ho := by
    cases ho
    exact opened s
  closes _ _ _ _ _ h := nomatch h
  works h hw o ho := by
    cases ho
    exact indifferent.worked (h _ rfl) hw
  saves h _ hw o ho := by
    cases ho
    exact (h _ rfl).stored hw

end OpenScript.Expects

section Desk

variable {σ τ α β : Type} [BreakpointStore τ] [LawfulStore τ] {c : Compiler} {d d' d'' : Desk σ τ}
  {file : String} {box : Mailbox} {v : Option OpenScript} {a : Aspect}

structure Desk.Alert (file : String) (d : Desk σ τ) : Prop where
  orderly : d.workspace.Orderly
  attends : d.workspace.Attends d.editor.inbox
  expects {o : OpenScript} : d.editor.scripts[file]? = some o →
    o.Expects (d.workspace.aspect file d.editor.inbox)

theorem Desk.Alert.shows (h : d.Alert file) : Shows file d.editor.inbox d.editor.scripts[file]?
    (d.workspace.aspect file d.editor.inbox) d :=
  ⟨rfl, h.orderly, h.attends, rfl, rfl⟩

theorem Shows.alert (hd : Shows file box v a d) (h : ∀ o ∈ v, o.Expects a) : d.Alert file := by
  obtain ⟨rfl, horderly, hattends, rfl, rfl⟩ := hd
  exact ⟨horderly, hattends, fun ho ↦ h _ ho⟩

/-- Another desk of the same editor, who is no less alert. Other mailboxes saw requests at most. -/
structure Desk.Minds (c : Compiler) (d d' : Desk σ τ) : Prop where
  inbox : d'.editor.inbox = d.editor.inbox
  passes : d.workspace.Passes c (· ≠ d.editor.inbox) d'.workspace
  alert {file : String} : d.Alert file → d'.Alert file

namespace Desk.Minds

theorem refl (hd : d.workspace.Orderly) : d.Minds c d := ⟨rfl, .refl hd, id⟩

theorem trans (h : d.Minds c d') (h' : d'.Minds c d'') : d.Minds c d'' where
  inbox := h'.inbox.trans h.inbox
  passes := by
    have hpasses := h'.passes
    rw [h.inbox] at hpasses
    exact h.passes.trans hpasses
  alert halert := h'.alert (h.alert halert)

end Desk.Minds

def Mindful (c : Compiler) (x : EditorAction σ τ α) : Prop :=
  ∀ d : Desk σ τ, d.workspace.Orderly → d.Minds c (x.outcome d).2

namespace Mindful

theorem pure (a : α) : Mindful c (pure a : EditorAction σ τ α) := fun _ ↦ .refl

theorem bind {x : EditorAction σ τ α} {k : α → EditorAction σ τ β} (hx : Mindful c x)
    (hk : ∀ a, Mindful c (k a)) : Mindful c (x >>= k) := by
  intro d hd
  have hfirst := hx d hd
  rw [outcome_bind]
  generalize x.outcome d = o at hfirst ⊢
  rcases o with ⟨f | a, d'⟩
  · exact hfirst
  · exact hfirst.trans (hk a d' hfirst.passes.orderly)

theorem note (n : Notice) : Mindful c (Editor.note n : EditorAction σ τ Unit) :=
  fun _ hd ↦ ⟨rfl, ⟨⟨hd.named, hd.listed⟩, rfl, id, fun _ _ _ ↦ .refl⟩,
    fun halert ↦ (halert.shows.log _).alert fun _ ↦ halert.expects⟩

end Mindful

theorem Framed.alert {clean : τ → Prop} {subject : String} {asked : Request → Prop}
    (hd : Framed c clean subject asked d d') (hne : file ≠ subject) (h : d.Alert file) :
    d'.Alert file where
  orderly := hd.orderly
  attends := by
    rw [hd.inbox]
    exact hd.attends h.attends
  expects ho := by
    rw [hd.scripts hne] at ho
    rw [hd.inbox, hd.elsewhere hne h.attends]
    exact h.expects ho

theorem Desk.Alert.tracked (h : d.Alert file) (hv : d.editor.scripts[file]?.isSome) :
    ∃ t, (d.workspace.aspect file d.editor.inbox).script = some t := by
  obtain ⟨o, ho⟩ := Option.isSome_iff_exists.1 hv
  exact Option.isSome_iff_exists.1 (h.expects ho).tracked

variable [Archive σ]

theorem Shows.alert_handle {m : Message} (hd : Shows file box v a d)
    (hs : v.isSome → ∃ t, a.script = some t) (hm : m.file? = some file)
    (h : ∀ o ∈ v, ∀ as, (o.hear as m).Expects a) :
    ((Editor.handle c m).outcome d).2.Alert file := by
  obtain ⟨result, d', as, ho, hd', -⟩ := hd.handle (c := c) hs hm
  rw [ho]
  refine hd'.alert fun o ho' ↦ ?_
  obtain ⟨o₀, ho₀, rfl⟩ := Option.map_eq_some_iff.1 ho'
  exact h o₀ ho₀ as

/-- Any message may be handled, be it out of the mail or not. -/
theorem Mindful.handle (c : Compiler) (m : Message) :
    Mindful c (Editor.handle c m : EditorAction σ τ Bool) := by
  intro d hd
  cases hm : m.file? with
  | none =>
    obtain rfl := Message.file?_eq_none.1 hm
    exact .refl hd
  | some subject =>
    obtain ⟨hpasses, hinbox⟩ := (Passes.bears (c := c) d.workspace (· ≠ d.editor.inbox)
      (not_not.2 rfl) subject _).toSpares.handle hm d ⟨.refl hd, rfl⟩
    refine ⟨hinbox, hpasses, fun {file} h ↦ ?_⟩
    by_cases hfile : file = subject
    · subst hfile
      exact h.shows.alert_handle h.tracked hm fun o ho _ ↦ (h.expects ho).hear_unposted m
    · exact Framed.alert ((Framed.bears d (c := c) remembers_nothing trivial
        fun r (hr : r = .listBreakpoints subject) ↦ hr ▸ rfl).handle hm d (.refl hd)) hfile h

/-- A reload is taken out of the mail when it is handled, and then nothing waits for it. -/
theorem Mindful.handleNext (c : Compiler) :
    Mindful c (Editor.handleNext c : EditorAction σ τ Bool) := by
  intro d hd
  cases hw : d.workspace.waiting d.editor.inbox with
  | nil =>
    rw [Editor.handleNext_nil hw]
    exact .refl hd
  | cons m rest =>
    have hne : d.workspace.waiting d.editor.inbox ≠ [] := by
      rw [hw]
      exact List.cons_ne_nil _ _
    have hqueue : d.workspace.Passes c (· ≠ d.editor.inbox) (d.withQueue rest).workspace :=
      Passes.withQueue (.refl hd) (not_not.2 rfl)
    have hminds := Mindful.handle c m (d.withQueue rest) hqueue.orderly
    rw [Editor.handleNext_cons hw]
    refine ⟨hminds.inbox, hqueue.trans hminds.passes, fun {file} h ↦ ?_⟩
    have hshows : Shows file d.editor.inbox d.editor.scripts[file]?
        { d.workspace.aspect file d.editor.inbox with mail := rest.filter (·.isAbout file) }
        (d.withQueue rest) :=
      ⟨rfl, hqueue.orderly, hqueue.attends h.attends, rfl, Desk.aspect_withQueue hne⟩
    by_cases hm : m.file? = some file
    · have habout : m.isAbout file = true := decide_eq_true hm
      have hmail : (d.workspace.aspect file d.editor.inbox).mail =
          m :: rest.filter (·.isAbout file) := by
        rw [aspect, hw, List.filter_cons_of_pos habout]
      exact hshows.alert_handle h.tracked hm fun o ho _ ↦ (h.expects ho).hear hmail
    · have hmail : (d.workspace.aspect file d.editor.inbox).mail =
          rest.filter (·.isAbout file) := by
        rw [aspect, hw, List.filter_cons_of_neg (by simpa [Message.isAbout] using hm)]
      refine hminds.alert (hshows.alert fun o ho ↦ ?_)
      rw [← hmail]
      exact h.expects ho

theorem Mindful.runPending (c : Compiler) :
    Mindful c (Editor.runPending c : EditorAction σ τ Nat) :=
  fun d hd ↦ Editor.keeps_runPending (I := d.Minds c)
    (fun d' h ↦ h.trans (Mindful.handleNext c d' h.passes.orderly)) d (.refl hd)

theorem Mindful.run (c : Compiler) : Mindful c (Editor.run c : EditorAction σ τ Unit) :=
  (Mindful.runPending c).bind fun _ ↦ .note _

/-- Whatever an editor is asked, it does not become less alert. -/
theorem Mindful.perform (c : Compiler) (r : EditorRequest) :
    Mindful c (r.perform c : EditorAction σ τ Reply) := by
  cases hfile : r.file? with
  | none =>
    obtain rfl := EditorRequest.file?_eq_none.1 hfile
    exact (Mindful.runPending c).bind fun _ ↦ .pure _
  | some subject =>
    intro d hd
    obtain ⟨hpasses, hinbox⟩ := (Passes.bears (c := c) d.workspace (· ≠ d.editor.inbox)
      (not_not.2 rfl) subject _).editorRequest (d := d) hfile ⟨.refl hd, rfl⟩
    refine ⟨hinbox, hpasses, fun {file} h ↦ ?_⟩
    by_cases hsubject : file = subject
    · subst hsubject
      obtain ⟨v, a, hd', h'⟩ := (OpenScript.Expects.enduring τ c file).perform h.shows
        (fun _ ↦ h.expects) hfile fun _ _ _ _ ↦ trivial
      exact hd'.alert h'
    · exact (Framed.editorRequest d remembers_nothing trivial hd hfile).alert hsubject h

end Desk

end ScriptBreakpoints
