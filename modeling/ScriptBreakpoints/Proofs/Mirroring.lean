import ScriptBreakpoints.Compiler.Listing
import ScriptBreakpoints.Proofs.Attending
import ScriptBreakpoints.Proofs.Promotion

namespace ScriptBreakpoints

open Fallible Workspace

namespace Buffer

variable {b : Buffer} {v : View} {x : Address}

def Mirrors (v : View) (b : Buffer) : Prop := b.modified = false → b.text = v.text

@[simp] theorem text_ofView : (ofView v).text = v.text := Lines.join_split v.text

@[simp] theorem text_ofPending : (ofPending v).text = v.text := Lines.join_split v.text

theorem Mirrors.reload (h : b.Mirrors v) (waiting : Bool) (m : SourceMap) :
    (b.reload waiting m).Mirrors v := h

end Buffer

/-- A script whose text was saved shows the saved views as soon as nothing is pending, and then it
says so. -/
theorem Aspect.store_eq (a : Aspect) (s : Script) (binary : Binary) (views : Dual View)
    (armed : List Address) : ∃ t : Script, a.store s binary views armed =
      { script := some t
        armed := .ofList armed
        reach := a.reach
        mail := a.mail ++ if t.hasPending then [] else
          List.replicate a.reach (.reload t.reload) } ∧
      t.authority = s.authority ∧ ∀ p, t.latest p = views.get p := by
  have hlatest := s.latest_save binary views
  cases hin : s.flags.inEngine with
  | true =>
    refine ⟨_, ?_, s.save_authority binary views, hlatest⟩
    rw [store, hin, if_pos rfl, Script.hasPending_save, if_pos rfl, List.append_nil]
  | false =>
    refine ⟨(s.save binary views).2.promote, ?_, s.save_authority binary views, fun p ↦ ?_⟩
    · rw [store, hin, if_neg Bool.false_ne_true, Script.hasPending_promote,
        if_neg Bool.false_ne_true]
    · rw [Script.latest_promote, hlatest]

namespace OpenScript

variable {o o' : OpenScript} {t t' : Script} {a a' : Aspect} {x : Address} {as : List Address}
  {e : Reload}

/-- What is shown of the script `t`, and what is still unread about it. The generated text can be
old only while the editor waits for the reload of a save, and that reload does not make it the
edited one. -/
structure Mirrors (t : Script) (o : OpenScript) (a : Aspect) : Prop where
  script : a.script = some t
  reach : a.reach = 1
  unread : ∀ e, .reload e ∈ a.mail → ∀ p, e.views.get p = t.latest p
  text : ∀ p, p = o.authority ∨ o.waiting = false → (o.buffers.get p).Mirrors (t.latest p)
  awaited : o.waiting = true →
    a.Edits o.authority ∧ ∀ e, .reload e ∈ a.mail → e.authority = o.authority
  provisional : o.waiting = true → o.buffer.modified = false →
    ∀ marks, o.buffer.provisional = some marks → marks = .ofMap (t.latest o.authority).map
  marks : t.hasPending = false → (∀ e, .reload e ∉ a.mail) → o.buffer.modified = false →
    o.buffer.marks = .ofMap (t.latest o.authority).map

namespace Mirrors

theorem remark (h : o.Mirrors t a) (hauthority : o'.authority = o.authority)
    (hwaiting : o'.waiting = o.waiting)
    (hb : ∀ p, ∃ markers, o'.buffers.get p = { o.buffers.get p with markers }) :
    o'.Mirrors t a := by
  obtain ⟨markers, hbuffer⟩ : ∃ markers, o'.buffer = { o.buffer with markers } := by
    rw [buffer, hauthority]
    exact hb o.authority
  refine ⟨h.script, h.reach, h.unread, fun p hp ↦ ?_, fun hw ↦ ?_, fun hw hm ↦ ?_,
    fun hp hunread hm ↦ ?_⟩
  · obtain ⟨markers, hb⟩ := hb p
    rw [hauthority, hwaiting] at hp
    rw [hb]
    exact h.text p hp
  · rw [hauthority]
    exact h.awaited (hwaiting ▸ hw)
  · rw [hbuffer] at hm ⊢
    rw [hauthority]
    exact h.provisional (hwaiting ▸ hw) hm
  · rw [hbuffer] at hm ⊢
    rw [hauthority]
    exact h.marks hp hunread hm

theorem told (h : o.Mirrors t a) (hscript : a'.script = a.script) (hreach : a'.reach = a.reach)
    (hmail : ∀ e, .reload e ∈ a'.mail ↔ .reload e ∈ a.mail) : o.Mirrors t a' := by
  refine ⟨hscript.trans h.script, hreach.trans h.reach, fun e he ↦ h.unread e ((hmail e).1 he),
    h.text, fun hw ↦ ?_, h.provisional, fun hp hunread ↦ ?_⟩
  · obtain ⟨⟨s, hs, hedits⟩, hreloads⟩ := h.awaited hw
    exact ⟨⟨s, hscript.trans hs, hedits⟩, fun e he ↦ hreloads e ((hmail e).1 he)⟩
  · exact h.marks hp fun e he ↦ hunread e ((hmail e).2 he)

theorem follow (h : o.Mirrors t a) (edit : LineEdit) (lines : List String) :
    (o.setBuffer ({ o.buffer with lines }.follow edit)).Mirrors t a := by
  have hmodified : (o.setBuffer ({ o.buffer with lines }.follow edit)).buffer.modified ≠ false := by
    rw [buffer_setBuffer]
    exact Bool.noConfusion
  refine ⟨h.script, h.reach, h.unread, fun p hp ↦ ?_, h.awaited, fun _ hm ↦ absurd hm hmodified,
    fun _ _ hm ↦ absurd hm hmodified⟩
  by_cases hauthority : p = o.authority
  · subst hauthority
    exact fun hm ↦ absurd hm hmodified
  · rw [setBuffer, Dual.get_set, if_neg hauthority]
    exact h.text p hp

theorem indifferent : Indifferent fun o a ↦ o.Mirrors t a where
  remark h hauthority hwaiting hb := h.remark hauthority hwaiting hb
  told h hscript hreach hmail := h.told hscript hreach fun e ↦ by
    rw [← Message.mem_reloads, hmail, Message.mem_reloads]
  follow edit lines h := h.follow edit lines

/-- The reload takes the texts of both projections from views that are the newest, or leaves them
as they were. -/
theorem reload {mail : List Message} (h : o.Mirrors t a) (hmail : a.mail = .reload e :: mail) :
    (o.reload e).Mirrors t { a with mail } := by
  have hmem : .reload e ∈ a.mail := by
    rw [hmail]
    exact List.mem_cons_self
  have hviews := h.unread e hmem
  have hauthority (hw : o.waiting = true) : e.authority = o.authority := (h.awaited hw).2 e hmem
  refine ⟨h.script, h.reach, fun e' he' ↦ h.unread e' ?_, fun p _ ↦ ?_, Bool.noConfusion,
    Bool.noConfusion, fun _ _ hm ↦ ?_⟩
  · rw [hmail]
    exact List.mem_cons_of_mem _ he'
  · rw [get_reload]
    split
    · next hp =>
      -- this text stays; while a save waits a text may be old, but not the one that is edited
      refine (h.text p ?_).reload _ _
      cases hw : o.waiting with
      | false => exact .inr rfl
      | true => exact .inl (hp.trans (hauthority hw))
    · rw [hviews]
      exact fun _ ↦ Buffer.text_ofView
  · have hbuffer : (o.reload e).buffer =
        (o.buffers.get e.authority).reload o.waiting (t.latest e.authority).map := by
      rw [← hviews]
      exact (get_reload e o e.authority).trans (if_pos rfl)
    rw [hbuffer] at hm ⊢
    rw [Buffer.marks_reload]
    change _ = Marks.ofMap (t.latest e.authority).map
    split
    · next hw =>
      -- the marks of the save were made from the newest map, and no edit has moved them
      rw [hauthority hw] at hm ⊢
      cases hprovisional : (o.buffers.get o.authority).provisional with
      | none => rfl
      | some marks => exact h.provisional hw hm marks hprovisional
    · rfl

theorem hear {mail : List Message} {m : Message} (h : o.Mirrors t a) (hmail : a.mail = m :: mail) :
    (o.hear as m).Mirrors t { a with mail } := by
  cases m with
  | reload e => exact indifferent.place (h.reload hmail)
  | _ => exact indifferent.hear h hmail rfl

theorem opened (hunread : ∀ e, .reload e ∉ a.mail) :
    ((OpenScript.ofScript t).place as).Mirrors t { a with script := some t, reach := 1 } := by
  have hlatest {p : Projection} {v : View} (hv : (t.slots.get p).pending = some v) :
      t.latest p = v := by
    rw [Script.latest, Slot.latest, hv, Option.getD_some]
  have hactive {p : Projection} (hv : (t.slots.get p).pending = none) :
      t.latest p = (t.slots.get p).active := by
    rw [Script.latest, Slot.latest, hv, Option.getD_none]
  refine indifferent.place ⟨rfl, rfl, fun e he ↦ absurd he (hunread e), fun p _ _ ↦ ?_,
    fun _ ↦ ⟨⟨t, rfl, rfl⟩, fun e he ↦ absurd he (hunread e)⟩, fun _ _ marks hmarks ↦ ?_,
    fun hp _ _ ↦ ?_⟩
  · rw [get_ofScript]
    cases hv : (t.slots.get p).pending with
    | none => rw [hactive hv, Option.elim_none, Buffer.text_ofView]
    | some v => rw [hlatest hv, Option.elim_some, Buffer.text_ofPending]
  · rw [buffer, get_ofScript] at hmarks
    cases hv : (t.slots.get (OpenScript.ofScript t).authority).pending with
    | none =>
      rw [hv] at hmarks
      cases hmarks
    | some v =>
      rw [hv] at hmarks
      rw [hlatest hv]
      exact (Option.some.inj hmarks).symm
  · have hv := t.hasPending_eq_false.1 hp (OpenScript.ofScript t).authority
    rw [buffer, get_ofScript, hv, hactive hv]
    rfl

theorem saved {s : Script} {binary : Binary} {m : SourceMap} {other : View} {armed : List Address}
    (hreach : a.reach = 1) (hunread : ∀ e, .reload e ∉ a.mail) (ho : o.authority = s.authority) :
    ∃ t, (o.saved m).Mirrors t
      (a.store s binary (savedViews o.authority o.buffer.text m other) armed) := by
  obtain ⟨t, hstore, hauthority, hlatest⟩ :=
    a.store_eq s binary (savedViews o.authority o.buffer.text m other) armed
  have hsaved : t.latest o.authority = ⟨o.buffer.text, m⟩ := by
    rw [hlatest, savedViews, Dual.get_ofFn, if_pos rfl]
  have htext : (o.saved m).buffer.text = o.buffer.text := by
    rw [buffer_saved]
    rfl
  have hmail (e : Reload) : .reload e ∈ a.mail ++ (if t.hasPending then [] else
      List.replicate a.reach (.reload t.reload)) ↔ t.hasPending = false ∧ e = t.reload := by
    rw [List.mem_append, or_iff_right (hunread e), hreach]
    cases t.hasPending <;> simp
  rw [hstore]
  refine ⟨t, rfl, hreach, fun e he p ↦ ?_, fun p hp _ ↦ ?_, fun _ ↦ ⟨?_, fun e he ↦ ?_⟩,
    fun _ _ marks hmarks ↦ ?_, fun hp hnone ↦ ?_⟩
  · obtain ⟨hp, rfl⟩ := (hmail e).1 he
    rw [Script.reload, Script.latest_eq_active t hp]
  · obtain rfl : p = o.authority := hp.resolve_right Bool.noConfusion
    rw [hsaved]
    exact htext
  · exact ⟨t, rfl, hauthority.trans ho.symm⟩
  · obtain ⟨-, rfl⟩ := (hmail e).1 he
    exact hauthority.trans ho.symm
  · rw [buffer_saved] at hmarks
    rw [show (o.saved m).authority = o.authority from rfl, hsaved]
    exact (Option.some.inj hmarks).symm
  · exact absurd ((hmail _).2 ⟨hp, rfl⟩) (hnone _)

variable {c : Compiler} {r : Request}

theorem asked (h : o.Mirrors t a) (ha : a.Asked c r a') (hsave : r.isSave = false)
    (hspares : o.waiting = true → r.Spares o.authority) : ∃ t, o.Mirrors t a' := by
  have hspared (hw : o.waiting = true) : a.Spared o.authority a' :=
    ha.spared (hspares hw) (h.awaited hw).1
  cases ha with
  | ignored => exact ⟨t, h⟩
  | found hs =>
    obtain rfl := hs.unique h.script
    exact ⟨_, h.told h.script.symm rfl fun e ↦ Iff.rfl⟩
  | @granted s hs =>
    obtain rfl := hs.unique h.script
    have hlatest := s.latest_after (r.turn_isSave c hsave s)
    have hreloads := r.reloads_turn c s
    have hmail (e : Reload) : .reload e ∈ (a.grant c r s).mail ↔
        .reload e ∈ a.mail ∨ r.posts c s = some (.reload e) := by
      rw [Aspect.grant, List.mem_append, h.reach]
      cases hp : r.posts c s <;> simp [eq_comm]
    refine ⟨s.after (r.turn c s), rfl, h.reach, fun e he p ↦ ?_, fun p hp ↦ ?_, fun hw ↦ ?_,
      fun hw hm ↦ ?_, fun hp hunread hm ↦ ?_⟩
    · rw [hlatest]
      obtain he | he := (hmail e).1 he
      · exact h.unread e he p
      · -- what is posted is what has just become active, and nothing is newer
        rw [r.promotes_of_posts c s he] at hreloads
        have hsettled := (Script.settled_after hreloads).1
        rw [Request.reload_of_posts he, Script.reload, ← hlatest,
          Script.latest_eq_active _ hsettled]
    · rw [hlatest]
      exact h.text p hp
    · obtain ⟨hedits, ms, hms, hauthority⟩ := hspared hw
      refine ⟨hedits, fun e he ↦ ?_⟩
      rw [hms, List.mem_append] at he
      exact he.elim ((h.awaited hw).2 e) (hauthority e)
    · rw [hlatest]
      exact h.provisional hw hm
    · -- had something been pending before, there would be a reload to handle now
      have hsilent : r.promotes s = false := by
        rw [Bool.eq_false_iff]
        exact fun hpromotes ↦
          hunread _ ((hmail _).2 (.inr (r.posts_of_promotes c s hpromotes)))
      rw [Script.hasPending_after (hreloads.trans hsilent) (r.turn_isSave c hsave s)] at hp
      rw [hlatest]
      exact h.marks hp (fun e he ↦ hunread e ((hmail e).2 (.inl he))) hm

theorem follows {file : String} {asks : Request → Prop} (h : o.Mirrors t a)
    (ha : a.Follows c file asks a')
    (hasks : ∀ r, asks r → r.file = file →
      r.isSave = false ∧ (o.waiting = true → r.Spares o.authority)) :
    ∃ t, o.Mirrors t a' := by
  induction ha with
  | refl => exact ⟨t, h⟩
  | ask _ hfile hr hstep ih =>
    obtain ⟨t, h⟩ := ih
    obtain ⟨hsave, hspares⟩ := hasks _ hr hfile
    exact h.asked hstep hsave hspares

variable {file : String} {τ : Type} [BreakpointStore τ] {s : Script} {store store' : τ}

theorem stored {result : Except Fault (Option Readiness)} (h : o.Mirrors t a)
    (hunread : ∀ e, .reload e ∉ a.mail)
    (hw : Shows.Stored c file o a s store store' result o' a') : ∃ t, o'.Mirrors t a' := by
  cases hw with
  | unmodified => exact ⟨t, h⟩
  | failed => exact ⟨t, h⟩
  | unrestored => exact ⟨t, h.told rfl rfl fun e ↦ Iff.rfl⟩
  | saved ho => exact saved h.reach hunread ho

end Mirrors

end OpenScript

namespace Session

section Defs

variable {σ τ : Type}

def HasRead (i : Nat) (file : String) (s : Session σ τ) : Prop :=
  ∀ e, .reload e ∈ s.inbox i → e.file ≠ file

theorem hasRead_of_isEmpty {i : Nat} {file : String} {s : Session σ τ}
    (h : (s.inbox i).isEmpty = true) : s.HasRead i file := by
  intro e he
  rw [List.isEmpty_iff.1 h] at he
  cases he

/-- A move by which nobody but the editor at seat `i` saves a script, and by which the editor does
not miss what it saves: it does not close the script, it has read of all reloads before it saves,
and while it waits for the reload of a save nobody makes another projection the edited one. -/
structure Undisturbed (i : Nat) (file : String) (s : Session σ τ) (m : Move) : Prop where
  saves : m.saves file → m = .editor i (.save file)
  read : m = .editor i (.save file) → s.HasRead i file
  authority : ∀ o q, s.shown i file = some o → o.waiting = true →
    m = .ask (.setAuthority file q) → q = o.authority
  closes : ∀ confirm, m ≠ .editor i (.closeScript file confirm)

inductive Renews [Archive σ] [BreakpointStore τ] (c : Compiler) (i : Nat) (file : String)
    (s : Session σ τ) : Move → Prop
  | opened : s.shown i file = none →
      (move c (.editor i (.openScript file)) s).2.shown i file ≠ none →
      Renews c i file s (.editor i (.openScript file))
  | saved {r : Readiness} :
      (move c (.editor i (.save file)) s).1 = .ok (.readiness (some r)) →
      Renews c i file s (.editor i (.save file))

theorem Undisturbed.requests {s : Session σ τ} {i : Nat} {file : String} {m : Move}
    {o : OpenScript} (hm : s.Undisturbed i file m) (haside : s.Aside i file m)
    (ho : s.shown i file = some o) : ∀ r, s.Asks m r → r.file = file →
      r.isSave = false ∧ (o.waiting = true → r.Spares o.authority) := by
  have hsaves : ¬m.saves file := by
    intro h
    rw [hm.saves h] at haside
    obtain ⟨other, hne, hother⟩ := haside rfl
    exact hne (Option.some.inj hother).symm
  intro r hr hfile
  refine ⟨Asks.unsaved hr hsaves hfile, fun hw ↦ ?_⟩
  have hspares : s.Spares i file m := by
    refine ⟨fun r hr hfile ↦ Asks.unsaved hr hsaves hfile, fun o' q ho' hq ↦ ?_, hm.closes⟩
    obtain rfl : o = o' := Option.some.inj (ho.symm.trans ho')
    exact hm.authority o q ho hw hq
  exact hspares.requests ho r hr hfile

end Defs

variable {σ τ : Type} [Archive σ] [BreakpointStore τ] [LawfulStore τ] {c : Compiler}
  {s : Session σ τ} {i : Nat} {file : String} {v : Option OpenScript} {o : OpenScript}
  {a : Aspect} {t : Script} {m : Move}

namespace Scene

omit [Archive σ] in
theorem hasRead (hi : s.Scene i file v a) :
    s.HasRead i file ↔ ∀ e, .reload e ∉ a.mail := by
  simp only [HasRead, hi.mail, List.mem_filter, Message.isAbout, Message.file?, Option.some.injEq,
    decide_eq_true_eq, not_and]

theorem opening (hs : s.Sound) (hi : s.Scene i file none a) :
    ∃ v' a', (move c (.editor i (.openScript file)) s).2.Scene i file v' a' ∧ (v' = none ∨
      ∃ t, v' = some ((OpenScript.ofScript t).place a.armed.toList) ∧
        a' = { a with script := some t, reach := 1 }) := by
  obtain ⟨e, hseat, hshows⟩ := hi
  obtain ⟨result, d', v', a', ho, hd', hopened⟩ := hshows.openScript (c := c)
  rw [move_editor hs hseat rfl, EditorRequest.perform, outcome_bind_pure, ho]
  exact ⟨v', a', put_self hseat hd', hopened.imp_left And.left⟩

/-- Whoever opens or saves a script mirrors it. -/
theorem renewed (hs : s.Sound) (hi : s.Scene i file v a) (h : Attended v a)
    (hread : s.HasRead i file) (hm : Renews c i file s m) :
    ∃ o a t, (move c m s).2.Scene i file (some o) a ∧ o.Mirrors t a := by
  have hunread := hi.hasRead.1 hread
  cases hm with
  | opened hclosed hopened =>
    rw [hi.shown] at hclosed
    subst hclosed
    obtain ⟨v', a', hi', rfl | ⟨t, rfl, rfl⟩⟩ := hi.opening (c := c) hs
    · exact absurd hi'.shown hopened
    · exact ⟨_, _, t, hi', .opened hunread⟩
  | saved hok =>
    cases h with
    | closed =>
      obtain ⟨e, hseat, hshows⟩ := hi
      rw [move_editor hs hseat rfl, EditorRequest.perform, outcome_bind_pure,
        Editor.save_unopened hshows.view] at hok
      cases hok
    | opened hreach ht =>
      obtain ⟨t, compiled, other, hauthority, -, hi'⟩ := hi.save (c := c) hs hok
      obtain ⟨t', h'⟩ := OpenScript.Mirrors.saved (m := compiled.map) hreach hunread hauthority
      exact ⟨_, _, t', hi', h'⟩

theorem of_renews (hs : s.Sound) (hm : Renews c i file s m) : ∃ v a, s.Scene i file v a := by
  obtain hvacant | ⟨e, hseat⟩ := hs.seat_cases i
  · cases hm with
    | opened hclosed hopened =>
      rw [(move_vacant hvacant _).1] at hopened
      exact absurd hclosed hopened
    | saved hok =>
      rw [move, step, atSeat_vacant hvacant] at hok
      cases hok
  · exact ⟨_, _, hs.scene hseat file⟩

variable (hs : s.Sound) (hi : s.Scene i file (some o) a) (h : o.Mirrors t a)

include hs hi h

theorem mirrors_aside (hm : s.Undisturbed i file m) (haside : s.Aside i file m) :
    ∃ o a t, (move c m s).2.Scene i file (some o) a ∧ o.Mirrors t a := by
  have hrequests := hm.requests haside hi.shown
  obtain ⟨a', hi', ha'⟩ := hi.aside (c := c) remembers_nothing trivial hs haside
    (.inl fun r hr hfile ↦ (hrequests r hr hfile).1)
  obtain ⟨t', h'⟩ := h.follows ha' hrequests
  exact ⟨o, a', t', hi', h'⟩

theorem mirrors_next : ∃ o a t, (move c (.next i) s).2.Scene i file (some o) a ∧
    o.Mirrors t a := by
  obtain haside | ⟨m, rest, hinbox, hfile⟩ := s.aside_next_or i file
  · exact hi.mirrors_aside hs h ⟨False.elim, by simp, by simp, by simp⟩ haside
  · obtain ⟨as, hi', -⟩ := hi.hear (c := c) (fun _ ↦ ⟨t, h.script⟩) hinbox hfile
    exact ⟨_, _, t, hi', h.hear (hi.mail_cons hinbox hfile)⟩

theorem mirrors_own {r : EditorRequest} (hfile : r.file? = some file)
    (hm : s.Undisturbed i file (.editor i r)) :
    ∃ o a t, (move c (.editor i r) s).2.Scene i file (some o) a ∧ o.Mirrors t a := by
  by_cases hsave : r = .save file
  · subst hsave
    obtain ⟨result, o', a', -, hi', hstored⟩ := hi.stored (c := c) hs h.script
    obtain ⟨t', h'⟩ := h.stored (hi.hasRead.1 (hm.read rfl)) hstored
    exact ⟨o', a', t', hi', h'⟩
  · obtain ⟨o', a', hi', hworked⟩ := hi.work (c := c) hs h.script hfile
      (fun confirm h ↦ hm.closes confirm (h ▸ rfl)) hsave
    exact ⟨o', a', t, hi', OpenScript.Mirrors.indifferent.worked h hworked⟩

theorem mirrors_move (hm : s.Undisturbed i file m) :
    ∃ o a t, (move c m s).2.Scene i file (some o) a ∧ o.Mirrors t a := by
  rcases s.aside_or i file m with haside | rfl | rfl | ⟨r, rfl, hfile⟩
  · exact hi.mirrors_aside hs h hm haside
  · exact hi.mirrors_next hs h
  · refine runPending_keeps (P := fun s ↦ ∃ o a t, s.Scene i file (some o) a ∧ o.Mirrors t a) hs
      (fun s hs h ↦ ?_) ⟨o, a, t, hi, h⟩
    obtain ⟨o, a, t, hi, h⟩ := h
    exact hi.mirrors_next hs h
  · exact hi.mirrors_own hs h hfile hm

theorem mirrors_after {ms : List Move} (hms : Along c (Undisturbed i file) s ms) :
    ∃ o a t, (s.after c ms).Scene i file (some o) a ∧ o.Mirrors t a := by
  induction ms generalizing s o a t with
  | nil => exact ⟨o, a, t, hi, h⟩
  | cons m ms ih =>
    obtain ⟨o', a', t', hi', h'⟩ := hi.mirrors_move (c := c) hs h hms.1
    exact ih (hs.move m) hi' h' hms.2

end Scene

/-- An editor opened a script or saved it, and nobody else has saved it since. Once all messages
are handled and nothing is pending, the editor shows the active text, if it shows no changes, and
its marks are those of the active map. -/
theorem unmodified_text_is_active (c : Compiler) (archive : σ) (store : τ)
    {history ms : List Move} {s₀ s₁ : Session σ τ}
    (hs₀ : s₀ = (start archive store).after c history) (hread : s₀.HasRead i file)
    (hrenews : Renews c i file s₀ m) (hs₁ : s₁ = (move c m s₀).2)
    (hms : Along c (Undisturbed i file) s₁ ms) (hs : s = s₁.after c ms) (hinbox : s.inbox i = [])
    (ht : s.workspace.scripts[file]? = some t) (hpending : t.hasPending = false)
    (ho : s.shown i file = some o) (hmodified : o.buffer.modified = false) :
    o.buffer.text = (t.active.get o.authority).text ∧
      o.buffer.marks = .ofMap (t.active.get o.authority).map := by
  have hsound₀ : s₀.Sound := by
    rw [hs₀]
    exact (sound_start archive store).after history
  obtain ⟨v₀, a₀, hi₀⟩ := Scene.of_renews hsound₀ hrenews
  obtain ⟨o₁, a₁, t₁, hi₁, h₁⟩ := hi₀.renewed hsound₀ (attended_after hs₀ hi₀) hread hrenews
  rw [← hs₁] at hi₁
  have hsound₁ : s₁.Sound := by
    rw [hs₁]
    exact hsound₀.move m
  obtain ⟨o', a, t', hi, h⟩ := hi₁.mirrors_after hsound₁ h₁ hms
  rw [← hs] at hi
  obtain rfl : o' = o := by
    rw [hi.shown] at ho
    exact Option.some.inj ho
  obtain rfl : t' = t := by
    rw [← hi.script, h.script] at ht
    exact Option.some.inj ht
  have hunread (e : Reload) : .reload e ∉ a.mail := by
    rw [hi.mail, hinbox]
    exact List.not_mem_nil
  rw [← t'.latest_eq_active hpending]
  exact ⟨h.text _ (.inl rfl) hmodified, h.marks hpending hunread hmodified⟩

/-- A text is saved while the engine holds the old one, and the reload makes it the active one. -/
theorem saved_text_is_active :
    ∃ s₀ s₁ s o t, s₀ = (start (ArchiveMap.ofList [("a", Utf8.encode "routine 5\n    a\n")])
        (⟨∅, ()⟩ : Ledger Unit)).after Listing.compiler [.newEditor] ∧
      s₁ = (move Listing.compiler (.editor 0 (.openScript "a")) s₀).2 ∧
      s = s₁.after Listing.compiler [.ask (.openInEngine "a"),
        .editor 0 (.insertLines "a" .primary 1 ["    b"]), .editor 0 (.save "a"),
        .ask (.closeInEngine "a"), .editor 0 .runPending] ∧
      s.shown 0 "a" = some o ∧ s.workspace.scripts["a"]? = some t ∧
      o.buffer.text = (t.active.get .primary).text ∧
      o.buffer.marks = .ofMap (t.active.get .primary).map := by
  obtain ⟨s₀, hs₀⟩ : ∃ s₀, s₀ = (start (ArchiveMap.ofList
      [("a", Utf8.encode "routine 5\n    a\n")]) (⟨∅, ()⟩ : Ledger Unit)).after Listing.compiler
      [.newEditor] := ⟨_, rfl⟩
  obtain ⟨s₁, hs₁⟩ : ∃ s₁, s₁ = (move Listing.compiler (.editor 0 (.openScript "a")) s₀).2 :=
    ⟨_, rfl⟩
  obtain ⟨s, hs⟩ : ∃ s, s = s₁.after Listing.compiler [.ask (.openInEngine "a"),
      .editor 0 (.insertLines "a" .primary 1 ["    b"]), .editor 0 (.save "a"),
      .ask (.closeInEngine "a"), .editor 0 .runPending] := ⟨_, rfl⟩
  have hread : (s₀.inbox 0).isEmpty = true := by
    rw [hs₀]
    decide +kernel
  have hclosed : (s₀.shown 0 "a").isNone = true := by
    rw [hs₀]
    decide +kernel
  have hopened : (s₁.shown 0 "a").isSome = true := by
    rw [hs₁, hs₀]
    decide +kernel
  have hsaving : ((s₁.after Listing.compiler [.ask (.openInEngine "a"),
      .editor 0 (.insertLines "a" .primary 1 ["    b"])]).inbox 0).isEmpty = true := by
    rw [hs₁, hs₀]
    decide +kernel
  have hinbox : (s.inbox 0).isEmpty = true := by
    rw [hs, hs₁, hs₀]
    decide +kernel
  have hscript : s.workspace.scripts["a"]?.map (·.hasPending) = some false := by
    rw [hs, hs₁, hs₀]
    decide +kernel
  have hshown : (s.shown 0 "a").map (fun o ↦ (o.authority, o.buffer.modified)) =
      some (.primary, false) := by
    rw [hs, hs₁, hs₀]
    decide +kernel
  have hms : Along Listing.compiler (Undisturbed 0 "a") s₁ [.ask (.openInEngine "a"),
      .editor 0 (.insertLines "a" .primary 1 ["    b"]), .editor 0 (.save "a"),
      .ask (.closeInEngine "a"), .editor 0 .runPending] := by
    refine ⟨⟨by simp [Move.saves, Request.isSave], by simp, by simp, by simp⟩,
      ⟨by simp [Move.saves], by simp, by simp, by simp⟩,
      ⟨fun _ ↦ rfl, fun _ ↦ hasRead_of_isEmpty hsaving, by simp, by simp⟩,
      ⟨by simp [Move.saves, Request.isSave], by simp, by simp, by simp⟩,
      ⟨by simp [Move.saves], by simp, by simp, by simp⟩, trivial⟩
  have hrenews : Renews Listing.compiler 0 "a" s₀ (.editor 0 (.openScript "a")) := by
    refine .opened (Option.isNone_iff_eq_none.1 hclosed) fun hnone ↦ ?_
    rw [hs₁, hnone] at hopened
    cases hopened
  obtain ⟨t, ht, hpending⟩ := Option.map_eq_some_iff.1 hscript
  obtain ⟨o, ho, hshown⟩ := Option.map_eq_some_iff.1 hshown
  rw [Prod.mk.injEq] at hshown
  obtain ⟨hauthority, hmodified⟩ := hshown
  have hactive := unmodified_text_is_active Listing.compiler _ _ hs₀ (hasRead_of_isEmpty hread)
    hrenews hs₁ hms hs (List.isEmpty_iff.1 hinbox) ht hpending ho hmodified
  rw [hauthority] at hactive
  exact ⟨s₀, s₁, s, o, t, hs₀, hs₁, hs, ho, ht, hactive⟩

/-- The other projection is made the edited one while a save waits for its reload. It goes on to
show the text of before the save. -/
theorem text_left_old_by_reload :
    ∃ s, s = (start (ArchiveMap.ofList [("a", Utf8.encode "routine 5\n    a\n")])
        (⟨∅, ()⟩ : Ledger Unit)).after Listing.compiler
        [.newEditor, .editor 0 (.openScript "a"), .ask (.openInEngine "a"),
          .editor 0 (.insertLines "a" .primary 1 ["    b"]), .editor 0 (.save "a"),
          .ask (.setAuthority "a" .derived), .ask (.closeInEngine "a"), .editor 0 .runPending] ∧
      (s.inbox 0).isEmpty = true ∧
      (s.shown 0 "a").map (fun o ↦ (o.authority, o.buffer.modified, o.buffer.text)) =
        some (.derived, false, "// derived view\nroutine 5\n    a\n") ∧
      s.workspace.scripts["a"]?.map (fun t ↦ (t.hasPending, (t.active.get .derived).text)) =
        some (false, "// derived view\nroutine 5\n    b\n    a\n") := by
  refine ⟨_, rfl, ?_, ?_, ?_⟩ <;> decide +kernel

end Session

end ScriptBreakpoints
