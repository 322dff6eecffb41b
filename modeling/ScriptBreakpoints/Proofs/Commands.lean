import ScriptBreakpoints.Compiler.Listing
import ScriptBreakpoints.Proofs.Expecting

namespace ScriptBreakpoints

open Fallible Workspace

inductive Owner
  | seat (i : Nat)
  | listener (name : String)

namespace Session

variable {σ τ α : Type}

def boxOf (s : Session σ τ) : Owner → Option Mailbox
  | .seat i => s.seats[i]?.map (·.inbox)
  | .listener name => s.listeners[name]?

structure Manned (s : Session σ τ) : Prop where
  orderly : s.workspace.Orderly
  housed {p : Owner} {box : Mailbox} : s.boxOf p = some box → box < s.workspace.mail.length
  apart {p q : Owner} {box : Mailbox} : s.boxOf p = some box → s.boxOf q = some box → p = q
  seated {i : Nat} {box : Mailbox} {e : Editor} : s.seats[i]? = some ⟨box, some e⟩ →
    e.inbox = box ∧ s.workspace.Attends box

variable {s : Session σ τ} {i j : Nat} {e e' : Editor}

theorem boxOf_seat {seat : Seat} (h : s.seats[i]? = some seat) :
    s.boxOf (.seat i) = some seat.inbox := by
  rw [boxOf, h, Option.map_some]

theorem seats_of_editorAt (h : s.editorAt i = some e) :
    ∃ box, s.seats[i]? = some ⟨box, some e⟩ := by
  obtain ⟨⟨box, _⟩, hseat, rfl⟩ := Option.bind_eq_some_iff.1 h
  exact ⟨box, hseat⟩

theorem atSeat_gone (hi : s.editorAt i = none)
    (x : EditorAction (Refusing ArchiveCall σ) (Refusing StoreCall τ) Reply) :
    s.atSeat i x = (.ok .stopped, s) := by
  unfold editorAt at hi
  unfold atSeat
  split
  · next hseat =>
    rw [hseat] at hi
    cases hi
  · rfl

namespace Manned

theorem seat (h : s.Manned) (hi : s.editorAt i = some e) :
    s.seats[i]? = some ⟨e.inbox, some e⟩ := by
  obtain ⟨box, hseat⟩ := seats_of_editorAt hi
  rw [(h.seated hseat).1, hseat]

theorem attends (h : s.Manned) (hi : s.editorAt i = some e) : s.workspace.Attends e.inbox :=
  (h.seated (h.seat hi)).2

theorem apart_seats (h : s.Manned) (hi : s.editorAt i = some e) (hj : s.editorAt j = some e')
    (hne : i ≠ j) : e.inbox ≠ e'.inbox := by
  intro heq
  have hsame := h.apart (boxOf_seat (h.seat hi)) (heq ▸ boxOf_seat (h.seat hj))
  exact hne (Owner.seat.inj hsame)

end Manned

variable [BreakpointStore τ] [LawfulStore τ] {c : Compiler} {file : String} {w : Refusable σ τ}

/-- If the editor at seat `i` has a script open, it expects the reload that the script waits for. -/
structure Alert (i : Nat) (file : String) (s : Session σ τ) : Prop extends Manned s where
  expects {e : Editor} {o : OpenScript} : s.editorAt i = some e → e.scripts[file]? = some o →
    o.Expects (s.workspace.aspect file e.inbox)

namespace Alert

theorem desk (h : s.Alert i file) (hi : s.editorAt i = some e) :
    ScriptBreakpoints.Desk.Alert file (⟨e, s.workspace⟩ : Session.Desk σ τ) :=
  ⟨h.orderly, h.attends hi, h.expects hi⟩

theorem work (h : s.Alert i file) (horderly : w.Orderly)
    (hlength : w.mail.length = s.workspace.mail.length)
    (hattends : ∀ {j : Nat} {e : Editor}, s.editorAt j = some e →
      s.workspace.Attends e.inbox → w.Attends e.inbox)
    (hexpects : ∀ {e : Editor} {o : OpenScript}, s.editorAt i = some e →
      e.scripts[file]? = some o → o.Expects (s.workspace.aspect file e.inbox) →
        o.Expects (w.aspect file e.inbox)) :
    ({ s with workspace := w } : Session σ τ).Alert i file where
  orderly := horderly
  housed hp := Nat.lt_of_lt_of_eq (h.housed hp) hlength.symm
  apart hp hq := h.apart hp hq
  seated {j box e} hj := by
    have hj : s.seats[j]? = some ⟨box, some e⟩ := hj
    obtain ⟨rfl, hbox⟩ := h.seated hj
    have he : s.editorAt j = some e := by rw [editorAt, hj, Option.bind_some]
    exact ⟨rfl, hattends he hbox⟩
  expects he ho := hexpects he ho (h.expects he ho)

theorem passes (h : s.Alert i file) (hw : s.workspace.Passes c (fun _ ↦ True) w) :
    ({ s with workspace := w } : Session σ τ).Alert i file :=
  h.work hw.orderly hw.length (fun _ ↦ hw.attends) fun he _ hexpects ↦
    hexpects.passes (hw.passes file trivial (h.attends he))

theorem frame (h : s.Alert i file) (hscripts : w.scripts = s.workspace.scripts)
    (hlisteners : w.listeners = s.workspace.listeners) (hmail : w.mail = s.workspace.mail) :
    ({ s with workspace := w } : Session σ τ).Alert i file := by
  have haudience (file : String) : w.audience file = s.workspace.audience file := by
    rw [audience, hlisteners, audience]
  refine h.work ⟨fun {f t} ↦ ?_, fun f ↦ ?_⟩ (by rw [hmail]) (fun _ hbox ↦ ?_)
    fun {e o} _ _ hexpects ↦ ?_
  · rw [hscripts]
    exact h.orderly.named
  · rw [haudience]
    exact h.orderly.listed f
  · rw [Attends, hmail]
    exact hbox
  · have haspect : w.aspect file e.inbox = { s.workspace.aspect file e.inbox with
        armed := LawfulStore.armed w.store file } := by
      simp only [aspect, hscripts, haudience, waiting, hmail]
    rw [haspect]
    exact OpenScript.Expects.indifferent.told hexpects rfl rfl rfl

theorem listen (h : s.Alert i file) (subject : String) (box : Mailbox) :
    ({ s with workspace := ((Workspace.listen subject box : Action _ _ Unit).outcome
      s.workspace).2 } : Session σ τ).Alert i file := by
  have horderly := h.orderly.listen subject box
  have haspect (reader : Mailbox) := aspect_listen subject file box reader s.workspace
  have hreach (h : (s.workspace.aspect subject box).reach = 1) := listen_of_reach h
  obtain ⟨listeners, ho⟩ := listen_outcome subject box s.workspace
  rw [ho] at horderly hreach
  simp only [ho] at haspect ⊢
  refine h.work horderly rfl (fun _ ↦ id) fun {e o} he _ hexpects ↦ ?_
  by_cases hsame : file = subject ∧ e.inbox = box
  · obtain ⟨rfl, rfl⟩ := hsame
    have hunchanged := hreach hexpects.reach
    dsimp only at hunchanged
    rw [hunchanged]
    exact hexpects
  · rw [haspect e.inbox (not_and_or.1 hsame)]
    exact hexpects

theorem unlisten (h : s.Alert i file) {subject : String} {box : Mailbox}
    (hne : ∀ {e : Editor}, s.editorAt i = some e → file ∈ e.scripts →
      file ≠ subject ∨ e.inbox ≠ box) :
    ({ s with workspace := ((Workspace.unlisten subject box : Action _ _ Unit).outcome
      s.workspace).2 } : Session σ τ).Alert i file := by
  have horderly := h.orderly.unlisten subject box
  have haspect (reader : Mailbox) := aspect_unlisten subject file box reader s.workspace
  obtain ⟨listeners, ho⟩ := unlisten_outcome subject box s.workspace
  rw [ho] at horderly
  simp only [ho] at haspect ⊢
  refine h.work horderly rfl (fun _ ↦ id) fun {e o} he ho' hexpects ↦ ?_
  have hopen : file ∈ e.scripts := by
    rw [Std.ExtTreeMap.mem_iff_isSome_getElem?, ho']
    rfl
  rw [haspect e.inbox (hne he hopen)]
  exact hexpects

theorem post (h : s.Alert i file) (box : Mailbox) (m : Message) :
    ({ s with workspace := ((Workspace.post box m : Action _ _ Bool).outcome s.workspace).2 } :
      Session σ τ).Alert i file := by
  obtain ⟨sent, ho⟩ := post_fills box m s.workspace
  rw [ho]
  refine h.work ⟨h.orderly.named, h.orderly.listed⟩ (List.length_modify ..)
    (fun _ ↦ attends_fill m) fun {e o} he _ hexpects ↦ ?_
  have hmore := hexpects.more ((if box = e.inbox then [m] else []).filter (·.isAbout file))
  rw [aspect, ← List.filter_append, ← waiting_fill m (h.attends he)] at hmore
  exact hmore

theorem setMail (h : s.Alert i file) {box : Mailbox} (f : Channel Message → Channel Message)
    (hbox : ∀ {j : Nat} {e : Editor}, s.editorAt j = some e → box ≠ e.inbox) :
    (s.setMail box f).Alert i file := by
  have hmail {j : Nat} {e : Editor} (hj : s.editorAt j = some e) :
      (s.workspace.mail.modify box f)[e.inbox]? = s.workspace.mail[e.inbox]? := by
    rw [List.getElem?_modify_ne _ _ (hbox hj)]
  refine h.work ⟨h.orderly.named, h.orderly.listed⟩ (List.length_modify ..)
    (fun hj hattends ↦ ?_) fun {e o} he _ hexpects ↦ ?_
  · rw [Attends, hmail hj]
    exact hattends
  · have haspect : ({ s.workspace with mail := s.workspace.mail.modify box f } :
        Refusable σ τ).aspect file e.inbox = s.workspace.aspect file e.inbox :=
      aspect_congr rfl rfl rfl (hmail he)
    rw [haspect]
    exact hexpects

theorem setMail_listener (h : s.Alert i file) {name : String} {box : Mailbox}
    (hname : s.listeners[name]? = some box) (f : Channel Message → Channel Message) :
    (s.setMail box f).Alert i file := by
  refine h.setMail f fun hj heq ↦ ?_
  have howner := h.apart (q := .listener name) (heq ▸ boxOf_seat (h.seat hj)) hname
  cases howner

theorem put (h : s.Alert i file) (hj : s.seats[j]? = some ⟨e.inbox, some e⟩) {d : Session.Desk σ τ}
    (hd : ScriptBreakpoints.Desk.Minds c ⟨e, s.workspace⟩ d) : (s.put j d).Alert i file := by
  have hboxes (p : Owner) : (s.put j d).boxOf p = s.boxOf p := by
    cases p with
    | listener name => rfl
    | seat k =>
      by_cases hk : k = j
      · rw [hk, boxOf_seat (seats_put_self hj), boxOf_seat hj, hd.inbox]
      · rw [boxOf, seats_put_of_ne hk, boxOf]
  have hbox := (h.seated hj).2
  refine ⟨⟨hd.passes.orderly, fun {p box} hp ↦ ?_, fun {p q box} hp hq ↦ ?_,
    fun {k box e'} hk ↦ ?_⟩, fun {e' o} he ho ↦ ?_⟩
  · rw [hboxes] at hp
    exact Nat.lt_of_lt_of_eq (h.housed hp) hd.passes.length.symm
  · rw [hboxes] at hp hq
    exact h.apart hp hq
  · by_cases hkj : k = j
    · subst hkj
      rw [seats_put_self hj] at hk
      cases hk
      refine ⟨rfl, ?_⟩
      rw [hd.inbox]
      exact hd.passes.attends hbox
    · rw [seats_put_of_ne hkj] at hk
      exact ⟨(h.seated hk).1, hd.passes.attends (h.seated hk).2⟩
  · have hej : s.editorAt j = some e := by rw [editorAt, hj, Option.bind_some]
    by_cases hij : i = j
    · subst hij
      rw [editorAt, seats_put_self hj] at he
      cases he
      exact (hd.alert (h.desk hej)).expects ho
    · rw [editorAt, seats_put_of_ne hij] at he
      exact (h.expects he ho).passes
        (hd.passes.passes file (h.apart_seats he hej hij) (h.attends he))

theorem atSeat (h : s.Alert i file) (j : Nat)
    {x : EditorAction (Refusing ArchiveCall σ) (Refusing StoreCall τ) Reply}
    (hx : Mindful c x) : (s.atSeat j x).2.Alert i file := by
  unfold Session.atSeat
  split
  · next box e hj =>
    obtain ⟨rfl, -⟩ := h.seated hj
    have hminds := hx ⟨e, s.workspace⟩ h.orderly
    have hput := h.put hj hminds
    rw [Session.put, hminds.inbox] at hput
    exact hput
  · exact h

theorem leave (h : s.Alert i file) (j : Nat) : (s.leave j).Alert i file := by
  unfold Session.leave
  split
  · next seat hj =>
    have hlt := (List.getElem?_eq_some_iff.1 hj).1
    have hold {k : Nat} {e : Editor} {box : Mailbox}
        (hk : (s.seats.set j { seat with editor := none })[k]? = some ⟨box, some e⟩) :
        k ≠ j ∧ s.seats[k]? = some ⟨box, some e⟩ := by
      by_cases hkj : k = j
      · rw [hkj, List.getElem?_set_self hlt] at hk
        cases hk
      · rw [List.getElem?_set_ne (Ne.symm hkj)] at hk
        exact ⟨hkj, hk⟩
    have hboxes (p : Owner) : ({ s with seats := s.seats.set j { seat with editor := none } } :
        Session σ τ).boxOf p = s.boxOf p := by
      cases p with
      | listener name => rfl
      | seat k =>
        by_cases hkj : k = j
        · rw [hkj, boxOf_seat hj, boxOf, List.getElem?_set_self hlt, Option.map_some]
        · rw [boxOf, List.getElem?_set_ne (Ne.symm hkj), boxOf]
    -- first the editor leaves its seat, and then nobody is left whose mailbox it was
    have hvacant : ({ s with seats := s.seats.set j { seat with editor := none } } :
        Session σ τ).Alert i file := by
      refine ⟨⟨h.orderly, fun {p box} hp ↦ ?_, fun {p q box} hp hq ↦ ?_,
        fun hk ↦ h.seated (hold hk).2⟩, fun {e o} he ho ↦ ?_⟩
      · rw [hboxes] at hp
        exact h.housed hp
      · rw [hboxes] at hp hq
        exact h.apart hp hq
      · obtain ⟨box, hi⟩ := seats_of_editorAt he
        exact h.expects (by rw [editorAt, (hold hi).2, Option.bind_some]) ho
    refine hvacant.setMail .close fun {k e} hk heq ↦ ?_
    obtain ⟨box, hk⟩ := seats_of_editorAt hk
    obtain ⟨hkj, hk⟩ := hold hk
    obtain ⟨rfl, -⟩ := h.seated hk
    have hbox := boxOf_seat hj
    rw [heq] at hbox
    exact hkj (Owner.seat.inj (h.apart (boxOf_seat hk) hbox))
  · exact h

theorem grow {s' : Session σ τ} (h : s.Alert i file) (owner : Owner)
    (hmail : s'.workspace = { s.workspace with mail := s.workspace.mail ++ [.new] })
    (hboxes : ∀ {p : Owner} {box : Mailbox}, s'.boxOf p = some box →
      s.boxOf p = some box ∨ p = owner ∧ box = s.workspace.mail.length)
    (hseats : ∀ {j : Nat} {box : Mailbox} {e : Editor}, s'.seats[j]? = some ⟨box, some e⟩ →
      s.seats[j]? = some ⟨box, some e⟩ ∨ e = { inbox := box } ∧ box = s.workspace.mail.length) :
    s'.Alert i file := by
  have hold {box : Mailbox} (hbox : box < s.workspace.mail.length) :
      s'.workspace.mail[box]? = s.workspace.mail[box]? := by
    rw [hmail, List.getElem?_append_left hbox]
  have hlength : s'.workspace.mail.length = s.workspace.mail.length + 1 := by
    rw [hmail, List.length_append, List.length_singleton]
  refine ⟨⟨?_, fun {p box} hp ↦ ?_, fun {p q box} hp hq ↦ ?_, fun {j box e} hj ↦ ?_⟩,
    fun {e o} he ho ↦ ?_⟩
  · rw [hmail]
    exact ⟨h.orderly.named, h.orderly.listed⟩
  · rw [hlength]
    obtain hp | ⟨-, rfl⟩ := hboxes hp
    · exact Nat.lt_succ_of_lt (h.housed hp)
    · exact Nat.lt_succ_self _
  · obtain hp | ⟨rfl, rfl⟩ := hboxes hp <;> obtain hq | ⟨rfl, hnew⟩ := hboxes hq
    · exact h.apart hp hq
    · exact absurd hnew (Nat.ne_of_lt (h.housed hp))
    · exact absurd rfl (Nat.ne_of_lt (h.housed hq))
    · rfl
  · obtain hj | ⟨rfl, rfl⟩ := hseats hj
    · obtain ⟨hinbox, hattends⟩ := h.seated hj
      refine ⟨hinbox, ?_⟩
      rw [Attends, hold (h.housed (boxOf_seat hj))]
      exact hattends
    · refine ⟨rfl, [], ?_⟩
      rw [hmail, List.getElem?_concat_length]
      rfl
  · obtain ⟨box, hi⟩ := seats_of_editorAt he
    obtain hi | ⟨rfl, -⟩ := hseats hi
    · obtain ⟨rfl, hattends⟩ := h.seated hi
      have haspect : s'.workspace.aspect file e.inbox = s.workspace.aspect file e.inbox :=
        aspect_congr (by rw [hmail]) (by rw [hmail]) (by rw [hmail]; rfl)
          (hold (h.housed (boxOf_seat hi)))
      rw [haspect]
      exact h.expects (by rw [editorAt, hi, Option.bind_some]) ho
    · cases Std.ExtTreeMap.getElem?_empty.symm.trans ho

theorem newEditor (h : s.Alert i file) : s.newEditor.Alert i file := by
  refine h.grow (.seat s.seats.length) rfl (fun {p box} hp ↦ ?_) fun {j box e} hj ↦ ?_
  · cases p with
    | listener name => exact .inl hp
    | seat j =>
      obtain ⟨seat, hj, rfl⟩ := Option.map_eq_some_iff.1 hp
      obtain hj | ⟨rfl, rfl⟩ := seats_newEditor hj
      · exact .inl (boxOf_seat hj)
      · exact .inr ⟨rfl, rfl⟩
  · obtain hj | ⟨-, hnew⟩ := seats_newEditor hj
    · exact .inl hj
    · cases hnew
      exact .inr ⟨rfl, rfl⟩

theorem mailboxOf (h : s.Alert i file) (name : String) : (s.mailboxOf name).2.Alert i file := by
  unfold Session.mailboxOf
  split
  · exact h
  · refine h.grow (.listener name) rfl (fun {p box} hp ↦ ?_) fun hj ↦ .inl hj
    cases p with
    | seat j => exact .inl hp
    | listener other =>
      by_cases hother : other = name
      · subst hother
        rw [boxOf, Std.ExtTreeMap.getElem?_insert_self] at hp
        exact .inr ⟨rfl, (Option.some.inj hp).symm⟩
      · rw [boxOf, getElem?_insert_of_ne hother] at hp
        exact .inl hp

omit [BreakpointStore τ] [LawfulStore τ] in
theorem reply_outcome (x : Fallible (Refusable σ τ) α) (f : α → Reply) (s : Session σ τ) :
    (s.reply (x >>= fun a ↦ pure (f a))).2 =
      { s with workspace := (x.outcome s.workspace).2 } := by
  simp only [reply, act, outcome_bind_pure]

theorem reply (h : s.Alert i file) {x : Fallible (Refusable σ τ) Reply}
    (hx : Keeps (fun w ↦ s.workspace.Passes c (fun _ ↦ True) w) x) :
    (s.reply x).2.Alert i file :=
  h.passes (hx s.workspace (.refl h.orderly))

theorem withInbox (h : s.Alert i file) (j : Nat)
    {x : Mailbox → Fallible (Refusable σ τ) Reply}
    (hx : ∀ seat, s.seats[j]? = some seat → (s.reply (x seat.inbox)).2.Alert i file) :
    (s.withInbox j x).2.Alert i file := by
  unfold Session.withInbox
  split
  · next seat hj => exact hx seat hj
  · exact h

theorem opening (h : s.Alert i file) (l : Letter) {use : Message → Step σ τ}
    (hu : ∀ m, (use m s).2.Alert i file) : (s.opening l use).2.Alert i file := by
  unfold Session.opening
  split
  · exact hu _
  · exact h

end Alert

section Passing

variable {w₀ : Refusable σ τ}

theorem keeps_note (n : Notice) :
    Keeps (fun w ↦ w₀.Passes c (fun _ ↦ True) w) (note n : Action _ _ Unit) :=
  fun _ hw ↦ ⟨⟨hw.orderly.named, hw.orderly.listed⟩, hw.length, hw.attends, hw.passes⟩

variable [Archive σ]

theorem keeps_ask (r : Request) :
    Keeps (fun w ↦ w₀.Passes c (fun _ ↦ True) w) (r.perform c) :=
  fun _ hw ↦ hw.ask r

end Passing

namespace Alert

variable [Archive σ]

theorem run (h : s.Alert i file) (j : Nat) : (s.run c j).2.Alert i file := by
  unfold Session.run
  split
  · have hposted : (s.withInbox j fun box ↦ do
        let _ ← Workspace.post box .shutdown
        return .done).2.Alert i file := h.withInbox j fun seat _ ↦ by
      rw [reply_outcome]
      exact h.post seat.inbox .shutdown
    exact (hposted.atSeat j ((Mindful.run c).bind fun _ ↦ .pure _)).leave j
  · exact h

theorem reportUnreceived (h : s.Alert i file) (ds : List Draft) :
    (s.reportUnreceived c ds).2.Alert i file := by
  have hall : Keeps (fun w ↦ s.workspace.Passes c (fun _ ↦ True) w) (ds.mapM (send c)) :=
    .mapM fun d ↦ keeps_send (fun _ ↦ keeps_ask _) d
  have hsend := h.passes (hall s.workspace (.refl h.orderly))
  unfold Session.reportUnreceived act
  generalize (ds.mapM (send c)).outcome s.workspace = o at hsend ⊢
  rcases o with ⟨_ | reports, w⟩
  · exact hsend
  · exact ⟨⟨hsend.orderly, hsend.housed, hsend.apart, hsend.seated⟩, hsend.expects⟩

/-- An editor misses no reload by any command that does not take it off the list of those who listen
to what it has open. -/
theorem step (h : s.Alert i file) (cmd : Command)
    (hcmd : cmd = .editorUnlisten i file → s.shown i file = none) :
    (s.step c cmd).2.Alert i file := by
  cases cmd with
  | ask r => exact h.reply (keeps_ask r)
  | report d =>
    exact h.reply ((keeps_send (fun _ ↦ keeps_ask _) d).bind fun r ↦
      (keeps_report (fun _ ↦ keeps_ask _) r).bind fun _ ↦ .pure _)
  | reports ds =>
    refine h.reply ((Keeps.mapM fun d ↦ keeps_send (fun _ ↦ keeps_ask _) d).bind fun rs ↦ ?_)
    exact (keeps_reports (fun _ ↦ keeps_ask _) keeps_note rs).bind fun _ ↦ .pure _
  | unreceived ds => exact h.reportUnreceived ds
  | sendUnloaded f =>
    simp only [Session.step, sendUnloaded]
    split
    · exact h
    · exact ⟨⟨h.orderly, h.housed, h.apart, h.seated⟩, h.expects⟩
  | listen f name =>
    simp only [Session.step, reply_outcome]
    exact (h.mailboxOf name).listen f _
  | unlisten f name =>
    simp only [Session.step]
    split
    · next box hname =>
      rw [reply_outcome]
      refine h.unlisten fun {e} he _ ↦ .inr fun heq ↦ ?_
      have howner := h.apart (q := .listener name) (boxOf_seat (h.seat he)) (heq ▸ hname)
      cases howner
    · exact h
  | drain name =>
    simp only [Session.step, drain]
    split
    · exact h
    · next hname => exact h.setMail_listener hname _
  | dropInbox name =>
    simp only [Session.step]
    split
    · next hname => exact h.setMail_listener hname _
    · exact h
  | refuse call answers => cases call <;> exact h.frame rfl rfl rfl
  | storeAdd f a => exact h.frame rfl rfl rfl
  | storeRemove f a => exact h.frame rfl rfl rfl
  | storeResync f as => exact h.frame rfl rfl rfl
  | storeList f => exact h.frame rfl rfl rfl
  | archiveRead f => exact h.frame rfl rfl rfl
  | archiveWrite f bytes => exact h.frame rfl rfl rfl
  | newEditor => exact h.newEditor
  | post j l =>
    refine h.opening l fun m ↦ h.withInbox j fun seat _ ↦ ?_
    rw [reply_outcome]
    exact h.post seat.inbox m
  | handle j l =>
    simp only [Session.step, Session.handle]
    split
    · exact h.opening l fun m ↦ h.atSeat j ((Mindful.handle c m).bind fun _ ↦ .pure _)
    · exact h
  | isSame j other => exact h
  | editorListen j f =>
    refine h.withInbox j fun seat _ ↦ ?_
    rw [reply_outcome]
    exact h.listen f seat.inbox
  | editorUnlisten j f =>
    refine h.withInbox j fun seat hj ↦ ?_
    rw [reply_outcome]
    refine h.unlisten fun {e} he hopen ↦ ?_
    by_cases hsame : file = f ∧ i = j
    · obtain ⟨rfl, rfl⟩ := hsame
      have hclosed := hcmd rfl
      rw [shown, he, Option.bind_some] at hclosed
      rw [Std.ExtTreeMap.mem_iff_isSome_getElem?, hclosed] at hopen
      cases hopen
    · refine (not_and_or.1 hsame).imp_right fun hij heq ↦ hij ?_
      have hbox := boxOf_seat hj
      rw [← heq] at hbox
      exact Owner.seat.inj (h.apart (boxOf_seat (h.seat he)) hbox)
  | run j => exact h.run j
  | drop j => exact h.leave j
  | editor j r => exact h.atSeat j (Mindful.perform c r)

end Alert

inductive Event
  | command (cmd : Command)
  | next (i : Nat)

/-- Nobody takes the editor at seat `i` off the list of those who listen to a script while it has
the script open. -/
def LeavesListed (i : Nat) (file : String) (s : Session σ τ) (e : Event) : Prop :=
  e = .command (.editorUnlisten i file) → s.shown i file = none

section Runs

variable [Archive σ]

def undergo (c : Compiler) (s : Session σ τ) : Event → Session σ τ
  | .command cmd => (s.step c cmd).2
  | .next i => (s.move c (.next i)).2

/-- The sessions that come of `s₀` by events that are `allowed` where they happen. -/
inductive Reaches (c : Compiler) (allowed : Session σ τ → Event → Prop) (s₀ : Session σ τ) :
    Session σ τ → Prop
  | start : Reaches c allowed s₀ s₀
  | event {s : Session σ τ} {e : Event} : Reaches c allowed s₀ s → allowed s e →
      Reaches c allowed s₀ (s.undergo c e)

omit [LawfulStore τ] in
theorem reaches_foldl {allowed : Session σ τ → Event → Prop} {es : List Event} {s₀ : Session σ τ}
    (hs : Reaches c allowed s₀ s) (hes : ∀ e ∈ es, ∀ s, allowed s e) :
    Reaches c allowed s₀ (es.foldl (undergo c) s) := by
  induction es generalizing s with
  | nil => exact hs
  | cons e es ih =>
    have hhead := hes e List.mem_cons_self s
    exact ih (hs.event hhead) fun e he ↦ hes e (List.mem_cons_of_mem _ he)

omit [Archive σ] in
theorem Alert.start (archive : σ) (store : τ) :
    (Session.start archive store).Alert i file where
  orderly := (sound_start archive store).orderly
  housed {p box} hp := by
    cases p with
    | seat j => cases hp
    | listener name => cases Std.ExtTreeMap.getElem?_empty.symm.trans hp
  apart {p q box} hp _ := by
    cases p with
    | seat j => cases hp
    | listener name => cases Std.ExtTreeMap.getElem?_empty.symm.trans hp
  seated hj := by cases hj
  expects he _ := by cases he

theorem Alert.undergo (h : s.Alert i file) {e : Event} (he : s.LeavesListed i file e) :
    (s.undergo c e).Alert i file := by
  cases e with
  | command cmd => exact h.step cmd fun hcmd ↦ he (congrArg Event.command hcmd)
  | next j => exact h.atSeat j ((Mindful.handleNext c).bind fun _ ↦ .pure _)

theorem Reaches.alert {archive : σ} {store : τ}
    (hs : Reaches c (LeavesListed i file) (Session.start archive store) s) : s.Alert i file := by
  induction hs with
  | start => exact .start archive store
  | event _ he ih => exact ih.undergo he

/-- No editor waits for a reload that has happened. Whatever is done to the workspace, to editors,
to storage and to mail: if an editor that listens to what it has open handled all its mail, and it
still waits for a reload, then the reload is still to come. -/
theorem waits_for_pending (c : Compiler) (archive : σ) (store : τ)
    (hs : Reaches c (LeavesListed i file) (Session.start archive store) s)
    (he : s.editorAt i = some e) (hinbox : s.inbox i = []) (hwaiting : e.isWaiting file = true) :
    ∃ t, s.workspace.scripts[file]? = some t ∧ t.hasPending = true := by
  obtain ⟨o, ho, hwaiting⟩ := (Option.any_eq_true _ _).1 hwaiting
  have hmail : (s.workspace.aspect file e.inbox).mail = [] := by
    have hqueue : s.workspace.waiting e.inbox = [] := by
      rw [inbox, he] at hinbox
      exact hinbox
    rw [aspect, hqueue, List.filter_nil]
  obtain hpending | hreload := (hs.alert.expects he ho).due hwaiting
  · exact hpending
  · rw [hmail] at hreload
    exact absurd rfl hreload

end Runs

/-- The engine holds the script, so that the reload after a save has to wait. Another editor is
taken off the list. -/
theorem waits_for_pending_after_save :
    ∃ s e t, s = ([.command .newEditor, .command .newEditor,
        .command (.editor 0 (.openScript "a")), .command (.editor 1 (.openScript "a")),
        .command (.ask (.openInEngine "a")),
        .command (.editor 0 (.insertLines "a" .primary 1 ["    b"])),
        .command (.editor 0 (.save "a")), .command (.editorUnlisten 1 "a")] : List Event).foldl
        (undergo Listing.compiler) (Session.start (ArchiveMap.ofList
          [("a", Utf8.encode "routine 5\n    a\n")]) (⟨∅, ()⟩ : Ledger Unit)) ∧
      s.editorAt 0 = some e ∧ s.inbox 0 = [] ∧ e.isWaiting "a" = true ∧
      s.workspace.scripts["a"]? = some t ∧ t.hasPending = true := by
  obtain ⟨s, hs⟩ : ∃ s, s = ([.command .newEditor, .command .newEditor,
      .command (.editor 0 (.openScript "a")), .command (.editor 1 (.openScript "a")),
      .command (.ask (.openInEngine "a")),
      .command (.editor 0 (.insertLines "a" .primary 1 ["    b"])),
      .command (.editor 0 (.save "a")), .command (.editorUnlisten 1 "a")] : List Event).foldl
      (undergo Listing.compiler) (Session.start (ArchiveMap.ofList
        [("a", Utf8.encode "routine 5\n    a\n")]) (⟨∅, ()⟩ : Ledger Unit)) := ⟨_, rfl⟩
  have hinbox : (s.inbox 0).isEmpty = true := by
    rw [hs]
    decide +kernel
  have hwaiting : (s.editorAt 0).map (·.isWaiting "a") = some true := by
    rw [hs]
    decide +kernel
  have hrun : Reaches Listing.compiler (LeavesListed 0 "a") (Session.start (ArchiveMap.ofList
      [("a", Utf8.encode "routine 5\n    a\n")]) (⟨∅, ()⟩ : Ledger Unit)) s := by
    rw [hs]
    refine reaches_foldl .start fun e he s hlisted ↦ ?_
    subst hlisted
    simp at he
  obtain ⟨e, he, hwaiting⟩ := Option.map_eq_some_iff.1 hwaiting
  obtain ⟨t, ht, hpending⟩ := waits_for_pending Listing.compiler _ _ hrun he
    (List.isEmpty_iff.1 hinbox) hwaiting
  exact ⟨s, e, t, hs, he, List.isEmpty_iff.1 hinbox, hwaiting, ht, hpending⟩

/-- An editor that was taken off the list does not hear of the reload that it waits for. -/
theorem waits_for_past_reload_unlisted :
    ∃ s e t, s = ([.command .newEditor, .command (.editor 0 (.openScript "a")),
        .command (.ask (.openInEngine "a")),
        .command (.editor 0 (.insertLines "a" .primary 1 ["    b"])),
        .command (.editor 0 (.save "a")), .command (.editorUnlisten 0 "a"),
        .command (.ask (.closeInEngine "a"))] : List Event).foldl
        (undergo Listing.compiler) (Session.start (ArchiveMap.ofList
          [("a", Utf8.encode "routine 5\n    a\n")]) (⟨∅, ()⟩ : Ledger Unit)) ∧
      s.editorAt 0 = some e ∧ s.inbox 0 = [] ∧ e.isWaiting "a" = true ∧
      s.workspace.scripts["a"]? = some t ∧ t.hasPending = false := by
  obtain ⟨s, hs⟩ : ∃ s, s = ([.command .newEditor, .command (.editor 0 (.openScript "a")),
      .command (.ask (.openInEngine "a")),
      .command (.editor 0 (.insertLines "a" .primary 1 ["    b"])),
      .command (.editor 0 (.save "a")), .command (.editorUnlisten 0 "a"),
      .command (.ask (.closeInEngine "a"))] : List Event).foldl
      (undergo Listing.compiler) (Session.start (ArchiveMap.ofList
        [("a", Utf8.encode "routine 5\n    a\n")]) (⟨∅, ()⟩ : Ledger Unit)) := ⟨_, rfl⟩
  have hinbox : (s.inbox 0).isEmpty = true := by
    rw [hs]
    decide +kernel
  have hwaiting : (s.editorAt 0).map (·.isWaiting "a") = some true := by
    rw [hs]
    decide +kernel
  have hpending : s.workspace.scripts["a"]?.map (·.hasPending) = some false := by
    rw [hs]
    decide +kernel
  obtain ⟨e, he, hwaiting⟩ := Option.map_eq_some_iff.1 hwaiting
  obtain ⟨t, ht, hpending⟩ := Option.map_eq_some_iff.1 hpending
  exact ⟨s, e, t, hs, he, List.isEmpty_iff.1 hinbox, hwaiting, ht, hpending⟩

end Session

end ScriptBreakpoints
