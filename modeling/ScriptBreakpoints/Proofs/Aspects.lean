import ScriptBreakpoints.Proofs.Desks
import ScriptBreakpoints.Proofs.Responses

namespace ScriptBreakpoints

open Fallible

/-- What one mailbox can see of one script: the script itself, the breakpoints that are armed in it,
how often a message about it arrives, and the messages about it that wait. -/
structure Aspect where
  script : Option Script
  armed : Std.ExtTreeSet Address
  reach : Nat
  mail : List Message

namespace Aspect

def Finds (file : String) (a : Aspect) (s : Script) : Prop :=
  a.script = some s ∨ a.script = none ∧ ∃ binary views, s = .ofBinary file binary views

theorem Finds.unique {file : String} {a : Aspect} {s t : Script} (h : a.Finds file s)
    (ht : a.script = some t) : s = t := by
  obtain h | ⟨hn, -⟩ := h
  · exact Option.some.inj (h.symm.trans ht)
  · rw [hn] at ht
    cases ht

def grant (c : Compiler) (r : Request) (s : Script) (a : Aspect) : Aspect where
  script := some (s.after (r.turn c s))
  armed := r.rearm c s a.armed
  reach := a.reach
  mail := a.mail ++ (r.posts c s).elim [] (List.replicate a.reach)

inductive Asked (c : Compiler) (r : Request) (a : Aspect) : Aspect → Prop
  | ignored : Asked c r a a
  | found {s : Script} : a.Finds r.file s → Asked c r a { a with script := some s }
  | granted {s : Script} : a.Finds r.file s → Asked c r a (a.grant c r s)

/-- What some requests out of `asked` can make of the aspect. -/
inductive Follows (c : Compiler) (file : String) (asked : Request → Prop) (a : Aspect) :
    Aspect → Prop
  | refl : Follows c file asked a a
  | ask {a₁ a₂ : Aspect} {r : Request} : Follows c file asked a a₁ → r.file = file → asked r →
      Asked c r a₁ a₂ → Follows c file asked a a₂

end Aspect

def Message.isAbout (file : String) (m : Message) : Bool := m.file? = some file

theorem Request.posts_file {c : Compiler} {r : Request} {s : Script} {m : Message}
    (hs : s.file = r.file) (h : r.posts c s = some m) : m.file? = some r.file := by
  have hreload {t : Script} (ht : t.file = s.file) :
      (Message.reload t.reload).file? = some r.file := by
    rw [Message.file?, Script.reload, ht, hs]
  cases r with
  | addBreakpoint file line projection =>
    obtain ⟨a, -, rfl⟩ := Option.map_eq_some_iff.1 h
    rfl
  | addBreakpointAt file a =>
    cases h
    rfl
  | removeBreakpoint file a =>
    cases h
    rfl
  | _ =>
    simp only [posts, Option.ite_none_right_eq_some, Option.some_inj] at h
    obtain ⟨-, rfl⟩ := h
    exact hreload (s.file_after _)

namespace Workspace

variable {σ τ : Type}

def Attends (w : Workspace σ τ) (box : Mailbox) : Prop :=
  ∃ queue, w.mail[box]? = some ⟨queue, true⟩

def waiting (w : Workspace σ τ) (box : Mailbox) : List Message :=
  (w.mail[box]?.map (·.queue)).getD []

theorem attends_fill {w : Workspace σ τ} {box reader : Mailbox} (m : Message)
    (h : w.Attends reader) :
    ({ w with mail := w.mail.modify box (·.fill [m]) } : Workspace σ τ).Attends reader := by
  obtain ⟨queue, hq⟩ := h
  rw [Attends, List.getElem?_modify, hq]
  by_cases hb : box = reader
  · exact ⟨queue ++ [m], by simp [hb, Channel.fill]⟩
  · exact ⟨queue, by simp [hb]⟩

theorem waiting_fill {w : Workspace σ τ} {box reader : Mailbox} (m : Message)
    (h : w.Attends reader) :
    ({ w with mail := w.mail.modify box (·.fill [m]) } : Workspace σ τ).waiting reader =
      w.waiting reader ++ if box = reader then [m] else [] := by
  obtain ⟨queue, hq⟩ := h
  rw [waiting, waiting, List.getElem?_modify, hq]
  by_cases hb : box = reader <;> simp [hb, Channel.fill]

variable [BreakpointStore τ] [LawfulStore τ]

def aspect (file : String) (box : Mailbox) (w : Workspace σ τ) : Aspect where
  script := w.scripts[file]?
  armed := LawfulStore.armed w.store file
  reach := (w.audience file).count box
  mail := (w.waiting box).filter (·.isAbout file)

theorem aspect_congr {file : String} {box : Mailbox} {w w' : Workspace σ τ}
    (hscript : w'.scripts[file]? = w.scripts[file]?)
    (harmed : LawfulStore.armed w'.store file = LawfulStore.armed w.store file)
    (hl : w'.audience file = w.audience file) (hm : w'.mail[box]? = w.mail[box]?) :
    w'.aspect file box = w.aspect file box := by
  rw [aspect, hscript, harmed, hl, waiting, hm]
  rfl

theorem aspect_peeked [Archive σ] {w w' : Workspace σ τ} (hp : Peeks w w')
    (hs : w'.scripts = w.scripts) (file : String) (box : Mailbox) :
    w'.aspect file box = w.aspect file box :=
  aspect_congr (by rw [hs]) (by rw [hp.store]) (by rw [audience, hp.listeners, audience])
    (by rw [hp.mail])

theorem aspect_put {w w' : Workspace σ τ} {file : String} {s : Script}
    (hs : w'.scripts = w.scripts.insert file s) (hsteady : Steady w w') (hm : w'.mail = w.mail)
    (box : Mailbox) : w'.aspect file box =
      { w.aspect file box with script := some s, armed := LawfulStore.armed w'.store file } := by
  simp only [aspect, hs, Std.ExtTreeMap.getElem?_insert_self, audience, hsteady.listeners, waiting,
    hm]

theorem Finds.aspect [Archive σ] {c : Compiler} {w : Workspace σ τ} {file : String} {s : Script}
    {box : Mailbox} (h : Finds c w file s) : (w.aspect file box).Finds file s := by
  cases h with
  | tracked ht => exact .inl ht
  | loaded hn hl =>
    obtain ⟨bytes, views, -, -, rfl⟩ := hl
    exact .inr ⟨hn, _, _, rfl⟩

theorem aspect_listen (file other : String) (box reader : Mailbox) (w : Workspace σ τ)
    (h : other ≠ file ∨ reader ≠ box) :
    ((listen file box : Action σ τ Unit).outcome w).2.aspect other reader =
      w.aspect other reader := by
  have hreach : (((listen file box : Action σ τ Unit).outcome w).2.audience other).count reader =
      (w.audience other).count reader := by
    rw [audience_listen]
    split
    · next hnew =>
      have hne : box ≠ reader := Ne.symm (h.resolve_left fun ho ↦ ho hnew.1)
      rw [List.count_append, List.count_singleton, beq_false_of_ne hne, hnew.1]
      rfl
    · rfl
  obtain ⟨listeners, ho⟩ := listen_outcome file box w
  rw [ho] at hreach ⊢
  rw [aspect, hreach]
  rfl

theorem listen_of_reach {w : Workspace σ τ} {file : String} {box : Mailbox}
    (h : (w.aspect file box).reach = 1) :
    ((listen file box : Action σ τ Unit).outcome w).2 = w := by
  have hcount : 0 < (w.audience file).count box := Nat.lt_of_lt_of_eq Nat.one_pos h.symm
  exact if_pos (List.count_pos_iff.1 hcount)

theorem aspect_unlisten (file other : String) (box reader : Mailbox) (w : Workspace σ τ)
    (h : other ≠ file ∨ reader ≠ box) :
    ((unlisten file box : Action σ τ Unit).outcome w).2.aspect other reader =
      w.aspect other reader := by
  have hreach :
      (((unlisten file box : Action σ τ Unit).outcome w).2.audience other).count reader =
        (w.audience other).count reader := by
    rw [audience_unlisten]
    split
    · next ho =>
      have hne : reader ≠ box := h.resolve_left fun h ↦ h ho
      rw [List.count_filter (by simpa using hne), ho]
    · rfl
  obtain ⟨listeners, ho⟩ := unlisten_outcome file box w
  rw [ho] at hreach ⊢
  rw [aspect, hreach]
  rfl

section Posted

variable {w w' : Workspace σ τ} {box : Mailbox} {file : String} {posted : Option Message}

omit [BreakpointStore τ] [LawfulStore τ] in
theorem attends_posted (hw : w.Attends box)
    (hm : w'.mail = posted.elim w.mail (deliver · (w.audience file) w.mail)) :
    w'.Attends box := by
  obtain ⟨queue, hq⟩ := hw
  cases posted with
  | none => exact ⟨queue, hm ▸ hq⟩
  | some m =>
    rw [Attends, hm, Option.elim_some, getElem?_deliver, hq]
    exact ⟨_, rfl⟩

omit [BreakpointStore τ] [LawfulStore τ] in
theorem waiting_posted (hw : w.Attends box)
    (hm : w'.mail = posted.elim w.mail (deliver · (w.audience file) w.mail)) :
    w'.waiting box =
      w.waiting box ++ posted.elim [] (List.replicate ((w.audience file).count box)) := by
  obtain ⟨queue, hq⟩ := hw
  cases posted with
  | none =>
    rw [Option.elim_none] at hm ⊢
    rw [List.append_nil, waiting, hm, waiting]
  | some m =>
    rw [Option.elim_some] at hm ⊢
    rw [waiting, hm, getElem?_deliver, waiting, hq]
    rfl

end Posted

end Workspace

namespace Request

open Workspace

variable {σ τ : Type} [Archive σ] [BreakpointStore τ] {c : Compiler} {r : Request}
  {w w' : Workspace σ τ} {result : Except Fault Reply} {box : Mailbox}

theorem Response.attends (h : Response c r w result w') (hw : w.Attends box) : w'.Attends box := by
  have hsame (hm : w'.mail = w.mail) : w'.Attends box := by
    rw [Attends, hm]
    exact hw
  cases h with
  | unfound _ hp => exact hsame hp.mail
  | refused _ _ _ hm => exact hsame hm
  | unrestored _ _ _ _ hm => exact hsame hm
  | granted _ _ _ hm => exact attends_posted hw hm

theorem Response.called (h : Response c r w result w') : Called w.store w'.store := by
  cases h with
  | unfound _ hp => exact .of_eq hp.store
  | refused _ _ hsteady => exact hsteady.called
  | unrestored _ _ _ hsteady => exact hsteady.called
  | granted _ _ hsteady => exact hsteady.called

variable [LawfulStore τ]

theorem Response.elsewhere (h : Response c r w result w') (hw : w.Orderly) (hbox : w.Attends box)
    {file : String} (hfile : file ≠ r.file) : w'.aspect file box = w.aspect file box := by
  have hframe {scripts : Std.ExtTreeMap String Script} (hs : w'.scripts = scripts)
      (ht : scripts[file]? = w.scripts[file]?)
      (ha : LawfulStore.armed w'.store file = LawfulStore.armed w.store file)
      (hl : w'.listeners = w.listeners) (hm : w'.mail = w.mail) :
      w'.aspect file box = w.aspect file box :=
    aspect_congr (by rw [hs, ht]) ha (by rw [audience, hl, audience]) (by rw [hm])
  cases h with
  | unfound _ hp hs => exact aspect_peeked hp hs file box
  | refused _ hs hsteady hm ha =>
    exact hframe hs (getElem?_insert_of_ne hfile) (by rw [ha]) hsteady.listeners hm
  | unrestored _ _ hs hsteady hm _ _ ha =>
    exact hframe hs (getElem?_insert_of_ne hfile) (ha _ hfile) hsteady.listeners hm
  | @granted a s w' hf hs hsteady hm ha =>
    have hmail : (w'.waiting box).filter (·.isAbout file) =
        (w.waiting box).filter (·.isAbout file) := by
      rw [waiting_posted hbox hm, List.filter_append]
      cases hp : r.posts c s with
      | none => exact List.append_nil _
      | some m =>
        have hm := posts_file (hw.found hf) hp
        simp [Message.isAbout, hm, Ne.symm hfile]
    rw [aspect, hs, getElem?_insert_of_ne hfile, ha, Function.update_of_ne hfile, audience,
      hsteady.listeners, hmail]
    rfl

section About

variable (hw : w.Orderly) (hbox : w.Attends box)

include hw hbox

theorem aspect_granted {a : Reply} {s : Script} (hf : Workspace.Finds c w r.file s)
    (h : Response c r w (.ok a) w') : w'.aspect r.file box = (w.aspect r.file box).grant c r s := by
  cases h with
  | granted hf' hs hsteady hm ha =>
    obtain rfl := hf.unique hf'
    rename_i s
    have hmail : (w'.waiting box).filter (·.isAbout r.file) =
        (w.waiting box).filter (·.isAbout r.file) ++
          (r.posts c s).elim [] (List.replicate ((w.audience r.file).count box)) := by
      rw [waiting_posted hbox hm, List.filter_append]
      congr 1
      cases hp : r.posts c s with
      | none => rfl
      | some m =>
        have hm := posts_file (hw.found hf) hp
        simp [Message.isAbout, hm]
    have hl : w'.audience r.file = w.audience r.file := by
      rw [audience, hsteady.listeners, audience]
    simp only [aspect, Aspect.grant, hs, Std.ExtTreeMap.getElem?_insert_self, ha,
      Function.update_self, hl, hmail]

omit hw hbox in
theorem aspect_refused {f : Fault} {s : Script} (hs : w.scripts[r.file]? = some s)
    (h : Response c r w (.error f) w')
    (hrestored : r.isSave = true → ∀ t previous e, Called w.store t →
      BreakpointStore.resync r.file previous t ≠ (.error e, w'.store)) :
    w'.aspect r.file box = w.aspect r.file box := by
  cases h with
  | unfound hn =>
    rw [hs] at hn
    cases hn
  | refused hf hscripts hsteady hm ha =>
    obtain rfl := hf.unique (.tracked hs)
    rw [insert_of_getElem? hs] at hscripts
    exact aspect_congr (by rw [hscripts]) (by rw [ha])
      (by rw [audience, hsteady.listeners, audience]) (by rw [hm])
  | unrestored hsave _ _ _ _ hcalled hresync => exact absurd hresync (hrestored hsave _ _ _ hcalled)

omit hw hbox in
/-- All that a request that fails can change of a script that is tracked is what is armed. -/
theorem aspect_failed {f : Fault} {s : Script} (hs : w.scripts[r.file]? = some s)
    (h : Response c r w (.error f) w') : w'.aspect r.file box =
      { w.aspect r.file box with armed := LawfulStore.armed w'.store r.file } := by
  have hsame {t : Script} (hf : Workspace.Finds c w r.file t)
      (hscripts : w'.scripts = w.scripts.insert r.file t) (hsteady : Steady w w')
      (hm : w'.mail = w.mail) : w'.aspect r.file box =
        { w.aspect r.file box with armed := LawfulStore.armed w'.store r.file } := by
    obtain rfl := hf.unique (.tracked hs)
    rw [insert_of_getElem? hs] at hscripts
    simp only [aspect, hscripts, audience, hsteady.listeners, waiting, hm]
  cases h with
  | unfound hn =>
    rw [hs] at hn
    cases hn
  | refused hf hscripts hsteady hm => exact hsame hf hscripts hsteady hm
  | unrestored _ hf hscripts hsteady hm => exact hsame hf hscripts hsteady hm

/-- A request makes of the script that it is about what it has to, if no restoring is refused. -/
theorem Response.asked (h : Response c r w result w')
    (hrestored : r.isSave = true → ∀ t previous e, Called w.store t →
      BreakpointStore.resync r.file previous t ≠ (.error e, w'.store)) :
    (w.aspect r.file box).Asked c r (w'.aspect r.file box) := by
  have hgranted := h
  cases h with
  | unfound _ hp hs =>
    rw [aspect_peeked hp hs]
    exact .ignored
  | @refused f s w' hf hs hsteady hm ha =>
    rw [aspect_put hs hsteady hm, ha]
    exact .found hf.aspect
  | unrestored hsave _ _ _ _ hcalled hresync => exact absurd hresync (hrestored hsave _ _ _ hcalled)
  | granted hf =>
    rw [aspect_granted hw hbox hf hgranted]
    exact .granted hf.aspect

end About

end Request

end ScriptBreakpoints
