import ScriptBreakpoints.Proofs.Moves
import ScriptBreakpoints.Proofs.Parallels

namespace ScriptBreakpoints

open Fallible

def Channel.of (subject : Option String) (c : Channel Message) : Channel Message :=
  { c with queue := c.queue.filter (·.file? = subject) }

section Channels

variable {subject : Option String} {m : Message}

theorem Channel.of_fill (subject : Option String) (ms : List Message) (c : Channel Message) :
    (c.fill ms).of subject = (c.of subject).fill (ms.filter (·.file? = subject)) := by
  cases h : c.isOpen <;> simp [fill, Channel.of, h]

theorem map_of_deliver (hm : m.file? = subject) (boxes : List Mailbox)
    (mail : List (Channel Message)) :
    (deliver m boxes mail).map (·.of subject) = deliver m boxes (mail.map (·.of subject)) := by
  refine List.ext_getElem? fun box ↦ ?_
  simp only [List.getElem?_map, getElem?_deliver, Option.map_map, Function.comp_def,
    Channel.of_fill,
    List.filter_replicate_of_pos (p := fun m : Message ↦ decide (m.file? = subject))
      (by simpa using hm)]

theorem map_of_deliver_other (hm : m.file? ≠ subject) (boxes : List Mailbox)
    (mail : List (Channel Message)) :
    (deliver m boxes mail).map (·.of subject) = mail.map (·.of subject) := by
  refine List.ext_getElem? fun box ↦ ?_
  simp only [List.getElem?_map, getElem?_deliver, Option.map_map, Function.comp_def,
    Channel.of_fill,
    List.filter_replicate_of_neg (p := fun m : Message ↦ decide (m.file? = subject))
      (by simpa using hm), Channel.fill_nil]

theorem map_of_modify (subject : Option String) (box : Mailbox) (ms : List Message)
    (mail : List (Channel Message)) : (mail.modify box (·.fill ms)).map (·.of subject) =
      (mail.map (·.of subject)).modify box (·.fill (ms.filter (·.file? = subject))) := by
  refine List.ext_getElem? fun other ↦ ?_
  simp only [List.getElem?_map, List.getElem?_modify]
  cases mail[other]? with
  | none => rfl
  | some c =>
    by_cases h : box = other
    · simp [h, Channel.of_fill]
    · simp [h]

end Channels

theorem Refusing.ask_of_unrefused {κ σ α : Type} [DecidableEq κ] {r : Refusing κ σ}
    (hr : r.queues = fun _ ↦ []) (k : κ) (call : σ → Except StorageFault α × σ) :
    ask k call r = ((call r.inner).1, { r with inner := (call r.inner).2 }) := by
  have hrefuses : r.refuses k = false := by rw [refuses, hr, List.headD_nil]
  have hqueue : r.setQueue k (r.queues k).tail = r := by
    rw [setQueue, hr, List.tail_nil]
    simp only [ite_self, ← hr]
  rw [ask_of_not_refuses hrefuses, hqueue]

namespace Armed

variable (file other : String) (a : Address) (t : Armed)

theorem getElem?_add? : ((t.add? file a).getD t)[other]? =
    if other = file ∧ a ∉ t[file]?.getD ∅ then some ((t[file]?.getD ∅).insert a)
    else t[other]? := by
  by_cases ha : a ∈ t[file]?.getD ∅
  · rw [add?, if_pos ha, if_neg fun h ↦ h.2 ha, Option.getD_none]
  · rw [add?, if_neg ha, Option.getD_some]
    by_cases ho : other = file
    · rw [if_pos ⟨ho, ha⟩, ho, Std.ExtTreeMap.getElem?_insert_self]
    · rw [if_neg fun h ↦ ho h.1, getElem?_insert_of_ne ho]

theorem getElem?_remove? : ((t.remove? file a).getD t)[other]? =
    if other = file ∧ a ∈ t[file]?.getD ∅ then
      if ((t[file]?.getD ∅).erase a).isEmpty then none else some ((t[file]?.getD ∅).erase a)
    else t[other]? := by
  by_cases ha : a ∈ t[file]?.getD ∅
  · have hremove : (t.remove? file a).getD t =
        if ((t[file]?.getD ∅).erase a).isEmpty then t.erase file
        else t.insert file ((t[file]?.getD ∅).erase a) := by
      rw [remove?, if_neg (not_not.2 ha)]
      split <;> rfl
    rw [hremove]
    by_cases ho : other = file
    · have hin : other = file ∧ a ∈ t[file]?.getD ∅ := ⟨ho, ha⟩
      rw [if_pos hin, ho]
      split
      · exact Std.ExtTreeMap.getElem?_erase_self
      · exact Std.ExtTreeMap.getElem?_insert_self
    · have hout : ¬(other = file ∧ a ∈ t[file]?.getD ∅) := fun h ↦ ho h.1
      rw [if_neg hout]
      split
      · exact getElem?_erase_of_ne ho
      · exact getElem?_insert_of_ne ho
  · rw [remove?, if_pos ha, if_neg fun h ↦ ha h.2, Option.getD_none]

theorem getElem?_resync (as : List Address) : (t.resync file as)[other]? =
    if other = file then if as.isEmpty then none else some (.ofList as) else t[other]? := by
  by_cases ho : other = file
  · rw [if_pos ho, ho, resync]
    split
    · exact Std.ExtTreeMap.getElem?_erase_self
    · exact Std.ExtTreeMap.getElem?_insert_self
  · rw [if_neg ho, resync]
    split
    · exact getElem?_erase_of_ne ho
    · exact getElem?_insert_of_ne ho

end Armed

theorem Ledger.commit?_unit (change : Option Armed) (l : Ledger Unit) :
    l.commit? change = (.ok (), { l with armed := change.getD l.armed }) := by
  cases change <;> rfl

structure Part where
  script : Option Script
  archived : Option Bytes
  armed : Option (Std.ExtTreeSet Address)
  audience : Option (List Mailbox)
  mail : List (Channel Message)

namespace Workspace

abbrev InMemory := Refusable ArchiveMap (Ledger Unit)

def part (w : InMemory) (subject : Option String) : Part where
  script := subject.bind (w.scripts[·]?)
  archived := subject.bind (w.archive.inner.entries[·]?)
  armed := subject.bind (w.store.inner.armed[·]?)
  audience := subject.bind (w.listeners[·]?)
  mail := w.mail.map (·.of subject)

structure Plain (w : InMemory) : Prop where
  named {file : String} {s : Script} : w.scripts[file]? = some s → s.file = file
  archive : w.archive.queues = fun _ ↦ []
  store : w.store.queues = fun _ ↦ []

variable {α : Type} {file : String} {w w' : InMemory}

/-- An action that reads what there is of `file`, and changes nothing else. -/
def ActsOn (file : String) (x : Fallible InMemory α) : Prop :=
  ∃ act : Part → Except Fault α × Part, ∀ w, w.Plain → (x.outcome w).2.Plain ∧
    (x.outcome w).1 = (act (w.part (some file))).1 ∧
    (x.outcome w).2.part (some file) = (act (w.part (some file))).2 ∧
    ∀ subject ≠ some file, (x.outcome w).2.part subject = w.part subject

theorem part_congr {subject : Option String}
    (hscripts : ∀ f ∈ subject, w'.scripts[f]? = w.scripts[f]?)
    (harchive : ∀ f ∈ subject, w'.archive.inner.entries[f]? = w.archive.inner.entries[f]?)
    (hstore : ∀ f ∈ subject, w'.store.inner.armed[f]? = w.store.inner.armed[f]?)
    (hlisteners : ∀ f ∈ subject, w'.listeners[f]? = w.listeners[f]?)
    (hmail : w'.mail.map (·.of subject) = w.mail.map (·.of subject)) :
    w'.part subject = w.part subject := by
  rw [part, part, hmail]
  cases subject with
  | none => rfl
  | some f =>
    simp only [Option.bind_some, hscripts f rfl, harchive f rfl, hstore f rfl, hlisteners f rfl]

theorem ne_of_subject {subject : Option String} (h : subject ≠ some file) :
    ∀ f ∈ subject, f ≠ file := by
  rintro f hf rfl
  exact h hf

theorem actsOn_put {s : Script} (hs : s.file = file) :
    ActsOn file (putScript file s : Fallible InMemory Unit) := by
  refine ⟨fun p ↦ (.ok (), { p with script := some s }), fun w hw ↦ ⟨?_, rfl, ?_, fun _ hne ↦ ?_⟩⟩
  · refine ⟨fun {other t} ht ↦ ?_, hw.archive, hw.store⟩
    obtain ⟨rfl, rfl⟩ | ⟨-, ht⟩ := cases_of_insert ht
    · exact hs
    · exact hw.named ht
  · simp only [outcome_putScript, part, Option.bind_some, Std.ExtTreeMap.getElem?_insert_self]
  · exact part_congr (fun f hf ↦ getElem?_insert_of_ne (ne_of_subject hne f hf))
      (fun _ _ ↦ rfl) (fun _ _ ↦ rfl) (fun _ _ ↦ rfl) rfl

theorem actsOn_read :
    ActsOn file (askArchive (Archive.read file) : Fallible InMemory _) := by
  refine ⟨fun p ↦ (.ok (p.archived.elim (.error (.missing file)) .ok), p), fun w hw ↦ ?_⟩
  have hread := Refusing.ask_of_unrefused hw.archive .read (Archive.read file)
  have hsame : ((askArchive (Archive.read file) : Fallible InMemory _).outcome w).2 = w :=
    congrArg (fun r ↦ { w with archive := r.2 }) hread
  rw [hsame]
  exact ⟨hw, congrArg Except.ok (congrArg Prod.fst hread), rfl, fun _ _ ↦ rfl⟩

theorem actsOn_write (bytes : Bytes) :
    ActsOn file (askArchive (Archive.write file bytes) : Fallible InMemory _) := by
  refine ⟨fun p ↦ (.ok (.ok ()), { p with archived := some bytes }), fun w hw ↦ ?_⟩
  have hwrite := Refusing.ask_of_unrefused hw.archive .write (Archive.write file bytes)
  have hnew : ((askArchive (Archive.write file bytes) : Fallible InMemory _).outcome w).2 =
      { w with archive.inner.entries := w.archive.inner.entries.insert file bytes } :=
    congrArg (fun r ↦ { w with archive := r.2 }) hwrite
  rw [hnew]
  have hok := congrArg Prod.fst hwrite
  refine ⟨⟨hw.named, hw.archive, hw.store⟩, congrArg Except.ok hok, ?_, fun _ hne ↦ ?_⟩
  · simp only [part, Option.bind_some, Std.ExtTreeMap.getElem?_insert_self]
  · exact part_congr (fun _ _ ↦ rfl)
      (fun f hf ↦ getElem?_insert_of_ne (ne_of_subject hne f hf)) (fun _ _ ↦ rfl)
      (fun _ _ ↦ rfl) rfl

theorem actsOn_askStore {k : StoreCall} {call : Ledger Unit → Except StorageFault α × Ledger Unit}
    (answer : Option (Std.ExtTreeSet Address compare) → Except StorageFault α)
    (rearm : Option (Std.ExtTreeSet Address compare) → Option (Std.ExtTreeSet Address compare))
    (hanswer : ∀ l : Ledger Unit, (call l).1 = answer l.armed[file]?)
    (hhere : ∀ l : Ledger Unit, (call l).2.armed[file]? = rearm l.armed[file]?)
    (helse : ∀ l : Ledger Unit, ∀ other ≠ file, (call l).2.armed[other]? = l.armed[other]?) :
    ActsOn file (askStore (Refusing.ask k call) : Fallible InMemory _) := by
  refine ⟨fun p ↦ (.ok (answer p.armed), { p with armed := rearm p.armed }), fun w hw ↦ ?_⟩
  have hask := Refusing.ask_of_unrefused hw.store k call
  have hnew : ((askStore (Refusing.ask k call) : Fallible InMemory _).outcome w).2 =
      { w with store.inner := (call w.store.inner).2 } :=
    congrArg (fun r ↦ { w with store := r.2 }) hask
  have hok : ((askStore (Refusing.ask k call) : Fallible InMemory _).outcome w).1 =
      .ok (call w.store.inner).1 := congrArg Except.ok (congrArg Prod.fst hask)
  rw [hnew, hok, hanswer]
  refine ⟨⟨hw.named, hw.archive, hw.store⟩, rfl, ?_, fun _ hne ↦ ?_⟩
  · simp only [part, Option.bind_some, hhere]
  · exact part_congr (fun _ _ ↦ rfl) (fun _ _ ↦ rfl)
      (fun f hf ↦ helse _ f (ne_of_subject hne f hf)) (fun _ _ ↦ rfl) rfl

theorem actsOn_add (a : Address) :
    ActsOn file (askStore (BreakpointStore.add file a) : Fallible InMemory _) := by
  have hcall (l : Ledger Unit) : BreakpointStore.add file a l = _ :=
    Ledger.commit?_unit (l.armed.add? file a) l
  refine actsOn_askStore (fun _ ↦ .ok ()) (fun set ↦
    if file = file ∧ a ∉ set.getD ∅ then some ((set.getD ∅).insert a) else set)
    (fun l ↦ by rw [hcall]) (fun l ↦ ?_) fun l other hne ↦ ?_
  · rw [hcall]
    exact l.armed.getElem?_add? file file a
  · rw [hcall]
    exact (l.armed.getElem?_add? file other a).trans (if_neg fun h ↦ hne h.1)

theorem actsOn_remove (a : Address) :
    ActsOn file (askStore (BreakpointStore.remove file a) : Fallible InMemory _) := by
  have hcall (l : Ledger Unit) : BreakpointStore.remove file a l = _ :=
    Ledger.commit?_unit (l.armed.remove? file a) l
  refine actsOn_askStore (fun _ ↦ .ok ()) (fun set ↦
    if file = file ∧ a ∈ set.getD ∅ then
      if ((set.getD ∅).erase a).isEmpty then none else some ((set.getD ∅).erase a)
    else set) (fun l ↦ by rw [hcall]) (fun l ↦ ?_) fun l other hne ↦ ?_
  · rw [hcall]
    exact l.armed.getElem?_remove? file file a
  · rw [hcall]
    exact (l.armed.getElem?_remove? file other a).trans (if_neg fun h ↦ hne h.1)

theorem actsOn_resync (as : List Address) :
    ActsOn file (askStore (BreakpointStore.resync file as) : Fallible InMemory _) :=
  actsOn_askStore (fun _ ↦ .ok ()) (fun _ ↦ if as.isEmpty then none else some (.ofList as))
    (fun _ ↦ rfl) (fun l ↦ (l.armed.getElem?_resync file file as).trans (if_pos rfl))
    fun l other hne ↦ (l.armed.getElem?_resync file other as).trans (if_neg hne)

theorem actsOn_list :
    ActsOn file (askStore (BreakpointStore.list file) : Fallible InMemory _) :=
  actsOn_askStore (fun set ↦ .ok (set.getD ∅).toList) id (fun _ ↦ rfl) (fun _ ↦ rfl)
    fun _ _ _ ↦ rfl

theorem actsOn_broadcast {m : Message} (hm : m.file? = some file) :
    ActsOn file (broadcast file m : Fallible InMemory Unit) := by
  refine ⟨fun p ↦ (.ok (), { p with mail := deliver m (p.audience.getD []) p.mail }),
    fun w hw ↦ ?_⟩
  obtain ⟨log, ho⟩ := broadcast_delivers file m w
  rw [ho]
  refine ⟨⟨hw.named, hw.archive, hw.store⟩, rfl, ?_, fun subject hne ↦ ?_⟩
  · simp only [part, Option.bind_some, map_of_deliver hm, audience]
  · exact part_congr (fun _ _ ↦ rfl) (fun _ _ ↦ rfl) (fun _ _ ↦ rfl) (fun _ _ ↦ rfl)
      (map_of_deliver_other (fun h ↦ hne (h.symm.trans hm)) _ _)

theorem actsOn_post {m : Message} (hm : m.file? = some file) (box : Mailbox) :
    ActsOn file (post box m : Fallible InMemory Bool) := by
  refine ⟨fun p ↦ (.ok (p.mail[box]?.any (·.isOpen)), { p with
    mail := p.mail.modify box (·.fill [m]) }), fun w hw ↦ ?_⟩
  obtain ⟨sent, ho⟩ := post_fills box m w
  have hsent : sent = w.mail[box]?.any (·.isOpen) := by
    have hresult := congrArg Prod.fst ho
    rw [outcome_post] at hresult
    cases hc : w.mail[box]? with
    | none =>
      rw [hc] at hresult
      exact (Except.ok.inj hresult).symm
    | some c =>
      rw [hc] at hresult
      refine (Except.ok.inj hresult).symm.trans ?_
      cases hopen : c.isOpen <;> simp [Channel.send, hopen]
  have hsame (subject : Option String) (hne : m.file? ≠ subject) :
      (w.mail.modify box (·.fill [m])).map (·.of subject) = w.mail.map (·.of subject) := by
    rw [map_of_modify, List.filter_cons_of_neg (by simpa using hne), List.filter_nil]
    simp only [Channel.fill_nil]
    exact List.modify_id box _
  rw [ho, hsent]
  refine ⟨⟨hw.named, hw.archive, hw.store⟩, ?_, ?_, fun subject hne ↦ ?_⟩
  · simp only [part, List.getElem?_map, Option.any_map]
    rfl
  · rw [part, map_of_modify, List.filter_cons_of_pos (by simpa using hm), List.filter_nil]
    rfl
  · exact part_congr (fun _ _ ↦ rfl) (fun _ _ ↦ rfl) (fun _ _ ↦ rfl) (fun _ _ ↦ rfl)
      (hsame subject fun h ↦ hne (h.symm.trans hm))

theorem actsOn_listeners {x : Fallible InMemory Unit}
    (hear : Option (List Mailbox) → Option (List Mailbox))
    (ho : ∀ w, ∃ listeners, x.outcome w = (.ok (), { w with listeners }) ∧
      listeners[file]? = hear w.listeners[file]? ∧
      ∀ other ≠ file, listeners[other]? = w.listeners[other]?) : ActsOn file x := by
  refine ⟨fun p ↦ (.ok (), { p with audience := hear p.audience }), fun w hw ↦ ?_⟩
  obtain ⟨listeners, ho, hhere, helse⟩ := ho w
  rw [ho]
  refine ⟨⟨hw.named, hw.archive, hw.store⟩, rfl, ?_, fun subject hne ↦ ?_⟩
  · simp only [part, Option.bind_some, hhere]
  · exact part_congr (fun _ _ ↦ rfl) (fun _ _ ↦ rfl) (fun _ _ ↦ rfl)
      (fun f hf ↦ helse f (ne_of_subject hne f hf)) rfl

theorem actsOn_listen (box : Mailbox) :
    ActsOn file (listen file box : Fallible InMemory Unit) := by
  refine actsOn_listeners (fun boxes ↦
    if box ∈ boxes.getD [] then boxes else some (boxes.getD [] ++ [box])) fun w ↦ ?_
  simp only [listen, outcome_modify]
  split
  · exact ⟨_, rfl, rfl, fun _ _ ↦ rfl⟩
  · exact ⟨_, rfl, Std.ExtTreeMap.getElem?_insert_self, fun _ ↦ getElem?_insert_of_ne⟩

theorem actsOn_unlisten (box : Mailbox) :
    ActsOn file (unlisten file box : Fallible InMemory Unit) := by
  refine actsOn_listeners (fun boxes ↦
    if (boxes.getD []).filter (· ≠ box) = [] then none
    else some ((boxes.getD []).filter (· ≠ box))) fun w ↦ ?_
  simp only [unlisten, outcome_modify]
  split
  · exact ⟨_, rfl, Std.ExtTreeMap.getElem?_erase_self, fun _ ↦ getElem?_erase_of_ne⟩
  · exact ⟨_, rfl, Std.ExtTreeMap.getElem?_insert_self, fun _ ↦ getElem?_insert_of_ne⟩

/-- Two workspaces that have the same of `file`, and of all else what `w₀` and `w₀'` have. -/
structure Abreast (file : String) (w₀ w₀' w w' : InMemory) : Prop where
  plain : w.Plain
  plain' : w'.Plain
  here : w.part (some file) = w'.part (some file)
  left {subject : Option String} : subject ≠ some file → w.part subject = w₀.part subject
  right {subject : Option String} : subject ≠ some file → w'.part subject = w₀'.part subject

theorem ActsOn.parallel {x : Fallible InMemory α} (hx : ActsOn file x) (w₀ w₀' : InMemory) :
    Parallel (Abreast file w₀ w₀') x := by
  obtain ⟨act, hact⟩ := hx
  intro w w' h
  obtain ⟨hplain, hresult, hhere, helse⟩ := hact w h.plain
  obtain ⟨hplain', hresult', hhere', helse'⟩ := hact w' h.plain'
  rw [hresult, hresult', h.here]
  refine ⟨rfl, hplain, hplain', ?_, fun hne ↦ ?_, fun hne ↦ ?_⟩
  · rw [hhere, hhere', h.here]
  · rw [helse _ hne, h.left hne]
  · rw [helse' _ hne, h.right hne]

theorem Abreast.ties (file : String) (w₀ w₀' : InMemory) : Ties file (Abreast file w₀ w₀') where
  tracked h := congrArg Part.script h.here
  named h := h.plain.named
  log _ _ h :=
    ⟨⟨h.plain.named, h.plain.archive, h.plain.store⟩,
      ⟨h.plain'.named, h.plain'.archive, h.plain'.store⟩, h.here, h.left, h.right⟩
  put hs := (actsOn_put hs).parallel w₀ w₀'
  read := actsOn_read.parallel w₀ w₀'
  write bytes := (actsOn_write bytes).parallel w₀ w₀'
  add a := (actsOn_add a).parallel w₀ w₀'
  remove a := (actsOn_remove a).parallel w₀ w₀'
  resync as := (actsOn_resync as).parallel w₀ w₀'
  list := actsOn_list.parallel w₀ w₀'
  broadcast hm := (actsOn_broadcast hm).parallel w₀ w₀'
  listen box := (actsOn_listen box).parallel w₀ w₀'
  unlisten box := (actsOn_unlisten box).parallel w₀ w₀'

end Workspace

end ScriptBreakpoints
