import ScriptBreakpoints.Compiler.Listing
import ScriptBreakpoints.Proofs.Commands
import ScriptBreakpoints.Proofs.Parts

namespace ScriptBreakpoints

open Fallible Workspace

theorem Refusing.ext {κ σ : Type} {r r' : Refusing κ σ} (hinner : r.inner = r'.inner)
    (hqueues : r.queues = r'.queues) : r = r' := by
  cases r
  cases r'
  cases hinner
  cases hqueues
  rfl

structure Editor.Abreast (file : String) (e₀ e₀' e e' : Editor) : Prop where
  inbox : e.inbox = e₀.inbox
  inbox' : e'.inbox = e₀'.inbox
  same : e₀.inbox = e₀'.inbox
  here : e.scripts[file]? = e'.scripts[file]?
  left {other : String} : other ≠ file → e.scripts[other]? = e₀.scripts[other]?
  right {other : String} : other ≠ file → e'.scripts[other]? = e₀'.scripts[other]?

theorem Editor.Abreast.ties (file : String) (e₀ e₀' : Editor) :
    Editor.Ties file (Editor.Abreast file e₀ e₀') where
  inbox h := h.inbox.trans (h.same.trans h.inbox'.symm)
  opened h := h.here
  put o h := by
    refine ⟨h.inbox, h.inbox', h.same, ?_, fun ho ↦ ?_, fun ho ↦ ?_⟩
    · simp only [Std.ExtTreeMap.getElem?_insert_self]
    · exact (getElem?_insert_of_ne ho).trans (h.left ho)
    · exact (getElem?_insert_of_ne ho).trans (h.right ho)
  erase h := by
    refine ⟨h.inbox, h.inbox', h.same, ?_, fun ho ↦ ?_, fun ho ↦ ?_⟩
    · simp only [Std.ExtTreeMap.getElem?_erase_self]
    · exact (getElem?_erase_of_ne ho).trans (h.left ho)
    · exact (getElem?_erase_of_ne ho).trans (h.right ho)

def Seat.part (subject : Option String) (seat : Seat) :
    Mailbox × Option (Mailbox × Option OpenScript) :=
  (seat.inbox, seat.editor.map fun e ↦ (e.inbox, subject.bind (e.scripts[·]?)))

theorem Seat.ext_part {seat seat' : Seat} (h : ∀ subject, seat.part subject = seat'.part subject) :
    seat = seat' := by
  rcases seat with ⟨box, e⟩
  rcases seat' with ⟨box', e'⟩
  obtain rfl : box = box' := congrArg Prod.fst (h none)
  have heditor (subject : Option String) := congrArg Prod.snd (h subject)
  cases e with
  | none =>
    cases e' with
    | none => rfl
    | some e' => cases heditor none
  | some e =>
    cases e' with
    | none => cases heditor none
    | some e' =>
      rcases e with ⟨inbox, scripts⟩
      rcases e' with ⟨inbox', scripts'⟩
      obtain rfl : inbox = inbox' := congrArg Prod.fst (Option.some.inj (heditor none))
      have hscripts : scripts = scripts' := by
        refine Std.ExtTreeMap.ext_getElem? fun file ↦ ?_
        exact congrArg Prod.snd (Option.some.inj (heditor (some file)))
      rw [hscripts]

def Letter.file? : Letter → Option String
  | reload file _ _ => some file
  | added file _ => some file
  | removed file _ => some file
  | shutdown => none

theorem Letter.file?_of_message {l : Letter} {m : Message} (h : l.message = .ok m) :
    m.file? = l.file? := by
  cases l with
  | reload file authority views =>
    cases hp : View.ofEntries views.primary.1 views.primary.2 with
    | error a =>
      rw [message, hp] at h
      cases h
    | ok primary =>
      cases hd : View.ofEntries views.derived.1 views.derived.2 with
      | error a =>
        rw [message, hp, hd] at h
        cases h
      | ok derived =>
        rw [message, hp, hd] at h
        cases h
        rfl
  | added file a =>
    cases h
    rfl
  | removed file a =>
    cases h
    rfl
  | shutdown =>
    cases h
    rfl

def Draft.file : Draft → String
  | loaded file _ => file
  | unloaded file => file

/-- The commands about a script, where the listeners that are no editors are called by `names`. To
call one more is to make a mailbox, and that is not about a script. -/
inductive Command.IsOn (names : Std.ExtTreeMap String Mailbox) (file : String) : Command → Prop
  | ask {r : Request} : r.file = file → IsOn names file (.ask r)
  | report {d : Draft} : d.file = file → IsOn names file (.report d)
  | listen (name : String) {box : Mailbox} :
      names[name]? = some box → IsOn names file (.listen file name)
  | unlisten (name : String) : IsOn names file (.unlisten file name)
  | storeAdd (a : Address) : IsOn names file (.storeAdd file a)
  | storeRemove (a : Address) : IsOn names file (.storeRemove file a)
  | storeResync (as : List Address) : IsOn names file (.storeResync file as)
  | storeList : IsOn names file (.storeList file)
  | archiveRead : IsOn names file (.archiveRead file)
  | archiveWrite (bytes : Bytes) : IsOn names file (.archiveWrite file bytes)
  | post (i : Nat) {l : Letter} : l.file? = some file → IsOn names file (.post i l)
  | handle (i : Nat) {l : Letter} : l.file? = some file → IsOn names file (.handle i l)
  | editorListen (i : Nat) : IsOn names file (.editorListen i file)
  | editorUnlisten (i : Nat) : IsOn names file (.editorUnlisten i file)
  | editor (i : Nat) {r : EditorRequest} : r.file? = some file → IsOn names file (.editor i r)

namespace Session

abbrev InMemory := Session ArchiveMap (Ledger Unit)

structure Part where
  workspace : ScriptBreakpoints.Part
  seats : List (Mailbox × Option (Mailbox × Option OpenScript))

def part (s : InMemory) (subject : Option String) : Part :=
  ⟨s.workspace.part subject, s.seats.map (·.part subject)⟩

/-- The same session, but for the log and for the order of messages about different scripts. -/
structure Same (s t : InMemory) : Prop where
  scripts : s.workspace.scripts = t.workspace.scripts
  archive : s.workspace.archive = t.workspace.archive
  store : s.workspace.store = t.workspace.store
  audience : s.workspace.listeners = t.workspace.listeners
  mail (box : Mailbox) (subject : Option String) :
    s.workspace.mail[box]?.map (·.of subject) = t.workspace.mail[box]?.map (·.of subject)
  seats : s.seats = t.seats
  listeners : s.listeners = t.listeners
  reports : s.reports = t.reports

structure Only (file : String) (s t : InMemory) : Prop where
  plain : t.workspace.Plain
  elsewhere {subject : Option String} : subject ≠ some file → t.part subject = s.part subject
  listeners : t.listeners = s.listeners
  reports : t.reports = s.reports

/-- A step that reads what there is of `file`, and changes nothing else. The listeners that are no
editors are called by `names`. -/
def Minds (names : Std.ExtTreeMap String Mailbox) (file : String)
    (step : Step ArchiveMap (Ledger Unit)) : Prop :=
  ∀ s s' : InMemory, s.workspace.Plain → s'.workspace.Plain → s.listeners = names →
    s'.listeners = names → s.part (some file) = s'.part (some file) →
      (step s).1 = (step s').1 ∧ (step s).2.part (some file) = (step s').2.part (some file) ∧
        Only file s (step s).2 ∧ Only file s' (step s').2

variable {names : Std.ExtTreeMap String Mailbox} {file f g : String} {s t : InMemory}

theorem Only.refl (hs : s.workspace.Plain) : Only file s s := ⟨hs, fun _ ↦ rfl, rfl, rfl⟩

theorem same_of_parts (hs : s.workspace.Plain) (ht : t.workspace.Plain)
    (h : ∀ subject, s.part subject = t.part subject) (hlisteners : s.listeners = t.listeners)
    (hreports : s.reports = t.reports) : Same s t := by
  have hpart (subject : Option String) : s.workspace.part subject = t.workspace.part subject :=
    congrArg Part.workspace (h subject)
  have harchive : s.workspace.archive.inner.entries = t.workspace.archive.inner.entries :=
    Std.ExtTreeMap.ext_getElem? fun file ↦ congrArg Part.archived (hpart (some file))
  have hstore : s.workspace.store.inner.armed = t.workspace.store.inner.armed :=
    Std.ExtTreeMap.ext_getElem? fun file ↦ congrArg Part.armed (hpart (some file))
  refine ⟨?_, ?_, ?_, ?_, fun box subject ↦ ?_, ?_, hlisteners, hreports⟩
  · exact Std.ExtTreeMap.ext_getElem? fun file ↦ congrArg Part.script (hpart (some file))
  · exact Refusing.ext (congrArg ArchiveMap.mk harchive) (hs.archive.trans ht.archive.symm)
  · exact Refusing.ext (congrArg (Ledger.mk · ()) hstore) (hs.store.trans ht.store.symm)
  · exact Std.ExtTreeMap.ext_getElem? fun file ↦ congrArg Part.audience (hpart (some file))
  · rw [← List.getElem?_map, ← List.getElem?_map]
    exact congrArg (·[box]?) (congrArg Part.mail (hpart subject))
  · have hseat (i : Nat) (subject : Option String) :
        s.seats[i]?.map (·.part subject) = t.seats[i]?.map (·.part subject) := by
      rw [← List.getElem?_map, ← List.getElem?_map]
      exact congrArg (·[i]?) (congrArg Part.seats (h subject))
    refine List.ext_getElem? fun i ↦ ?_
    have hi := hseat i
    cases hsi : s.seats[i]? with
    | none =>
      have hnone := hi none
      rw [hsi] at hnone
      exact (Option.map_eq_none_iff.1 hnone.symm).symm
    | some seat =>
      rw [hsi] at hi
      obtain ⟨seat', hti, -⟩ := Option.map_eq_some_iff.1 (hi none).symm
      rw [hti] at hi ⊢
      exact congrArg some (Seat.ext_part fun subject ↦ Option.some.inj (hi subject))

/-- Steps that mind different scripts can change places. -/
theorem Minds.commute {x y : Step ArchiveMap (Ledger Unit)} (hx : Minds names f x)
    (hy : Minds names g y) (hne : f ≠ g) (hs : s.workspace.Plain) (hnames : s.listeners = names) :
    Only f s (x s).2 ∧ Only g s (y s).2 ∧
      (y (x s).2).1 = (y s).1 ∧ (x (y s).2).1 = (x s).1 ∧ Same (y (x s).2).2 (x (y s).2).2 := by
  have hfg : some f ≠ some g := fun h ↦ hne (Option.some.inj h)
  obtain ⟨-, -, hxs, -⟩ := hx s s hs hs hnames hnames rfl
  obtain ⟨-, -, hys, -⟩ := hy s s hs hs hnames hnames rfl
  obtain ⟨hyx, hgyx, hafter, -⟩ := hy (x s).2 s hxs.plain hs (hxs.listeners.trans hnames) hnames
    (hxs.elsewhere hfg.symm)
  obtain ⟨hxy, hfxy, hafter', -⟩ := hx (y s).2 s hys.plain hs (hys.listeners.trans hnames) hnames
    (hys.elsewhere hfg)
  refine ⟨hxs, hys, hyx, hxy, same_of_parts hafter.plain hafter'.plain (fun subject ↦ ?_) ?_ ?_⟩
  · by_cases hf : subject = some f
    · rw [hf, hafter.elsewhere hfg, hfxy]
    · by_cases hg : subject = some g
      · rw [hg, hgyx, hafter'.elsewhere hfg.symm]
      · rw [hafter.elsewhere hg, hxs.elsewhere hf, hafter'.elsewhere hf, hys.elsewhere hg]
  · rw [hafter.listeners, hxs.listeners, hafter'.listeners, hys.listeners]
  · rw [hafter.reports, hxs.reports, hafter'.reports, hys.reports]

section Minds

theorem minds_work {α : Type} {step : Step ArchiveMap (Ledger Unit)}
    {x : Fallible Workspace.InMemory α} (answer : Except Fault α → Except Failure Reply)
    (hx : ∀ w₀ w₀', Parallel (Workspace.Abreast file w₀ w₀') x)
    (hstep : ∀ s : InMemory, s.workspace.Plain → step s = (answer (x.outcome s.workspace).1,
      { s with workspace := (x.outcome s.workspace).2 })) : Minds names file step := by
  intro s s' hs hs' _ _ h
  obtain ⟨hresult, hend⟩ := hx s.workspace s'.workspace s.workspace s'.workspace
    ⟨hs, hs', congrArg Part.workspace h, fun _ ↦ rfl, fun _ ↦ rfl⟩
  have hseats := congrArg Part.seats h
  rw [hstep s hs, hstep s' hs']
  refine ⟨congrArg answer hresult, ?_, ⟨hend.plain, fun hne ↦ ?_, rfl, rfl⟩,
    ⟨hend.plain', fun hne ↦ ?_, rfl, rfl⟩⟩
  · exact congrArg₂ Part.mk hend.here hseats
  · exact congrArg (Part.mk · _) (hend.left hne)
  · exact congrArg (Part.mk · _) (hend.right hne)

theorem minds_reply {x : Fallible Workspace.InMemory Reply}
    (hx : ∀ w₀ w₀', Parallel (Workspace.Abreast file w₀ w₀') x) : Minds names file (reply x) :=
  minds_work (Except.mapError Failure.fault) hx fun _ _ ↦ rfl

/-- A seat is vacant in both of two sessions that are alike in a script, or in both an editor sits
there that has the same open of it. -/
theorem seats_alike {s' : InMemory} (h : s.part (some file) = s'.part (some file)) (i : Nat) :
    (s.editorAt i = none ∧ s'.editorAt i = none) ∨
      ∃ box e e', s.seats[i]? = some ⟨box, some e⟩ ∧ s'.seats[i]? = some ⟨box, some e'⟩ ∧
        e.inbox = e'.inbox ∧ e.scripts[file]? = e'.scripts[file]? := by
  have hseat : s.seats[i]?.map (·.part (some file)) = s'.seats[i]?.map (·.part (some file)) := by
    rw [← List.getElem?_map, ← List.getElem?_map]
    exact congrArg (·[i]?) (congrArg Part.seats h)
  simp only [editorAt]
  rcases hi : s.seats[i]? with _ | ⟨box, e⟩ <;> rcases hi' : s'.seats[i]? with _ | ⟨box', e'⟩ <;>
    rw [hi, hi'] at hseat
  · exact .inl ⟨rfl, rfl⟩
  · cases hseat
  · cases hseat
  · obtain ⟨rfl, heditor⟩ := Prod.mk.inj (Option.some.inj hseat)
    rcases e with _ | e <;> rcases e' with _ | e'
    · exact .inl ⟨rfl, rfl⟩
    · cases heditor
    · cases heditor
    · obtain ⟨hinbox, hscript⟩ := Prod.mk.inj (Option.some.inj heditor)
      exact .inr ⟨box, e, e', rfl, rfl, hinbox, hscript⟩

theorem handle_gone (c : Compiler) {i : Nat} {l : Letter} (hi : s.editorAt i = none) :
    s.handle c i l = (.ok .stopped, s) := by
  unfold editorAt at hi
  unfold handle
  split
  · next hseat =>
    rw [hseat] at hi
    cases hi
  · rfl

theorem part_set {i : Nat} {box : Mailbox} {e e₁ : Editor} {subject : Option String}
    (hi : s.seats[i]? = some ⟨box, some e⟩) (hinbox : e₁.inbox = e.inbox)
    (hscripts : ∀ f ∈ subject, e₁.scripts[f]? = e.scripts[f]?) :
    (s.seats.set i ⟨box, some e₁⟩).map (·.part subject) = s.seats.map (·.part subject) := by
  have hseat : Seat.part subject ⟨box, some e₁⟩ = Seat.part subject ⟨box, some e⟩ := by
    cases subject with
    | none => simp only [Seat.part, Option.map_some, hinbox, Option.bind_none]
    | some f => simp only [Seat.part, Option.map_some, hinbox, Option.bind_some, hscripts f rfl]
  obtain ⟨hlt, hget⟩ := List.getElem?_eq_some_iff.1 hi
  rw [List.map_set, hseat, ← List.map_set, ← hget, List.set_getElem_self]

theorem minds_atSeat (i : Nat) {x : EditorAction (Refusing ArchiveCall ArchiveMap)
      (Refusing StoreCall (Ledger Unit)) Reply}
    (hx : ∀ e₀ e₀' w₀ w₀', Parallel
      (Desk.Tied (Editor.Abreast file e₀ e₀') (Workspace.Abreast file w₀ w₀')) x) :
    Minds names file (atSeat i x) := by
  intro s s' hs hs' _ _ h
  obtain ⟨hi, hi'⟩ | ⟨box, e, e', hi, hi', hinbox, hscript⟩ := seats_alike h i
  · rw [atSeat_gone hi, atSeat_gone hi']
    exact ⟨rfl, h, .refl hs, .refl hs'⟩
  · obtain ⟨hresult, heditor, hend⟩ := hx e e' s.workspace s'.workspace ⟨e, s.workspace⟩
      ⟨e', s'.workspace⟩ ⟨⟨rfl, rfl, hinbox, hscript, fun _ ↦ rfl, fun _ ↦ rfl⟩,
        ⟨hs, hs', congrArg Part.workspace h, fun _ ↦ rfl, fun _ ↦ rfl⟩⟩
    have hseats : s.seats.map (·.part (some file)) = s'.seats.map (·.part (some file)) :=
      congrArg Part.seats h
    simp only [atSeat, hi, hi']
    refine ⟨congrArg (Except.mapError Failure.fault) hresult, congrArg₂ Part.mk hend.here ?_,
      ⟨hend.plain, fun hne ↦ congrArg₂ Part.mk (hend.left hne) ?_, rfl, rfl⟩,
      ⟨hend.plain', fun hne ↦ congrArg₂ Part.mk (hend.right hne) ?_, rfl, rfl⟩⟩
    · rw [List.map_set, List.map_set, hseats]
      simp only [Seat.part, Option.map_some, Option.bind_some, heditor.here, heditor.inbox,
        heditor.inbox', heditor.same]
    · exact part_set hi heditor.inbox fun f hf ↦ heditor.left (ne_of_subject hne f hf)
    · exact part_set hi' heditor.inbox' fun f hf ↦ heditor.right (ne_of_subject hne f hf)

theorem minds_withInbox (i : Nat) {x : Mailbox → Fallible Workspace.InMemory Reply}
    (hx : ∀ box w₀ w₀', Parallel (Workspace.Abreast file w₀ w₀') (x box)) :
    Minds names file (withInbox i x) := by
  intro s s' hs hs' hn hn' h
  have hboxes : (s.seats.map (·.part (some file)))[i]?.map Prod.fst =
      (s'.seats.map (·.part (some file)))[i]?.map Prod.fst :=
    congrArg (fun p ↦ p.seats[i]?.map Prod.fst) h
  rw [List.getElem?_map, List.getElem?_map, Option.map_map, Option.map_map] at hboxes
  unfold withInbox
  cases hi : s.seats[i]? with
  | none =>
    rw [hi] at hboxes
    rw [Option.map_eq_none_iff.1 hboxes.symm]
    exact ⟨rfl, h, .refl hs, .refl hs'⟩
  | some seat =>
    rw [hi] at hboxes
    obtain ⟨seat', hi', hbox⟩ := Option.map_eq_some_iff.1 hboxes.symm
    have hbox : seat'.inbox = seat.inbox := hbox
    rw [hi']
    dsimp only
    rw [hbox]
    exact minds_reply (hx seat.inbox) s s' hs hs' hn hn' h

/-- What is asked of storage itself is what is asked of it if nothing is refused. -/
theorem minds_onStore {α : Type} {k : StoreCall}
    {call : Ledger Unit → Except StorageFault α × Ledger Unit} (f : α → Reply)
    (hx : ActsOn file (askStore (Refusing.ask k call) : Fallible Workspace.InMemory _)) :
    Minds names file (onStore call f) := by
  refine minds_work (fun r ↦ (r.mapError Failure.fault).bind fun r ↦
    (r.map f).mapError .storage) hx.parallel fun s hs ↦ ?_
  rw [outcome_askStore, Refusing.ask_of_unrefused hs.store]
  rfl

theorem minds_onArchive {α : Type} {k : ArchiveCall}
    {call : ArchiveMap → Except StorageFault α × ArchiveMap} (f : α → Reply)
    (hx : ActsOn file (askArchive (Refusing.ask k call) : Fallible Workspace.InMemory _)) :
    Minds names file (onArchive call f) := by
  refine minds_work (fun r ↦ (r.mapError Failure.fault).bind fun r ↦
    (r.map f).mapError .storage) hx.parallel fun s hs ↦ ?_
  rw [outcome_askArchive, Refusing.ask_of_unrefused hs.archive]
  rfl

theorem minds_opening {l : Letter} {use : Message → Step ArchiveMap (Ledger Unit)}
    (hu : ∀ m, l.message = .ok m → Minds names file (use m)) :
    Minds names file (opening l use) := by
  intro s s' hs hs' hn hn' h
  unfold opening
  split
  · next m hm => exact hu m hm s s' hs hs' hn hn' h
  · exact ⟨rfl, h, .refl hs, .refl hs'⟩

theorem minds_handle (c : Compiler) (i : Nat) {l : Letter} (hl : l.file? = some file) :
    Minds names file (handle c i l) := by
  intro s s' hs hs' hn hn' h
  have hopen : Minds names file (opening l fun m ↦ atSeat i do
      return .flag (← Editor.handle c m)) := by
    refine minds_opening fun m hm ↦ minds_atSeat i fun e₀ e₀' w₀ w₀' ↦ ?_
    exact (Desk.Ties.handle c ((Letter.file?_of_message hm).trans hl)
      ⟨Editor.Abreast.ties file e₀ e₀', Workspace.Abreast.ties file w₀ w₀'⟩).bind fun _ ↦ .pure _
  obtain ⟨hi, hi'⟩ | ⟨box, e, e', hi, hi', -⟩ := seats_alike h i
  · rw [handle_gone c hi, handle_gone c hi']
    exact ⟨rfl, h, .refl hs, .refl hs'⟩
  · simp only [handle, hi, hi']
    exact hopen s s' hs hs' hn hn' h

theorem parallel_report (c : Compiler) {d : Draft}
    {R : Workspace.InMemory → Workspace.InMemory → Prop} (hR : Workspace.Ties d.file R) :
    Parallel R (send c d >>= handleReport c) := by
  cases d with
  | unloaded file =>
    rw [send, pure_bind]
    exact hR.closeInEngine c
  | loaded file binary =>
    cases binary with
    | unknown =>
      rw [send, pure_bind]
      exact hR.loadedInEngine c none
    | of bytes =>
      rw [send, pure_bind]
      exact hR.loadedInEngine c _
    | current =>
      have hdigest : Parallel R (digestOf c file) := hR.script_bind c fun _ _ ↦ .pure _
      simp only [send, bind_assoc, pure_bind]
      exact hdigest.bind fun digest ↦ hR.loadedInEngine c _

variable (c : Compiler)

theorem minds_step {cmd : Command} (h : cmd.IsOn names file) : Minds names file (step c cmd) := by
  have hties := Workspace.Abreast.ties file
  cases h with
  | ask hr =>
    subst hr
    exact minds_reply fun w₀ w₀' ↦ Workspace.Ties.perform c _ (hties w₀ w₀')
  | report hd =>
    subst hd
    refine minds_reply fun w₀ w₀' ↦ ?_
    rw [← bind_assoc]
    exact (parallel_report c (hties w₀ w₀')).bind fun _ ↦ .pure _
  | @listen name box hbox =>
    intro s s' hs hs' hn hn' hpart
    have hknown {s : InMemory} (hn : s.listeners = names) : s.mailboxOf name = (box, s) := by
      rw [mailboxOf, hn, hbox]
    simp only [step, hknown hn, hknown hn']
    exact minds_reply (fun w₀ w₀' ↦ ((hties w₀ w₀').listen _).bind fun _ ↦ .pure _) s s' hs hs' hn
      hn' hpart
  | unlisten name =>
    intro s s' hs hs' hn hn' hpart
    simp only [step, hn, hn']
    cases names[name]? with
    | none => exact ⟨rfl, hpart, .refl hs, .refl hs'⟩
    | some box =>
      exact minds_reply (fun w₀ w₀' ↦ ((hties w₀ w₀').unlisten box).bind fun _ ↦ .pure _) s s' hs
        hs' hn hn' hpart
  | storeAdd a => exact minds_onStore _ (actsOn_add a)
  | storeRemove a => exact minds_onStore _ (actsOn_remove a)
  | storeResync as => exact minds_onStore _ (actsOn_resync as)
  | storeList => exact minds_onStore _ actsOn_list
  | archiveRead => exact minds_onArchive _ actsOn_read
  | archiveWrite bytes =>
    have hlog (s : InMemory) : step c (.archiveWrite file bytes) s =
        onArchive (Archive.write file bytes) (fun _ ↦ .done) s := by
      simp only [step, Archive.announce, List.append_nil]
    rw [show step c (.archiveWrite file bytes) = _ from funext hlog]
    exact minds_onArchive _ (actsOn_write bytes)
  | post i hl =>
    refine minds_opening fun m hm ↦ minds_withInbox i fun box w₀ w₀' ↦ ?_
    exact ((actsOn_post ((Letter.file?_of_message hm).trans hl) box).parallel w₀ w₀').bind
      fun _ ↦ .pure _
  | handle i hl => exact minds_handle c i hl
  | editorListen i =>
    exact minds_withInbox i fun box w₀ w₀' ↦ ((hties w₀ w₀').listen box).bind fun _ ↦ .pure _
  | editorUnlisten i =>
    exact minds_withInbox i fun box w₀ w₀' ↦ ((hties w₀ w₀').unlisten box).bind fun _ ↦ .pure _
  | editor i hr =>
    exact minds_atSeat i fun e₀ e₀' w₀ w₀' ↦ Desk.Ties.editorRequest c hr
      ⟨Editor.Abreast.ties file e₀ e₀', hties w₀ w₀'⟩

end Minds

section Plain

variable (c : Compiler)

theorem plain_perform (r : Request) : Keeps Workspace.Plain (r.perform c) :=
  fun w hw ↦ (Workspace.Ties.perform c r (Workspace.Abreast.ties r.file w w) w w
    ⟨hw, hw, rfl, fun _ ↦ rfl, fun _ ↦ rfl⟩).2.plain

omit c in
theorem plain_of_tied {α : Type} {file : String}
    {x : EditorAction (Refusing ArchiveCall ArchiveMap) (Refusing StoreCall (Ledger Unit)) α}
    (hx : ∀ e₀ w₀, Parallel (Desk.Tied (Editor.Abreast file e₀ e₀)
      (Workspace.Abreast file w₀ w₀)) x) :
    Keeps (fun d : Session.Desk ArchiveMap (Ledger Unit) ↦ d.workspace.Plain) x :=
  fun d hd ↦ (hx d.editor d.workspace d d ⟨⟨rfl, rfl, rfl, rfl, fun _ ↦ rfl, fun _ ↦ rfl⟩,
    ⟨hd, hd, rfl, fun _ ↦ rfl, fun _ ↦ rfl⟩⟩).2.workspace.plain

theorem plain_handle (m : Message) :
    Keeps (fun d : Session.Desk ArchiveMap (Ledger Unit) ↦ d.workspace.Plain)
      (Editor.handle c m) := by
  cases hm : m.file? with
  | none =>
    obtain rfl := Message.file?_eq_none.1 hm
    exact .pure _
  | some file =>
    exact plain_of_tied fun e₀ w₀ ↦ Desk.Ties.handle c hm
      ⟨Editor.Abreast.ties file e₀ e₀, Workspace.Abreast.ties file w₀ w₀⟩

theorem plain_next :
    Keeps (fun d : Session.Desk ArchiveMap (Ledger Unit) ↦ d.workspace.Plain)
      (Editor.handleNext c) :=
  Editor.keeps_handleNext (fun _ _ hd ↦ ⟨hd.named, hd.archive, hd.store⟩) (plain_handle c)

theorem plain_runPending :
    Keeps (fun d : Session.Desk ArchiveMap (Ledger Unit) ↦ d.workspace.Plain)
      (Editor.runPending c) :=
  Editor.keeps_runPending (plain_next c)

theorem plain_run :
    Keeps (fun d : Session.Desk ArchiveMap (Ledger Unit) ↦ d.workspace.Plain) (Editor.run c) :=
  (plain_runPending c).bind fun _ _ hd ↦ ⟨hd.named, hd.archive, hd.store⟩

theorem plain_editorRequest (r : EditorRequest) :
    Keeps (fun d : Session.Desk ArchiveMap (Ledger Unit) ↦ d.workspace.Plain) (r.perform c) := by
  cases hr : r.file? with
  | none =>
    obtain rfl := EditorRequest.file?_eq_none.1 hr
    exact (plain_runPending c).bind fun _ ↦ .pure _
  | some file =>
    exact plain_of_tied fun e₀ w₀ ↦ Desk.Ties.editorRequest c hr
      ⟨Editor.Abreast.ties file e₀ e₀, Workspace.Abreast.ties file w₀ w₀⟩

variable {c}

theorem plain_step (hs : s.workspace.Plain) {cmd : Command}
    (hcmd : ∀ call answers, cmd ≠ .refuse call answers) : (step c cmd s).2.workspace.Plain := by
  have hon {file : String} (h : cmd.IsOn s.listeners file) : (step c cmd s).2.workspace.Plain :=
    (minds_step c h s s hs hs rfl rfl rfl).2.2.1.plain
  cases hseat : cmd.isSeated with
  | true =>
    exact kept_seated (I := Workspace.Plain) hseat
      (fun _ _ hw ↦ ⟨hw.named, hw.archive, hw.store⟩) (plain_handle c) (plain_run c)
      (fun _ r _ ↦ plain_editorRequest c r) s hs
  | false =>
    by_cases hstorage : cmd.reachesArchive = false ∧ cmd.reachesStore = false
    · refine kept_unseated (I := Workspace.Plain) hseat (fun w w' h hw ↦ ?_)
        (fun r _ ↦ plain_perform c r) s hs
      refine ⟨fun ht ↦ hw.named (h.scripts ▸ ht), ?_, ?_⟩
      · rw [h.archive hstorage.1, hw.archive]
      · rw [h.store hstorage.2, hw.store]
    · cases cmd with
      | refuse call answers => exact absurd rfl (hcmd call answers)
      | storeAdd file a => exact hon (.storeAdd a)
      | storeRemove file a => exact hon (.storeRemove a)
      | storeResync file as => exact hon (.storeResync as)
      | storeList file => exact hon .storeList
      | archiveRead file => exact hon .archiveRead
      | archiveWrite file bytes => exact hon (.archiveWrite bytes)
      | _ => exact absurd ⟨rfl, rfl⟩ hstorage

theorem plain_start (archive : ArchiveMap) (store : Ledger Unit) :
    (Session.start archive store).workspace.Plain where
  named h := by cases Std.ExtTreeMap.getElem?_empty.symm.trans h
  archive := rfl
  store := rfl

def Unrefused (_ : InMemory) (e : Event) : Prop :=
  ∀ call answers, e ≠ .command (.refuse call answers)

theorem Reaches.plain {archive : ArchiveMap} {store : Ledger Unit}
    (hs : Reaches c Unrefused (Session.start archive store) s) : s.workspace.Plain := by
  induction hs with
  | start => exact plain_start archive store
  | @event s e _ he ih =>
    cases e with
    | command cmd => exact plain_step ih fun call answers h ↦ he call answers (congrArg _ h)
    | next i =>
      exact kept_atSeat (I := Workspace.Plain) i ((plain_next c).bind fun _ ↦ .pure _) s ih

end Plain

/-- Scripts are independent. A command about `f` changes nothing of what there is of another script:
neither the script that is tracked, nor what is archived and armed of it, nor who listens to it, nor
what editors have open of it, nor the messages about it. So commands about two scripts can change
places. They are answered as before, and they lead to the same session, in which every mailbox has
the same messages about each script, in the same order. -/
theorem scripts_independent (c : Compiler) (archive : ArchiveMap) (store : Ledger Unit)
    (hs : Reaches c Unrefused (Session.start archive store) s) (hne : f ≠ g) {a b : Command}
    (ha : a.IsOn s.listeners f) (hb : b.IsOn s.listeners g) :
    (∀ subject ≠ some f, (step c a s).2.part subject = s.part subject) ∧
      (∀ subject ≠ some g, (step c b s).2.part subject = s.part subject) ∧
      (step c b (step c a s).2).1 = (step c b s).1 ∧
      (step c a (step c b s).2).1 = (step c a s).1 ∧
      Same (step c b (step c a s).2).2 (step c a (step c b s).2).2 := by
  obtain ⟨hleft, hright, hb', ha', hsame⟩ :=
    (minds_step c ha).commute (minds_step c hb) hne hs.plain rfl
  exact ⟨fun _ ↦ hleft.elsewhere, fun _ ↦ hright.elsewhere, hb', ha', hsame⟩

/-- One editor has both scripts open. It saves one of them, and a click arms a breakpoint in the
other one. -/
theorem scripts_independent_save_toggle :
    ∃ s t : InMemory, s = ([.command .newEditor, .command (.editor 0 (.openScript "a")),
        .command (.editor 0 (.openScript "b")),
        .command (.editor 0 (.insertLines "a" .primary 1 ["    x"]))] : List Event).foldl
        (undergo Listing.compiler) (Session.start (ArchiveMap.ofList
          [("a", Utf8.encode "routine 5\n    a\n"), ("b", Utf8.encode "routine 7\n    b\n")])
          (⟨∅, ()⟩ : Ledger Unit)) ∧
      readiness? (step Listing.compiler (.editor 0 (.save "a")) s).1 = some .ready ∧
      t = (step Listing.compiler (.editor 0 (.toggle "b" .primary 1)) s).2 ∧
      t.workspace.store.inner.armed.list "b" = [⟨7, 0⟩] ∧
      Same (step Listing.compiler (.editor 0 (.toggle "b" .primary 1))
          (step Listing.compiler (.editor 0 (.save "a")) s).2).2
        (step Listing.compiler (.editor 0 (.save "a")) t).2 := by
  obtain ⟨s, hs⟩ : ∃ s, s = ([.command .newEditor, .command (.editor 0 (.openScript "a")),
      .command (.editor 0 (.openScript "b")),
      .command (.editor 0 (.insertLines "a" .primary 1 ["    x"]))] : List Event).foldl
      (undergo Listing.compiler) (Session.start (ArchiveMap.ofList
        [("a", Utf8.encode "routine 5\n    a\n"), ("b", Utf8.encode "routine 7\n    b\n")])
        (⟨∅, ()⟩ : Ledger Unit)) := ⟨_, rfl⟩
  have hrun : Reaches Listing.compiler Unrefused (Session.start (ArchiveMap.ofList
      [("a", Utf8.encode "routine 5\n    a\n"), ("b", Utf8.encode "routine 7\n    b\n")])
      (⟨∅, ()⟩ : Ledger Unit)) s := by
    rw [hs]
    refine reaches_foldl .start fun e he s call answers h ↦ ?_
    rw [h] at he
    simp at he
  have hsave : readiness? (step Listing.compiler (.editor 0 (.save "a")) s).1 = some .ready := by
    rw [hs]
    decide +kernel
  obtain ⟨t, ht⟩ : ∃ t, t = (step Listing.compiler (.editor 0 (.toggle "b" .primary 1)) s).2 :=
    ⟨_, rfl⟩
  have htoggle : t.workspace.store.inner.armed.list "b" = [⟨7, 0⟩] := by
    rw [ht, hs]
    decide +kernel
  obtain ⟨-, -, -, -, hsame⟩ := scripts_independent Listing.compiler _ _ hrun
    (show "a" ≠ "b" by decide) (.editor 0 rfl : Command.IsOn _ "a" (.editor 0 (.save "a")))
    (.editor 0 rfl : Command.IsOn _ "b" (.editor 0 (.toggle "b" .primary 1)))
  rw [← ht] at hsame
  exact ⟨s, t, hs, hsave, ht, htoggle, hsame⟩

end Session

end ScriptBreakpoints
