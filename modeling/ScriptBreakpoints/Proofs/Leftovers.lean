import ScriptBreakpoints.Compiler.Listing
import ScriptBreakpoints.Proofs.Parts
import ScriptBreakpoints.Proofs.Queueing
import ScriptBreakpoints.Proofs.Trailing

namespace ScriptBreakpoints

open Fallible Workspace

namespace Message

def besides (file : String) (ms : List Message) : List Message := ms.filter fun m ↦ !m.isAbout file

def added? : Message → Option Address
  | .added _ x => some x
  | _ => none

variable {file : String} {m : Message} {ms : List Message}

theorem added?_eq_some {x : Address} : m.added? = some x ↔ ∃ file, m = .added file x := by
  cases m <;> simp [added?]

theorem besides_cons (h : m.file? ≠ some file) : besides file (m :: ms) = m :: besides file ms :=
  List.filter_cons_of_pos (by simpa [isAbout] using h)

theorem besides_cons_about (h : m.file? = some file) : besides file (m :: ms) = besides file ms :=
  List.filter_cons_of_neg (by simpa [isAbout] using h)

end Message

namespace Buffer

variable {b : Buffer} {x : Address}

theorem with_markers_eq_self {markers : Std.ExtTreeMap Address Nat} :
    { b with markers } = b ↔ ∀ y : Address, markers[y]? = b.markers[y]? := by
  constructor
  · intro h y
    exact congrArg (fun b ↦ b.markers[y]?) h
  · intro h
    rw [Std.ExtTreeMap.ext_getElem? h]

theorem showMarker_eq_self : b.showMarker x = b ↔
    ∀ line, b.marks.line? x = some line → b.markers[x]? = some line := by
  obtain ⟨markers, hshow⟩ := showMarker_eq x b
  have hmarkers (y : Address) : markers[y]? =
      if y = x then (b.marks.line? x).or b.markers[x]? else b.markers[y]? := by
    have h := markers_showMarker b y x
    rw [hshow] at h
    exact h
  rw [hshow, with_markers_eq_self]
  constructor
  · intro h line hline
    rw [← h x, hmarkers, if_pos rfl, hline, Option.some_or]
  · intro h y
    rw [hmarkers]
    split
    · next heq =>
      subst heq
      cases hline : b.marks.line? y with
      | none => rfl
      | some line => rw [h line hline, Option.some_or]
    · rfl

theorem hideMarker_eq_self : b.hideMarker x = b ↔ b.markers[x]? = none := by
  refine with_markers_eq_self.trans ⟨fun h ↦ ?_, fun h y ↦ ?_⟩
  · rw [← h x, Std.ExtTreeMap.getElem?_erase_self]
  · have herase := markers_hideMarker b y x
    rw [Buffer.hideMarker] at herase
    rw [herase]
    split
    · next heq => rw [heq, h]
    · rfl

end Buffer

namespace OpenScript

variable {o : OpenScript} {as : List Address} {m : Message}

theorem map_buffers_eq_self {f : Buffer → Buffer} :
    { o with buffers := o.buffers.map fun _ b ↦ f b } = o ↔
      ∀ p, f (o.buffers.get p) = o.buffers.get p := by
  constructor
  · intro h p
    rw [← Dual.get_map (fun _ b ↦ f b) o.buffers p]
    exact congrArg (fun o ↦ o.buffers.get p) h
  · intro h
    have hbuffers : (o.buffers.map fun _ b ↦ f b) = o.buffers := by
      refine Dual.ext_get fun p ↦ ?_
      rw [Dual.get_map, h]
    rw [hbuffers]

/-- The message tells nothing that is not shown already, where `as` are the breakpoints that are
listed. -/
def Ignores (as : List Address) (o : OpenScript) : Message → Prop
  | .reload e => (o.reload e).place as = o
  | .added _ x => ∀ p line, (o.buffers.get p).marks.line? x = some line →
      (o.buffers.get p).markers[x]? = some line
  | .removed _ x => ∀ p, (o.buffers.get p).markers[x]? = none
  | .shutdown => True

theorem hear_eq_self : o.hear as m = o ↔ o.Ignores as m := by
  cases m with
  | reload e => exact Iff.rfl
  | added f x =>
    refine map_buffers_eq_self.trans ?_
    simp only [Buffer.showMarker_eq_self, Ignores]
  | removed f x =>
    refine map_buffers_eq_self.trans ?_
    simp only [Buffer.hideMarker_eq_self, Ignores]
  | shutdown => exact iff_of_true rfl trivial

end OpenScript

section Desk

variable {σ τ : Type} [Archive σ] [BreakpointStore τ] {c : Compiler} {d : Desk σ τ}
  {file : String} {o : OpenScript} {t : Script} {m : Message}

/-- Where listing changes nothing of the store, all that a message changes is what is open. -/
theorem Editor.handle_unmoved (ho : d.editor.scripts[file]? = some o)
    (ht : d.workspace.scripts[file]? = some t) (hm : m.file? = some file)
    (hlist : (BreakpointStore.list file d.workspace.store).2 = d.workspace.store) :
    ∃ log, ((Editor.handle c m).outcome d).2 =
      ⟨{ d.editor with
          scripts := d.editor.scripts.insert file (o.hear (d.workspace.listed file) m) },
        { d.workspace with log }⟩ := by
  obtain ⟨as, w, log, hhandle, hconsults⟩ := Editor.handle_open (c := c) ho hm
  obtain ⟨hhear, t', log', rfl, hstore⟩ := hconsults.tracked ht
  obtain rfl : t' = d.workspace.store := hstore.elim id fun h ↦ h.trans hlist
  rw [hhandle, hhear]
  exact ⟨log, rfl⟩

omit [Archive σ] [BreakpointStore τ] in
@[simp] theorem Desk.editor_withQueue (queue : List Message) :
    (d.withQueue queue).editor = d.editor := rfl

omit [Archive σ] in
@[simp] theorem Desk.listed_withQueue (queue : List Message) :
    (d.withQueue queue).workspace.listed file = d.workspace.listed file := rfl

/-- A message that was left over changes nothing if the script is closed, or ignores it. -/
theorem Desk.Trail.handleLeftover {box : Mailbox} {rest rest' : List Message} {d' : Desk σ τ}
    (h : d.Trail box box (m :: rest) rest' d') (hm : m.file? = some file)
    (hlist : (BreakpointStore.list file d.workspace.store).2 = d.workspace.store)
    (ho : ∀ o, d.editor.scripts[file]? = some o → o.Ignores (d.workspace.listed file) m ∧
      ∃ t, d.workspace.scripts[file]? = some t) :
    ((Editor.handleNext c).outcome d).2.Trail box box rest rest' d' := by
  obtain ⟨queue, hw, htrail⟩ := h.withoutFirst
  rw [Editor.handleNext_cons hw]
  cases hopen : d.editor.scripts[file]? with
  | none =>
    obtain ⟨log, hhandle⟩ :=
      Editor.handle_closed (c := c) (d := d.withQueue (rest ++ queue)) hopen hm
    rw [hhandle]
    exact ⟨htrail.editor, htrail.workspace.logs log _⟩
  | some o =>
    obtain ⟨hignores, t, ht⟩ := ho o hopen
    obtain ⟨log, hhandle⟩ :=
      Editor.handle_unmoved (c := c) (d := d.withQueue (rest ++ queue)) hopen ht hm hlist
    have hsame : d.editor.scripts.insert file (o.hear (d.workspace.listed file) m) =
        d.editor.scripts := by
      rw [OpenScript.hear_eq_self.2 hignores, insert_of_getElem? hopen]
    rw [Desk.listed_withQueue, Desk.editor_withQueue, hsame] at hhandle
    rw [hhandle]
    exact ⟨htrail.editor, htrail.workspace.logs log _⟩

theorem Editor.handleNext_open {rest : List Message}
    (hw : d.workspace.waiting d.editor.inbox = m :: rest)
    (ho : d.editor.scripts[file]? = some o) (ht : d.workspace.scripts[file]? = some t)
    (hm : m.file? = some file)
    (hlist : (BreakpointStore.list file d.workspace.store).2 = d.workspace.store) :
    ((Editor.handleNext c).outcome d).2.editor.scripts[file]? =
      some (o.hear (d.workspace.listed file) m) := by
  obtain ⟨log, hhandle⟩ := Editor.handle_unmoved (c := c) (d := d.withQueue rest) ho ht hm hlist
  rw [Editor.handleNext_cons hw, hhandle]
  exact Std.ExtTreeMap.getElem?_insert_self

theorem Workspace.Called.unrefused {r r' : Refusing StoreCall τ} (h : Called r r')
    (hr : r.queues = fun _ ↦ []) : r'.queues = fun _ ↦ [] := by
  have hask {α : Type} {r : Refusing StoreCall τ} (hr : r.queues = fun _ ↦ []) (k : StoreCall)
      (call : τ → Except StorageFault α × τ) : (Refusing.ask k call r).2.queues = fun _ ↦ [] := by
    rw [Refusing.ask_of_unrefused hr]
    exact hr
  induction h with
  | nothing => exact hr
  | add file a _ ih => exact hask ih .add _
  | remove file a _ ih => exact hask ih .remove _
  | resync file as _ ih => exact hask ih .resync _
  | list file _ ih => exact hask ih .list _

end Desk

namespace Session

section Defs

variable {σ τ : Type}

def forgetting (i : Nat) (file : String) (s : Session σ τ) : Session σ τ :=
  match s.seats[i]? with
  | some seat =>
    s.setMail seat.inbox fun ch ↦ { ch with queue := Message.besides file ch.queue }
  | none => s

/-- The moves that are left of some where the editor at a seat does not have what there is about a
script in `old`, which waits first. -/
def without (i : Nat) (file : String) : List Message → List Move → List Move
  | [], ms => ms
  | _, [] => []
  | m :: old, .next j :: ms =>
    if j = i then
      if m.isAbout file then without i file old ms else .next j :: without i file old ms
    else .next j :: without i file (m :: old) ms
  | old, m :: ms => m :: without i file old ms

def singles (i : Nat) (s : Session σ τ) : Move → List Move
  | .editor j .runPending =>
    if j = i then List.replicate (s.inbox i).length (.next i) else [.editor j .runPending]
  | m => [m]

variable [Archive σ] [BreakpointStore τ] (c : Compiler)

def singly (i : Nat) : Session σ τ → List Move → List Move
  | _, [] => []
  | s, m :: ms => s.singles i m ++ singly i (move c m s).2 ms

/-- What the editor at a seat has open of a script ignores all messages about it that are in `old`,
which waits first, when it handles them. -/
def Ignores (i : Nat) (file : String) (old : List Message) (s : Session σ τ) (ms : List Move) :
    Prop :=
  ∀ ms' m o, ms' ++ [.next i] <+: ms → old[(s.allHandled c i ms').length]? = some m →
    m.file? = some file → (s.after c ms').shown i file = some o →
      o.Ignores ((s.after c ms').workspace.listed file) m

end Defs

variable {σ τ : Type} {i : Nat} {file : String} {s s' : Session σ τ} {m : Message} {o : OpenScript}
  {old old' : List Message} {ms : List Move}

section Moves

variable {mv : Move}

theorem without_next (h : m.file? ≠ some file) : without i file (m :: old) (.next i :: ms) =
    .next i :: without i file old ms := by
  rw [without, if_pos rfl, if_neg (by simpa [Message.isAbout] using h)]

theorem without_next_about (h : m.file? = some file) :
    without i file (m :: old) (.next i :: ms) = without i file old ms := by
  rw [without, if_pos rfl, if_pos (by simpa [Message.isAbout] using h)]

theorem without_cons (h : mv ≠ .next i) :
    without i file old (mv :: ms) = mv :: without i file old ms := by
  cases old with
  | nil => rw [without, without]
  | cons m old =>
    cases mv with
    | next j =>
      have hji : j ≠ i := fun hji ↦ h (hji ▸ rfl)
      rw [without, if_neg hji]
    | _ => simp [without]

theorem without_nil (old : List Message) : without i file old [] = [] := by
  cases old <;> rw [without]; nofun

end Moves

variable [Archive σ] [BreakpointStore τ] {c : Compiler} {archive : σ} {store : τ}
  {before : List Move}

section Singly

variable [LawfulStore τ]

omit [Archive σ] [BreakpointStore τ] [LawfulStore τ] in
theorem singles_of_ne {mv : Move} (h : mv ≠ .editor i .runPending) : s.singles i mv = [mv] := by
  cases mv with
  | editor j r =>
    cases r with
    | runPending =>
      have hji : j ≠ i := fun hji ↦ h (hji ▸ rfl)
      rw [singles, if_neg hji]
    | _ => rfl
  | _ => rfl

omit [Archive σ] [BreakpointStore τ] [LawfulStore τ] in
theorem pending_notMem_singles (mv : Move) : .editor i .runPending ∉ s.singles i mv := by
  by_cases h : mv = .editor i .runPending
  · subst h
    rw [singles, if_pos rfl]
    intro hmem
    cases List.eq_of_mem_replicate hmem
  · rw [singles_of_ne h, List.mem_singleton]
    exact Ne.symm h

omit [LawfulStore τ] in
theorem pending_notMem_singly (s : Session σ τ) (ms : List Move) :
    .editor i .runPending ∉ s.singly c i ms := by
  induction ms generalizing s with
  | nil => exact List.not_mem_nil
  | cons mv ms ih =>
    rw [singly, List.mem_append, not_or]
    exact ⟨pending_notMem_singles mv, ih _⟩

theorem after_singles (hs : s = (start archive store).after c before) (mv : Move) :
    s.after c (s.singles i mv) = (move c mv s).2 := by
  by_cases h : mv = .editor i .runPending
  · subst h
    rw [singles, if_pos rfl, runPending_eq (sound_after hs) (named_after hs i)]
  · rw [singles_of_ne h]
    rfl

/-- Mail that is handled message by message is handled as if all at once. -/
theorem after_singly (hs : s = (start archive store).after c before) (ms : List Move) :
    s.after c (s.singly c i ms) = s.after c ms := by
  induction ms generalizing s before with
  | nil => rfl
  | cons mv ms ih =>
    rw [singly, after, List.foldl_append]
    exact (congrArg (after c · _) (after_singles hs mv)).trans (ih (move_after hs mv))

end Singly

theorem ignores_nil : Ignores c i file old s [] := by
  intro ms' m o h
  simp at h

theorem ignores_cons {mv : Move} : Ignores c i file old s (mv :: ms) ↔
    (mv = .next i → ∀ m, old.head? = some m → m.file? = some file →
      ∀ o, s.shown i file = some o → o.Ignores (s.workspace.listed file) m) ∧
    Ignores c i file (old.drop (s.handled i mv).length) (move c mv s).2 ms := by
  constructor
  · intro h
    refine ⟨fun hnext m hm hfile o ↦ h [] m o ?_ ?_ hfile, fun ms' m o hms hm ↦ ?_⟩
    · rw [hnext]
      exact List.cons_prefix_cons.2 ⟨rfl, List.nil_prefix⟩
    · rw [← hm, List.head?_eq_getElem?]
      rfl
    · refine h (mv :: ms') m o (List.cons_prefix_cons.2 ⟨rfl, hms⟩) ?_
      rw [← hm, List.getElem?_drop, allHandled, List.length_append]
  · rintro ⟨hfirst, hrest⟩ ms' m o hms hm
    cases ms' with
    | nil =>
      rw [List.nil_append, List.cons_prefix_cons] at hms
      refine fun hfile ho ↦ hfirst hms.1.symm m ?_ hfile o ho
      rw [← hm, List.head?_eq_getElem?]
      rfl
    | cons mv' ms' =>
      rw [List.cons_append, List.cons_prefix_cons] at hms
      obtain ⟨rfl, hms⟩ := hms
      refine hrest ms' m o hms ?_
      rw [← hm, List.getElem?_drop, allHandled, List.length_append]

variable [LawfulStore τ]

theorem list_after (hs : s = (start archive store).after c before)
    (hlist : ∀ (file : String) (t : τ), (BreakpointStore.list file t).2 = t) (file : String) :
    (BreakpointStore.list file s.workspace.store).2 = s.workspace.store := by
  have hcalled : Called (start archive store).workspace.store s.workspace.store := by
    rw [hs]
    exact called_after (sound_start archive store) before
  have hask := Refusing.ask_of_unrefused (hcalled.unrefused rfl) .list (BreakpointStore.list file)
  refine (congrArg Prod.snd hask).trans ?_
  rw [hlist]

theorem shown_next (hs : s = (start archive store).after c before)
    (hlist : ∀ (file : String) (t : τ), (BreakpointStore.list file t).2 = t)
    (hinbox : (s.inbox i).head? = some m) (hm : m.file? = some file)
    (ho : s.shown i file = some o) :
    (move c (.next i) s).2.shown i file = some (o.hear (s.workspace.listed file) m) := by
  obtain ⟨rest, hinbox⟩ := List.head?_eq_some_iff.1 hinbox
  obtain hvacant | ⟨e, hi⟩ := (sound_after hs).seat_cases i
  · rw [(vacant_silent hvacant).1] at hinbox
    cases hinbox
  · obtain ⟨t, ht⟩ := tracked_after hs ho
    rw [inbox_seated hi] at hinbox
    rw [Session.shown, editorAt, hi] at ho
    have hnext := Editor.handleNext_open (c := c) (d := (⟨e, s.workspace⟩ : Session.Desk σ τ))
      hinbox ho ht hm (list_after hs hlist file)
    rw [move_next hi, Session.shown, editorAt, seats_put_self hi]
    exact hnext

namespace Trails

omit [Archive σ] [BreakpointStore τ] [LawfulStore τ] in
theorem inbox_head? (h : s.Trails i (m :: old) old' s') : (s.inbox i).head? = some m := by
  obtain ⟨e, hi, hw⟩ := h.workspace
  obtain ⟨queue, hq, -⟩ := hw.mail
  rw [inbox_seated hi, Workspace.waiting, hq]
  rfl

omit [LawfulStore τ] in
theorem next_first (h : s.Trails i (m :: old) (m :: old') s') :
    (Session.move c (.next i) s).2.Trails i old old' (Session.move c (.next i) s').2 := by
  obtain ⟨e, hi, hw⟩ := h.workspace
  refine of_atSeat h.seats hi hi ?_
  rw [outcome_bind_pure, outcome_bind_pure]
  exact (h.desk hi).handleFirst

omit [LawfulStore τ] in
theorem next_rest (h : s.Trails i [] [] s') :
    (Session.move c (.next i) s).2.Trails i [] [] (Session.move c (.next i) s').2 := by
  obtain ⟨e, hi, hw⟩ := h.workspace
  refine of_atSeat h.seats hi hi ?_
  rw [outcome_bind_pure, outcome_bind_pure]
  exact (h.desk hi).handleRest

theorem next_leftover (hs : s = (start archive store).after c before)
    (hlist : ∀ (file : String) (t : τ), (BreakpointStore.list file t).2 = t)
    (h : s.Trails i (m :: old) old' s') (hm : m.file? = some file)
    (hignores : ∀ o, s.shown i file = some o → o.Ignores (s.workspace.listed file) m) :
    (Session.move c (.next i) s).2.Trails i old old' s' := by
  obtain ⟨e, hi, hw⟩ := h.workspace
  have hshown : s.shown i file = e.scripts[file]? := by rw [Session.shown, editorAt, hi]; rfl
  have hd := (h.desk hi).handleLeftover (c := c) hm (list_after hs hlist file) fun o ho ↦
    ⟨hignores o (hshown.trans ho), tracked_after hs (hshown.trans ho)⟩
  obtain ⟨he, hinbox⟩ := hd.editor
  rw [move_next hi]
  generalize ((Editor.handleNext c).outcome ⟨e, s.workspace⟩).2 = d at hd he hinbox
  dsimp only at he hinbox
  refine ⟨?_, e, ?_, hd.workspace⟩
  · obtain ⟨hlt, hget⟩ := List.getElem?_eq_some_iff.1 hi
    rw [put, ← he, ← hget, List.set_getElem_self, h.seats]
  · rw [seats_put_self hi, ← he]

theorem shown_leftover_iff (hs : s = (start archive store).after c before)
    (hlist : ∀ (file : String) (t : τ), (BreakpointStore.list file t).2 = t)
    (h : s.Trails i (m :: old) old' s') (hm : m.file? = some file) :
    (Session.move c (.next i) s).2.shown i file = s'.shown i file ↔
      ∀ o, s.shown i file = some o → o.Ignores (s.workspace.listed file) m := by
  refine ⟨fun hsame o ho ↦ ?_, fun hignores ↦ ?_⟩
  · rw [shown_next hs hlist h.inbox_head? hm ho, h.shown, ho] at hsame
    exact OpenScript.hear_eq_self.1 (Option.some.inj hsame)
  · exact ((h.next_leftover hs hlist hm hignores).shown i file).symm

/-- The script is shown alike with and without the messages about it in `old`, whatever moves are
made, exactly if it ignores those that are handled when it is open. -/
theorem shown_along_iff (hs : s = (start archive store).after c before)
    (hlist : ∀ (file : String) (t : τ), (BreakpointStore.list file t).2 = t)
    (h : s.Trails i old (Message.besides file old) s') (hms : .editor i .runPending ∉ ms) :
    (∀ ms', ms' <+: ms →
      (s.after c ms').shown i file = (s'.after c (without i file old ms')).shown i file) ↔
      Ignores c i file old s ms := by
  induction ms generalizing s s' old before with
  | nil =>
    refine iff_of_true (fun ms' hms' ↦ ?_) ignores_nil
    rw [List.prefix_nil.1 hms', without_nil]
    exact (h.shown i file).symm
  | cons mv ms ih =>
    obtain ⟨hmv, hms⟩ := not_or.1 (mt List.mem_cons.2 hms)
    have hstart : (s.after c []).shown i file =
        (s'.after c (without i file old [])).shown i file := by
      rw [without_nil]
      exact (h.shown i file).symm
    rw [forall_prefix_cons, ignores_cons, and_iff_right hstart]
    have hrest {old₁ : List Message} {s₁' : Session σ τ}
        (h₁ : (Session.move c mv s).2.Trails i old₁ (Message.besides file old₁) s₁') :=
      ih (move_after hs mv) h₁ hms
    -- the sessions part only where the editor itself takes a message
    by_cases hnext : mv = .next i
    · subst hnext
      cases old with
      | nil =>
        rw [List.drop_nil, ← hrest h.next_rest]
        simp only [without]
        exact (and_iff_right nofun).symm
      | cons m old =>
        have hhandled : s.handled i (.next i) = [m] := by
          rw [handled, if_pos rfl, List.take_one, h.inbox_head?]
          rfl
        rw [hhandled, List.length_singleton, List.drop_succ_cons, List.drop_zero]
        simp only [List.head?_cons, Option.some.injEq, forall_eq', true_implies]
        by_cases hm : m.file? = some file
        · -- `s'` does not have the message, and makes no move here
          rw [Message.besides_cons_about hm] at h
          have hleft := h.shown_leftover_iff hs hlist hm
          simp only [without_next_about hm]
          constructor
          · intro hall
            have hignores := hleft.1 ((hall [] List.nil_prefix).trans (by rw [without_nil]; rfl))
            exact ⟨fun _ ↦ hignores, (hrest (h.next_leftover hs hlist hm hignores)).1 hall⟩
          · rintro ⟨hignores, hall⟩
            exact (hrest (h.next_leftover hs hlist hm (hignores hm))).2 hall
        · rw [Message.besides_cons hm] at h
          rw [← hrest h.next_first]
          simp only [without_next hm]
          exact (and_iff_right fun hfile ↦ absurd hfile hm).symm
    · have hmove := h.move (c := c) (sound_after hs) hnext (Ne.symm hmv)
      rw [handled_of_ne hnext (Ne.symm hmv), List.length_nil, List.drop_zero, ← hrest hmove]
      simp only [without_cons hnext]
      exact (and_iff_right fun h ↦ absurd h hnext).symm

end Trails

omit [Archive σ] [BreakpointStore τ] [LawfulStore τ] in
theorem trails_forgetting (hs : s.Sound) {e : Editor} (hi : s.seats[i]? = some ⟨e.inbox, some e⟩) :
    s.Trails i (s.inbox i) (Message.besides file (s.inbox i)) (s.forgetting i file) := by
  obtain ⟨queue, hq⟩ := hs.attends hi
  have hinbox : s.inbox i = queue := by
    rw [inbox_seated hi, Workspace.waiting, hq]
    rfl
  simp only [forgetting, hi]
  refine ⟨rfl, e, hi, hs.orderly.named, rfl, rfl, rfl, rfl, List.length_modify .., ?_, [], ?_, ?_⟩
  · exact fun hne ↦ List.getElem?_modify_ne _ _ (Ne.symm hne)
  · rw [hinbox, List.append_nil, hq]
  · rw [setMail, List.getElem?_modify_eq, hq, hinbox, List.append_nil]
    rfl

/-- Messages wait for an editor, perhaps from before it closed a script. Whatever moves are made
then, the script is shown all along as if no message about it had waited, exactly if each of these
messages tells nothing that is not shown already when it is handled with the script open. All mail
handled at once counts as handled message by message, which comes to the same. -/
theorem leftovers_ignored_iff (c : Compiler) (archive : σ) (store : τ) {before : List Move}
    {s : Session σ τ} (hlist : ∀ (file : String) (t : τ), (BreakpointStore.list file t).2 = t)
    (hs : s = (start archive store).after c before) (i : Nat) (file : String) (ms : List Move) :
    s.after c (s.singly c i ms) = s.after c ms ∧
    ((∀ ms', ms' <+: s.singly c i ms → (s.after c ms').shown i file =
        ((s.forgetting i file).after c (without i file (s.inbox i) ms')).shown i file) ↔
      Ignores c i file (s.inbox i) s (s.singly c i ms)) := by
  refine ⟨after_singly hs ms, ?_⟩
  obtain hi | ⟨e, hi⟩ := (sound_after hs).seat_cases i
  · rw [(vacant_silent hi).1]
    simp only [forgetting, hi, without, implies_true, true_iff]
    exact fun ms' m o _ hm ↦ nomatch hm
  · exact (trails_forgetting (sound_after hs) hi).shown_along_iff hs hlist
      (pending_notMem_singly s ms)

/-- A breakpoint is added, and the message of it waits still when the script is closed and opened
again. -/
theorem leftover_breakpoint_still_armed :
    ∃ s, s = (start (ArchiveMap.ofList [("a", Utf8.encode "routine 5\n    a\n")])
        (⟨∅, ()⟩ : Ledger Unit)).after Listing.compiler [.newEditor, .editor 0 (.openScript "a"),
          .ask (.addBreakpoint "a" 1 .primary), .editor 0 (.closeScript "a" true)] ∧
      s.shown 0 "a" = none ∧ (s.inbox 0).length = 1 ∧
      (s.after Listing.compiler [.editor 0 (.openScript "a"), .editor 0 .runPending]).shown 0 "a" =
        ((s.forgetting 0 "a").after Listing.compiler [.editor 0 (.openScript "a")]).shown 0 "a" ∧
      ((s.after Listing.compiler [.editor 0 (.openScript "a"), .editor 0 .runPending]).shown 0
        "a").map (·.buffer.markers[(⟨5, 0⟩ : Address)]?) = some (some 1) := by
  obtain ⟨s, hs⟩ : ∃ s, s = (start (ArchiveMap.ofList [("a", Utf8.encode "routine 5\n    a\n")])
      (⟨∅, ()⟩ : Ledger Unit)).after Listing.compiler [.newEditor, .editor 0 (.openScript "a"),
        .ask (.addBreakpoint "a" 1 .primary), .editor 0 (.closeScript "a" true)] := ⟨_, rfl⟩
  obtain ⟨s₁, hs₁⟩ : ∃ s₁, s₁ = (move Listing.compiler (.editor 0 (.openScript "a")) s).2 :=
    ⟨_, rfl⟩
  have hclosed : (s.shown 0 "a").isNone = true := by
    rw [hs]
    decide +kernel
  have hinbox : (s.inbox 0).map (fun m ↦ (m.file?, m.added?)) = [(some "a", some ⟨5, 0⟩)] := by
    rw [hs]
    decide +kernel
  have hlength : (s₁.inbox 0).length = 1 := by
    rw [hs₁, hs]
    decide +kernel
  have hopen : (s₁.shown 0 "a").all (fun o ↦ [Projection.primary, .derived].all fun p ↦
      (o.buffers.get p).markers[(⟨5, 0⟩ : Address)]? = (o.buffers.get p).marks.line? ⟨5, 0⟩) =
        true := by
    rw [hs₁, hs]
    decide +kernel
  have hmarker : ((s.after Listing.compiler
      [.editor 0 (.openScript "a"), .editor 0 .runPending]).shown 0 "a").map
        (·.buffer.markers[(⟨5, 0⟩ : Address)]?) = some (some 1) := by
    rw [hs]
    decide +kernel
  obtain ⟨m, hm, hadded⟩ := List.map_eq_singleton_iff.1 hinbox
  obtain ⟨hfile, hadded⟩ := Prod.mk.inj hadded
  obtain ⟨f, rfl⟩ := Message.added?_eq_some.1 hadded
  have hsingly : s.singly Listing.compiler 0 [.editor 0 (.openScript "a"), .editor 0 .runPending] =
      [.editor 0 (.openScript "a"), .next 0] := by
    simp only [singly, singles, ← hs₁, hlength, if_true]
    rfl
  have hleft : without 0 "a" (s.inbox 0) [.editor 0 (.openScript "a"), .next 0] =
      [.editor 0 (.openScript "a")] := by
    rw [hm, without_cons, without_next_about hfile, without]
    nofun
  have hignores : Ignores Listing.compiler 0 "a" (s.inbox 0) s
      [.editor 0 (.openScript "a"), .next 0] := by
    refine ignores_cons.2 ⟨nofun, ignores_cons.2 ⟨fun _ m hm' _ o ho ↦ ?_, ignores_nil⟩⟩
    rw [hm] at hm'
    obtain rfl := Option.some.inj hm'
    rw [← hs₁] at ho
    rw [ho, Option.all_some, List.all_eq_true] at hopen
    intro p line hline
    refine (of_decide_eq_true (hopen p ?_)).trans hline
    cases p <;> simp
  obtain ⟨hsame, hignored⟩ := leftovers_ignored_iff Listing.compiler _ _ (fun _ _ ↦ rfl) hs 0 "a"
    [.editor 0 (.openScript "a"), .editor 0 .runPending]
  rw [hsingly] at hsame hignored
  have hend := hignored.2 hignores _ (List.prefix_refl _)
  rw [hleft, hsame] at hend
  exact ⟨s, hs, Option.isNone_iff_eq_none.1 hclosed, by rw [hm]; rfl, hend, hmarker⟩

/-- A breakpoint is added, the script is closed, and the breakpoint is removed. When the script is
open again, the message that it was added is handled, and it is shown though it is not armed. -/
theorem leftover_breakpoint_shown_unarmed :
    ∃ s s₁, s = (start (ArchiveMap.ofList [("a", Utf8.encode "routine 5\n    a\n")])
        (⟨∅, ()⟩ : Ledger Unit)).after Listing.compiler [.newEditor, .editor 0 (.openScript "a"),
          .ask (.addBreakpoint "a" 1 .primary), .editor 0 (.closeScript "a" true),
          .ask (.removeBreakpoint "a" ⟨5, 0⟩)] ∧
      s.shown 0 "a" = none ∧
      s₁ = s.after Listing.compiler [.editor 0 (.openScript "a"), .editor 0 .runPending] ∧
      (s₁.shown 0 "a").map (·.buffer.markers[(⟨5, 0⟩ : Address)]?) = some (some 1) ∧
      (((s.forgetting 0 "a").after Listing.compiler [.editor 0 (.openScript "a")]).shown 0 "a").map
        (·.buffer.markers[(⟨5, 0⟩ : Address)]?) = some none ∧
      s₁.workspace.listed "a" = [] ∧ (s₁.inbox 0).isEmpty = true := by
  obtain ⟨s, hs⟩ : ∃ s, s = (start (ArchiveMap.ofList [("a", Utf8.encode "routine 5\n    a\n")])
      (⟨∅, ()⟩ : Ledger Unit)).after Listing.compiler [.newEditor, .editor 0 (.openScript "a"),
        .ask (.addBreakpoint "a" 1 .primary), .editor 0 (.closeScript "a" true),
        .ask (.removeBreakpoint "a" ⟨5, 0⟩)] := ⟨_, rfl⟩
  obtain ⟨s₁, hs₁⟩ : ∃ s₁, s₁ = s.after Listing.compiler
      [.editor 0 (.openScript "a"), .editor 0 .runPending] := ⟨_, rfl⟩
  have hclosed : (s.shown 0 "a").isNone = true := by
    rw [hs]
    decide +kernel
  have hmarker : (s₁.shown 0 "a").map (·.buffer.markers[(⟨5, 0⟩ : Address)]?) =
      some (some 1) := by
    rw [hs₁, hs]
    decide +kernel
  have hnone : (((s.forgetting 0 "a").after Listing.compiler
      [.editor 0 (.openScript "a")]).shown 0 "a").map (·.buffer.markers[(⟨5, 0⟩ : Address)]?) =
        some none := by
    rw [hs]
    decide +kernel
  have hlisted : s₁.workspace.listed "a" = [] := by
    rw [hs₁, hs]
    decide +kernel
  have hread : (s₁.inbox 0).isEmpty = true := by
    rw [hs₁, hs]
    decide +kernel
  exact ⟨s, s₁, hs, Option.isNone_iff_eq_none.1 hclosed, hs₁, hmarker, hnone, hlisted, hread⟩

end Session

end ScriptBreakpoints
