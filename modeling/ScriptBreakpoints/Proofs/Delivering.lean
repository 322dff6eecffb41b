import ScriptBreakpoints.Compiler.Listing
import ScriptBreakpoints.Proofs.Attending
import ScriptBreakpoints.Proofs.Promotion

namespace ScriptBreakpoints

open Fallible Workspace

variable {σ τ : Type}

section Emitting

variable [Archive σ] [BreakpointStore τ] (c : Compiler)

def Request.emits (r : Request) (w : Workspace σ τ) : List Message :=
  match ((r.perform c).outcome w).1, ((script c r.file).outcome w).1 with
  | .ok _, .ok s => (r.posts c s).toList
  | _, _ => []

/-- What is emitted while a workspace is asked one thing after the other. What else happens to it is
about mail and the log. -/
inductive Emits (w : Workspace σ τ) : List Message → Workspace σ τ → Prop
  | nothing : Emits w [] w
  | ask {ms : List Message} {w₁ : Workspace σ τ} (r : Request) : Emits w ms w₁ →
      Emits w (ms ++ r.emits c w₁) ((r.perform c).outcome w₁).2
  | aside {ms : List Message} {w₁ w₂ : Workspace σ τ} : Emits w ms w₁ →
      w₂.archive = w₁.archive → w₂.store = w₁.store → w₂.scripts = w₁.scripts → Emits w ms w₂

variable {c}

theorem Emits.trans {w w₁ w₂ : Workspace σ τ} {ms ms' : List Message} (h : Emits c w ms w₁)
    (h' : Emits c w₁ ms' w₂) : Emits c w (ms ++ ms') w₂ := by
  induction h' with
  | nothing => rwa [List.append_nil]
  | ask r _ ih =>
    rw [← List.append_assoc]
    exact ih.ask r
  | aside _ ha ht hs ih => exact ih.aside ha ht hs

theorem Emits.quiet {w w₁ : Workspace σ τ} {ms : List Message} (h : Emits c w ms w₁) {r : Request}
    (hr : ∀ s, r.posts c s = none) : Emits c w ms ((r.perform c).outcome w₁).2 := by
  have hnothing : r.emits c w₁ = [] := by
    simp only [Request.emits, hr, Option.toList_none]
    split <;> rfl
  have hasked := h.ask r
  rwa [hnothing, List.append_nil] at hasked

end Emitting

namespace Workspace

def hears (w : Workspace σ τ) (box : Mailbox) (m : Message) : Bool :=
  m.file?.any fun file ↦ box ∈ w.audience file

def Delivered (ms : List Message) (w w' : Workspace σ τ) : Prop :=
  ∀ box : Mailbox, w'.mail[box]? = w.mail[box]?.map (·.fill (ms.filter (w.hears box)))

variable {w w₁ w₂ : Workspace σ τ} {ms ms' : List Message}

theorem delivered_nothing (h : w₁.mail = w.mail) : Delivered [] w w₁ := by
  intro box
  simp only [h, List.filter_nil, Channel.fill_nil, Option.map_id']

theorem Delivered.trans (h : Delivered ms w w₁) (hl : w₁.listeners = w.listeners)
    (h' : Delivered ms' w₁ w₂) : Delivered (ms ++ ms') w w₂ := by
  intro box
  have haudience (file : String) : w₁.audience file = w.audience file := by
    rw [audience, hl, audience]
  have hsame : w₁.hears box = w.hears box := by
    funext m
    simp only [hears, haudience]
  rw [h', h, hsame, Option.map_map, List.filter_append]
  congr 1
  funext ch
  exact ch.fill_fill _ _

theorem Delivered.waiting {box : Mailbox} (h : Delivered ms w w₁) (hbox : w.Attends box) :
    w₁.waiting box = w.waiting box ++ ms.filter (w.hears box) := by
  obtain ⟨queue, hq⟩ := hbox
  rw [Workspace.waiting, h, Workspace.waiting, hq]
  rfl

section Requests

variable [Archive σ] [BreakpointStore τ] {c : Compiler} {file : String}
  {asked : Request → Prop} {w₀ : Workspace σ τ} {box : Mailbox}

theorem delivered_emits (r : Request) (hw : w.Orderly) :
    Delivered (r.emits c w) w ((r.perform c).outcome w).2 := by
  have hend := r.respond c w
  rw [Request.emits]
  generalize (r.perform c).outcome w = o at hend ⊢
  rcases o with ⟨result, w'⟩
  dsimp only at hend ⊢
  cases hend with
  | unfound _ hp => exact delivered_nothing hp.mail
  | refused _ _ _ hm => exact delivered_nothing hm
  | unrestored _ _ _ _ hm => exact delivered_nothing hm
  | @granted a s w' hf _ _ hm =>
    simp only [hf.outcome]
    cases hp : r.posts c s with
    | none =>
      rw [hp] at hm
      exact delivered_nothing hm
    | some m =>
      rw [hp] at hm
      intro box
      have hhears : w.hears box m = decide (box ∈ w.audience r.file) := by
        rw [hears, Request.posts_file (hw.found hf) hp, Option.any_some]
      rw [told_deliver hw hm box]
      by_cases hb : box ∈ w.audience r.file <;> simp [hhears, hb]

theorem spares_delivered (w₀ : Workspace σ τ) :
    Spares c file asked fun d : Desk σ τ ↦ d.workspace.Orderly ∧
      d.workspace.listeners = w₀.listeners ∧
      ∃ ms, Emits c w₀ ms d.workspace ∧ Delivered ms w₀ d.workspace where
  log _ hd := by
    obtain ⟨horderly, hl, ms, hemits, hdelivered⟩ := hd
    exact ⟨⟨horderly.named, horderly.listed⟩, hl, ms, hemits.aside rfl rfl rfl, hdelivered⟩
  scripts _ hd := hd
  ask {d r} _ hd := by
    obtain ⟨horderly, hl, ms, hemits, hdelivered⟩ := hd
    exact ⟨horderly.perform r, (r.respond c d.workspace).unheard.1.trans hl, _, hemits.ask r,
      hdelivered.trans hl (delivered_emits r horderly)⟩

theorem bears_quiet (hasked : ∀ r, asked r → ∀ s, r.posts c s = none) :
    Bears c box file asked fun d : Desk σ τ ↦ Emits c w₀ [] d.workspace ∧
      d.workspace.mail = w₀.mail ∧ d.editor.inbox = box where
  inbox hd := hd.2.2
  log _ hd := ⟨hd.1.aside rfl rfl rfl, hd.2⟩
  scripts _ hd := hd
  ask {d r} hr hd := by
    have hmail := (r.respond c d.workspace).mail_eq fun s _ ↦ hasked r hr s
    exact ⟨hd.1.quiet (hasked r hr), hmail.trans hd.2.1, hd.2.2⟩
  listen {d} hd := by
    obtain ⟨listeners, ho⟩ := listen_outcome file box d.workspace
    rw [ho]
    exact ⟨hd.1.aside rfl rfl rfl, hd.2⟩
  unlisten {d} hd := by
    obtain ⟨listeners, ho⟩ := unlisten_outcome file box d.workspace
    rw [ho]
    exact ⟨hd.1.aside rfl rfl rfl, hd.2⟩

end Requests

end Workspace

section Desk

variable [Archive σ] [BreakpointStore τ] {c : Compiler} {d : Desk σ τ} {file : String}
  {r : EditorRequest}

theorem EditorRequest.quiet_of_relistens {e : Editor} {asked : Request}
    (hr : r.relistens = true) (h : r.asks e asked) (s : Script) : asked.posts c s = none := by
  cases entails_of_asks h with
  | openInEditor | listBreakpoints | closeInEditor => rfl
  | _ => cases hr

theorem Editor.handleNext_emits (d : Desk σ τ) :
    Emits c d.workspace [] ((Editor.handleNext c).outcome d).2.workspace := by
  refine (Editor.keeps_handleNext (I := fun d' ↦ Emits c d.workspace [] d'.workspace ∧
    d'.editor.inbox = d.editor.inbox) (fun d' queue hd' ↦ ⟨hd'.1.aside rfl rfl rfl, hd'.2⟩)
    (Editor.keeps_handle fun file ↦ ?_) d ⟨.nothing, rfl⟩).1
  exact ⟨fun _ hd' ↦ ⟨hd'.1.aside rfl rfl rfl, hd'.2⟩, fun _ hd' ↦ hd',
    fun hr hd' ↦ ⟨hd'.1.quiet fun _ ↦ hr ▸ rfl, hd'.2⟩⟩

/-- What an editor emits while it does what it was asked about a script is delivered. -/
theorem EditorRequest.delivers (hd : d.workspace.Orderly) (hfile : r.file? = some file) :
    ∃ ms, Emits c d.workspace ms ((r.perform c).outcome d).2.workspace ∧
      (r.relistens = true → ms = []) ∧
      Delivered ms d.workspace ((r.perform c).outcome d).2.workspace := by
  cases hlistens : r.relistens with
  | false =>
    obtain ⟨-, -, ms, hemits, hdelivered⟩ :=
      (spares_delivered (c := c) d.workspace).editorRequest hfile hlistens
        ⟨hd, rfl, [], .nothing, delivered_nothing rfl⟩
    exact ⟨ms, hemits, (absurd · Bool.false_ne_true), hdelivered⟩
  | true =>
    have hbears : Bears c d.editor.inbox file (r.asks d.editor) fun d' : Desk σ τ ↦
        Emits c d.workspace [] d'.workspace ∧ d'.workspace.mail = d.workspace.mail ∧
          d'.editor.inbox = d.editor.inbox := bears_quiet fun _ ↦ quiet_of_relistens hlistens
    obtain ⟨hemits, hmail, -⟩ := hbears.editorRequest hfile ⟨.nothing, rfl, rfl⟩
    exact ⟨[], hemits, fun _ ↦ rfl, delivered_nothing hmail⟩

end Desk

def Workspace.Populated (w : Workspace σ τ) : Prop :=
  ∀ file : String, w.listeners[file]? ≠ some []

theorem Workspace.Populated.bears [Archive σ] [BreakpointStore τ] [LawfulStore τ] (c : Compiler)
    (box : Mailbox) (file : String) (asked : Request → Prop) :
    Bears c box file asked fun d : Desk σ τ ↦ d.workspace.Populated ∧ d.editor.inbox = box where
  inbox hd := hd.2
  log _ hd := hd
  scripts _ hd := hd
  ask {d r} _ hd := by
    refine ⟨fun other ↦ ?_, hd.2⟩
    rw [(r.respond c d.workspace).unheard.1]
    exact hd.1 other
  listen {d} hd := by
    refine ⟨?_, hd.2⟩
    simp only [listen, outcome_modify]
    split
    · exact hd.1
    · intro other hempty
      obtain ⟨-, h⟩ | ⟨-, h⟩ := cases_of_insert hempty
      · exact List.append_ne_nil_of_right_ne_nil _ (List.cons_ne_nil box []) h.symm
      · exact hd.1 other h
  unlisten {d} hd := by
    refine ⟨?_, hd.2⟩
    simp only [unlisten, outcome_modify]
    split
    · intro other hempty
      by_cases ho : other = file
      · rw [ho, Std.ExtTreeMap.getElem?_erase_self] at hempty
        cases hempty
      · rw [getElem?_erase_of_ne ho] at hempty
        exact hd.1 other hempty
    · next hne =>
      intro other hempty
      obtain ⟨-, h⟩ | ⟨-, h⟩ := cases_of_insert hempty
      · exact hne h.symm
      · exact hd.1 other h

/-- Whether nothing is emitted in a move: an editor opens or closes a script or handles its mail, or
it is a new one. -/
def Move.silent : Move → Bool
  | .ask _ => false
  | .editor _ r => r.relistens || r.file?.isNone
  | _ => true

namespace Session

variable [Archive σ] [BreakpointStore τ] [LawfulStore τ] {c : Compiler} {s : Session σ τ}
  {i j : Nat} {e e' : Editor} {d : Desk σ τ} {m : Move} {archive : σ} {store : τ}
  {ms : List Move}

def shows (s : Session σ τ) (i : Nat) (m : Message) : Bool :=
  m.file?.any fun file ↦ (s.shown i file).isSome

theorem populated_after (hs : s.Sound) (h : s.workspace.Populated) (ms : List Move) :
    (s.after c ms).workspace.Populated := by
  induction ms generalizing s with
  | nil => exact h
  | cons m ms ih =>
    refine ih (hs.move m) ?_
    by_cases hm : m = .newEditor
    · subst hm
      exact h
    · exact bears_move (fun box file ↦ Populated.bears c box file fun _ ↦ True)
        (fun _ _ _ hw ↦ hw) hs hm (fun _ _ ↦ trivial) h

omit [Archive σ] [BreakpointStore τ] [LawfulStore τ] in
theorem inboxes_put (hj : s.seats[j]? = some ⟨e.inbox, some e⟩) (hd : d.editor.inbox = e.inbox) :
    (s.put j d).seats.map (·.inbox) = s.seats.map (·.inbox) := by
  refine List.ext_getElem? fun i ↦ ?_
  rw [List.getElem?_map, List.getElem?_map]
  by_cases hij : i = j
  · rw [hij, seats_put_self hj, hj, Option.map_some, Option.map_some, hd]
  · rw [seats_put_of_ne hij]

theorem inboxes_move (hs : s.Sound) (hm : m ≠ .newEditor) :
    (move c m s).2.seats.map (·.inbox) = s.seats.map (·.inbox) := by
  have hnext (s : Session σ τ) (hs : s.Sound) (i : Nat) :
      (move c (.next i) s).2.seats.map (·.inbox) = s.seats.map (·.inbox) := by
    obtain hi | ⟨e, hi⟩ := hs.seat_cases i
    · rw [(move_vacant hi .runPending).2]
    · rw [move_next hi]
      exact inboxes_put hi (Editor.handleNext_inbox _)
  cases m with
  | newEditor => exact absurd rfl hm
  | ask r => rfl
  | next i => exact hnext s hs i
  | editor i r =>
    cases hfile : r.file? with
    | none =>
      obtain rfl := EditorRequest.file?_eq_none.1 hfile
      exact runPending_keeps (P := fun s' ↦ s'.seats.map (·.inbox) = s.seats.map (·.inbox)) hs
        (fun s' hs' h ↦ (hnext s' hs' i).trans h) rfl
    | some file =>
      obtain hi | ⟨e, hi⟩ := hs.seat_cases i
      · rw [(move_vacant hi r).1]
      · rw [move_editor hs hi hfile]
        exact inboxes_put hi
          (Framed.editorRequest _ remembers_nothing trivial hs.orderly hfile).inbox

theorem length_mail_move (hs : s.Sound) (hm : m ≠ .newEditor) :
    (move c m s).2.workspace.mail.length = s.workspace.mail.length := by
  have hpasses : s.workspace.Passes c (fun _ ↦ False) (move c m s).2.workspace :=
    bears_move (I := fun w ↦ s.workspace.Passes c (fun _ ↦ False) w)
      (fun box file ↦ Workspace.Passes.bears s.workspace _ not_false file fun _ ↦ True)
      (fun w box queue hw ↦ hw.withQueue (d := ⟨{ inbox := box }, w⟩) not_false) hs hm
      (fun _ _ ↦ trivial) (.refl hs.orderly)
  exact hpasses.length

theorem numbered_after (hs : s.Sound)
    (h : s.seats.map (·.inbox) = List.range s.workspace.mail.length) (ms : List Move) :
    (s.after c ms).seats.map (·.inbox) = List.range (s.after c ms).workspace.mail.length := by
  induction ms generalizing s with
  | nil => exact h
  | cons m ms ih =>
    refine ih (hs.move m) ?_
    dsimp only
    by_cases hm : m = .newEditor
    · subst hm
      simp only [move, step, newEditor, List.map_append, List.map_cons, List.map_nil, h,
        List.length_append, List.length_singleton, List.range_succ]
    · rw [inboxes_move hs hm, length_mail_move hs hm, h]

theorem editor_of_box (hs : s = (start archive store).after c ms) {box : Mailbox}
    (hbox : box < s.workspace.mail.length) : ∃ i e, s.editorAt i = some e ∧ e.inbox = box := by
  have hsound := sound_after hs
  have hnumbered : s.seats.map (·.inbox) = List.range s.workspace.mail.length := by
    rw [hs]
    exact numbered_after (sound_start archive store) rfl ms
  have hmem : box ∈ s.seats.map (·.inbox) := by
    rw [hnumbered]
    exact List.mem_range.2 hbox
  obtain ⟨seat, hseat, rfl⟩ := List.mem_map.1 hmem
  obtain ⟨i, hi⟩ := List.getElem?_of_mem hseat
  obtain ⟨e, rfl, -⟩ := hsound.seated hi
  exact ⟨i, e, by rw [editorAt, hi]; rfl, rfl⟩

omit [Archive σ] [BreakpointStore τ] [LawfulStore τ] in
theorem inbox_seated (hi : s.seats[i]? = some ⟨e.inbox, some e⟩) :
    s.inbox i = s.workspace.waiting e.inbox := by
  rw [inbox, editorAt, hi]
  rfl

omit [Archive σ] [BreakpointStore τ] [LawfulStore τ] in
theorem inbox_put (hi : s.seats[i]? = some ⟨e.inbox, some e⟩)
    (hj : s.seats[j]? = some ⟨e'.inbox, some e'⟩) (hd : d.editor.inbox = e'.inbox) :
    (s.put j d).inbox i = d.workspace.waiting e.inbox := by
  by_cases hij : i = j
  · subst hij
    obtain rfl := seated_unique hi hj
    rw [← hd]
    exact inbox_seated (seats_put_self hi)
  · refine inbox_seated (s := s.put j d) ?_
    rw [seats_put_of_ne hij, hi]

omit [LawfulStore τ] in
theorem inbox_next_or (hs : s.Sound) (i j : Nat) :
    (move c (.next j) s).2.inbox i = s.inbox i ∨
      i = j ∧ ∃ m, s.inbox i = m :: (move c (.next j) s).2.inbox i := by
  obtain hj | ⟨e', hj⟩ := hs.seat_cases j
  · rw [(move_vacant hj .runPending).2]
    exact .inl rfl
  cases hw : s.inbox j with
  | nil =>
    rw [inbox_seated hj] at hw
    rw [move_next hj, Editor.handleNext_nil (d := ⟨e', s.workspace⟩) hw, put_self hj]
    exact .inl rfl
  | cons m rest =>
    by_cases hij : i = j
    · subst hij
      exact .inr ⟨rfl, m, by rw [inbox_next hs hw, hw]⟩
    refine .inl ?_
    rw [inbox_seated hj] at hw
    obtain ⟨hmail, hinbox⟩ := Editor.handle_mail (c := c) m
      ((⟨e', s.workspace⟩ : Session.Desk σ τ).withQueue rest)
    rw [move_next hj, Editor.handleNext_cons hw]
    obtain hi | ⟨e, hi⟩ := hs.seat_cases i
    · rw [inbox, inbox, editorAt, editorAt, seats_put_of_ne hij, hi]
      rfl
    · have hbox : e.inbox ≠ e'.inbox := fun h ↦ hij (hs.apart hi hj h)
      rw [inbox_put hi hj hinbox, inbox_seated hi, waiting, hmail]
      exact Desk.waiting_withQueue_of_ne hbox

omit [LawfulStore τ] in
theorem next_emits (hs : s.Sound) (j : Nat) :
    Emits c s.workspace [] (move c (.next j) s).2.workspace := by
  obtain hj | ⟨e, hj⟩ := hs.seat_cases j
  · rw [(move_vacant hj .runPending).2]
    exact .nothing
  · rw [move_next hj]
    exact Editor.handleNext_emits (⟨e, s.workspace⟩ : Session.Desk σ τ)

/-- The mail of every editor after the move `m`: behind what was there, less what the editor
handled, come those of the messages `ms` that are about scripts which it shows. -/
def Received (m : Move) (ms : List Message) (s s' : Session σ τ) : Prop :=
  ∀ i, ∃ handled rest, s.inbox i = handled ++ rest ∧
    (handled ≠ [] → m = .next i ∨ m = .editor i .runPending) ∧
    s'.inbox i = rest ++ ms.filter (s.shows i)

omit [Archive σ] [BreakpointStore τ] [LawfulStore τ] in
theorem received_nothing {s' : Session σ τ} (h : ∀ i, s'.inbox i = s.inbox i) :
    Received m [] s s' :=
  fun i ↦ ⟨[], s.inbox i, rfl, absurd rfl, by rw [h, List.filter_nil, List.append_nil]⟩

omit [Archive σ] [BreakpointStore τ] [LawfulStore τ] in
theorem vacant_silent (hi : s.seats[i]? = none) :
    s.inbox i = [] ∧ ∀ ms : List Message, ms.filter (s.shows i) = [] := by
  have hvacant : s.editorAt i = none := by rw [editorAt, hi, Option.bind_none]
  refine ⟨by rw [inbox, hvacant]; rfl, fun ms ↦ List.filter_eq_nil_iff.2 fun m _ ↦ ?_⟩
  simp [shows, shown, hvacant]

omit [Archive σ] [BreakpointStore τ] [LawfulStore τ] in
theorem inbox_newEditor (hs : s.Sound) (i : Nat) : s.newEditor.inbox i = s.inbox i := by
  have hseats : s.newEditor.seats = s.seats ++
    [(⟨s.workspace.mail.length, some { inbox := s.workspace.mail.length }⟩ : Seat)] := rfl
  have hold {box : Mailbox} (hlt : box < s.workspace.mail.length) :
      s.newEditor.workspace.waiting box = s.workspace.waiting box := by
    rw [waiting, newEditor, List.getElem?_append_left hlt, waiting]
  have hnew : s.newEditor.workspace.waiting s.workspace.mail.length = [] := by
    simp [waiting, newEditor, Channel.new]
  obtain hi | ⟨e, hi⟩ := hs.seat_cases i
  · rw [(vacant_silent hi).1, inbox, editorAt, hseats, List.getElem?_append_right
      (List.getElem?_eq_none_iff.1 hi), List.getElem?_singleton]
    split
    · exact hnew
    · rfl
  · have hseat : s.newEditor.seats[i]? = some ⟨e.inbox, some e⟩ := by
      rw [hseats, List.getElem?_append_left (List.getElem?_eq_some_iff.1 hi).1, hi]
    rw [inbox_seated hseat, hold (hs.inbox_lt hi), inbox_seated hi]

section Received

variable (hs : s.Sound) (hshows : ∀ {i : Nat} {e : Editor}, s.seats[i]? = some ⟨e.inbox, some e⟩ →
  s.workspace.hears e.inbox = s.shows i)

include hs hshows

omit [Archive σ] [BreakpointStore τ] [LawfulStore τ] in
theorem received_of_delivered {s' : Session σ τ} {ms : List Message}
    (hdelivered : Delivered ms s.workspace s'.workspace)
    (hvacant : ∀ {i : Nat}, s.seats[i]? = none → s'.seats[i]? = none)
    (hseated : ∀ {i : Nat} {e : Editor}, s.seats[i]? = some ⟨e.inbox, some e⟩ →
      s'.inbox i = s'.workspace.waiting e.inbox) : Received m ms s s' := by
  intro i
  refine ⟨[], s.inbox i, rfl, absurd rfl, ?_⟩
  obtain hi | ⟨e, hi⟩ := hs.seat_cases i
  · rw [(vacant_silent hi).2, (vacant_silent hi).1, (vacant_silent (hvacant hi)).1, List.append_nil]
  · rw [hseated hi, hdelivered.waiting (hs.attends hi), inbox_seated hi, hshows hi]

/-- What is emitted in a move arrives with all that show the script, if they are those who listen.
-/
theorem received_move (m : Move) :
    ∃ emitted, Emits c s.workspace emitted (move c m s).2.workspace ∧
      (m.silent = true → emitted = []) ∧ Received m emitted s (move c m s).2 := by
  cases m with
  | ask r =>
    refine ⟨r.emits c s.workspace, Emits.nothing.ask r, (absurd · Bool.false_ne_true), ?_⟩
    exact received_of_delivered hs hshows (delivered_emits r hs.orderly) id
      fun hi ↦ inbox_seated (s := (move c (.ask r) s).2) hi
  | newEditor =>
    exact ⟨[], Emits.nothing.aside rfl rfl rfl, fun _ ↦ rfl,
      received_nothing (inbox_newEditor hs)⟩
  | next j =>
    refine ⟨[], next_emits hs j, fun _ ↦ rfl, fun i ↦ ?_⟩
    rw [List.filter_nil]
    obtain h | ⟨rfl, m, h⟩ := inbox_next_or (c := c) hs i j
    · exact ⟨[], s.inbox i, rfl, absurd rfl, by rw [h, List.append_nil]⟩
    · exact ⟨[m], _, h, fun _ ↦ .inl rfl, (List.append_nil _).symm⟩
  | editor j r =>
    cases hfile : r.file? with
    | some file =>
      obtain hj | ⟨e, hj⟩ := hs.seat_cases j
      · rw [(move_vacant hj r).1]
        exact ⟨[], .nothing, fun _ ↦ rfl, received_nothing fun _ ↦ rfl⟩
      · obtain ⟨emitted, hemits, hquiet, hdelivered⟩ := EditorRequest.delivers (c := c)
          (d := ⟨e, s.workspace⟩) hs.orderly hfile
        have hframed := Framed.editorRequest (c := c) ⟨e, s.workspace⟩ remembers_nothing trivial
          hs.orderly hfile
        rw [move_editor hs hj hfile]
        refine ⟨emitted, hemits, fun hsilent ↦ hquiet ?_, received_of_delivered hs hshows hdelivered
          seats_put_none fun hi ↦ inbox_put hi hj hframed.inbox⟩
        rwa [Move.silent, hfile, Option.isNone_some, Bool.or_false] at hsilent
    | none =>
      obtain rfl := EditorRequest.file?_eq_none.1 hfile
      obtain ⟨hemits, hmail⟩ := runPending_keeps (c := c) (i := j)
        (P := fun s' ↦ Emits c s.workspace [] s'.workspace ∧
          ∀ i, ∃ handled, s.inbox i = handled ++ s'.inbox i ∧ (handled ≠ [] → i = j)) hs
        (fun s' hs' h ↦ by
          refine ⟨h.1.trans (next_emits hs' j), fun i ↦ ?_⟩
          obtain ⟨handled, hmail, hown⟩ := h.2 i
          obtain hsame | ⟨hij, m, hnext⟩ := inbox_next_or (c := c) hs' i j
          · exact ⟨handled, by rw [hsame, hmail], hown⟩
          · exact ⟨handled ++ [m], by rw [hmail, hnext, List.append_assoc]; rfl, fun _ ↦ hij⟩)
        ⟨.nothing, fun i ↦ ⟨[], rfl, absurd rfl⟩⟩
      refine ⟨[], hemits, fun _ ↦ rfl, fun i ↦ ?_⟩
      obtain ⟨handled, h, hown⟩ := hmail i
      rw [List.filter_nil]
      exact ⟨handled, _, h, fun hne ↦ .inr (by rw [hown hne]), (List.append_nil _).symm⟩

end Received

/-- An editor is listed once for each script that it shows, and for no other one. -/
theorem listed_after (hs : s = (start archive store).after c ms)
    (hi : s.seats[i]? = some ⟨e.inbox, some e⟩) (file : String) :
    (s.workspace.audience file).count e.inbox = if file ∈ e.scripts then 1 else 0 := by
  have hsound := sound_after hs
  have hattended := attended_after hs (hsound.scene hi file)
  have hreach : (s.workspace.audience file).count e.inbox =
      (s.workspace.aspect file e.inbox).reach := rfl
  rw [hreach]
  cases hv : e.scripts[file]? with
  | none =>
    have hmem : file ∉ e.scripts := by
      rw [Std.ExtTreeMap.mem_iff_isSome_getElem?, hv]
      decide
    rw [hv] at hattended
    cases hattended with
    | closed h => rw [h, if_neg hmem]
  | some o =>
    have hmem : file ∈ e.scripts := by
      rw [Std.ExtTreeMap.mem_iff_isSome_getElem?, hv]
      rfl
    rw [hv] at hattended
    cases hattended with
    | opened h => rw [h, if_pos hmem]

theorem hears_after (hs : s = (start archive store).after c ms)
    (hi : s.seats[i]? = some ⟨e.inbox, some e⟩) : s.workspace.hears e.inbox = s.shows i := by
  have hfile (file : String) : decide (e.inbox ∈ s.workspace.audience file) =
      (s.shown i file).isSome := by
    rw [Bool.eq_iff_iff, decide_eq_true_iff, ← List.count_pos_iff, listed_after hs hi file, shown,
      editorAt, hi, Option.bind_some, Option.bind_some, ← Std.ExtTreeMap.mem_iff_isSome_getElem?]
    split <;> simp [*]
  funext m
  simp only [hears, shows, hfile]

/-- Whatever moves are made: an editor is listed once for each script that it shows and for no other
one, and no list of listeners is empty. So what is emitted about a script comes once to all that
show it, and to nobody else. -/
theorem emitted_once_to_all_that_show (c : Compiler) (archive : σ) (store : τ)
    (hs : s = (start archive store).after c ms) :
    (∀ i e file, s.editorAt i = some e →
        (s.workspace.audience file).count e.inbox = if file ∈ e.scripts then 1 else 0) ∧
      (∀ file : String, s.workspace.listeners[file]? ≠ some []) ∧
      (∀ box < s.workspace.mail.length, ∃ i e, s.editorAt i = some e ∧ e.inbox = box) ∧
      (∀ r i, (move c (.ask r) s).2.inbox i =
        s.inbox i ++ (r.emits c s.workspace).filter (s.shows i)) ∧
      ∀ m, ∃ emitted, Emits c s.workspace emitted (move c m s).2.workspace ∧
        (m.silent = true → emitted = []) ∧ Received m emitted s (move c m s).2 := by
  have hsound := sound_after hs
  refine ⟨fun i e file he ↦ ?_, ?_, fun box ↦ editor_of_box hs, fun r i ↦ ?_,
    received_move hsound (hears_after hs)⟩
  · obtain hvacant | ⟨e', hi⟩ := hsound.seat_cases i
    · rw [editorAt, hvacant] at he
      cases he
    · rw [editorAt, hi] at he
      cases he
      exact listed_after hs hi file
  · rw [hs]
    refine populated_after (sound_start archive store) (fun file h ↦ ?_) ms
    cases h
  · have hdelivered := delivered_emits (c := c) r hsound.orderly
    obtain hi | ⟨e, hi⟩ := hsound.seat_cases i
    · rw [(vacant_silent hi).2, (vacant_silent hi).1]
      exact (vacant_silent (s := (move c (.ask r) s).2) hi).1
    · rw [inbox_seated hi, ← hears_after hs hi, ← hdelivered.waiting (hsound.attends hi)]
      exact inbox_seated (s := (move c (.ask r) s).2) hi

/-- One of two editors closes the script again, and the other one opens it twice. -/
theorem emitted_once_to_editor_that_opened_twice :
    ∃ s, s = (start (ArchiveMap.ofList [("a", Utf8.encode "routine 5\n    a\n")])
        (⟨∅, ()⟩ : Ledger Unit)).after Listing.compiler
        [.newEditor, .newEditor, .editor 0 (.openScript "a"), .editor 1 (.openScript "a"),
          .editor 1 (.closeScript "a" true), .editor 0 (.openScript "a")] ∧
      (s.inbox 0).length = 0 ∧ (s.inbox 1).length = 0 ∧
      ((move Listing.compiler (.ask (.addBreakpoint "a" 1 .primary)) s).2.inbox 0).length = 1 ∧
      ((move Listing.compiler (.ask (.addBreakpoint "a" 1 .primary)) s).2.inbox 1).length = 0 := by
  obtain ⟨s, hs⟩ : ∃ s, s = (start (ArchiveMap.ofList [("a", Utf8.encode "routine 5\n    a\n")])
      (⟨∅, ()⟩ : Ledger Unit)).after Listing.compiler
      [.newEditor, .newEditor, .editor 0 (.openScript "a"), .editor 1 (.openScript "a"),
        .editor 1 (.closeScript "a" true), .editor 0 (.openScript "a")] := ⟨_, rfl⟩
  have hlengths : (s.inbox 0).length = 0 ∧ (s.inbox 1).length = 0 := by
    rw [hs]
    decide +kernel
  have hemitted (i : Nat) : i < 2 → (((Request.addBreakpoint "a" 1 .primary).emits Listing.compiler
      s.workspace).filter (s.shows i)).length = 1 - i := by
    rw [hs]
    revert i
    decide +kernel
  obtain ⟨-, -, -, hasked, -⟩ := emitted_once_to_all_that_show Listing.compiler _ _ hs
  refine ⟨s, hs, hlengths.1, hlengths.2, ?_, ?_⟩ <;>
    rw [hasked, List.length_append, hemitted _ (by decide)]
  · rw [hlengths.1]
  · rw [hlengths.2]

end Session

end ScriptBreakpoints
