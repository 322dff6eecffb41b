import ScriptBreakpoints.Compiler.Listing
import ScriptBreakpoints.Proofs.Numbering
import ScriptBreakpoints.Proofs.Shifting

namespace ScriptBreakpoints

def IsLine (line : String) : Prop := '\n' ∉ line.toList

instance (line : String) : Decidable (IsLine line) := inferInstanceAs (Decidable (_ ∉ _))

namespace Lines

variable {text line : String} {lines : List String}

theorem isLine_of_mem_split (h : line ∈ split text) : IsLine line := by
  obtain ⟨cs, hcs, rfl⟩ := List.mem_map.1 h
  rw [IsLine, String.toList_ofList]
  exact not_mem_of_mem_pieces hcs

/-- Lines are found again in the text that they make. -/
theorem split_join (hne : lines ≠ []) (h : ∀ line ∈ lines, IsLine line) :
    split (join lines) = lines := by
  induction lines with
  | nil => exact absurd rfl hne
  | cons line lines ih =>
    have hline : IsLine line := h line List.mem_cons_self
    cases lines with
    | nil =>
      rw [join, String.intercalate_singleton, split, pieces_of_not_mem hline, List.map_singleton,
        String.ofList_toList]
    | cons next rest =>
      have hrest := ih (List.cons_ne_nil _ _) fun l hl ↦ h l (List.mem_cons_of_mem _ hl)
      have hjoin : (join (line :: next :: rest)).toList =
          line.toList ++ '\n' :: (join (next :: rest)).toList := by
        rw [join, String.intercalate_cons_cons]
        simp [join]
      rw [split, hjoin, pieces_append hline, List.map_cons, String.ofList_toList]
      exact congrArg _ hrest

end Lines

def TextEdit.Plain : TextEdit → Prop
  | .insert _ new => ∀ line ∈ new, IsLine line
  | .delete _ _ => True

namespace Buffer

variable {b : Buffer} {v : View} {es : List TextEdit}

/-- Every line has the same number in the text. -/
def Aligned (b : Buffer) : Prop :=
  ∀ i < b.lines.length, (Lines.split b.text)[i]? = b.lines[i]?

theorem aligned_iff : b.Aligned ↔ ∀ line ∈ b.lines, IsLine line := by
  constructor
  · intro h line hline
    obtain ⟨i, hi, rfl⟩ := List.mem_iff_getElem.1 hline
    have hsame := h i hi
    rw [List.getElem?_eq_getElem hi] at hsame
    exact Lines.isLine_of_mem_split (List.mem_of_getElem? hsame)
  · intro h i hi
    rw [text, Lines.split_join (List.ne_nil_of_length_pos (Nat.zero_lt_of_lt hi)) h]

theorem aligned_ofView (v : View) : (ofView v).Aligned :=
  aligned_iff.2 fun _ h ↦ Lines.isLine_of_mem_split h

theorem aligned_ofPending (v : View) : (ofPending v).Aligned :=
  aligned_iff.2 fun _ h ↦ Lines.isLine_of_mem_split h

theorem lines_change (e : TextEdit) (b : Buffer) : (b.change e).lines = e.splice id b.lines := by
  obtain ⟨hstill, h⟩ | ⟨le, -, h⟩ := b.change_cases e
  · rw [h, TextEdit.splice_of_still hstill]
  · rw [h]
    rfl

theorem aligned_change_iff (h : b.Aligned) (e : TextEdit) : (b.change e).Aligned ↔ e.Plain := by
  rw [aligned_iff] at h
  rw [aligned_iff, lines_change]
  cases e with
  | insert start new =>
    refine ⟨fun hall line hline ↦ hall line ?_, fun hnew line hline ↦ ?_⟩
    · exact List.mem_append_left _ (List.mem_append_right _ hline)
    · obtain hline | hline := List.mem_append.1 hline
      · obtain hline | hline := List.mem_append.1 hline
        · exact h line (List.mem_of_mem_take hline)
        · exact hnew line hline
      · exact h line (List.mem_of_mem_drop hline)
  | delete start stop =>
    refine iff_of_true (fun line hline ↦ ?_) trivial
    obtain hline | hline := List.mem_append.1 hline
    · exact h line (List.mem_of_mem_take hline)
    · exact h line (List.mem_of_mem_drop hline)

/-- The lines of a text that is edited are those of the text after every edit exactly if all edits
are plain. -/
theorem aligned_changed_iff (h : b.Aligned) (es : List TextEdit) :
    (∀ es', es' <+: es → (b.changed es').Aligned) ↔ ∀ e ∈ es, e.Plain := by
  induction es generalizing b with
  | nil => exact iff_of_true (fun es' hes ↦ List.prefix_nil.1 hes ▸ h) nofun
  | cons e es ih =>
    rw [forall_prefix_cons, List.forall_mem_cons,
      and_iff_right (show (b.changed []).Aligned from h), ← aligned_change_iff h e]
    constructor
    · intro hall
      have hfirst : (b.change e).Aligned := hall [] List.nil_prefix
      exact ⟨hfirst, (ih hfirst).1 hall⟩
    · rintro ⟨hfirst, hrest⟩
      exact (ih hfirst).2 hrest

end Buffer

namespace OpenScript

variable {o o' : OpenScript}

def Aligned (o : OpenScript) : Prop := ∀ p, (o.buffers.get p).Aligned

namespace Aligned

theorem remarked (h : o.Aligned) (hr : o.Remarked o') : o'.Aligned := by
  intro p
  obtain ⟨markers, hb⟩ := hr.2 p
  rw [hb]
  exact h p

theorem place (h : o.Aligned) (as : List Address) : (o.place as).Aligned := by
  intro p
  obtain ⟨markers, hb⟩ := o.buffer_place as p
  rw [hb]
  exact h p

theorem setBuffer_iff {b : Buffer} (h : o.Aligned) : (o.setBuffer b).Aligned ↔ b.Aligned := by
  refine ⟨fun hall ↦ ?_, fun hb p ↦ ?_⟩
  · have hb := hall o.authority
    rwa [setBuffer, Dual.get_set, if_pos rfl] at hb
  · rw [setBuffer, Dual.get_set]
    split
    · exact hb
    · exact h p

theorem saved (h : o.Aligned) (m : SourceMap) : (o.saved m).Aligned :=
  h.setBuffer_iff.2 (h o.authority)

theorem ofScript (s : Script) : (ofScript s).Aligned := by
  intro p
  rw [get_ofScript]
  cases (s.slots.get p).pending with
  | none => exact Buffer.aligned_ofView _
  | some v => exact Buffer.aligned_ofPending v

theorem reload (h : o.Aligned) (e : Reload) : (o.reload e).Aligned := by
  intro p
  rw [get_reload]
  split
  · exact h p
  · exact Buffer.aligned_ofView _

theorem hear (h : o.Aligned) (as : List Address) (m : Message) : (o.hear as m).Aligned := by
  cases m with
  | reload e => exact (h.reload e).place as
  | added f x => exact h.remarked (remarked_showMarker x o)
  | removed f x => exact h.remarked (remarked_hideAll [x] o)
  | shutdown => exact h

end Aligned

end OpenScript

namespace Session

variable {σ τ : Type} [Archive σ] [BreakpointStore τ] [LawfulStore τ] {c : Compiler}
  {archive : σ} {store : τ} {before : List Move} {s : Session σ τ} {i : Nat} {file : String}
  {o : OpenScript}

def Aligned (i : Nat) (file : String) (s : Session σ τ) : Prop :=
  ∀ o, s.shown i file = some o → o.Aligned

/-- A move that inserts something into a script that is not a line. -/
inductive Jumbles (i : Nat) (file : String) (s : Session σ τ) : Move → Prop
  | inserted {o : OpenScript} {projection : Projection} {start : Nat} {new : List String}
      {line : String} : s.shown i file = some o → projection = o.authority → line ∈ new →
      ¬IsLine line → Jumbles i file s (.editor i (.insertLines file projection start new))

theorem aligned_move_iff (hs : s = (start archive store).after c before) {m : Move}
    (hm : m ≠ .editor i .runPending) (h : s.Aligned i file) :
    (move c m s).2.Aligned i file ↔ ¬s.Jumbles i file m := by
  have hshift := shifted_move hs i file hm
  rw [Aligned] at h ⊢
  generalize hv : s.shown i file = v at h hshift
  generalize (move c m s).2.shown i file = v' at hshift ⊢
  have hshown {o : OpenScript} (ho : o.Aligned) : ∀ o', some o = some o' → o'.Aligned :=
    fun _ h ↦ Option.some.inj h ▸ ho
  cases hshift with
  | aside haside =>
    refine iff_of_true h ?_
    rintro ⟨-, -, -, -⟩
    exact not_aside rfl haside
  | still hfile hidle =>
    refine iff_of_true h ?_
    rintro ⟨ho, hp, -, -⟩
    rw [← hv, ho] at hidle
    exact hidle hp
  | heard =>
    refine iff_of_true (fun o ho ↦ ?_) nofun
    obtain ⟨o, rfl, rfl⟩ := Option.map_eq_some_iff.1 ho
    exact (h o rfl).hear _ _
  | unopened => exact iff_of_true h nofun
  | opened => exact iff_of_true (hshown ((OpenScript.Aligned.ofScript _).place _)) nofun
  | closed => exact iff_of_true nofun nofun
  | @inserted o start new =>
    have hb := Buffer.aligned_change_iff (h o rfl o.authority) (.insert start new)
    constructor
    · intro hall
      have hnew := hb.1 (((h o rfl).setBuffer_iff).1 (hall _ rfl))
      rintro ⟨-, -, hline, hbad⟩
      exact hbad (hnew _ hline)
    · intro hgood
      refine hshown ((h o rfl).setBuffer_iff.2 (hb.2 fun line hline ↦ ?_))
      by_contra hbad
      exact hgood (.inserted hv rfl hline hbad)
  | @deleted o start stop removed =>
    have hb := (Buffer.aligned_change_iff (h o rfl o.authority) (.delete start stop)).2 trivial
    exact iff_of_true (hshown (((h o rfl).setBuffer_iff.2 hb).remarked
      (OpenScript.remarked_hideAll _ _))) nofun
  | hidden =>
    exact iff_of_true (hshown ((h _ rfl).remarked (OpenScript.remarked_hideAll _ _))) nofun
  | showed =>
    exact iff_of_true (hshown ((h _ rfl).remarked (OpenScript.remarked_showMarker _ _))) nofun
  | unsaved => exact iff_of_true h nofun
  | saved => exact iff_of_true (hshown ((h _ rfl).saved _)) nofun
  | @told o =>
    have ho : OpenScript.Aligned { o with lost := [] } := h o rfl
    exact iff_of_true (hshown ho) nofun

/-- A text that is saved arms the instructions of the lines on which markers are, as the compiler
counts lines. -/
theorem mem_armed_of_save (hs : s = (start archive store).after c before)
    (ho : s.shown i file = some o) {readiness : Readiness}
    (hok : (move c (.editor i (.save file)) s).1 = .ok (.readiness (some readiness))) :
    ∃ compiled, c.compile o.authority o.buffer.text = .ok compiled ∧
      ∀ x, x ∈ (move c (.editor i (.save file)) s).2.armed file ↔
        ∃ line ∈ o.buffer.markerLines, compiled.map.first? line = some x := by
  obtain ⟨a, hi, -⟩ := (sound_after hs).scene_shown ho
  obtain ⟨t, compiled, other, -, hc, hi'⟩ := hi.save (sound_after hs) hok
  refine ⟨compiled, hc, fun x ↦ ?_⟩
  rw [armed, ← hi'.armed, Aspect.armed_store, mem_ofList, Workspace.mem_breakpointsOn]

/-- The lines of a text that is edited are the lines that a compiler counts as long as no string is
inserted that has a line feed in it, and no longer: so it is for every text and all edits of it, and
so it is in every session for all that an editor has open. A save arms what the compiler puts on the
lines where markers are. -/
theorem line_numbers_agree_iff (c : Compiler) (archive : σ) (store : τ) {s₀ : Session σ τ}
    (hs₀ : s₀ = start archive store) (i : Nat) (file : String) (ms : List Move) :
    (∀ (v : View) (b : Buffer), b = .ofView v ∨ b = .ofPending v → ∀ es : List TextEdit,
      (∀ es', es' <+: es → (b.changed es').Aligned) ↔ ∀ e ∈ es, e.Plain) ∧
    s₀.after c (s₀.singly c i ms) = s₀.after c ms ∧
    ((∀ ms', ms' <+: s₀.singly c i ms → (s₀.after c ms').Aligned i file) ↔
      Along c (fun s m ↦ ¬s.Jumbles i file m) s₀ (s₀.singly c i ms)) ∧
    ∀ o readiness, (s₀.after c ms).shown i file = some o →
      (move c (.editor i (.save file)) (s₀.after c ms)).1 = .ok (.readiness (some readiness)) →
      ∃ compiled, c.compile o.authority o.buffer.text = .ok compiled ∧
        ∀ x, x ∈ (move c (.editor i (.save file)) (s₀.after c ms)).2.armed file ↔
          ∃ line ∈ o.buffer.markerLines, compiled.map.first? line = some x := by
  have hstart : s₀ = (start archive store).after c [] := hs₀
  have hnone : s₀.Aligned i file := by
    intro o ho
    rw [hs₀] at ho
    cases ho
  have halong := good_singly_iff (fun hs hm ↦ aligned_move_iff (c := c) hs hm) hstart hnone ms
  refine ⟨?_, after_singly hstart ms, halong, fun o readiness ho hok ↦ ?_⟩
  · rintro v b (rfl | rfl) es
    · exact Buffer.aligned_changed_iff (Buffer.aligned_ofView v) es
    · exact Buffer.aligned_changed_iff (Buffer.aligned_ofPending v) es
  · exact mem_armed_of_save (c := c) (s := s₀.after c ms) (by rw [hs₀]) ho hok

/-- A line is put in front of a text where a breakpoint is shown, and the text is saved. -/
theorem line_numbers_agree_below_insertion :
    ∃ s o, s = (start (ArchiveMap.ofList [("a", Utf8.encode "routine 5\n    a\n    b\n")])
        (⟨∅, ()⟩ : Ledger Unit)).after Listing.compiler [.newEditor, .editor 0 (.openScript "a"),
          .editor 0 (.toggle "a" .primary 2), .editor 0 (.insertLines "a" .primary 0 ["// x"])] ∧
      s.shown 0 "a" = some o ∧ o.Aligned ∧ o.buffer.markers[(⟨5, 1⟩ : Address)]? = some 3 ∧
      (∃ compiled, Listing.compiler.compile o.authority o.buffer.text = .ok compiled ∧
        ∀ x, x ∈ (move Listing.compiler (.editor 0 (.save "a")) s).2.armed "a" ↔
          ∃ line ∈ o.buffer.markerLines, compiled.map.first? line = some x) ∧
      ((move Listing.compiler (.editor 0 (.save "a")) s).2.armed "a").toList = [⟨5, 1⟩] := by
  obtain ⟨s₀, hs₀⟩ : ∃ s₀, s₀ =
      start (ArchiveMap.ofList [("a", Utf8.encode "routine 5\n    a\n    b\n")])
        (⟨∅, ()⟩ : Ledger Unit) := ⟨_, rfl⟩
  obtain ⟨ms, hms⟩ : ∃ ms : List Move, ms = [.newEditor, .editor 0 (.openScript "a"),
      .editor 0 (.toggle "a" .primary 2), .editor 0 (.insertLines "a" .primary 0 ["// x"])] :=
    ⟨_, rfl⟩
  have hshown : ((s₀.after Listing.compiler ms).shown 0 "a").map
      (·.buffer.markers[(⟨5, 1⟩ : Address)]?) = some (some 3) := by
    rw [hs₀, hms]
    decide +kernel
  have hsaved : readiness? (move Listing.compiler (.editor 0 (.save "a"))
      (s₀.after Listing.compiler ms)).1 = some .ready := by
    rw [hs₀, hms]
    decide +kernel
  have harmed : ((move Listing.compiler (.editor 0 (.save "a"))
      (s₀.after Listing.compiler ms)).2.armed "a").toList = [⟨5, 1⟩] := by
    rw [hs₀, hms]
    decide +kernel
  have hplain : Along Listing.compiler (fun s m ↦ ¬s.Jumbles 0 "a" m) s₀
      (s₀.singly Listing.compiler 0 ms) := by
    rw [hms]
    refine ⟨nofun, nofun, nofun, ?_, trivial⟩
    rintro ⟨-, -, hline, hbad⟩
    obtain rfl := List.mem_singleton.1 hline
    exact hbad (by decide)
  obtain ⟨o, ho, hmarker⟩ := Option.map_eq_some_iff.1 hshown
  obtain ⟨-, hsame, haligned, harms⟩ := line_numbers_agree_iff Listing.compiler _ _ hs₀ 0 "a" ms
  have hgood := haligned.2 hplain _ (List.prefix_refl _)
  rw [hsame] at hgood
  refine ⟨_, o, by rw [hs₀, hms], ho, hgood o ho, hmarker, ?_, harmed⟩
  exact harms o .ready ho (readiness?_eq_some.1 hsaved)

/-- Two lines are put in front of a text as one string. The breakpoint is shown beside its line, and
the save arms another instruction. -/
theorem line_numbers_differ_below_insertion :
    ∃ s o, s = (start (ArchiveMap.ofList [("a", Utf8.encode "routine 5\n    a\n    b\n")])
        (⟨∅, ()⟩ : Ledger Unit)).after Listing.compiler [.newEditor, .editor 0 (.openScript "a"),
          .editor 0 (.toggle "a" .primary 2),
          .editor 0 (.insertLines "a" .primary 0 ["// x\n// y"])] ∧
      s.shown 0 "a" = some o ∧
      o.buffer.lines = ["// x\n// y", "routine 5", "    a", "    b", ""] ∧
      o.buffer.text = "// x\n// y\nroutine 5\n    a\n    b\n" ∧
      o.buffer.markerLines.toList = [3] ∧ o.buffer.markers[(⟨5, 1⟩ : Address)]? = some 3 ∧
      (Lines.split o.buffer.text)[3]? = some "    a" ∧ o.buffer.lines[3]? = some "    b" ∧
      ((move Listing.compiler (.editor 0 (.save "a")) s).2.armed "a").toList = [⟨5, 0⟩] := by
  obtain ⟨s, hs⟩ : ∃ s, s =
      (start (ArchiveMap.ofList [("a", Utf8.encode "routine 5\n    a\n    b\n")])
        (⟨∅, ()⟩ : Ledger Unit)).after Listing.compiler [.newEditor, .editor 0 (.openScript "a"),
          .editor 0 (.toggle "a" .primary 2),
          .editor 0 (.insertLines "a" .primary 0 ["// x\n// y"])] := ⟨_, rfl⟩
  have hshown : (s.shown 0 "a").map (fun o ↦ (o.buffer.lines, o.buffer.text,
      o.buffer.markerLines.toList, o.buffer.markers[(⟨5, 1⟩ : Address)]?)) =
      some (["// x\n// y", "routine 5", "    a", "    b", ""],
        "// x\n// y\nroutine 5\n    a\n    b\n", [3], some 3) := by
    rw [hs]
    decide +kernel
  obtain ⟨o, ho, heq⟩ := Option.map_eq_some_iff.1 hshown
  simp only [Prod.mk.injEq] at heq
  obtain ⟨hlines, htext, hmarked, hmarker⟩ := heq
  refine ⟨s, o, hs, ho, hlines, htext, hmarked, hmarker, ?_, ?_, ?_⟩
  · rw [htext]
    decide +kernel
  · rw [hlines]
    rfl
  · rw [hs]
    decide +kernel

end Session

end ScriptBreakpoints
