import ScriptBreakpoints.Proofs.Mirroring

namespace ScriptBreakpoints

open Fallible Workspace

def Buffer.draft (b : Buffer) : String × Bool := (b.text, b.modified)

theorem Buffer.draft_ofView (v : View) : (Buffer.ofView v).draft = (v.text, false) := by
  rw [draft, text_ofView]
  rfl

namespace Message

def overwrite? (file : String) (p : Projection) : Message → Option Reload
  | reload e => if e.file = file ∧ e.authority ≠ p then some e else none
  | _ => none

/-- The reloads that overwrite a projection of a script. What waits behind a message that stops the
editor is not handled. -/
def overwrites (file : String) (p : Projection) (ms : List Message) : List Reload :=
  (ms.takeWhile (·.file?.isSome)).filterMap (·.overwrite? file p)

variable {file : String} {p : Projection} {m : Message} {ms : List Message}

theorem overwrites_of_stops (hm : m.file? = none) : overwrites file p (m :: ms) = [] := by
  simp [overwrites, hm]

theorem overwrites_cons (hm : m.file?.isSome) : overwrites file p (m :: ms) =
    (m.overwrite? file p).toList ++ overwrites file p ms := by
  simp only [overwrites, List.takeWhile_cons, hm, if_true, List.filterMap_cons]
  cases m.overwrite? file p <;> rfl

theorem overwrite?_of_ne (hm : m.file? ≠ some file) : m.overwrite? file p = none := by
  cases m with
  | reload e => exact if_neg fun h ↦ hm (congrArg some h.1)
  | _ => rfl

end Message

/-- A message leaves a text as it is, or overwrites it. -/
theorem OpenScript.draft_hear {file : String} {m : Message} (hm : m.file? = some file)
    (as : List Address) (p : Projection) (o : OpenScript) :
    ((o.hear as m).buffers.get p).draft =
      ((m.overwrite? file p).map fun e ↦ ((e.views.get p).text, false)).getD
        (o.buffers.get p).draft := by
  cases m with
  | reload e =>
    cases hm
    obtain ⟨markers, hplace⟩ := (o.reload e).buffer_place as p
    have hplaced : ((o.hear as (.reload e)).buffers.get p).draft =
        ((o.reload e).buffers.get p).draft := by
      rw [hear, hplace]
      rfl
    rw [hplaced, get_reload, Message.overwrite?]
    by_cases hp : p = e.authority
    · rw [if_pos hp, if_neg fun h ↦ h.2 hp.symm]
      rfl
    · rw [if_neg hp, if_pos ⟨rfl, Ne.symm hp⟩, Buffer.draft_ofView]
      rfl
  | added f x =>
    obtain ⟨markers, hshow⟩ := Buffer.showMarker_eq x (o.buffers.get p)
    rw [hear, showMarker, Dual.get_map, hshow]
    rfl
  | removed f x =>
    rw [hear, hideMarker, Dual.get_map]
    rfl
  | shutdown => cases hm

section Desk

variable {σ τ : Type} [Archive σ] [BreakpointStore τ] {c : Compiler} {d : Desk σ τ}
  {file : String}

/-- Handling a message never fails, and the script that the message is about hears it. -/
theorem Editor.handle_scripts (m : Message) (d : Desk σ τ) :
    ∃ d' as, (Editor.handle c m).outcome d = (.ok m.file?.isSome, d') ∧
      ∀ file, d'.editor.scripts[file]? =
        if m.file? = some file then d.editor.scripts[file]?.map (·.hear as m)
        else d.editor.scripts[file]? := by
  cases hm : m.file? with
  | none =>
    cases m with
    | shutdown => exact ⟨d, [], rfl, fun _ ↦ rfl⟩
    | _ => cases hm
  | some f =>
    cases ho : d.editor.scripts[f]? with
    | none =>
      obtain ⟨log, hhandle⟩ := Editor.handle_closed (c := c) ho hm
      refine ⟨_, [], hhandle, fun file ↦ ?_⟩
      split
      · next hf =>
        cases hf
        rw [ho, Option.map_none]
      · rfl
    | some o =>
      obtain ⟨as, w, log, hhandle, -⟩ := Editor.handle_open (c := c) ho hm
      refine ⟨_, as, hhandle, fun file ↦ ?_⟩
      by_cases hf : file = f
      · subst hf
        rw [if_pos rfl, Std.ExtTreeMap.getElem?_insert_self, ho, Option.map_some]
      · rw [if_neg fun h ↦ hf (Option.some.inj h).symm, getElem?_insert_of_ne hf]

/-- Of all that overwrites a text the last reload counts. -/
theorem Editor.handleAll_draft (p : Projection) (ms : List Message) {o : OpenScript}
    (ho : d.editor.scripts[file]? = some o) :
    ∃ n d' o', (Editor.handleAll c ms).outcome d = (.ok n, d') ∧
      d'.editor.scripts[file]? = some o' ∧ (o'.buffers.get p).draft =
        ((Message.overwrites file p ms).getLast?.map fun e ↦ ((e.views.get p).text, false)).getD
          (o.buffers.get p).draft := by
  induction ms generalizing d o with
  | nil => exact ⟨0, d, o, rfl, ho, rfl⟩
  | cons m rest ih =>
    obtain ⟨d', as, hhandle, hs⟩ := Editor.handle_scripts (c := c) m (d.withQueue rest)
    have ho' : (d.withQueue rest).editor.scripts[file]? = some o := ho
    have hheard := hs file
    rw [ho'] at hheard
    have hstep : (Editor.handleAll c (m :: rest)).outcome d =
        (do if ← Editor.handle c m then return (← Editor.handleAll c rest) + 1
            else return 1).outcome (d.withQueue rest) := rfl
    rw [hstep, outcome_bind, hhandle]
    cases hm : m.file? with
    | none =>
      rw [hm, if_neg (Option.some_ne_none file).symm] at hheard
      refine ⟨1, d', o, rfl, hheard, ?_⟩
      rw [Message.overwrites_of_stops hm]
      rfl
    | some f =>
      obtain ⟨o', ho', hdraft⟩ : ∃ o', d'.editor.scripts[file]? = some o' ∧
          (o'.buffers.get p).draft =
            ((m.overwrite? file p).map fun e ↦ ((e.views.get p).text, false)).getD
              (o.buffers.get p).draft := by
        by_cases hf : m.file? = some file
        · rw [if_pos hf] at hheard
          exact ⟨_, hheard, OpenScript.draft_hear hf as p o⟩
        · rw [if_neg hf] at hheard
          refine ⟨o, hheard, ?_⟩
          rw [Message.overwrite?_of_ne hf]
          rfl
      obtain ⟨n, d'', o'', hrest, ho'', hdraft'⟩ := ih ho'
      refine ⟨n + 1, d'', o'', ?_, ho'', ?_⟩
      · simp only [Option.isSome_some, if_true, outcome_bind, hrest, outcome_pure]
      · rw [hdraft', hdraft, Message.overwrites_cons (by rw [hm]; rfl)]
        cases m.overwrite? file p with
        | none => rfl
        | some e =>
          rw [Option.toList_some, List.singleton_append, List.getLast?_cons]
          cases (Message.overwrites file p rest).getLast? <;> rfl

end Desk

namespace Session

variable {σ τ : Type} [Archive σ] [BreakpointStore τ] {i : Nat} {file : String}
  {o : OpenScript}

/-- Whatever waits for an editor: when it has handled it, every text has its unsaved changes as
before, but for reloads after which the other projection is edited. Then the text is the one that
the last of them generated. -/
theorem unsaved_text_lasts_unless_generated (c : Compiler) (s : Session σ τ)
    (ho : s.shown i file = some o) (p : Projection) :
    ∃ o', (step c (.editor i .runPending) s).2.shown i file = some o' ∧
      (Message.overwrites file p (s.inbox i) = [] →
        (o'.buffers.get p).text = (o.buffers.get p).text ∧
          (o'.buffers.get p).modified = (o.buffers.get p).modified) ∧
      ∀ e ∈ (Message.overwrites file p (s.inbox i)).getLast?,
        (o'.buffers.get p).text = (e.views.get p).text ∧
          (o'.buffers.get p).modified = false := by
  obtain ⟨e, he, ho⟩ := Option.bind_eq_some_iff.1 ho
  obtain ⟨⟨box, editor⟩, hseat, rfl⟩ := Option.bind_eq_some_iff.1 he
  have hinbox : s.inbox i = Editor.waitingMail ⟨e, s.workspace⟩ := by
    rw [inbox, he]
    rfl
  obtain ⟨n, d', o', hall, ho', hdraft⟩ := Editor.handleAll_draft (c := c)
    (d := ⟨e, s.workspace⟩) p (s.inbox i) ho
  have hrun : (EditorRequest.runPending.perform c).outcome (⟨e, s.workspace⟩ : Session.Desk σ τ) =
      (.ok (.count n), d') := by
    rw [hinbox] at hall
    simp only [EditorRequest.perform, Editor.runPending, outcome_bind, outcome_get, hall,
      outcome_pure]
  refine ⟨o', ?_, fun hnone ↦ ?_, fun e he ↦ ?_⟩
  · have hlt := (List.getElem?_eq_some_iff.1 hseat).1
    simp only [step, atSeat, hseat, hrun, shown, editorAt, List.getElem?_set_self hlt,
      Option.bind_some]
    exact ho'
  · rw [hnone] at hdraft
    exact Prod.mk.inj hdraft
  · rw [Option.mem_def.1 he] at hdraft
    exact Prod.mk.inj hdraft

theorem unsaved_text_lasts_across_reload :
    ∃ s o o', s = (start (ArchiveMap.ofList [("a", Utf8.encode "routine 5\n    a\n")])
        (⟨∅, ()⟩ : Ledger Unit)).after Listing.compiler
        [.newEditor, .editor 0 (.openScript "a"), .editor 0 (.insertLines "a" .primary 1 ["    b"]),
          .ask (.invalidate "a"), .ask (.closeInEngine "a")] ∧
      s.shown 0 "a" = some o ∧
      ((o.buffers.get .primary).text, (o.buffers.get .primary).modified) =
        ("routine 5\n    b\n    a\n", true) ∧
      (s.inbox 0).length = 1 ∧
      (step Listing.compiler (.editor 0 .runPending) s).2.shown 0 "a" = some o' ∧
      (o'.buffers.get .primary).text = (o.buffers.get .primary).text ∧
      (o'.buffers.get .primary).modified = (o.buffers.get .primary).modified := by
  obtain ⟨s, hs⟩ : ∃ s, s = (start (ArchiveMap.ofList [("a", Utf8.encode "routine 5\n    a\n")])
      (⟨∅, ()⟩ : Ledger Unit)).after Listing.compiler
      [.newEditor, .editor 0 (.openScript "a"), .editor 0 (.insertLines "a" .primary 1 ["    b"]),
        .ask (.invalidate "a"), .ask (.closeInEngine "a")] := ⟨_, rfl⟩
  have hshown : (s.shown 0 "a").map (fun o ↦ ((o.buffers.get .primary).text,
      (o.buffers.get .primary).modified)) = some ("routine 5\n    b\n    a\n", true) := by
    rw [hs]
    decide +kernel
  have hlength : (s.inbox 0).length = 1 := by
    rw [hs]
    decide +kernel
  have hnone : (Message.overwrites "a" .primary (s.inbox 0)).isEmpty = true := by
    rw [hs]
    decide +kernel
  obtain ⟨o, ho, hdraft⟩ := Option.map_eq_some_iff.1 hshown
  obtain ⟨o', ho', hkept, -⟩ :=
    unsaved_text_lasts_unless_generated Listing.compiler s ho .primary
  exact ⟨s, o, o', hs, ho, hdraft, hlength, ho', hkept (List.isEmpty_iff.1 hnone)⟩

/-- The user lets the other projection be edited while a text is not saved. The next reload of the
script generates that text anew. -/
theorem unsaved_text_lost_to_other_projection :
    ∃ s o o', s = (start (ArchiveMap.ofList [("a", Utf8.encode "routine 5\n    a\n")])
        (⟨∅, ()⟩ : Ledger Unit)).after Listing.compiler
        [.newEditor, .editor 0 (.openScript "a"), .editor 0 (.insertLines "a" .primary 1 ["    b"]),
          .ask (.setAuthority "a" .derived), .ask (.invalidate "a"), .ask (.closeInEngine "a")] ∧
      s.shown 0 "a" = some o ∧
      ((o.buffers.get .primary).text, (o.buffers.get .primary).modified) =
        ("routine 5\n    b\n    a\n", true) ∧
      (step Listing.compiler (.editor 0 .runPending) s).2.shown 0 "a" = some o' ∧
      ((o'.buffers.get .primary).text, (o'.buffers.get .primary).modified) =
        ("routine 5\n    a\n", false) := by
  obtain ⟨s, hs⟩ : ∃ s, s = (start (ArchiveMap.ofList [("a", Utf8.encode "routine 5\n    a\n")])
      (⟨∅, ()⟩ : Ledger Unit)).after Listing.compiler
      [.newEditor, .editor 0 (.openScript "a"), .editor 0 (.insertLines "a" .primary 1 ["    b"]),
        .ask (.setAuthority "a" .derived), .ask (.invalidate "a"), .ask (.closeInEngine "a")] :=
    ⟨_, rfl⟩
  have hbefore : (s.shown 0 "a").map (fun o ↦ ((o.buffers.get .primary).text,
      (o.buffers.get .primary).modified)) = some ("routine 5\n    b\n    a\n", true) := by
    rw [hs]
    decide +kernel
  have hafter : ((step Listing.compiler (.editor 0 .runPending) s).2.shown 0 "a").map (fun o ↦
      ((o.buffers.get .primary).text, (o.buffers.get .primary).modified)) =
        some ("routine 5\n    a\n", false) := by
    rw [hs]
    decide +kernel
  obtain ⟨o, ho, hdraft⟩ := Option.map_eq_some_iff.1 hbefore
  obtain ⟨o', ho', hdraft'⟩ := Option.map_eq_some_iff.1 hafter
  exact ⟨s, o, o', hs, ho, hdraft, ho', hdraft'⟩

end Session

end ScriptBreakpoints
