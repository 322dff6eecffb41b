import ScriptBreakpoints.Compiler.Listing
import ScriptBreakpoints.Proofs.Endings
import ScriptBreakpoints.Proofs.Sessions

namespace ScriptBreakpoints

open Fallible Workspace

abbrev Saves := String → Option (Projection × String)

/-- A script shows what its binary is decompiled to. If there was a save, then the binary is what
the saved text was compiled to, and the saved projection shows the text with the map of that. -/
def Stems (c : Compiler) (s : Script) : Option (Projection × String) → Prop
  | none => ∀ p, c.decompile p s.binary = .ok (s.latest p)
  | some (p, text) => ∃ compiled, c.compile p text = .ok compiled ∧ s.binary = compiled.binary ∧
      s.latest p = ⟨text, compiled.map⟩ ∧ c.decompile p.other s.binary = .ok (s.latest p.other)

theorem Stems.after {c : Compiler} {s : Script} {last : Option (Projection × String)}
    (hs : Stems c s last) {h : Happening} (hh : h.isSave = false) : Stems c (s.after h) last := by
  cases last with
  | none =>
    intro p
    rw [s.binary_after hh, s.latest_after hh, hs p]
  | some save =>
    obtain ⟨compiled, hc, hb, hlatest, hother⟩ := hs
    refine ⟨compiled, hc, ?_, ?_, ?_⟩
    · rw [s.binary_after hh, hb]
    · rw [s.latest_after hh, hlatest]
    · rw [s.binary_after hh, s.latest_after hh, hother]

theorem Stems.saved {c : Compiler} {projection : Projection} {text : String}
    {compiled : Compiled} {other : View} (hc : c.compile projection text = .ok compiled)
    (hd : c.decompile projection.other compiled.binary = .ok other) (s : Script) :
    Stems c (s.save compiled.binary (savedViews projection text compiled.map other)).2
      (some (projection, text)) := by
  refine ⟨compiled, hc, s.save_binary _ _, ?_, ?_⟩
  · rw [Script.latest_save, savedViews, Dual.get_ofFn, if_pos rfl]
  · rw [Script.latest_save, Script.save_binary, savedViews, Dual.get_ofFn,
      if_neg projection.other_ne, hd]

variable {σ τ : Type}

structure Described [Archive σ] [LawfulArchive σ] (c : Compiler) (saves : Saves)
    (w : Workspace σ τ) : Prop where
  untracked {file : String} : w.scripts[file]? = none → saves file = none
  archived {file : String} {s : Script} : w.scripts[file]? = some s →
    LawfulArchive.content w.archive file = some s.binary.bytes
  stems {file : String} {s : Script} : w.scripts[file]? = some s → Stems c s (saves file)

namespace Described

variable [Archive σ] {c : Compiler} {saves : Saves} {w w' : Workspace σ τ} {file : String}
  {s : Script}

section Lawful

variable [LawfulArchive σ]

theorem found (hw : Described c saves w) (hs : Finds c w file s) :
    LawfulArchive.content w.archive file = some s.binary.bytes ∧ Stems c s (saves file) := by
  cases hs with
  | tracked ht => exact ⟨hw.archived ht, hw.stems ht⟩
  | loaded hn hl =>
    obtain ⟨bytes, views, hr, hv, rfl⟩ := hl
    refine ⟨LawfulArchive.content_of_read hr, ?_⟩
    rw [hw.untracked hn]
    intro p
    rw [Script.latest_ofBinary]
    exact hv p

theorem lasting (c : Compiler) (saves : Saves) :
    Lasting c (Described c saves : Workspace σ τ → Prop) where
  frame ha hs hw := by
    refine ⟨fun hn ↦ hw.untracked (hs ▸ hn), fun ht ↦ ?_, fun ht ↦ hw.stems (hs ▸ ht)⟩
    rw [ha]
    exact hw.archived (hs ▸ ht)
  happens {w w' file s h} hf hh ha hs hw := by
    obtain ⟨harchived, hstems⟩ := hw.found hf
    refine ⟨fun {other} hn ↦ ?_, fun {other t} ht ↦ ?_, fun {other t} ht ↦ ?_⟩
    · rw [hs] at hn
      exact hw.untracked (absent_of_insert hn).2
    · rw [ha]
      rw [hs] at ht
      obtain ⟨rfl, rfl⟩ | ⟨-, ht⟩ := cases_of_insert ht
      · rw [harchived, s.binary_after hh]
      · exact hw.archived ht
    · rw [hs] at ht
      obtain ⟨rfl, rfl⟩ | ⟨-, ht⟩ := cases_of_insert ht
      · exact hstems.after hh
      · exact hw.stems ht

end Lawful

variable [BreakpointStore τ]

theorem save_ok [KeyedArchive σ] {projection : Projection} {text : String} {marked : LineSet}
    {answer : Saved} (hw : Described c saves w)
    (ho : (save c file projection text marked).outcome w = (.ok answer, w')) :
    Described c (Function.update saves file (some (projection, text))) w' := by
  have hends := save_ends c file projection text marked w
  rw [ho] at hends
  cases hends with
  | @done s w₁ compiled generated previous a t₁ t log hs hauthority hc hd hl hr hwrite hlog =>
    obtain ⟨hf, hp, hscripts⟩ := script_ok hs
    have hself := LawfulArchive.content_write (congrArg Prod.fst hwrite)
    rw [hwrite] at hself
    have hcontent (other : String) (hne : other ≠ file) :
        LawfulArchive.content a other = LawfulArchive.content w.archive other := by
      have h := KeyedArchive.content_write_other compiled.binary.bytes w₁.archive hne
      rw [hwrite, hp.archive.content_eq] at h
      exact h
    refine ⟨fun {other} hn ↦ ?_, fun {other t} ht ↦ ?_, fun {other t} ht ↦ ?_⟩
    · dsimp only at hn
      rw [hscripts, insert_insert] at hn
      obtain ⟨hne, hn⟩ := absent_of_insert hn
      rw [Function.update_of_ne hne]
      exact hw.untracked hn
    · dsimp only at ht
      rw [hscripts, insert_insert] at ht
      obtain ⟨rfl, rfl⟩ | ⟨hne, ht⟩ := cases_of_insert ht
      · rw [Script.save_binary]
        exact hself
      · exact (hcontent other hne).trans (hw.archived ht)
    · dsimp only at ht
      rw [hscripts, insert_insert] at ht
      obtain ⟨rfl, rfl⟩ | ⟨hne, ht⟩ := cases_of_insert ht
      · rw [Function.update_self]
        exact .saved hc hd s
      · rw [Function.update_of_ne hne]
        exact hw.stems ht

/-- An editor saves the text that it edits. The forced reload after that does not fail, so an answer
that tells of a save tells of all that was saved. -/
theorem editorSave [KeyedArchive σ] {d : Desk σ τ} (hd : Described c saves d.workspace)
    (file : String) :
    match (Editor.save c file).outcome d with
    | (.ok (some _), d') => ∃ s, d.editor.scripts[file]? = some s ∧
        Described c (Function.update saves file (some (s.authority, s.buffer.text))) d'.workspace
    | (_, d') => Described c saves d'.workspace := by
  have hnoted : Described c saves { d.workspace with log := d.workspace.log ++ [.saving file] } :=
    (lasting c saves).frame (w := d.workspace) rfl rfl hd
  have hends := Editor.save_ends c file d
  rcases ho : (Editor.save c file).outcome d with ⟨result, d'⟩
  rw [ho] at hends
  cases hends with
  | unopened | unmodified => exact hd
  | failed hopen hm hsave => exact (lasting c saves).save_error hnoted hsave
  | @saved o answer w w' hopen hm hsave hreload =>
    have hsaved := hnoted.save_ok hsave
    refine ⟨o, hopen, ?_⟩
    obtain ⟨-, hforced⟩ | ⟨-, rfl⟩ := hreload
    · have hkeeps (saves : Saves) :
          Keeps (Described c saves) (forceReload c file : Action σ τ Unit) :=
        ((lasting c saves).request (r := .forceReload file) rfl).of_bind_pure
      have hreloaded := hkeeps _ w hsaved
      rwa [hforced] at hreloaded
    · exact hsaved

end Described

namespace Session

/-- What a command has saved, to go by its answer. An editor that answers how ready a reload is has
saved the text that it edits. -/
def savedBy (s : Session σ τ) :
    Command → Except Failure Reply → Option (String × Projection × String)
  | .ask (.save file projection text _), .ok _ => some (file, projection, text)
  | .editor i (.save file), .ok (.readiness (some _)) => do
    let editor ← (← s.seats[i]?).editor
    let script ← editor.scripts[file]?
    return (file, script.authority, script.buffer.text)
  | _, _ => none

def recordSave (saves : Saves) : Option (String × Projection × String) → Saves
  | none => saves
  | some (file, save) => Function.update saves file (some save)

theorem savedBy_of_not_isSave {cmd : Command} (h : cmd.isSave = false) (s : Session σ τ)
    (answer : Except Failure Reply) : s.savedBy cmd answer = none := by
  cases cmd with
  | ask r =>
    cases r with
    | save file projection text marked => cases h
    | _ => rfl
  | editor i r =>
    cases r with
    | save file => cases h
    | _ => rfl
  | _ => rfl

variable [Archive σ] [BreakpointStore τ] (c : Compiler)

def afterAll (cmds : List Command) (s : Session σ τ) : Session σ τ :=
  cmds.foldl (fun s cmd ↦ (step c cmd s).2) s

def savesOf : List Command → Session σ τ → Saves → Saves
  | [], _, saves => saves
  | cmd :: cmds, s, saves =>
    savesOf cmds (step c cmd s).2 (recordSave saves (s.savedBy cmd (step c cmd s).1))

variable {c} [KeyedArchive σ] {saves : Saves} {s : Session σ τ}

theorem described_ask_save (hs : Described c saves s.workspace) (file : String)
    (projection : Projection) (text : String) (marked : LineSet) :
    let cmd : Command := .ask (.save file projection text marked)
    Described c (recordSave saves (s.savedBy cmd (step c cmd s).1)) (step c cmd s).2.workspace := by
  dsimp only [step, reply, act, Request.perform]
  rw [← map_eq_pure_bind, outcome_map]
  rcases ho : (save c file projection text marked).outcome s.workspace with ⟨f | answer, w'⟩
  · exact (Described.lasting c saves).save_error hs ho
  · exact hs.save_ok ho

theorem described_editor_save (hs : Described c saves s.workspace) (i : Nat) (file : String) :
    let cmd : Command := .editor i (.save file)
    Described c (recordSave saves (s.savedBy cmd (step c cmd s).1)) (step c cmd s).2.workspace := by
  dsimp only [step, atSeat, EditorRequest.perform]
  rcases hseat : s.seats[i]? with _ | ⟨inbox, _ | editor⟩
  · exact hs
  · exact hs
  · have hsave := Described.editorSave (d := ⟨editor, s.workspace⟩) hs file
    dsimp only
    rw [← map_eq_pure_bind, outcome_map]
    rcases ho : (Editor.save c file).outcome ⟨editor, s.workspace⟩ with ⟨f | _ | readiness, d'⟩
    · rw [ho] at hsave
      exact hsave
    · rw [ho] at hsave
      exact hsave
    · rw [ho] at hsave
      obtain ⟨script, ht, hdescribed⟩ := hsave
      simpa [savedBy, hseat, ht, recordSave, Except.mapError, Except.map] using hdescribed

theorem described_step (hs : Described c saves s.workspace) {cmd : Command}
    (hc : cmd.tampers = false) :
    Described c (recordSave saves (s.savedBy cmd (step c cmd s).1)) (step c cmd s).2.workspace := by
  by_cases hsave : cmd.isSave = false
  · rw [savedBy_of_not_isSave hsave]
    exact kept_step (Described.lasting c saves) hsave hc s hs
  · cases cmd with
    | ask r =>
      cases r with
      | save file projection text marked => exact described_ask_save hs file projection text marked
      | _ => exact absurd rfl hsave
    | editor i r =>
      cases r with
      | save file => exact described_editor_save hs i file
      | _ => exact absurd rfl hsave
    | _ => exact absurd rfl hsave

theorem described_afterAll {cmds : List Command} (hc : ∀ cmd ∈ cmds, cmd.tampers = false)
    (hs : Described c saves s.workspace) :
    Described c (savesOf c cmds s saves) (afterAll c cmds s).workspace := by
  induction cmds generalizing s saves with
  | nil => exact hs
  | cons cmd cmds ih =>
    have hstep := described_step hs (hc cmd List.mem_cons_self)
    exact ih (fun cmd' h ↦ hc cmd' (List.mem_cons_of_mem _ h)) hstep

/-- Whatever is asked of a session, of its editors and of the engine, and whatever storage refuses,
a tracked script holds the bytes that are archived under its name, and its newest views are those of
this binary: all decompiled from it if nothing was saved since it was loaded, and else the saved
text with the map it was compiled with, next to the other projection of the compiled binary. -/
theorem latest_views_describe_archive (archive : σ) (store : τ) (cmds : List Command)
    (hc : ∀ cmd ∈ cmds, cmd.tampers = false) (file : String) (s : Script)
    (hs : (afterAll c cmds (start archive store)).workspace.scripts[file]? = some s) :
    LawfulArchive.content (afterAll c cmds (start archive store)).workspace.archive file =
        some s.binary.bytes ∧
      s.binary.digest = .of s.binary.bytes ∧
      Stems c s (savesOf c cmds (start archive store) (fun _ ↦ none) file) := by
  have hstart : Described c (fun _ ↦ none) (start archive store).workspace :=
    ⟨fun _ ↦ rfl, nofun, nofun⟩
  have hend := described_afterAll hc hstart
  exact ⟨hend.archived hs, rfl, hend.stems hs⟩

/-- An editor opens a script, adds an instruction and saves. -/
theorem latest_views_once_saved_by_editor :
    ∃ s compiled, (afterAll Listing.compiler
        [.newEditor, .editor 0 (.openScript "a"),
          .editor 0 (.insertLines "a" .primary 2 ["    b"]), .editor 0 (.save "a")]
        (start (ArchiveMap.ofList [("a", Utf8.encode "routine 5\n    a\n")])
          (⟨∅, ()⟩ : Ledger Unit))).workspace.scripts["a"]? = some s ∧
      Listing.compiler.compile .primary "routine 5\n    a\n    b\n" = .ok compiled ∧
      s.binary = compiled.binary ∧
      s.latest .primary = ⟨"routine 5\n    a\n    b\n", compiled.map⟩ ∧
      Listing.compiler.decompile .derived s.binary = .ok (s.latest .derived) := by
  have htracked : ((afterAll Listing.compiler
        [.newEditor, .editor 0 (.openScript "a"),
          .editor 0 (.insertLines "a" .primary 2 ["    b"]), .editor 0 (.save "a")]
        (start (ArchiveMap.ofList [("a", Utf8.encode "routine 5\n    a\n")])
          (⟨∅, ()⟩ : Ledger Unit))).workspace.scripts["a"]?).isSome = true := by
    decide +kernel
  have hlast : savesOf Listing.compiler
        [.newEditor, .editor 0 (.openScript "a"),
          .editor 0 (.insertLines "a" .primary 2 ["    b"]), .editor 0 (.save "a")]
        (start (ArchiveMap.ofList [("a", Utf8.encode "routine 5\n    a\n")])
          (⟨∅, ()⟩ : Ledger Unit)) (fun _ ↦ none) "a" =
      some (.primary, "routine 5\n    a\n    b\n") := by
    decide +kernel
  obtain ⟨s, hs⟩ := Option.isSome_iff_exists.1 htracked
  have hagree := latest_views_describe_archive _ _ _ (by decide) "a" s hs
  rw [hlast] at hagree
  obtain ⟨-, -, compiled, hc, hb, hlatest, hother⟩ := hagree
  exact ⟨s, compiled, hs, hc, hb, hlatest, hother⟩

end Session

end ScriptBreakpoints
