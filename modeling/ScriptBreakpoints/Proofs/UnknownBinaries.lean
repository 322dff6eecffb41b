import ScriptBreakpoints.Compiler.Listing
import ScriptBreakpoints.Proofs.Disabling
import ScriptBreakpoints.Proofs.Withstanding
import ScriptBreakpoints.Proofs.Working

namespace ScriptBreakpoints

open Fallible Workspace

namespace Script

structure Estranged (s : Script) : Prop where
  inEngine : s.flags.inEngine = true
  notBreakable : s.flags.notBreakable = true

theorem estranged_foreign (s : Script) : (s.after .foreignInEngine).Estranged := ⟨rfl, rfl⟩

theorem Estranged.after {s : Script} (hs : s.Estranged) {h : Happening} (hl : h ≠ .loadedInEngine)
    (hu : h ≠ .unloadedInEngine) : (s.after h).Estranged := by
  obtain ⟨hin, hn⟩ := hs
  cases h with
  | asked => exact ⟨hin, hn⟩
  | authority projection => exact ⟨hin, hn⟩
  | openedInEditor => exact ⟨hin, hn⟩
  | closedInEditor confirm =>
    simp only [Script.after, closeInEditor]
    split
    · exact ⟨hin, hn⟩
    · split
      · exact ⟨hin, rfl⟩
      · exact ⟨hin, hn⟩
  | loadedInEngine => exact absurd rfl hl
  | foreignInEngine => exact estranged_foreign s
  | unloadedInEngine => exact absurd rfl hu
  | saved binary views =>
    refine ⟨?_, ?_⟩ <;> rw [Script.after, save_flags]
    · exact hin
    · exact hn
  | forcedReload =>
    simp only [Script.after]
    split
    · exact ⟨hin, hn⟩
    · exact ⟨hin, hn⟩
  | invalidated => exact ⟨hin, rfl⟩

end Script

namespace Request

def engages (binary : Binary) : Request → Prop
  | openInEngine _ | closeInEngine _ => True
  | report (.loaded _ reported) => ∀ d ∈ reported, d = binary.digest
  | report (.unloaded _) => True
  | _ => False

theorem turn_of_not_engages {c : Compiler} {r : Request} {s : Script}
    (hr : ¬r.engages s.binary) :
    r.turn c s ≠ .loadedInEngine ∧ r.turn c s ≠ .unloadedInEngine := by
  cases r with
  | openInEngine file => exact absurd trivial hr
  | closeInEngine file => exact absurd trivial hr
  | save file projection text marked =>
    simp only [turn, saving]
    split
    · simp
    · split <;> simp
  | report r =>
    cases r with
    | loaded file reported =>
      have hforeign : ¬reported.all (· = s.binary.digest) = true := by
        intro hall
        refine hr fun d hd ↦ ?_
        rw [Option.mem_def.1 hd] at hall
        exact of_decide_eq_true hall
      rw [turn, loading, if_neg hforeign]
      simp
    | unloaded file => exact absurd trivial hr
  | _ => simp [turn]

end Request

theorem EditorRequest.asks_engages {e : Editor} {r : EditorRequest} {asked : Request}
    {binary : Binary} (h : r.asks e asked) : ¬asked.engages binary := by
  cases entails_of_asks h <;> exact id

namespace Workspace

variable {σ τ : Type} [Archive σ] [BreakpointStore τ] {c : Compiler} {w : Workspace σ τ}
  {file : String} {r : Request} {s : Script}

def Estranged (file : String) (w : Workspace σ τ) : Prop :=
  ∃ s, w.scripts[file]? = some s ∧ s.Estranged

theorem Estranged.perform (hw : w.Estranged file)
    (hr : r.file = file → ∀ s, w.scripts[file]? = some s → ¬r.engages s.binary) :
    ((r.perform c).outcome w).2.Estranged file := by
  obtain ⟨s, hs, hestranged⟩ := hw
  have hinsert {w' : Workspace σ τ} {t : Script} (h : w'.scripts = w.scripts.insert r.file t)
      (ht : r.file = file → t.Estranged) : w'.Estranged file := by
    by_cases hfile : r.file = file
    · exact ⟨t, by rw [h, hfile, Std.ExtTreeMap.getElem?_insert_self], ht hfile⟩
    · exact ⟨s, by rw [h, getElem?_insert_of_ne (Ne.symm hfile), hs], hestranged⟩
  have hturn := r.perform_turn c w
  generalize (r.perform c).outcome w = o at hturn ⊢
  rcases o with ⟨result, w'⟩
  dsimp only at hturn ⊢
  cases hturn with
  | unfound _ h => exact ⟨s, by rw [h, hs], hestranged⟩
  | refused hf h =>
    refine hinsert h fun hfile ↦ ?_
    rw [hfile] at hf
    rwa [hf.unique (.tracked hs)]
  | happened hf h =>
    refine hinsert h fun hfile ↦ ?_
    rw [hfile] at hf
    rw [hf.unique (.tracked hs)]
    obtain ⟨hl, hu⟩ := Request.turn_of_not_engages (c := c) (hr hfile s hs)
    exact hestranged.after hl hu

theorem estranged_report {known reported : Digest} (hforeign : reported ≠ known)
    (hknown : ((digestOf c file).outcome w).1 = .ok known) :
    (((Request.report (.loaded file (some reported))).perform c).outcome w).2.Estranged file := by
  rw [digestOf, outcome_bind_pure] at hknown
  rcases ho : (script c file).outcome w with ⟨e | s, w₁⟩ <;> rw [ho] at hknown <;> cases hknown
  have hfilter : (some reported).filter (· ≠ s.binary.digest) = some reported := by
    rw [Option.filter_some, if_pos (decide_eq_true hforeign)]
  simp only [Request.perform, handleReport, loadedInEngine, outcome_bind, ho, hfilter, outcome_note,
    outcome_putScript]
  exact ⟨_, Std.ExtTreeMap.getElem?_insert_self, s.estranged_foreign⟩

theorem save_deferred (hs : w.scripts[file]? = some s) (hin : s.flags.inEngine = true)
    {projection : Projection} {text : String} {marked : LineSet} {answer : Saved}
    (ho : ((save c file projection text marked).outcome w).1 = .ok answer) :
    answer.readiness = .deferred := by
  have hends := save_ends c file projection text marked w
  rw [ho] at hends
  generalize ((save c file projection text marked).outcome w).2 = w' at hends
  cases hends with
  | done hscript =>
    rw [script_tracked hs] at hscript
    cases hscript
    rw [Script.save_readiness, if_pos hin]

/-- Only a save can arm a breakpoint of a script that is disabled. -/
theorem armed_perform [LawfulStore τ] (hs : w.scripts[file]? = some s)
    (hn : s.flags.notBreakable = true) (hsave : r.file = file → r.isSave = false) {x : Address}
    (hx : x ∈ LawfulStore.armed ((r.perform c).outcome w).2.store file) :
    x ∈ LawfulStore.armed w.store file := by
  have hend := r.respond c w
  rcases ho : (r.perform c).outcome w with ⟨result, w'⟩
  rw [ho] at hend hx
  dsimp only at hend hx
  cases hend with
  | unfound _ hp => rwa [hp.store] at hx
  | refused _ _ _ _ ha => rwa [ha] at hx
  | unrestored hsave' _ _ _ _ _ _ ha =>
    have hfile : file ≠ r.file := by
      rintro rfl
      rw [hsave rfl] at hsave'
      cases hsave'
    rwa [ha file hfile] at hx
  | @granted a t _ hf _ _ _ ha =>
    rw [ha] at hx
    by_cases hfile : r.file = file
    · subst hfile
      obtain rfl := hf.unique (.tracked hs)
      rw [Function.update_self] at hx
      cases r.effect c t with
      | reloads _ harmed => rwa [harmed] at hx
      | adds y hposts =>
        have hrefused := refused_of_notBreakable c hs hn hposts
        rw [ho] at hrefused
        cases hrefused
      | removes y _ harmed =>
        rw [harmed] at hx
        exact (mem_erase_iff.1 hx).2
      | saves _ hturn =>
        rw [r.turn_isSave c (hsave rfl)] at hturn
        cases hturn
      | quiet _ harmed => rwa [harmed] at hx
    · rwa [Function.update_of_ne (Ne.symm hfile)] at hx

end Workspace

namespace Editor

variable {σ τ : Type} [Archive σ] [BreakpointStore τ] {c : Compiler} {d : Desk σ τ}
  {file : String} {o : OpenScript} {s : Script} {line : Nat}

theorem toggle_refused (ho : d.editor.scripts[file]? = some o)
    (hs : d.workspace.scripts[file]? = some s) (hn : s.flags.notBreakable = true)
    (hline : o.buffer.markersOn line = []) :
    ((toggle c file o.authority line).outcome d).1 = .error (.notBreakable file) := by
  have hstate : s.debugState = .notBreakable := if_pos hn
  simp only [toggle, outcome_bind, Editor.opened_some ho, ne_eq, not_true_eq_false, if_false, hline,
    perform, outcome_zoom, debugStateOf, script_tracked hs, outcome_pure, hstate, if_true,
    outcome_throw]

end Editor

namespace Session

section Defs

variable {σ τ : Type}

/-- A move by which the engine neither loads the archived binary of a script nor lets go of what it
executes. -/
def LeavesEngine (file : String) (s : Session σ τ) : Move → Prop
  | .ask r => r.file = file → ∀ t, s.workspace.scripts[file]? = some t → ¬r.engages t.binary
  | _ => True

/-- Nobody can add a breakpoint of the script, and whatever is saved waits. -/
structure Withheld [Archive σ] [BreakpointStore τ] [LawfulStore τ] (c : Compiler) (file : String)
    (s : Session σ τ) : Prop where
  state : ((debugStateOf c file).outcome s.workspace).1 = .ok .notBreakable
  saves {projection : Projection} {text : String} {marked : LineSet} {answer : Saved} :
    ((save c file projection text marked).outcome s.workspace).1 = .ok answer →
      answer.readiness = .deferred
  editorSaves {i : Nat} {readiness : Readiness} :
    (move c (.editor i (.save file)) s).1 = .ok (.readiness (some readiness)) →
      readiness = .deferred
  adds : ∃ t, s.workspace.scripts[file]? = some t ∧ ∀ line projection,
    (t.active.get projection).map.first? line ≠ none →
      ((addBreakpoint c file line projection).outcome s.workspace).1 = .error (.notBreakable file)
  addsAt (a : Address) :
    ((addBreakpointAt c file a).outcome s.workspace).1 = .error (.notBreakable file)
  toggles {i line : Nat} {o : OpenScript} : s.shown i file = some o →
    o.buffer.markersOn line = [] →
      (move c (.editor i (.toggle file o.authority line)) s).1 =
        .error (.fault (.notBreakable file))
  armed {m : Move} {x : Address} : s.LeavesEngine file m → ¬m.saves file →
    x ∈ LawfulStore.armed (move c m s).2.workspace.store file →
      x ∈ LawfulStore.armed s.workspace.store file

theorem Asks.not_engages {s : Session σ τ} {m : Move} {r : Request} (h : s.Asks m r)
    (hm : ∀ r, m ≠ .ask r) (binary : Binary) : ¬r.engages binary := by
  cases m with
  | ask r => exact absurd rfl (hm r)
  | newEditor => exact h.elim
  | next i =>
    obtain ⟨f, rfl⟩ := h
    exact id
  | editor i r =>
    obtain ⟨e, -, h⟩ | ⟨-, f, rfl⟩ := h
    · exact EditorRequest.asks_engages h
    · exact id

end Defs

variable {σ τ : Type} [Archive σ] [BreakpointStore τ] [LawfulStore τ] {c : Compiler}
  {s : Session σ τ} {file : String} {t : Script} {m : Move}

theorem estranged_move (hs : s.Sound) (hm : s.LeavesEngine file m)
    (h : s.workspace.Estranged file) : (move c m s).2.workspace.Estranged file := by
  have hwithstands : Withstands c (fun r ↦ ∀ binary, ¬r.engages binary)
      (Workspace.Estranged file : Refusable σ τ → Prop) := by
    refine ⟨fun hscripts _ hw ↦ ?_, fun hr hw ↦ hw.perform fun _ _ _ ↦ hr _⟩
    rwa [Workspace.Estranged, hscripts]
  -- the engine speaks by requests of its own; what editors ask for is never about the engine
  by_cases hask : ∃ r, m = .ask r
  · obtain ⟨r, rfl⟩ := hask
    exact h.perform hm
  · exact withstands_move hwithstands hs (fun r hr ↦ Asks.not_engages hr fun r h ↦ hask ⟨r, h⟩) h

theorem estranged_after (hs : s.Sound) {ms : List Move} (hms : Along c (LeavesEngine file) s ms)
    (h : s.workspace.Estranged file) : (s.after c ms).workspace.Estranged file := by
  induction ms generalizing s with
  | nil => exact h
  | cons m ms ih => exact ih (hs.move m) hms.2 (estranged_move hs hms.1 h)

section Tracked

variable (hs : s.Sound) (ht : s.workspace.scripts[file]? = some t)

include hs ht

theorem editor_save_deferred (hin : t.flags.inEngine = true) {i : Nat} {readiness : Readiness}
    (hok : (move c (.editor i (.save file)) s).1 = .ok (.readiness (some readiness))) :
    readiness = .deferred := by
  obtain hi | ⟨e, hi⟩ := hs.seat_cases i
  · rw [move, step, atSeat_vacant hi] at hok
    cases hok
  · have hscene := hs.scene hi file
    cases ho : e.scripts[file]? with
    | none =>
      rw [move_editor hs hi rfl, EditorRequest.perform, outcome_bind_pure] at hok
      rw [Editor.save_unopened (by exact ho)] at hok
      cases hok
    | some o =>
      rw [ho] at hscene
      obtain ⟨result, o', a', hresult, -, hstored⟩ := hscene.stored (c := c) hs ht
      rw [hresult] at hok
      cases hstored with
      | saved =>
        rw [hin] at hok
        cases hok
        rfl
      | _ => cases hok

theorem toggle_refused (hn : t.flags.notBreakable = true) {i line : Nat} {o : OpenScript}
    (ho : s.shown i file = some o) (hline : o.buffer.markersOn line = []) :
    (move c (.editor i (.toggle file o.authority line)) s).1 =
      .error (.fault (.notBreakable file)) := by
  obtain ⟨a, ⟨e, hi, hshows⟩, -⟩ := hs.scene_shown ho
  rw [move_editor hs hi rfl, EditorRequest.perform, outcome_bind_pure,
    Editor.toggle_refused hshows.view ht hn hline]
  rfl

end Tracked

/-- No move but a save arms a breakpoint of a script that the engine executes an unknown binary
of. -/
theorem estranged_armed (hs : s.Sound) (h : s.workspace.Estranged file)
    (hm : s.LeavesEngine file m) (hsaves : ¬m.saves file) {x : Address}
    (hx : x ∈ LawfulStore.armed (move c m s).2.workspace.store file) :
    x ∈ LawfulStore.armed s.workspace.store file := by
  have hwithstands : Withstands c
      (fun r ↦ (∀ binary, ¬r.engages binary) ∧ (r.file = file → r.isSave = false))
      (fun w : Refusable σ τ ↦ w.Estranged file ∧ ∀ x ∈ LawfulStore.armed w.store file,
        x ∈ LawfulStore.armed s.workspace.store file) := by
    refine ⟨fun hscripts hstore hw ↦ ?_, fun hr hw ↦ ⟨hw.1.perform fun _ _ _ ↦ hr.1 _, ?_⟩⟩
    · rwa [Workspace.Estranged, hscripts, hstore]
    · intro x hx
      obtain ⟨t, ht, hestranged⟩ := hw.1
      exact hw.2 x (armed_perform ht hestranged.notBreakable hr.2 hx)
  by_cases hask : ∃ r, m = .ask r
  · obtain ⟨r, rfl⟩ := hask
    obtain ⟨t, ht, hestranged⟩ := h
    refine armed_perform ht hestranged.notBreakable (fun hfile ↦ ?_) hx
    exact Bool.eq_false_iff.2 fun hsave ↦ hsaves ⟨hsave, hfile⟩
  · refine (withstands_move hwithstands hs (fun r hr ↦ ⟨?_, fun hfile ↦ ?_⟩)
      ⟨h, fun _ ↦ id⟩).2 x hx
    · exact Asks.not_engages hr fun r h ↦ hask ⟨r, h⟩
    · exact Asks.unsaved hr hsaves hfile

theorem Withheld.of_estranged (hs : s.Sound) (h : s.workspace.Estranged file) :
    Withheld c file s := by
  have hestranged := h
  obtain ⟨t, ht, hin, hn⟩ := h
  have hname : t.file = file := hs.orderly.named ht
  have herror {α : Type} {x : Except Fault α} {f : α → Reply} {e : Fault}
      (h : x.map f = .error e) : x = .error e := by
    cases x <;> cases h
    rfl
  have hrefused {r : Request} {a : Address} (hfile : r.file = file)
      (hr : r.posts c t = some (.added r.file a)) :
      ((r.perform c).outcome s.workspace).1 = .error (.notBreakable file) := by
    subst hfile
    rw [refused_of_notBreakable c ht hn hr, hname]
  refine
    { state := ?_, saves := save_deferred ht hin, editorSaves := editor_save_deferred hs ht hin
      adds := ⟨t, ht, fun line projection hline ↦ ?_⟩, addsAt := fun a ↦ ?_
      toggles := toggle_refused hs ht hn
      armed := fun hm hsaves hx ↦ estranged_armed hs hestranged hm hsaves hx }
  · have hstate : t.debugState = .notBreakable := if_pos hn
    rw [debugStateOf, outcome_bind_pure, script_tracked ht, ← hstate]
    rfl
  · obtain ⟨a, ha⟩ := Option.ne_none_iff_exists'.1 hline
    have hposts : (Request.addBreakpoint file line projection).posts c t =
        some (.added file a) := by
      simp only [Request.posts, ha, Option.map_some]
    have h := hrefused rfl hposts
    rw [Request.perform, outcome_bind_pure] at h
    exact herror h
  · have h := hrefused (r := .addBreakpointAt file a) (a := a) rfl rfl
    rw [Request.perform, outcome_bind_pure] at h
    exact herror h

/-- The engine loads a binary that is not the archived one. Until it loads the archived one or lets
go of the script, whatever is asked, saved and edited in between, the script can't be debugged, its
saves wait, and nothing but a save arms a breakpoint of it. -/
theorem withheld_until_engine_moves (c : Compiler) (archive : σ) (store : τ)
    {history ms : List Move} {s₀ s₁ : Session σ τ} {known reported : Digest}
    (hs₀ : s₀ = (start archive store).after c history)
    (hknown : ((digestOf c file).outcome s₀.workspace).1 = .ok known)
    (hforeign : reported ≠ known)
    (hs₁ : s₁ = (move c (.ask (.report (.loaded file (some reported)))) s₀).2)
    (hms : Along c (LeavesEngine file) s₁ ms) (hs : s = s₁.after c ms) : Withheld c file s := by
  subst hs₀ hs₁ hs
  have hsound : ((start archive store).after c history).Sound :=
    (sound_start archive store).after history
  have hestranged := estranged_report hforeign hknown
  refine .of_estranged ((hsound.move _).after ms) (estranged_after (hsound.move _) hms hestranged)

/-- A text that is saved while the engine executes an unknown binary has to wait. -/
theorem save_withheld :
    ∃ s₁ s, s₁ = (move Listing.compiler (.ask (.report (.loaded "a" (some (.of [])))))
        ((start (ArchiveMap.ofList [("a", Utf8.encode "routine 5\n    a\n")])
          (⟨∅, ()⟩ : Ledger Unit)).after Listing.compiler
            [.newEditor, .editor 0 (.openScript "a")])).2 ∧
      s = s₁.after Listing.compiler [.editor 0 (.insertLines "a" .primary 0 [""])] ∧
      readiness? (move Listing.compiler (.editor 0 (.save "a")) s).1 = some .deferred := by
  obtain ⟨s₀, hs₀⟩ : ∃ s₀, s₀ = (start (ArchiveMap.ofList
      [("a", Utf8.encode "routine 5\n    a\n")]) (⟨∅, ()⟩ : Ledger Unit)).after Listing.compiler
      [.newEditor, .editor 0 (.openScript "a")] := ⟨_, rfl⟩
  obtain ⟨s₁, hs₁⟩ : ∃ s₁, s₁ =
      (move Listing.compiler (.ask (.report (.loaded "a" (some (.of []))))) s₀).2 := ⟨_, rfl⟩
  obtain ⟨s, hs⟩ : ∃ s, s = s₁.after Listing.compiler
      [.editor 0 (.insertLines "a" .primary 0 [""])] := ⟨_, rfl⟩
  have hdigest : ((digestOf Listing.compiler "a").outcome s₀.workspace).1.toOption.any
      (Digest.of [] ≠ ·) = true := by
    rw [hs₀]
    decide +kernel
  have hsave : (readiness? (move Listing.compiler (.editor 0 (.save "a")) s).1).isSome = true := by
    rw [hs, hs₁, hs₀]
    decide +kernel
  obtain ⟨known, hknown, hforeign⟩ : ∃ known,
      ((digestOf Listing.compiler "a").outcome s₀.workspace).1 = .ok known ∧
        Digest.of [] ≠ known := by
    cases hd : ((digestOf Listing.compiler "a").outcome s₀.workspace).1 with
    | error e =>
      rw [hd] at hdigest
      cases hdigest
    | ok known =>
      rw [hd] at hdigest
      exact ⟨known, rfl, of_decide_eq_true hdigest⟩
  have hms : Along Listing.compiler (LeavesEngine "a") s₁
      [.editor 0 (.insertLines "a" .primary 0 [""])] := ⟨trivial, trivial⟩
  have hwithheld :=
    withheld_until_engine_moves Listing.compiler _ _ hs₀ hknown hforeign hs₁ hms hs
  obtain ⟨readiness, hreadiness⟩ := Option.isSome_iff_exists.1 hsave
  rw [hs₀] at hs₁
  refine ⟨s₁, s, hs₁, hs, hreadiness.trans (congrArg some ?_)⟩
  exact hwithheld.editorSaves (readiness?_eq_some.1 hreadiness)

end Session

end ScriptBreakpoints
