import ScriptBreakpoints.Proofs.AllOrNothing
import ScriptBreakpoints.Proofs.Answering

namespace ScriptBreakpoints

namespace Request

open Workspace

variable {σ τ : Type} [Archive σ] [BreakpointStore τ] (c : Compiler)

/-- All that a request can do to a workspace. The script `s` that is found is tracked from then on,
and unless the request fails it has its turn, its breakpoints are rearmed and a message is posted.
-/
inductive Response (r : Request) (w : Workspace σ τ) :
    Except Fault Reply → Workspace σ τ → Prop
  | unfound {f : Fault} {w' : Workspace σ τ} : w.scripts[r.file]? = none → Peeks w w' →
      w'.scripts = w.scripts → ((script c r.file).outcome w).1 = .error f →
      Response r w (.error f) w'
  | refused {f : Fault} {s : Script} {w' : Workspace σ τ} : Finds c w r.file s →
      w'.scripts = w.scripts.insert r.file s → Steady w w' → w'.mail = w.mail →
      (∀ [LawfulStore τ], LawfulStore.armed w'.store = LawfulStore.armed w.store) →
      Response r w (.error f) w'
  | unrestored {f : Fault} {s : Script} {w' : Workspace σ τ} {t : τ} {previous : List Address}
      {e : StorageFault} : r.isSave = true → Finds c w r.file s →
      w'.scripts = w.scripts.insert r.file s → Steady w w' → w'.mail = w.mail →
      Called w.store t → BreakpointStore.resync r.file previous t = (.error e, w'.store) →
      (∀ [LawfulStore τ], ∀ other ≠ r.file,
        LawfulStore.armed w'.store other = LawfulStore.armed w.store other) →
      Response r w (.error f) w'
  | granted {a : Reply} {s : Script} {w' : Workspace σ τ} : Finds c w r.file s →
      w'.scripts = w.scripts.insert r.file (s.after (r.turn c s)) → Steady w w' →
      w'.mail = (r.posts c s).elim w.mail (deliver · (w.audience r.file) w.mail) →
      (∀ [LawfulStore τ], LawfulStore.armed w'.store = Function.update
        (LawfulStore.armed w.store) r.file (r.rearm c s (LawfulStore.armed w.store r.file))) →
      Response r w (.ok a) w'

variable {c} in
theorem Response.mail_eq {r : Request} {w w' : Workspace σ τ} {result : Except Fault Reply}
    (h : Response c r w result w') (hposts : ∀ s, Finds c w r.file s → r.posts c s = none) :
    w'.mail = w.mail := by
  cases h with
  | unfound _ hp => exact hp.mail
  | refused _ _ _ hm => exact hm
  | unrestored _ _ _ _ hm => exact hm
  | granted hf _ _ hm => rw [hm, hposts _ hf, Option.elim_none]

variable {c} in
theorem Response.of_answered {r : Request} {w w' : Workspace σ τ} {result : Except Fault Reply}
    (h : Answered c r.file (r.turn c) (r.rearm c) (r.posts c) w result w') :
    Response c r w result w' := by
  cases h with
  | unfound ho =>
    obtain ⟨hn, hp, hs⟩ := script_error ho
    exact .unfound hn hp hs (congrArg Prod.fst ho)
  | found ho hd =>
    obtain ⟨hf, hp, hscripts⟩ := script_ok ho
    have hsteady {w' : Workspace σ τ} (h : Steady _ w') : Steady w w' :=
      ⟨hp.store ▸ h.called, h.listeners.trans hp.listeners⟩
    cases hd with
    | failed _ hs hs' hm harmed =>
      refine .refused hf (hs.trans hscripts) (hsteady hs') (hm.trans hp.mail) ?_
      rw [← hp.store]
      exact harmed
    | done _ hs hs' hm harmed =>
      refine .granted hf ?_ (hsteady hs') ?_ ?_
      · rw [hs, hscripts, insert_insert]
      · rw [hm, audience, audience, hp.listeners, hp.mail]
      · rw [← hp.store]
        exact harmed

theorem save_response (file : String) (projection : Projection) (text : String)
    (marked : LineSet) (w : Workspace σ τ) :
    Response c (.save file projection text marked) w
      (((save file projection text marked).perform c).outcome w).1
      (((save file projection text marked).perform c).outcome w).2 := by
  have hends := save_ends c file projection text marked w
  simp only [perform, ← map_eq_pure_bind, Fallible.outcome_map]
  generalize (Workspace.save c file projection text marked).outcome w = o at hends ⊢
  rcases o with ⟨result, w'⟩
  dsimp only at hends ⊢
  cases hends with
  | unfound hs =>
    obtain ⟨hn, hp, hscripts⟩ := script_error hs
    exact .unfound hn hp hscripts (congrArg Prod.fst hs)
  | rejected hs =>
    obtain ⟨hf, hp, hscripts⟩ := script_ok hs
    exact .refused hf hscripts ⟨.of_eq hp.store, hp.listeners⟩ hp.mail (congrArg _ hp.store)
  | unlisted hs hl =>
    obtain ⟨hf, hp, hscripts⟩ := script_ok hs
    have hcalled := (Called.of_eq hp.store).listed hl
    exact .refused hf hscripts ⟨hcalled, hp.listeners⟩ hp.mail
      ((armed_listed hl).trans (congrArg _ hp.store))
  | unsynced hs hl hr =>
    obtain ⟨hf, hp, hscripts⟩ := script_ok hs
    have hcalled := ((Called.of_eq hp.store).listed hl).resynced hr
    refine .refused hf hscripts ⟨hcalled, hp.listeners⟩ hp.mail ?_
    intro _
    rw [armed_unsynced hr, armed_listed hl, hp.store]
  | @unwritten s w₁ compiled previous e a t₁ t log hs hc hl hr =>
    obtain ⟨hf, hp, hscripts⟩ := script_ok hs
    have hcalled := ((Called.of_eq hp.store).listed hl).resynced hr
    rcases hrestore : BreakpointStore.resync file previous t with ⟨e' | _, t₂⟩
    · refine .unrestored rfl hf hscripts ⟨hcalled.resynced hrestore, hp.listeners⟩ hp.mail
        hcalled hrestore fun other (hne : other ≠ file) ↦ ?_
      rw [armed_unsynced hrestore, armed_resynced hr, Function.update_of_ne hne, armed_listed hl,
        hp.store]
    · refine .refused hf hscripts ⟨hcalled.resynced hrestore, hp.listeners⟩ hp.mail ?_
      intro _
      have hrestored := armed_restored hl hr (congrArg Prod.fst hrestore)
      rwa [hrestore, hp.store] at hrestored
  | @done s w₁ compiled other previous a t₁ t log hs ha hc hd hl hr =>
    obtain ⟨hf, hp, hscripts⟩ := script_ok hs
    have hcalled := ((Called.of_eq hp.store).listed hl).resynced hr
    refine .granted hf ?_ ⟨hcalled, hp.listeners⟩ ?_ ?_
    · simp only [Request.file, turn, saving, hc, hd, hscripts, insert_insert, Script.after]
    · have hposts : (save file projection text marked).posts c s = none := by
        simp only [posts, turn, saving, hc, hd, Script.reloads]
        rfl
      rw [hposts]
      exact hp.mail
    · intro _
      simp only [Request.file, rearm, hc, hd]
      rw [armed_resynced hr, armed_listed hl, hp.store]

theorem respond (r : Request) (w : Workspace σ τ) :
    Response c r w ((r.perform c).outcome w).1 ((r.perform c).outcome w).2 := by
  by_cases hr : r.isSave = false
  · exact .of_answered (r.perform_answers c hr w)
  · cases r with
    | save file projection text marked => exact save_response c file projection text marked w
    | _ => exact absurd rfl hr

inductive Turn (r : Request) (w : Workspace σ τ) : Except Fault Reply → Workspace σ τ → Prop
  | unfound {f : Fault} {w' : Workspace σ τ} : ((script c r.file).outcome w).1 = .error f →
      w'.scripts = w.scripts → Turn r w (.error f) w'
  | refused {f : Fault} {s : Script} {w' : Workspace σ τ} : Finds c w r.file s →
      w'.scripts = w.scripts.insert r.file s → Turn r w (.error f) w'
  | happened {a : Reply} {s : Script} {w' : Workspace σ τ} : Finds c w r.file s →
      w'.scripts = w.scripts.insert r.file (s.after (r.turn c s)) → Turn r w (.ok a) w'

variable {c} in
theorem Response.turn {r : Request} {w w' : Workspace σ τ} {result : Except Fault Reply}
    (h : Response c r w result w') : Turn c r w result w' := by
  cases h with
  | unfound _ _ hs ho => exact .unfound ho hs
  | refused hf hs => exact .refused hf hs
  | unrestored _ hf hs => exact .refused hf hs
  | granted hf hs => exact .happened hf hs

theorem perform_turn (r : Request) (w : Workspace σ τ) :
    Turn c r w ((r.perform c).outcome w).1 ((r.perform c).outcome w).2 :=
  (r.respond c w).turn

end Request

namespace Workspace

section ForcedReload

variable {σ τ : Type} [Archive σ] {c : Compiler} {file : String} {w w' : Workspace σ τ}

theorem forceReload_ok {s : Script} (ht : w.scripts[file]? = some s) (hr : s.reloadReady = true) :
    ∃ w', (forceReload c file : Action σ τ Unit).outcome w = (.ok (), w') := by
  simp only [forceReload, Fallible.outcome_bind, script_tracked ht, if_pos hr, outcome_note, settle,
    outcome_putScript, ↓reduceIte]
  obtain ⟨log, ho⟩ := broadcast_delivers (σ := σ) (τ := τ) file (.reload s.promote.reload) _
  exact ⟨_, ho⟩

theorem save_ready [BreakpointStore τ] {projection : Projection} {text : String}
    {marked : LineSet} {answer : Saved}
    (ho : (save c file projection text marked).outcome w = (.ok answer, w'))
    (hr : answer.readiness = .ready) :
    ∃ s, w'.scripts[file]? = some s ∧ s.reloadReady = true := by
  have hends := save_ends c file projection text marked w
  rw [ho] at hends
  cases hends with
  | @done s w₁ compiled other =>
    refine ⟨_, Std.ExtTreeMap.getElem?_insert_self, ?_⟩
    rw [Script.save_readiness] at hr
    rw [Script.save_reloadReady]
    cases hin : s.flags.inEngine with
    | false => rfl
    | true =>
      rw [hin] at hr
      cases hr

end ForcedReload

section Runs

variable {σ τ : Type} [Archive σ] [BreakpointStore τ] (c : Compiler)

def run (rs : List Request) (w : Workspace σ τ) : Workspace σ τ :=
  rs.foldl (fun w r ↦ ((r.perform c).outcome w).2) w

section Tracked

variable {P : Script → Prop} (hload : ∀ file binary views, P (.ofBinary file binary views))
  (hafter : ∀ s h, P s → P (s.after h))

include hload hafter

/-- Loaded scripts have the property and nothing that happens to a script takes it away, so if all
scripts that are tracked have it, then they have it after a request as well. -/
theorem perform_tracked (r : Request) (w : Workspace σ τ)
    (hw : ∀ (file : String) s, w.scripts[file]? = some s → P s) (file : String) (s : Script)
    (hs : ((r.perform c).outcome w).2.scripts[file]? = some s) : P s := by
  have hinsert {t : Script} (ht : P t) (hs : (w.scripts.insert r.file t)[file]? = some s) :
      P s := by
    obtain ⟨-, rfl⟩ | ⟨-, hs⟩ := cases_of_insert hs
    · exact ht
    · exact hw _ _ hs
  have hturn := r.perform_turn c w
  generalize (r.perform c).outcome w = o at hturn hs
  rcases o with ⟨result, w'⟩
  dsimp only at hturn hs
  cases hturn with
  | unfound _ hscripts =>
    rw [hscripts] at hs
    exact hw _ _ hs
  | refused hf hscripts =>
    rw [hscripts] at hs
    exact hinsert (hf.property hload hw) hs
  | happened hf hscripts =>
    rw [hscripts] at hs
    exact hinsert (hafter _ _ (hf.property hload hw)) hs

theorem run_tracked (rs : List Request) (w : Workspace σ τ)
    (hw : ∀ (file : String) s, w.scripts[file]? = some s → P s) :
    ∀ (file : String) s, (run c rs w).scripts[file]? = some s → P s := by
  induction rs generalizing w with
  | nil => exact hw
  | cons r rs ih => exact ih _ (perform_tracked c hload hafter r w hw)

end Tracked

def holding (file text : String) : Workspace ArchiveMap (Ledger Unit) where
  archive := .ofList [(file, Utf8.encode text)]
  store := ⟨∅, ()⟩

end Runs

variable {σ τ : Type}

/-- Tracked scripts know their names, and no mailbox listens twice. -/
structure Orderly (w : Workspace σ τ) : Prop where
  named {file : String} {s : Script} : w.scripts[file]? = some s → s.file = file
  listed (file : String) : (w.audience file).Nodup

namespace Orderly

variable {w : Workspace σ τ}

theorem of_insert {file : String} {s : Script} {w' : Workspace σ τ} (hw : w.Orderly)
    (hs : s.file = file) (hscripts : w'.scripts = w.scripts.insert file s)
    (hl : w'.listeners = w.listeners) : w'.Orderly := by
  refine ⟨fun {other t} ht ↦ ?_, fun other ↦ ?_⟩
  · rw [hscripts] at ht
    obtain ⟨rfl, rfl⟩ | ⟨-, ht⟩ := cases_of_insert ht
    · exact hs
    · exact hw.named ht
  · rw [audience, hl]
    exact hw.listed other

theorem listen (hw : w.Orderly) (file : String) (box : Mailbox) :
    ((listen file box : Action σ τ Unit).outcome w).2.Orderly := by
  obtain ⟨listeners, ho⟩ := listen_outcome file box w
  refine ⟨fun {other t} ht ↦ ?_, fun other ↦ ?_⟩
  · rw [ho] at ht
    exact hw.named ht
  · rw [audience_listen]
    split
    · next h => exact List.nodup_append.2 (by grind [hw.listed file])
    · exact hw.listed other

theorem unlisten (hw : w.Orderly) (file : String) (box : Mailbox) :
    ((unlisten file box : Action σ τ Unit).outcome w).2.Orderly := by
  obtain ⟨listeners, ho⟩ := unlisten_outcome file box w
  refine ⟨fun {other t} ht ↦ ?_, fun other ↦ ?_⟩
  · rw [ho] at ht
    exact hw.named ht
  · rw [audience_unlisten]
    split
    · exact (hw.listed file).filter _
    · exact hw.listed other

variable [Archive σ] {c : Compiler}

theorem found {file : String} {s : Script} (hw : w.Orderly) (hs : Finds c w file s) :
    s.file = file := by
  cases hs with
  | tracked ht => exact hw.named ht
  | loaded _ hl =>
    obtain ⟨bytes, views, -, -, rfl⟩ := hl
    rfl

variable [BreakpointStore τ]

theorem perform (hw : w.Orderly) (r : Request) : ((r.perform c).outcome w).2.Orderly := by
  have hend := r.respond c w
  generalize (r.perform c).outcome w = o at hend ⊢
  rcases o with ⟨result, w'⟩
  dsimp only at hend ⊢
  cases hend with
  | unfound _ hp hs =>
    refine ⟨fun {other t} ht ↦ hw.named (hs ▸ ht), fun other ↦ ?_⟩
    rw [audience, hp.listeners]
    exact hw.listed other
  | refused hf hs hsteady => exact hw.of_insert (hw.found hf) hs hsteady.listeners
  | unrestored _ hf hs hsteady => exact hw.of_insert (hw.found hf) hs hsteady.listeners
  | granted hf hs hsteady =>
    exact hw.of_insert ((Script.file_after _ _).trans (hw.found hf)) hs hsteady.listeners

end Orderly

end Workspace

end ScriptBreakpoints
