import ScriptBreakpoints.Proofs.Posting
import ScriptBreakpoints.Proofs.Requests

namespace ScriptBreakpoints.Workspace

variable {σ τ α β : Type}

def Posts (file : String) (posted : Option Message) (x : Action σ τ α) : Prop :=
  ∀ w, ∃ a log, x.outcome w =
    (.ok a, { w with mail := posted.elim w.mail (deliver · (w.audience file) w.mail), log })

theorem Posts.pure (file : String) (a : α) : Posts file none (pure a : Action σ τ α) :=
  fun w ↦ ⟨a, w.log, rfl⟩

theorem Posts.note {file : String} {posted : Option Message} {x : Action σ τ α} (n : Notice)
    (hx : Posts file posted x) : Posts file posted (note n >>= fun _ ↦ x) := by
  intro w
  obtain ⟨a, log, ho⟩ := hx { w with log := w.log ++ [n] }
  rw [Fallible.outcome_bind, outcome_note]
  exact ⟨a, log, ho⟩

theorem posts_broadcast (file : String) (m : Message) :
    Posts file (some m) (broadcast file m : Action σ τ Unit) := by
  intro w
  obtain ⟨log, ho⟩ := broadcast_delivers file m w
  exact ⟨(), log, ho⟩

section Deals

variable [BreakpointStore τ]

/-- How an action ends that is about a tracked script. Unless it fails, the script is `t` now, its
breakpoints are rearmed and a message is posted. -/
inductive Dealt (file : String) (t : Script)
    (rearm : Std.ExtTreeSet Address → Std.ExtTreeSet Address) (posted : Option Message)
    (w : Workspace σ τ) : Except Fault α → Workspace σ τ → Prop
  | failed {f : Fault} {w' : Workspace σ τ} :
      w'.archive = w.archive → w'.scripts = w.scripts → Steady w w' → w'.mail = w.mail →
      (∀ [LawfulStore τ], LawfulStore.armed w'.store = LawfulStore.armed w.store) →
      Dealt file t rearm posted w (.error f) w'
  | done {a : α} {w' : Workspace σ τ} :
      w'.archive = w.archive → w'.scripts = w.scripts.insert file t → Steady w w' →
      w'.mail = posted.elim w.mail (deliver · (w.audience file) w.mail) →
      (∀ [LawfulStore τ], LawfulStore.armed w'.store = Function.update
        (LawfulStore.armed w.store) file (rearm (LawfulStore.armed w.store file))) →
      Dealt file t rearm posted w (.ok a) w'

def Deals (file : String) (s t : Script)
    (rearm : Std.ExtTreeSet Address → Std.ExtTreeSet Address) (posted : Option Message)
    (x : Action σ τ α) : Prop :=
  ∀ w, w.scripts[file]? = some s → Dealt file t rearm posted w (x.outcome w).1 (x.outcome w).2

variable {file : String} {s t : Script} {posted : Option Message}
  {rearm : Std.ExtTreeSet Address → Std.ExtTreeSet Address}

theorem Dealt.map {w w' : Workspace σ τ} {result : Except Fault α} (f : α → β)
    (h : Dealt file t rearm posted w result w') :
    Dealt file t rearm posted w (result.map f) w' := by
  cases h with
  | failed ha hs hsteady hm harmed => exact .failed ha hs hsteady hm harmed
  | done ha hs hsteady hm harmed => exact .done ha hs hsteady hm harmed

theorem Dealt.of_log {w w' : Workspace σ τ} {log : List Notice} {result : Except Fault α}
    (h : Dealt file t rearm posted { w with log } result w') :
    Dealt file t rearm posted w result w' := by
  cases h with
  | failed ha hs hsteady hm harmed =>
    exact .failed ha hs ⟨hsteady.called, hsteady.listeners⟩ hm harmed
  | done ha hs hsteady hm harmed =>
    exact .done ha hs ⟨hsteady.called, hsteady.listeners⟩ hm harmed

theorem Posts.deals {x : Action σ τ α} (hx : Posts file posted x) :
    Deals file s s id posted x := by
  intro w hw
  obtain ⟨a, log, ho⟩ := hx w
  rw [ho]
  exact .done rfl (insert_of_getElem? hw).symm ⟨.nothing, rfl⟩ rfl
    (Function.update_eq_self _ _).symm

theorem Posts.put {x : Action σ τ α} (hx : Posts file posted x) :
    Deals file s t id posted (putScript file t >>= fun _ ↦ x) := by
  intro w _
  obtain ⟨a, log, ho⟩ := hx { w with scripts := w.scripts.insert file t }
  rw [Fallible.outcome_bind, outcome_putScript]
  simp only [ho]
  exact .done rfl rfl ⟨.nothing, rfl⟩ rfl (Function.update_eq_self _ _).symm

theorem Deals.throw (f : Fault) : Deals file s t rearm posted (throw f : Action σ τ α) :=
  fun _ _ ↦ .failed rfl rfl ⟨.nothing, rfl⟩ rfl rfl

theorem Deals.note {x : Action σ τ α} (n : Notice) (hx : Deals file s t rearm posted x) :
    Deals file s t rearm posted (note n >>= fun _ ↦ x) := by
  intro w hw
  rw [Fallible.outcome_bind, outcome_note]
  exact (hx { w with log := w.log ++ [n] } hw).of_log

theorem Deals.map {x : Action σ τ α} (f : α → β) (hx : Deals file s t rearm posted x) :
    Deals file s t rearm posted (x >>= fun a ↦ Pure.pure (f a)) := by
  intro w hw
  rw [← map_eq_pure_bind, Fallible.outcome_map]
  exact (hx w hw).map f

theorem deals_settle (file : String) (s : Script) (h : Happening) {o : Script × Bool}
    (ho : o = (s.after h, s.reloads h)) :
    Deals file s (s.after h) id (if s.reloads h then some (.reload (s.after h).reload) else none)
      (settle file o : Action σ τ Unit) := by
  subst ho
  unfold settle
  cases s.reloads h with
  | false => exact (Posts.pure file ()).put
  | true => exact (posts_broadcast file _).put

theorem deals_call {call : τ → Except StorageFault Unit × τ} (m : Message)
    (hcalled : ∀ t, Called t (call t).2)
    (hdone : ∀ [LawfulStore τ] t, (call t).1 = .ok () → LawfulStore.armed (call t).2 =
      Function.update (LawfulStore.armed t) file (rearm (LawfulStore.armed t file)))
    (hfailed : ∀ [LawfulStore τ] t e, (call t).1 = .error e →
      LawfulStore.armed (call t).2 = LawfulStore.armed t) :
    Deals file s s rearm (some m) (do
      demand (← askStore call)
      broadcast file m : Action σ τ Unit) := by
  intro w hw
  have hc := hcalled w.store
  simp only [Fallible.outcome_bind, outcome_askStore]
  rcases ho : call w.store with ⟨e | _, t⟩
  · rw [ho] at hc
    refine .failed rfl rfl ⟨hc, rfl⟩ rfl ?_
    intro _
    have hf := hfailed w.store e (congrArg Prod.fst ho)
    rwa [ho] at hf
  · rw [ho] at hc
    obtain ⟨log, hb⟩ := broadcast_delivers file m { w with store := t }
    simp only [outcome_demand_ok, hb]
    refine .done rfl (insert_of_getElem? hw).symm ⟨hc, rfl⟩ rfl ?_
    intro _
    have hd := hdone w.store (congrArg Prod.fst ho)
    rwa [ho] at hd

theorem deals_arm (s : Script) (file : String) (a : Address) :
    Deals file s s (·.insert a) (some (.added file a)) (arm s file a : Action σ τ Unit) := by
  have hadd : Deals file s s (·.insert a) (some (.added file a)) (do
      demand (← askStore (BreakpointStore.add file a))
      broadcast file (.added file a) : Action σ τ Unit) :=
    deals_call _ (fun _ ↦ .add file a .nothing) (fun _ ↦ LawfulStore.armed_add)
      fun _ _ ↦ LawfulStore.add_refused
  unfold arm
  cases s.flags.notBreakable with
  | false => exact hadd
  | true => exact .throw _

theorem deals_list (s : Script) (file : String) :
    Deals file s s id none
      (do demand (← askStore (BreakpointStore.list file)) : Action σ τ _) := by
  intro w hw
  have hc : Called w.store (BreakpointStore.list file w.store).2 := .list file .nothing
  simp only [Fallible.outcome_bind, outcome_askStore]
  rcases ho : BreakpointStore.list file w.store with ⟨e | as, t⟩ <;> rw [ho] at hc
  · refine .failed rfl rfl ⟨hc, rfl⟩ rfl ?_
    intro _
    have ha := LawfulStore.armed_list file w.store
    rwa [ho] at ha
  · refine .done rfl (insert_of_getElem? hw).symm ⟨hc, rfl⟩ rfl ?_
    intro _
    have ha := LawfulStore.armed_list file w.store
    rw [ho] at ha
    rwa [id, Function.update_eq_self]

end Deals

section Answers

variable [Archive σ] [BreakpointStore τ] (c : Compiler)

/-- How an action ends that is about one script, which it has to find first. -/
inductive Answered (file : String) (turn : Script → Happening)
    (rearm : Script → Std.ExtTreeSet Address → Std.ExtTreeSet Address)
    (posts : Script → Option Message) (w : Workspace σ τ) :
    Except Fault α → Workspace σ τ → Prop
  | unfound {f : Fault} {w' : Workspace σ τ} : (script c file).outcome w = (.error f, w') →
      Answered file turn rearm posts w (.error f) w'
  | found {s : Script} {w₁ : Workspace σ τ} {result : Except Fault α} {w' : Workspace σ τ} :
      (script c file).outcome w = (.ok s, w₁) →
      Dealt file (s.after (turn s)) (rearm s) (posts s) w₁ result w' →
      Answered file turn rearm posts w result w'

def Answers (file : String) (turn : Script → Happening)
    (rearm : Script → Std.ExtTreeSet Address → Std.ExtTreeSet Address)
    (posts : Script → Option Message) (x : Action σ τ α) : Prop :=
  ∀ w, Answered c file turn rearm posts w (x.outcome w).1 (x.outcome w).2

variable {c} {file : String} {turn : Script → Happening}
  {rearm : Script → Std.ExtTreeSet Address → Std.ExtTreeSet Address}
  {posts : Script → Option Message}

theorem Answered.reads {w w' : Workspace σ τ} {result : Except Fault α}
    (h : Answered c file turn rearm posts w result w') : Reads w.archive w'.archive := by
  cases h with
  | unfound ho => exact (script_error ho).2.1.archive
  | found ho hd =>
    have hreads := (script_ok ho).2.1.archive
    cases hd with
    | failed ha => rwa [ha]
    | done ha => rwa [ha]

theorem Answers.of_script {k : Script → Action σ τ α}
    (hk : ∀ s, Deals file s (s.after (turn s)) (rearm s) (posts s) (k s)) :
    Answers c file turn rearm posts (script c file >>= k) := by
  intro w
  rw [Fallible.outcome_bind]
  rcases ho : (script c file : Action σ τ _).outcome w with ⟨f | s, w₁⟩
  · exact .unfound ho
  · refine .found ho (hk s w₁ ?_)
    rw [(script_ok ho).2.2, Std.ExtTreeMap.getElem?_insert_self]

theorem Answers.map {x : Action σ τ α} (f : α → β) (hx : Answers c file turn rearm posts x) :
    Answers c file turn rearm posts (x >>= fun a ↦ pure (f a)) := by
  intro w
  have hend := hx w
  rw [← map_eq_pure_bind, Fallible.outcome_map]
  generalize x.outcome w = o at hend ⊢
  rcases o with ⟨result, w'⟩
  dsimp only at hend ⊢
  cases hend with
  | unfound ho => exact .unfound ho
  | found ho hd => exact .found ho (hd.map f)

theorem answers_script :
    Answers c file (fun _ ↦ .asked) (fun _ ↦ id) (fun _ ↦ none)
      (script c file : Action σ τ _) := by
  have h : Answers c file (fun _ ↦ .asked) (fun _ ↦ id) (fun _ ↦ none)
      (script c file >>= fun s ↦ (pure s : Action σ τ Script)) :=
    .of_script fun s ↦ (Posts.pure file s).deals
  rwa [bind_pure] at h

theorem answers_setAuthority (projection : Projection) :
    Answers c file (fun _ ↦ .authority projection) (fun _ ↦ id) (fun _ ↦ none)
      (setAuthority c file projection : Action σ τ Unit) := by
  refine .of_script fun s ↦ ?_
  by_cases h : s.authority ≠ projection
  · rw [if_pos h]
    exact .note _ (Posts.pure file ()).put
  · rw [if_neg h, show s.after (.authority projection) = s from not_not.1 h ▸ rfl]
    exact (Posts.pure file _).deals

theorem answers_openInEditor :
    Answers c file (fun _ ↦ .openedInEditor) (fun _ ↦ id) (fun _ ↦ none)
      (openInEditor c file : Action σ τ _) :=
  .of_script fun _ ↦ (Posts.note _ (.pure file _)).put

theorem answers_closeInEditor (confirm : Bool) :
    Answers c file (fun _ ↦ .closedInEditor confirm) (fun _ ↦ id) (fun _ ↦ none)
      (closeInEditor c file confirm : Action σ τ _) := by
  refine .of_script fun s ↦ ?_
  change Deals file s (s.closeInEditor confirm).2 id none _
  rcases s.closeInEditor confirm with ⟨⟨closed, asked⟩, t⟩
  refine Posts.put ?_
  cases closed with
  | false => exact .note _ (.pure file _)
  | true =>
    refine .note _ ?_
    cases t.flags.notBreakable with
    | false => exact .pure file _
    | true => exact .note _ (.pure file _)

theorem answers_invalidate :
    Answers c file (fun _ ↦ .invalidated) (fun _ ↦ id) (fun _ ↦ none)
      (invalidate c file : Action σ τ Unit) :=
  .of_script fun _ ↦ .note _ (Posts.pure file ()).put

theorem answers_openInEngine :
    Answers c file (fun _ ↦ .loadedInEngine) (fun _ ↦ id) ((Request.openInEngine file).posts c)
      (openInEngine c file : Action σ τ Unit) := by
  refine .of_script fun s ↦ .note _ (deals_settle file s .loadedInEngine ?_)
  cases h : s.flags.upToDate <;> simp [Script.after, Script.openInEngine, Script.reloads, h]

theorem answers_closeInEngine :
    Answers c file (fun _ ↦ .unloadedInEngine) (fun _ ↦ id)
      ((Request.closeInEngine file).posts c) (closeInEngine c file : Action σ τ Unit) := by
  refine .of_script fun s ↦ .note _ (deals_settle file s .unloadedInEngine ?_)
  cases h : s.flags.upToDate <;> simp [Script.after, Script.closeInEngine, Script.reloads, h]

theorem answers_forceReload :
    Answers c file (fun _ ↦ .forcedReload) (fun _ ↦ id) ((Request.forceReload file).posts c)
      (forceReload c file : Action σ τ Unit) := by
  refine .of_script fun s ↦ ?_
  by_cases h : s.reloadReady = true
  · rw [if_pos h]
    refine .note _ (deals_settle file s .forcedReload ?_)
    simp [Script.after, Script.reloads, h]
  · rw [if_neg h]
    exact .note _ (.throw _)

theorem answers_loadedInEngine (reported : Option Digest) :
    Answers c file (loading reported) (fun _ ↦ id)
      ((Request.report (.loaded file reported)).posts c)
      (loadedInEngine c file reported : Action σ τ Unit) := by
  refine .of_script fun s ↦ ?_
  dsimp only
  cases hr : reported.filter (· ≠ s.binary.digest) with
  | some foreign =>
    simp only [Request.posts, Request.turn, loading_foreign hr, Script.reloads]
    exact .note _ (Posts.pure file ()).put
  | none =>
    simp only [Request.posts, Request.turn, loading_known hr]
    refine .note _ (deals_settle file s .loadedInEngine ?_)
    cases h : s.flags.upToDate <;> simp [Script.after, Script.openInEngine, Script.reloads, h]

theorem answers_addBreakpoint (line : Nat) (projection : Projection) :
    Answers c file (fun _ ↦ .asked) ((Request.addBreakpoint file line projection).rearm c)
      ((Request.addBreakpoint file line projection).posts c)
      (addBreakpoint c file line projection : Action σ τ _) := by
  refine .of_script fun s ↦ ?_
  simp only [Request.rearm, Request.posts]
  cases (s.active.get projection).map.first? line with
  | none => exact (Posts.note _ (.pure file _)).deals
  | some a => exact (deals_arm s file a).map _

theorem answers_addBreakpointAt (a : Address) :
    Answers c file (fun _ ↦ .asked) (fun _ ↦ (·.insert a)) (fun _ ↦ some (.added file a))
      (addBreakpointAt c file a : Action σ τ Unit) :=
  .of_script fun s ↦ deals_arm s file a

theorem answers_removeBreakpoint (a : Address) :
    Answers c file (fun _ ↦ .asked) (fun _ ↦ (·.erase a)) (fun _ ↦ some (.removed file a))
      (removeBreakpoint c file a : Action σ τ Unit) :=
  .of_script fun _ ↦ deals_call _ (fun _ ↦ .remove file a .nothing)
    (fun _ ↦ LawfulStore.armed_remove) fun _ _ ↦ LawfulStore.remove_refused

theorem answers_listBreakpoints :
    Answers c file (fun _ ↦ .asked) (fun _ ↦ id) (fun _ ↦ none)
      (listBreakpoints c file : Action σ τ _) :=
  .of_script fun s ↦ deals_list s file

end Answers

end ScriptBreakpoints.Workspace

namespace ScriptBreakpoints.Request

open Workspace

variable {σ τ : Type} [Archive σ] [BreakpointStore τ] (c : Compiler)

theorem perform_answers {r : Request} (hr : r.isSave = false) :
    Answers c r.file (r.turn c) (r.rearm c) (r.posts c) (r.perform c : Action σ τ Reply) := by
  cases r with
  | get file => exact answers_script.map _
  | digest file => exact (answers_script.map _).map _
  | debugState file => exact (answers_script.map _).map _
  | setAuthority file projection => exact (answers_setAuthority projection).map _
  | openInEditor file => exact answers_openInEditor.map _
  | closeInEditor file confirm => exact (answers_closeInEditor confirm).map _
  | openInEngine file => exact answers_openInEngine.map _
  | closeInEngine file => exact answers_closeInEngine.map _
  | save file projection text marked => cases hr
  | forceReload file => exact answers_forceReload.map _
  | invalidate file => exact answers_invalidate.map _
  | addBreakpoint file line projection => exact (answers_addBreakpoint line projection).map _
  | addBreakpointAt file a => exact (answers_addBreakpointAt a).map _
  | removeBreakpoint file a => exact (answers_removeBreakpoint a).map _
  | listBreakpoints file => exact answers_listBreakpoints.map _
  | report r =>
    cases r with
    | loaded file reported => exact (answers_loadedInEngine reported).map _
    | unloaded file => exact answers_closeInEngine.map _

end ScriptBreakpoints.Request
