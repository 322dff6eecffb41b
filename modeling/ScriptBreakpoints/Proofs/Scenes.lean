import ScriptBreakpoints.Proofs.Endings
import ScriptBreakpoints.Proofs.Frames

namespace ScriptBreakpoints

open Fallible Workspace

namespace Aspect

variable (file : String) (x : Address) (a : Aspect)

def arm : Aspect :=
  { a with armed := a.armed.insert x, mail := a.mail ++ List.replicate a.reach (.added file x) }

def disarm : Aspect :=
  { a with armed := a.armed.erase x, mail := a.mail ++ List.replicate a.reach (.removed file x) }

/-- The aspect of the script `s` after its text was saved, and after the reload that comes at once
if the engine does not hold the script. -/
def store (s : Script) (binary : Binary) (views : Dual View) (armed : List Address) : Aspect :=
  let saved := (s.save binary views).2
  if s.flags.inEngine then { a with script := some saved, armed := .ofList armed }
  else
    { script := some saved.promote
      armed := .ofList armed
      reach := a.reach
      mail := a.mail ++ List.replicate a.reach (.reload saved.promote.reload) }

variable {file x a} {c : Compiler} {s : Script}

theorem grant_arm (hs : a.script = some s) :
    a.grant c (.addBreakpointAt file x) s = a.arm file x := by
  rw [arm, hs]
  rfl

theorem grant_disarm (hs : a.script = some s) :
    a.grant c (.removeBreakpoint file x) s = a.disarm file x := by
  rw [disarm, hs]
  rfl

theorem grant_asked {r : Request} (hs : a.script = some s) (ht : r.turn c s = .asked)
    (ha : r.rearm c s a.armed = a.armed) (hp : r.posts c s = none) : a.grant c r s = a := by
  rw [grant, ht, ha, hp, Option.elim_none, List.append_nil, Script.after, ← hs]

theorem Asked.quiet {r : Request} {a' : Aspect} (h : a.Asked c r a')
    (ha : ∀ s armed, r.rearm c s armed = armed) (hp : ∀ s, r.posts c s = none) :
    a' = { a with script := a'.script } := by
  cases h with
  | ignored => rfl
  | found _ => rfl
  | granted _ => rw [grant, ha, hp, Option.elim_none, List.append_nil]

end Aspect

variable {σ τ α : Type} [BreakpointStore τ] [LawfulStore τ]

def Unremoved (file : String) (t t' : τ) : Prop :=
  ∃ t₁ x, Called t t₁ ∧ t' = (BreakpointStore.remove file x t₁).2 ∧
    (BreakpointStore.remove file x t₁).1 ≠ .ok ()

def Unlisted (file : String) (t t' : τ) : Prop :=
  t' = (BreakpointStore.list file t).2 ∧ ∀ as, (BreakpointStore.list file t).1 ≠ .ok as

/-- What an editor shows of a script, and what its mailbox sees of it. -/
structure Shows (file : String) (box : Mailbox) (v : Option OpenScript) (a : Aspect)
    (d : Desk σ τ) : Prop where
  inbox : d.editor.inbox = box
  orderly : d.workspace.Orderly
  attends : d.workspace.Attends box
  view : d.editor.scripts[file]? = v
  aspect : d.workspace.aspect file box = a

namespace Shows

variable {file : String} {box : Mailbox} {v : Option OpenScript} {a : Aspect} {d : Desk σ τ}
  {s : Script} {o : OpenScript}

theorem log (hd : Shows file box v a d) (log : List Notice) :
    Shows file box v a { d with workspace.log := log } :=
  ⟨hd.inbox, ⟨hd.orderly.named, hd.orderly.listed⟩, hd.attends, hd.view, hd.aspect⟩

theorem put (hd : Shows file box v a d) (o : OpenScript) :
    Shows file box (some o) a { d with editor.scripts := d.editor.scripts.insert file o } :=
  ⟨hd.inbox, hd.orderly, hd.attends, Std.ExtTreeMap.getElem?_insert_self, hd.aspect⟩

theorem tracked (hd : Shows file box v a d) (hs : a.script = some s) :
    d.workspace.scripts[file]? = some s := by
  have h := congrArg Aspect.script hd.aspect
  exact h.trans hs

theorem showMarker (hd : Shows file box v a d) (x : Address) (o : OpenScript) :
    ∃ d', (Editor.showMarker file x o : EditorAction σ τ Unit).outcome d = (.ok (), d') ∧
      Shows file box (some (o.showMarker x)) a d' := by
  obtain ⟨log, ho⟩ := Editor.showMarker_outcome file x o d
  exact ⟨_, ho, (hd.log log).put _⟩

variable [Archive σ] {c : Compiler}

/-- A request about a script that is tracked is granted or changes nothing. -/
theorem ask (hd : Shows file box v a d) (hs : a.script = some s) {r : Request} {x : Action σ τ α}
    {f : α → Reply} (hx : r.perform c = x >>= fun b ↦ pure (f b)) (hfile : r.file = file)
    (hsave : r.isSave = false) :
    (∃ e w', x.outcome d.workspace = (.error e, w') ∧
        Shows file box v a { d with workspace := w' }) ∨
      ∃ b w', x.outcome d.workspace = (.ok b, w') ∧
        Shows file box v (a.grant c r s) { d with workspace := w' } := by
  subst hfile
  have hend := r.respond c d.workspace
  have horderly := hd.orderly.perform (c := c) r
  rw [hx, ← map_eq_pure_bind, outcome_map] at hend horderly
  rcases ho : x.outcome d.workspace with ⟨e | b, w'⟩ <;> rw [ho] at hend horderly <;>
    dsimp only at hend horderly
  · refine .inl ⟨e, w', rfl, hd.inbox, horderly, hend.attends hd.attends, hd.view, ?_⟩
    rw [Request.aspect_refused (hd.tracked hs) hend fun h ↦ absurd h (ne_true_of_eq_false hsave)]
    exact hd.aspect
  · refine .inr ⟨b, w', rfl, hd.inbox, horderly, hend.attends hd.attends, hd.view, ?_⟩
    rw [Request.aspect_granted hd.orderly hd.attends (.tracked (hd.tracked hs)) hend, hd.aspect]

theorem removeBreakpoint_error (hd : Shows file box v a d) (hs : a.script = some s) {x : Address}
    {w' : Workspace σ τ} {e : Fault}
    (ho : (removeBreakpoint c file x).outcome d.workspace = (.error e, w')) :
    w'.store = (BreakpointStore.remove file x d.workspace.store).2 ∧
      (BreakpointStore.remove file x d.workspace.store).1 ≠ .ok () := by
  simp only [removeBreakpoint, outcome_bind, script_tracked (hd.tracked hs), outcome_askStore]
    at ho
  cases hr : (BreakpointStore.remove file x d.workspace.store).1 with
  | error e =>
    rw [hr, outcome_demand_error] at ho
    cases ho
    exact ⟨rfl, nofun⟩
  | ok _ =>
    obtain ⟨log, hb⟩ := broadcast_delivers file (.removed file x)
      { d.workspace with store := (BreakpointStore.remove file x d.workspace.store).2 }
    rw [hr, outcome_demand_ok] at ho
    simp only [hb] at ho
    cases ho

/-- Breakpoints are removed one by one, up to the first one that the store does not remove. -/
theorem removeAll (hd : Shows file box (some o) a d) (hs : a.script = some s)
    (xs : List Address) :
    ∃ result d' removed, (Editor.removeAll c file xs).outcome d = (result, d') ∧
      removed <+: xs ∧ (result = .ok ⟨⟩ → removed = xs) ∧
      (result ≠ .ok ⟨⟩ → Unremoved file d.workspace.store d'.workspace.store) ∧
      Shows file box (some (removed.foldl (fun o x ↦ o.hideMarker x) o))
        (removed.foldl (fun a x ↦ a.disarm file x) a) d' := by
  induction xs generalizing d o a with
  | nil => exact ⟨.ok ⟨⟩, d, [], rfl, List.prefix_refl _, fun _ ↦ rfl, fun h ↦ absurd rfl h, hd⟩
  | cons x xs ih =>
    simp only [Editor.removeAll, outcome_forM_cons, outcome_bind, perform, outcome_zoom]
    obtain ⟨e, w', ho, hd'⟩ | ⟨_, w', ho, hd'⟩ :=
      hd.ask (c := c) hs (r := .removeBreakpoint file x) rfl rfl rfl
    · obtain ⟨hstore, hrefused⟩ := hd.removeBreakpoint_error hs ho
      rw [ho]
      exact ⟨_, _, [], rfl, List.nil_prefix, (fun h ↦ by cases h),
        fun _ ↦ ⟨_, x, .nothing, hstore, hrefused⟩, hd'⟩
    · have hcalled := ((Request.removeBreakpoint file x).respond c d.workspace).called
      simp only [Request.perform, ← map_eq_pure_bind, outcome_map] at hcalled
      rw [ho] at hcalled ⊢
      rw [Aspect.grant_disarm hs] at hd'
      simp only [Editor.opened_some hd'.view, Editor.put, outcome_modify]
      obtain ⟨result, d', removed, ho', hpre, hall, hfailed, hend⟩ :=
        ih (hd'.put (o.hideMarker x)) hs
      refine ⟨result, d', x :: removed, ?_, (List.prefix_cons_inj x).2 hpre, fun hok ↦ ?_,
        fun h ↦ ?_, hend⟩
      · rw [← ho']
        rfl
      · rw [hall hok]
      · obtain ⟨t, y, ht, h⟩ := hfailed h
        exact ⟨t, y, hcalled.trans ht, h⟩

inductive Clicked (file : String) (projection : Projection) (line : Nat) (o : OpenScript)
    (a : Aspect) : Except Fault Unit → OpenScript → Aspect → Prop
  | nothing {result : Except Fault Unit} :
      (result = .ok () → projection = o.authority →
        o.buffer.markersOn line = [] ∧ o.buffer.marks.first? line = none) →
      Clicked file projection line o a result o a
  | hidden {result : Except Fault Unit} {removed : List Address} : projection = o.authority →
      removed <+: o.buffer.markersOn line → (result = .ok () → removed = o.buffer.markersOn line) →
      o.buffer.markersOn line ≠ [] →
      Clicked file projection line o a result (removed.foldl (fun o x ↦ o.hideMarker x) o)
        (removed.foldl (fun a x ↦ a.disarm file x) a)
  | shown {x : Address} : projection = o.authority → o.buffer.markersOn line = [] →
      o.buffer.marks.first? line = some x →
      Clicked file projection line o a (.ok ()) (o.showMarker x) (a.arm file x)

theorem Clicked.failed {projection : Projection} {line : Nat} {f : Fault} :
    Clicked file projection line o a (.error f) o a := .nothing fun h ↦ by cases h

theorem toggle (hd : Shows file box (some o) a d) (hs : a.script = some s)
    (projection : Projection) (line : Nat) :
    ∃ result d' o' a', (Editor.toggle c file projection line).outcome d = (result, d') ∧
      Clicked file projection line o a result o' a' ∧ Shows file box (some o') a' d' := by
  simp only [Editor.toggle, outcome_bind, Editor.opened_some hd.view]
  by_cases hp : projection ≠ o.authority
  · rw [if_pos hp]
    exact ⟨_, _, o, a, rfl, .nothing fun _ h ↦ absurd h hp, hd.log _⟩
  rw [if_neg hp]
  have hp := not_not.1 hp
  by_cases hshown : o.buffer.markersOn line ≠ []
  · rw [if_pos hshown]
    obtain ⟨result, d', removed, ho, hpre, hall, -, hend⟩ :=
      hd.removeAll (c := c) hs (o.buffer.markersOn line)
    exact ⟨result, d', _, _, ho, .hidden hp hpre hall hshown, hend⟩
  rw [if_neg hshown]
  have hshown := not_not.1 hshown
  simp only [outcome_bind, perform, outcome_zoom]
  obtain ⟨e, w', ho, hd'⟩ | ⟨state, w', ho, hd'⟩ :=
    hd.ask (c := c) (r := .debugState file) hs rfl rfl rfl
  · rw [ho]
    exact ⟨_, _, o, a, rfl, .failed, hd'⟩
  rw [Aspect.grant_asked (r := .debugState file) hs rfl rfl rfl] at hd'
  rw [ho]
  dsimp only
  by_cases hstate : state = .notBreakable
  · rw [if_pos hstate]
    exact ⟨_, _, o, a, rfl, .failed, hd'⟩
  rw [if_neg hstate]
  cases hx : o.buffer.marks.first? line with
  | none => exact ⟨_, _, o, a, rfl, .nothing fun _ _ ↦ ⟨hshown, hx⟩, hd'⟩
  | some x =>
    simp only [outcome_bind, outcome_zoom]
    obtain ⟨e, w'', ho', hd''⟩ | ⟨_, w'', ho', hd''⟩ :=
      hd'.ask (c := c) (r := .addBreakpointAt file x) hs rfl rfl rfl
    · rw [ho']
      exact ⟨_, _, o, a, rfl, .failed, hd''⟩
    · rw [Aspect.grant_arm hs] at hd''
      rw [ho']
      obtain ⟨d', ho'', hend⟩ := hd''.showMarker x o
      exact ⟨_, d', _, _, ho'', .shown hp hshown hx, hend⟩

omit [Archive σ] in
theorem insertLines (hd : Shows file box (some o) a d) (projection : Projection) (start : Nat)
    (lines : List String) :
    ∃ result d', (Editor.insertLines file projection start lines :
        EditorAction σ τ Unit).outcome d = (result, d') ∧
      Shows file box (some (if projection = o.authority
        then o.setBuffer (o.buffer.insertLines start lines) else o)) a d' := by
  simp only [Editor.insertLines, outcome_bind, Editor.editable_open hd.view]
  by_cases hp : projection = o.authority
  · simp only [if_pos hp, Editor.put, outcome_modify]
    exact ⟨_, _, rfl, hd.put _⟩
  · simp only [if_neg hp]
    exact ⟨_, _, rfl, hd⟩

theorem deleteLines (hd : Shows file box (some o) a d) (hs : a.script = some s)
    (projection : Projection) (start stop : Nat) :
    ∃ result d' o' a', (Editor.deleteLines c file projection start stop).outcome d = (result, d') ∧
      Shows file box (some o') a' d' ∧
      (projection ≠ o.authority ∧ o' = o ∧ a' = a ∨
        projection = o.authority ∧ ∃ removed, removed <+: (o.buffer.deleteLines start stop).1 ∧
          (result = .ok () → removed = (o.buffer.deleteLines start stop).1) ∧
          (result ≠ .ok () → Unremoved file d.workspace.store d'.workspace.store) ∧
          o' = removed.foldl (fun o x ↦ o.hideMarker x)
            (o.setBuffer (o.buffer.deleteLines start stop).2) ∧
          a' = removed.foldl (fun a x ↦ a.disarm file x) a) := by
  simp only [Editor.deleteLines, outcome_bind, Editor.editable_open hd.view]
  by_cases hp : projection = o.authority
  · simp only [if_pos hp, Editor.put, outcome_modify]
    obtain ⟨result, d', removed, ho, hpre, hall, hfailed, hend⟩ :=
      (hd.put (o.setBuffer (o.buffer.deleteLines start stop).2)).removeAll (c := c) hs
        (o.buffer.deleteLines start stop).1
    exact ⟨result, d', _, _, ho, hend, .inr ⟨hp, removed, hpre, hall, hfailed, rfl, rfl⟩⟩
  · simp only [if_neg hp]
    exact ⟨_, _, o, a, rfl, hd, .inl ⟨hp, rfl, rfl⟩⟩

theorem list (hd : Shows file box v a d) (hs : a.script = some s)
    {result : Except Fault (List Address)} {w' : Workspace σ τ}
    (ho : (listBreakpoints c file).outcome d.workspace = (result, w')) :
    Shows file box v a { d with workspace := w' } ∧
      (∀ as, result = .ok as → as = a.armed.toList) ∧
      ∀ f, result = .error f → Unlisted file d.workspace.store w'.store := by
  have hshows : Shows file box v a { d with workspace := w' } := by
    obtain ⟨e, w'', ho', hd'⟩ | ⟨as, w'', ho', hd'⟩ :=
      hd.ask (c := c) (r := .listBreakpoints file) hs rfl rfl rfl <;>
      rw [ho] at ho' <;> cases ho'
    · exact hd'
    · rwa [Aspect.grant_asked (r := .listBreakpoints file) hs rfl rfl rfl] at hd'
  rw [listBreakpoints_tracked (hd.tracked hs), Prod.mk.injEq] at ho
  obtain ⟨rfl, rfl⟩ := ho
  refine ⟨hshows, fun as h ↦ ?_, fun f h ↦ ⟨rfl, fun as hl ↦ ?_⟩⟩
  · cases hl : (BreakpointStore.list file d.workspace.store).1 with
    | error e =>
      rw [hl] at h
      cases h
    | ok as' =>
      rw [hl] at h
      cases h
      rw [← hd.aspect]
      exact LawfulStore.list_eq hl
  · rw [hl] at h
    cases h

theorem handle (hd : Shows file box v a d) (hs : v.isSome → ∃ s, a.script = some s) {m : Message}
    (hm : m.file? = some file) :
    ∃ result d' as, (Editor.handle c m).outcome d = (.ok result, d') ∧
      Shows file box (v.map (·.hear as m)) a d' ∧
      (as = a.armed.toList ∨ Unlisted file d.workspace.store d'.workspace.store) := by
  cases v with
  | none =>
    obtain ⟨log, ho⟩ := Editor.handle_closed (c := c) hd.view hm
    exact ⟨_, _, a.armed.toList, ho, hd.log log, .inl rfl⟩
  | some o =>
    obtain ⟨as, w, log, ho, hconsults⟩ := Editor.handle_open (c := c) hd.view hm
    cases hconsults with
    | news h =>
      rw [← h o a.armed.toList] at ho
      exact ⟨_, _, a.armed.toList, ho, (hd.log log).put _, .inl rfl⟩
    | @reload log' result _ hl =>
      obtain ⟨s, hs⟩ := hs rfl
      obtain ⟨hd', hlisted, hunlisted⟩ := (hd.log log').list hs hl
      refine ⟨_, _, _, ho, (hd'.log log).put _, ?_⟩
      cases result with
      | error f => exact .inr (hunlisted f rfl)
      | ok as => exact .inl (hlisted as rfl)

/-- What becomes of a script that is to be saved, where the store was `t` before and is `t'` now. -/
inductive Stored (c : Compiler) (file : String) (o : OpenScript) (a : Aspect) (s : Script)
    (t t' : τ) : Except Fault (Option Readiness) → OpenScript → Aspect → Prop
  | unmodified : o.buffer.modified = false → Stored c file o a s t t' (.ok none) o a
  | failed {f : Fault} : Stored c file o a s t t' (.error f) o a
  | unrestored {f : Fault} {armed : Std.ExtTreeSet Address} {t₁ : τ} {previous : List Address}
      {e : StorageFault} : Called t t₁ →
      BreakpointStore.resync file previous t₁ = (.error e, t') →
      Stored c file o a s t t' (.error f) o { a with armed }
  | saved {compiled : Compiled} {other : View} : o.authority = s.authority →
      c.compile o.authority o.buffer.text = .ok compiled →
      c.decompile o.authority.other compiled.binary = .ok other →
      Stored c file o a s t t' (.ok (some (if s.flags.inEngine then .deferred else .ready)))
        (o.saved compiled.map)
        (a.store s compiled.binary (savedViews o.authority o.buffer.text compiled.map other)
          (compiled.map.breakpointsOn o.buffer.markerLines))

theorem saveText_ok (hd : Shows file box v a d) {projection : Projection} {text : String}
    {marked : LineSet} {answer : Saved} {w' : Workspace σ τ}
    (ho : (Workspace.save c file projection text marked).outcome d.workspace = (.ok answer, w')) :
    ∃ s compiled other, a.Finds file s ∧ projection = s.authority ∧
      c.compile projection text = .ok compiled ∧
      c.decompile projection.other compiled.binary = .ok other ∧
      answer = ⟨if s.flags.inEngine then .deferred else .ready, compiled.map,
        compiled.map.breakpointsOn marked⟩ ∧
      Shows file box v { a with
        script := some (s.save compiled.binary (savedViews projection text compiled.map other)).2
        armed := .ofList (compiled.map.breakpointsOn marked) } { d with workspace := w' } := by
  have hends := save_ends c file projection text marked d.workspace
  have hend := (Request.save file projection text marked).respond c d.workspace
  have horderly := hd.orderly.perform (c := c) (.save file projection text marked)
  simp only [Request.perform, ← map_eq_pure_bind, outcome_map] at hend horderly
  rw [ho] at hends hend horderly
  cases hends with
  | @done s w₁ compiled other previous t log t₁ t₂ hscript ha hc hdec =>
    obtain ⟨hf, -, -⟩ := script_ok hscript
    have hgranted := Request.aspect_granted (r := .save file projection text marked) hd.orderly
      hd.attends hf hend
    have hposts : (Request.save file projection text marked).posts c s = none := by
      simp only [Request.posts, Request.turn, saving, hc, hdec, Script.reloads]
      rfl
    rw [Aspect.grant, hposts, Option.elim_none, List.append_nil] at hgranted
    simp only [Request.turn, saving, hc, hdec, Request.rearm, Script.after, Request.file,
      hd.aspect] at hgranted
    refine ⟨s, compiled, other, ?_, ha, hc, hdec, by rw [Script.save_readiness], hd.inbox, horderly,
      hend.attends hd.attends, hd.view, hgranted⟩
    rw [← hd.aspect]
    exact hf.aspect

theorem saveText_error (hd : Shows file box v a d) (hs : a.script = some s)
    {projection : Projection} {text : String} {marked : LineSet} {f : Fault} {w' : Workspace σ τ}
    (ho : (Workspace.save c file projection text marked).outcome d.workspace = (.error f, w')) :
    (∃ t previous e, Called d.workspace.store t ∧
        BreakpointStore.resync file previous t = (.error e, w'.store) ∧
        ∃ armed, Shows file box v { a with armed } { d with workspace := w' }) ∨
      Shows file box v a { d with workspace := w' } := by
  have hend := (Request.save file projection text marked).respond c d.workspace
  have horderly := hd.orderly.perform (c := c) (.save file projection text marked)
  simp only [Request.perform, ← map_eq_pure_bind, outcome_map] at hend horderly
  rw [ho] at hend horderly
  have hshows {a' : Aspect} (ha : w'.aspect file box = a') :
      Shows file box v a' { d with workspace := w' } :=
    ⟨hd.inbox, horderly, hend.attends hd.attends, hd.view, ha⟩
  by_cases hun : ∃ t previous e, Called d.workspace.store t ∧
      BreakpointStore.resync file previous t = (.error e, w'.store)
  · obtain ⟨t, previous, e, ht, hr⟩ := hun
    refine .inl ⟨t, previous, e, ht, hr, LawfulStore.armed w'.store file, hshows ?_⟩
    rw [← hd.aspect]
    exact Request.aspect_failed (hd.tracked hs) hend
  · refine .inr (hshows ?_)
    rw [← hd.aspect]
    exact Request.aspect_refused (hd.tracked hs) hend fun _ t previous e ht hr ↦
      hun ⟨t, previous, e, ht, hr⟩

theorem saved (hd : Shows file box (some o) a d) {answer : Saved} {w w' : Workspace σ τ}
    (ho : (Workspace.save c file o.authority o.buffer.text o.buffer.markerLines).outcome
      { d.workspace with log := d.workspace.log ++ [.saving file] } = (.ok answer, w))
    (hreload : answer.readiness = .ready ∧ (forceReload c file).outcome w = (.ok (), w') ∨
      answer.readiness = .deferred ∧ w' = w) :
    ∃ s compiled other, a.Finds file s ∧ o.authority = s.authority ∧
      c.compile o.authority o.buffer.text = .ok compiled ∧
      c.decompile o.authority.other compiled.binary = .ok other ∧
      answer.readiness = (if s.flags.inEngine then .deferred else .ready) ∧
      answer.provisional = compiled.map ∧
      Shows file box (some (o.saved compiled.map))
        (a.store s compiled.binary (savedViews o.authority o.buffer.text compiled.map other)
          (compiled.map.breakpointsOn o.buffer.markerLines))
        { editor := { d.editor with
            scripts := d.editor.scripts.insert file (o.saved compiled.map) },
          workspace := w' } := by
  obtain ⟨s, compiled, other, hf, ha, hc, hdec, rfl, hsaved⟩ :=
    (hd.log (d.workspace.log ++ [.saving file])).saveText_ok ho
  have hsaved := hsaved.put (o.saved compiled.map)
  refine ⟨s, compiled, other, hf, ha, hc, hdec, rfl, rfl, ?_⟩
  cases hin : s.flags.inEngine with
  | true =>
    simp only [hin, if_true, reduceCtorEq, false_and, true_and, false_or] at hreload
    simp only [Aspect.store, hin, if_true, hreload]
    exact hsaved
  | false =>
    simp only [hin, Bool.false_eq_true, if_false, reduceCtorEq, false_and, true_and, or_false]
      at hreload
    obtain ⟨e, w₁, ho₁, -⟩ | ⟨_, w₁, ho₁, hd₁⟩ :=
      hsaved.ask (c := c) (r := .forceReload file) rfl rfl rfl rfl
    · rw [hreload] at ho₁
      cases ho₁
    · rw [hreload] at ho₁
      cases ho₁
      have hready : (s.save compiled.binary
          (savedViews o.authority o.buffer.text compiled.map other)).2.reloadReady = true := by
        rw [Script.save_reloadReady, hin]
        rfl
      simp only [Aspect.grant, Request.turn, Request.posts, Request.rearm, Script.after,
        Script.reloads, hready, if_true, Option.elim_some] at hd₁
      simp only [Aspect.store, hin, Bool.false_eq_true, if_false]
      exact hd₁

theorem save (hd : Shows file box (some o) a d) (hs : a.script = some s) :
    ∃ result d' o' a', (Editor.save c file).outcome d = (result, d') ∧
      Shows file box (some o') a' d' ∧
      Stored c file o a s d.workspace.store d'.workspace.store result o' a' := by
  have hends := Editor.save_ends c file d
  rcases ho : (Editor.save c file).outcome d with ⟨result, d'⟩
  rw [ho] at hends
  refine ⟨result, d', ?_⟩
  cases hends with
  | unopened hopen =>
    rw [hd.view] at hopen
    cases hopen
  | unmodified hopen hm =>
    cases hd.view.symm.trans hopen
    exact ⟨o, a, rfl, hd, .unmodified hm⟩
  | failed hopen hm hsave =>
    cases hd.view.symm.trans hopen
    obtain ⟨t, previous, e, ht, hr, armed, hd'⟩ | hd' :=
      (hd.log (d.workspace.log ++ [.saving file])).saveText_error hs hsave
    · exact ⟨o, _, rfl, hd', .unrestored ht hr⟩
    · exact ⟨o, a, rfl, hd', .failed⟩
  | saved hopen hm hsave hreload =>
    cases hd.view.symm.trans hopen
    obtain ⟨s', compiled, other, hf, ha, hc, hdec, hreadiness, hprovisional, hd'⟩ :=
      hd.saved hsave hreload
    obtain rfl := hf.unique hs
    rw [hprovisional, hreadiness]
    exact ⟨_, _, rfl, hd', .saved ha hc hdec⟩

omit [Archive σ] in
theorem listen (hd : Shows file box v a d) {w' : Workspace σ τ}
    (ho : (Workspace.listen file box : Action σ τ Unit).outcome d.workspace = (.ok (), w')) :
    Shows file box v { a with reach := 1 } { d with workspace := w' } := by
  have hcount : (((Workspace.listen file box : Action σ τ Unit).outcome d.workspace).2.audience
      file).count box = 1 := by
    rw [audience_listen]
    split
    · next hnew => rw [List.count_append, List.count_eq_zero.2 hnew.2, List.count_singleton_self]
    · next hold =>
      rw [(hd.orderly.listed file).count, if_pos (by simpa using hold)]
  have horderly := hd.orderly.listen file box
  obtain ⟨listeners, ho'⟩ := listen_outcome file box d.workspace
  rw [ho'] at hcount horderly ho
  cases ho
  refine ⟨hd.inbox, horderly, hd.attends, hd.view, ?_⟩
  rw [Workspace.aspect, hcount, ← hd.aspect]
  rfl

omit [Archive σ] in
theorem unlisten (hd : Shows file box v a d) {w' : Workspace σ τ}
    (ho : (Workspace.unlisten file box : Action σ τ Unit).outcome d.workspace = (.ok (), w')) :
    Shows file box v { a with reach := 0 } { d with workspace := w' } := by
  have haudience := audience_unlisten file file box d.workspace
  rw [if_pos rfl] at haudience
  have hcount : ((d.workspace.audience file).filter (· ≠ box)).count box = 0 := by
    rw [List.count_eq_zero]
    simp
  have horderly := hd.orderly.unlisten file box
  obtain ⟨listeners, ho'⟩ := unlisten_outcome file box d.workspace
  rw [ho'] at haudience horderly ho
  cases ho
  refine ⟨hd.inbox, horderly, hd.attends, hd.view, ?_⟩
  rw [Workspace.aspect, haudience, hcount, ← hd.aspect]
  rfl

theorem openInEditor (hd : Shows file box v a d) {result : Except Fault Script}
    {w' : Workspace σ τ} (ho : (Workspace.openInEditor c file).outcome d.workspace = (result, w')) :
    Shows file box v { a with script := w'.scripts[file]? } { d with workspace := w' } := by
  have hend := (Request.openInEditor file).respond c d.workspace
  have horderly := hd.orderly.perform (c := c) (.openInEditor file)
  simp only [Request.perform, ← map_eq_pure_bind, outcome_map] at hend horderly
  rw [ho] at hend horderly
  have hasked := (hend.asked hd.orderly hd.attends fun h ↦ absurd h Bool.false_ne_true).quiet
    (fun _ _ ↦ rfl) fun _ ↦ rfl
  rw [show d.workspace.aspect (Request.openInEditor file).file box = _ from hd.aspect] at hasked
  exact ⟨hd.inbox, horderly, hend.attends hd.attends, hd.view, hasked⟩

/-- A script that was not open is opened as it is found, or the editor stops listening to it. -/
theorem openScript (hd : Shows file box none a d) :
    ∃ result d' v' a', (Editor.openScript c file).outcome d = (result, d') ∧
      Shows file box v' a' d' ∧
      (v' = none ∧ a'.reach = 0 ∧ a'.mail = a.mail ∨
        ∃ s, v' = some ((OpenScript.ofScript s).place a.armed.toList) ∧
          a' = { a with script := some s, reach := 1 }) := by
  have hends := Editor.openScript_ends c hd.view
  rcases ho : (Editor.openScript c file).outcome d with ⟨result, d'⟩
  rw [ho] at hends
  refine ⟨result, d', ?_⟩
  cases hends with
  | unfound hlisten hasked hunlisten =>
    rw [hd.inbox] at hlisten hunlisten
    have hd' := ((hd.listen hlisten).openInEditor hasked).unlisten hunlisten
    exact ⟨none, _, rfl, hd', .inl ⟨rfl, rfl, rfl⟩⟩
  | unlisted hlisten hasked hl hunlisten =>
    rw [hd.inbox] at hlisten hunlisten
    obtain ⟨hd', -, -⟩ := ((hd.listen hlisten).openInEditor hasked).list
      (openInEditor_ok hasked).1 hl
    exact ⟨none, _, rfl, hd'.unlisten hunlisten, .inl ⟨rfl, rfl, rfl⟩⟩
  | @opened s as w₁ w₂ w₃ log hlisten hasked hl =>
    rw [hd.inbox] at hlisten
    have hs := (openInEditor_ok hasked).1
    obtain ⟨hd', hlisted, -⟩ := ((hd.listen hlisten).openInEditor hasked).list hs hl
    obtain rfl := hlisted as rfl
    refine ⟨_, _, rfl, (hd'.log log).put _, .inr ⟨s, rfl, ?_⟩⟩
    rw [hs]

/-- Closing a script ends listening to it, unless the user declines. -/
theorem closeScript (hd : Shows file box (some o) a d) (hs : a.script = some s) (confirm : Bool) :
    ∃ result d' v' a', (Editor.closeScript c file confirm).outcome d = (result, d') ∧
      Shows file box v' a' d' ∧ a'.mail = a.mail ∧
      (v' = none ∧ a'.reach = 0 ∨ v' = some o ∧
        (a' = a ∨ a' = { a with script := some (s.after (.closedInEditor confirm)) })) := by
  have hends := Editor.closeScript_ends c hd.view confirm
  rcases ho : (Editor.closeScript c file confirm).outcome d with ⟨result, d'⟩
  rw [ho] at hends
  refine ⟨result, d', ?_⟩
  obtain ⟨e, w₁, ho₁, hd₁⟩ | ⟨closing, w₁, ho₁, hd₁⟩ :=
    hd.ask (c := c) (r := .closeInEditor file confirm) hs rfl rfl rfl
  · cases hends with
    | refused hasked =>
      cases ho₁.symm.trans hasked
      exact ⟨_, _, rfl, hd₁, rfl, .inr ⟨rfl, .inl rfl⟩⟩
    | declined hasked | closed hasked => cases ho₁.symm.trans hasked
  · have hquiet : a.grant c (.closeInEditor file confirm) s =
        { a with script := some (s.after (.closedInEditor confirm)) } :=
      (Aspect.Asked.granted (c := c) (r := .closeInEditor file confirm) (.inl hs)).quiet
        (fun _ _ ↦ rfl) fun _ ↦ rfl
    rw [hquiet] at hd₁
    cases hends with
    | refused hasked => cases ho₁.symm.trans hasked
    | declined hasked =>
      cases ho₁.symm.trans hasked
      exact ⟨_, _, rfl, hd₁, rfl, .inr ⟨rfl, .inr rfl⟩⟩
    | closed hasked _ hunlisten =>
      cases ho₁.symm.trans hasked
      rw [hd.inbox] at hunlisten
      have hd₂ := hd₁.unlisten hunlisten
      exact ⟨none, _, rfl, ⟨hd.inbox, hd₂.orderly, hd₂.attends,
        Std.ExtTreeMap.getElem?_erase_self, hd₂.aspect⟩, rfl, .inl ⟨rfl, rfl⟩⟩

end Shows

end ScriptBreakpoints
