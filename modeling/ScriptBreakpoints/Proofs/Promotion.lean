import ScriptBreakpoints.Proofs.Chronicle
import ScriptBreakpoints.Proofs.Responses

namespace ScriptBreakpoints

namespace Script

variable {s : Script} {h : Happening}

theorem active_after (hr : s.reloads h = false) : (s.after h).active = s.active := by
  cases hsave : h.isSave with
  | false => rw [active, slots_after hr hsave, active]
  | true =>
    cases h with
    | saved binary views => exact s.active_save binary views
    | _ => cases hsave

theorem settled_after (hr : s.reloads h = true) :
    (s.after h).hasPending = false ∧ (s.after h).reloadReady = false ∧
      (s.after h).reloads h = false := by
  cases h with
  | loadedInEngine =>
    have hu : s.flags.upToDate ≠ true := by simpa [reloads] using hr
    rw [after, openInEngine, if_neg hu]
    exact ⟨hasPending_promote _, rfl, rfl⟩
  | unloadedInEngine =>
    have hu : s.flags.upToDate ≠ true := by simpa [reloads] using hr
    rw [after, closeInEngine, if_neg hu]
    exact ⟨hasPending_promote _, rfl, rfl⟩
  | forcedReload =>
    rw [after, if_pos (show s.reloadReady = true from hr)]
    exact ⟨hasPending_promote _, rfl, rfl⟩
  | _ => cases hr

end Script

namespace Chronicle

variable (k : Chronicle) (s : Script) (h : Happening)

theorem active_after :
    (k.after s h).active = if s.reloads h then k.last else k.active := by
  cases h with
  | loadedInEngine =>
    cases hu : s.flags.upToDate <;>
      simp [after, Script.openInEngine, Script.reloads, hu, reloaded, last]
  | unloadedInEngine =>
    cases hu : s.flags.upToDate <;>
      simp [after, Script.closeInEngine, Script.reloads, hu, reloaded, last]
  | forcedReload =>
    cases hr : s.reloadReady <;> simp [after, Script.reloads, hr, reloaded]
  | _ => rfl

variable {k s h}

theorem Tells.active_le (hk : k.Tells s) : k.active ≤ k.last := by
  cases hp : s.hasPending with
  | false => exact Nat.le_of_eq (hk.settled hp)
  | true => exact Nat.le_of_lt (hk.unsettled hp)

theorem Tells.active_le_after (hk : k.Tells s) : k.active ≤ (k.after s h).active := by
  have hle := hk.active_le
  rw [active_after]
  split <;> omega

end Chronicle

namespace Request

def promotes : Request → Script → Bool
  | openInEngine _, s | closeInEngine _, s | report (.unloaded _), s => !s.flags.upToDate
  | report (.loaded _ reported), s =>
    reported.all (· = s.binary.digest) && !s.flags.upToDate
  | forceReload _, s => s.reloadReady
  | _, _ => false

variable (c : Compiler) (r : Request) (s : Script)

theorem reloads_turn : s.reloads (r.turn c s) = r.promotes s := by
  cases r with
  | save file projection text marked =>
    simp only [turn, Workspace.saving, promotes]
    split
    · rfl
    · split <;> rfl
  | report r =>
    cases r with
    | loaded file reported =>
      simp only [turn, Workspace.loading, promotes]
      cases reported.all (· = s.binary.digest) <;> rfl
    | unloaded file => rfl
  | _ => rfl

theorem posts_of_promotes (h : r.promotes s = true) :
    r.posts c s = some (.reload (s.after (r.turn c s)).reload) := by
  have hr := r.reloads_turn c s
  rw [h] at hr
  cases r <;> first | cases h | simp only [posts, hr, if_true]

theorem promotes_of_posts {e : Reload} (h : r.posts c s = some (.reload e)) :
    r.promotes s = true := by
  have hr := r.reloads_turn c s
  cases r with
  | addBreakpoint file line projection =>
    simp only [posts, Option.map_eq_some_iff, reduceCtorEq, and_false, exists_false] at h
  | addBreakpointAt file a => cases h
  | removeBreakpoint file a => cases h
  | _ =>
    simp only [posts, Option.ite_none_right_eq_some, Option.some_inj, Message.reload.injEq] at h
    exact hr ▸ h.1

theorem isSave_of_promotes (h : r.promotes s = true) : r.isSave = false := by
  cases r with
  | save file projection text marked => cases h
  | _ => rfl

theorem turn_of_binary {t : Script} (hr : r.isSave = false) (ht : t.binary = s.binary) :
    r.turn c t = r.turn c s := by
  cases r with
  | save file projection text marked => cases hr
  | report r =>
    cases r with
    | loaded file reported => simp only [turn, Workspace.loading, ht]
    | unloaded file => rfl
  | _ => rfl

/-- A second request of the same kind finds nothing to reload. -/
theorem posts_once (h : r.promotes s = true) : r.posts c (s.after (r.turn c s)) = none := by
  have hr := r.reloads_turn c s
  rw [h] at hr
  have hsave := r.isSave_of_promotes s h
  have hbinary := s.binary_after (r.turn_isSave c hsave s)
  have hturn := r.turn_of_binary c s hsave hbinary
  have honce := (Script.settled_after hr).2.2
  cases r <;>
    first | cases h | simp only [posts, hturn, honce, Bool.false_eq_true, if_false]

end Request

namespace Workspace

variable {σ τ : Type}

/-- Everybody who listens to a script was told some messages, and nobody else was told anything. -/
def Told (file : String) (ms : List Message) (w w' : Workspace σ τ) : Prop :=
  ∀ box : Mailbox, w'.mail[box]? =
    w.mail[box]?.map fun ch ↦ if box ∈ w.audience file then ch.fill ms else ch

theorem told_nothing {file : String} {w w' : Workspace σ τ} (h : w'.mail = w.mail) :
    Told file [] w w' := by
  intro box
  simp only [h, Channel.fill_nil, ite_self, Option.map_id']

theorem told_deliver {file : String} {m : Message} {w w' : Workspace σ τ} (hw : w.Orderly)
    (h : w'.mail = deliver m (w.audience file) w.mail) : Told file [m] w w' := by
  intro box
  have hcount := (hw.listed file).count (a := box)
  rw [h, getElem?_deliver, hcount]
  by_cases hb : box ∈ w.audience file <;> simp [hb]

inductive Operation
  | ask (r : Request)
  | listen (file : String) (box : Mailbox)
  | unlisten (file : String) (box : Mailbox)
  /-- The owners of mailboxes take messages, come and go. -/
  | receive (f : List (Channel Message) → List (Channel Message))

variable [Archive σ] [BreakpointStore τ] (c : Compiler)

def operate : Operation → Workspace σ τ → Workspace σ τ
  | .ask r, w => ((r.perform c).outcome w).2
  | .listen file box, w => ((listen file box : Action σ τ Unit).outcome w).2
  | .unlisten file box, w => ((unlisten file box : Action σ τ Unit).outcome w).2
  | .receive f, w => { w with mail := f w.mail }

def operateAll (ops : List Operation) (w : Workspace σ τ) : Workspace σ τ :=
  ops.foldl (fun w op ↦ operate c op w) w

def observe (file : String) (w : Workspace σ τ) (k : Option Chronicle) :
    Operation → Option Chronicle
  | .ask r => follow c file r w k
  | _ => k

def record (file : String) : List Operation → Workspace σ τ → Option Chronicle → Option Chronicle
  | [], _, k => k
  | op :: ops, w, k => record file ops (operate c op w) (observe c file w k op)

/-- A request has reloaded the script `s`, which is `s'` now: everybody who listens was told once,
and is not told again if the request is repeated. -/
structure Reloaded (r : Request) (w : Workspace σ τ) (s s' : Script) : Prop where
  before : w.scripts[r.file]? = some s
  promotes : r.promotes s = true
  granted : ∃ a, ((r.perform c).outcome w).1 = .ok a
  now : (operate c (.ask r) w).scripts[r.file]? = some s'
  told : Told r.file [.reload ⟨r.file, s'.authority, s'.active⟩] w (operate c (.ask r) w)
  settled : s'.hasPending = false
  unready : s'.reloadReady = false
  once : Told r.file [] (operate c (.ask r) w) (operate c (.ask r) (operate c (.ask r) w))

variable {c} {w : Workspace σ τ} {r : Request}

theorem record_append (file : String) (ops more : List Operation) (k : Option Chronicle) :
    record c file (ops ++ more) w k =
      record c file more (operateAll c ops w) (record c file ops w k) := by
  induction ops generalizing w k with
  | nil => rfl
  | cons op ops ih => exact ih _

theorem Orderly.operate (hw : w.Orderly) (op : Operation) : (operate c op w).Orderly := by
  cases op with
  | ask r => exact hw.perform r
  | listen file box => exact hw.listen file box
  | unlisten file box => exact hw.unlisten file box
  | receive f => exact ⟨hw.named, hw.listed⟩

theorem Orderly.operateAll (hw : w.Orderly) (ops : List Operation) :
    (operateAll c ops w).Orderly := by
  induction ops generalizing w with
  | nil => exact hw
  | cons op ops ih => exact ih (hw.operate op)

theorem mail_of_posts_none {s : Script} (hs : w.scripts[r.file]? = some s)
    (hr : r.posts c s = none) : ((r.perform c).outcome w).2.mail = w.mail := by
  refine (r.respond c w).mail_eq fun s' hf ↦ ?_
  obtain rfl := hf.unique (.tracked hs)
  exact hr

theorem reloaded_of_granted {a : Reply} {s : Script} {w' : Workspace σ τ} (hw : w.Orderly)
    (ho : (r.perform c).outcome w = (.ok a, w')) (hf : Finds c w r.file s)
    (hs : w'.scripts = w.scripts.insert r.file (s.after (r.turn c s)))
    (hm : w'.mail = (r.posts c s).elim w.mail (deliver · (w.audience r.file) w.mail))
    (hp : r.promotes s = true) : Reloaded c r w s (s.after (r.turn c s)) := by
  have hreloads := r.reloads_turn c s
  rw [hp] at hreloads
  obtain ⟨hsettled, hunready, -⟩ := Script.settled_after hreloads
  have hw' : Workspace.operate c (.ask r) w = w' := congrArg Prod.snd ho
  have hnow : w'.scripts[r.file]? = some (s.after (r.turn c s)) := by
    rw [hs, Std.ExtTreeMap.getElem?_insert_self]
  have hname : (s.after (r.turn c s)).file = r.file := by
    rw [Script.file_after, hw.found hf]
  refine ⟨?_, hp, ⟨a, by rw [ho]⟩, ?_, ?_, hsettled, hunready, ?_⟩
  · cases hf with
    | tracked ht => exact ht
    | loaded _ hl =>
      -- a script that was just loaded has nothing to reload
      obtain ⟨bytes, views, -, -, rfl⟩ := hl
      exfalso
      revert hp
      cases r with
      | report r => cases r <;> simp [Request.promotes, Script.ofBinary]
      | _ => simp [Request.promotes, Script.ofBinary]
  · rw [hw', hnow]
  · rw [r.posts_of_promotes c s hp, Option.elim_some, Script.reload, hname] at hm
    rw [hw']
    exact told_deliver hw hm
  · rw [hw']
    exact told_nothing (mail_of_posts_none hnow (r.posts_once c s hp))

theorem reloaded_or_silent (hw : w.Orderly) (r : Request) :
    (∃ s s', Reloaded c r w s s') ∨
      ∃ posted, Told r.file posted w (operate c (.ask r) w) ∧ ∀ e, .reload e ∉ posted := by
  have hend := r.respond c w
  generalize ho : (r.perform c).outcome w = o at hend
  rcases o with ⟨result, w'⟩
  dsimp only at hend
  have hw' : operate c (.ask r) w = w' := congrArg Prod.snd ho
  have hsilent (hm : w'.mail = w.mail) :
      ∃ posted, Told r.file posted w w' ∧ ∀ e, .reload e ∉ posted :=
    ⟨[], told_nothing hm, fun _ h ↦ nomatch h⟩
  rw [hw']
  cases hend with
  | unfound _ hp => exact .inr (hsilent hp.mail)
  | refused _ _ _ hm => exact .inr (hsilent hm)
  | unrestored _ _ _ _ hm => exact .inr (hsilent hm)
  | @granted a s w' hf hs hsteady hm ha =>
    by_cases hpromotes : r.promotes s = true
    · exact .inl ⟨s, _, reloaded_of_granted hw ho hf hs hm hpromotes⟩
    · refine .inr ?_
      cases hp : r.posts c s with
      | none =>
        rw [hp, Option.elim_none] at hm
        exact hsilent hm
      | some m =>
        rw [hp, Option.elim_some] at hm
        refine ⟨[m], told_deliver hw hm, fun e he ↦ hpromotes ?_⟩
        obtain rfl := List.mem_singleton.1 he
        exact r.promotes_of_posts c s hp

/-- One operation keeps the version that a script shows, or it reloads the script and shows a
version that is as new or newer. -/
theorem observe_tracked {file : String} {s : Script} {k : Chronicle} (hw : w.Orderly)
    (hk : Recorded file (some k) w) (hs : w.scripts[file]? = some s) (op : Operation) :
    ∃ k' s', observe c file w (some k) op = some k' ∧
      (operate c op w).scripts[file]? = some s' ∧ k.active ≤ k'.active ∧
      (k'.active = k.active ∧ s'.active = s.active ∨
        ∃ r, op = .ask r ∧ r.file = file ∧ Reloaded c r w s s') := by
  have hsame {w' : Workspace σ τ} (hw' : w'.scripts = w.scripts) :
      w'.scripts[file]? = some s := by rw [hw', hs]
  cases op with
  | listen other box =>
    obtain ⟨listeners, ho⟩ := listen_outcome other box w
    refine ⟨k, s, rfl, hsame ?_, Nat.le_refl _, .inl ⟨rfl, rfl⟩⟩
    rw [operate, ho]
  | unlisten other box =>
    obtain ⟨listeners, ho⟩ := unlisten_outcome other box w
    refine ⟨k, s, rfl, hsame ?_, Nat.le_refl _, .inl ⟨rfl, rfl⟩⟩
    rw [operate, ho]
  | receive f => exact ⟨k, s, rfl, hs, Nat.le_refl _, .inl ⟨rfl, rfl⟩⟩
  | ask r =>
    have hend := r.respond c w
    generalize ho : (r.perform c).outcome w = o at hend
    rcases o with ⟨result, w'⟩
    dsimp only at hend
    have hw' : Workspace.operate c (.ask r) w = w' := congrArg Prod.snd ho
    by_cases hfile : r.file = file
    · subst hfile
      obtain ⟨k', hk', htells⟩ := hk.tracked hs
      cases hk'
      have hfound : ((script c r.file : Action σ τ _).outcome w).1 = .ok s :=
        (Finds.tracked hs).outcome
      have hkept {f : Fault} {t : Script} (hr : result = .error f) (hf : Finds c w r.file t)
          (hscripts : w'.scripts = w.scripts.insert r.file t) :
          ∃ k' s', observe c r.file w (some k) (.ask r) = some k' ∧
            w'.scripts[r.file]? = some s' ∧ k.active ≤ k'.active ∧
            (k'.active = k.active ∧ s'.active = s.active ∨
              ∃ r', Operation.ask r = .ask r' ∧ r'.file = r.file ∧ Reloaded c r' w s s') := by
        obtain rfl := hf.unique (.tracked hs)
        refine ⟨k, t, ?_, ?_, Nat.le_refl _, .inl ⟨rfl, rfl⟩⟩
        · rw [observe, follow, if_pos rfl, hfound, ho, hr]
          rfl
        · rw [hscripts, Std.ExtTreeMap.getElem?_insert_self]
      rw [hw']
      cases hend with
      | unfound hn =>
        rw [hs] at hn
        cases hn
      | refused hf hscripts => exact hkept rfl hf hscripts
      | unrestored _ hf hscripts => exact hkept rfl hf hscripts
      | granted hf hscripts hsteady hm ha =>
        obtain rfl := hf.unique (.tracked hs)
        rename_i t
        refine ⟨k.after t (r.turn c t), t.after (r.turn c t), ?_, ?_, htells.active_le_after, ?_⟩
        · rw [observe, follow, if_pos rfl, hfound, ho]
          rfl
        · rw [hscripts, Std.ExtTreeMap.getElem?_insert_self]
        · by_cases hp : r.promotes t = true
          · exact .inr ⟨r, rfl, rfl, reloaded_of_granted hw ho hf hscripts hm hp⟩
          · have hreloads := r.reloads_turn c t
            rw [eq_false_of_ne_true hp] at hreloads
            refine .inl ⟨?_, Script.active_after hreloads⟩
            rw [Chronicle.active_after, hreloads]
            rfl
    · refine ⟨k, s, if_neg hfile, ?_, Nat.le_refl _, .inl ⟨rfl, rfl⟩⟩
      rw [hw']
      cases hend with
      | unfound _ _ hscripts => rw [hscripts, hs]
      | refused _ hscripts => rw [hscripts, getElem?_insert_of_ne (Ne.symm hfile), hs]
      | unrestored _ _ hscripts => rw [hscripts, getElem?_insert_of_ne (Ne.symm hfile), hs]
      | granted _ hscripts => rw [hscripts, getElem?_insert_of_ne (Ne.symm hfile), hs]

theorem Recorded.operate {file : String} {k : Option Chronicle} (hk : Recorded file k w)
    (op : Operation) : Recorded file (observe c file w k op) (operate c op w) := by
  have hsame {w' : Workspace σ τ} (hw' : w'.scripts = w.scripts) : Recorded file k w' :=
    ⟨fun hn ↦ hk.untracked (hw' ▸ hn), fun ht ↦ hk.tracked (hw' ▸ ht)⟩
  cases op with
  | ask r => exact hk.perform c r
  | listen other box =>
    obtain ⟨listeners, ho⟩ := listen_outcome other box w
    refine hsame ?_
    rw [Workspace.operate, ho]
  | unlisten other box =>
    obtain ⟨listeners, ho⟩ := unlisten_outcome other box w
    refine hsame ?_
    rw [Workspace.operate, ho]
  | receive f => exact hsame rfl

theorem Recorded.operateAll {file : String} {k : Option Chronicle} (hk : Recorded file k w)
    (ops : List Operation) : Recorded file (record c file ops w k) (operateAll c ops w) := by
  induction ops generalizing w k with
  | nil => exact hk
  | cons op ops ih => exact ih (hk.operate op)

theorem record_tracked {file : String} {s : Script} {k : Chronicle} (hw : w.Orderly)
    (hk : Recorded file (some k) w) (hs : w.scripts[file]? = some s) (ops : List Operation) :
    ∃ k', record c file ops w (some k) = some k' ∧ k.active ≤ k'.active := by
  induction ops generalizing w s k with
  | nil => exact ⟨k, rfl, Nat.le_refl _⟩
  | cons op ops ih =>
    obtain ⟨k₁, s₁, hk₁, hs₁, hle₁, -⟩ := observe_tracked (c := c) hw hk hs op
    have hrecorded := hk.operate (c := c) op
    rw [hk₁] at hrecorded
    obtain ⟨k', hk', hle⟩ := ih (hw.operate op) hrecorded hs₁
    refine ⟨k', ?_, Nat.le_trans hle₁ hle⟩
    rw [record, hk₁, hk']

variable (c) in
/-- Whoever asks for what, and whatever storage refuses, a tracked script shows both views of one
version, and never those of an older version later on. An operation that makes it show another one,
or that posts a reload at all, is a request that finds the script not up to date with the engine or
ready for a forced reload. It tells everybody who listens once, with the new views, and leaves
nothing that a repeated request would reload. -/
theorem promotion_announced (archive : σ) (store : τ) (ops : List Operation) :
    let w := operateAll c ops ({ archive, store } : Workspace σ τ)
    let history file ops := record c file ops ({ archive, store } : Workspace σ τ) none
    (∀ (file : String) s, w.scripts[file]? = some s → ∃ k v, history file ops = some k ∧
      k.version? k.active = some v ∧ s.active = v.views ∧
      (∀ more, ∃ k', history file (ops ++ more) = some k' ∧ k.active ≤ k'.active) ∧
      ∀ op, ∃ k' s', history file (ops ++ [op]) = some k' ∧
        (operate c op w).scripts[file]? = some s' ∧
        (k'.active = k.active ∧ s'.active = s.active ∨
          ∃ r, op = .ask r ∧ r.file = file ∧ Reloaded c r w s s')) ∧
    ∀ op, (∃ r s s', op = .ask r ∧ Reloaded c r w s s') ∨ (∃ f, op = .receive f) ∨
      ∃ file posted, Told file posted w (operate c op w) ∧ ∀ e, .reload e ∉ posted := by
  intro w history
  have hstart : ({ archive, store } : Workspace σ τ).Orderly := by
    refine ⟨fun h ↦ ?_, fun file ↦ ?_⟩
    · cases h
    · exact List.nodup_nil
  have hw : w.Orderly := hstart.operateAll ops
  refine ⟨fun file s hs ↦ ?_, fun op ↦ ?_⟩
  · have hbegin : Recorded file none ({ archive, store } : Workspace σ τ) :=
      ⟨fun _ ↦ rfl, fun h ↦ by cases h⟩
    have hrecorded := hbegin.operateAll (c := c) ops
    obtain ⟨k, hk, htells⟩ := hrecorded.tracked hs
    obtain ⟨v, hv, hactive⟩ := htells.active
    rw [hk] at hrecorded
    refine ⟨k, v, hk, hv, hactive, fun more ↦ ?_, fun op ↦ ?_⟩
    · obtain ⟨k', hk', hle⟩ := record_tracked hw hrecorded hs more
      refine ⟨k', ?_, hle⟩
      rw [← hk', ← hk, ← record_append]
    · obtain ⟨k', s', hk', hs', -, hkept⟩ := observe_tracked hw hrecorded hs op
      refine ⟨k', s', ?_, hs', hkept⟩
      rw [← hk', ← hk, ← show record c file [op] w _ = observe c file w _ op from rfl,
        ← record_append]
  · cases op with
    | ask r =>
      obtain ⟨s, s', h⟩ | h := reloaded_or_silent (c := c) hw r
      · exact .inl ⟨r, s, s', rfl, h⟩
      · exact .inr (.inr ⟨r.file, h⟩)
    | listen file box =>
      have hmail : (operate c (.listen file box) w).mail = w.mail := by
        obtain ⟨listeners, ho⟩ := listen_outcome file box w
        rw [operate, ho]
      exact .inr (.inr ⟨file, [], told_nothing hmail, fun _ h ↦ nomatch h⟩)
    | unlisten file box =>
      have hmail : (operate c (.unlisten file box) w).mail = w.mail := by
        obtain ⟨listeners, ho⟩ := unlisten_outcome file box w
        rw [operate, ho]
      exact .inr (.inr ⟨file, [], told_nothing hmail, fun _ h ↦ nomatch h⟩)
    | receive f => exact .inr (.inl ⟨f, rfl⟩)

/-- A save that can be reloaded at once is followed by a forced reload. -/
theorem promotion_announced_by_forced_reload :
    ∃ s s', Reloaded Listing.compiler (.forceReload "a") (operateAll Listing.compiler
      [.receive fun _ ↦ [.new], .listen "a" 0, .ask (.save "a" .primary "routine 7\n    a\n" ∅)]
      { archive := ArchiveMap.ofList [("a", Utf8.encode "routine 5\n    a\n")],
        store := (⟨∅, ()⟩ : Ledger Unit) }) s s' := by
  have htracked : ((operateAll Listing.compiler
      [.receive fun _ ↦ [.new], .listen "a" 0, .ask (.save "a" .primary "routine 7\n    a\n" ∅)]
      { archive := ArchiveMap.ofList [("a", Utf8.encode "routine 5\n    a\n")],
        store := (⟨∅, ()⟩ : Ledger Unit) }).scripts["a"]?).isSome = true := by
    decide +kernel
  have hbefore : (record Listing.compiler "a"
      [.receive fun _ ↦ [.new], .listen "a" 0, .ask (.save "a" .primary "routine 7\n    a\n" ∅)]
      { archive := ArchiveMap.ofList [("a", Utf8.encode "routine 5\n    a\n")],
        store := (⟨∅, ()⟩ : Ledger Unit) } none).map (·.active) = some 0 := by
    decide +kernel
  have hafter : (record Listing.compiler "a"
      ([.receive fun _ ↦ [.new], .listen "a" 0,
        .ask (.save "a" .primary "routine 7\n    a\n" ∅)] ++ [.ask (.forceReload "a")])
      { archive := ArchiveMap.ofList [("a", Utf8.encode "routine 5\n    a\n")],
        store := (⟨∅, ()⟩ : Ledger Unit) } none).map (·.active) = some 1 := by
    decide +kernel
  obtain ⟨s, hs⟩ := Option.isSome_iff_exists.1 htracked
  have hall := (promotion_announced Listing.compiler _ _ _).1 "a" s hs
  obtain ⟨k, v, hk, -, -, -, hnext⟩ := hall
  obtain ⟨k', s', hk', -, h⟩ := hnext (.ask (.forceReload "a"))
  beta_reduce at hk hk'
  rw [hk, Option.map_some, Option.some_inj] at hbefore
  rw [hk', Option.map_some, Option.some_inj] at hafter
  obtain ⟨hsame, -⟩ | ⟨r, hr, -, hreloaded⟩ := h
  · omega
  · obtain rfl := Operation.ask.inj hr
    exact ⟨s, s', hreloaded⟩

end Workspace

end ScriptBreakpoints
