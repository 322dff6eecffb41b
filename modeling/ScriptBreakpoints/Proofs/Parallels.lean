import ScriptBreakpoints.Proofs.Desks
import ScriptBreakpoints.Proofs.Saving

namespace ScriptBreakpoints

namespace Fallible

variable {S T α β : Type} {R : S → S → Prop}

def Parallel (R : S → S → Prop) (x : Fallible S α) : Prop :=
  ∀ s s', R s s' → (x.outcome s).1 = (x.outcome s').1 ∧ R (x.outcome s).2 (x.outcome s').2

namespace Parallel

theorem pure (a : α) : Parallel R (pure a : Fallible S α) := fun _ _ h ↦ ⟨rfl, h⟩

theorem throw (f : Fault) : Parallel R (throw f : Fallible S α) := fun _ _ h ↦ ⟨rfl, h⟩

theorem modify {f : S → S} (hf : ∀ s s', R s s' → R (f s) (f s')) :
    Parallel R (modify f : Fallible S PUnit) := fun s s' h ↦ ⟨rfl, hf s s' h⟩

theorem bind {x : Fallible S α} {k : α → Fallible S β} (hx : Parallel R x)
    (hk : ∀ a, Parallel R (k a)) : Parallel R (x >>= k) := by
  intro s s' h
  obtain ⟨hr, ht⟩ := hx s s' h
  rw [outcome_bind, outcome_bind]
  generalize x.outcome s = o at hr ht ⊢
  generalize x.outcome s' = o' at hr ht ⊢
  rcases o with ⟨r, t⟩
  rcases o' with ⟨r', t'⟩
  dsimp only at hr ht
  subst hr
  cases r with
  | error f => exact ⟨rfl, ht⟩
  | ok a => exact hk a t t' ht

theorem of_get {k : S → Fallible S α}
    (hk : ∀ s s', R s s' → k s' = k s ∧ Parallel R (k s)) : Parallel R (MonadState.get >>= k) := by
  intro s s' h
  obtain ⟨hread, hk⟩ := hk s s' h
  rw [outcome_bind, outcome_bind, outcome_get, outcome_get]
  dsimp only
  rw [hread]
  exact hk s s' h

theorem ite {p : Prop} [Decidable p] {x y : Fallible S α} (hx : Parallel R x)
    (hy : Parallel R y) : Parallel R (if p then x else y) := by
  by_cases hp : p
  · rw [if_pos hp]
    exact hx
  · rw [if_neg hp]
    exact hy

theorem tryCatch {x : Fallible S α} {k : Fault → Fallible S α} (hx : Parallel R x)
    (hk : ∀ f, Parallel R (k f)) : Parallel R (tryCatch x k) := by
  intro s s' h
  obtain ⟨hr, ht⟩ := hx s s' h
  rw [outcome_tryCatch, outcome_tryCatch]
  generalize x.outcome s = o at hr ht ⊢
  generalize x.outcome s' = o' at hr ht ⊢
  rcases o with ⟨r, t⟩
  rcases o' with ⟨r', t'⟩
  dsimp only at hr ht
  subst hr
  cases r with
  | error f => exact hk f t t' ht
  | ok a => exact ⟨rfl, ht⟩

theorem forM {as : List α} {f : α → Fallible S PUnit} (hf : ∀ a ∈ as, Parallel R (f a)) :
    Parallel R (as.forM f) := by
  induction as with
  | nil => exact .pure _
  | cons a as ih => exact (hf a List.mem_cons_self).bind fun _ ↦ ih fun b hb ↦ hf b (.tail a hb)

end Parallel

end Fallible

open Fallible

variable {σ τ α : Type}

/-- What `W` ties stays tied whatever is done about `file`. -/
structure Workspace.Ties [Archive σ] [BreakpointStore τ] (file : String)
    (W : Workspace σ τ → Workspace σ τ → Prop) : Prop where
  tracked {w w' : Workspace σ τ} : W w w' → w.scripts[file]? = w'.scripts[file]?
  named {w w' : Workspace σ τ} {s : Script} : W w w' → w.scripts[file]? = some s → s.file = file
  log {w w' : Workspace σ τ} (log log' : List Notice) :
    W w w' → W { w with log } { w' with log := log' }
  put {s : Script} : s.file = file → Parallel W (putScript file s)
  read : Parallel W (askArchive (Archive.read file))
  write (bytes : Bytes) : Parallel W (askArchive (Archive.write file bytes))
  add (a : Address) : Parallel W (askStore (BreakpointStore.add file a))
  remove (a : Address) : Parallel W (askStore (BreakpointStore.remove file a))
  resync (as : List Address) : Parallel W (askStore (BreakpointStore.resync file as))
  list : Parallel W (askStore (BreakpointStore.list file))
  broadcast {m : Message} : m.file? = some file → Parallel W (broadcast file m)
  listen (box : Mailbox) : Parallel W (listen file box)
  unlisten (box : Mailbox) : Parallel W (unlisten file box)

namespace Workspace

variable {file : String} {W : Workspace σ τ → Workspace σ τ → Prop}

theorem parallel_demand (answer : Except StorageFault α) :
    Parallel W (demand answer : Action σ τ α) := by
  cases answer with
  | ok a => exact .pure a
  | error e => exact .throw _

theorem parallel_decompiled (c : Compiler) (binary : Binary) :
    Parallel W (decompiled c file binary : Action σ τ _) := by
  unfold Workspace.decompiled
  split
  · exact .pure _
  · exact .throw _
  · exact .throw _

namespace Ties

variable [Archive σ] [BreakpointStore τ] (hW : Ties file W) (c : Compiler)
include hW

theorem note (n : Notice) : Parallel W (note n : Action σ τ Unit) :=
  .modify fun _ _ ↦ hW.log _ _

theorem after_notes {x : Action σ τ α} (ns : Workspace σ τ → List Notice) (hx : Parallel W x) :
    Parallel W (get >>= fun w ↦ (ns w).forM Workspace.note >>= fun _ ↦ x) := by
  intro w w' h
  rw [outcome_bind, outcome_bind, outcome_get, outcome_get]
  dsimp only
  rw [outcome_bind, outcome_bind, forM_note, forM_note]
  exact hx _ _ (hW.log _ _ h)

theorem script_bind {k : Script → Action σ τ α} (hk : ∀ s, s.file = file → Parallel W (k s)) :
    Parallel W (script c file >>= k) := by
  rw [script, bind_assoc]
  refine .of_get fun w w' h ↦ ⟨by rw [hW.tracked h], ?_⟩
  cases ht : w.scripts[file]? with
  | some s =>
    rw [pure_bind]
    exact hk s (hW.named h ht)
  | none =>
    simp only [load, bind_assoc, pure_bind]
    refine hW.read.bind fun answer ↦ (parallel_demand answer).bind fun bytes ↦
      (parallel_decompiled c _).bind fun views ↦ (hW.note _).bind fun _ ↦ ?_
    exact (hW.put rfl).bind fun _ ↦ hk _ rfl

theorem settle {s : Script} (hs : s.file = file) (reloaded : Bool) :
    Parallel W (settle file (s, reloaded) : Action σ τ Unit) := by
  refine (hW.put hs).bind fun _ ↦ .ite (hW.broadcast ?_) (.pure _)
  exact congrArg some hs

theorem openInEditor : Parallel W (openInEditor c file : Action σ τ _) :=
  hW.script_bind c fun s hs ↦ (hW.put (s := { s with flags.inEditor := true }) hs).bind fun _ ↦
    (hW.note _).bind fun _ ↦ .pure _

theorem closeInEditor (confirm : Bool) :
    Parallel W (closeInEditor c file confirm : Action σ τ _) := by
  refine hW.script_bind c fun s hs ↦ ?_
  refine (hW.put ((s.file_after (.closedInEditor confirm)).trans hs)).bind fun _ ↦ ?_
  refine .ite ((hW.note _).bind fun _ ↦ .ite ?_ ?_) ?_
  · exact (hW.note _).bind fun _ ↦ .pure _
  · exact .pure _
  · exact (hW.note _).bind fun _ ↦ .pure _

theorem setAuthority (projection : Projection) :
    Parallel W (setAuthority c file projection : Action σ τ Unit) :=
  hW.script_bind c fun _ hs ↦ .ite ((hW.note _).bind fun _ ↦ hW.put hs) (.pure _)

theorem openInEngine : Parallel W (openInEngine c file : Action σ τ Unit) :=
  hW.script_bind c fun s hs ↦ (hW.note _).bind fun _ ↦
    hW.settle ((s.file_after .loadedInEngine).trans hs) _

theorem closeInEngine : Parallel W (closeInEngine c file : Action σ τ Unit) :=
  hW.script_bind c fun s hs ↦ (hW.note _).bind fun _ ↦
    hW.settle ((s.file_after .unloadedInEngine).trans hs) _

theorem invalidate : Parallel W (invalidate c file : Action σ τ Unit) :=
  hW.script_bind c fun s hs ↦ (hW.note _).bind fun _ ↦ hW.put (s := s.invalidate) hs

theorem forceReload : Parallel W (forceReload c file : Action σ τ Unit) :=
  hW.script_bind c fun s hs ↦ .ite
    ((hW.note _).bind fun _ ↦ hW.settle (s := s.promote) hs true)
    ((hW.note _).bind fun _ ↦ .throw _)

theorem build (projection : Projection) (text : String) :
    Parallel W (build c file projection text : Action σ τ _) := by
  unfold Workspace.build
  split
  · exact (hW.note _).bind fun _ ↦ .throw _
  · split
    · exact .throw _
    · exact .pure _

theorem archiveBinary (binary : Binary) (previous : List Address) :
    Parallel W (archiveBinary file binary previous : Action σ τ Unit) := by
  refine hW.after_notes _ ((hW.write binary.bytes).bind fun answer ↦ ?_)
  cases answer with
  | ok _ => exact .pure _
  | error e =>
    refine (hW.note _).bind fun _ ↦ (hW.resync previous).bind fun restored ↦ ?_
    cases restored with
    | ok _ => exact .throw _
    | error e => exact (hW.note _).bind fun _ ↦ .throw _

theorem save (projection : Projection) (text : String) (marked : LineSet) :
    Parallel W (save c file projection text marked : Action σ τ _) := by
  refine hW.script_bind c fun s hs ↦ .ite (.throw _) ?_
  refine (hW.build c projection text).bind fun ⟨compiled, other⟩ ↦ ?_
  refine hW.list.bind fun listed ↦ (parallel_demand listed).bind fun previous ↦ ?_
  refine (hW.resync _).bind fun synced ↦ (parallel_demand synced).bind fun _ ↦ ?_
  refine (hW.archiveBinary compiled.binary previous).bind fun _ ↦ ?_
  exact (hW.put ((s.save_file _ _).trans hs)).bind fun _ ↦ (hW.note _).bind fun _ ↦ .pure _

theorem listBreakpoints : Parallel W (listBreakpoints c file : Action σ τ _) :=
  hW.script_bind c fun _ _ ↦ hW.list.bind parallel_demand

theorem arm (s : Script) (a : Address) : Parallel W (arm s file a : Action σ τ Unit) :=
  .ite (.throw _) ((hW.add a).bind fun answer ↦ (parallel_demand answer).bind fun _ ↦
    hW.broadcast rfl)

theorem addBreakpoint (line : Nat) (projection : Projection) :
    Parallel W (addBreakpoint c file line projection : Action σ τ _) := by
  refine hW.script_bind c fun s _ ↦ ?_
  cases (s.active.get projection).map.first? line with
  | none => exact (hW.note _).bind fun _ ↦ .pure _
  | some a => exact (hW.arm s a).bind fun _ ↦ .pure _

theorem addBreakpointAt (a : Address) :
    Parallel W (addBreakpointAt c file a : Action σ τ Unit) :=
  hW.script_bind c fun s _ ↦ hW.arm s a

theorem removeBreakpoint (a : Address) :
    Parallel W (removeBreakpoint c file a : Action σ τ Unit) :=
  hW.script_bind c fun _ _ ↦ (hW.remove a).bind fun answer ↦ (parallel_demand answer).bind fun _ ↦
    hW.broadcast rfl

theorem loadedInEngine (reported : Option Digest) :
    Parallel W (loadedInEngine c file reported : Action σ τ Unit) := by
  refine hW.script_bind c fun s hs ↦ ?_
  dsimp only
  split
  · exact (hW.note _).bind fun _ ↦ hW.put hs
  · exact (hW.note _).bind fun _ ↦ hW.settle ((s.file_after .loadedInEngine).trans hs) _

omit hW in
theorem handleReport (r : EngineReport) (hW : Ties (Request.report r).file W) :
    Parallel W (handleReport c r : Action σ τ Unit) := by
  cases r with
  | loaded file digest => exact hW.loadedInEngine c digest
  | unloaded file => exact hW.closeInEngine c

omit hW in
theorem perform (r : Request) (hW : Ties r.file W) : Parallel W (r.perform c) := by
  cases r with
  | get => exact hW.script_bind c fun _ _ ↦ .pure _
  | digest => exact (hW.script_bind c fun _ _ ↦ .pure _).bind fun _ ↦ .pure _
  | debugState => exact (hW.script_bind c fun _ _ ↦ .pure _).bind fun _ ↦ .pure _
  | setAuthority file projection => exact (hW.setAuthority c projection).bind fun _ ↦ .pure _
  | openInEditor => exact (hW.openInEditor c).bind fun _ ↦ .pure _
  | closeInEditor file confirm => exact (hW.closeInEditor c confirm).bind fun _ ↦ .pure _
  | openInEngine => exact (hW.openInEngine c).bind fun _ ↦ .pure _
  | closeInEngine => exact (hW.closeInEngine c).bind fun _ ↦ .pure _
  | save file projection text marked =>
    exact (hW.save c projection text marked).bind fun _ ↦ .pure _
  | forceReload => exact (hW.forceReload c).bind fun _ ↦ .pure _
  | invalidate => exact (hW.invalidate c).bind fun _ ↦ .pure _
  | addBreakpoint file line projection =>
    exact (hW.addBreakpoint c line projection).bind fun _ ↦ .pure _
  | addBreakpointAt file a => exact (hW.addBreakpointAt c a).bind fun _ ↦ .pure _
  | removeBreakpoint file a => exact (hW.removeBreakpoint c a).bind fun _ ↦ .pure _
  | listBreakpoints => exact (hW.listBreakpoints c).bind fun _ ↦ .pure _
  | report r => exact (handleReport c r hW).bind fun _ ↦ .pure _

end Ties

end Workspace

open Workspace

structure Editor.Ties (file : String) (E : Editor → Editor → Prop) : Prop where
  inbox {e e' : Editor} : E e e' → e.inbox = e'.inbox
  opened {e e' : Editor} : E e e' → e.scripts[file]? = e'.scripts[file]?
  put {e e' : Editor} (o : OpenScript) : E e e' →
    E { e with scripts := e.scripts.insert file o } { e' with scripts := e'.scripts.insert file o }
  erase {e e' : Editor} : E e e' →
    E { e with scripts := e.scripts.erase file } { e' with scripts := e'.scripts.erase file }

structure Desk.Tied (E : Editor → Editor → Prop) (W : Workspace σ τ → Workspace σ τ → Prop)
    (d d' : Desk σ τ) : Prop where
  editor : E d.editor d'.editor
  workspace : W d.workspace d'.workspace

namespace Desk

variable [Archive σ] [BreakpointStore τ] {file : String} {E : Editor → Editor → Prop}
  {W : Workspace σ τ → Workspace σ τ → Prop}

omit [Archive σ] [BreakpointStore τ] in
theorem parallel_perform {x : Action σ τ α} (hx : Parallel W x) :
    Parallel (Tied E W) (perform x) := by
  intro d d' h
  obtain ⟨hr, ht⟩ := hx d.workspace d'.workspace h.workspace
  exact ⟨hr, h.editor, ht⟩

structure Ties (file : String) (E : Editor → Editor → Prop)
    (W : Workspace σ τ → Workspace σ τ → Prop) : Prop where
  editor : Editor.Ties file E
  workspace : Workspace.Ties file W

namespace Ties

variable (h : Ties file E W) (c : Compiler)
include h

theorem note (n : Notice) : Parallel (Tied E W) (Editor.note n) :=
  parallel_perform (h.workspace.note n)

theorem notes (ns : List Notice) : Parallel (Tied E W) (ns.forM Editor.note) :=
  .forM fun n _ ↦ h.note n

theorem put (o : OpenScript) : Parallel (Tied E W) (Editor.put file o) :=
  .modify fun _ _ hd ↦ ⟨h.editor.put o hd.editor, hd.workspace⟩

theorem opened : Parallel (Tied E W) (Editor.opened file) := by
  refine .of_get fun d d' hd ↦ ⟨by rw [h.editor.opened hd.editor], ?_⟩
  cases d.editor.scripts[file]? with
  | none => exact .throw _
  | some o => exact .pure o

theorem place (addresses : List Address) (o : OpenScript) :
    Parallel (Tied E W) (Editor.place file addresses o) :=
  Parallel.bind (.forM fun _ _ ↦ h.note _) fun _ ↦ h.put _

theorem showMarker (a : Address) (o : OpenScript) :
    Parallel (Tied E W) (Editor.showMarker file a o) :=
  (h.notes _).bind fun _ ↦ h.put _

theorem editable (projection : Projection) :
    Parallel (Tied E W) (Editor.editable file projection) :=
  h.opened.bind fun _ ↦ .ite (.throw _) (.pure _)

theorem removeAll (addresses : List Address) :
    Parallel (Tied E W) (Editor.removeAll c file addresses) :=
  .forM fun a _ ↦ (parallel_perform (h.workspace.removeBreakpoint c a)).bind fun _ ↦
    h.opened.bind fun _ ↦ h.put _

theorem openScript : Parallel (Tied E W) (Editor.openScript c file) := by
  refine .of_get fun d d' hd ↦ ⟨?_, .ite (.pure _) ?_⟩
  · simp only [Std.ExtTreeMap.mem_iff_isSome_getElem?, h.editor.opened hd.editor,
      h.editor.inbox hd.editor]
  · refine (parallel_perform (h.workspace.listen _)).bind fun _ ↦
      Parallel.tryCatch ?_ fun fault ↦
        (parallel_perform (h.workspace.unlisten _)).bind fun _ ↦ .throw fault
    refine (parallel_perform (h.workspace.openInEditor c)).bind fun s ↦ ?_
    refine (parallel_perform (h.workspace.listBreakpoints c)).bind fun addresses ↦ ?_
    refine (h.place addresses _).bind fun _ ↦ ?_
    cases s.debugState.message? with
    | none => exact .pure _
    | some message => exact h.note _

theorem closeScript (confirm : Bool) :
    Parallel (Tied E W) (Editor.closeScript c file confirm) := by
  refine h.opened.bind fun _ ↦ ?_
  refine (parallel_perform (h.workspace.closeInEditor c confirm)).bind fun closing ↦ ?_
  refine .ite (.of_get fun d d' hd ↦ ⟨by rw [h.editor.inbox hd.editor], ?_⟩) (.pure _)
  refine (parallel_perform (h.workspace.unlisten _)).bind fun _ ↦ Parallel.bind ?_ fun _ ↦ .pure _
  exact .modify fun _ _ hd ↦ ⟨h.editor.erase hd.editor, hd.workspace⟩

theorem toggle (projection : Projection) (line : Nat) :
    Parallel (Tied E W) (Editor.toggle c file projection line) := by
  refine h.opened.bind fun o ↦ .ite ((h.note _).bind fun _ ↦ .pure _) ?_
  refine .ite (h.removeAll c _) ?_
  have hstate : Parallel W (debugStateOf c file : Action σ τ _) :=
    h.workspace.script_bind c fun _ _ ↦ .pure _
  refine (parallel_perform hstate).bind fun state ↦ ?_
  cases o.buffer.marks.first? line with
  | none => exact .ite ((Parallel.throw _).bind fun _ ↦ .pure _) (.pure _)
  | some a =>
    have hadd := (parallel_perform (E := E) (h.workspace.addBreakpointAt c a)).bind fun _ ↦
      h.showMarker a o
    exact .ite ((Parallel.throw _).bind fun _ ↦ hadd) hadd

theorem insertLines (projection : Projection) (start : Nat) (lines : List String) :
    Parallel (Tied E W) (Editor.insertLines file projection start lines) :=
  (h.editable projection).bind fun _ ↦ h.put _

theorem deleteLines (projection : Projection) (start stop : Nat) :
    Parallel (Tied E W) (Editor.deleteLines c file projection start stop) :=
  (h.editable projection).bind fun _ ↦ (h.put _).bind fun _ ↦ h.removeAll c _

theorem save : Parallel (Tied E W) (Editor.save c file) := by
  refine h.opened.bind fun o ↦ .ite (.pure _) ?_
  refine (h.note _).bind fun _ ↦ (parallel_perform (h.workspace.save c _ _ _)).bind fun saved ↦ ?_
  refine (h.put _).bind fun _ ↦ .ite ?_ (.pure _)
  exact (parallel_perform (h.workspace.forceReload c)).bind fun _ ↦ .pure _

theorem takeLost : Parallel (Tied E W) (Editor.takeLost file) := by
  refine .of_get fun d d' hd ↦ ⟨by rw [h.editor.opened hd.editor], ?_⟩
  cases d.editor.scripts[file]? with
  | none => exact .pure _
  | some o => exact (h.put _).bind fun _ ↦ .pure _

omit h in
theorem handle {m : Message} (hm : m.file? = some file) (h : Ties file E W) :
    Parallel (Tied E W) (Editor.handle c m) := by
  cases m with
  | reload r =>
    cases hm
    refine Parallel.bind (.of_get fun d d' hd ↦ ⟨by rw [h.editor.opened hd.editor], ?_⟩)
      fun _ ↦ .pure _
    cases d.editor.scripts[r.file]? with
    | none => exact h.note _
    | some o =>
      refine (h.note _).bind fun _ ↦ Parallel.bind (.tryCatch ?_ fun f ↦ ?_) fun _ ↦ ?_
      · exact parallel_perform (h.workspace.listBreakpoints c)
      · exact (h.note _).bind fun _ ↦ .pure _
      · exact h.place _ _
  | added f a =>
    cases hm
    refine .of_get fun d d' hd ↦ ⟨by rw [h.editor.opened hd.editor], ?_⟩
    cases d.editor.scripts[file]? with
    | none => exact .pure _
    | some o => exact (h.showMarker a o).bind fun _ ↦ .pure _
  | removed f a =>
    cases hm
    refine .of_get fun d d' hd ↦ ⟨by rw [h.editor.opened hd.editor], ?_⟩
    cases d.editor.scripts[file]? with
    | none => exact .pure _
    | some o => exact (h.put _).bind fun _ ↦ .pure _
  | shutdown => cases hm

omit h in
/-- What editors are asked about a script of which their desks are tied. -/
theorem editorRequest {r : EditorRequest} (hr : r.file? = some file) (h : Ties file E W) :
    Parallel (Tied E W) (r.perform c) := by
  cases r with
  | openScript f =>
    cases hr
    exact (h.openScript c).bind fun _ ↦ .pure _
  | closeScript f confirm =>
    cases hr
    exact (h.closeScript c confirm).bind fun _ ↦ .pure _
  | toggle f projection line =>
    cases hr
    exact (h.toggle c projection line).bind fun _ ↦ .pure _
  | insertLines f projection start lines =>
    cases hr
    exact (h.insertLines projection start lines).bind fun _ ↦ .pure _
  | deleteLines f projection start stop =>
    cases hr
    exact (h.deleteLines c projection start stop).bind fun _ ↦ .pure _
  | save f =>
    cases hr
    exact (h.save c).bind fun _ ↦ .pure _
  | runPending => cases hr
  | text f projection =>
    cases hr
    exact (h.opened.bind fun _ ↦ .pure _).bind fun _ ↦ .pure _
  | breakpointLines f projection =>
    cases hr
    exact (h.opened.bind fun _ ↦ .pure _).bind fun _ ↦ .pure _
  | hasChanges f =>
    cases hr
    exact .of_get fun d d' hd ↦
      ⟨by simp only [Editor.hasChanges, h.editor.opened hd.editor], .pure _⟩
  | isWaiting f =>
    cases hr
    exact .of_get fun d d' hd ↦
      ⟨by simp only [Editor.isWaiting, h.editor.opened hd.editor], .pure _⟩
  | takeLost f =>
    cases hr
    exact h.takeLost.bind fun _ ↦ .pure _

end Ties

end Desk

end ScriptBreakpoints
