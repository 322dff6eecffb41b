import ScriptBreakpoints.Proofs.Desks
import ScriptBreakpoints.Proofs.Responses
import ScriptBreakpoints.Session

namespace ScriptBreakpoints

open Fallible Workspace

variable {σ τ α : Type}

/-- A property of a workspace that only a save may take away. -/
structure Lasting [Archive σ] [LawfulArchive σ] (c : Compiler) (I : Workspace σ τ → Prop) :
    Prop where
  frame {w w' : Workspace σ τ} :
    LawfulArchive.content w'.archive = LawfulArchive.content w.archive →
    w'.scripts = w.scripts → I w → I w'
  happens {w w' : Workspace σ τ} {file : String} {s : Script} {h : Happening} :
    Finds c w file s → h.isSave = false →
    LawfulArchive.content w'.archive = LawfulArchive.content w.archive →
    w'.scripts = w.scripts.insert file (s.after h) → I w → I w'

def EditorRequest.isSave : EditorRequest → Bool
  | save _ => true
  | _ => false

theorem EditorRequest.asks_isSave {e : Editor} {r : EditorRequest} (hr : r.isSave = false)
    {asked : Request} (h : r.asks e asked) : asked.isSave = false := by
  cases entails_of_asks h with
  | save => cases hr
  | _ => rfl

section Reports

variable [Archive σ] [BreakpointStore τ] {c : Compiler} {I : Workspace σ τ → Prop}
  (hI : ∀ r : EngineReport, Keeps I ((Request.report r).perform c))

include hI

theorem keeps_report (r : EngineReport) : Keeps I (handleReport c r) := (hI r).of_bind_pure

theorem keeps_reports (hnote : ∀ n, Keeps I (note n : Action σ τ Unit)) (rs : List EngineReport) :
    Keeps I (handleReports c rs) := by
  refine (Keeps.forM fun r _ ↦ ?_).bind fun _ ↦ hnote _
  refine (hnote _).bind fun _ ↦ ?_
  exact (keeps_report hI r).tryCatch fun f ↦ hnote _

end Reports

section Aside

variable {I : Workspace σ τ → Prop}

theorem keeps_post (hmail : ∀ (w : Workspace σ τ) mail, I w → I { w with mail }) (box : Mailbox)
    (m : Message) : Keeps I (post box m : Action σ τ Bool) := by
  intro w hw
  obtain ⟨sent, ho⟩ := post_fills box m w
  rw [ho]
  exact hmail w _ hw

variable (hlisteners : ∀ (w : Workspace σ τ) listeners, I w → I { w with listeners })
  (file : String) (box : Mailbox)

include hlisteners

theorem keeps_listen : Keeps I (listen file box : Action σ τ Unit) := by
  intro w hw
  obtain ⟨listeners, ho⟩ := listen_outcome file box w
  rw [ho]
  exact hlisteners w listeners hw

theorem keeps_unlisten : Keeps I (unlisten file box : Action σ τ Unit) := by
  intro w hw
  obtain ⟨listeners, ho⟩ := unlisten_outcome file box w
  rw [ho]
  exact hlisteners w listeners hw

end Aside

namespace Lasting

variable [Archive σ] [LawfulArchive σ] {c : Compiler} {I : Workspace σ τ → Prop}

variable [BreakpointStore τ]

theorem request (hI : Lasting c I) {r : Request} (hr : r.isSave = false) :
    Keeps I (r.perform c) := by
  intro w hw
  have harchive := (r.perform_answers c hr w).reads.content_eq
  have hend := r.perform_turn c w
  generalize (r.perform c).outcome w = o at harchive hend ⊢
  rcases o with ⟨result, w'⟩
  dsimp only at harchive hend ⊢
  cases hend with
  | unfound _ hs => exact hI.frame harchive hs hw
  | refused hf hs => exact hI.happens (h := .asked) hf rfl harchive hs hw
  | happened hf hs => exact hI.happens hf (r.turn_isSave c hr _) harchive hs hw

theorem save_error (hI : Lasting c I) {file text : String} {projection : Projection}
    {marked : LineSet} {w w' : Workspace σ τ} {f : Fault} (hw : I w)
    (ho : (save c file projection text marked).outcome w = (.error f, w')) : I w' := by
  have hrefused {s : Script} {w₁ w' : Workspace σ τ}
      (hs : (script c file).outcome w = (.ok s, w₁)) (hscripts : w'.scripts = w₁.scripts)
      (ha : LawfulArchive.content w'.archive = LawfulArchive.content w₁.archive) : I w' := by
    obtain ⟨hf, hp, hscripts₁⟩ := script_ok hs
    exact hI.happens (h := .asked) hf rfl (ha.trans hp.archive.content_eq)
      (hscripts.trans hscripts₁) hw
  have hends := save_ends c file projection text marked w
  rw [ho] at hends
  cases hends with
  | unfound hs =>
    obtain ⟨-, hp, hscripts⟩ := script_error hs
    exact hI.frame hp.archive.content_eq hscripts hw
  | rejected hs => exact hrefused hs rfl rfl
  | unlisted hs => exact hrefused hs rfl rfl
  | unsynced hs => exact hrefused hs rfl rfl
  | @unwritten s w₁ compiled previous e a t₁ t log hs hc hl hr hwrite =>
    have ha := LawfulArchive.content_refused (congrArg Prod.fst hwrite)
    rw [hwrite] at ha
    exact hrefused hs rfl ha

theorem bears (hI : Lasting c I) (box : Mailbox) (file : String) :
    Bears c box file (fun r ↦ r.isSave = false)
      fun d : Desk σ τ ↦ I d.workspace ∧ d.editor.inbox = box :=
  .of_workspace (fun w _ _ ↦ hI.frame (w := w) rfl rfl) (fun _ hr ↦ hI.request hr) box file

omit [Archive σ] [LawfulArchive σ] [BreakpointStore τ] in
theorem of_inbox {x : EditorAction σ τ α}
    (hx : ∀ box, Keeps (fun d ↦ I d.workspace ∧ d.editor.inbox = box) x) :
    Keeps (fun d ↦ I d.workspace) x :=
  fun d hd ↦ (hx d.editor.inbox d ⟨hd, rfl⟩).1

theorem handle (hI : Lasting c I) (m : Message) :
    Keeps (fun d ↦ I d.workspace) (Editor.handle c m) := by
  refine of_inbox fun box ↦ Editor.keeps_handle (fun file ↦ ?_) m
  exact (hI.bears box file).toSpares.mono fun r hr ↦ by
    rw [hr]
    rfl

theorem handleAll (hI : Lasting c I) (ms : List Message) :
    Keeps (fun d ↦ I d.workspace) (Editor.handleAll c ms) := by
  induction ms with
  | nil => exact .pure _
  | cons m ms ih =>
    refine Keeps.bind (.modify fun d hd ↦ ?_) fun _ ↦ ?_
    · exact hI.frame (w := d.workspace) rfl rfl hd
    refine (hI.handle m).bind fun goes ↦ .ite ?_ (.pure _)
    exact ih.bind fun _ ↦ .pure _

theorem runPending (hI : Lasting c I) : Keeps (fun d ↦ I d.workspace) (Editor.runPending c) :=
  Keeps.get.bind fun _ ↦ hI.handleAll _

theorem run (hI : Lasting c I) : Keeps (fun d ↦ I d.workspace) (Editor.run c) :=
  hI.runPending.bind fun _ ↦ fun d hd ↦ hI.frame (w := d.workspace) rfl rfl hd

theorem editorRequest (hI : Lasting c I) {r : EditorRequest} (hr : r.isSave = false) :
    Keeps (fun d ↦ I d.workspace) (r.perform c) := by
  cases hfile : r.file? with
  | none =>
    obtain rfl := EditorRequest.file?_eq_none.1 hfile
    exact hI.runPending.bind fun _ ↦ .pure _
  | some file =>
    exact of_inbox fun box d hd ↦
      ((hI.bears box file).mono fun _ ↦ r.asks_isSave hr).editorRequest hfile hd

end Lasting

namespace Command

def isSave : Command → Bool
  | .ask r => r.isSave
  | .editor _ r => r.isSave
  | _ => false

def tampers : Command → Bool
  | .archiveWrite .. => true
  | _ => false

def isSeated : Command → Bool
  | .handle .. | .run _ | .drop _ | .editor .. => true
  | _ => false

def reachesArchive : Command → Bool
  | .refuse (.archive _) _ | .archiveRead _ | .archiveWrite .. => true
  | _ => false

def reachesStore : Command → Bool
  | .refuse (.store _) _ | .storeAdd .. | .storeRemove .. | .storeResync .. | .storeList _ => true
  | _ => false

/-- What a command asks of the workspace, unless an editor carries it out. The engine has to ask
which binary is archived before it can report it. -/
def Asks : Command → Request → Prop
  | .ask r, asked => asked = r
  | .report _, asked | .reports _, asked | .unreceived _, asked =>
    (∃ file, asked = .digest file) ∨ ∃ r, asked = .report r
  | _, _ => False

structure Beside (cmd : Command) (w w' : Refusable σ τ) : Prop where
  scripts : w'.scripts = w.scripts
  archive : cmd.reachesArchive = false → w'.archive = w.archive
  store : cmd.reachesStore = false → w'.store = w.store

theorem Asks.cases {cmd : Command} {asked : Request} (h : cmd.Asks asked) :
    cmd = .ask asked ∨ (∃ file, asked = .digest file) ∨ ∃ r, asked = .report r := by
  cases cmd with
  | ask r => exact .inl (congrArg Command.ask (Eq.symm h))
  | report d => exact .inr h
  | reports ds => exact .inr h
  | unreceived ds => exact .inr h
  | _ => cases h

theorem Asks.isSave {cmd : Command} (hsave : cmd.isSave = false) {asked : Request}
    (h : cmd.Asks asked) : asked.isSave = false := by
  obtain rfl | ⟨file, rfl⟩ | ⟨r, rfl⟩ := h.cases
  · exact hsave
  · rfl
  · rfl

end Command

namespace Session

variable {I : Refusable σ τ → Prop}

def Kept (I : Refusable σ τ → Prop) (step : Step σ τ) : Prop :=
  ∀ s, I s.workspace → I (step s).2.workspace

theorem kept_reply {action : Fallible (Refusable σ τ) Reply} (ha : Keeps I action) :
    Kept I (reply action) :=
  fun s hs ↦ ha s.workspace hs

theorem kept_atSeat (i : Nat)
    {action : EditorAction (Refusing ArchiveCall σ) (Refusing StoreCall τ) Reply}
    (ha : Keeps (fun d ↦ I d.workspace) action) : Kept I (atSeat i action) := by
  intro s hs
  unfold atSeat
  split
  · exact ha ⟨_, s.workspace⟩ hs
  · exact hs

theorem kept_withInbox (i : Nat) {action : Mailbox → Fallible (Refusable σ τ) Reply}
    (ha : ∀ box, Keeps I (action box)) : Kept I (withInbox i action) := by
  intro s hs
  unfold withInbox
  split
  · exact kept_reply (ha _) s hs
  · exact hs

theorem kept_opening (l : Letter) {use : Message → Step σ τ} (hu : ∀ m, Kept I (use m)) :
    Kept I (opening l use) := by
  intro s hs
  unfold opening
  split
  · exact hu _ s hs
  · exact hs

section Mail

variable (hmail : ∀ (w : Refusable σ τ) mail, I w → I { w with mail })

include hmail

theorem kept_leave (i : Nat) (s : Session σ τ) (hs : I s.workspace) :
    I (s.leave i).workspace := by
  unfold leave
  split
  · exact hmail s.workspace _ hs
  · exact hs

theorem kept_mailboxOf (name : String) (s : Session σ τ) (hs : I s.workspace) :
    I (s.mailboxOf name).2.workspace := by
  unfold mailboxOf
  split
  · exact hs
  · exact hmail s.workspace _ hs

end Mail

variable [Archive σ] [BreakpointStore τ] {c : Compiler} {cmd : Command}

theorem keeps_send (hI : ∀ file, Keeps I ((Request.digest file).perform c)) (d : Draft) :
    Keeps I (send c d) := by
  cases d with
  | loaded file binary =>
    cases binary with
    | unknown => exact .pure _
    | current => exact (hI file).of_bind_pure.bind fun _ ↦ .pure _
    | of bytes => exact .pure _
  | unloaded file => exact .pure _

omit [BreakpointStore τ] in
theorem kept_reportUnreceived (hI : ∀ d, Keeps I (send c d)) (ds : List Draft) :
    Kept I (reportUnreceived c ds) := by
  intro s hs
  have hall : Keeps I (ds.mapM (send c)) := .mapM hI
  have hsend := hall s.workspace hs
  unfold reportUnreceived act
  generalize (ds.mapM (send c)).outcome s.workspace = o at hsend ⊢
  rcases o with ⟨_ | reports, w⟩
  · exact hsend
  · exact hsend

/-- What is kept by all that a command asks, and by what it may do beside, is kept by the command if
no editor carries it out. -/
theorem kept_unseated (hseat : cmd.isSeated = false)
    (hbeside : ∀ (w : Refusable σ τ) {w'}, cmd.Beside w w' → I w → I w')
    (hasks : ∀ r, cmd.Asks r → Keeps I (r.perform c)) : Kept I (step c cmd) := by
  have hmail (w : Refusable σ τ) (mail : List (Channel Message)) (hw : I w) : I { w with mail } :=
    hbeside w ⟨rfl, fun _ ↦ rfl, fun _ ↦ rfl⟩ hw
  have hlisteners (w : Refusable σ τ) (listeners : Std.ExtTreeMap String (List Mailbox))
      (hw : I w) : I { w with listeners } :=
    hbeside w ⟨rfl, fun _ ↦ rfl, fun _ ↦ rfl⟩ hw
  have hnote (n : Notice) : Keeps I (note n : Fallible (Refusable σ τ) Unit) :=
    fun w hw ↦ hbeside w ⟨rfl, fun _ ↦ rfl, fun _ ↦ rfl⟩ hw
  cases cmd with
  | ask r => exact kept_reply (hasks r rfl)
  | report d =>
    have hsend := keeps_send (fun file ↦ hasks _ (.inl ⟨file, rfl⟩)) d
    have hreport := keeps_report fun r ↦ hasks _ (.inr ⟨r, rfl⟩)
    exact kept_reply (hsend.bind fun r ↦ (hreport r).bind fun _ ↦ .pure _)
  | reports ds =>
    have hsend := keeps_send fun file ↦ hasks _ (.inl ⟨file, rfl⟩)
    have hreports := keeps_reports (fun r ↦ hasks _ (.inr ⟨r, rfl⟩)) hnote
    exact kept_reply ((Keeps.mapM hsend).bind fun rs ↦ (hreports rs).bind fun _ ↦ .pure _)
  | unreceived ds =>
    exact kept_reportUnreceived (keeps_send fun file ↦ hasks _ (.inl ⟨file, rfl⟩)) ds
  | sendUnloaded file =>
    intro s hs
    simp only [step, sendUnloaded]
    split <;> exact hs
  | listen file name =>
    intro s hs
    exact kept_reply ((keeps_listen hlisteners file _).bind fun _ ↦ .pure _) _
      (kept_mailboxOf hmail name s hs)
  | unlisten file name =>
    intro s hs
    simp only [step]
    split
    · exact kept_reply ((keeps_unlisten hlisteners file _).bind fun _ ↦ .pure _) s hs
    · exact hs
  | drain name =>
    intro s hs
    simp only [step, drain]
    split
    · exact hs
    · exact hmail s.workspace _ hs
  | dropInbox name =>
    intro s hs
    simp only [step]
    split
    · exact hmail s.workspace _ hs
    · exact hs
  | refuse call answers =>
    intro s hs
    cases call with
    | archive k => exact hbeside s.workspace ⟨rfl, nofun, fun _ ↦ rfl⟩ hs
    | store k => exact hbeside s.workspace ⟨rfl, fun _ ↦ rfl, nofun⟩ hs
  | storeAdd file a => exact fun s hs ↦ hbeside s.workspace ⟨rfl, fun _ ↦ rfl, nofun⟩ hs
  | storeRemove file a => exact fun s hs ↦ hbeside s.workspace ⟨rfl, fun _ ↦ rfl, nofun⟩ hs
  | storeResync file as => exact fun s hs ↦ hbeside s.workspace ⟨rfl, fun _ ↦ rfl, nofun⟩ hs
  | storeList file => exact fun s hs ↦ hbeside s.workspace ⟨rfl, fun _ ↦ rfl, nofun⟩ hs
  | archiveRead file => exact fun s hs ↦ hbeside s.workspace ⟨rfl, nofun, fun _ ↦ rfl⟩ hs
  | archiveWrite file bytes => exact fun s hs ↦ hbeside s.workspace ⟨rfl, nofun, fun _ ↦ rfl⟩ hs
  | newEditor => exact fun s hs ↦ hmail s.workspace _ hs
  | post i l =>
    refine kept_opening l fun m ↦ kept_withInbox i fun box ↦ ?_
    exact (keeps_post hmail box m).bind fun _ ↦ .pure _
  | isSame i other => exact fun s hs ↦ hs
  | editorListen i file =>
    exact kept_withInbox i fun box ↦ (keeps_listen hlisteners file box).bind fun _ ↦ .pure _
  | editorUnlisten i file =>
    exact kept_withInbox i fun box ↦ (keeps_unlisten hlisteners file box).bind fun _ ↦ .pure _
  | handle i l => cases hseat
  | run i => cases hseat
  | drop i => cases hseat
  | editor i r => cases hseat

/-- What is kept by all that editors do, whatever mail there is, is kept by the commands that they
carry out. -/
theorem kept_seated (hseat : cmd.isSeated = true)
    (hmail : ∀ (w : Refusable σ τ) mail, I w → I { w with mail })
    (hhandle : ∀ m, Keeps (fun d ↦ I d.workspace) (Editor.handle c m))
    (hrun : Keeps (fun d ↦ I d.workspace) (Editor.run c))
    (heditor : ∀ i r, cmd = .editor i r → Keeps (fun d ↦ I d.workspace) (r.perform c)) :
    Kept I (step c cmd) := by
  cases cmd with
  | handle i l =>
    intro s hs
    simp only [step, handle]
    split
    · exact kept_opening l (fun m ↦ kept_atSeat i ((hhandle m).bind fun _ ↦ .pure _)) s hs
    · exact hs
  | run i =>
    intro s hs
    simp only [step, run]
    split
    · refine kept_leave hmail i _ (kept_atSeat i (hrun.bind fun _ ↦ .pure _) _ ?_)
      exact kept_withInbox i (fun box ↦ (keeps_post hmail box _).bind fun _ ↦ .pure _) s hs
    · exact hs
  | drop i => exact kept_leave hmail i
  | editor i r => exact kept_atSeat i (heditor i r rfl)
  | _ => cases hseat

/-- What lasts in a workspace lasts through every command that is not a save and leaves the archive
to the workspace. -/
theorem kept_step [LawfulArchive σ] (hI : Lasting c I) (hsave : cmd.isSave = false)
    (htampers : cmd.tampers = false) : Kept I (step c cmd) := by
  cases hseat : cmd.isSeated with
  | true =>
    refine kept_seated hseat (fun w _ ↦ hI.frame (w := w) rfl rfl) hI.handle hI.run ?_
    rintro i r rfl
    exact hI.editorRequest hsave
  | false =>
    cases harchive : cmd.reachesArchive with
    | false =>
      exact kept_unseated hseat (fun _ _ h ↦ hI.frame (congrArg _ (h.archive harchive)) h.scripts)
        fun r hr ↦ hI.request (hr.isSave hsave)
    | true =>
      intro s hs
      cases cmd with
      | refuse call answers =>
        cases call with
        | archive k => exact hI.frame (w := s.workspace) rfl rfl hs
        | store k => cases harchive
      | archiveRead file =>
        have hread := LawfulArchive.content_read file s.workspace.archive.inner
        exact hI.frame (w := s.workspace) hread rfl hs
      | archiveWrite file bytes => cases htampers
      | _ => cases harchive

end Session

end ScriptBreakpoints
