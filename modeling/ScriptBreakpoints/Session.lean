import ScriptBreakpoints.Session.Command

namespace ScriptBreakpoints

structure Seat where
  inbox : Mailbox
  editor : Option Editor

abbrev Refusable (σ τ : Type) := Workspace (Refusing ArchiveCall σ) (Refusing StoreCall τ)

structure Session (σ τ : Type) where
  workspace : Refusable σ τ
  seats : List Seat := []
  listeners : Std.ExtTreeMap String Mailbox := ∅
  reports : Option (Channel EngineReport) := none

inductive Failure
  | fault (f : Fault)
  | storage (e : StorageFault)
  | repeated (a : Address)

namespace Session

variable {σ τ α : Type} [Archive σ] [BreakpointStore τ] (c : Compiler)

abbrev Step (σ τ : Type) := Session σ τ → Except Failure Reply × Session σ τ

def start (archive : σ) (store : τ) : Session σ τ where
  workspace := { archive := { inner := archive }, store := { inner := store } }

def act (action : Fallible (Refusable σ τ) α) (s : Session σ τ) :
    Except Fault α × Session σ τ :=
  let (result, workspace) := action.outcome s.workspace
  (result, { s with workspace })

def reply (action : Fallible (Refusable σ τ) Reply) : Step σ τ := fun s =>
  let (result, s) := s.act action
  (result.mapError .fault, s)

def atSeat (i : Nat)
    (action : EditorAction (Refusing ArchiveCall σ) (Refusing StoreCall τ) Reply) :
    Step σ τ := fun s =>
  match s.seats[i]? with
  | some ⟨inbox, some editor⟩ =>
    let (result, d) := action.outcome ⟨editor, s.workspace⟩
    (result.mapError .fault,
      { s with workspace := d.workspace, seats := s.seats.set i ⟨inbox, some d.editor⟩ })
  | _ => (.ok .stopped, s)

def withInbox (i : Nat) (action : Mailbox → Fallible (Refusable σ τ) Reply) : Step σ τ := fun s =>
  match s.seats[i]? with
  | some seat => s.reply (action seat.inbox)
  | none => (.ok .stopped, s)

def setMail (box : Mailbox) (f : Channel Message → Channel Message) (s : Session σ τ) :
    Session σ τ :=
  { s with workspace.mail := s.workspace.mail.modify box f }

def leave (i : Nat) (s : Session σ τ) : Session σ τ :=
  match s.seats[i]? with
  | some seat =>
    { s.setMail seat.inbox .close with seats := s.seats.set i { seat with editor := none } }
  | none => s

def opening (l : Letter) (use : Message → Step σ τ) : Step σ τ := fun s =>
  match l.message with
  | .ok m => use m s
  | .error a => (.error (.repeated a), s)

def handle (i : Nat) (l : Letter) : Step σ τ := fun s =>
  match s.seats[i]? with
  | some ⟨_, some _⟩ => s.opening l fun m => atSeat i do return .flag (← Editor.handle c m)
  | _ => (.ok .stopped, s)

def run (i : Nat) : Step σ τ := fun s =>
  match s.seats[i]? with
  | some ⟨_, some _⟩ =>
    let (_, s) := s.withInbox i fun box => do let _ ← Workspace.post box .shutdown; return .done
    let (result, s) := s.atSeat i (do Editor.run c; return .done)
    (result, s.leave i)
  | _ => (.ok .stopped, s)

def newEditor (s : Session σ τ) : Session σ τ :=
  let box := s.workspace.mail.length
  { s with
    workspace.mail := s.workspace.mail ++ [.new]
    seats := s.seats ++ [⟨box, some { inbox := box }⟩] }

def mailboxOf (name : String) (s : Session σ τ) : Mailbox × Session σ τ :=
  match s.listeners[name]? with
  | some box => (box, s)
  | none =>
    let box := s.workspace.mail.length
    (box, { s with
      workspace.mail := s.workspace.mail ++ [.new]
      listeners := s.listeners.insert name box })

def drain (name : String) (s : Session σ τ) : List Message × Session σ τ :=
  match s.listeners[name]? with
  | none => ([], s)
  | some box =>
    ((s.workspace.mail[box]?.map (·.queue)).getD [], s.setMail box fun c => { c with queue := [] })

/-- What the engine sends. The binary that is archived at this moment has to be asked for. -/
def send : Draft → Fallible (Refusable σ τ) EngineReport
  | .loaded file .unknown => return .loaded file none
  | .loaded file .current => return .loaded file (some (← Workspace.digestOf c file))
  | .loaded file (.of bytes) => return .loaded file (some (.of bytes))
  | .unloaded file => return .unloaded file

def reportAll (ds : List Draft) : Step σ τ :=
  reply do
    let reports ← ds.mapM (send c)
    Workspace.handleReports c reports
    return .sent (reports.map fun _ => true)

def reportUnreceived (ds : List Draft) : Step σ τ := fun s =>
  match s.act (ds.mapM (send c)) with
  | (.ok reports, s) =>
    (.ok (.sent (reports.map fun _ => true)), { s with reports := some (Channel.new.close) })
  | (.error f, s) => (.error (.fault f), s)

def sendUnloaded (file : String) : Step σ τ := fun s =>
  match s.reports with
  | none => (.ok .done, s)
  | some channel =>
    let (sent, channel) := channel.send (.unloaded file)
    (.ok (.flag sent), { s with reports := some channel })

def refuse (answers : List Bool) : Call → Session σ τ → Session σ τ
  | .archive k, s => { s with workspace.archive := s.workspace.archive.setQueue k answers }
  | .store k, s => { s with workspace.store := s.workspace.store.setQueue k answers }

def onStore (call : τ → Except StorageFault α × τ) (f : α → Reply) : Step σ τ := fun s =>
  let (result, inner) := call s.workspace.store.inner
  ((result.map f).mapError .storage, { s with workspace.store.inner := inner })

def onArchive (call : σ → Except StorageFault α × σ) (f : α → Reply) : Step σ τ := fun s =>
  let (result, inner) := call s.workspace.archive.inner
  ((result.map f).mapError .storage, { s with workspace.archive.inner := inner })

def step : Command → Step σ τ
  | .ask r => reply (r.perform c)
  | .report d => reply do Workspace.handleReport c (← send c d); return .done
  | .reports ds => reportAll c ds
  | .unreceived ds => reportUnreceived c ds
  | .sendUnloaded file => sendUnloaded file
  | .listen file name => fun s =>
    let (box, s) := s.mailboxOf name
    s.reply do Workspace.listen file box; return .done
  | .unlisten file name => fun s =>
    match s.listeners[name]? with
    | some box => s.reply do Workspace.unlisten file box; return .done
    | none => (.ok .done, s)
  | .drain name => fun s => let (ms, s) := s.drain name; (.ok (.messages ms), s)
  | .dropInbox name => fun s =>
    match s.listeners[name]? with
    | some box => (.ok .done, s.setMail box .close)
    | none => (.ok .done, s)
  | .refuse call answers => fun s => (.ok .done, s.refuse answers call)
  | .storeAdd file a => onStore (BreakpointStore.add file a) fun _ => .done
  | .storeRemove file a => onStore (BreakpointStore.remove file a) fun _ => .done
  | .storeResync file as => onStore (BreakpointStore.resync file as) fun _ => .done
  | .storeList file => onStore (BreakpointStore.list file) .addresses
  | .archiveRead file => onArchive (Archive.read file) .bytes
  | .archiveWrite file bytes => fun s =>
    let notices := Archive.announce file bytes s.workspace.archive.inner
    let (result, s) := s.onArchive (Archive.write file bytes) fun _ => .done
    (result, { s with workspace.log := s.workspace.log ++ notices })
  | .newEditor => fun s => (.ok .done, s.newEditor)
  | .post i l => opening l fun m => withInbox i fun box => return .flag (← Workspace.post box m)
  | .handle i l => handle c i l
  | .isSame i other => fun s =>
    (.ok (.flag ((s.seats[i]?.map (·.inbox)) = (s.seats[other]?.map (·.inbox)))), s)
  | .editorListen i file => withInbox i fun box => do Workspace.listen file box; return .done
  | .editorUnlisten i file => withInbox i fun box => do Workspace.unlisten file box; return .done
  | .run i => run c i
  | .drop i => fun s => (.ok .done, s.leave i)
  | .editor i r => atSeat i (r.perform c)

def takeLog (s : Session σ τ) : List Notice × Session σ τ :=
  (s.workspace.log, { s with workspace.log := [] })

end Session

end ScriptBreakpoints
