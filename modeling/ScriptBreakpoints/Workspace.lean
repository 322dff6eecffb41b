import ScriptBreakpoints.Archive
import ScriptBreakpoints.Breakpoints
import ScriptBreakpoints.Fallible
import ScriptBreakpoints.Mail

namespace ScriptBreakpoints

abbrev Mailbox := Nat

structure Workspace (σ τ : Type) where
  archive : σ
  store : τ
  scripts : Std.ExtTreeMap String Script := ∅
  listeners : Std.ExtTreeMap String (List Mailbox) := ∅
  mail : List (Channel Message) := []
  log : List Notice := []

abbrev Action (σ τ : Type) := Fallible (Workspace σ τ)

namespace Workspace

variable {σ τ α : Type}

def note (n : Notice) : Action σ τ Unit := modify fun w => { w with log := w.log ++ [n] }

def askArchive (call : σ → Except StorageFault α × σ) : Action σ τ (Except StorageFault α) :=
  modifyGet fun w => let (result, archive) := call w.archive; (result, { w with archive })

def askStore (call : τ → Except StorageFault α × τ) : Action σ τ (Except StorageFault α) :=
  modifyGet fun w => let (result, store) := call w.store; (result, { w with store })

def demand : Except StorageFault α → Action σ τ α
  | .ok a => pure a
  | .error e => throw (.storage e)

def putScript (file : String) (s : Script) : Action σ τ Unit :=
  modify fun w => { w with scripts := w.scripts.insert file s }

/-- The flag says whether there was somebody to post to. -/
def post (box : Mailbox) (m : Message) : Action σ τ Bool :=
  modifyGet fun w =>
    match w.mail[box]? with
    | none => (false, w)
    | some c => let (sent, c) := c.send m; (sent, { w with mail := w.mail.set box c })

def broadcast (file : String) (m : Message) : Action σ τ Unit := do
  match (← get).listeners[file]? with
  | none => note (.unheard file)
  | some boxes => boxes.forM fun box => do
    unless ← post box m do note (.listenerGone file)

/-- A mailbox listens to a script at most once. -/
def listen (file : String) (box : Mailbox) : Action σ τ Unit :=
  modify fun w =>
    let boxes := w.listeners[file]?.getD []
    if box ∈ boxes then w
    else { w with listeners := w.listeners.insert file (boxes ++ [box]) }

def unlisten (file : String) (box : Mailbox) : Action σ τ Unit :=
  modify fun w =>
    let boxes := (w.listeners[file]?.getD []).filter (· ≠ box)
    if boxes = [] then { w with listeners := w.listeners.erase file }
    else { w with listeners := w.listeners.insert file boxes }

variable [Archive σ] (c : Compiler)

def decompiled (file : String) (binary : Binary) : Action σ τ (Dual View) :=
  match c.decompile .primary binary, c.decompile .derived binary with
  | .ok primary, .ok derived => pure ⟨primary, derived⟩
  | .error e, _ | _, .error e => throw (.storage (.corrupt file e.message))

def load (file : String) : Action σ τ Script := do
  let binary : Binary := ⟨← demand (← askArchive (Archive.read file))⟩
  let views ← decompiled c file binary
  note (.loaded file binary.digest)
  return .ofBinary file binary views

def script (file : String) : Action σ τ Script := do
  match (← get).scripts[file]? with
  | some s => return s
  | none =>
    let s ← load c file
    putScript file s
    return s

end Workspace

end ScriptBreakpoints
