import Std.Data.ExtTreeMap
import ScriptBreakpoints.Text.Pieces
import ScriptBreakpoints.Text.Utf8

namespace ScriptBreakpoints

inductive Node
  | folder
  | file (content : Bytes)
deriving DecidableEq

namespace Path

def segments (path : String) : List String := (pieces '/' path.toList).map String.ofList

def isProper (segment : String) : Bool := segment ≠ "" && segment ≠ "."

def names (path : String) : List String := (segments path).filter isProper

def parent (path : String) : String :=
  let back := (segments path).reverse.dropWhile fun s => !isProper s
  "/".intercalate (back.tail.dropWhile fun s => !isProper s).reverse

def endsInFolder (path : String) : Bool := (segments path).getLast?.any fun s => !isProper s

def isAbsolute (path : String) : Bool := path.toList.head? = some '/'

def join (folder path : String) : String :=
  if isAbsolute path || folder = "" then path
  else if folder.toList.getLast? = some '/' then folder ++ path
  else folder ++ "/" ++ path

def maxNameSize : Nat := 255

def isTooLong (name : String) : Bool := maxNameSize < name.utf8ByteSize

def maxSize : Nat := 4095

def isPossible (path : String) : Bool := '\x00' ∉ path.toList && path.utf8ByteSize ≤ maxSize

def startsAtDot (path : String) : Bool := (segments path).head? = some "."

/-- Two paths are the same if they lead through the same names from the same start. -/
def same (a b : String) : Bool :=
  isAbsolute a = isAbsolute b && startsAtDot a = startsAtDot b && names a = names b

end Path

/-- The nodes below the root, each under the names that lead to it. -/
structure Disk where
  nodes : Std.ExtTreeMap (List String) Node
deriving DecidableEq

namespace Disk

inductive Refusal
  | missing
  | other
deriving DecidableEq

def empty : Disk := ⟨∅⟩

def node? (d : Disk) (place : List String) : Option Node :=
  if place = [] then some .folder else d.nodes[place]?

def follow (d : Disk) (here : List String) : List String → Except Refusal (List String)
  | [] => .ok here
  | name :: names =>
    if name = ".." then follow d here.dropLast names
    else if Path.isTooLong name then .error .other
    else
      match d.node? (here ++ [name]) with
      | none => .error .missing
      | some (.file _) => .error .other
      | some .folder => follow d (here ++ [name]) names

def placeOf (d : Disk) (path : String) : Except Refusal (List String) := do
  if !Path.isPossible path then throw .other
  match (Path.names path).getLast? with
  | none => throw .other
  | some name =>
    let folder ← d.follow [] (Path.names path).dropLast
    if name = ".." || Path.isTooLong name then throw .other
    return folder ++ [name]

def read (d : Disk) (path : String) : Except Refusal Bytes := do
  match d.node? (← d.placeOf path) with
  | none => throw .missing
  | some (.file content) => if Path.endsInFolder path then throw .other else return content
  | some .folder => throw .other

def write (d : Disk) (path : String) (content : Bytes) : Except Refusal Disk := do
  let place ← d.placeOf path
  if Path.endsInFolder path then throw .other
  match d.node? place with
  | some .folder => throw .other
  | _ => return ⟨d.nodes.insert place (.file content)⟩

def remove (d : Disk) (path : String) : Except Refusal Disk := do
  let place ← d.placeOf path
  match d.node? place with
  | some (.file _) => return ⟨d.nodes.erase place⟩
  | _ => throw .other

/-- Makes the folders that are missing on the way along `names`, up to the first name that can't be
a folder. The flag says whether the way leads to its end. -/
def makeFolders (d : Disk) (here : List String) : List String → Disk × Bool
  | [] => (d, true)
  | name :: names =>
    if name = ".." then makeFolders d here.dropLast names
    else if Path.isTooLong name then (d, false)
    else
      match d.node? (here ++ [name]) with
      | none => makeFolders ⟨d.nodes.insert (here ++ [name]) .folder⟩ (here ++ [name]) names
      | some (.file _) => (d, false)
      | some .folder => makeFolders d (here ++ [name]) names

def makeParents (d : Disk) (path : String) : Disk × Bool :=
  let folder := Path.parent path
  if Path.isPossible folder then d.makeFolders [] (Path.names folder) else (d, false)

end Disk

end ScriptBreakpoints
