import ScriptBreakpoints.Binary
import ScriptBreakpoints.Text.Quoted

namespace ScriptBreakpoints

inductive EngineReport
  | loaded (file : String) (digest : Option Digest)
  | unloaded (file : String)
deriving DecidableEq

namespace EngineReport

def file : EngineReport → String
  | loaded file _ => file
  | unloaded file => file

def digestListing : Option Digest → String
  | some d => "Some(" ++ d.tagged ++ ")"
  | none => "None"

def listing : EngineReport → String
  | loaded file digest =>
    "Loaded \x7b filename: " ++ Quoted.quote file ++ ", hash: " ++ digestListing digest ++ " \x7d"
  | unloaded file => "Unloaded \x7b filename: " ++ Quoted.quote file ++ " \x7d"

end EngineReport

inductive DebugState
  | upToDate
  | outdated
  | notBreakable
deriving DecidableEq

def DebugState.message? : DebugState → Option String
  | upToDate => none
  | outdated => some <|
    "An old version of this script is still loaded, old breakpoints are still used " ++
    "until the file is reloaded."
  | notBreakable => some <|
    "An old version of this script is still loaded, but breakpoints are not " ++
    "available. Debugging is disabled for this file until it is reloaded."

inductive Readiness
  | ready
  | deferred
deriving DecidableEq

end ScriptBreakpoints
