import ScriptBreakpoints.Text.Utf8
import ScriptBreakpoints.Digest.Sha256
import ScriptBreakpoints.Digest.Base64

namespace ScriptBreakpoints

structure Digest where
  bytes : Bytes
deriving DecidableEq

namespace Digest

def of (bytes : Bytes) : Digest := ⟨Sha256.hash bytes⟩

def toText (d : Digest) : String := String.ofList (Base64.encode d.bytes)

def tagged (d : Digest) : String := "sha256:" ++ d.toText

end Digest

structure Binary where
  bytes : Bytes
deriving DecidableEq

def Binary.digest (b : Binary) : Digest := .of b.bytes

end ScriptBreakpoints
