import ScriptBreakpoints.Text.Utf8

namespace ScriptBreakpoints.Json

inductive Token
  | openArray
  | closeArray
  | openObject
  | closeObject
  | comma
  | colon
  | null
  | bool (value : Bool)
  | number (digits : Bytes)
  | string (raw : Bytes)
deriving DecidableEq

def isDigit (b : UInt8) : Bool := 0x30 ≤ b && b ≤ 0x39

def isHexDigit (b : UInt8) : Bool :=
  isDigit b || (0x41 ≤ b && b ≤ 0x46) || (0x61 ≤ b && b ≤ 0x66)

def isSpace (b : UInt8) : Bool := b = 0x20 || b = 0x0a || b = 0x09 || b = 0x0d

def isShortEscape (b : UInt8) : Bool := "\"\\/bfnrt".toList.any (·.toUInt8 = b)

namespace Number

def isByte (b : UInt8) : Bool :=
  isDigit b || b = 0x2b || b = 0x2d || b = 0x2e || b = 0x45 || b = 0x65

def isDigits (bytes : Bytes) : Bool := bytes ≠ [] && bytes.all isDigit

def isExponent : Bytes → Bool
  | [] => true
  | mark :: 0x2b :: rest => (mark = 0x45 || mark = 0x65) && isDigits rest
  | mark :: 0x2d :: rest => (mark = 0x45 || mark = 0x65) && isDigits rest
  | mark :: rest => (mark = 0x45 || mark = 0x65) && isDigits rest

def isFraction : Bytes → Bool
  | 0x2e :: b :: rest => isDigit b && isExponent (rest.dropWhile isDigit)
  | rest => isExponent rest

/-- No digit may follow a leading zero. -/
def isUnsigned : Bytes → Bool
  | [] => false
  | 0x30 :: rest => isFraction rest
  | b :: rest => isDigit b && isFraction (rest.dropWhile isDigit)

def isNumber : Bytes → Bool
  | 0x2d :: rest => isUnsigned rest
  | bytes => isUnsigned bytes

end Number

/-- What the lexer is inside of. The bytes read so far come in reverse. -/
inductive Mode
  | between
  | word (read : Bytes)
  | number (read : Bytes)
  | string (read : Bytes)
  | escape (read : Bytes)
  | hex (owed : Nat) (read : Bytes)
deriving DecidableEq

/-- The tokens found so far, in reverse, and where the lexer stands. -/
structure Lexer where
  found : List Token
  mode : Mode
deriving DecidableEq

namespace Lexer

def start (found : List Token) (b : UInt8) : Option Lexer :=
  if isSpace b then some ⟨found, .between⟩
  else if isDigit b || b = 0x2d then some ⟨found, .number [b]⟩
  else if 0x61 ≤ b && b ≤ 0x7a then some ⟨found, .word [b]⟩
  else
    match b with
    | 0x22 => some ⟨found, .string []⟩
    | 0x5b => some ⟨.openArray :: found, .between⟩
    | 0x5d => some ⟨.closeArray :: found, .between⟩
    | 0x7b => some ⟨.openObject :: found, .between⟩
    | 0x7d => some ⟨.closeObject :: found, .between⟩
    | 0x2c => some ⟨.comma :: found, .between⟩
    | 0x3a => some ⟨.colon :: found, .between⟩
    | _ => none

def keyword? (word : Bytes) : Option Token :=
  if word = Utf8.encode "null" then some .null
  else if word = Utf8.encode "true" then some (.bool true)
  else if word = Utf8.encode "false" then some (.bool false)
  else none

def finish (l : Lexer) : Option (List Token) :=
  match l.mode with
  | .between => some l.found
  | .word read => (keyword? read.reverse).map (· :: l.found)
  | .number read =>
    if Number.isNumber read.reverse then some (.number read.reverse :: l.found) else none
  | _ => none

def step (l : Lexer) (b : UInt8) : Option Lexer :=
  match l.mode with
  | .between => start l.found b
  | .word read =>
    if 0x61 ≤ b && b ≤ 0x7a then some ⟨l.found, .word (b :: read)⟩
    else l.finish.bind fun found => start found b
  | .number read =>
    if Number.isByte b then some ⟨l.found, .number (b :: read)⟩
    else l.finish.bind fun found => start found b
  | .string read =>
    if b = 0x22 then some ⟨.string read.reverse :: l.found, .between⟩
    else if b = 0x5c then some ⟨l.found, .escape (b :: read)⟩
    else if b < 0x20 then none
    else some ⟨l.found, .string (b :: read)⟩
  | .escape read =>
    if b = 0x75 then some ⟨l.found, .hex 4 (b :: read)⟩
    else if isShortEscape b then some ⟨l.found, .string (b :: read)⟩
    else none
  | .hex owed read =>
    if !isHexDigit b then none
    else if owed ≤ 1 then some ⟨l.found, .string (b :: read)⟩
    else some ⟨l.found, .hex (owed - 1) (b :: read)⟩

end Lexer

def tokens (bytes : Bytes) : Option (List Token) := do
  return (← (← bytes.foldlM Lexer.step ⟨[], .between⟩).finish).reverse

end ScriptBreakpoints.Json
