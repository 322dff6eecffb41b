import ScriptBreakpoints.Json.Token

namespace ScriptBreakpoints.Json

def hexValue (b : UInt8) : Option Nat :=
  if isDigit b then some (b.toNat - 0x30)
  else if 0x41 ≤ b && b ≤ 0x46 then some (b.toNat - 0x41 + 10)
  else if 0x61 ≤ b && b ≤ 0x66 then some (b.toNat - 0x61 + 10)
  else none

def hexDigit (n : Nat) : UInt8 := if n < 10 then .ofNat (0x30 + n) else .ofNat (0x61 + n - 10)

def spellByte (b : UInt8) : Bytes :=
  match b with
  | 0x22 => [0x5c, 0x22]
  | 0x5c => [0x5c, 0x5c]
  | 0x08 => [0x5c, 0x62]
  | 0x0c => [0x5c, 0x66]
  | 0x0a => [0x5c, 0x6e]
  | 0x0d => [0x5c, 0x72]
  | 0x09 => [0x5c, 0x74]
  | _ =>
    if b < 0x20 then [0x5c, 0x75, 0x30, 0x30, hexDigit (b.toNat / 16), hexDigit (b.toNat % 16)]
    else [b]

def spell (s : String) : Bytes := (Utf8.encode s).flatMap spellByte

def shortEscape? (b : UInt8) : Option UInt8 :=
  match b with
  | 0x22 => some 0x22
  | 0x5c => some 0x5c
  | 0x2f => some 0x2f
  | 0x62 => some 0x08
  | 0x66 => some 0x0c
  | 0x6e => some 0x0a
  | 0x72 => some 0x0d
  | 0x74 => some 0x09
  | _ => none

def unit? (a b c d : UInt8) : Option Nat := do
  return ((← hexValue a) * 4096 + (← hexValue b) * 256 + (← hexValue c) * 16 + (← hexValue d))

def isHighSurrogate (n : Nat) : Bool := 0xd800 ≤ n && n < 0xdc00

def isLowSurrogate (n : Nat) : Bool := 0xdc00 ≤ n && n < 0xe000

def scalarBytes (n : Nat) : Bytes := Utf8.encode (String.singleton (Char.ofNat n))

/-- The bytes that a spelling stands for. Surrogates count only in pairs. -/
def unspell? : Bytes → Option Bytes
  | [] => some []
  | 0x5c :: 0x75 :: a :: b :: c :: d :: rest =>
    match unit? a b c d with
    | none => none
    | some n =>
      if isHighSurrogate n then
        match rest with
        | 0x5c :: 0x75 :: e :: f :: g :: h :: rest =>
          match unit? e f g h with
          | some m =>
            if isLowSurrogate m then
              (unspell? rest).map (scalarBytes (0x10000 + (n - 0xd800) * 1024 + (m - 0xdc00)) ++ ·)
            else none
          | none => none
        | _ => none
      else if isLowSurrogate n then none
      else (unspell? rest).map (scalarBytes n ++ ·)
  | 0x5c :: b :: rest =>
    match shortEscape? b with
    | some c => (unspell? rest).map (c :: ·)
    | none => none
  | [0x5c] => none
  | b :: rest => (unspell? rest).map (b :: ·)

def read? (raw : Bytes) : Option String := (unspell? raw).bind Utf8.decode?

end ScriptBreakpoints.Json
