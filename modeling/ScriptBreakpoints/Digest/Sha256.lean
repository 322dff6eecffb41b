namespace ScriptBreakpoints.Sha256

def roundConstants : List UInt32 := [
  0x428a2f98, 0x71374491, 0xb5c0fbcf, 0xe9b5dba5, 0x3956c25b, 0x59f111f1, 0x923f82a4, 0xab1c5ed5,
  0xd807aa98, 0x12835b01, 0x243185be, 0x550c7dc3, 0x72be5d74, 0x80deb1fe, 0x9bdc06a7, 0xc19bf174,
  0xe49b69c1, 0xefbe4786, 0x0fc19dc6, 0x240ca1cc, 0x2de92c6f, 0x4a7484aa, 0x5cb0a9dc, 0x76f988da,
  0x983e5152, 0xa831c66d, 0xb00327c8, 0xbf597fc7, 0xc6e00bf3, 0xd5a79147, 0x06ca6351, 0x14292967,
  0x27b70a85, 0x2e1b2138, 0x4d2c6dfc, 0x53380d13, 0x650a7354, 0x766a0abb, 0x81c2c92e, 0x92722c85,
  0xa2bfe8a1, 0xa81a664b, 0xc24b8b70, 0xc76c51a3, 0xd192e819, 0xd6990624, 0xf40e3585, 0x106aa070,
  0x19a4c116, 0x1e376c08, 0x2748774c, 0x34b0bcb5, 0x391c0cb3, 0x4ed8aa4a, 0x5b9cca4f, 0x682e6ff3,
  0x748f82ee, 0x78a5636f, 0x84c87814, 0x8cc70208, 0x90befffa, 0xa4506ceb, 0xbef9a3f7, 0xc67178f2]

def rotate (x n : UInt32) : UInt32 := (x >>> n) ||| (x <<< (32 - n))

structure Words where
  a : UInt32
  b : UInt32
  c : UInt32
  d : UInt32
  e : UInt32
  f : UInt32
  g : UInt32
  h : UInt32

namespace Words

def start : Words :=
  ⟨0x6a09e667, 0xbb67ae85, 0x3c6ef372, 0xa54ff53a, 0x510e527f, 0x9b05688c, 0x1f83d9ab, 0x5be0cd19⟩

def add (x y : Words) : Words :=
  ⟨x.a + y.a, x.b + y.b, x.c + y.c, x.d + y.d, x.e + y.e, x.f + y.f, x.g + y.g, x.h + y.h⟩

def toList (x : Words) : List UInt32 := [x.a, x.b, x.c, x.d, x.e, x.f, x.g, x.h]

def round (x : Words) (kw : UInt32) : Words :=
  let choice := (x.e &&& x.f) ^^^ ((~~~ x.e) &&& x.g)
  let majority := (x.a &&& x.b) ^^^ (x.a &&& x.c) ^^^ (x.b &&& x.c)
  let t := x.h + (rotate x.e 6 ^^^ rotate x.e 11 ^^^ rotate x.e 25) + choice + kw
  let u := (rotate x.a 2 ^^^ rotate x.a 13 ^^^ rotate x.a 22) + majority
  ⟨t + u, x.a, x.b, x.c, x.d + t, x.e, x.f, x.g⟩

end Words

def extend (schedule : Array UInt32) : Array UInt32 :=
  let back (n : Nat) := schedule.getD (schedule.size - n) 0
  let s := back 15
  let t := back 2
  schedule.push (back 16 + (rotate s 7 ^^^ rotate s 18 ^^^ (s >>> 3)) + back 7 +
    (rotate t 17 ^^^ rotate t 19 ^^^ (t >>> 10)))

def schedule (block : List UInt32) : List UInt32 := (Nat.repeat extend 48 block.toArray).toList

def compress (x : Words) (block : List UInt32) : Words :=
  x.add ((List.zipWith (· + ·) roundConstants (schedule block)).foldl Words.round x)

def words : List UInt8 → List UInt32
  | a :: b :: c :: d :: rest =>
    ((a.toUInt32 <<< 24) ||| (b.toUInt32 <<< 16) ||| (c.toUInt32 <<< 8) ||| d.toUInt32) ::
      words rest
  | _ => []

def wordBytes (w : UInt32) : List UInt8 :=
  [(w >>> 24).toUInt8, (w >>> 16).toUInt8, (w >>> 8).toUInt8, w.toUInt8]

/-- Zeros between the end mark of a message of `length` bytes and the eight bytes of its size. -/
def zeros (length : Nat) : Nat := (119 - length % 64) % 64

def sizeBytes (length : Nat) : List UInt8 :=
  [56, 48, 40, 32, 24, 16, 8, 0].map fun shift => UInt8.ofNat ((8 * length) >>> shift)

def pad (message : List UInt8) : List UInt8 :=
  message ++ 0x80 :: (List.replicate (zeros message.length) 0 ++ sizeBytes message.length)

def blocks : Nat → List UInt32 → List (List UInt32)
  | 0, _ => []
  | count + 1, ws => ws.take 16 :: blocks count (ws.drop 16)

def hash (message : List UInt8) : List UInt8 :=
  let ws := words (pad message)
  ((blocks (ws.length / 16) ws).foldl compress Words.start).toList.flatMap wordBytes

end ScriptBreakpoints.Sha256
