import RefSweep.Text.Utf8
import RefSweep.Text.Quoted

/-!
# Object keys

An object is stored under the SHA-256 digest of a header and its payload. The header gives the kind
and the length of the payload and ends with a zero byte, which no ordinary kind holds: up to there
the header is known, and the payload is what follows.
-/

namespace RefSweep

namespace Sha256

/-- The eight words of a digest under construction. -/
structure State where
  a : UInt32
  b : UInt32
  c : UInt32
  d : UInt32
  e : UInt32
  f : UInt32
  g : UInt32
  h : UInt32

/-- The fractional parts of the square roots of the first eight primes. -/
def initial : State :=
  ⟨0x6a09e667, 0xbb67ae85, 0x3c6ef372, 0xa54ff53a,
    0x510e527f, 0x9b05688c, 0x1f83d9ab, 0x5be0cd19⟩

/-- The fractional parts of the cube roots of the first sixty-four primes. -/
def constants : List UInt32 :=
  [0x428a2f98, 0x71374491, 0xb5c0fbcf, 0xe9b5dba5, 0x3956c25b, 0x59f111f1, 0x923f82a4, 0xab1c5ed5,
    0xd807aa98, 0x12835b01, 0x243185be, 0x550c7dc3, 0x72be5d74, 0x80deb1fe, 0x9bdc06a7, 0xc19bf174,
    0xe49b69c1, 0xefbe4786, 0x0fc19dc6, 0x240ca1cc, 0x2de92c6f, 0x4a7484aa, 0x5cb0a9dc, 0x76f988da,
    0x983e5152, 0xa831c66d, 0xb00327c8, 0xbf597fc7, 0xc6e00bf3, 0xd5a79147, 0x06ca6351, 0x14292967,
    0x27b70a85, 0x2e1b2138, 0x4d2c6dfc, 0x53380d13, 0x650a7354, 0x766a0abb, 0x81c2c92e, 0x92722c85,
    0xa2bfe8a1, 0xa81a664b, 0xc24b8b70, 0xc76c51a3, 0xd192e819, 0xd6990624, 0xf40e3585, 0x106aa070,
    0x19a4c116, 0x1e376c08, 0x2748774c, 0x34b0bcb5, 0x391c0cb3, 0x4ed8aa4a, 0x5b9cca4f, 0x682e6ff3,
    0x748f82ee, 0x78a5636f, 0x84c87814, 0x8cc70208, 0x90befffa, 0xa4506ceb, 0xbef9a3f7, 0xc67178f2]

/-- The word turned right by `n` bits. -/
def rotate (x n : UInt32) : UInt32 := (x >>> n) ||| (x <<< (32 - n))

/-- The message with the bit 1, zeros and its length in bits, a whole number of blocks. -/
def padded (bs : Bytes) : Bytes :=
  let bits := 8 * bs.length
  bs ++ 0x80 :: List.replicate ((119 - bs.length % 64) % 64) 0 ++
    (List.range 8).map fun i => UInt8.ofNat (bits / Nat.pow 256 (7 - i))

/-- Four bytes as a word, the highest first. -/
def word (a b c d : UInt8) : UInt32 :=
  (a.toUInt32 <<< 24) ||| (b.toUInt32 <<< 16) ||| (c.toUInt32 <<< 8) ||| d.toUInt32

/-- The bytes as words; fewer than four left over are dropped. -/
def words : Bytes → List UInt32
  | a :: b :: c :: d :: rest => word a b c d :: words rest
  | _ => []

/-- The next word of a message schedule, from the sixteen before it. -/
def nextWord (window : List UInt32) : UInt32 :=
  let old := window.getD 1 0
  let new := window.getD 14 0
  window.getD 0 0 + (rotate old 7 ^^^ rotate old 18 ^^^ (old >>> 3)) + window.getD 9 0 +
    (rotate new 17 ^^^ rotate new 19 ^^^ (new >>> 10))

/-- The first `n` words of the schedule that begins with the sixteen words of the window. -/
def schedule : Nat → List UInt32 → List UInt32
  | 0, _ => []
  | n + 1, window => window.getD 0 0 :: schedule n (window.tail ++ [nextWord window])

/-- One round, with the sum of its constant and its schedule word. -/
def round (s : State) (k : UInt32) : State :=
  let t1 := s.h + (rotate s.e 6 ^^^ rotate s.e 11 ^^^ rotate s.e 25) +
    ((s.e &&& s.f) ^^^ ((~~~ s.e) &&& s.g)) + k
  let t2 := (rotate s.a 2 ^^^ rotate s.a 13 ^^^ rotate s.a 22) +
    ((s.a &&& s.b) ^^^ (s.a &&& s.c) ^^^ (s.b &&& s.c))
  ⟨t1 + t2, s.a, s.b, s.c, s.d + t1, s.e, s.f, s.g⟩

/-- The state after one block of sixteen words. -/
def compress (s : State) (block : List UInt32) : State :=
  let r := (List.zipWith (· + ·) constants (schedule 64 block)).foldl round s
  ⟨s.a + r.a, s.b + r.b, s.c + r.c, s.d + r.d, s.e + r.e, s.f + r.f, s.g + r.g, s.h + r.h⟩

/-- The state after all blocks of the message. -/
def blocks (s : State) (ws : List UInt32) : State :=
  if ws.length < 16 then s else blocks (compress s (ws.take 16)) (ws.drop 16)
termination_by ws.length
decreasing_by simp only [List.length_drop]; omega

/-- The digest in 64 lower-case hexadecimal digits. -/
def hexDigest (bs : Bytes) : Text :=
  let s := blocks initial (words (padded bs))
  [s.a, s.b, s.c, s.d, s.e, s.f, s.g, s.h].flatMap fun w => Quoted.hex 8 w.toNat

end Sha256

namespace Digest

/-- What is hashed for an object: kind, space, length of the payload in decimal, a zero byte,
payload. -/
def preimage (kind : Text) (payload : Bytes) : Bytes :=
  Utf8.encode (kind ++ .char ' ' :: Text.ofNat payload.length ++ [.char '\x00']) ++ payload

/-- The key of an object. -/
def key (kind : Text) (payload : Bytes) : Text := Sha256.hexDigest (preimage kind payload)

end Digest

end RefSweep
