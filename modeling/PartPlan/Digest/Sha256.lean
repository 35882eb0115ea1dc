/-
The SHA-256 digest. The message is padded to whole blocks of sixty-four
bytes, and each block is mixed into eight words of state by sixty-four
rounds.
-/
import PartPlan.Digest.Hex

namespace PartPlan.Digest.Sha256

/-- The round constants: fractional parts of the cube roots of the first
sixty-four primes. -/
def roundConstants : List UInt32 := [
  0x428a2f98, 0x71374491, 0xb5c0fbcf, 0xe9b5dba5, 0x3956c25b, 0x59f111f1, 0x923f82a4, 0xab1c5ed5,
  0xd807aa98, 0x12835b01, 0x243185be, 0x550c7dc3, 0x72be5d74, 0x80deb1fe, 0x9bdc06a7, 0xc19bf174,
  0xe49b69c1, 0xefbe4786, 0x0fc19dc6, 0x240ca1cc, 0x2de92c6f, 0x4a7484aa, 0x5cb0a9dc, 0x76f988da,
  0x983e5152, 0xa831c66d, 0xb00327c8, 0xbf597fc7, 0xc6e00bf3, 0xd5a79147, 0x06ca6351, 0x14292967,
  0x27b70a85, 0x2e1b2138, 0x4d2c6dfc, 0x53380d13, 0x650a7354, 0x766a0abb, 0x81c2c92e, 0x92722c85,
  0xa2bfe8a1, 0xa81a664b, 0xc24b8b70, 0xc76c51a3, 0xd192e819, 0xd6990624, 0xf40e3585, 0x106aa070,
  0x19a4c116, 0x1e376c08, 0x2748774c, 0x34b0bcb5, 0x391c0cb3, 0x4ed8aa4a, 0x5b9cca4f, 0x682e6ff3,
  0x748f82ee, 0x78a5636f, 0x84c87814, 0x8cc70208, 0x90befffa, 0xa4506ceb, 0xbef9a3f7, 0xc67178f2]

/-- The eight words of chaining state. -/
structure State where
  a : UInt32
  b : UInt32
  c : UInt32
  d : UInt32
  e : UInt32
  f : UInt32
  g : UInt32
  h : UInt32
  deriving DecidableEq, Repr

/-- The initial state: fractional parts of the square roots of the first
eight primes. -/
def State.start : State :=
  ⟨0x6a09e667, 0xbb67ae85, 0x3c6ef372, 0xa54ff53a, 0x510e527f, 0x9b05688c, 0x1f83d9ab, 0x5be0cd19⟩

/-- A word turned right by a number of bits between 1 and 31. -/
def turnRight (x : UInt32) (n : UInt32) : UInt32 := (x >>> n) ||| (x <<< (32 - n))

/-- The lower-case sigma functions, which extend the message schedule. -/
def sigma0 (x : UInt32) : UInt32 := turnRight x 7 ^^^ turnRight x 18 ^^^ (x >>> 3)

@[inherit_doc sigma0]
def sigma1 (x : UInt32) : UInt32 := turnRight x 17 ^^^ turnRight x 19 ^^^ (x >>> 10)

/-- The words of a block, four bytes each, most significant byte first. -/
def words : List UInt8 → List UInt32
  | a :: b :: c :: d :: rest =>
    ((a.toUInt32 <<< 24) ||| (b.toUInt32 <<< 16) ||| (c.toUInt32 <<< 8) ||| d.toUInt32)
      :: words rest
  | _ => []

/-- The message schedule from here on. A window holds the last sixteen words
and moves by one word a round. -/
def schedule : Nat → List UInt32 → List UInt32
  | 0, _ => []
  | n + 1, window =>
    let word (i : Nat) := window.getD i 0
    let next := sigma1 (word 14) + word 9 + sigma0 (word 1) + word 0
    word 0 :: schedule n (window.drop 1 ++ [next])

/-- One round with its constant and its schedule word. -/
def State.round (s : State) (k w : UInt32) : State :=
  let sum1 := turnRight s.e 6 ^^^ turnRight s.e 11 ^^^ turnRight s.e 25
  let choice := (s.e &&& s.f) ^^^ (~~~s.e &&& s.g)
  let t1 := s.h + sum1 + choice + k + w
  let sum0 := turnRight s.a 2 ^^^ turnRight s.a 13 ^^^ turnRight s.a 22
  let majority := (s.a &&& s.b) ^^^ (s.a &&& s.c) ^^^ (s.b &&& s.c)
  ⟨t1 + (sum0 + majority), s.a, s.b, s.c, s.d + t1, s.e, s.f, s.g⟩

/-- A block of sixty-four bytes mixed into the state. -/
def State.absorb (s : State) (block : List UInt8) : State :=
  let r := (roundConstants.zip (schedule 64 (words block))).foldl
    (fun t (k, w) => t.round k w) s
  ⟨s.a + r.a, s.b + r.b, s.c + r.c, s.d + r.d, s.e + r.e, s.f + r.f, s.g + r.g, s.h + r.h⟩

/-- The message with the delimiter bit, enough zeros to end on a block, and
its length in bits. -/
def padded (message : List UInt8) : List UInt8 :=
  let zeros := (119 - message.length % 64) % 64
  message ++ 0x80 :: (List.replicate zeros 0 ++ bigEndian 8 (8 * message.length))

/-- Whole blocks mixed in one after another. -/
def State.absorbAll : Nat → State → List UInt8 → State
  | 0, s, _ => s
  | n + 1, s, bytes => State.absorbAll n (s.absorb (bytes.take 64)) (bytes.drop 64)

/-- The bytes of the state, most significant first. -/
def State.bytes (s : State) : List UInt8 :=
  [s.a, s.b, s.c, s.d, s.e, s.f, s.g, s.h].flatMap fun w => bigEndian 4 w.toNat

end PartPlan.Digest.Sha256

namespace PartPlan.Digest

/-- The SHA-256 digest of a message, thirty-two bytes. -/
def sha256 (message : List UInt8) : List UInt8 :=
  let bytes := Sha256.padded message
  (Sha256.State.absorbAll (bytes.length / 64) Sha256.State.start bytes).bytes

/-- The sixty-four hexadecimal digits of the SHA-256 digest of a message. -/
def sha256Hex (message : List UInt8) : String := hex (sha256 message)

end PartPlan.Digest
