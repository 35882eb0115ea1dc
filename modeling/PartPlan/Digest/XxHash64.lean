/-
The 64-bit xxHash with seed zero. Messages of thirty-two bytes or more go
through four accumulators a stripe at a time; the rest is mixed in by
eights, a four and single bytes, and a final avalanche spreads every bit.
-/
import PartPlan.Digest.Hex

namespace PartPlan.Digest.XxHash64

/-- One of the five primes that words are multiplied by or that are added to
them. -/
def prime1 : UInt64 := 0x9E3779B185EBCA87

@[inherit_doc prime1]
def prime2 : UInt64 := 0xC2B2AE3D27D4EB4F

@[inherit_doc prime1]
def prime3 : UInt64 := 0x165667B19E3779F9

@[inherit_doc prime1]
def prime4 : UInt64 := 0x85EBCA77C2B2AE63

@[inherit_doc prime1]
def prime5 : UInt64 := 0x27D4EB2F165667C5

/-- A word turned left by a number of bits between 1 and 63. -/
def turnLeft (x : UInt64) (n : UInt64) : UInt64 := (x <<< n) ||| (x >>> (64 - n))

/-- One word mixed into one accumulator. -/
def mix (acc word : UInt64) : UInt64 := turnLeft (acc + word * prime2) 31 * prime1

/-- An accumulator folded into the hash. -/
def merge (hash acc : UInt64) : UInt64 := (hash ^^^ mix 0 acc) * prime1 + prime4

/-- The word in the first bytes, least significant byte first. -/
def wordOf (bytes : List UInt8) : UInt64 := UInt64.ofNat (littleEndian bytes)

/-- The four accumulators. -/
structure Lanes where
  a : UInt64
  b : UInt64
  c : UInt64
  d : UInt64
  deriving DecidableEq, Repr

/-- The accumulators before the first stripe. -/
def Lanes.start : Lanes := ⟨prime1 + prime2, prime2, 0, 0 - prime1⟩

/-- A stripe of thirty-two bytes mixed in, eight bytes to a lane. -/
def Lanes.stripe (l : Lanes) (bytes : List UInt8) : Lanes :=
  ⟨mix l.a (wordOf (bytes.take 8)), mix l.b (wordOf ((bytes.drop 8).take 8)),
    mix l.c (wordOf ((bytes.drop 16).take 8)), mix l.d (wordOf ((bytes.drop 24).take 8))⟩

/-- A number of stripes mixed in, and the bytes after them. -/
def Lanes.stripes : Nat → Lanes → List UInt8 → Lanes × List UInt8
  | 0, l, bytes => (l, bytes)
  | n + 1, l, bytes => Lanes.stripes n (l.stripe (bytes.take 32)) (bytes.drop 32)

/-- The accumulators joined into one word. -/
def Lanes.join (l : Lanes) : UInt64 :=
  let sum := turnLeft l.a 1 + turnLeft l.b 7 + turnLeft l.c 12 + turnLeft l.d 18
  merge (merge (merge (merge sum l.a) l.b) l.c) l.d

/-- Single bytes mixed in. -/
def mixBytes (hash : UInt64) (bytes : List UInt8) : UInt64 :=
  bytes.foldl (fun h b => turnLeft (h ^^^ (b.toUInt64 * prime5)) 11 * prime1) hash

/-- Four bytes mixed in if there are as many, then single bytes. -/
def mixFour (hash : UInt64) (bytes : List UInt8) : UInt64 :=
  if 4 ≤ bytes.length then
    mixBytes (turnLeft (hash ^^^ (wordOf (bytes.take 4) * prime1)) 23 * prime2 + prime3)
      (bytes.drop 4)
  else mixBytes hash bytes

/-- A number of eights mixed in, then what is left. -/
def mixEights : Nat → UInt64 → List UInt8 → UInt64
  | 0, hash, bytes => mixFour hash bytes
  | n + 1, hash, bytes =>
    mixEights n (turnLeft (hash ^^^ mix 0 (wordOf (bytes.take 8))) 27 * prime1 + prime4)
      (bytes.drop 8)

/-- The final spreading of bits. -/
def avalanche (hash : UInt64) : UInt64 :=
  let x := (hash ^^^ (hash >>> 33)) * prime2
  let y := (x ^^^ (x >>> 29)) * prime3
  y ^^^ (y >>> 32)

end PartPlan.Digest.XxHash64

namespace PartPlan.Digest

open XxHash64 in
/-- The 64-bit xxHash of a message, with seed zero. -/
def xxHash64 (message : List UInt8) : UInt64 :=
  let size := message.length
  let (first, rest) :=
    if 32 ≤ size then
      let (lanes, rest) := Lanes.start.stripes (size / 32) message
      (lanes.join, rest)
    else (prime5, message)
  avalanche (mixEights (rest.length / 8) (first + UInt64.ofNat size) rest)

/-- The sixteen hexadecimal digits of the xxHash of a message. -/
def xxHash64Hex (message : List UInt8) : String := hex (bigEndian 8 (xxHash64 message).toNat)

end PartPlan.Digest
