import PluginHost.Bytes

/-!
# SHA-256

The digest by which a published checksum is compared: the message is padded to blocks of 64 bytes
(`padded`), each block is spread over 64 words (`schedule`) and worked into eight words of state
(`compress`), and the last state is the digest.
-/

namespace PluginHost.Checksum

/-- The words added in the rounds: the first bits of the fractions of the cube roots of the first
primes. -/
def roundConstants : List UInt32 := [
  0x428a2f98, 0x71374491, 0xb5c0fbcf, 0xe9b5dba5, 0x3956c25b, 0x59f111f1, 0x923f82a4, 0xab1c5ed5,
  0xd807aa98, 0x12835b01, 0x243185be, 0x550c7dc3, 0x72be5d74, 0x80deb1fe, 0x9bdc06a7, 0xc19bf174,
  0xe49b69c1, 0xefbe4786, 0x0fc19dc6, 0x240ca1cc, 0x2de92c6f, 0x4a7484aa, 0x5cb0a9dc, 0x76f988da,
  0x983e5152, 0xa831c66d, 0xb00327c8, 0xbf597fc7, 0xc6e00bf3, 0xd5a79147, 0x06ca6351, 0x14292967,
  0x27b70a85, 0x2e1b2138, 0x4d2c6dfc, 0x53380d13, 0x650a7354, 0x766a0abb, 0x81c2c92e, 0x92722c85,
  0xa2bfe8a1, 0xa81a664b, 0xc24b8b70, 0xc76c51a3, 0xd192e819, 0xd6990624, 0xf40e3585, 0x106aa070,
  0x19a4c116, 0x1e376c08, 0x2748774c, 0x34b0bcb5, 0x391c0cb3, 0x4ed8aa4a, 0x5b9cca4f, 0x682e6ff3,
  0x748f82ee, 0x78a5636f, 0x84c87814, 0x8cc70208, 0x90befffa, 0xa4506ceb, 0xbef9a3f7, 0xc67178f2]

/-- The eight words of state. -/
structure DigestState where
  a : UInt32
  b : UInt32
  c : UInt32
  d : UInt32
  e : UInt32
  f : UInt32
  g : UInt32
  h : UInt32
  deriving DecidableEq, Repr

/-- The state before the first block. -/
def DigestState.start : DigestState :=
  ⟨0x6a09e667, 0xbb67ae85, 0x3c6ef372, 0xa54ff53a, 0x510e527f, 0x9b05688c, 0x1f83d9ab, 0x5be0cd19⟩

/-- A word as four bytes, the highest first. -/
def wordBytes (w : UInt32) : Bytes := (littleEndian 4 w.toNat).reverse

/-- The words of bytes, four by four, the highest byte first. -/
def wordsOf : Bytes → List UInt32
  | b0 :: b1 :: b2 :: b3 :: rest =>
      UInt32.ofNat (((b0.toNat * 256 + b1.toNat) * 256 + b2.toNat) * 256 + b3.toNat) :: wordsOf rest
  | _ => []

/-- Turns a word to the right. -/
def rotate (w : UInt32) (n : UInt32) : UInt32 := (w >>> n) ||| (w <<< (32 - n))

/-- The message with a one bit, zeros and its length in bits, in full blocks. -/
def padded (message : Bytes) : Bytes :=
  message ++ 0x80 :: List.replicate ((119 - message.length % 64) % 64) 0
    ++ (littleEndian 8 (8 * message.length)).reverse

/-- Spreads the sixteen words of a block over sixty-four. -/
def schedule (block : List UInt32) : Array UInt32 :=
  (List.range 48).foldl (fun w i =>
    let early := w.getD (i + 1) 0
    let late := w.getD (i + 14) 0
    let s0 := rotate early 7 ^^^ rotate early 18 ^^^ (early >>> 3)
    let s1 := rotate late 17 ^^^ rotate late 19 ^^^ (late >>> 10)
    w.push (w.getD i 0 + s0 + w.getD (i + 9) 0 + s1)) block.toArray

/-- One round. -/
def DigestState.step (s : DigestState) (constant word : UInt32) : DigestState :=
  let s1 := rotate s.e 6 ^^^ rotate s.e 11 ^^^ rotate s.e 25
  let choice := (s.e &&& s.f) ^^^ (~~~s.e &&& s.g)
  let t1 := s.h + s1 + choice + constant + word
  let s0 := rotate s.a 2 ^^^ rotate s.a 13 ^^^ rotate s.a 22
  let majority := (s.a &&& s.b) ^^^ (s.a &&& s.c) ^^^ (s.b &&& s.c)
  ⟨t1 + (s0 + majority), s.a, s.b, s.c, s.d + t1, s.e, s.f, s.g⟩

/-- Works a block into the state. -/
def DigestState.compress (s : DigestState) (block : List UInt32) : DigestState :=
  let r := (roundConstants.zip (schedule block).toList).foldl (fun r (k, w) => r.step k w) s
  ⟨s.a + r.a, s.b + r.b, s.c + r.c, s.d + r.d, s.e + r.e, s.f + r.f, s.g + r.g, s.h + r.h⟩

/-- Works all blocks of sixteen words into the state; the number bounds how many. -/
def DigestState.absorb : Nat → DigestState → List UInt32 → DigestState
  | 0, s, _ => s
  | blocks + 1, s, words => absorb blocks (s.compress (words.take 16)) (words.drop 16)

/-- The digest of a message. -/
def sha256 (message : Bytes) : Bytes :=
  let whole := padded message
  let s := DigestState.start.absorb (whole.length / 64) (wordsOf whole)
  [s.a, s.b, s.c, s.d, s.e, s.f, s.g, s.h].flatMap wordBytes

/-- The digest as it is published. -/
def sha256Text (message : Bytes) : String := hexText (sha256 message)

end PluginHost.Checksum
