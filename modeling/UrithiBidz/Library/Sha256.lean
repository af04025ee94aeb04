import UrithiBidz.Library.Bytes

/-!
# SHA-256

The hash function of FIPS 180-4, executable, for evaluating on concrete strings what is
otherwise stated of an arbitrary hash function. Words are natural numbers below `2 ^ 32`,
so that evaluation runs on the arithmetic that the kernel is fast at, and a block is
processed with a window of sixteen words of the message schedule, the oldest first: each
round reads the oldest and appends the next.
-/

namespace Sha256

/-- A word, reduced. -/
def word (n : ℕ) : ℕ := n % 0x100000000

/-- Rotate a word to the right. -/
def rotr (n x : ℕ) : ℕ := word (x >>> n ||| x <<< (32 - n))

/-- The round constants. -/
def roundConstants : List ℕ :=
  [0x428a2f98, 0x71374491, 0xb5c0fbcf, 0xe9b5dba5, 0x3956c25b, 0x59f111f1, 0x923f82a4, 0xab1c5ed5,
    0xd807aa98, 0x12835b01, 0x243185be, 0x550c7dc3, 0x72be5d74, 0x80deb1fe, 0x9bdc06a7, 0xc19bf174,
    0xe49b69c1, 0xefbe4786, 0x0fc19dc6, 0x240ca1cc, 0x2de92c6f, 0x4a7484aa, 0x5cb0a9dc, 0x76f988da,
    0x983e5152, 0xa831c66d, 0xb00327c8, 0xbf597fc7, 0xc6e00bf3, 0xd5a79147, 0x06ca6351, 0x14292967,
    0x27b70a85, 0x2e1b2138, 0x4d2c6dfc, 0x53380d13, 0x650a7354, 0x766a0abb, 0x81c2c92e, 0x92722c85,
    0xa2bfe8a1, 0xa81a664b, 0xc24b8b70, 0xc76c51a3, 0xd192e819, 0xd6990624, 0xf40e3585, 0x106aa070,
    0x19a4c116, 0x1e376c08, 0x2748774c, 0x34b0bcb5, 0x391c0cb3, 0x4ed8aa4a, 0x5b9cca4f, 0x682e6ff3,
    0x748f82ee, 0x78a5636f, 0x84c87814, 0x8cc70208, 0x90befffa, 0xa4506ceb, 0xbef9a3f7, 0xc67178f2]

/-- The chaining value: eight words. -/
structure Chain where
  (a b c d e f g h : ℕ)

/-- The initial chaining value. -/
def Chain.init : Chain :=
  ⟨0x6a09e667, 0xbb67ae85, 0x3c6ef372, 0xa54ff53a, 0x510e527f, 0x9b05688c, 0x1f83d9ab, 0x5be0cd19⟩

/-- Add two chaining values, word by word. -/
def Chain.add (x y : Chain) : Chain :=
  ⟨word (x.a + y.a), word (x.b + y.b), word (x.c + y.c), word (x.d + y.d),
    word (x.e + y.e), word (x.f + y.f), word (x.g + y.g), word (x.h + y.h)⟩

/-- The words of a chaining value. -/
def Chain.words (x : Chain) : List ℕ := [x.a, x.b, x.c, x.d, x.e, x.f, x.g, x.h]

/-- The next word of the message schedule. -/
def nextWord (window : List ℕ) : ℕ :=
  let w₁ := window.getD 1 0
  let w₁₄ := window.getD 14 0
  word (window.getD 0 0 + (rotr 7 w₁ ^^^ rotr 18 w₁ ^^^ w₁ >>> 3) + window.getD 9 0 +
    (rotr 17 w₁₄ ^^^ rotr 19 w₁₄ ^^^ w₁₄ >>> 10))

/-- One round, on the chaining value and the window of the schedule. -/
def round (acc : Chain × List ℕ) (k : ℕ) : Chain × List ℕ :=
  let x := acc.1
  let choice := x.e &&& x.f ^^^ (0xffffffff ^^^ x.e) &&& x.g
  let majority := x.a &&& x.b ^^^ x.a &&& x.c ^^^ x.b &&& x.c
  let t₁ := x.h + (rotr 6 x.e ^^^ rotr 11 x.e ^^^ rotr 25 x.e) + choice + k + acc.2.getD 0 0
  let t₂ := (rotr 2 x.a ^^^ rotr 13 x.a ^^^ rotr 22 x.a) + majority
  (⟨word (t₁ + t₂), x.a, x.b, x.c, word (x.d + t₁), x.e, x.f, x.g⟩,
    acc.2.tail ++ [nextWord acc.2])

/-- Process one block of sixteen words. -/
def compress (x : Chain) (block : List ℕ) : Chain :=
  x.add (roundConstants.foldl round (x, block)).1

/-- The words of a string of bytes, big-endian. -/
def toWords : List UInt8 → List ℕ
  | b₀ :: b₁ :: b₂ :: b₃ :: rest =>
    (((b₀.toNat * 256 + b₁.toNat) * 256 + b₂.toNat) * 256 + b₃.toNat) :: toWords rest
  | _ => []

/-- The message, padded to a multiple of 64 bytes. -/
def pad (message : List UInt8) : List UInt8 :=
  message ++ 0x80 :: List.replicate ((119 - message.length % 64) % 64) 0 ++
    beBytes 8 (8 * message.length)

/-- Process the given number of blocks. -/
def compressBlocks : ℕ → Chain → List ℕ → Chain
  | 0, x, _ => x
  | n + 1, x, ws => compressBlocks n (compress x (ws.take 16)) (ws.drop 16)

/-- The digest as a chaining value. -/
def digest (message : List UInt8) : Chain :=
  compressBlocks ((pad message).length / 64) Chain.init (toWords (pad message))

/-- **SHA-256.** -/
def hash (message : List UInt8) : BytesN 32 :=
  ⟨(digest message).words.flatMap fun w => beBytes 4 w, by simp [Chain.words]⟩

/-- The digest of the string `abc`. -/
example : (hash [0x61, 0x62, 0x63]).bytes =
    [0xba, 0x78, 0x16, 0xbf, 0x8f, 0x01, 0xcf, 0xea, 0x41, 0x41, 0x40, 0xde, 0x5d, 0xae, 0x22, 0x23,
      0xb0, 0x03, 0x61, 0xa3, 0x96, 0x17, 0x7a, 0x9c, 0xb4, 0x10, 0xff, 0x61, 0xf2, 0x00, 0x15,
      0xad] := by
  decide +kernel

end Sha256
