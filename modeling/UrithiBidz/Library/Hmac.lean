import UrithiBidz.Library.Bytes

/-!
# HMAC

The keyed hash of RFC 2104 over an arbitrary hash function: the key is padded with
zeros to the block size (a longer one is hashed first), and the text is hashed twice,
under the padded key masked with one byte and then with another.

Nothing is assumed of the hash function. What a collision-resistant one gives is
stated for the strings that are actually hashed: `Hmac.hmac_inj` says that two texts
authenticated alike under one key are equal, as long as the hash function keeps apart
the two inner strings and the two outer ones.
-/

namespace Hmac

/-- The byte that masks the key of the inner hash. -/
def ipad : UInt8 := 0x36

/-- The byte that masks the key of the outer hash. -/
def opad : UInt8 := 0x5c

section

variable (hash : List UInt8 → List UInt8) (blockSize : ℕ) (key : List UInt8)

/-- The key, brought to the block size. -/
def blockKey : List UInt8 :=
  let k := if key.length ≤ blockSize then key else hash key
  k ++ List.replicate (blockSize - k.length) 0

/-- What the inner hash is taken of. -/
def inner (text : List UInt8) : List UInt8 :=
  (blockKey hash blockSize key).map (· ^^^ ipad) ++ text

/-- What the outer hash is taken of. -/
def outer (text : List UInt8) : List UInt8 :=
  (blockKey hash blockSize key).map (· ^^^ opad) ++ hash (inner hash blockSize key text)

/-- **HMAC**, for a hash function and its block size. -/
def hmac (text : List UInt8) : List UInt8 := hash (outer hash blockSize key text)

variable {hash blockSize key}

theorem blockKey_of_le (h : key.length ≤ blockSize) :
    blockKey hash blockSize key = key ++ List.replicate (blockSize - key.length) 0 := by
  simp [blockKey, h]

theorem inner_injective : Function.Injective (inner hash blockSize key) := fun _ _ h =>
  List.append_cancel_left h

/-- **Texts authenticated alike are equal**, if the hash function keeps apart the
strings it is applied to. -/
theorem hmac_inj {x y : List UInt8}
    (hin : hash (inner hash blockSize key x) = hash (inner hash blockSize key y) →
      inner hash blockSize key x = inner hash blockSize key y)
    (hout : hash (outer hash blockSize key x) = hash (outer hash blockSize key y) →
      outer hash blockSize key x = outer hash blockSize key y)
    (h : hmac hash blockSize key x = hmac hash blockSize key y) : x = y := by
  have hhash : hash (inner hash blockSize key x) = hash (inner hash blockSize key y) :=
    List.append_cancel_left (hout h)
  exact inner_injective (hin hhash)

end

end Hmac
