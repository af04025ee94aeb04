import UrithiBidz.Indexer.Native

/-!
# Challenges

A client proves that it holds the key of an address by signing a message, a prefix with a nonce
behind it. The requests to the backend (`middleware/auth.ts`) and its sockets
(`ws/socket_server.ts`) read the same things from such a message: the nonce, the time that the
nonce begins with, and whether this time is near enough.

What comes from a client can be any value. `UrithiBidz.Native.prop` reads a field of it, and
`UrithiBidz.Native.template` spells it, which fails for an object that brings its own idea of how
it is spelled.
-/

namespace UrithiBidz

/-! ### Values from a client -/

namespace Native

/-- `x?.name` -/
def prop (x : Native) (name : String) : Native :=
  match x.field name with
  | .ok v => v
  | .error _ => .undefined

mutual

/-- The value can be spelled: no object in it has a field `toString`, which could not be called. -/
def stringable : Native → Bool
  | .object fields => (fields.lookup "toString").isNone
  | .array items => stringableItems items
  | _ => true

/-- All items can be spelled. -/
def stringableItems : List Native → Bool
  | [] => true
  | x :: xs => stringable x && stringableItems xs

end

/-- The value within a template, if it can be spelled. -/
def template (x : Native) : Option String := if x.stringable then some x.text else none

/-- The same key of a map. Two objects are never the same, since each message brings its own. -/
def same : Native → Native → Bool
  | .undefined, .undefined => true
  | .null, .null => true
  | .bool b, .bool b' => b == b'
  | .number n, .number n' => n == n'
  | .bigint n, .bigint n' => n == n'
  | .string s, .string s' => s == s'
  | _, _ => false

/-- Keys that are the same are equal. -/
theorem eq_of_same {x y : Native} (h : x.same y = true) : x = y := by
  unfold same at h
  split at h
  · rfl
  · rfl
  · rw [beq_iff_eq.mp h]
  · rw [beq_iff_eq.mp h]
  · rw [beq_iff_eq.mp h]
  · rw [beq_iff_eq.mp h]
  · exact absurd h Bool.false_ne_true

end Native

/-! ### The message -/

/-- How long a nonce is good for, in milliseconds. -/
def authNonceMaxAgeMs : ℤ := 5 * 60 * 1000

/-- What a message begins with. -/
def authPrefix : List Char := "stellar-urithi-bidz-auth:".toList

/-- The nonce of a message: what is behind the prefix. -/
def nonceOf (message : String) : String :=
  String.ofList (trim (message.toList.drop authPrefix.length))

/-- The time that a nonce begins with, up to the first colon, if there are only digits. -/
def nonceTimestamp (nonce : String) : Option ℤ :=
  let timestampPart := nonce.toList.takeWhile (· ≠ ':')
  match parseInt10 timestampPart with
  | none => none
  | some nonceMs =>
    if timestampPart ≠ [] ∧ timestampPart.all (·.isDigit) then some nonceMs else none

/-- A nonce is not good any more, or not yet: half a minute is granted to a clock that is fast. -/
def NonceExpired (now nonceMs : ℤ) : Prop :=
  authNonceMaxAgeMs < now - nonceMs ∨ now - nonceMs < -30000

instance (now nonceMs : ℤ) : Decidable (NonceExpired now nonceMs) := by
  unfold NonceExpired
  infer_instance

/-- A nonce with a time, and one without. -/
example : nonceTimestamp (nonceOf "stellar-urithi-bidz-auth: 1700000000000:r ") =
    some 1700000000000 ∧ nonceTimestamp (nonceOf "stellar-urithi-bidz-auth:4e-2") = none := by
  decide +kernel

end UrithiBidz
