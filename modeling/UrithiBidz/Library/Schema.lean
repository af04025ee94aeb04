import Mathlib.Data.List.Nodup
import Mathlib.Data.Rat.Defs

/-!
# Schemas

What comes in with a request is any value at all, and is validated against a schema before
it is used. The values are those of JSON, `Json`, with numbers as a double may hold them and
`undefined` for what is missing. A schema is a term of `Schema`: texts, numbers, some words,
objects of fields, each of which may be optional, refined by a predicate with a message,
transformed, or piped into another schema.

The validator itself is a parameter, a function `parse` from schemas and values to an
`Schema.Outcome`. What is relied on is when it succeeds, and with which value
(`Schema.Documented`); what it finds fault with is its own business. Objects are stripped of
the fields that their schema does not know. `Schema.reference` is a validator that meets
this (`Schema.documented_reference`).
-/

/-! ### Values -/

/-- A number that is not a nothing: a finite one, or one that is too large. -/
inductive JsNumber
  | finite (q : ℚ)
  | infinite (negative : Bool)
  deriving DecidableEq

namespace JsNumber

/-- The number is integral. -/
def isInteger : JsNumber → Bool
  | .finite q => q.den = 1
  | .infinite _ => false

/-- The number is at least some integer. -/
def atLeast (n : ℤ) : JsNumber → Bool
  | .finite q => n ≤ q
  | .infinite negative => !negative

/-- The number is at most some integer. -/
def atMost (n : ℤ) : JsNumber → Bool
  | .finite q => q ≤ n
  | .infinite negative => negative

/-- One number is greater than another. -/
def greater : JsNumber → JsNumber → Bool
  | .finite q, .finite r => r < q
  | .finite _, .infinite negative => negative
  | .infinite negative, .finite _ => !negative
  | .infinite negative, .infinite negative' => !negative && negative'

theorem exists_int {x : JsNumber} (h : x.isInteger = true) : ∃ n : ℤ, x = .finite n := by
  cases x with
  | finite q => exact ⟨q.num, congrArg _ (Rat.den_eq_one_iff q |>.mp (of_decide_eq_true h)).symm⟩
  | infinite => cases h

end JsNumber

/-- A value. -/
inductive Json
  | undefined
  | null
  | bool (b : Bool)
  | number (x : JsNumber)
  | string (s : String)
  | array (items : List Json)
  | object (fields : List (String × Json))

namespace Json

/-- A field of an object, or what is read where there is none. -/
def prop (v : Json) (name : String) : Json :=
  match v with
  | .object fields => (fields.lookup name).getD .undefined
  | _ => .undefined

/-- The value counts as true. -/
def truthy : Json → Bool
  | .undefined => false
  | .null => false
  | .bool b => b
  | .number x => x ≠ .finite 0
  | .string s => s ≠ ""
  | .array _ => true
  | .object _ => true

/-- `v || v'` -/
def orElse (v v' : Json) : Json := if v.truthy then v else v'

/-- A predicate of texts. -/
def onText (p : String → Bool) : Json → Bool
  | .string s => p s
  | _ => false

/-- A predicate of numbers. -/
def onNumber (p : JsNumber → Bool) : Json → Bool
  | .number x => p x
  | _ => false

/-- An integer as a value. -/
def int (n : ℤ) : Json := .number (.finite n)

/-- The integer that a value is, if it is one. -/
def toInt : Json → Option ℤ
  | .number (.finite q) => if q.den = 1 then some q.num else none
  | _ => none

theorem onText_string (p : String → Bool) (s : String) : onText p (.string s) = p s := rfl

theorem toInt_int (n : ℤ) : (int n).toInt = some n := by
  rw [int, toInt, if_pos (Rat.den_intCast n), Rat.num_intCast]

end Json

/-! ### Schemas -/

/-- A schema. Where a message may be given, it may be left to the validator. -/
inductive Schema
  | string
  | number
  | oneOf (values : List String) (message : Option String)
  | optional (inner : Schema)
  | refine (inner : Schema) (p : Json → Bool) (message : Option String) (path : List String)
  | transform (inner : Schema) (f : Json → Json)
  | pipe (inner outer : Schema)
  | object (fields : List (String × Schema))

namespace Schema

/-- What the validator finds fault with, and where. -/
structure Issue where
  path : List String
  message : String

/-- What comes of a validation: a value, issues, or an exception in a predicate. -/
inductive Outcome
  | parsed (value : Json)
  | invalid (issues : List Issue)
  | threw (error : String)

/-- A refinement of texts. -/
def text (s : Schema) (p : String → Bool) (message : Option String) : Schema :=
  s.refine (Json.onText p) message []

/-- A refinement of numbers. -/
def check (s : Schema) (p : JsNumber → Bool) (message : Option String) : Schema :=
  s.refine (Json.onNumber p) message []

/-- **The documented behaviour of a validator**, as far as it succeeds. -/
structure Documented (parse : Schema → Json → Outcome) : Prop where
  /-- A text is any text. -/
  string : ∀ v w, parse .string v = .parsed w ↔ (∃ s, v = .string s) ∧ w = v
  /-- A number is any number. -/
  number : ∀ v w, parse .number v = .parsed w ↔ (∃ x, v = .number x) ∧ w = v
  /-- One of some words. -/
  oneOf : ∀ values message v w, parse (.oneOf values message) v = .parsed w ↔
    (∃ s ∈ values, v = .string s) ∧ w = v
  /-- What is missing is not looked at. -/
  optional : ∀ s v w, parse (.optional s) v = .parsed w ↔
    (v = .undefined ∧ w = .undefined) ∨ (v ≠ .undefined ∧ parse s v = .parsed w)
  /-- The predicate has to hold of what has been parsed. -/
  refine : ∀ s p message path v w, parse (.refine s p message path) v = .parsed w ↔
    parse s v = .parsed w ∧ p w = true
  /-- What has been parsed is transformed. -/
  transform : ∀ s f v w, parse (.transform s f) v = .parsed w ↔
    ∃ u, parse s v = .parsed u ∧ w = f u
  /-- What has been parsed is parsed again. -/
  pipe : ∀ s s' v w, parse (.pipe s s') v = .parsed w ↔
    ∃ u, parse s v = .parsed u ∧ parse s' u = .parsed w
  /-- All fields are parsed, and others stripped. -/
  object_parsed : ∀ fields v w, (fields.map Prod.fst).Nodup →
    parse (.object fields) v = .parsed w →
      (∃ given, v = .object given) ∧
        (∀ name s, (name, s) ∈ fields → parse s (v.prop name) = .parsed (w.prop name)) ∧
          ∀ name, name ∉ fields.map Prod.fst → w.prop name = .undefined
  /-- An object is parsed if all fields are. -/
  object_accepts : ∀ fields given,
    (∀ name s, (name, s) ∈ fields → ∃ x, parse s ((Json.object given).prop name) = .parsed x) →
      ∃ w, parse (.object fields) (.object given) = .parsed w

namespace Documented

variable {parse : Schema → Json → Outcome} {s : Schema} {v w : Json} {message : Option String}

theorem text_iff (h : Documented parse) {p : String → Bool} :
    parse (s.text p message) v = .parsed w ↔
      parse s v = .parsed w ∧ Json.onText p w = true := h.refine _ _ _ _ _ _

theorem check_iff (h : Documented parse) {p : JsNumber → Bool} :
    parse (s.check p message) v = .parsed w ↔
      parse s v = .parsed w ∧ Json.onNumber p w = true := h.refine _ _ _ _ _ _

end Documented

/-! ### A validator -/

mutual

/-- Parse a value, if it is valid. -/
def run : Schema → Json → Option Json
  | .string, v => if v.onText (fun _ => true) then some v else none
  | .number, v => if v.onNumber (fun _ => true) then some v else none
  | .oneOf values _, v => if v.onText (fun s => s ∈ values) then some v else none
  | .optional inner, v => match v with
    | .undefined => some .undefined
    | _ => run inner v
  | .refine inner p _ _, v => (run inner v).filter p
  | .transform inner f, v => (run inner v).map f
  | .pipe inner outer, v => (run inner v).bind (run outer)
  | .object fields, v => match v with
    | .object _ => (runFields fields v).map Json.object
    | _ => none

/-- Parse the fields of an object. -/
def runFields : List (String × Schema) → Json → Option (List (String × Json))
  | [], _ => some []
  | (name, s) :: fields, v =>
    (run s (v.prop name)).bind fun x => (runFields fields v).map fun xs => (name, x) :: xs

end

/-- The validator that says no more than that a value is not valid. -/
def reference (s : Schema) (v : Json) : Outcome :=
  match run s v with
  | some w => .parsed w
  | none => .invalid []

theorem reference_eq_parsed_iff {s : Schema} {v w : Json} :
    reference s v = .parsed w ↔ run s v = some w := by
  unfold reference
  rcases run s v with _ | u
  · exact iff_of_false nofun nofun
  · rw [Outcome.parsed.injEq, Option.some.injEq]

theorem run_onText {p : String → Bool} {v w : Json} :
    (if v.onText p then some v else none) = some w ↔ (∃ s, p s = true ∧ v = .string s) ∧ w = v := by
  rcases v with _ | _ | _ | _ | s | _ | _
  case string =>
    rw [Json.onText_string]
    split
    · next hp => exact ⟨fun h => ⟨⟨s, hp, rfl⟩, (Option.some.inj h).symm⟩, fun h => by rw [h.2]⟩
    · next hp =>
      refine iff_of_false nofun ?_
      rintro ⟨⟨s', hp', hs⟩, -⟩
      rw [← Json.string.inj hs] at hp'
      exact hp hp'
  all_goals exact iff_of_false nofun fun h => by simpa using h.1

theorem run_onNumber {v w : Json} : (if v.onNumber (fun _ => true) then some v else none) = some w ↔
    (∃ x, v = .number x) ∧ w = v := by
  rcases v with _ | _ | _ | x | _ | _ | _
  case number => exact ⟨fun h => ⟨⟨x, rfl⟩, (Option.some.inj h).symm⟩, fun h => by rw [h.2]; rfl⟩
  all_goals exact iff_of_false nofun fun h => by simpa using h.1

/-- The fields that are parsed are those of the schema, each by its own. -/
theorem runFields_eq_some {v : Json} : ∀ {fields : List (String × Schema)}
    {xs : List (String × Json)}, (fields.map Prod.fst).Nodup → runFields fields v = some xs →
      (∀ name s, (name, s) ∈ fields →
        run s (v.prop name) = some ((xs.lookup name).getD .undefined)) ∧
        ∀ name, name ∉ fields.map Prod.fst → xs.lookup name = none
  | [], xs, _, h => by
    cases h
    exact ⟨fun _ _ hmem => absurd hmem List.not_mem_nil, fun _ _ => rfl⟩
  | (name, s) :: fields, xs, hnodup, h => by
    rw [List.map_cons, List.nodup_cons] at hnodup
    obtain ⟨x, hx, hrest⟩ := Option.bind_eq_some_iff.mp h
    obtain ⟨ys, hys, rfl⟩ := Option.map_eq_some_iff.mp hrest
    obtain ⟨hparsed, hothers⟩ := runFields_eq_some hnodup.2 hys
    constructor
    · intro name' s' hmem
      rcases List.mem_cons.mp hmem with heq | hlater
      · obtain ⟨rfl, rfl⟩ := Prod.mk.inj heq
        rw [List.lookup_cons_self]
        exact hx
      · have hne : name' ≠ name := by
          rintro rfl
          exact hnodup.1 (List.mem_map.mpr ⟨_, hlater, rfl⟩)
        rw [List.lookup_cons, beq_false_of_ne hne]
        exact hparsed name' s' hlater
    · intro name' hno
      rw [List.map_cons, List.mem_cons, not_or] at hno
      rw [List.lookup_cons, beq_false_of_ne hno.1]
      exact hothers name' hno.2

theorem exists_runFields {v : Json} : ∀ {fields : List (String × Schema)},
    (∀ name s, (name, s) ∈ fields → ∃ x, run s (v.prop name) = some x) →
      ∃ xs, runFields fields v = some xs
  | [], _ => ⟨[], rfl⟩
  | (name, s) :: fields, h => by
    obtain ⟨x, hx⟩ := h name s List.mem_cons_self
    obtain ⟨xs, hxs⟩ := exists_runFields fun name' s' hmem =>
      h name' s' (List.mem_cons_of_mem _ hmem)
    exact ⟨(name, x) :: xs, by rw [runFields, hx, hxs]; rfl⟩

/-- **It behaves as documented.** -/
theorem documented_reference : Documented reference where
  string v w := by
    rw [reference_eq_parsed_iff, run, run_onText]
    simp
  number v w := by rw [reference_eq_parsed_iff, run, run_onNumber]
  oneOf values message v w := by
    rw [reference_eq_parsed_iff, run, run_onText]
    simp
  optional s v w := by
    rw [reference_eq_parsed_iff, reference_eq_parsed_iff]
    rcases v with _ | _ | _ | _ | _ | _ | _
    -- the one value that an optional schema takes by itself
    case undefined =>
      rw [run, Option.some.injEq]
      exact ⟨fun h => Or.inl ⟨rfl, h.symm⟩, fun h => by
        rcases h with ⟨-, rfl⟩ | ⟨hne, -⟩
        · rfl
        · exact absurd rfl hne⟩
    all_goals
      change run s _ = some w ↔ _
      exact ⟨fun h => Or.inr ⟨nofun, h⟩, fun h => by
        rcases h with ⟨heq, -⟩ | ⟨-, h⟩
        · cases heq
        · exact h⟩
  refine s p message path v w := by
    rw [reference_eq_parsed_iff, reference_eq_parsed_iff, run, Option.filter_eq_some_iff]
  transform s f v w := by
    simp only [reference_eq_parsed_iff, run, Option.map_eq_some_iff]
    exact exists_congr fun u => and_congr_right fun _ => eq_comm
  pipe s s' v w := by
    simp only [reference_eq_parsed_iff, run, Option.bind_eq_some_iff]
  object_parsed fields v w hnodup h := by
    rw [reference_eq_parsed_iff] at h
    rcases v with _ | _ | _ | _ | _ | _ | given
    case object =>
      rw [run] at h
      obtain ⟨xs, hxs, rfl⟩ := Option.map_eq_some_iff.mp h
      obtain ⟨hparsed, hothers⟩ := runFields_eq_some hnodup hxs
      refine ⟨⟨given, rfl⟩, fun name s hmem => ?_, fun name hno => ?_⟩
      · rw [reference_eq_parsed_iff]
        exact hparsed name s hmem
      · rw [Json.prop, hothers name hno]
        rfl
    all_goals cases h
  object_accepts fields given h := by
    obtain ⟨xs, hxs⟩ := exists_runFields fun name s hmem => by
      obtain ⟨x, hx⟩ := h name s hmem
      exact ⟨x, reference_eq_parsed_iff.mp hx⟩
    exact ⟨.object xs, by rw [reference_eq_parsed_iff, run, hxs]; rfl⟩

end Schema
