-- SUMMARY: What the adapters rely on from encoding/json: JSON values, byte texts, and how Unmarshal decodes object members into struct fields.
import Mathlib.Data.List.Infix
import Mathlib.Algebra.Group.Int

/-!
# JSON as `encoding/json` reads and writes it

The adapters turn Go values into request bodies with `json.Marshal` and read bodies back
with `json.Unmarshal`. The model works one level above the bytes: a body is the JSON value
its text denotes, and `json.Marshal` followed by parsing the text gives that value back.
A byte slice that `encoding/json` reads is a `JsonText`: nil, or a text that parses to a
value, or a text that does not, with the syntax error it gets.

`json.Unmarshal` into a struct goes through the members of an object in order. A member
whose name matches a field's tag up to case folding is decoded into that field, so a later
member for the same field wins; a value of the wrong kind is a type error, which is kept
(the first one) while decoding goes on; `null` leaves a scalar field as it is. A field of a
type the model does not look into is decoded by a parameter that says only which type error
a member gets (`opaqueField`); a `json.RawMessage` field takes any value.
-/

namespace PrebidService.Go

/-- A JSON value. A number is its literal text. Object members keep their order and may
repeat a name. -/
inductive Json where
  | null
  | bool (b : Bool)
  | number (lit : String)
  | string (s : String)
  | array (elems : List Json)
  | object (members : List (String × Json))
  deriving Repr

/-- The word `encoding/json` uses for a value's kind in an `UnmarshalTypeError`. -/
def Json.kind : Json → String
  | .null => "null"
  | .bool _ => "bool"
  | .number _ => "number"
  | .string _ => "string"
  | .array _ => "array"
  | .object _ => "object"

/-- A byte slice as `encoding/json` reads it: nil, or a text that is valid JSON (the value
it denotes) or is not (the syntax error reported for it). -/
abbrev JsonText := Option (Except String Json)

/-- The value `json.Unmarshal` decodes from a text; an empty text is a syntax error. -/
def JsonText.parse : JsonText → Except String Json
  | none => .error "unexpected end of JSON input"
  | some t => t

/-- A character of a member's name as `encoding/json` folds it to compare the name with a
lower-case ASCII tag: ASCII upper case to lower case, and the two characters outside ASCII
whose case folding reaches an ASCII letter, the long s (U+017F) to `s` and the Kelvin sign
(U+212A) to `k`. -/
def foldChar (c : Char) : Char :=
  if c = Char.ofNat 0x17F then 's' else if c = Char.ofNat 0x212A then 'k' else c.toLower

/-- Whether the object member named `key` selects the field tagged `tag` (a lower-case ASCII
tag): `encoding/json` matches names up to case folding. -/
def keyMatches (tag key : String) : Bool :=
  key.toList.map foldChar == tag.toList

example : keyMatches "skadn_supported" "SKADN_\u017Fupported" = true := by decide

/-- `float64(x) == 0` for the IEEE bits of `x`: true for `+0` and `-0` only. -/
def Float64.isZero (bits : BitVec 64) : Bool :=
  bits == 0 || bits == 0x8000000000000000#64

/-- `strconv.ParseInt(lit, 10, 64)` on a JSON number literal: an optional `-` and decimal
digits, in the range of `int64`. -/
def parseInt64 (lit : String) : Option Int :=
  let digits (cs : List Char) : Option Nat :=
    if cs.isEmpty then none
    else cs.foldlM (fun n c => if c.isDigit then some (10 * n + (c.toNat - '0'.toNat)) else none) 0
  let n? := match lit.toList with
    | '-' :: cs => (digits cs).map fun n => -(n : Int)
    | cs => (digits cs).map fun n => (n : Int)
  n?.filter fun n => -2 ^ 63 ≤ n && n < 2 ^ 63

/-- The text of the `UnmarshalTypeError` for a value described by `value` met at the
struct field `field` of Go type `type`. -/
def fieldTypeError (value field type : String) : String :=
  "json: cannot unmarshal " ++ value ++ " into Go struct field " ++ field ++ " of type " ++ type

/-- The text of the `UnmarshalTypeError` for a value of kind `value` decoded into a whole
value of Go type `type`. -/
def valueTypeError (value type : String) : String :=
  "json: cannot unmarshal " ++ value ++ " into Go value of type " ++ type

@[simp] theorem Except.bind_eq_ok {ε α β : Type} {x : Except ε α} {f : α → Except ε β}
    {b : β} : x >>= f = .ok b ↔ ∃ a, x = .ok a ∧ f a = .ok b := by
  cases x <;> simp [bind, Except.bind]

@[simp] theorem Except.mapError_eq_ok {ε ε' α : Type} {x : Except ε α} {f : ε → ε'} {a : α} :
    x.mapError f = .ok a ↔ x = .ok a := by
  cases x <;> simp [Except.mapError]

-- ----------------------------------------------------------------------------
-- Decoding object members into struct fields
-- ----------------------------------------------------------------------------

section

variable {S : Type} (field : String → Option (Json → S → Except String S))

/-- One member decoded into the struct `acc.1`: `field` gives the decoder of the field the
member's name selects, if any. A type error leaves the field as it was and is kept in
`acc.2` unless an earlier one is there. -/
def decodeMember (acc : S × Option String) (m : String × Json) : S × Option String :=
  match field m.1 with
  | none => acc
  | some dec =>
    match dec m.2 acc.1 with
    | .ok s => (s, acc.2)
    | .error e => (acc.1, acc.2 <|> some e)

/-- The members of an object decoded in order. -/
def decodeMembers (acc : S × Option String) (ms : List (String × Json)) : S × Option String :=
  ms.foldl (decodeMember field) acc

/-- `json.Unmarshal` of a value into a struct holding `zero` (the zero value, for a fresh one):
`null` leaves it as it is, an object is decoded member by member, and a value of another kind
is the type error `mismatch` gives for that kind. -/
def unmarshalStruct (mismatch : String → String) (zero : S) : Json → Except String S
  | .null => .ok zero
  | .object ms =>
    match decodeMembers field (zero, none) ms with
    | (s, none) => .ok s
    | (_, some e) => .error e
  | j => .error (mismatch j.kind)

theorem decodeMembers_append (acc : S × Option String) (ms₁ ms₂ : List (String × Json)) :
    decodeMembers field acc (ms₁ ++ ms₂) =
      decodeMembers field (decodeMembers field acc ms₁) ms₂ :=
  List.foldl_append _ _ _ _

@[simp] theorem decodeMembers_nil (acc : S × Option String) :
    decodeMembers field acc [] = acc := rfl

@[simp] theorem decodeMembers_cons (acc : S × Option String) (m : String × Json)
    (ms : List (String × Json)) :
    decodeMembers field acc (m :: ms) = decodeMembers field (decodeMember field acc m) ms :=
  rfl

/-- Decoding takes the member `m` without a type error and without changing the struct: it
selects no field, or one whose decoder accepts its value and leaves the struct as it is. -/
def Inert (m : String × Json) : Prop :=
  ∀ dec, field m.1 = some dec → ∀ s, dec m.2 s = .ok s

/-- Members that decoding takes as they are change nothing. -/
theorem decodeMembers_of_forall_inert {ms : List (String × Json)} (h : ∀ m ∈ ms, Inert field m)
    (acc : S × Option String) : decodeMembers field acc ms = acc := by
  induction ms generalizing acc with
  | nil => rfl
  | cons m ms ih =>
    rw [decodeMembers_cons, ih fun m' hm' => h m' (.tail _ hm')]
    unfold decodeMember
    cases hf : field m.1 with
    | none => rfl
    | some dec => simp [h m (.head _) dec hf acc.1]

/-- Members whose decoders never change the struct leave it as it was, and keep a type error
found before them. -/
theorem decodeMembers_of_forall_keeps {ms : List (String × Json)}
    (h : ∀ m ∈ ms, ∀ dec, field m.1 = some dec → ∀ s s', dec m.2 s = .ok s' → s' = s)
    (acc : S × Option String) :
    (decodeMembers field acc ms).1 = acc.1 ∧
      (acc.2.isSome → (decodeMembers field acc ms).2 = acc.2) := by
  induction ms generalizing acc with
  | nil => exact ⟨rfl, fun _ => rfl⟩
  | cons m ms ih =>
    have hstep : (decodeMember field acc m).1 = acc.1 ∧
        (acc.2.isSome → (decodeMember field acc m).2 = acc.2) := by
      unfold decodeMember
      cases hf : field m.1 with
      | none => exact ⟨rfl, fun _ => rfl⟩
      | some dec =>
        dsimp only
        cases hd : dec m.2 acc.1 with
        | ok s' => exact ⟨h m (.head _) dec hf _ _ hd, fun _ => rfl⟩
        | error e =>
          refine ⟨rfl, fun he => ?_⟩
          obtain ⟨e', he'⟩ := Option.isSome_iff_exists.mp he
          simp [he']
    obtain ⟨h₁, h₂⟩ := ih (fun m' hm' => h m' (.tail _ hm')) (decodeMember field acc m)
    rw [decodeMembers_cons]
    exact ⟨h₁.trans hstep.1, fun he => (h₂ (hstep.2 he ▸ he)).trans (hstep.2 he)⟩

/-- Members that leave the value as it is end a decoding without error only when it had none
before them, and leave it as it was. -/
theorem decodeMembers_eq_of_forall_keeps {ms : List (String × Json)}
    (h : ∀ m ∈ ms, ∀ dec, field m.1 = some dec → ∀ s s', dec m.2 s = .ok s' → s' = s)
    {acc : S × Option String} {s : S} (hd : decodeMembers field acc ms = (s, none)) :
    s = acc.1 ∧ acc.2 = none := by
  obtain ⟨h₁, h₂⟩ := decodeMembers_of_forall_keeps field h acc
  rw [hd] at h₁ h₂
  refine ⟨h₁, ?_⟩
  cases hacc : acc.2 with
  | none => rfl
  | some e => simp [hacc] at h₂

end

/-- A field of a type the model does not look into, selected by the member name `k`: the
parameter `typeError` gives the type error decoding reports for the member, if any, and the
field's value is not tracked. It also stands for names that select no field, which
`typeError` takes without error. -/
def opaqueField {S : Type} (typeError : String × Json → Option String) (k : String) :
    Option (Json → S → Except String S) :=
  some fun j s => match typeError (k, j) with
    | none => .ok s
    | some e => .error e

/-- A `json.RawMessage` field takes any value; its value is not tracked. -/
def decodeRawField {S : Type} : Json → S → Except String S := fun _ s => .ok s

theorem opaqueField_inert {S : Type} {typeError : String × Json → Option String}
    {m : String × Json} (h : typeError m = none) : Inert (S := S) (opaqueField typeError) m := by
  rintro dec hdec s
  cases hdec
  simp [h]

theorem opaqueField_keeps {S : Type} (typeError : String × Json → Option String)
    (m : String × Json) (dec : Json → S → Except String S)
    (hdec : opaqueField typeError m.1 = some dec) (s s' : S) (h : dec m.2 s = .ok s') :
    s' = s := by
  cases hdec
  dsimp only at h
  split at h
  · exact (Except.ok.inj h).symm
  · cases h

/-- A `string` field at `path`. -/
def decodeStringField {S : Type} (path : String) (set : String → S → S) :
    Json → S → Except String S
  | .string x, s => .ok (set x s)
  | .null, s => .ok s
  | j, _ => .error (fieldTypeError j.kind path "string")

/-- A `bool` field at `path`. -/
def decodeBoolField {S : Type} (path : String) (set : Bool → S → S) :
    Json → S → Except String S
  | .bool b, s => .ok (set b s)
  | .null, s => .ok s
  | j, _ => .error (fieldTypeError j.kind path "bool")

/-- An `int` field at `path`: a number that is not an `int64` literal is a type error that
names the number. -/
def decodeIntField {S : Type} (path : String) (set : Int → S → S) :
    Json → S → Except String S
  | .number lit, s =>
    match parseInt64 lit with
    | some n => .ok (set n s)
    | none => .error (fieldTypeError ("number " ++ lit) path "int")
  | .null, s => .ok s
  | j, _ => .error (fieldTypeError j.kind path "int")

end PrebidService.Go
