-- SUMMARY: Flattening Go values into trace attributes: `getKeyValues`, `addStruct`, `addMap`, `addArray`, `isEmptyValue`, run with fuel.
import PrebidService.Go.Json

/-!
# Key-value attributes of a Go value

`getKeyValues` of `src/vendor/github.com/tapjoy/go-tracing/tracing/util.go` walks a value
through `reflect` and turns it into `core.KeyValue` attributes: a scalar becomes one
attribute, a struct or a map one attribute per field or entry under `prefix.name`, a slice
or array one string attribute. `GoValue` is a value as `reflect` shows it to that walk.

The walk is not structurally recursive in Go: its `Ptr` case calls `getKeyValues` again on
`val.Interface()`, which is the pointer it was given. So the model counts nested calls
with `fuel`, and `none` means that the call has not returned after that many nested calls.
`fmt.Sprintf("%v", ·)`, which formats array elements and numeric map keys, is a parameter.
-/

namespace PrebidService.Tracing

/-- The value of an attribute, as the `key` package builds it. A `float64` is its IEEE bit
pattern. -/
inductive AttrValue where
  | bool (b : Bool)
  | int64 (n : Int)
  | uint64 (n : Nat)
  | float64 (bits : BitVec 64)
  | string (s : String)
  deriving DecidableEq, Repr

/-- `core.KeyValue`. -/
structure KeyValue where
  key : String
  value : AttrValue
  deriving DecidableEq, Repr

/-- A struct field as `reflect.StructField` describes it: its Go name, whether it is
exported (`PkgPath == ""`), `Tag.Get("json")`, and whether its declared type is an
interface type. -/
structure FieldInfo where
  name : String
  exported : Bool
  jsonTag : String
  isInterface : Bool
  deriving DecidableEq, Repr

/-- The kind of a map's key type, which `addMap` switches on: `string`; one of the kinds it
formats with `%v` (the integer kinds but `uintptr`, the floats and the complex numbers); or
any other kind, an interface or `uintptr` among them, whose keys it skips. -/
inductive KeyKind where
  | string
  | numeric
  | other
  deriving DecidableEq, Repr

/-- A Go value by the kind `reflect` reports: `nil` is an interface holding nothing, `array`
is a slice or an array, `map` a map with the kind of its key type, `ptr` a pointer (nil, or
to a value), `other` a channel, function or unsafe pointer. Integers and floats of every
width are read as `Int()`, `Uint()` and `Float()` read them; `uint` is of the unsigned
kinds but `uintptr`, which is `uintptr`. -/
inductive GoValue where
  | nil
  | bool (b : Bool)
  | int (n : Int)
  | uint (n : Nat)
  | uintptr (n : Nat)
  | float (bits : BitVec 64)
  | complex (re im : BitVec 64)
  | string (s : String)
  | struct (fields : List (FieldInfo × GoValue))
  | array (elems : List GoValue)
  | map (keyKind : KeyKind) (entries : List (GoValue × GoValue))
  | ptr (target : Option GoValue)
  | other
  deriving Repr

/-- `isEmptyValue`, the helper lifted from `encoding/json`. A float is empty when it is
`+0` or `-0`. -/
def isEmptyValue : GoValue → Bool
  | .array es => es.isEmpty
  | .map _ es => es.isEmpty
  | .string s => s.isEmpty
  | .bool b => !b
  | .int n => n == 0
  | .uint n => n == 0
  | .uintptr n => n == 0
  | .float bits => Go.Float64.isZero bits
  | .nil => true
  | .ptr t => t.isNone
  | _ => false

/-- `isEmptyValue(sVal.Field(i))` for a field holding `v`: `reflect` shows a field of
interface type as the interface, which is empty only when it holds nothing. -/
def fieldIsEmpty (f : FieldInfo) (v : GoValue) : Bool :=
  if f.isInterface then v matches .nil else isEmptyValue v

/-- The name `addStruct` gives an exported field with Go name `name` and json tag `tag`, or
`none` when it skips the field: the tag `-`, or the option `omitempty` on an empty
value. -/
def jsonFieldName (name tag : String) (empty : Bool) : Option String :=
  if tag ≠ "" then
    if tag = "-" then none
    else
      match tag.toList.indexOf? ',' with
      | some idx =>
        if "omitempty".toList <:+: tag.toList.drop idx ∧ empty = true then none
        else some (String.mk (tag.toList.take idx))
      | none => some tag
  else some name

/-- The string `addMap` uses for a key `k` of a map whose key type has kind `keyKind`: the
string itself, `%v` of a number, or `none` for a key of another kind, which it skips. The
switch is on the key type, not on the key: the keys of a `map[interface{}]T` are all
skipped, whatever they hold. -/
def mapKeyString (fmtV : GoValue → String) : KeyKind → GoValue → Option String
  | .string, .string s => some s
  | .numeric, k => some (fmtV k)
  | _, _ => none

/-- `addArray`: one string attribute `[e0,e1,...]`, each element formatted by `%v`. -/
def addArray (fmtV : GoValue → String) (k : String) (elems : List GoValue) : KeyValue :=
  ⟨k, .string ("[" ++ ",".intercalate (elems.map fmtV) ++ "]")⟩

/-- `addStruct`, with `rec` the recursive call of `getKeyValues` on each field kept. -/
def addStruct (rec : String → GoValue → Option (List KeyValue)) (keyPrefix : String)
    (fields : List (FieldInfo × GoValue)) : Option (List KeyValue) :=
  fields.foldlM
    (fun result (f, v) =>
      if !f.exported then some result
      else match jsonFieldName f.name f.jsonTag (fieldIsEmpty f v) with
        | none => some result
        | some fName => (result ++ ·) <$> rec (keyPrefix ++ "." ++ fName) v)
    []

/-- `addMap`, with `rec` the recursive call of `getKeyValues` on each entry kept, the
entries in the order `MapKeys` returns them. -/
def addMap (fmtV : GoValue → String) (rec : String → GoValue → Option (List KeyValue))
    (keyPrefix : String) (keyKind : KeyKind) (entries : List (GoValue × GoValue)) :
    Option (List KeyValue) :=
  entries.foldlM
    (fun result (k, v) =>
      match mapKeyString fmtV keyKind k with
      | none => some result
      | some keyStr => (result ++ ·) <$> rec (keyPrefix ++ "." ++ keyStr) v)
    []

/-- The values on which the walk of `getKeyValues` reaches no pointer: every field of a
struct and every value of a map is again such a value. The elements of a slice or an array
are only formatted, never walked. -/
inductive GoValue.PointerFree : GoValue → Prop
  | nil : PointerFree .nil
  | bool (b : Bool) : PointerFree (.bool b)
  | int (n : Int) : PointerFree (.int n)
  | uint (n : Nat) : PointerFree (.uint n)
  | uintptr (n : Nat) : PointerFree (.uintptr n)
  | float (bits : BitVec 64) : PointerFree (.float bits)
  | complex (re im : BitVec 64) : PointerFree (.complex re im)
  | string (s : String) : PointerFree (.string s)
  | struct {fields : List (FieldInfo × GoValue)} (h : ∀ p ∈ fields, PointerFree p.2) :
      PointerFree (.struct fields)
  | array (elems : List GoValue) : PointerFree (.array elems)
  | map (keyKind : KeyKind) {entries : List (GoValue × GoValue)}
      (h : ∀ p ∈ entries, PointerFree p.2) : PointerFree (.map keyKind entries)
  | other : PointerFree .other

/-- A value `encoding/json` writes as one JSON scalar and `getKeyValues` as one attribute: a
bool, an integer, a float or a string. A `uintptr`, which `encoding/json` also writes as a
number, is not one: `getKeyValues` has no case for it. -/
def GoValue.IsScalar : GoValue → Bool
  | .bool _ | .int _ | .uint _ | .float _ | .string _ => true
  | _ => false

section

variable (fmtV : GoValue → String)

/-- `getKeyValues(keyName, v)` given `fuel` nested calls: `none` when it has not returned
after that many. -/
def getKeyValues : Nat → String → GoValue → Option (List KeyValue)
  | 0, _, _ => none
  | fuel + 1, keyName, v =>
    match v with
    | .nil => some []
    | .bool b => some [⟨keyName, .bool b⟩]
    | .int n => some [⟨keyName, .int64 n⟩]
    | .uint n => some [⟨keyName, .uint64 n⟩]
    | .float bits => some [⟨keyName, .float64 bits⟩]
    | .string s => some [⟨keyName, .string s⟩]
    | .struct fields => addStruct (getKeyValues fuel) keyName fields
    | .array elems => some [addArray fmtV keyName elems]
    | .map keyKind entries => addMap fmtV (getKeyValues fuel) keyName keyKind entries
    | .ptr _ => getKeyValues fuel keyName v
    | .uintptr _ => some []
    | .complex _ _ => some []
    | .other => some []

/-- The `Ptr` case calls `getKeyValues` again on the pointer it was given, so no amount of
fuel is enough: on a pointer, nil or not, `getKeyValues` never returns. -/
theorem getKeyValues_ptr (fuel : Nat) (keyName : String) (t : Option GoValue) :
    getKeyValues fmtV fuel keyName (.ptr t) = none := by
  induction fuel with
  | zero => rfl
  | succ n ih => simpa [getKeyValues] using ih

private theorem foldlM_option_eq_none {α β : Type} {f : β → α → Option β} {x : α}
    (hf : ∀ b, f b x = none) : ∀ {xs : List α} (_ : x ∈ xs) (init : β),
      xs.foldlM f init = none
  | y :: ys, hmem, init => by
    rcases List.mem_cons.mp hmem with rfl | hys
    · simp [hf]
    · cases h : f init y <;> simp [h, foldlM_option_eq_none hf hys]

/-- `addStruct` returns only when the call on every field it keeps returns. -/
theorem addStruct_eq_none_of_mem {rec : String → GoValue → Option (List KeyValue)}
    {keyPrefix : String} {fields : List (FieldInfo × GoValue)} {f : FieldInfo} {v : GoValue}
    {fName : String} (hmem : (f, v) ∈ fields) (hexp : f.exported = true)
    (hname : jsonFieldName f.name f.jsonTag (fieldIsEmpty f v) = some fName)
    (hrec : rec (keyPrefix ++ "." ++ fName) v = none) :
    addStruct rec keyPrefix fields = none :=
  foldlM_option_eq_none (by simp [hexp, hname, hrec]) hmem _

private theorem foldlM_option_isSome {α β : Type} {f : β → α → Option β} :
    ∀ {xs : List α} (_ : ∀ x ∈ xs, ∀ b, (f b x).isSome) (init : β),
      (xs.foldlM f init).isSome
  | [], _, _ => rfl
  | y :: ys, h, init => by
    obtain ⟨b, hb⟩ := Option.isSome_iff_exists.mp (h y (.head _) init)
    simpa [hb] using foldlM_option_isSome (fun x hx => h x (.tail _ hx)) b

/-- Finitely many bounds on the fuel have a common bound. -/
private theorem exists_fuel_forall_mem {α : Type} {P : α → Nat → Prop} :
    ∀ {xs : List α}, (∀ x ∈ xs, ∃ n, ∀ fuel, n ≤ fuel → P x fuel) →
      ∃ n, ∀ x ∈ xs, ∀ fuel, n ≤ fuel → P x fuel
  | [], _ => ⟨0, by simp⟩
  | y :: ys, h => by
    obtain ⟨n, hn⟩ := h y (.head _)
    obtain ⟨m, hm⟩ := exists_fuel_forall_mem fun x hx => h x (.tail _ hx)
    refine ⟨max n m, fun x hx fuel hfuel => ?_⟩
    rcases List.mem_cons.mp hx with rfl | hx
    · exact hn fuel (by omega)
    · exact hm x hx fuel (by omega)

/-- Without pointers the walk is well founded: on a value whose walk reaches no pointer,
`getKeyValues` returns once it is given enough fuel, whatever the key name. -/
theorem getKeyValues_isSome_of_pointerFree {v : GoValue} (hv : v.PointerFree) :
    ∃ n, ∀ fuel, n ≤ fuel → ∀ keyName, (getKeyValues fmtV fuel keyName v).isSome := by
  induction hv with
  | struct _ ih =>
    obtain ⟨n, hn⟩ := exists_fuel_forall_mem ih
    refine ⟨n + 1, fun fuel hfuel keyName => ?_⟩
    obtain ⟨m, rfl⟩ : ∃ m, fuel = m + 1 := ⟨fuel - 1, by omega⟩
    refine foldlM_option_isSome (fun ⟨f, v⟩ hp acc => ?_) _
    dsimp only
    split
    · rfl
    · split
      · rfl
      · simpa using hn _ hp m (by omega) _
  | map _ _ ih =>
    obtain ⟨n, hn⟩ := exists_fuel_forall_mem ih
    refine ⟨n + 1, fun fuel hfuel keyName => ?_⟩
    obtain ⟨m, rfl⟩ : ∃ m, fuel = m + 1 := ⟨fuel - 1, by omega⟩
    refine foldlM_option_isSome (fun ⟨k, v⟩ hp acc => ?_) _
    dsimp only
    split
    · rfl
    · simpa using hn _ hp m (by omega) _
  | _ =>
    refine ⟨1, fun fuel hfuel _ => ?_⟩
    obtain ⟨m, rfl⟩ : ∃ m, fuel = m + 1 := ⟨fuel - 1, by omega⟩
    rfl

/-- Whether `key` is `keyName` or a key nested under it, `keyName.<rest>`. -/
def KeyValue.NestedUnder (keyName : String) (kv : KeyValue) : Prop :=
  kv.key = keyName ∨ ∃ rest, kv.key = keyName ++ "." ++ rest

theorem KeyValue.NestedUnder.trans {keyName name : String} {kv : KeyValue}
    (h : kv.NestedUnder (keyName ++ "." ++ name)) : kv.NestedUnder keyName := by
  rcases h with h | ⟨rest, h⟩
  · exact .inr ⟨name, h⟩
  · exact .inr ⟨name ++ "." ++ rest, by simp only [h, String.append_assoc]⟩

private theorem foldlM_option_inv {α β : Type} {f : β → α → Option β} {I : β → Prop}
    (hf : ∀ b x b', I b → f b x = some b' → I b') :
    ∀ {xs : List α} {init res : β}, I init → xs.foldlM f init = some res → I res
  | [], _, _, hi, h => by cases h; exact hi
  | x :: xs, init, res, hi, h => by
    rw [List.foldlM_cons] at h
    obtain ⟨b, hb, h⟩ := Option.bind_eq_some.mp h
    exact foldlM_option_inv hf (hf init x b hi hb) h

/-- A step of `addStruct` or `addMap`: what it appends are the pairs of one recursive call on
a key nested under `keyPrefix`. -/
private theorem append_nestedUnder {keyPrefix name : String} {result kvs r : List KeyValue}
    (hres : ∀ kv ∈ result, kv.NestedUnder keyPrefix)
    (hkvs : ∀ kv ∈ kvs, kv.NestedUnder (keyPrefix ++ "." ++ name))
    (h : (result ++ ·) <$> some kvs = some r) : ∀ kv ∈ r, kv.NestedUnder keyPrefix := by
  cases h
  intro kv hkv
  rcases List.mem_append.mp hkv with hkv | hkv
  · exact hres kv hkv
  · exact (hkvs kv hkv).trans

/-- Every attribute `getKeyValues(keyName, v)` makes is named `keyName` or nested under it,
so the attributes of one call never take the name of an attribute set under another key. -/
theorem getKeyValues_nestedUnder {fuel : Nat} {keyName : String} {v : GoValue}
    {kvs : List KeyValue} (h : getKeyValues fmtV fuel keyName v = some kvs) :
    ∀ kv ∈ kvs, kv.NestedUnder keyName := by
  induction fuel generalizing keyName v kvs with
  | zero => cases h
  | succ fuel ih =>
    cases v with
    | struct fields =>
      refine foldlM_option_inv (I := fun r => ∀ kv ∈ r, kv.NestedUnder keyName)
        (fun result ⟨f, v⟩ r hres hr => ?_) (by simp) h
      dsimp only at hr
      split at hr
      · cases hr; exact hres
      · split at hr
        · cases hr; exact hres
        · obtain ⟨kvs', hkvs', rfl⟩ := Option.map_eq_some'.mp hr
          exact append_nestedUnder hres (ih hkvs') rfl
    | map keyKind entries =>
      refine foldlM_option_inv (I := fun r => ∀ kv ∈ r, kv.NestedUnder keyName)
        (fun result ⟨k, v⟩ r hres hr => ?_) (by simp) h
      dsimp only at hr
      split at hr
      · cases hr; exact hres
      · obtain ⟨kvs', hkvs', rfl⟩ := Option.map_eq_some'.mp hr
        exact append_nestedUnder hres (ih hkvs') rfl
    | ptr t => exact ih h
    | _ =>
      simp only [getKeyValues, addArray, Option.some.injEq] at h
      subst h
      simp [KeyValue.NestedUnder]

-- ----------------------------------------------------------------------------
-- The keys of a struct of scalars
-- ----------------------------------------------------------------------------

/-- On a scalar the walk makes exactly one attribute, named by the key it is given. -/
theorem getKeyValues_of_isScalar {v : GoValue} (hv : v.IsScalar) (fuel : Nat)
    (keyName : String) : ∃ kv, getKeyValues fmtV (fuel + 1) keyName v = some [kv] ∧
      kv.key = keyName := by
  cases v <;> first | exact ⟨_, rfl, rfl⟩ | simp [GoValue.IsScalar] at hv

/-- Over scalar fields `addStruct` returns one attribute per exported field that
`jsonFieldName` names, keyed `keyPrefix.<name>`, after those already in `result`. -/
theorem addStruct_foldlM_keys_of_isScalar (fuel : Nat) (keyPrefix : String) :
    ∀ {fields : List (FieldInfo × GoValue)} (_ : ∀ p ∈ fields, p.2.IsScalar)
      (result : List KeyValue),
      (fields.foldlM (fun result (p : FieldInfo × GoValue) =>
          if !p.1.exported then some result
          else match jsonFieldName p.1.name p.1.jsonTag (fieldIsEmpty p.1 p.2) with
            | none => some result
            | some fName =>
              (result ++ ·) <$> getKeyValues fmtV (fuel + 1) (keyPrefix ++ "." ++ fName) p.2)
        result).map (·.map KeyValue.key) =
      some (result.map KeyValue.key ++ fields.filterMap fun p =>
        if p.1.exported then
          (jsonFieldName p.1.name p.1.jsonTag (fieldIsEmpty p.1 p.2)).map (keyPrefix ++ "." ++ ·)
        else none)
  | [], _, result => by simp
  | (f, v) :: fields, h, result => by
    have ih := addStruct_foldlM_keys_of_isScalar fuel keyPrefix fun p hp => h p (.tail _ hp)
    rw [List.foldlM_cons]
    cases hexp : f.exported
    · simpa [hexp] using ih result
    · cases hname : jsonFieldName f.name f.jsonTag (fieldIsEmpty f v) with
      | none => simpa [hexp, hname] using ih result
      | some fName =>
        obtain ⟨kv, hkv, hkey⟩ := getKeyValues_of_isScalar fmtV (h _ (.head _)) fuel
          (keyPrefix ++ "." ++ fName)
        simpa [hexp, hname, hkv, hkey] using ih (result ++ [kv])

/-- Over scalar fields `addStruct` returns, in field order, one attribute per exported field
that `jsonFieldName` names, keyed `keyPrefix.<name>`. -/
theorem addStruct_keys_of_isScalar {fields : List (FieldInfo × GoValue)}
    (h : ∀ p ∈ fields, p.2.IsScalar) (fuel : Nat) (keyPrefix : String) :
    (addStruct (getKeyValues fmtV (fuel + 1)) keyPrefix fields).map (·.map KeyValue.key) =
      some (fields.filterMap fun p =>
        if p.1.exported then
          (jsonFieldName p.1.name p.1.jsonTag (fieldIsEmpty p.1 p.2)).map (keyPrefix ++ "." ++ ·)
        else none) :=
  addStruct_foldlM_keys_of_isScalar fmtV fuel keyPrefix h []

/-- A json tag whose name part is empty (it starts with a comma) names every field it keeps
with the empty string, whatever the field's Go name. -/
theorem jsonFieldName_of_head_comma (name tag : String) (empty : Bool)
    (h : tag.toList.head? = some ',') :
    jsonFieldName name tag empty =
      if "omitempty".toList <:+: tag.toList ∧ empty = true then none else some "" := by
  obtain ⟨cs, hcs⟩ := List.head?_eq_some_iff.mp h
  have hne : tag ≠ "" := fun h' => by simp [h'] at hcs
  have hdash : tag ≠ "-" := fun h' => by simp [h'] at hcs
  have hidx : tag.toList.indexOf? ',' = some 0 := by rw [hcs]; rfl
  rw [jsonFieldName, if_pos hne, if_neg hdash, hidx]
  rfl

/-- The name `encoding/json.Marshal` gives a field: the name part of its json tag when that
part is not empty and its Go name otherwise; `none` when it skips the field, for the tag `-`
or for the option `omitempty` on an empty value. -/
def marshalFieldName (name tag : String) (empty : Bool) : Option String :=
  if tag = "-" ∨ ("omitempty".toList ∈ (tag.toList.splitOn ',').drop 1 ∧ empty = true) then none
  else
    match tag.toList.takeWhile (· ≠ ',') with
    | [] => some name
    | tagName => some (String.mk tagName)

/-- The keys `keyPrefix.<n>`, for each object key `n` that `encoding/json.Marshal` writes for a
struct of scalar fields. -/
def marshalKeys (keyPrefix : String) (fields : List (FieldInfo × GoValue)) : List String :=
  fields.filterMap fun p =>
    if p.1.exported then
      (marshalFieldName p.1.name p.1.jsonTag (fieldIsEmpty p.1 p.2)).map (keyPrefix ++ "." ++ ·)
    else none

/-- A field tagged `,omitempty` that holds a non-empty string: `addStruct` keys it
`keyPrefix.`, with the empty name its tag's name part gives, where `encoding/json` writes the
field under its Go name. -/
theorem addStruct_omitempty_only_tag_key (fuel : Nat) (keyPrefix name : String) :
    (addStruct (getKeyValues fmtV (fuel + 1)) keyPrefix
        [(⟨name, true, ",omitempty", false⟩, .string "ios")]).map (·.map KeyValue.key) =
      some [keyPrefix ++ "."] ∧
    marshalKeys keyPrefix [(⟨name, true, ",omitempty", false⟩, .string "ios")] =
      [keyPrefix ++ "." ++ name] := by
  have hempty : fieldIsEmpty ⟨name, true, ",omitempty", false⟩ (.string "ios") = false := rfl
  have hname : jsonFieldName name ",omitempty"
      (fieldIsEmpty ⟨name, true, ",omitempty", false⟩ (.string "ios")) = some "" := by
    rw [jsonFieldName_of_head_comma name ",omitempty" _ rfl, hempty]
    simp
  refine ⟨?_, rfl⟩
  rw [addStruct_keys_of_isScalar fmtV (by simp [GoValue.IsScalar]) fuel keyPrefix]
  simp [hname]

end

end PrebidService.Tracing
