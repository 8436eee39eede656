import JustProxy.Foundation.OrderedMap
import Mathlib.Data.String.Basic

/-! # JSON values

Values of any nesting. The fields of an object are an ordered map from keys to
values, so two objects with the same fields are the same value.
-/

/-- A number: unsigned, signed, or the bits of a floating point number. -/
inductive JsonNumber where
  | unsigned (value : UInt64)
  | signed (value : Int64)
  | floating (bits : UInt64)
  deriving DecidableEq, Repr

inductive Json where
  | null
  | bool (value : Bool)
  | number (value : JsonNumber)
  | string (value : String)
  | array (elements : List Json)
  | object (fields : List ((_ : String) × Json))

namespace Json

/-- The fields of an object; no other value has any. -/
def fields : Json → List ((_ : String) × Json)
  | .object fields => fields
  | _ => []

/-- The value at a path of keys. -/
def get? : Json → List String → Option Json
  | value, [] => some value
  | value, key :: path =>
      (List.dlookup key value.fields).bind fun inner => inner.get? path

/-- At every depth, the fields of an object are in the order of their keys. -/
inductive WellFormed : Json → Prop
  | null : WellFormed .null
  | bool (value : Bool) : WellFormed (.bool value)
  | number (value : JsonNumber) : WellFormed (.number value)
  | string (value : String) : WellFormed (.string value)
  | array {elements : List Json} (helements : ∀ element ∈ elements, WellFormed element) :
      WellFormed (.array elements)
  | object {fields : List ((_ : String) × Json)} (hsorted : OrderedMap.Sorted fields)
      (hfields : ∀ key value, List.dlookup key fields = some value → WellFormed value) :
      WellFormed (.object fields)

variable {value : Json} {key : String}

@[simp] theorem fields_object (inner : List ((_ : String) × Json)) :
    (object inner).fields = inner := rfl

@[simp] theorem get?_nil (value : Json) : value.get? [] = some value := by
  rw [get?]

theorem get?_cons (value : Json) (key : String) (path : List String) :
    value.get? (key :: path) =
      (List.dlookup key value.fields).bind fun inner => inner.get? path := by
  rw [get?]

theorem fields_of_not_object (hvalue : ∀ inner, value ≠ .object inner) : value.fields = [] := by
  cases value with
  | object inner => exact absurd rfl (hvalue inner)
  | _ => rfl

theorem mem_keys_fields :
    key ∈ value.fields.keys ↔ ∃ inner, value = .object inner ∧ key ∈ inner.keys := by
  constructor
  · intro hkey
    cases value with
    | object inner => exact ⟨inner, rfl, hkey⟩
    | _ => simp [fields] at hkey
  · rintro ⟨inner, rfl, hkey⟩
    exact hkey

theorem eq_object_of_dlookup {inner : Json}
    (hinner : List.dlookup key value.fields = some inner) : value = .object value.fields := by
  have hkey : key ∈ value.fields.keys := List.dlookup_isSome.mp (by rw [hinner]; rfl)
  obtain ⟨fields, rfl, _⟩ := mem_keys_fields.mp hkey
  rfl

theorem get?_cons_eq_some {path : List String} {inner : Json} :
    value.get? (key :: path) = some inner ↔
      ∃ child, List.dlookup key value.fields = some child ∧ child.get? path = some inner := by
  rw [get?_cons, Option.bind_eq_some_iff]

/-- Below a null there is no object. -/
theorem get?_null_ne_object (path : List String) (inner : List ((_ : String) × Json)) :
    null.get? path ≠ some (.object inner) := by
  cases path with
  | nil => simp
  | cons key path => simp [get?_cons, fields]

theorem WellFormed.sorted_fields (hvalue : value.WellFormed) :
    OrderedMap.Sorted value.fields := by
  cases hvalue with
  | object hsorted _ => exact hsorted
  | _ => exact List.Pairwise.nil

theorem WellFormed.of_dlookup (hvalue : value.WellFormed) {inner : Json}
    (hinner : List.dlookup key value.fields = some inner) : inner.WellFormed := by
  cases hvalue with
  | object _ hfields => exact hfields key inner hinner
  | _ => simp [fields] at hinner

/-- Induction over nested objects, with every other value a leaf. -/
@[elab_as_elim]
theorem WellFormed.objectInduction {motive : (value : Json) → value.WellFormed → Prop}
    (leaf : ∀ value (hvalue : value.WellFormed), (∀ inner, value ≠ .object inner) →
      motive value hvalue)
    (object : ∀ inner (hsorted : OrderedMap.Sorted inner)
      (hinner : ∀ key value, List.dlookup key inner = some value → value.WellFormed),
      (∀ key value hvalue, motive value (hinner key value hvalue)) →
        motive (.object inner) (.object hsorted hinner))
    (value : Json) (hvalue : value.WellFormed) : motive value hvalue := by
  induction hvalue with
  | object hsorted hfields ih => exact object _ hsorted hfields ih
  | null => exact leaf _ .null (by simp)
  | bool flag => exact leaf _ (.bool flag) (by simp)
  | number number => exact leaf _ (.number number) (by simp)
  | string text => exact leaf _ (.string text) (by simp)
  | array helements => exact leaf _ (.array helements) (by simp)

/-- What a key holds, or null in its place, is well formed. -/
theorem WellFormed.dlookup_getD (hvalue : value.WellFormed) (key : String) :
    ((List.dlookup key value.fields).getD .null).WellFormed := by
  cases hinner : List.dlookup key value.fields with
  | none => exact .null
  | some inner => exact hvalue.of_dlookup hinner

end Json

/-- A JSON value, its objects' fields in order. -/
structure Value where
  json : Json
  wellFormed : json.WellFormed

namespace Value

variable {entries : List ((_ : String) × Value)}

/-- The fields of the entries, before they are put in order. -/
def entryFields (entries : List ((_ : String) × Value)) : List ((_ : String) × Json) :=
  entries.map (Sigma.map id fun _ => Value.json)

/-- The object with the given fields. -/
def object (entries : List ((_ : String) × Value)) : Value where
  json := .object (OrderedMap.ofList (entryFields entries))
  wellFormed := by
    refine .object (OrderedMap.sorted_ofList _) ?_
    intro key value hvalue
    obtain ⟨⟨name, entry⟩, _, hentry⟩ :=
      List.mem_map.mp (OrderedMap.mem_of_dlookup_ofList hvalue)
    cases hentry
    exact entry.wellFormed

/-- Entries with distinct keys are what the object holds. -/
theorem dlookup_object (hnodup : entries.NodupKeys) (key : String) :
    List.dlookup key (object entries).json.fields =
      (List.dlookup key entries).map Value.json := by
  have hfields : (entryFields entries).NodupKeys := hnodup.map₂ _ _
  calc List.dlookup key (object entries).json.fields
      = List.dlookup key (entryFields entries) := OrderedMap.dlookup_ofList hfields key
    _ = (List.dlookup key entries).map Value.json := List.dlookup_map₂ key

/-- Every entry is found under its key. -/
def Stores (value : Value) (entries : List ((_ : String) × Value)) : Prop :=
  ∀ entry ∈ entries, List.dlookup entry.1 value.json.fields = some entry.2.json

end Value

/-! ## Stored types -/

/-- How the values of a primitive type are stored and read. -/
structure Scalar (Item : Type) where
  write : Item → Value
  read : Json → Option Item
  read_write : ∀ item, read (write item).json = some item
  write_ne_null : ∀ item, (write item).json ≠ .null

namespace Scalar

variable {Item : Type} (scalar : Scalar Item)

/-- A required field. -/
def readField (name : String) (fields : List ((_ : String) × Json)) : Option Item :=
  (List.dlookup name fields).bind scalar.read

/-- An optional field is stored as null when it is absent. -/
def writeOption : Option Item → Value
  | none => ⟨.null, .null⟩
  | some item => scalar.write item

/-- An optional field is absent when it is missing or null. -/
def readOption (name : String) (fields : List ((_ : String) × Json)) : Option (Option Item) :=
  match List.dlookup name fields with
  | none => some none
  | some .null => some none
  | some value => (scalar.read value).map some

variable {scalar} {name : String} {fields : List ((_ : String) × Json)}

theorem readField_of_dlookup {item : Item}
    (hstored : List.dlookup name fields = some (scalar.write item).json) :
    scalar.readField name fields = some item := by
  rw [readField, hstored, Option.bind_some, scalar.read_write]

theorem readOption_of_dlookup {item : Option Item}
    (hstored : List.dlookup name fields = some (scalar.writeOption item).json) :
    scalar.readOption name fields = some item := by
  rw [readOption, hstored]
  cases item with
  | none => rfl
  | some item =>
      rw [writeOption]
      split
      next hnone => cases hnone
      next hnull =>
        rw [Option.some.injEq] at hnull
        exact absurd hnull (scalar.write_ne_null item)
      next value _ hvalue =>
        rw [Option.some.injEq] at hvalue
        rw [← hvalue, scalar.read_write, Option.map_some]

/-- An unsigned type as a number; reading refuses what does not fit. -/
def unsigned (widen : Item → UInt64) (narrow : UInt64 → Item)
    (hnarrow : ∀ item, narrow (widen item) = item) : Scalar Item where
  write item := ⟨.number (.unsigned (widen item)), .number _⟩
  read
    | .number (.unsigned value) =>
        if widen (narrow value) = value then some (narrow value) else none
    | _ => none
  read_write item := by simp [hnarrow]
  write_ne_null item := by simp

def text : Scalar String where
  write item := ⟨.string item, .string item⟩
  read
    | .string item => some item
    | _ => none
  read_write _ := rfl
  write_ne_null _ := by simp

end Scalar
