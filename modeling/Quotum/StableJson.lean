import Quotum.General.Numerals

/-! Deterministic JSON for hashing. The keys of every object are ordered as the locale compares them, and keys that compare equal fall
back to the order of their code units. -/

namespace Quotum.StableJson
open General.CodeUnits General.Numerals

inductive JsonValue where
  | null
  | bool (value : Bool)
  | number (number : Number)
  | string (text : Units)
  | array (items : List JsonValue)
  | object (fields : List (Units × JsonValue))

def literal (text : String) : Units :=
  text.toList.map fun character => UInt16.ofNat character.toNat

def joined : List Units → Units
  | [] => []
  | [text] => text
  | text :: next :: rest => text ++ 0x2C :: joined (next :: rest)

section Serialize
variable (localeCompare : Units → Units → Ordering) (breakTies : Bool)

def compareKeys (left right : Units) : Ordering :=
  match localeCompare left right with
  | .eq => if breakTies then if left < right then .lt else .gt else .eq
  | order => order

/-- Whether a sort by the comparison leaves an earlier key before a later one: unless the later compares below it. -/
def staysBefore (left right : Units) : Prop :=
  compareKeys localeCompare breakTies right left ≠ .lt

instance : DecidableRel (staysBefore localeCompare breakTies) := fun left right =>
  inferInstanceAs (Decidable (compareKeys localeCompare breakTies right left ≠ .lt))

def entryText (entry : Units × Units) : Units :=
  quoted entry.1 ++ 0x3A :: entry.2

mutual

def serializeStable : JsonValue → Units
  | .null => literal "null"
  | .bool true => literal "true"
  | .bool false => literal "false"
  | .number number => number.text
  | .string text => quoted text
  | .array items => 0x5B :: joined (serializeItems items) ++ [0x5D]
  | .object fields =>
    -- The order depends on the keys alone, so the children may be serialized before the sort.
    let entries := (serializeFields fields).insertionSort fun left right => staysBefore localeCompare breakTies left.1 right.1
    0x7B :: joined (entries.map entryText) ++ [0x7D]

def serializeItems : List JsonValue → List Units
  | [] => []
  | item :: items => serializeStable item :: serializeItems items

def serializeFields : List (Units × JsonValue) → List (Units × Units)
  | [] => []
  | (key, child) :: fields => (key, serializeStable child) :: serializeFields fields

end

end Serialize

def stableJson (localeCompare : Units → Units → Ordering) (value : JsonValue) : Units :=
  serializeStable localeCompare true value

/-- The serialization used before tied keys were ordered: they kept their insertion order. -/
def legacyStableJson (localeCompare : Units → Units → Ordering) (value : JsonValue) : Units :=
  serializeStable localeCompare false value

mutual

def JsonValue.Distinct : JsonValue → Prop
  | .array items => DistinctItems items
  | .object fields => (fields.map Prod.fst).Nodup ∧ DistinctFields fields
  | _ => True

def DistinctItems : List JsonValue → Prop
  | [] => True
  | item :: items => item.Distinct ∧ DistinctItems items

def DistinctFields : List (Units × JsonValue) → Prop
  | [] => True
  | (_, child) :: fields => child.Distinct ∧ DistinctFields fields

end

/-- A value as the runtime holds it, where an object has each key once. -/
structure Document where
  value : JsonValue
  distinct : value.Distinct

mutual

/-- Two values that are equal up to the order of object keys at every depth. -/
def JsonValue.Same : JsonValue → JsonValue → Prop
  | .null, .null => True
  | .bool value, .bool other => value = other
  | .number number, .number other => number = other
  | .string text, .string other => text = other
  | .array items, .array others => SameItems items others
  | .object fields, .object others => ∃ arranged, others.Perm arranged ∧ SameFields fields arranged
  | _, _ => False

def SameItems : List JsonValue → List JsonValue → Prop
  | [], [] => True
  | item :: items, other :: others => item.Same other ∧ SameItems items others
  | _, _ => False

def SameFields : List (Units × JsonValue) → List (Units × JsonValue) → Prop
  | [], [] => True
  | (key, child) :: fields, (other, value) :: others => key = other ∧ child.Same value ∧ SameFields fields others
  | _, _ => False

end

mutual

def JsonValue.Untied (localeCompare : Units → Units → Ordering) : JsonValue → Prop
  | .array items => UntiedItems localeCompare items
  | .object fields =>
    (fields.Pairwise fun left right => localeCompare left.1 right.1 ≠ .eq) ∧ UntiedFields localeCompare fields
  | _ => True

def UntiedItems (localeCompare : Units → Units → Ordering) : List JsonValue → Prop
  | [] => True
  | item :: items => item.Untied localeCompare ∧ UntiedItems localeCompare items

def UntiedFields (localeCompare : Units → Units → Ordering) : List (Units × JsonValue) → Prop
  | [] => True
  | (_, child) :: fields => child.Untied localeCompare ∧ UntiedFields localeCompare fields

end

end Quotum.StableJson
