import Mathlib

/-! JSON values, their text, and the strings they hold. -/

namespace Quotum.General

inductive Json where
  | null
  | bool (value : Bool)
  | number (digits : List Char)
  | string (text : List Char)
  | array (items : List Json)
  | object (fields : List (List Char × Json))

namespace Json

def escaped (character : Char) : List Char :=
  if character = '"' then ['\\', '"']
  else if character = '\\' then ['\\', '\\']
  else if character = '\n' then ['\\', 'n']
  else if character = '\r' then ['\\', 'r']
  else if character = '\t' then ['\\', 't']
  else if character.toNat = 8 then ['\\', 'b']
  else if character.toNat = 12 then ['\\', 'f']
  else if character.toNat < 32 then
    ['\\', 'u', '0', '0', Nat.digitChar (character.toNat / 16), Nat.digitChar (character.toNat % 16)]
  else [character]

def quoted (text : List Char) : List Char := '"' :: text.flatMap escaped ++ ['"']

mutual

/-- The text of a value: a space after each comma and each colon. -/
def text : Json → List Char
  | .null => "null".toList
  | .bool true => "true".toList
  | .bool false => "false".toList
  | .number digits => digits
  | .string text => quoted text
  | .array [] => "[]".toList
  | .array (item :: items) => '[' :: item.text ++ itemsText items ++ [']']
  | .object [] => "\x7b\x7d".toList
  | .object ((name, value) :: fields) => '\x7b' :: quoted name ++ ": ".toList ++ value.text ++ fieldsText fields ++ ['\x7d']

def itemsText : List Json → List Char
  | [] => []
  | item :: items => ", ".toList ++ item.text ++ itemsText items

def fieldsText : List (List Char × Json) → List Char
  | [] => []
  | (name, value) :: fields => ", ".toList ++ quoted name ++ ": ".toList ++ value.text ++ fieldsText fields

end

mutual

def strings : Json → List (List Char)
  | .string text => [text]
  | .array items => itemsStrings items
  | .object fields => fieldsStrings fields
  | _ => []

def itemsStrings : List Json → List (List Char)
  | [] => []
  | item :: items => item.strings ++ itemsStrings items

def fieldsStrings : List (List Char × Json) → List (List Char)
  | [] => []
  | (_, value) :: fields => value.strings ++ fieldsStrings fields

end

def textAt (name : List Char) : Json → Option (List Char)
  | .object fields =>
    match fields.lookup name with
    | none | some .null => none
    | some (.string text) => some text
    | some value => some value.text
  | _ => none

def within (names : List (List Char)) : Json → Bool
  | .object fields => fields.all fun field => names.contains field.1
  | _ => true

def restrict (names : List (List Char)) : Json → Json
  | .object fields => .object (fields.filter fun field => names.contains field.1)
  | value => value

theorem within_restrict (names : List (List Char)) (value : Json) : (value.restrict names).within names = true := by
  cases value with
  | object fields =>
    apply List.all_eq_true.mpr
    intro field member
    exact (List.mem_filter.mp member).2
  | null => rfl
  | bool value => rfl
  | number digits => rfl
  | string text => rfl
  | array items => rfl

def Plain (text : List Char) : Prop := ∀ character ∈ text, escaped character = [character]

instance (text : List Char) : Decidable (Plain text) := by
  unfold Plain
  infer_instance

end Json

end Quotum.General
