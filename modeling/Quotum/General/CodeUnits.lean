import Mathlib

/-! Strings of code units and how JSON text quotes them. A lone surrogate is escaped, a pair stands as it is, and either way a quoted
string ends where its closing quote stands. -/

namespace Quotum.General.CodeUnits

abbrev Units := List UInt16

def leads (unit : UInt16) : Bool := 0xD800 ≤ unit && unit ≤ 0xDBFF

def trails (unit : UInt16) : Bool := 0xDC00 ≤ unit && unit ≤ 0xDFFF

def shortEscapes : List (UInt16 × UInt16) :=
  [(0x22, 0x22), (0x5C, 0x5C), (0x62, 0x08), (0x66, 0x0C), (0x6E, 0x0A), (0x72, 0x0D), (0x74, 0x09)]

def hexDigit (value : Nat) : UInt16 :=
  UInt16.ofNat (if value < 10 then 48 + value else 87 + value)

def hexEscape (unit : UInt16) : Units :=
  [0x5C, 0x75, hexDigit (unit.toNat / 4096), hexDigit (unit.toNat / 256 % 16), hexDigit (unit.toNat / 16 % 16), hexDigit (unit.toNat % 16)]

def escaped (unit : UInt16) : Units :=
  match shortEscapes.find? fun escape => escape.2 == unit with
  | some escape => [0x5C, escape.1]
  | none => if unit < 0x20 || leads unit || trails unit then hexEscape unit else [unit]

def escapedText : Units → Units
  | [] => []
  | [unit] => escaped unit
  | unit :: next :: rest =>
    if leads unit && trails next then unit :: next :: escapedText rest else escaped unit ++ escapedText (next :: rest)

def quoted (text : Units) : Units :=
  0x22 :: escapedText text ++ [0x22]

def hexValue (unit : UInt16) : Nat :=
  if unit.toNat < 58 then unit.toNat - 48 else unit.toNat - 87

def readHex : Units → Option (UInt16 × Units)
  | first :: second :: third :: fourth :: rest =>
    some (UInt16.ofNat (hexValue first * 4096 + hexValue second * 256 + hexValue third * 16 + hexValue fourth), rest)
  | _ => none

def readEscape : Units → Option (UInt16 × Units)
  | [] => none
  | second :: rest => if second = 0x75 then readHex rest else (shortEscapes.lookup second).map fun unit => (unit, rest)

def readUnit : Units → Option (UInt16 × Units)
  | [] => none
  | first :: rest => if first = 0x22 then none else if first = 0x5C then readEscape rest else some (first, rest)

def Token (unit : UInt16) (text : Units) : Prop :=
  ∀ rest, readUnit (text ++ rest) = some (unit, rest)

theorem hexValue_digit {value : Nat} (small : value < 16) : hexValue (hexDigit value) = value := by
  interval_cases value <;> rfl

theorem readHex_escape (unit : UInt16) (rest : Units) : readUnit (hexEscape unit ++ rest) = some (unit, rest) := by
  have bounded := unit.toNat_lt
  have first := @hexValue_digit (unit.toNat / 4096) (by omega)
  have second := @hexValue_digit (unit.toNat / 256 % 16) (by omega)
  have third := @hexValue_digit (unit.toNat / 16 % 16) (by omega)
  have fourth := @hexValue_digit (unit.toNat % 16) (by omega)
  have whole : unit.toNat / 4096 * 4096 + unit.toNat / 256 % 16 * 256 + unit.toNat / 16 % 16 * 16 + unit.toNat % 16 = unit.toNat := by omega
  have read : readUnit (hexEscape unit ++ rest) = some (UInt16.ofNat (hexValue (hexDigit (unit.toNat / 4096)) * 4096 +
    hexValue (hexDigit (unit.toNat / 256 % 16)) * 256 + hexValue (hexDigit (unit.toNat / 16 % 16)) * 16 +
    hexValue (hexDigit (unit.toNat % 16))), rest) := rfl
  rw [read, first, second, third, fourth, whole, UInt16.ofNat_toNat]

theorem shortEscapes_read : ∀ escape ∈ shortEscapes, escape.1 ≠ 0x75 ∧ shortEscapes.lookup escape.1 = some escape.2 := by
  simp [shortEscapes, List.lookup_cons]

theorem token_raw {unit : UInt16} (quote : unit ≠ 0x22) (backslash : unit ≠ 0x5C) : Token unit [unit] := by
  intro rest
  rw [List.singleton_append, readUnit, if_neg quote, if_neg backslash]

theorem token_escaped (unit : UInt16) : Token unit (escaped unit) := by
  rw [escaped]
  split
  · next escape found =>
    intro rest
    obtain ⟨plain, read⟩ := shortEscapes_read escape (List.mem_of_find?_eq_some found)
    have passes := List.find?_some found
    obtain rfl := eq_of_beq passes
    have short : readUnit ([0x5C, escape.1] ++ rest) =
        if escape.1 = 0x75 then readHex rest else (shortEscapes.lookup escape.1).map fun unit => (unit, rest) := rfl
    rw [short, if_neg plain, read]
    rfl
  · next none_ =>
    split
    · exact readHex_escape unit
    · have apart : ∀ escape ∈ shortEscapes, unit ≠ escape.2 := fun escape member same =>
        List.find?_eq_none.mp none_ escape member (beq_iff_eq.mpr same.symm)
      exact token_raw (apart (0x22, 0x22) (by decide)) (apart (0x5C, 0x5C) (by decide))

theorem token_surrogate {unit : UInt16} (surrogate : leads unit = true ∨ trails unit = true) : Token unit [unit] := by
  apply token_raw
  · rintro rfl
    rcases surrogate with lead | trail
    · cases lead
    · cases trail
  · rintro rfl
    rcases surrogate with lead | trail
    · cases lead
    · cases trail

inductive Spells : Units → Units → Prop where
  | nil : Spells [] []
  | cons {unit : UInt16} {text : Units} {string tail : Units} : Token unit text → Spells string tail → Spells (unit :: string) (text ++ tail)

theorem spells_escapedText (string : Units) : Spells string (escapedText string) := by
  induction string using escapedText.induct with
  | case1 => exact .nil
  | case2 unit =>
    have single := Spells.cons (token_escaped unit) .nil
    rwa [List.append_nil] at single
  | case3 unit next rest pair ih =>
    rw [escapedText, if_pos pair]
    rw [Bool.and_eq_true] at pair
    exact Spells.cons (token_surrogate (.inl pair.1)) (Spells.cons (token_surrogate (.inr pair.2)) ih)
  | case4 unit next rest apart ih =>
    rw [escapedText, if_neg apart]
    exact Spells.cons (token_escaped unit) ih

theorem spells_unique {first second : Units} {text other : Units} (spells : Spells first text) (alike : Spells second other)
    {rest rest' : Units} (same : text ++ 0x22 :: rest = other ++ 0x22 :: rest') : first = second ∧ rest = rest' := by
  have closed : ∀ rest : Units, readUnit (0x22 :: rest) = none := fun rest => by rw [readUnit, if_pos rfl]
  induction spells generalizing second other with
  | nil =>
    cases alike with
    | nil => exact ⟨rfl, (List.cons.inj same).2⟩
    | @cons _ _ _ tail token later =>
      have read := token (tail ++ 0x22 :: rest')
      rw [← List.append_assoc, ← same, List.nil_append, closed] at read
      cases read
  | @cons _ _ _ tail token later ih =>
    have read := token (tail ++ 0x22 :: rest)
    rw [← List.append_assoc, same] at read
    cases alike with
    | nil =>
      rw [List.nil_append, closed] at read
      cases read
    | cons tokenToo laterToo =>
      rw [List.append_assoc, tokenToo] at read
      obtain ⟨rfl, tails⟩ := Prod.mk.inj (Option.some.inj read)
      obtain ⟨rfl, rests⟩ := ih laterToo tails.symm
      exact ⟨rfl, rests⟩

/-- A quoted string at the front of a text is the only one that stands there. -/
theorem quoted_unique {first second rest rest' : Units} (same : quoted first ++ rest = quoted second ++ rest') :
    first = second ∧ rest = rest' := by
  rw [quoted, quoted] at same
  simp only [List.cons_append, List.append_assoc, List.nil_append, List.cons.injEq, true_and] at same
  exact spells_unique (spells_escapedText first) (spells_escapedText second) same

end Quotum.General.CodeUnits
