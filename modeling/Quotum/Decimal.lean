import Mathlib

/-! The decimal codec. Quantities travel as text and are computed on as integer
units of a fixed scale. -/

namespace Quotum

/-- What a request can fail with: a rejected input, a rejected operation, or an
assertion of the code about its own state. -/
inductive Failure where
  | invalidRequest (message : String)
  | conflict (message : String)
  | internal (message : String)
  deriving DecidableEq

/-- Up to it the host counts whole numbers exactly. -/
def maxSafeInteger : Nat := 2 ^ 53 - 1

abbrev Text := List Char

instance : LawfulBEq Text := inferInstance

namespace Decimal

/-- The white space and line terminators that `trim` removes. -/
def isBlank (c : Char) : Bool :=
  [0x09, 0x0A, 0x0B, 0x0C, 0x0D, 0x20, 0xA0, 0x1680, 0x2000, 0x2001, 0x2002, 0x2003, 0x2004, 0x2005, 0x2006,
    0x2007, 0x2008, 0x2009, 0x200A, 0x2028, 0x2029, 0x202F, 0x205F, 0x3000, 0xFEFF].contains c.toNat

def trim (text : Text) : Text :=
  (text.dropWhile isBlank).rdropWhile isBlank

/-- What stands before the first point. -/
def wholePart (text : Text) : Text :=
  text.takeWhile (· != '.')

/-- What stands between the first point and the next one. -/
def fractionPart (text : Text) : Text :=
  ((text.dropWhile (· != '.')).drop 1).takeWhile (· != '.')

def wholePattern : Text → Bool
  | [] => false
  | ['0'] => true
  | first :: rest => first.isDigit && first != '0' && rest.all Char.isDigit

/-- `^(?:0|[1-9]\d*)(?:\.\d+)?$` -/
def unsignedDecimalPattern (text : Text) : Bool :=
  wholePattern (wholePart text) &&
    match text.dropWhile (· != '.') with
    | [] => true
    | _ :: fraction => !fraction.isEmpty && fraction.all Char.isDigit

def maxInputIntegerDigits : Nat := 19

def withoutTrailingZeros (fraction : Text) : Text :=
  fraction.rdropWhile (· == '0')

def joinParts (whole fraction : Text) : Text :=
  if fraction = [] then whole else whole ++ '.' :: fraction

/-- Canonical form without the input bound, for stored values and internal arithmetic. -/
def unboundedDecimal (value : Text) (field : String) (maxScale : Nat) : Except Failure Text :=
  let trimmed := trim value
  if unsignedDecimalPattern trimmed then
    let canonicalFraction := withoutTrailingZeros (fractionPart trimmed)
    if canonicalFraction.length > maxScale then
      .error (.invalidRequest s!"{field} supports at most {maxScale} decimal places")
    else .ok (joinParts (wholePart trimmed) canonicalFraction)
  else .error (.invalidRequest s!"{field} must be a non-negative decimal string")

/-- A caller's non-negative decimal in canonical form, bounded to what every column can hold. -/
def canonicalDecimal (value : Text) (field : String) (maxScale : Nat) : Except Failure Text := do
  let canonical ← unboundedDecimal value field maxScale
  if (wholePart canonical).length > maxInputIntegerDigits then
    .error (.invalidRequest s!"{field} supports at most {maxInputIntegerDigits} digits before the decimal point")
  else return canonical

def padEnd (fraction : Text) (scale : Nat) : Text :=
  fraction ++ List.replicate (scale - fraction.length) '0'

def canonicalSignedDecimal (value : Text) (field : String) (maxScale : Nat) : Except Failure Text :=
  match trim value with
  | '-' :: magnitude => do
    let canonical ← canonicalDecimal magnitude field maxScale
    return if canonical = ['0'] then canonical else '-' :: canonical
  | trimmed => canonicalDecimal trimmed field maxScale

def decimalToUnits (value : Text) (scale : Nat) : Except Failure Nat := do
  let canonical ← unboundedDecimal value "decimal" scale
  return Nat.ofDigitChars 10 (wholePart canonical) 0 * 10 ^ scale +
    Nat.ofDigitChars 10 (padEnd (fractionPart canonical) scale) 0

def positiveDecimal (value : Text) (field : String) (maxScale : Nat) : Except Failure Text := do
  let canonical ← canonicalDecimal value field maxScale
  let units ← decimalToUnits canonical maxScale
  if units ≤ 0 then .error (.invalidRequest s!"{field} must be greater than zero")
  else return canonical

def padStart (digits : Text) (scale : Nat) : Text :=
  List.replicate (scale - digits.length) '0' ++ digits

/-- The text of nonnegative units, without its sign. -/
def magnitudeToDecimal (absolute : Nat) (scale : Nat) : Text :=
  if scale = 0 then Nat.toDigits 10 absolute
  else
    joinParts (Nat.toDigits 10 (absolute / 10 ^ scale))
      (withoutTrailingZeros (padStart (Nat.toDigits 10 (absolute % 10 ^ scale)) scale))

def unitsToDecimal (value : Int) (scale : Nat) : Text :=
  if value < 0 then '-' :: magnitudeToDecimal value.natAbs scale else magnitudeToDecimal value.natAbs scale

def signedDecimalToUnits (value : Text) (scale : Nat) : Except Failure Int :=
  match value with
  | '-' :: magnitude => do return -(Int.ofNat (← decimalToUnits magnitude scale))
  | _ => do return Int.ofNat (← decimalToUnits value scale)

def databaseDecimal (value : Text) (field : String) (maxScale : Nat) : Except Failure Text :=
  unboundedDecimal value field maxScale

def columnScale : Nat := 9

def columnText (units : Nat) : Text :=
  joinParts (Nat.toDigits 10 (units / 10 ^ columnScale))
    (padStart (Nat.toDigits 10 (units % 10 ^ columnScale)) columnScale)

/-- The digits a text needs after the point once its trailing zeros are gone. -/
def fractionDigits (value : Text) : Nat :=
  (withoutTrailingZeros (fractionPart (trim value))).length

end Decimal
end Quotum
