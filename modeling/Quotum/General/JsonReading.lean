import Mathlib.Data.Int.Log
import Mathlib.Data.Rat.Floor
import Mathlib.Tactic.Linarith
import Mathlib.Tactic.Positivity
import Quotum.General.Json

/-! Reading JSON text: blanks, strings, and numerals with the double that each of them denotes. -/

namespace Quotum.General.Json

def isBlank (character : Char) : Bool :=
  character = ' ' || character = '\t' || character = '\n' || character = '\r'

def skipBlanks (text : List Char) : List Char :=
  text.dropWhile isBlank

def expect (character : Char) : List Char → Option (List Char)
  | [] => none
  | first :: rest => if first = character then some rest else none

def hexDigit (character : Char) : Option Nat :=
  if character.isDigit then some (character.toNat - '0'.toNat)
  else if 'a' ≤ character ∧ character ≤ 'f' then some (character.toNat - 'a'.toNat + 10)
  else if 'A' ≤ character ∧ character ≤ 'F' then some (character.toNat - 'A'.toNat + 10)
  else none

/-- The character of an escaped code unit. A surrogate, which is half a character, is read as a replacement character. -/
def codeUnit (digits : List Char) : Option Char :=
  (digits.mapM hexDigit).map fun values =>
    let code := values.foldl (fun total value => total * 16 + value) 0
    if 0xD800 ≤ code ∧ code < 0xE000 then '\uFFFD' else Char.ofNat code

def unescaped (character : Char) : Option Char :=
  if character = '"' ∨ character = '\\' ∨ character = '/' then some character
  else if character = 'b' then some (Char.ofNat 8)
  else if character = 'f' then some (Char.ofNat 12)
  else if character = 'n' then some '\n'
  else if character = 'r' then some '\r'
  else if character = 't' then some '\t'
  else none

/-- Where a string stands: between characters, after a backslash, or within the digits of a code unit. -/
inductive StringMode where
  | plain
  | escape
  | hex (digits : List Char)

def readCharacters : StringMode → List Char → Option (List Char × List Char)
  | _, [] => none
  | .plain, first :: rest =>
    if first = '"' then some ([], rest)
    else if first = '\\' then readCharacters .escape rest
    else if first.toNat < 32 then none
    else (readCharacters .plain rest).map fun read => (first :: read.1, read.2)
  | .escape, first :: rest =>
    if first = 'u' then readCharacters (.hex []) rest
    else (unescaped first).bind fun character => (readCharacters .plain rest).map fun read => (character :: read.1, read.2)
  | .hex digits, first :: rest =>
    if digits.length < 3 then readCharacters (.hex (digits ++ [first])) rest
    else (codeUnit (digits ++ [first])).bind fun character => (readCharacters .plain rest).map fun read => (character :: read.1, read.2)

def readString (text : List Char) : Option (List Char × List Char) :=
  (expect '"' text).bind (readCharacters .plain)

def signedDigits (text : List Char) : Option Int :=
  let digits := if text.head? = some '+' ∨ text.head? = some '-' then text.tail else text
  if digits = [] ∨ digits.all Char.isDigit = false then none
  else some (if text.head? = some '-' then -(Nat.ofDigitChars 10 digits 0 : Int) else Nat.ofDigitChars 10 digits 0)

def exponentOf : List Char → Option Int
  | [] => some 0
  | mark :: rest => if mark = 'e' ∨ mark = 'E' then signedDigits rest else none

/-- The decimals and the exponent of what stands after a numeral's whole part. -/
def afterWhole (text : List Char) : Option (List Char × Int) :=
  if text.head? = some '.' then
    if text.tail.takeWhile Char.isDigit = [] then none
    else (exponentOf (text.tail.dropWhile Char.isDigit)).map fun exponent => (text.tail.takeWhile Char.isDigit, exponent)
  else (exponentOf text).map fun exponent => ([], exponent)

/-- Digits without a leading zero. -/
def plainDigits : List Char → Bool
  | [] => false
  | first :: rest => first.isDigit && rest.all Char.isDigit && (first != '0' || rest.isEmpty)

def unsignedNumeral (text : List Char) : Option ℚ :=
  if plainDigits (text.takeWhile Char.isDigit) then
    (afterWhole (text.dropWhile Char.isDigit)).map fun rest =>
      (Nat.ofDigitChars 10 (text.takeWhile Char.isDigit) 0 + Nat.ofDigitChars 10 rest.1 0 / 10 ^ rest.1.length : ℚ) * 10 ^ rest.2
  else none

def numeralValue (text : List Char) : Option ℚ :=
  if text.head? = some '-' then (unsignedNumeral text.tail).map fun value => -value else unsignedNumeral text

def inNumeral (character : Char) : Bool :=
  character.isDigit || ['+', '-', '.', 'e', 'E'].contains character

/-- An integer next to a number, the even one of two that are as near. -/
def nearestEven (value : ℚ) : Int :=
  if value - ⌊value⌋ < 1 / 2 then ⌊value⌋
  else if 1 / 2 < value - ⌊value⌋ then ⌊value⌋ + 1
  else if ⌊value⌋ % 2 = 0 then ⌊value⌋ else ⌊value⌋ + 1

def doubleUnit (value : ℚ) : ℚ :=
  2 ^ (max (Int.log 2 |value|) (-1022) - 52)

/-- The double nearest to a number, but for the largest numbers, where doubles end. -/
def nearestDouble (value : ℚ) : ℚ :=
  nearestEven (value / doubleUnit value) * doubleUnit value

def readNumber (text : List Char) : Option (ℚ × List Char) :=
  (numeralValue (text.takeWhile inNumeral)).map fun value => (nearestDouble value, text.dropWhile inNumeral)

def readPair {α : Type} (second : List Char → Option (α × List Char)) (text : List Char) : Option (List Char × α) := do
  let text ← expect '[' (skipBlanks text)
  let (first, text) ← readString (skipBlanks text)
  let text ← expect ',' (skipBlanks text)
  let (value, text) ← second (skipBlanks text)
  let text ← expect ']' (skipBlanks text)
  if skipBlanks text = [] then some (first, value) else none

section Strings

theorem plain_inv {character : Char} (plain : escaped character = [character]) :
    character ≠ '"' ∧ character ≠ '\\' ∧ ¬character.toNat < 32 := by
  refine ⟨?_, ?_, ?_⟩
  · rintro rfl
    cases plain
  · rintro rfl
    cases plain
  · intro control
    have length := congrArg List.length plain
    unfold escaped at length
    split_ifs at length <;> simp at length

theorem readCharacters_plain {text : List Char} (plain : Plain text) (rest : List Char) :
    readCharacters .plain (text ++ '"' :: rest) = some (text, rest) := by
  induction text with
  | nil => rfl
  | cons first others ih =>
    obtain ⟨quote, backslash, control⟩ := plain_inv (plain first List.mem_cons_self)
    rw [List.cons_append, readCharacters, if_neg quote, if_neg backslash, if_neg control,
      ih fun character member => plain character (List.mem_cons_of_mem first member)]
    rfl

theorem readCharacters_inv {text found rest : List Char} (unescaped : '\\' ∉ text) (read : readCharacters .plain text = some (found, rest)) :
    text = found ++ '"' :: rest := by
  induction text generalizing found with
  | nil => cases read
  | cons first others ih =>
    have backslash : first ≠ '\\' := fun same => unescaped (same ▸ List.mem_cons_self)
    rw [readCharacters] at read
    split at read
    next quote =>
      cases read
      rw [quote]
      rfl
    next =>
      split at read
      · cases read
      · obtain ⟨⟨later, after⟩, inside, same⟩ := Option.map_eq_some_iff.mp read
        cases same
        rw [List.cons_append, ← ih (fun member => unescaped (List.mem_cons_of_mem first member)) inside]

end Strings

section Numerals

theorem toDigits_digit {n : Nat} {c : Char} (member : c ∈ Nat.toDigits 10 n) : c.isDigit = true :=
  Nat.isDigit_of_mem_toDigits (by omega) (by omega) member

theorem toDigits_plain (n : Nat) : plainDigits (Nat.toDigits 10 n) = true := by
  have digits : ∀ m : Nat, (Nat.toDigits 10 m).all Char.isDigit = true := fun m =>
    List.all_eq_true.mpr fun _ => toDigits_digit
  induction n using Nat.strongRecOn with
  | ind n ih =>
    have own := digits n
    by_cases small : n < 10
    · rw [Nat.toDigits_of_lt_base small] at own ⊢
      simpa [plainDigits] using own
    · have before := ih (n / 10) (by omega)
      rw [Nat.toDigits_of_base_le (by omega) (by omega)] at own ⊢
      have positive : n / 10 ≠ 0 := by omega
      cases front : Nat.toDigits 10 (n / 10) with
      | nil => exact absurd front Nat.toDigits_ne_nil
      | cons first rest =>
        rw [front] at before own
        have leading : first ≠ '0' := by
          rintro rfl
          have alone : rest = [] := by
            rw [plainDigits, Bool.and_eq_true] at before
            simpa using before.2
          have value := Nat.ofDigitChars_toDigits (b := 10) (n := n / 10) (by omega) (by omega)
          rw [front, alone] at value
          exact positive value.symm
        simp only [List.cons_append, List.all_cons, Bool.and_eq_true] at own
        simp [plainDigits, own, leading]

theorem ofDigitChars_append_digit (front : List Char) (last : Char) :
    Nat.ofDigitChars 10 (front ++ [last]) 0 = 10 * Nat.ofDigitChars 10 front 0 + (last.toNat - '0'.toNat) := by
  rw [Nat.ofDigitChars_append, Nat.ofDigitChars_cons, Nat.ofDigitChars_nil]

theorem isDigit_inv {character : Char} (digit : character.isDigit = true) :
    character.toNat - '0'.toNat < 10 ∧ Nat.digitChar (character.toNat - '0'.toNat) = character := by
  have range : 48 ≤ character.toNat ∧ character.toNat ≤ 57 := by
    simp only [Char.isDigit, Bool.and_eq_true, decide_eq_true_eq, ge_iff_le, UInt32.le_iff_toNat_le] at digit
    exact digit
  have each : ∀ value : Fin 10, Nat.digitChar value = Char.ofNat (48 + value) := by decide
  have same : Char.ofNat character.toNat = character := Char.ofNat_toNat character
  refine ⟨by change character.toNat - 48 < 10; omega, ?_⟩
  have here := each ⟨character.toNat - 48, by omega⟩
  change Nat.digitChar (character.toNat - 48) = character
  rw [here, show 48 + (character.toNat - 48) = character.toNat by omega, same]

/-- Digits without a leading zero are the only ones that write their number. -/
theorem plainDigits_toDigits {text : List Char} (plain : plainDigits text = true) : Nat.toDigits 10 (Nat.ofDigitChars 10 text 0) = text := by
  induction text using List.reverseRecOn with
  | nil => cases plain
  | append_singleton front last ih =>
    cases front with
    | nil =>
      have digit : last.isDigit = true := by simpa [plainDigits] using plain
      obtain ⟨small, same⟩ := isDigit_inv digit
      have value := ofDigitChars_append_digit [] last
      rw [Nat.ofDigitChars_nil, Nat.mul_zero, Nat.zero_add] at value
      rw [value, Nat.toDigits_of_lt_base small, same]
      rfl
    | cons first rest =>
      simp only [plainDigits, List.cons_append, List.all_append, Bool.and_eq_true, Bool.or_eq_true, bne_iff_ne, ne_eq,
        List.isEmpty_iff, List.append_eq_nil_iff, List.all_cons, List.all_nil, List.cons_ne_nil, and_false, or_false, and_true] at plain
      obtain ⟨⟨one, others, digit⟩, leading⟩ := plain
      have before : plainDigits (first :: rest) = true := by simp [plainDigits, one, others, leading]
      have front := ih before
      obtain ⟨small, same⟩ := isDigit_inv digit
      have positive : 0 < Nat.ofDigitChars 10 (first :: rest) 0 := by
        rw [Nat.pos_iff_ne_zero]
        intro zero
        rw [zero, Nat.toDigits_zero] at front
        exact leading (List.cons.inj front).1.symm
      rw [ofDigitChars_append_digit]
      rw [Nat.toDigits_of_base_le (by omega) (by omega), Nat.mul_add_mod, Nat.mod_eq_of_lt small,
        Nat.mul_add_div (by omega), Nat.div_eq_of_lt small, Nat.add_zero, front, same]

theorem plainDigits_all {text : List Char} (plain : plainDigits text = true) : ∀ character ∈ text, character.isDigit = true := by
  cases text with
  | nil => cases plain
  | cons first rest =>
    simp only [plainDigits, Bool.and_eq_true] at plain
    intro character member
    rcases List.mem_cons.mp member with rfl | later
    · exact plain.1.1
    · exact List.all_eq_true.mp plain.1.2 character later

theorem numeralValue_plain {text : List Char} (plain : plainDigits text = true) :
    numeralValue text = some (Nat.ofDigitChars 10 text 0 : ℚ) := by
  have all := plainDigits_all plain
  have unsigned : text.head? ≠ some '-' := by
    intro sign
    have member := List.mem_of_mem_head? sign
    exact absurd (all '-' member) (by decide)
  have whole : text.takeWhile Char.isDigit = text := List.takeWhile_eq_self_iff.mpr all
  have rest : text.dropWhile Char.isDigit = [] := List.dropWhile_eq_nil_iff.mpr all
  rw [numeralValue, if_neg unsigned, unsignedNumeral, whole, rest, if_pos plain]
  simp [afterWhole, exponentOf]

end Numerals

section Doubles

theorem nearestEven_intCast (value : Int) : nearestEven value = value := by
  unfold nearestEven
  rw [Int.floor_intCast, sub_self, if_pos (by norm_num)]

theorem floor_le_nearestEven (value : ℚ) : ⌊value⌋ ≤ nearestEven value := by
  unfold nearestEven
  split_ifs <;> omega

theorem doubleUnit_natCast (n : Nat) : doubleUnit n = 2 ^ ((Nat.log 2 n : Int) - 52) := by
  have absolute : |(n : ℚ)| = n := abs_of_nonneg (Nat.cast_nonneg n)
  rw [doubleUnit, absolute, Int.log_natCast, max_eq_left (by omega)]

theorem nearestDouble_safe {n : Nat} (safe : n < 2 ^ 53) : nearestDouble n = n := by
  have short : Nat.log 2 n ≤ 52 := Nat.le_of_lt_succ (Nat.log_lt_of_lt_pow' (by omega) safe)
  have whole : (n : ℚ) / doubleUnit n = ((n * 2 ^ (52 - Nat.log 2 n) : Nat) : Int) := by
    have exponent : (Nat.log 2 n : Int) - 52 = -((52 - Nat.log 2 n : Nat) : Int) := by omega
    rw [doubleUnit_natCast, exponent, zpow_neg, zpow_natCast, div_inv_eq_mul]
    push_cast
    rfl
  have positive : doubleUnit n ≠ 0 := by
    rw [doubleUnit_natCast]
    positivity
  rw [nearestDouble, whole, nearestEven_intCast, ← whole, div_mul_cancel₀ _ positive]

/-- The integers beyond the safe bound are not read as smaller ones. -/
theorem nearestDouble_large {n : Nat} (large : 2 ^ 53 ≤ n) : (2 ^ 53 : ℚ) ≤ nearestDouble n := by
  have long : 53 ≤ Nat.log 2 n := Nat.le_log_of_pow_le (by omega) large
  have power : 2 ^ Nat.log 2 n ≤ n := Nat.pow_log_le_self 2 (by omega)
  have positive : 0 < doubleUnit n := by
    rw [doubleUnit_natCast]
    positivity
  have unit : (2 : ℚ) ^ 52 * doubleUnit n = 2 ^ Nat.log 2 n := by
    rw [doubleUnit_natCast, ← zpow_natCast, ← zpow_natCast, ← zpow_add₀ (by norm_num)]
    congr 1
    omega
  have steps : (2 : Int) ^ 52 ≤ ⌊(n : ℚ) / doubleUnit n⌋ := by
    rw [Int.le_floor, le_div_iff₀ positive, show (((2 : Int) ^ 52 : Int) : ℚ) = (2 : ℚ) ^ 52 by norm_num, unit]
    exact_mod_cast power
  have rounded : ((2 : Int) ^ 52 : ℚ) ≤ nearestEven ((n : ℚ) / doubleUnit n) := by
    exact_mod_cast steps.trans (floor_le_nearestEven _)
  calc (2 ^ 53 : ℚ) ≤ 2 ^ Nat.log 2 n := pow_le_pow_right₀ (by norm_num) long
    _ = 2 ^ 52 * doubleUnit n := unit.symm
    _ ≤ nearestDouble n := by
      rw [nearestDouble]
      exact mul_le_mul_of_nonneg_right (by exact_mod_cast rounded) positive.le

end Doubles

section Pairs
variable {α : Type} {second : List Char → Option (α × List Char)}

theorem expect_inv {character : Char} {text rest : List Char} (read : expect character text = some rest) : text = character :: rest := by
  cases text with
  | nil => cases read
  | cons first others =>
    rw [expect] at read
    split at read
    next same =>
      cases read
      rw [same]
    · cases read

/-- Text without blanks and escapes. -/
def Clean (text : List Char) : Prop :=
  ∀ character ∈ text, isBlank character = false ∧ character ≠ '\\'

theorem Clean.of_suffix {text rest : List Char} (clean : Clean text) (suffix : rest <:+ text) : Clean rest :=
  fun character member => clean character (suffix.subset member)

theorem Clean.skipBlanks {text : List Char} (clean : Clean text) : skipBlanks text = text := by
  cases text with
  | nil => rfl
  | cons first rest => exact List.dropWhile_cons_of_neg (by simp [(clean first List.mem_cons_self).1])

/-- A pair that is written without blanks and escapes is written in one way. -/
theorem readPair_inv {text first : List Char} {value : α} (clean : Clean text)
    (splits : ∀ text value rest, second text = some (value, rest) → rest <:+ text) (read : readPair second text = some (first, value)) :
    ∃ written, text = '[' :: '"' :: first ++ '"' :: ',' :: written ++ [']'] ∧ second (written ++ [']']) = some (value, [']']) := by
  unfold readPair at read
  simp only [Option.bind_eq_bind, Option.bind_eq_some_iff, Prod.exists] at read
  obtain ⟨opened, bracket, found, quoted, string, afterString, comma, other, rest, valued, ending, closed, read⟩ := read
  rw [clean.skipBlanks] at bracket
  obtain rfl := expect_inv bracket
  have cleanOpened := clean.of_suffix (List.suffix_cons '[' opened)
  obtain ⟨inner, quote, characters⟩ := Option.bind_eq_some_iff.mp string
  rw [cleanOpened.skipBlanks] at quote
  obtain rfl := expect_inv quote
  have cleanInner := cleanOpened.of_suffix (List.suffix_cons '"' inner)
  obtain rfl := readCharacters_inv (fun member => (cleanInner _ member).2 rfl) characters
  have cleanQuoted := (cleanInner.of_suffix (List.suffix_append found _)).of_suffix (List.suffix_cons '"' quoted)
  rw [cleanQuoted.skipBlanks] at comma
  obtain rfl := expect_inv comma
  have cleanAfter := cleanQuoted.of_suffix (List.suffix_cons ',' afterString)
  rw [cleanAfter.skipBlanks] at valued
  have suffix := splits _ _ _ valued
  rw [(cleanAfter.of_suffix suffix).skipBlanks] at closed
  obtain rfl := expect_inv closed
  rw [((cleanAfter.of_suffix suffix).of_suffix (List.suffix_cons ']' ending)).skipBlanks] at read
  split at read
  next done =>
    cases read
    subst done
    obtain ⟨written, rfl⟩ := suffix
    exact ⟨written, by simp, valued⟩
  · cases read

theorem readPair_plain {first spelled written : List Char} {value : α} (plain : Plain first)
    (start : skipBlanks (spelled ++ [']']) = written ++ [']']) (read : second (written ++ [']']) = some (value, [']'])) :
    readPair second ('[' :: '"' :: first ++ '"' :: ',' :: spelled ++ [']']) = some (first, value) := by
  have string := readCharacters_plain plain (',' :: spelled ++ [']'])
  have quoted : readString ('"' :: first ++ '"' :: ',' :: spelled ++ [']']) = some (first, ',' :: spelled ++ [']']) := by
    rw [readString, List.cons_append, List.cons_append, expect, if_pos rfl, Option.bind_some, List.append_assoc]
    exact string
  unfold readPair
  have opening : skipBlanks ('[' :: '"' :: first ++ '"' :: ',' :: spelled ++ [']']) =
      '[' :: '"' :: first ++ '"' :: ',' :: spelled ++ [']'] := rfl
  have inner : skipBlanks ('"' :: first ++ '"' :: ',' :: spelled ++ [']']) = '"' :: first ++ '"' :: ',' :: spelled ++ [']'] := rfl
  have comma : skipBlanks (',' :: spelled ++ [']']) = ',' :: spelled ++ [']'] := rfl
  have closing : skipBlanks [']'] = [']'] := rfl
  have ending : skipBlanks [] = [] := rfl
  rw [opening, List.cons_append, List.cons_append, expect, if_pos rfl, Option.bind_eq_bind, Option.bind_some]
  change (readString (skipBlanks ('"' :: first ++ '"' :: ',' :: spelled ++ [']']))).bind _ = _
  rw [inner, quoted, Option.bind_some]
  dsimp only
  rw [comma, List.cons_append, expect, if_pos rfl, Option.bind_eq_bind, Option.bind_some, start, read, Option.bind_some]
  dsimp only
  rw [closing, expect, if_pos rfl, Option.bind_some, if_pos ending]

end Pairs

section Numbers

theorem readNumber_suffix (text : List Char) (value : ℚ) (rest : List Char) (read : readNumber text = some (value, rest)) : rest <:+ text := by
  obtain ⟨number, -, same⟩ := Option.map_eq_some_iff.mp read
  cases same
  exact List.dropWhile_suffix _

theorem takeWhile_numeral {text : List Char} (digits : ∀ character ∈ text, character.isDigit = true) :
    (text ++ [']']).takeWhile inNumeral = text ∧ (text ++ [']']).dropWhile inNumeral = [']'] := by
  induction text with
  | nil => exact ⟨rfl, rfl⟩
  | cons first rest ih =>
    obtain ⟨taken, left⟩ := ih fun character member => digits character (List.mem_cons_of_mem first member)
    have inside : inNumeral first = true := by rw [inNumeral, digits first List.mem_cons_self, Bool.true_or]
    rw [List.cons_append, List.takeWhile_cons_of_pos inside, List.dropWhile_cons_of_pos inside, taken, left]
    exact ⟨rfl, rfl⟩

/-- A plain numeral before the closing bracket is read as the double next to it. -/
theorem readNumber_plain {text : List Char} (plain : plainDigits text = true) :
    readNumber (text ++ [']']) = some (nearestDouble (Nat.ofDigitChars 10 text 0), [']']) := by
  obtain ⟨taken, left⟩ := takeWhile_numeral (plainDigits_all plain)
  rw [readNumber, taken, left, numeralValue_plain plain, Option.map_some]

end Numbers

end Quotum.General.Json
