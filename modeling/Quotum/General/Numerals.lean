import Quotum.General.CodeUnits

/-! Numbers as JSON text writes them. A finite number is the shortest decimal that denotes it, and the text, with its point, its zeros and
its exponent, tells that decimal. -/

namespace Quotum.General.Numerals
open CodeUnits

/-- A number other than zero: the digits of its shortest decimal, and how many of them stand before the point. -/
structure Decimal where
  negative : Bool
  digits : List (Fin 10)
  point : Int
  nonempty : digits ≠ []
  leading : digits.head? ≠ some 0
  trailing : digits.getLast? ≠ some 0

inductive Number where
  | zero
  | nonzero (decimal : Decimal)

/-- What a number's text is made of: the digits before and behind its point, and its exponent. -/
structure Shape where
  whole : List (Fin 10)
  fraction : List (Fin 10)
  exponent : Option Int

/-- A decimal's shape: whole, with a point among its digits, with zeros before them, or with an exponent. -/
def shape (digits : List (Fin 10)) (point : Int) : Shape :=
  if digits.length ≤ point ∧ point ≤ 21 then ⟨digits ++ List.replicate (point.toNat - digits.length) 0, [], none⟩
  else if 0 < point ∧ point ≤ 21 then ⟨digits.take point.toNat, digits.drop point.toNat, none⟩
  else if -6 < point ∧ point ≤ 0 then ⟨[0], List.replicate (-point).toNat 0 ++ digits, none⟩
  else ⟨digits.take 1, digits.drop 1, some (point - 1)⟩

def digitUnit (digit : Fin 10) : UInt16 :=
  UInt16.ofNat (48 + digit)

def naturalText (value : Nat) : Units :=
  (Nat.toDigits 10 value).map fun character => UInt16.ofNat character.toNat

def exponentText (exponent : Int) : Units :=
  0x65 :: (if exponent < 0 then 0x2D else 0x2B) :: naturalText exponent.natAbs

def Shape.text (shape : Shape) : Units :=
  shape.whole.map digitUnit ++ ((if shape.fraction = [] then [] else 0x2E :: shape.fraction.map digitUnit) ++
    shape.exponent.elim [] exponentText)

def Number.text : Number → Units
  | .zero => [0x30]
  | .nonzero decimal => (if decimal.negative then [0x2D] else []) ++ (shape decimal.digits decimal.point).text

def isNumeral (unit : UInt16) : Bool :=
  (0x30 ≤ unit && unit ≤ 0x39) || unit == 0x2E || unit == 0x65 || unit == 0x2B || unit == 0x2D

def isDigit (unit : UInt16) : Bool :=
  0x30 ≤ unit && unit ≤ 0x39

theorem takeWhile_ends {test : UInt16 → Bool} {front rest : Units} (all : ∀ unit ∈ front, test unit = true)
    (ends : ∀ unit ∈ rest.head?, test unit = false) : (front ++ rest).takeWhile test = front := by
  rw [List.takeWhile_append_of_pos all]
  cases rest with
  | nil => exact List.append_nil _
  | cons first rest => rw [List.takeWhile_cons_of_neg (by rw [ends first rfl]; simp), List.append_nil]

theorem digitUnit_isDigit (digit : Fin 10) : isDigit (digitUnit digit) = true := by
  fin_cases digit <;> rfl

theorem digitUnit_injective : Function.Injective digitUnit := by
  intro first second same
  have values := congrArg UInt16.toNat same
  simp only [digitUnit, UInt16.toNat_ofNat'] at values
  omega

theorem numeral_of_digit {unit : UInt16} (digit : isDigit unit = true) : isNumeral unit = true := by
  rw [isDigit] at digit
  rw [isNumeral, digit]
  rfl

section Exponent

theorem natural_units (value : Nat) : ∀ character ∈ Nat.toDigits 10 value,
    48 ≤ character.toNat ∧ character.toNat ≤ 57 := by
  intro character member
  have digit := Nat.isDigit_of_mem_toDigits (by omega) (by omega) member
  simp only [Char.isDigit, Bool.and_eq_true, decide_eq_true_eq, ge_iff_le, UInt32.le_iff_toNat_le] at digit
  exact digit

theorem naturalText_digits (value : Nat) : ∀ unit ∈ naturalText value, isDigit unit = true := by
  intro unit member
  obtain ⟨character, inside, rfl⟩ := List.mem_map.mp member
  obtain ⟨low, high⟩ := natural_units value character inside
  simp only [isDigit, Bool.and_eq_true, decide_eq_true_eq, UInt16.le_iff_toNat_le, UInt16.toNat_ofNat', show (0x30 : UInt16).toNat = 48 from rfl,
    show (0x39 : UInt16).toNat = 57 from rfl]
  omega

theorem naturalText_injective : Function.Injective naturalText := by
  have back : ∀ value, (naturalText value).map (fun unit => Char.ofNat unit.toNat) = Nat.toDigits 10 value := by
    intro value
    rw [naturalText, List.map_map]
    have same : ∀ character ∈ Nat.toDigits 10 value,
        ((fun unit : UInt16 => Char.ofNat unit.toNat) ∘ fun character : Char => UInt16.ofNat character.toNat) character = id character := by
      intro character member
      obtain ⟨low, high⟩ := natural_units value character member
      rw [Function.comp_apply, UInt16.toNat_ofNat', Nat.mod_eq_of_lt (by omega), Char.ofNat_toNat, id]
    rw [List.map_congr_left same, List.map_id]
  intro first second same
  have digits := (back first).symm.trans ((congrArg _ same).trans (back second))
  rw [← Nat.ofDigitChars_ten_toDigits (n := first), digits, Nat.ofDigitChars_ten_toDigits]

theorem exponentText_injective : Function.Injective exponentText := by
  intro first second same
  rw [exponentText, exponentText] at same
  obtain ⟨sign, digits⟩ := List.cons.inj (List.cons.inj same).2
  have magnitudes := naturalText_injective digits
  split at sign
  · split at sign
    · omega
    · cases sign
  · split at sign
    · cases sign
    · omega

end Exponent

section Text

theorem map_isDigit (digits : List (Fin 10)) : ∀ unit ∈ digits.map digitUnit, isDigit unit = true := by
  intro unit member
  obtain ⟨digit, -, rfl⟩ := List.mem_map.mp member
  exact digitUnit_isDigit digit

theorem digits_unique {first second : List (Fin 10)} {rest rest' : Units} (ends : ∀ unit ∈ rest.head?, isDigit unit = false)
    (ends' : ∀ unit ∈ rest'.head?, isDigit unit = false) (same : first.map digitUnit ++ rest = second.map digitUnit ++ rest') :
    first = second ∧ rest = rest' := by
  have digits : first.map digitUnit = second.map digitUnit := by
    rw [← takeWhile_ends (map_isDigit first) ends, same, takeWhile_ends (map_isDigit second) ends']
  obtain rfl := List.map_injective_iff.mpr digitUnit_injective digits
  exact ⟨rfl, List.append_cancel_left same⟩

theorem exponent_ends (exponent : Option Int) : ∀ unit ∈ (exponent.elim [] exponentText).head?, isDigit unit = false := by
  intro unit first
  cases exponent with
  | none => cases first
  | some exponent =>
    obtain rfl := Option.some.inj first
    rfl

theorem exponents_unique {first second : Option Int} (same : first.elim [] exponentText = second.elim [] exponentText) : first = second := by
  cases first with
  | none =>
    cases second with
    | none => rfl
    | some exponent => cases same
  | some exponent =>
    cases second with
    | none => cases same
    | some other => rw [exponentText_injective same]

theorem text_injective : Function.Injective Shape.text := by
  rintro ⟨whole, fraction, exponent⟩ ⟨whole', fraction', exponent'⟩ same
  have ends : ∀ (fraction : List (Fin 10)) (exponent : Option Int),
      ∀ unit ∈ ((if fraction = [] then [] else 0x2E :: fraction.map digitUnit) ++ exponent.elim [] exponentText).head?,
        isDigit unit = false := by
    intro fraction exponent unit first
    split at first
    · exact exponent_ends exponent unit first
    · obtain rfl := Option.some.inj first
      rfl
  obtain ⟨rfl, rest⟩ := digits_unique (ends _ _) (ends _ _) same
  have pointed : ∀ exponent : Option Int, ∀ rest : Units, exponent.elim [] exponentText ≠ 0x2E :: rest := by
    intro exponent rest same
    cases exponent with
    | none => cases same
    | some exponent => cases same
  split at rest
  · next none_ =>
    split at rest
    · next none' =>
      obtain rfl : fraction = [] := none_
      obtain rfl : fraction' = [] := none'
      obtain rfl : exponent = exponent' := exponents_unique rest
      rfl
    · exact absurd rest (pointed _ _)
  · split at rest
    · exact absurd rest.symm (pointed _ _)
    · obtain ⟨rfl, exponents⟩ := digits_unique (exponent_ends _) (exponent_ends _) (List.cons.inj rest).2
      obtain rfl : exponent = exponent' := exponents_unique exponents
      rfl

theorem text_numeral (shape : Shape) : ∀ unit ∈ shape.text, isNumeral unit = true := by
  have digits : ∀ digits : List (Fin 10), ∀ unit ∈ digits.map digitUnit, isNumeral unit = true :=
    fun digits unit member => numeral_of_digit (map_isDigit digits unit member)
  intro unit member
  rw [Shape.text, List.mem_append, List.mem_append] at member
  rcases member with whole | fraction | exponent
  · exact digits _ unit whole
  · split at fraction
    · cases fraction
    · rcases List.mem_cons.mp fraction with rfl | inside
      · rfl
      · exact digits _ unit inside
  · cases here : shape.exponent with
    | none =>
      rw [here] at exponent
      cases exponent
    | some value =>
      rw [here, Option.elim_some, exponentText] at exponent
      rcases List.mem_cons.mp exponent with rfl | signed
      · rfl
      · rcases List.mem_cons.mp signed with rfl | inside
        · split <;> rfl
        · exact numeral_of_digit (naturalText_digits _ unit inside)

end Text

/-- The digits of a shape without the zeros around them. -/
def Shape.digits (shape : Shape) : List (Fin 10) :=
  ((shape.whole ++ shape.fraction).dropWhile (· == 0)).rdropWhile (· == 0)

def Shape.point (shape : Shape) : Int :=
  shape.whole.length - ((shape.whole ++ shape.fraction).takeWhile (· == 0)).length + shape.exponent.getD 0

section Shapes
variable {digits : List (Fin 10)} {point : Int}

/-- Zeros around digits that neither begin nor end with one. -/
theorem zeros_around (nonempty : digits ≠ []) (leading : digits.head? ≠ some 0) (trailing : digits.getLast? ≠ some 0) (before after : Nat) :
    ((List.replicate before 0 ++ digits ++ List.replicate after 0).dropWhile (· == 0)).rdropWhile (· == 0) = digits ∧
      ((List.replicate before 0 ++ digits ++ List.replicate after 0).takeWhile (· == 0)).length = before := by
  obtain ⟨first, rest, rfl⟩ := List.exists_cons_of_ne_nil nonempty
  have starts : ¬ (first == 0) = true := fun zero => leading (by rw [List.head?_cons, eq_of_beq zero])
  have zeros : ∀ zero ∈ List.replicate before (0 : Fin 10), (zero == 0) = true := by
    intro zero member
    rw [List.eq_of_mem_replicate member]
    rfl
  rw [List.append_assoc, List.dropWhile_append_of_pos zeros, List.takeWhile_append_of_pos zeros, List.cons_append,
    List.dropWhile_cons_of_neg (p := (· == 0)) starts, List.takeWhile_cons_of_neg (p := (· == 0)) starts, List.append_nil, List.length_replicate, ← List.cons_append]
  refine ⟨?_, rfl⟩
  induction after with
  | zero =>
    rw [List.replicate_zero, List.append_nil]
    refine List.rdropWhile_eq_self_iff.mpr fun some_ zero => trailing ?_
    rw [List.getLast?_eq_some_getLast some_, eq_of_beq zero]
  | succ after ih =>
    rw [List.replicate_succ', ← List.append_assoc, List.rdropWhile_concat_pos _ _ _ rfl]
    exact ih

theorem shape_digits (nonempty : digits ≠ []) (leading : digits.head? ≠ some 0) (trailing : digits.getLast? ≠ some 0) :
    (shape digits point).digits = digits ∧ (shape digits point).point = point := by
  have around := zeros_around nonempty leading trailing
  have some_ := List.length_pos_of_ne_nil nonempty
  have plain := around 0 0
  rw [List.replicate_zero, List.nil_append, List.append_nil] at plain
  rw [shape]
  split
  · next inside =>
    obtain ⟨stripped, before⟩ := around 0 (point.toNat - digits.length)
    rw [List.replicate_zero, List.nil_append] at stripped before
    simp only [Shape.digits, Shape.point, List.append_nil, stripped, before, List.length_append, List.length_replicate, Option.getD_none, true_and]
    omega
  · split
    · next inside =>
      simp only [Shape.digits, Shape.point, List.take_append_drop, plain, List.length_take, Option.getD_none, true_and]
      omega
    · split
      · next inside =>
        obtain ⟨stripped, before⟩ := around ((-point).toNat + 1) 0
        rw [List.replicate_zero, List.append_nil, List.replicate_succ, List.cons_append] at stripped before
        simp only [Shape.digits, Shape.point, List.singleton_append, stripped, before, List.length_singleton, Option.getD_none, true_and]
        omega
      · simp only [Shape.digits, Shape.point, List.take_append_drop, plain, List.length_take, Option.getD_some, true_and]
        omega

end Shapes

theorem shape_whole {digits : List (Fin 10)} (nonempty : digits ≠ []) (point : Int) : (shape digits point).whole ≠ [] := by
  rw [shape]
  split
  · exact List.append_ne_nil_of_left_ne_nil nonempty _
  · split
    · next inside =>
      intro none_
      rcases List.take_eq_nil_iff.mp none_ with short | empty
      · omega
      · exact nonempty empty
    · split
      · exact List.cons_ne_nil _ _
      · intro none_
        rcases List.take_eq_nil_iff.mp none_ with short | empty
        · cases short
        · exact nonempty empty

theorem text_starts (decimal : Decimal) : ∃ digit rest, (shape decimal.digits decimal.point).text = digitUnit digit :: rest := by
  obtain ⟨digit, rest, whole⟩ := List.exists_cons_of_ne_nil (shape_whole decimal.nonempty decimal.point)
  rw [Shape.text, whole]
  exact ⟨digit, _, rfl⟩

theorem unsigned_apart (decimal : Decimal) (rest : Units) : (shape decimal.digits decimal.point).text ≠ 0x2D :: rest := by
  intro same
  obtain ⟨digit, tail, starts⟩ := text_starts decimal
  have minus : isDigit 0x2D = true := by
    rw [← (List.cons.inj (starts.symm.trans same)).1]
    exact digitUnit_isDigit digit
  cases minus

theorem zero_apart (decimal : Decimal) : Number.text (.nonzero decimal) ≠ Number.text .zero := by
  intro same
  rw [Number.text, Number.text] at same
  split at same
  · cases (List.cons.inj same).1
  · have zero : shape decimal.digits decimal.point = ⟨[0], [], none⟩ := text_injective same
    have digits := (@shape_digits _ decimal.point decimal.nonempty decimal.leading decimal.trailing).1
    rw [zero] at digits
    exact decimal.nonempty digits.symm

theorem Number.text_injective : Function.Injective Number.text := by
  intro first second same
  cases first with
  | zero =>
    cases second with
    | zero => rfl
    | nonzero decimal => exact absurd same.symm (zero_apart decimal)
  | nonzero decimal =>
    cases second with
    | zero => exact absurd same (zero_apart decimal)
    | nonzero other =>
      have alike : decimal.negative = other.negative ∧
          (shape decimal.digits decimal.point).text = (shape other.digits other.point).text := by
        rw [Number.text, Number.text] at same
        cases sign : decimal.negative with
        | true =>
          cases sign' : other.negative with
          | true =>
            rw [sign, sign'] at same
            exact ⟨rfl, (List.cons.inj same).2⟩
          | false =>
            rw [sign, sign'] at same
            exact absurd same.symm (unsigned_apart other _)
        | false =>
          cases sign' : other.negative with
          | true =>
            rw [sign, sign'] at same
            exact absurd same (unsigned_apart decimal _)
          | false =>
            rw [sign, sign'] at same
            exact ⟨rfl, same⟩
      obtain ⟨digits, point⟩ := @shape_digits _ decimal.point decimal.nonempty decimal.leading decimal.trailing
      obtain ⟨digits', point'⟩ := @shape_digits _ other.point other.nonempty other.leading other.trailing
      have shapes := Numerals.text_injective alike.2
      rw [shapes] at digits point
      obtain ⟨negative, own, place, _, _, _⟩ := decimal
      obtain ⟨negative', own', place', _, _, _⟩ := other
      obtain rfl : own = own' := digits.symm.trans digits'
      obtain rfl : place = place' := point.symm.trans point'
      obtain rfl : negative = negative' := alike.1
      rfl

theorem Number.text_numeral (number : Number) : ∀ unit ∈ number.text, isNumeral unit = true := by
  intro unit member
  cases number with
  | zero =>
    obtain rfl := List.mem_singleton.mp member
    rfl
  | nonzero decimal =>
    rw [Number.text] at member
    rcases List.mem_append.mp member with sign | inside
    · split at sign
      · obtain rfl := List.mem_singleton.mp sign
        rfl
      · cases sign
    · exact Numerals.text_numeral _ unit inside

theorem Number.text_nonempty (number : Number) : ∃ first rest, number.text = first :: rest := by
  cases number with
  | zero => exact ⟨_, _, rfl⟩
  | nonzero decimal =>
    obtain ⟨digit, rest, starts⟩ := text_starts decimal
    rw [Number.text, starts]
    split
    · exact ⟨_, _, rfl⟩
    · exact ⟨_, _, rfl⟩

/-- A number at the front of a text, with something behind it that cannot belong to a number. -/
theorem number_unique {first second : Number} {rest rest' : Units} (ends : ∀ unit ∈ rest.head?, isNumeral unit = false)
    (ends' : ∀ unit ∈ rest'.head?, isNumeral unit = false) (same : first.text ++ rest = second.text ++ rest') :
    first = second ∧ rest = rest' := by
  have texts : first.text = second.text := by
    rw [← takeWhile_ends first.text_numeral ends, same, takeWhile_ends second.text_numeral ends']
  obtain rfl := Number.text_injective texts
  exact ⟨rfl, List.append_cancel_left same⟩

end Quotum.General.Numerals
