import Quotum.General.JsonReading
import Quotum.General.Outcomes
import Quotum.Proofs.Decimal

/-! The decimal codec as a whole. A digit string of a known length is determined by its value, so units render to the canonical form
of the text that they were read from. -/

namespace Quotum.Decimal

theorem digits_unique {first second : Text} (digits : ∀ c ∈ first, c.isDigit = true) (others : ∀ c ∈ second, c.isDigit = true)
    (length : first.length = second.length) (value : Nat.ofDigitChars 10 first 0 = Nat.ofDigitChars 10 second 0) :
    first = second := by
  induction first using List.reverseRecOn generalizing second with
  | nil => exact (List.length_eq_zero_iff.mp length.symm).symm
  | append_singleton front last ih =>
    obtain ⟨start, final, rfl⟩ : ∃ start final, second = start ++ [final] := by
      have some_ : second ≠ [] := by
        rintro rfl
        simp at length
      exact ⟨_, _, (List.dropLast_append_getLast some_).symm⟩
    obtain ⟨low, high⟩ := digit_range (digits last (by simp))
    obtain ⟨low', high'⟩ := digit_range (others final (by simp))
    rw [Nat.ofDigitChars_append, Nat.ofDigitChars_append, Nat.ofDigitChars_cons, Nat.ofDigitChars_nil, Nat.ofDigitChars_cons,
      Nat.ofDigitChars_nil, show '0'.toNat = 48 from rfl] at value
    have same : last = final := Char.toNat_inj.mp (by omega)
    have before : front = start := by
      apply ih (fun c member => digits c (List.mem_append_left _ member)) (fun c member => others c (List.mem_append_left _ member))
      · simpa using length
      · omega
    rw [before, same]

/-- Two fractions without trailing zeros that come to one number of units. -/
private theorem fractions_unique {first second : Text} {scale : Nat} (digits : ∀ c ∈ first, c.isDigit = true)
    (others : ∀ c ∈ second, c.isDigit = true) (short : withoutTrailingZeros first = first)
    (short' : withoutTrailingZeros second = second) (fits : first.length ≤ scale) (fits' : second.length ≤ scale)
    (value : Nat.ofDigitChars 10 first 0 * 10 ^ (scale - first.length) =
      Nat.ofDigitChars 10 second 0 * 10 ^ (scale - second.length)) : first = second := by
  have padded : ∀ fraction : Text, (∀ c ∈ fraction, c.isDigit = true) → ∀ c ∈ padEnd fraction scale, c.isDigit = true := by
    intro fraction decimals c member
    rcases List.mem_append.mp member with inside | zero
    · exact decimals c inside
    · rw [List.eq_of_mem_replicate zero]
      rfl
  have stripped : ∀ fraction : Text, withoutTrailingZeros fraction = fraction → withoutTrailingZeros (padEnd fraction scale) = fraction := by
    intro fraction own
    have zeros : ∀ extra : Nat, withoutTrailingZeros (fraction ++ List.replicate extra '0') = fraction := by
      intro extra
      induction extra with
      | zero => rw [List.replicate_zero, List.append_nil, own]
      | succ extra ih =>
        rw [List.replicate_succ', ← List.append_assoc, withoutTrailingZeros, List.rdropWhile_concat_pos _ _ _ rfl]
        exact ih
    exact zeros _
  have whole : padEnd first scale = padEnd second scale := by
    apply digits_unique (padded first digits) (padded second others)
    · simp only [padEnd, List.length_append, List.length_replicate]
      omega
    · simp only [padEnd, Nat.ofDigitChars_append, Nat.ofDigitChars_replicate_zero]
      rw [Nat.mul_comm, value, Nat.mul_comm]
  rw [← stripped first short, whole, stripped second short']

section Render
variable {value : Text} (valid : IsDecimal value)
include valid

/-- The digits before the point are those of the whole value, as the pattern allows no leading zero. -/
private theorem whole_toDigits : Nat.toDigits 10 (wholeValue value) = wholePart (trim value) := by
  apply General.Json.plainDigits_toDigits
  have pattern := (pattern_parts valid).1
  have digits := canonical_digits valid
  unfold wholePattern at pattern
  split at pattern
  · cases pattern
  · next zero =>
    rw [zero]
    rfl
  · next first rest _ same =>
    rw [same] at digits ⊢
    simp only [Bool.and_eq_true, bne_iff_ne, ne_eq] at pattern
    simp [General.Json.plainDigits, pattern.1.1, pattern.1.2, pattern.2]

private theorem magnitude_of_worth {scale : Nat} (fits : fractionDigits value ≤ scale) :
    magnitudeToDecimal (worth value scale) scale = canonicalText value := by
  obtain ⟨fraction, same, decimals, short, length, units⟩ := rendered_parts (worth value scale) scale
  have below := fraction_lt valid fits
  have whole : worth value scale / 10 ^ scale = wholeValue value := by
    rw [worth, Nat.mul_comm, Nat.mul_add_div (Nat.pow_pos (by omega)), Nat.div_eq_of_lt below, Nat.add_zero]
  have rest : worth value scale % 10 ^ scale = fractionValue value * 10 ^ (scale - fractionDigits value) := by
    rw [worth, Nat.mul_comm, Nat.mul_add_mod, Nat.mod_eq_of_lt below]
  have alike : fraction = withoutTrailingZeros (fractionPart (trim value)) :=
    fractions_unique decimals (canonical_decimals valid) short (withoutTrailingZeros_idem _) length fits (units.trans rest)
  rw [same, whole, whole_toDigits valid, alike, canonicalText]

end Render

def numericValue (value : Text) : ℚ :=
  Nat.ofDigitChars 10 (wholePart (trim value)) 0 +
    Nat.ofDigitChars 10 (fractionPart (trim value)) 0 / 10 ^ (fractionPart (trim value)).length

/-- A text without the sign it may have. -/
def unsigned (value : Text) : Text :=
  match trim value with
  | '-' :: magnitude => magnitude
  | trimmed => trimmed

def signedValue (value : Text) : ℚ :=
  match trim value with
  | '-' :: magnitude => -numericValue magnitude
  | trimmed => numericValue trimmed

def NegativeZero (value : Text) : Prop :=
  ∃ magnitude, value = '-' :: magnitude ∧ numericValue magnitude = 0

section Value
variable {value : Text} {scale : Nat}

private theorem numericValue_eq (value : Text) :
    numericValue value = wholeValue value + fractionValue value / 10 ^ fractionDigits value := by
  have short := (List.rdropWhile_prefix (· == '0') (fractionPart (trim value))).length_le
  have restored := withoutTrailingZeros_value (fractionPart (trim value))
  rw [numericValue, wholeValue, fractionValue, fractionDigits, ← restored]
  obtain ⟨zeros, length⟩ := Nat.exists_eq_add_of_le short
  rw [withoutTrailingZeros] at restored ⊢
  rw [length, Nat.add_sub_cancel_left, pow_add]
  push_cast
  rw [mul_div_mul_right _ _ (by positivity)]

private theorem numericValue_worth (fits : fractionDigits value ≤ scale) : numericValue value = worth value scale / 10 ^ scale := by
  obtain ⟨extra, rfl⟩ := Nat.exists_eq_add_of_le fits
  rw [numericValue_eq, worth, Nat.add_sub_cancel_left, pow_add]
  push_cast
  field_simp
  ring

private theorem numericValue_canonical (valid : IsDecimal value) : numericValue (canonicalText value) = numericValue value := by
  rw [numericValue_worth (canonical_fractionDigits valid).le, numericValue_worth le_rfl, canonical_worth valid]

theorem trim_trim (value : Text) : trim (trim value) = trim value := by
  have front : (trim value).dropWhile isBlank = trim value := by
    have kept : trim value <+: value.dropWhile isBlank := List.rdropWhile_prefix _ _
    cases same : trim value with
    | nil => rfl
    | cons first rest =>
      rw [same] at kept
      obtain ⟨after, whole⟩ := kept
      have plain := List.head_dropWhile_not isBlank (l := value) (by rw [← whole]; simp)
      simp only [← whole, List.cons_append, List.head_cons] at plain
      rw [List.dropWhile_cons_of_neg (by rw [plain]; simp)]
  rw [trim, front]
  exact List.rdropWhile_idempotent _ _

private theorem unbounded_trim (value : Text) (field : String) (scale : Nat) :
    unboundedDecimal (trim value) field scale = unboundedDecimal value field scale := by
  simp only [unboundedDecimal, trim_trim]

private theorem canonicalDecimal_trim (value : Text) (field : String) (scale : Nat) :
    canonicalDecimal (trim value) field scale = canonicalDecimal value field scale := by
  rw [canonicalDecimal, canonicalDecimal, unbounded_trim]

/-- A decimal without a sign has none before it either. -/
private theorem trim_unsigned (valid : IsDecimal value) (rest : Text) : trim value ≠ '-' :: rest := by
  intro signed
  have digits := canonical_digits valid
  rw [signed, wholePart, List.takeWhile_cons_of_pos (by rfl)] at digits
  cases digits '-' List.mem_cons_self

private theorem canonical_unsigned (valid : IsDecimal value) (rest : Text) : canonicalText value ≠ '-' :: rest := by
  rw [← canonical_trim valid]
  exact trim_unsigned (canonical_isDecimal valid) rest

private theorem numericValue_magnitude (absolute scale : Nat) : numericValue (magnitudeToDecimal absolute scale) = absolute / 10 ^ scale := by
  rw [numericValue_worth (magnitude_fits absolute scale), magnitude_worth]

private theorem magnitude_zero (scale : Nat) : magnitudeToDecimal 0 scale = ['0'] := by
  rw [magnitudeToDecimal]
  split
  · rfl
  · have zeros : padStart (Nat.toDigits 10 (0 % 10 ^ scale)) scale = List.replicate (scale - 1 + 1) '0' := by
      rw [Nat.zero_mod, Nat.toDigits_zero, padStart, List.replicate_succ']
      rfl
    have none_ : withoutTrailingZeros (padStart (Nat.toDigits 10 (0 % 10 ^ scale)) scale) = [] := by
      rw [zeros, withoutTrailingZeros, List.rdropWhile_eq_nil_iff]
      intro c member
      rw [List.eq_of_mem_replicate member]
      rfl
    rw [none_, Nat.zero_div, Nat.toDigits_zero]
    rfl

private theorem canonical_zero (valid : IsDecimal value) (zero : numericValue value = 0) : canonicalText value = ['0'] := by
  rw [numericValue_worth le_rfl, div_eq_zero_iff] at zero
  have none_ : worth value (fractionDigits value) = 0 := by
    rcases zero with units | power
    · exact_mod_cast units
    · exact absurd power (by positivity)
  rw [← magnitude_of_worth valid le_rfl, none_, magnitude_zero]

private theorem unitsToDecimal_signs (units : Int) (scale : Nat) : ¬ NegativeZero (unitsToDecimal units scale) := by
  rintro ⟨magnitude, same, zero⟩
  rw [unitsToDecimal] at same
  split at same
  · next below =>
    obtain rfl := (List.cons.inj same).2
    rw [numericValue_magnitude, div_eq_zero_iff] at zero
    rcases zero with none_ | power
    · have := Nat.cast_eq_zero.mp none_
      omega
    · exact absurd power (by positivity)
  · rw [← magnitude_canonical] at same
    exact canonical_unsigned (magnitude_isDecimal _ _) _ same

private theorem canonical_signs (valid : IsDecimal value) : ¬ NegativeZero (canonicalText value) := by
  rintro ⟨magnitude, same, -⟩
  exact canonical_unsigned valid magnitude same

end Value

section Signed
variable {value result : Text} {field : String} {maxScale scale : Nat}

private theorem unsigned_negative {magnitude : Text} (signed : trim value = '-' :: magnitude) : unsigned value = magnitude := by
  simp only [unsigned, signed]

private theorem unsigned_plain (plain : ∀ rest, trim value ≠ '-' :: rest) : unsigned value = trim value := by
  rw [unsigned]
  split
  · next magnitude signed => exact absurd signed (plain magnitude)
  · rfl

/-- What the signed reader accepts: a decimal, or one behind a sign that the canonical zero loses. -/
private theorem canonicalSignedDecimal_inv (read : canonicalSignedDecimal value field maxScale = .ok result) :
    IsDecimal (unsigned value) ∧ fractionDigits (unsigned value) ≤ maxScale ∧
      (wholePart (trim (unsigned value))).length ≤ maxInputIntegerDigits ∧
      ((∃ magnitude, trim value = '-' :: magnitude ∧ result =
        if canonicalText magnitude = ['0'] then canonicalText magnitude else '-' :: canonicalText magnitude) ∨
      (∀ rest, trim value ≠ '-' :: rest) ∧ result = canonicalText value) := by
  rw [canonicalSignedDecimal] at read
  split at read
  · next magnitude signed =>
    obtain ⟨canonical, parsed, same⟩ := General.bind_ok read
    obtain ⟨valid, fine, bounded, rfl⟩ := canonicalDecimal_inv parsed
    cases same
    rw [unsigned_negative signed]
    exact ⟨valid, fine, bounded, .inl ⟨magnitude, signed, rfl⟩⟩
  · next plain =>
    obtain ⟨valid, fine, bounded, rfl⟩ := canonicalDecimal_inv read
    rw [unsigned_plain plain]
    refine ⟨valid, fine, bounded, .inr ⟨plain, ?_⟩⟩
    rw [canonicalText, trim_trim]
    rfl

private theorem canonicalSignedDecimal_plain (plain : ∀ rest, trim value ≠ '-' :: rest) :
    canonicalSignedDecimal value field maxScale = canonicalDecimal value field maxScale := by
  rw [canonicalSignedDecimal]
  split
  · next magnitude signed => exact absurd signed (plain magnitude)
  · exact canonicalDecimal_trim value field maxScale

private theorem isDecimal_plain (valid : IsDecimal value) (rest : Text) : value ≠ '-' :: rest := by
  rintro rfl
  have kept : trim ('-' :: rest) <+: '-' :: rest := by
    rw [trim, List.dropWhile_cons_of_neg (by decide)]
    exact List.rdropWhile_prefix _ _
  cases same : trim ('-' :: rest) with
  | nil =>
    have pattern := (pattern_parts valid).1
    rw [same] at pattern
    cases pattern
  | cons first others =>
    rw [same] at kept
    obtain ⟨after, whole⟩ := kept
    obtain rfl := (List.cons.inj whole).1
    exact trim_unsigned valid others same

private theorem signed_of_units {units : Nat} (read : decimalToUnits value scale = .ok units) :
    signedDecimalToUnits value scale = .ok units := by
  have valid := (decimalToUnits_inv read).1
  rw [signedDecimalToUnits, read]
  · rfl
  · exact isDecimal_plain valid

private theorem canonical_renders (valid : IsDecimal value) (fits : fractionDigits value ≤ scale) :
    signedDecimalToUnits (canonicalText value) scale = .ok (worth value scale) ∧
      unitsToDecimal (worth value scale) scale = canonicalText value := by
  refine ⟨signed_of_units ?_, ?_⟩
  · rw [decimalToUnits_ok (canonical_isDecimal valid) ((canonical_fractionDigits valid).trans_le fits), canonical_worth valid]
  · rw [unitsToDecimal_nat, magnitude_of_worth valid fits]

/-- So is one with a sign, since it is not zero. -/
private theorem negative_renders (valid : IsDecimal value) (fits : fractionDigits value ≤ scale) (some_ : canonicalText value ≠ ['0']) :
    signedDecimalToUnits ('-' :: canonicalText value) scale = .ok (-(worth value scale : Int)) ∧
      unitsToDecimal (-(worth value scale : Int)) scale = '-' :: canonicalText value := by
  have positive : worth value scale ≠ 0 := by
    intro zero
    apply some_
    rw [← magnitude_of_worth valid fits, zero, magnitude_zero]
  refine ⟨?_, ?_⟩
  · rw [signedDecimalToUnits, decimalToUnits_ok (canonical_isDecimal valid) ((canonical_fractionDigits valid).trans_le fits),
      canonical_worth valid]
    rfl
  · rw [unitsToDecimal, if_pos (by omega), Int.natAbs_neg, Int.natAbs_natCast, magnitude_of_worth valid fits]

private theorem trim_negative (valid : IsDecimal value) : trim ('-' :: canonicalText value) = '-' :: canonicalText value := by
  apply trim_plain
  intro c member
  rcases List.mem_cons.mp member with rfl | inside
  · rfl
  · exact joined_not_blank (canonical_digits valid) (canonical_decimals valid) c inside

private theorem signedValue_plain (plain : ∀ rest, trim value ≠ '-' :: rest) : signedValue value = numericValue value := by
  rw [signedValue]
  split
  · next magnitude signed => exact absurd signed (plain magnitude)
  · simp only [numericValue, trim_trim]

variable (field) in
/-- A canonical text reads again as it is, also where it carries no sign any more. -/
private theorem canonical_again (fits : Fits value maxScale) :
    canonicalSignedDecimal (canonicalText value) field maxScale = .ok (canonicalText value) ∧
      signedValue (canonicalText value) = numericValue value := by
  have plain := trim_unsigned fits.canonical.isDecimal
  rw [canonicalSignedDecimal_plain plain, signedValue_plain plain, numericValue_canonical fits.isDecimal,
    canonicalDecimal_ok fits.canonical.isDecimal fits.canonical.fine fits.canonical.bounded, canonical_idem fits.isDecimal]
  exact ⟨rfl, rfl⟩

variable (field) in
private theorem negative_again (fits : Fits value maxScale) (some_ : canonicalText value ≠ ['0']) :
    canonicalSignedDecimal ('-' :: canonicalText value) field maxScale = .ok ('-' :: canonicalText value) ∧
      signedValue ('-' :: canonicalText value) = -numericValue value := by
  have trimmed := trim_negative fits.isDecimal
  refine ⟨?_, ?_⟩
  · rw [canonicalSignedDecimal, trimmed]
    simp only [canonicalDecimal_ok fits.canonical.isDecimal fits.canonical.fine fits.canonical.bounded, canonical_idem fits.isDecimal,
      bind, Except.bind, pure, Except.pure, if_neg some_]
  · simp only [signedValue, trimmed, numericValue_canonical fits.isDecimal]

end Signed

private theorem units_read_back (units : Int) (scale : Nat) :
    decimalToUnits (unitsToDecimal units scale) scale =
      (if 0 ≤ units then .ok units.toNat else .error (.invalidRequest "decimal must be a non-negative decimal string")) ∧
    signedDecimalToUnits (unitsToDecimal units scale) scale = .ok units := by
  by_cases above : 0 ≤ units
  · obtain ⟨absolute, rfl⟩ := Int.eq_ofNat_of_zero_le above
    have read := units_round_trip absolute scale
    rw [if_pos above, Int.toNat_natCast]
    exact ⟨read, signed_of_units read⟩
  · have rendered : unitsToDecimal units scale = '-' :: magnitudeToDecimal units.natAbs scale := if_pos (by omega)
    rw [rendered, if_neg above]
    refine ⟨?_, ?_⟩
    · have signed : ¬ unsignedDecimalPattern (trim ('-' :: magnitudeToDecimal units.natAbs scale)) = true :=
        fun valid => isDecimal_plain valid _ rfl
      rw [decimalToUnits, unboundedDecimal, if_neg signed]
      rfl
    · have read := units_round_trip units.natAbs scale
      rw [unitsToDecimal_nat] at read
      rw [signedDecimalToUnits, read]
      simp only [bind, Except.bind, pure, Except.pure, Int.ofNat_eq_natCast]
      congr 1
      omega

private theorem canonicalDecimal_stable {value canonical : Text} {field : String} {maxScale : Nat}
    (read : canonicalDecimal value field maxScale = .ok canonical) (scale : Nat) :
    canonicalDecimal canonical field maxScale = .ok canonical ∧ canonicalSignedDecimal value field maxScale = .ok canonical ∧
      numericValue canonical = numericValue value ∧ ¬ NegativeZero canonical ∧
      (fractionDigits value ≤ scale → ∃ units : Nat, decimalToUnits value scale = .ok units ∧ unitsToDecimal units scale = canonical) := by
  obtain ⟨valid, fine, bounded, rfl⟩ := canonicalDecimal_inv read
  refine ⟨?_, ?_, numericValue_canonical valid, canonical_signs valid, fun fits => ?_⟩
  · have again : Fits (canonicalText value) maxScale := (Fits.mk valid fine bounded).canonical
    rw [canonicalDecimal_ok again.isDecimal again.fine again.bounded, canonical_idem valid]
  · rw [canonicalSignedDecimal_plain (trim_unsigned valid), read]
  · exact ⟨worth value scale, decimalToUnits_ok valid fits, (canonical_renders valid fits).2⟩

private theorem canonicalSignedDecimal_stable {value canonical : Text} {field : String} {maxScale : Nat}
    (read : canonicalSignedDecimal value field maxScale = .ok canonical) (scale : Nat) :
    canonicalSignedDecimal canonical field maxScale = .ok canonical ∧ signedValue canonical = signedValue value ∧
      ¬ NegativeZero canonical ∧ (fractionDigits (unsigned value) ≤ scale →
        ∃ units : Int, signedDecimalToUnits canonical scale = .ok units ∧ unitsToDecimal units scale = canonical) := by
  obtain ⟨valid, fine, bounded, ⟨magnitude, signed, rfl⟩ | ⟨plain, rfl⟩⟩ := canonicalSignedDecimal_inv read
  · have worthOf : signedValue value = -numericValue magnitude := by simp only [signedValue, signed]
    rw [unsigned_negative signed] at valid fine bounded ⊢
    rw [worthOf]
    have fits : Fits magnitude maxScale := ⟨valid, fine, bounded⟩
    by_cases zero : canonicalText magnitude = ['0']
    · rw [if_pos zero]
      obtain ⟨again, same⟩ := canonical_again field fits
      have nothing : numericValue magnitude = 0 := by
        rw [← numericValue_canonical valid, zero, ← magnitude_zero 0, numericValue_magnitude, Nat.cast_zero, zero_div]
      refine ⟨again, ?_, canonical_signs valid, fun held => ⟨_, canonical_renders valid held⟩⟩
      rw [same, nothing, neg_zero]
    · rw [if_neg zero]
      obtain ⟨again, same⟩ := negative_again field fits zero
      refine ⟨again, same, ?_, fun held => ⟨_, negative_renders valid held zero⟩⟩
      rintro ⟨other, written, nothing⟩
      obtain rfl := (List.cons.inj written).2
      rw [numericValue_canonical valid] at nothing
      exact zero (canonical_zero valid nothing)
  · have own := unsigned_plain plain
    have digits : fractionDigits (trim value) = fractionDigits value := by rw [fractionDigits, trim_trim, fractionDigits]
    rw [own, IsDecimal, trim_trim] at valid
    rw [own, digits] at fine
    rw [own, trim_trim] at bounded
    obtain ⟨again, same⟩ := canonical_again field (Fits.mk valid fine bounded)
    rw [signedValue_plain plain, own, digits]
    exact ⟨again, same, canonical_signs valid, fun held => ⟨_, canonical_renders valid held⟩⟩

/-- Every integer reads back from its text, through the reader that knows signs; the other one refuses a sign. What a reader accepts
it brings to one canonical form of the same number, which is also what the number's units render to, and zero never has a sign. -/
theorem decimal_codec (scale : Nat) :
    (∀ units : Int, decimalToUnits (unitsToDecimal units scale) scale =
        (if 0 ≤ units then .ok units.toNat else .error (.invalidRequest "decimal must be a non-negative decimal string")) ∧
      signedDecimalToUnits (unitsToDecimal units scale) scale = .ok units ∧ ¬ NegativeZero (unitsToDecimal units scale)) ∧
    (∀ value units, decimalToUnits value scale = .ok units → signedDecimalToUnits value scale = .ok units ∧
      databaseDecimal value "decimal" scale = .ok (unitsToDecimal units scale)) ∧
    (∀ value canonical field maxScale, canonicalDecimal value field maxScale = .ok canonical →
      canonicalDecimal canonical field maxScale = .ok canonical ∧ canonicalSignedDecimal value field maxScale = .ok canonical ∧
      numericValue canonical = numericValue value ∧ ¬ NegativeZero canonical ∧
      (fractionDigits value ≤ scale → ∃ units : Nat, decimalToUnits value scale = .ok units ∧ unitsToDecimal units scale = canonical)) ∧
    (∀ value canonical field maxScale, canonicalSignedDecimal value field maxScale = .ok canonical →
      canonicalSignedDecimal canonical field maxScale = .ok canonical ∧ signedValue canonical = signedValue value ∧
      ¬ NegativeZero canonical ∧ (fractionDigits (unsigned value) ≤ scale →
        ∃ units : Int, signedDecimalToUnits canonical scale = .ok units ∧ unitsToDecimal units scale = canonical)) := by
  refine ⟨fun units => ?_, fun value units read => ?_, fun value canonical field maxScale read => ?_,
    fun value canonical field maxScale read => ?_⟩
  · obtain ⟨unsigned, signed⟩ := units_read_back units scale
    exact ⟨unsigned, signed, unitsToDecimal_signs units scale⟩
  · obtain ⟨valid, fits, rfl⟩ := decimalToUnits_inv read
    refine ⟨signed_of_units read, ?_⟩
    rw [databaseDecimal, unboundedDecimal_ok valid fits, (canonical_renders valid fits).2]
  · exact canonicalDecimal_stable read scale
  · exact canonicalSignedDecimal_stable read scale

theorem decimal_codec_refund : canonicalSignedDecimal " -1.50".toList "amount" 2 = .ok "-1.5".toList ∧
    ∃ units : Int, signedDecimalToUnits "-1.5".toList 2 = .ok units ∧ unitsToDecimal units 2 = "-1.5".toList :=
  ⟨rfl, ((decimal_codec 2).2.2.2 " -1.50".toList "-1.5".toList "amount" 2 rfl).2.2.2 (by decide)⟩

/-- The reader without signs does not read a rendered negative back. -/
theorem decimal_codec_negative : ¬ ∀ (scale : Nat) (units : Int),
    ∃ read, decimalToUnits (unitsToDecimal units scale) scale = .ok read ∧ (read : Int) = units := by
  intro always
  obtain ⟨read, accepted, -⟩ := always 0 (-1)
  have refused : decimalToUnits (unitsToDecimal (-1) 0) 0 =
      .error (.invalidRequest "decimal must be a non-negative decimal string") := rfl
  rw [refused] at accepted
  cases accepted

end Quotum.Decimal
