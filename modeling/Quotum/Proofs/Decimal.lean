import Quotum.Decimal

/-! Reading a decimal keeps its value at every scale that can hold it, and rendered
units read back as themselves. -/

namespace Quotum.Decimal

variable {fraction whole result : Text}

variable {field : String} {scale : Nat} {failure : Failure} {c : Char}

theorem digit_range (digit : c.isDigit = true) : 48 ≤ c.toNat ∧ c.toNat ≤ 57 := by
  simp only [Char.isDigit, Bool.and_eq_true, decide_eq_true_eq, ge_iff_le, UInt32.le_iff_toNat_le] at digit
  exact digit

theorem digit_not_blank (digit : c.isDigit = true) : isBlank c = false := by
  obtain ⟨low, high⟩ := digit_range digit
  simp only [isBlank, List.contains_eq_mem, decide_eq_false_iff_not, List.mem_cons, List.not_mem_nil, or_false]
  omega

private theorem digit_not_point (digit : c.isDigit = true) : c ≠ '.' := by
  rintro rfl
  cases digit

theorem whole_digits (valid : wholePattern whole = true) :
    whole ≠ [] ∧ ∀ c ∈ whole, c.isDigit = true := by
  unfold wholePattern at valid
  split at valid
  · cases valid
  · simp
  · next first rest _ =>
    simp only [Bool.and_eq_true, List.all_eq_true] at valid
    refine ⟨by simp, ?_⟩
    intro c member
    rcases List.mem_cons.mp member with rfl | later
    · exact valid.1.1
    · exact valid.2 c later

theorem trim_plain {text : Text} (plain : ∀ c ∈ text, isBlank c = false) : trim text = text := by
  have front : text.dropWhile isBlank = text := by
    cases text with
    | nil => rfl
    | cons first rest => simp [List.dropWhile, plain first (by simp)]
  rw [trim, front]
  refine List.rdropWhile_eq_self_iff.mpr ?_
  intro nonempty
  simp [plain _ (List.getLast_mem nonempty)]

section
variable (digits : ∀ c ∈ whole, c.isDigit = true)
include digits

private theorem whole_joined :
    wholePart (joinParts whole fraction) = whole := by
  have kept : ∀ c ∈ whole, (c != '.') = true := fun c member => by simpa using digit_not_point (digits c member)
  unfold wholePart joinParts
  split
  · exact List.takeWhile_eq_self_iff.mpr kept
  · rw [List.takeWhile_append_of_pos kept]
    simp

private theorem rest_joined :
    (joinParts whole fraction).dropWhile (· != '.') = if fraction = [] then [] else '.' :: fraction := by
  have kept : ∀ c ∈ whole, (c != '.') = true := fun c member => by simpa using digit_not_point (digits c member)
  unfold joinParts
  split
  · exact List.dropWhile_eq_nil_iff.mpr kept
  · rw [List.dropWhile_append_of_pos kept]
    simp

variable (decimals : ∀ c ∈ fraction, c.isDigit = true)
include decimals

private theorem fraction_joined : fractionPart (joinParts whole fraction) = fraction := by
  rw [fractionPart, rest_joined digits]
  split
  · next empty => simp [empty]
  · refine List.takeWhile_eq_self_iff.mpr ?_
    intro c member
    simpa using digit_not_point (decimals c member)

theorem joined_not_blank : ∀ c ∈ joinParts whole fraction, isBlank c = false := by
  intro c member
  unfold joinParts at member
  split at member
  · exact digit_not_blank (digits c member)
  · rcases List.mem_append.mp member with before | after
    · exact digit_not_blank (digits c before)
    · rcases List.mem_cons.mp after with rfl | later
      · decide
      · exact digit_not_blank (decimals c later)

private theorem joined_plain : trim (joinParts whole fraction) = joinParts whole fraction :=
  trim_plain (joined_not_blank digits decimals)

end

private theorem joined_pattern (valid : wholePattern whole = true)
    (decimals : ∀ c ∈ fraction, c.isDigit = true) : unsignedDecimalPattern (joinParts whole fraction) = true := by
  have digits := (whole_digits valid).2
  rw [unsignedDecimalPattern, whole_joined digits, rest_joined digits, valid]
  by_cases empty : fraction = []
  · simp [empty]
  · simpa [empty] using decimals

theorem pattern_parts {text : Text} (valid : unsignedDecimalPattern text = true) :
    wholePattern (wholePart text) = true ∧ ∀ c ∈ fractionPart text, c.isDigit = true := by
  simp only [unsignedDecimalPattern, Bool.and_eq_true] at valid
  refine ⟨valid.1, ?_⟩
  intro c member
  have found := List.takeWhile_subset _ member
  revert found
  have rest := valid.2
  split at rest
  · next empty => simp [empty]
  · next first fraction same =>
    simp only [Bool.and_eq_true, List.all_eq_true] at rest
    simp only [same, List.drop_succ_cons, List.drop_zero]
    exact rest.2 c

theorem mem_withoutTrailingZeros (member : c ∈ withoutTrailingZeros fraction) :
    c ∈ fraction :=
  (List.rdropWhile_prefix _ _).subset member

theorem withoutTrailingZeros_idem (fraction : Text) :
    withoutTrailingZeros (withoutTrailingZeros fraction) = withoutTrailingZeros fraction :=
  List.rdropWhile_idempotent _ _

def IsDecimal (value : Text) : Prop :=
  unsignedDecimalPattern (trim value) = true

instance (value : Text) : Decidable (IsDecimal value) :=
  inferInstanceAs (Decidable (_ = true))

def wholeValue (value : Text) : Nat :=
  Nat.ofDigitChars 10 (wholePart (trim value)) 0

def fractionValue (value : Text) : Nat :=
  Nat.ofDigitChars 10 (withoutTrailingZeros (fractionPart (trim value))) 0

def worth (value : Text) (scale : Nat) : Nat :=
  wholeValue value * 10 ^ scale + fractionValue value * 10 ^ (scale - fractionDigits value)

def canonicalText (value : Text) : Text :=
  joinParts (wholePart (trim value)) (withoutTrailingZeros (fractionPart (trim value)))

theorem unboundedDecimal_ok {value : Text} (valid : IsDecimal value)
    (fits : fractionDigits value ≤ scale) : unboundedDecimal value field scale = .ok (canonicalText value) := by
  unfold unboundedDecimal
  simp only [show unsignedDecimalPattern (trim value) = true from valid, if_true]
  rw [if_neg (by simpa [fractionDigits] using fits)]
  rfl

theorem unboundedDecimal_inv {value : Text}
    (read : unboundedDecimal value field scale = .ok result) :
    IsDecimal value ∧ fractionDigits value ≤ scale ∧ result = canonicalText value := by
  simp only [unboundedDecimal] at read
  split at read
  · next valid =>
    split at read
    · cases read
    · next fits =>
      cases read
      exact ⟨valid, by simpa [fractionDigits] using fits, rfl⟩
  · cases read

theorem unboundedDecimal_fine {value : Text} (valid : IsDecimal value)
    (fine : scale < fractionDigits value) :
    unboundedDecimal value field scale =
      .error (.invalidRequest s!"{field} supports at most {scale} decimal places") := by
  unfold unboundedDecimal
  simp only [show unsignedDecimalPattern (trim value) = true from valid, if_true]
  rw [if_pos (by simpa [fractionDigits] using fine)]

section Canonical
variable {value : Text} (valid : IsDecimal value)
include valid

theorem canonical_digits : ∀ c ∈ wholePart (trim value), c.isDigit = true :=
  (whole_digits (pattern_parts valid).1).2

theorem canonical_decimals :
    ∀ c ∈ withoutTrailingZeros (fractionPart (trim value)), c.isDigit = true :=
  fun c member => (pattern_parts valid).2 c (mem_withoutTrailingZeros member)

theorem canonical_trim : trim (canonicalText value) = canonicalText value :=
  joined_plain (canonical_digits valid) (canonical_decimals valid)

theorem canonical_whole : wholePart (canonicalText value) = wholePart (trim value) :=
  whole_joined (canonical_digits valid)

theorem canonical_fraction :
    fractionPart (canonicalText value) = withoutTrailingZeros (fractionPart (trim value)) :=
  fraction_joined (canonical_digits valid) (canonical_decimals valid)

theorem canonical_isDecimal : IsDecimal (canonicalText value) := by
  rw [IsDecimal, canonical_trim valid]
  exact joined_pattern (pattern_parts valid).1 (canonical_decimals valid)

theorem canonical_idem : canonicalText (canonicalText value) = canonicalText value := by
  rw [canonicalText, canonical_trim valid, canonical_whole valid, canonical_fraction valid,
    withoutTrailingZeros_idem]
  rfl

theorem canonical_fractionDigits : fractionDigits (canonicalText value) = fractionDigits value := by
  simp only [fractionDigits, canonical_trim valid, canonical_fraction valid, withoutTrailingZeros_idem]

theorem canonical_worth (scale : Nat) : worth (canonicalText value) scale = worth value scale := by
  simp only [worth, wholeValue, fractionValue, canonical_fractionDigits valid, canonical_trim valid,
    canonical_whole valid, canonical_fraction valid, withoutTrailingZeros_idem]

/-- A decimal reads as its worth at every scale that can hold its fraction. -/
theorem decimalToUnits_ok (fits : fractionDigits value ≤ scale) :
    decimalToUnits value scale = .ok (worth value scale) := by
  simp only [decimalToUnits, unboundedDecimal_ok valid fits, bind, Except.bind, pure, Except.pure,
    canonical_whole valid, canonical_fraction valid, padEnd, Nat.ofDigitChars_append,
    Nat.ofDigitChars_replicate_zero, worth, wholeValue, fractionValue, fractionDigits, Nat.mul_comm]

end Canonical

theorem decimalToUnits_inv {value : Text} {units : Nat} (read : decimalToUnits value scale = .ok units) :
    IsDecimal value ∧ fractionDigits value ≤ scale ∧ units = worth value scale := by
  cases parsed : unboundedDecimal value "decimal" scale with
  | error failure => simp [decimalToUnits, parsed, bind, Except.bind] at read
  | ok canonical =>
    obtain ⟨valid, fits, -⟩ := unboundedDecimal_inv parsed
    rw [decimalToUnits_ok valid fits] at read
    cases read
    exact ⟨valid, fits, rfl⟩

theorem worth_scale {value : Text} (fits : fractionDigits value ≤ scale) (extra : Nat) :
    worth value (scale + extra) = worth value scale * 10 ^ extra := by
  have shift : scale + extra - fractionDigits value = (scale - fractionDigits value) + extra := by omega
  rw [worth, worth, shift, pow_add, pow_add]
  ring

theorem worth_finer {value : Text} {finer : Nat} (fits : fractionDigits value ≤ scale) (below : scale ≤ finer) :
    worth value finer = worth value scale * 10 ^ (finer - scale) := by
  rw [← worth_scale fits, Nat.add_sub_cancel' below]

theorem canonicalDecimal_ok {value : Text} (valid : IsDecimal value)
    (fits : fractionDigits value ≤ scale) (bounded : (wholePart (trim value)).length ≤ maxInputIntegerDigits) :
    canonicalDecimal value field scale = .ok (canonicalText value) := by
  simp only [canonicalDecimal, unboundedDecimal_ok valid fits, bind, Except.bind, canonical_whole valid]
  rw [if_neg (by omega)]
  rfl

theorem canonicalDecimal_inv {value : Text}
    (read : canonicalDecimal value field scale = .ok result) :
    IsDecimal value ∧ fractionDigits value ≤ scale ∧
      (wholePart (trim value)).length ≤ maxInputIntegerDigits ∧ result = canonicalText value := by
  cases parsed : unboundedDecimal value field scale with
  | error failure => simp [canonicalDecimal, parsed, bind, Except.bind] at read
  | ok canonical =>
    obtain ⟨valid, fits, rfl⟩ := unboundedDecimal_inv parsed
    simp only [canonicalDecimal, parsed, bind, Except.bind] at read
    split at read
    · cases read
    · next bounded =>
      cases read
      exact ⟨valid, fits, by rw [canonical_whole valid] at bounded; omega, rfl⟩

structure Fits (value : Text) (scale : Nat) : Prop where
  isDecimal : IsDecimal value
  fine : fractionDigits value ≤ scale
  bounded : (wholePart (trim value)).length ≤ maxInputIntegerDigits

theorem Fits.read {value : Text} (fits : Fits value scale) (field : String) :
    (canonicalDecimal value field scale >>= fun canonical => decimalToUnits canonical scale) =
      .ok (worth value scale) := by
  rw [canonicalDecimal_ok fits.isDecimal fits.fine fits.bounded]
  simp only [bind, Except.bind]
  rw [decimalToUnits_ok (canonical_isDecimal fits.isDecimal)
    (by rw [canonical_fractionDigits fits.isDecimal]; exact fits.fine), canonical_worth fits.isDecimal]

theorem Fits.read_bind {value : Text} (fits : Fits value scale) (field : String) {α : Type}
    (next : Nat → Except Failure α) :
    (canonicalDecimal value field scale >>= fun canonical => decimalToUnits canonical scale >>= next) =
      next (worth value scale) := by
  rw [← bind_assoc, fits.read]
  rfl

theorem read_inv {value : Text} {α : Type} {next : Nat → Except Failure α} {result : α}
    (read : (canonicalDecimal value field scale >>= fun canonical => decimalToUnits canonical scale >>= next) =
      .ok result) : Fits value scale ∧ next (worth value scale) = .ok result := by
  cases parsed : canonicalDecimal value field scale with
  | error failure => simp [parsed, bind, Except.bind] at read
  | ok canonical =>
    obtain ⟨valid, fine, bounded, -⟩ := canonicalDecimal_inv parsed
    have fits : Fits value scale := ⟨valid, fine, bounded⟩
    exact ⟨fits, by rwa [fits.read_bind field next] at read⟩

theorem Fits.canonical {value : Text} (fits : Fits value scale) : Fits (canonicalText value) scale where
  isDecimal := canonical_isDecimal fits.isDecimal
  fine := by rw [canonical_fractionDigits fits.isDecimal]; exact fits.fine
  bounded := by
    rw [canonical_trim fits.isDecimal, canonical_whole fits.isDecimal]
    exact fits.bounded

theorem Fits.finer {value : Text} {finer : Nat} (fits : Fits value scale) (below : scale ≤ finer) :
    Fits value finer :=
  ⟨fits.isDecimal, fits.fine.trans below, fits.bounded⟩

theorem positiveDecimal_inv {value : Text}
    (read : positiveDecimal value field scale = .ok result) :
    Fits value scale ∧ 0 < worth value scale ∧ result = canonicalText value := by
  unfold positiveDecimal at read
  cases parsed : canonicalDecimal value field scale with
  | error failure => simp [parsed, bind, Except.bind] at read
  | ok canonical =>
    obtain ⟨valid, fine, bounded, rfl⟩ := canonicalDecimal_inv parsed
    have fits : Fits value scale := ⟨valid, fine, bounded⟩
    rw [parsed] at read
    simp only [bind, Except.bind, decimalToUnits_ok fits.canonical.isDecimal fits.canonical.fine,
      canonical_worth valid] at read
    split at read
    · cases read
    · next positive =>
      cases read
      exact ⟨fits, by omega, rfl⟩

/-! Rendered units. -/

theorem worth_pos (value : Text) (scale : Nat) : 0 < worth value scale ↔ 0 < wholeValue value ∨ 0 < fractionValue value := by
  have whole : 0 < 10 ^ scale := Nat.pow_pos (by omega)
  have fraction : 0 < 10 ^ (scale - fractionDigits value) := Nat.pow_pos (by omega)
  rw [worth, Nat.add_pos_iff_pos_or_pos, Nat.mul_pos_iff_of_pos_right whole, Nat.mul_pos_iff_of_pos_right fraction]

theorem positiveDecimal_units {value : Text} {other units : Nat}
    (valid : positiveDecimal value field scale = .ok result) (read : decimalToUnits result other = .ok units) : 0 < units := by
  obtain ⟨fits, positive, same⟩ := positiveDecimal_inv valid
  obtain ⟨-, -, units⟩ := decimalToUnits_inv read
  rw [units, same, canonical_worth fits.isDecimal]
  exact (worth_pos value other).mpr ((worth_pos value scale).mp positive)

theorem unboundedDecimal_error {value : Text}
    (refused : unboundedDecimal value field scale = .error failure) : ∃ message, failure = .invalidRequest message := by
  simp only [unboundedDecimal] at refused
  split at refused
  · split at refused
    · cases refused
      exact ⟨_, rfl⟩
    · cases refused
  · cases refused
    exact ⟨_, rfl⟩

theorem decimalToUnits_error {value : Text}
    (refused : decimalToUnits value scale = .error failure) : ∃ message, failure = .invalidRequest message := by
  unfold decimalToUnits at refused
  cases parsed : unboundedDecimal value "decimal" scale with
  | error other =>
    rw [parsed] at refused
    cases refused
    exact unboundedDecimal_error parsed
  | ok canonical =>
    rw [parsed] at refused
    cases refused

theorem positiveDecimal_error {value : Text}
    (refused : positiveDecimal value field scale = .error failure) : ∃ message, failure = .invalidRequest message := by
  unfold positiveDecimal canonicalDecimal at refused
  cases parsed : unboundedDecimal value field scale with
  | error other =>
    rw [parsed] at refused
    cases refused
    exact unboundedDecimal_error parsed
  | ok canonical =>
    rw [parsed] at refused
    simp only [bind, Except.bind] at refused
    split at refused
    · next long =>
      split at long
      · cases long
        cases refused
        exact ⟨_, rfl⟩
      · cases long
    · next short =>
      split at refused
      · next unread =>
        cases refused
        exact decimalToUnits_error unread
      · split at refused
        · cases refused
          exact ⟨_, rfl⟩
        · cases refused

private theorem toDigits_digits (n : Nat) : ∀ c ∈ Nat.toDigits 10 n, c.isDigit = true :=
  fun _ member => Nat.isDigit_of_mem_toDigits (by omega) (by omega) member

private theorem toDigits_head {n : Nat} (positive : 0 < n) : ∃ first rest,
    Nat.toDigits 10 n = first :: rest ∧ first ≠ '0' := by
  induction n using Nat.strong_induction_on with
  | _ n ih =>
    by_cases small : n < 10
    · refine ⟨n.digitChar, [], Nat.toDigits_of_lt_base small, ?_⟩
      interval_cases n <;> decide
    · obtain ⟨first, rest, same, nonzero⟩ := ih (n / 10) (by omega) (by omega)
      exact ⟨first, rest ++ [(n % 10).digitChar],
        by rw [Nat.toDigits_of_base_le (by omega) (by omega), same]; rfl, nonzero⟩

private theorem toDigits_whole (n : Nat) : wholePattern (Nat.toDigits 10 n) = true := by
  rcases Nat.eq_zero_or_pos n with rfl | positive
  · rfl
  · obtain ⟨first, rest, same, nonzero⟩ := toDigits_head positive
    have digits := toDigits_digits n
    rw [same] at digits ⊢
    unfold wholePattern
    split
    · next impossible => cases impossible
    · rfl
    · next other others _ equal =>
      cases equal
      simp only [List.mem_cons, forall_eq_or_imp] at digits
      simpa [nonzero, digits.1] using digits.2

theorem restore_zeros (fraction : Text) :
    withoutTrailingZeros fraction ++ List.replicate (fraction.length - (withoutTrailingZeros fraction).length) '0' =
      fraction := by
  unfold withoutTrailingZeros
  induction fraction using List.reverseRecOn with
  | nil => rfl
  | append_singleton front last ih =>
    rw [List.rdropWhile_concat]
    split
    · next zero =>
      have short := (List.rdropWhile_prefix (· == '0') front).length_le
      rw [List.length_append, List.length_singleton, Nat.sub_add_comm short, List.replicate_succ',
        ← List.append_assoc, ih]
      have same : last = '0' := by simpa using zero
      rw [same]
    · simp

theorem withoutTrailingZeros_value (fraction : Text) :
    Nat.ofDigitChars 10 (withoutTrailingZeros fraction) 0 *
      10 ^ (fraction.length - (withoutTrailingZeros fraction).length) = Nat.ofDigitChars 10 fraction 0 := by
  have same := congrArg (fun text => Nat.ofDigitChars 10 text 0) (restore_zeros fraction)
  simpa only [Nat.ofDigitChars_append, Nat.ofDigitChars_replicate_zero, Nat.mul_comm] using same

private theorem padStart_value (n scale : Nat) : Nat.ofDigitChars 10 (padStart (Nat.toDigits 10 n) scale) 0 = n := by
  rw [padStart, Nat.ofDigitChars_append, Nat.ofDigitChars_replicate_zero, Nat.mul_zero, Nat.ofDigitChars_ten_toDigits]

private theorem padStart_length {n scale : Nat} (positive : 0 < scale) (fits : n < 10 ^ scale) :
    (padStart (Nat.toDigits 10 n) scale).length = scale := by
  have short := (Nat.length_toDigits_le_iff (b := 10) (n := n) (by omega) positive).mpr fits
  rw [padStart, List.length_append, List.length_replicate]
  omega

private theorem padStart_digits (n scale : Nat) : ∀ c ∈ padStart (Nat.toDigits 10 n) scale, c.isDigit = true := by
  intro c member
  rcases List.mem_append.mp member with zero | digit
  · rw [List.eq_of_mem_replicate zero]
    rfl
  · exact toDigits_digits n c digit

/-- The digits before and after the point of rendered units. -/
theorem rendered_parts (absolute scale : Nat) :
    ∃ fraction, magnitudeToDecimal absolute scale = joinParts (Nat.toDigits 10 (absolute / 10 ^ scale)) fraction ∧
      (∀ c ∈ fraction, c.isDigit = true) ∧ withoutTrailingZeros fraction = fraction ∧ fraction.length ≤ scale ∧
      Nat.ofDigitChars 10 fraction 0 * 10 ^ (scale - fraction.length) = absolute % 10 ^ scale := by
  rcases Nat.eq_zero_or_pos scale with rfl | positive
  · exact ⟨[], by simp [magnitudeToDecimal, joinParts], by simp, rfl, by simp, by simp [Nat.mod_one]⟩
  · have length := padStart_length positive (Nat.mod_lt absolute (Nat.pow_pos (n := scale) (show 0 < 10 by omega)))
    have short := (List.rdropWhile_prefix (· == '0') (padStart (Nat.toDigits 10 (absolute % 10 ^ scale)) scale)).length_le
    have value := withoutTrailingZeros_value (padStart (Nat.toDigits 10 (absolute % 10 ^ scale)) scale)
    rw [length, padStart_value] at value
    refine ⟨_, by rw [magnitudeToDecimal, if_neg (by omega)], ?_, withoutTrailingZeros_idem _, ?_, value⟩
    · exact fun c member => padStart_digits _ _ c (mem_withoutTrailingZeros member)
    · rw [withoutTrailingZeros]
      omega

theorem magnitude_isDecimal (absolute scale : Nat) : IsDecimal (magnitudeToDecimal absolute scale) := by
  obtain ⟨fraction, same, decimals, -⟩ := rendered_parts absolute scale
  rw [IsDecimal, same, joined_plain (toDigits_digits _) decimals]
  exact joined_pattern (toDigits_whole _) decimals

theorem magnitude_whole (absolute scale : Nat) :
    wholePart (trim (magnitudeToDecimal absolute scale)) = Nat.toDigits 10 (absolute / 10 ^ scale) := by
  obtain ⟨fraction, same, decimals, -⟩ := rendered_parts absolute scale
  rw [same, joined_plain (toDigits_digits _) decimals, whole_joined (toDigits_digits _)]

theorem magnitude_fits (absolute scale : Nat) : fractionDigits (magnitudeToDecimal absolute scale) ≤ scale := by
  obtain ⟨fraction, same, decimals, short, fits, -⟩ := rendered_parts absolute scale
  rw [fractionDigits, same, joined_plain (toDigits_digits _) decimals, fraction_joined (toDigits_digits _) decimals,
    short]
  exact fits

theorem magnitude_worth (absolute scale : Nat) : worth (magnitudeToDecimal absolute scale) scale = absolute := by
  obtain ⟨fraction, same, decimals, short, fits, value⟩ := rendered_parts absolute scale
  simp only [worth, wholeValue, fractionValue, fractionDigits, same, joined_plain (toDigits_digits _) decimals,
    whole_joined (toDigits_digits _), fraction_joined (toDigits_digits _) decimals, short,
    Nat.ofDigitChars_ten_toDigits, value]
  exact Nat.div_add_mod' absolute (10 ^ scale)

theorem magnitude_canonical (absolute scale : Nat) :
    canonicalText (magnitudeToDecimal absolute scale) = magnitudeToDecimal absolute scale := by
  obtain ⟨fraction, same, decimals, short, -⟩ := rendered_parts absolute scale
  rw [canonicalText, same, joined_plain (toDigits_digits _) decimals, whole_joined (toDigits_digits _),
    fraction_joined (toDigits_digits _) decimals, short]

@[simp] theorem unitsToDecimal_nat (absolute scale : Nat) :
    unitsToDecimal (absolute : Int) scale = magnitudeToDecimal absolute scale := by
  rw [unitsToDecimal, if_neg (by omega), Int.natAbs_natCast]

theorem units_round_trip (absolute scale : Nat) :
    decimalToUnits (unitsToDecimal absolute scale) scale = .ok absolute := by
  rw [unitsToDecimal_nat, decimalToUnits_ok (magnitude_isDecimal _ _) (magnitude_fits _ _), magnitude_worth]

theorem magnitude_bounded (absolute scale : Nat) :
    (wholePart (trim (magnitudeToDecimal absolute scale))).length ≤ maxInputIntegerDigits ↔
      absolute < 10 ^ (maxInputIntegerDigits + scale) := by
  rw [magnitude_whole, Nat.length_toDigits_le_iff (by omega) (by decide), pow_add]
  exact Nat.div_lt_iff_lt_mul (Nat.pow_pos (by omega))

theorem magnitude_holds {absolute : Nat} (bounded : absolute < 10 ^ (maxInputIntegerDigits + scale)) :
    Fits (magnitudeToDecimal absolute scale) scale :=
  ⟨magnitude_isDecimal _ _, magnitude_fits _ _, (magnitude_bounded _ _).mpr bounded⟩

private theorem column_canonical (units : Nat) :
    IsDecimal (columnText units) ∧ canonicalText (columnText units) = magnitudeToDecimal units columnScale := by
  have trimmed : trim (columnText units) = columnText units :=
    joined_plain (toDigits_digits _) (padStart_digits _ _)
  have whole : wholePart (columnText units) = Nat.toDigits 10 (units / 10 ^ columnScale) :=
    whole_joined (toDigits_digits _)
  have fraction : fractionPart (columnText units) =
      padStart (Nat.toDigits 10 (units % 10 ^ columnScale)) columnScale :=
    fraction_joined (toDigits_digits _) (padStart_digits _ _)
  refine ⟨?_, ?_⟩
  · rw [IsDecimal, trimmed]
    exact joined_pattern (toDigits_whole _) (padStart_digits _ _)
  · rw [canonicalText, trimmed, whole, fraction, magnitudeToDecimal, if_neg (by decide)]

theorem column_isDecimal (units : Nat) : IsDecimal (columnText units) :=
  (column_canonical units).1

theorem column_text (units : Nat) : canonicalText (columnText units) = magnitudeToDecimal units columnScale :=
  (column_canonical units).2

theorem column_fractionDigits (units : Nat) :
    fractionDigits (columnText units) = fractionDigits (magnitudeToDecimal units columnScale) := by
  rw [← canonical_fractionDigits (column_isDecimal units), column_text]

theorem column_worth (units scale : Nat) :
    worth (columnText units) scale = worth (magnitudeToDecimal units columnScale) scale := by
  rw [← canonical_worth (column_isDecimal units), column_text]

theorem digits_value_lt {digits : Text} (valid : ∀ c ∈ digits, c.isDigit = true) :
    Nat.ofDigitChars 10 digits 0 < 10 ^ digits.length := by
  induction digits using List.reverseRecOn with
  | nil => simp
  | append_singleton front last ih =>
    have before := ih fun c member => valid c (by simp [member])
    obtain ⟨low, high⟩ := digit_range (valid last (by simp))
    rw [Nat.ofDigitChars_append, Nat.ofDigitChars_cons, Nat.ofDigitChars_nil, List.length_append,
      List.length_singleton, pow_succ, show '0'.toNat = 48 from rfl]
    omega

theorem fraction_lt {value : Text} (valid : IsDecimal value) (fits : fractionDigits value ≤ scale) :
    fractionValue value * 10 ^ (scale - fractionDigits value) < 10 ^ scale := by
  have decimals : fractionValue value < 10 ^ fractionDigits value := digits_value_lt (canonical_decimals valid)
  have grown := Nat.mul_lt_mul_of_pos_right decimals (Nat.pow_pos (n := scale - fractionDigits value) (show 0 < 10 by omega))
  rwa [← pow_add, Nat.add_sub_cancel' fits] at grown

theorem Fits.worth_lt {value : Text} (fits : Fits value scale) :
    worth value scale < 10 ^ (maxInputIntegerDigits + scale) := by
  have whole : wholeValue value < 10 ^ maxInputIntegerDigits :=
    (digits_value_lt (canonical_digits fits.isDecimal)).trans_le (Nat.pow_le_pow_right (by omega) fits.bounded)
  have fraction := fraction_lt fits.isDecimal fits.fine
  have total : (wholeValue value + 1) * 10 ^ scale ≤ 10 ^ maxInputIntegerDigits * 10 ^ scale :=
    Nat.mul_le_mul_right _ whole
  rw [Nat.add_mul, Nat.one_mul] at total
  rw [worth, pow_add]
  omega

theorem column_fits {units : Nat} (bounded : units < 10 ^ (maxInputIntegerDigits + columnScale)) :
    Fits (columnText units) columnScale where
  isDecimal := column_isDecimal units
  fine := by rw [column_fractionDigits]; exact magnitude_fits _ _
  bounded := by
    have held := (magnitude_holds bounded).bounded
    rwa [← column_text, canonical_trim (column_isDecimal units), canonical_whole (column_isDecimal units)] at held

theorem stored_fits {value : Text} (fits : Fits value columnScale) :
    Fits (columnText (worth value columnScale)) columnScale :=
  column_fits fits.worth_lt

private theorem significant_fraction (digits : ∀ c ∈ fraction, c.isDigit = true)
    (kept : withoutTrailingZeros fraction ≠ []) :
    ¬ 10 ∣ Nat.ofDigitChars 10 (withoutTrailingZeros fraction) 0 := by
  have last := List.rdropWhile_last_not (· == '0') fraction kept
  obtain ⟨front, c, same⟩ : ∃ front c, withoutTrailingZeros fraction = front ++ [c] :=
    ⟨_, _, (List.dropLast_append_getLast kept).symm⟩
  have digit := digits c (mem_withoutTrailingZeros (by simp [same]))
  have nonzero : c ≠ '0' := by
    intro zero
    apply last
    simp only [withoutTrailingZeros] at same
    simp [same, zero]
  obtain ⟨low, high⟩ := digit_range digit
  have above : c.toNat ≠ 48 := fun equal => nonzero (Char.toNat_inj.mp equal)
  rw [same, Nat.ofDigitChars_append, Nat.ofDigitChars_cons, Nat.ofDigitChars_nil, show '0'.toNat = 48 from rfl]
  omega

theorem holds_coarser {value : Text} (valid : IsDecimal value) {finer : Nat}
    (fits : fractionDigits value ≤ finer) (below : scale ≤ finer) :
    fractionDigits value ≤ scale ↔ 10 ^ (finer - scale) ∣ worth value finer := by
  obtain ⟨extra, rfl⟩ := Nat.exists_eq_add_of_le below
  rw [Nat.add_sub_cancel_left]
  constructor
  · intro holds
    rw [worth_scale holds]
    exact Nat.dvd_mul_left _ _
  · intro divides
    by_contra fine
    have kept : withoutTrailingZeros (fractionPart (trim value)) ≠ [] := by
      intro empty
      apply fine
      simp [fractionDigits, empty]
    have whole : 10 ^ extra ∣ wholeValue value * 10 ^ (scale + extra) :=
      Dvd.dvd.mul_left (pow_dvd_pow 10 (by omega)) _
    have decimals := (Nat.dvd_add_right whole).mp divides
    have split : extra = (scale + extra - fractionDigits value) + (fractionDigits value - scale) := by omega
    rw [split, pow_add, ← split, Nat.mul_comm (fractionValue value)] at decimals
    have tail := Nat.dvd_of_mul_dvd_mul_left (Nat.pow_pos (by omega)) decimals
    apply significant_fraction (pattern_parts valid).2 kept
    exact dvd_trans (dvd_pow_self 10 (by omega)) tail

theorem column_holds_coarser {value : Text} (fits : Fits value columnScale) (below : scale ≤ columnScale) :
    fractionDigits (columnText (worth value columnScale)) ≤ scale ↔ fractionDigits value ≤ scale := by
  have stored : fractionDigits (columnText (worth value columnScale)) ≤ columnScale := by
    rw [column_fractionDigits]
    exact magnitude_fits _ _
  rw [holds_coarser (column_isDecimal _) stored below, column_worth, magnitude_worth,
    ← holds_coarser fits.isDecimal fits.fine below]

end Quotum.Decimal
