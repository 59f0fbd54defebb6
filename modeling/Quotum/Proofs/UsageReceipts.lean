import Quotum.General.Outcomes
import Quotum.UsageReceipts

/-! Receipt ids and cursors are read back as they were written, and the pages of a receipt list its deductions. A receipt id is accepted in
one spelling. A cursor is accepted in every spelling that decodes to its receipt and offset; the plain one among them is the one written. -/

namespace Quotum.UsageReceipts
open General General.Json

variable {character : Char} {text value : Text} {α : Type}

section Ascii

def Ascii (text : Text) : Prop :=
  ∀ character ∈ text, character.toNat < 128

private theorem utf8_ascii (ascii : character.toNat < 128) :
    (String.utf8EncodeChar character).map UInt8.toNat = [character.toNat] := by
  have size : character.utf8Size = 1 := by
    rw [Char.utf8Size_eq_one_iff]
    rw [UInt32.le_iff_toNat_le]
    exact Nat.le_of_lt_succ ascii
  rw [String.utf8EncodeChar_eq_singleton size, List.map_singleton]
  congr 1
  exact (UInt32.toNat_toUInt8 character.val).trans (Nat.mod_eq_of_lt (ascii.trans (by decide)))

private theorem utf8Bytes_ascii (ascii : Ascii text) : utf8Bytes text = text.map Char.toNat := by
  induction text with
  | nil => rfl
  | cons first rest ih =>
    have later := ih fun character member => ascii character (List.mem_cons_of_mem first member)
    rw [utf8Bytes, List.flatMap_cons, utf8_ascii (ascii first List.mem_cons_self), List.map_cons, ← later]
    rfl

private theorem utf8Bytes_small (text : Text) : ∀ byte ∈ utf8Bytes text, byte < 256 := by
  intro byte member
  obtain ⟨character, -, inside⟩ := List.mem_flatMap.mp member
  obtain ⟨value, -, rfl⟩ := List.mem_map.mp inside
  exact value.toNat_lt

private theorem asciiText_utf8Bytes (ascii : Ascii text) : asciiText (utf8Bytes text) = text := by
  rw [utf8Bytes_ascii ascii, asciiText, List.map_map]
  conv_rhs => rw [← List.map_id text]
  apply List.map_congr_left
  intro character member
  rw [Function.comp, if_pos (ascii character member), Char.ofNat_toNat]
  rfl

private theorem utf8Bytes_asciiText {bytes : List Nat} (ascii : Ascii (asciiText bytes)) : utf8Bytes (asciiText bytes) = bytes := by
  rw [utf8Bytes_ascii ascii, asciiText, List.map_map]
  conv_rhs => rw [← List.map_id bytes]
  apply List.map_congr_left
  intro byte member
  have inside := ascii _ (List.mem_map_of_mem member)
  rw [Function.comp]
  by_cases small : byte < 128
  · rw [if_pos small]
    exact (Char.toNat_ofNat byte).trans (if_pos (.inl (by omega)))
  · rw [if_neg small] at inside
    exact absurd inside (by decide)

end Ascii

section Pair
variable {first second : Text}

private theorem quoted_plain_eq (plain : Plain text) : quoted text = '"' :: text ++ ['"'] := by
  have same : text.flatMap escaped = text := by
    induction text with
    | nil => rfl
    | cons character rest ih =>
      rw [List.flatMap_cons, plain character List.mem_cons_self,
        ih fun other member => plain other (List.mem_cons_of_mem character member)]
      rfl
  rw [quoted, same]

private theorem jsonPair_plain (plain : Plain first) : jsonPair first second = '[' :: '"' :: first ++ '"' :: ',' :: second ++ [']'] := by
  rw [jsonPair, quoted_plain_eq plain]
  simp

private theorem ascii_jsonPair (plain : Plain first) (ascii : Ascii first) (other : Ascii second) : Ascii (jsonPair first second) := by
  rw [jsonPair_plain plain]
  intro character member
  simp only [List.cons_append, List.append_assoc, List.mem_cons, List.mem_append, List.not_mem_nil, or_false] at member
  rcases member with rfl | rfl | inside | rfl | rfl | inside | rfl
  · decide
  · decide
  · exact ascii character inside
  · decide
  · decide
  · exact other character inside
  · decide

private theorem alphabet_inv (member : character ∈ base64urlAlphabet) :
    escaped character = [character] ∧ character.toNat < 128 ∧ character ≠ ',' ∧ character ≠ '\\' ∧ isBlank character = false := by
  have each : (base64urlAlphabet.all fun character => decide (escaped character = [character]) && decide (character.toNat < 128) &&
      decide (character ≠ ',') && decide (character ≠ '\\') && !isBlank character) = true := by decide
  have own := List.all_eq_true.mp each character member
  simp only [Bool.and_eq_true, decide_eq_true_eq, Bool.not_eq_true'] at own
  obtain ⟨⟨⟨⟨plain, ascii⟩, comma⟩, escape⟩, blank⟩ := own
  exact ⟨plain, ascii, comma, escape, blank⟩

private theorem digit_inv (digit : character.isDigit = true) :
    escaped character = [character] ∧ character.toNat < 128 ∧ character ≠ '\\' ∧ isBlank character = false := by
  have member : character ∈ base64urlAlphabet := by
    obtain ⟨small, same⟩ := isDigit_inv digit
    have each : ∀ value : Fin 10, Nat.digitChar value ∈ base64urlAlphabet := by decide
    exact same ▸ each ⟨_, small⟩
  obtain ⟨plain, ascii, -, rest⟩ := alphabet_inv member
  exact ⟨plain, ascii, rest⟩

end Pair

section Cursor

structure Patterned (receiptId : Text) : Prop where
  characters : ∀ character ∈ receiptId, character ∈ base64urlAlphabet
  length : receiptId.length ≤ 503

private theorem receiptPattern_inv (matched : receiptPattern value = true) : Patterned value := by
  simp only [receiptPattern, Bool.and_eq_true, beq_iff_eq, decide_eq_true_eq, List.all_eq_true, List.contains_iff_mem] at matched
  obtain ⟨⟨⟨leading, -⟩, short⟩, rest⟩ := matched
  constructor
  · intro character member
    rw [← List.take_append_drop 3 value, leading, List.mem_append] at member
    rcases member with start | later
    · have each : (['u', 'r', '_'].all fun character => base64urlAlphabet.contains character) = true := by decide
      exact List.contains_iff_mem.mp (List.all_eq_true.mp each character start)
    · exact rest character later
  · rw [List.length_drop] at short
    omega

theorem Patterned.plain {receiptId : Text} (patterned : Patterned receiptId) : Plain receiptId :=
  fun character member => (alphabet_inv (patterned.characters character member)).1

theorem Patterned.ascii {receiptId : Text} (patterned : Patterned receiptId) : Ascii receiptId :=
  fun character member => (alphabet_inv (patterned.characters character member)).2.1

private theorem toDigits_ascii (offset : Nat) : Ascii (Nat.toDigits 10 offset) :=
  fun _ member => (digit_inv (toDigits_digit member)).2.1

private theorem safeInteger_natCast {offset : Nat} (safe : offset < 2 ^ 53) : safeInteger (offset : ℚ) = some (offset : Int) := by
  have absolute : |((offset : ℚ)).num| < 2 ^ 53 := by
    rw [Rat.num_natCast, Nat.abs_cast]
    exact_mod_cast safe
  rw [safeInteger, if_pos ⟨Rat.den_natCast offset, absolute⟩, Rat.num_natCast]

private theorem utf16Length_alphabet (characters : ∀ character ∈ text, character ∈ base64urlAlphabet) :
    utf16Length text = text.length := by
  have units : ∀ character ∈ text, (if character.toNat < 0x10000 then 1 else 2) = 1 := fun character member =>
    if_pos ((alphabet_inv (characters character member)).2.1.trans (by decide))
  rw [utf16Length, List.map_congr_left units]
  simp

variable {receiptId cursor : Text} {offset count : Nat}

private theorem length_cursor (patterned : Patterned receiptId) {second : Text} (ascii : Ascii second) (short : second.length ≤ 9) :
    utf16Length (base64url (utf8Bytes (jsonPair receiptId second))) ≤ 1000 := by
  have length := patterned.length
  rw [utf16Length_alphabet (base64url_alphabet (utf8Bytes_small _)), length_base64url,
    utf8Bytes_ascii (ascii_jsonPair patterned.plain patterned.ascii ascii), List.length_map, jsonPair_plain patterned.plain]
  simp only [List.length_append, List.length_cons, List.length_nil]
  omega

/-- A text of a receipt's id and an offset is decoded, whatever blanks stand before the offset and however the text's bytes are spelled. -/
private theorem decodeCursor_spelled (patterned : Patterned receiptId) {spelled : Text} (ascii : Ascii spelled)
    (start : skipBlanks (spelled ++ [']']) = Nat.toDigits 10 offset ++ [']']) (within : offset ≤ count) (safe : offset < 2 ^ 53)
    (bytes : base64Bytes cursor = utf8Bytes (jsonPair receiptId spelled)) (short : utf16Length cursor ≤ 1024) :
    decodeCursor receiptId count cursor = some offset := by
  have number : readNumber (Nat.toDigits 10 offset ++ [']']) = some ((offset : ℚ), [']']) := by
    rw [readNumber_plain (toDigits_plain offset), Nat.ofDigitChars_toDigits (by omega) (by omega), nearestDouble_safe safe]
  have pair : readPair readNumber (asciiText (base64Bytes cursor)) = some (receiptId, (offset : ℚ)) := by
    rw [bytes, asciiText_utf8Bytes (ascii_jsonPair patterned.plain patterned.ascii ascii), jsonPair_plain patterned.plain]
    exact readPair_plain patterned.plain start number
  rw [decodeCursor, if_neg (not_lt.mpr short), pair]
  simp only [safeInteger_natCast safe]
  rw [if_neg (by simp [within])]
  rfl

private theorem digits_start (offset : Nat) : skipBlanks (Nat.toDigits 10 offset ++ [']']) = Nat.toDigits 10 offset ++ [']'] := by
  apply Clean.skipBlanks
  intro character member
  rcases List.mem_append.mp member with digit | closing
  · obtain ⟨-, -, escape, blank⟩ := digit_inv (toDigits_digit digit)
    exact ⟨blank, escape⟩
  · rw [List.mem_singleton.mp closing]
    decide

private theorem decodeCursor_encodeCursor (patterned : Patterned receiptId) (within : offset ≤ count) (few : offset < 10 ^ 9) :
    decodeCursor receiptId count (encodeCursor receiptId offset) = some offset := by
  have short : (Nat.toDigits 10 offset).length ≤ 9 := (Nat.length_toDigits_le_iff (by omega) (by omega)).mpr few
  exact decodeCursor_spelled patterned (toDigits_ascii offset) (digits_start offset) within (by omega)
    (base64Bytes_base64url (utf8Bytes_small _)) ((length_cursor patterned (toDigits_ascii offset) short).trans (by omega))

/-- A cursor in its plain spelling: unpadded base64 of text without blanks and escapes, its number in plain digits. -/
structure PlainCursor (cursor : Text) : Prop where
  base64 : base64url (base64Bytes cursor) = cursor
  clean : Clean (asciiText (base64Bytes cursor))
  number : plainDigits
    ((((asciiText (base64Bytes cursor)).dropWhile fun character => decide (character ≠ ',')).drop 1).takeWhile inNumeral) = true

private theorem after_comma (patterned : Patterned receiptId) (written : Text) :
    ((('[' :: '"' :: receiptId ++ '"' :: ',' :: written ++ [']']).dropWhile fun character => decide (character ≠ ',')).drop 1) =
      written ++ [']'] := by
  have before : ∀ character ∈ '[' :: '"' :: receiptId ++ ['"'], decide (character ≠ ',') = true := by
    intro character member
    rw [decide_eq_true_eq]
    simp only [List.cons_append, List.mem_cons, List.mem_append, List.not_mem_nil, or_false] at member
    rcases member with rfl | rfl | inside | rfl
    · decide
    · decide
    · exact (alphabet_inv (patterned.characters character inside)).2.2.1
    · decide
  have split : '[' :: '"' :: receiptId ++ '"' :: ',' :: written ++ [']'] =
      ('[' :: '"' :: receiptId ++ ['"']) ++ ',' :: (written ++ [']']) := by simp
  rw [split, List.dropWhile_append_of_pos before, List.dropWhile_cons_of_neg (by decide)]
  rfl

private theorem encodeCursor_plain (patterned : Patterned receiptId) (offset : Nat) : PlainCursor (encodeCursor receiptId offset) := by
  have bytes : base64Bytes (encodeCursor receiptId offset) = utf8Bytes (jsonPair receiptId (Nat.toDigits 10 offset)) :=
    base64Bytes_base64url (utf8Bytes_small _)
  have text : asciiText (base64Bytes (encodeCursor receiptId offset)) =
      '[' :: '"' :: receiptId ++ '"' :: ',' :: Nat.toDigits 10 offset ++ [']'] := by
    rw [bytes, asciiText_utf8Bytes (ascii_jsonPair patterned.plain patterned.ascii (toDigits_ascii offset)), jsonPair_plain patterned.plain]
  have digits : ∀ character ∈ Nat.toDigits 10 offset, character.isDigit = true :=
    fun _ => toDigits_digit
  constructor
  · rw [bytes]
    rfl
  · rw [text]
    intro character member
    simp only [List.cons_append, List.append_assoc, List.mem_cons, List.mem_append, List.not_mem_nil, or_false] at member
    rcases member with rfl | rfl | inside | rfl | rfl | inside | rfl
    · decide
    · decide
    · obtain ⟨-, -, -, escape, blank⟩ := alphabet_inv (patterned.characters character inside)
      exact ⟨blank, escape⟩
    · decide
    · decide
    · obtain ⟨-, -, escape, blank⟩ := digit_inv (digits character inside)
      exact ⟨blank, escape⟩
    · decide
  · rw [text, after_comma patterned, (takeWhile_numeral digits).1]
    exact toDigits_plain offset

private theorem safeInteger_inv {value : ℚ} {integer : Int} (safe : safeInteger value = some integer) : value = integer ∧ |integer| < 2 ^ 53 := by
  unfold safeInteger at safe
  split at safe
  next bounds =>
    cases safe
    refine ⟨?_, bounds.2⟩
    exact (Rat.coe_int_num_of_den_eq_one bounds.1).symm
  · cases safe

private theorem decodeCursor_inv (decoded : decodeCursor receiptId count cursor = some offset) :
    ∃ number, readPair readNumber (asciiText (base64Bytes cursor)) = some (receiptId, number) ∧ safeInteger number = some (offset : Int) ∧
      offset ≤ count := by
  unfold decodeCursor at decoded
  split at decoded
  · cases decoded
  · split at decoded
    · cases decoded
    next pair =>
      split at decoded
      · cases decoded
      next safe =>
        split at decoded
        · cases decoded
        next sound =>
          cases decoded
          obtain ⟨same, bounds⟩ := not_or.mp sound
          obtain ⟨nonnegative, within⟩ := not_or.mp bounds
          obtain rfl := not_not.mp same
          refine ⟨_, pair, ?_, by omega⟩
          rw [safe, Int.toNat_of_nonneg (not_lt.mp nonnegative)]

private theorem cursor_canonical (patterned : Patterned receiptId) (decoded : decodeCursor receiptId count cursor = some offset) :
    cursor = encodeCursor receiptId offset ↔ PlainCursor cursor := by
  constructor
  · rintro rfl
    exact encodeCursor_plain patterned offset
  · rintro ⟨base64, clean, number⟩
    obtain ⟨value, pair, safe, -⟩ := decodeCursor_inv decoded
    obtain ⟨written, text, read⟩ := readPair_inv clean readNumber_suffix pair
    rw [text, after_comma patterned] at number
    have whole : (written ++ [']']).takeWhile inNumeral = written := by
      obtain ⟨_, -, same⟩ := Option.map_eq_some_iff.mp read
      have parts := List.takeWhile_append_dropWhile (p := inNumeral) (l := written ++ [']'])
      rw [(Prod.mk.inj same).2] at parts
      exact List.append_cancel_right parts
    rw [whole] at number
    rw [readNumber_plain number] at read
    obtain ⟨exactly, bounded⟩ := safeInteger_inv safe
    have value : nearestDouble (Nat.ofDigitChars 10 written 0) = offset := by
      rw [(Prod.mk.inj (Option.some.inj read)).1, exactly]
      rfl
    have small : Nat.ofDigitChars 10 written 0 < 2 ^ 53 := by
      by_contra large
      have above := nearestDouble_large (not_lt.mp large)
      rw [value] at above
      rw [Nat.abs_cast] at bounded
      have reached : 2 ^ 53 ≤ offset := by exact_mod_cast above
      omega
    rw [nearestDouble_safe small] at value
    have same : written = Nat.toDigits 10 offset := by
      rw [← plainDigits_toDigits number]
      exact congrArg _ (by exact_mod_cast value)
    rw [same, ← jsonPair_plain patterned.plain] at text
    have bytes : utf8Bytes (jsonPair receiptId (Nat.toDigits 10 offset)) = base64Bytes cursor := by
      rw [← text]
      apply utf8Bytes_asciiText
      rw [text]
      exact ascii_jsonPair patterned.plain patterned.ascii (toDigits_ascii offset)
    rw [encodeCursor, bytes, base64]

end Cursor

section Locator

private theorem ascii_table {p : Char → Bool} (each : ((List.range 128).all fun code => p (Char.ofNat code)) = true)
    (ascii : character.toNat < 128) : p character = true := by
  have own := List.all_eq_true.mp each character.toNat (List.mem_range.mpr ascii)
  rwa [Char.ofNat_toNat] at own

private theorem char_le {bound : Char} (below : character ≤ bound) : character.toNat ≤ bound.toNat :=
  UInt32.le_iff_toNat_le.mp below

private theorem hexDigit_alphabet (hex : (hexDigit character).isSome = true) : character ∈ base64urlAlphabet := by
  have ascii : character.toNat < 128 := by
    unfold hexDigit at hex
    split_ifs at hex with digit lower upper
    · exact (digit_inv digit).2.1
    · exact (char_le lower.2).trans_lt (by decide)
    · exact (char_le upper.2).trans_lt (by decide)
    · cases hex
  have each : ((List.range 128).all fun code =>
      !(hexDigit (Char.ofNat code)).isSome || base64urlAlphabet.contains (Char.ofNat code)) = true := by decide
  have own := ascii_table (p := fun character => !(hexDigit character).isSome || base64urlAlphabet.contains character) each ascii
  rw [hex, Bool.not_true, Bool.false_or] at own
  exact List.contains_iff_mem.mp own

private theorem uuidPattern_inv {id : Text} (matched : uuidPattern id = true) :
    id.length = 36 ∧ ∀ character ∈ id, character ∈ base64urlAlphabet := by
  rw [uuidPattern, Bool.and_eq_true, decide_eq_true_eq] at matched
  refine ⟨matched.1, ?_⟩
  intro character member
  obtain ⟨index, inside, rfl⟩ := List.getElem_of_mem member
  have own := List.all_eq_true.mp matched.2 (id[index], index) (List.mk_mem_zipIdx_iff_getElem?.mpr (List.getElem?_eq_getElem inside))
  dsimp only at own
  split at own
  · have dash : base64urlAlphabet.contains '-' = true := by decide
    rw [eq_of_beq own]
    exact List.contains_iff_mem.mp dash
  · exact hexDigit_alphabet own

def inTimestamp (character : Char) : Bool :=
  character.isDigit || ['-', ' ', 'T', ':', '.', '+', 'Z'].contains character

def Reads (most : Nat) (text rest : Text) : Prop :=
  ∃ front, text = front ++ rest ∧ front.length ≤ most ∧ ∀ character ∈ front, inTimestamp character = true

variable {rest : Text}

theorem Reads.trans {most more : Nat} {middle : Text} (first : Reads most text middle) (second : Reads more middle rest) :
    Reads (most + more) text rest := by
  obtain ⟨front, rfl, short, written⟩ := first
  obtain ⟨back, rfl, shortToo, writtenToo⟩ := second
  refine ⟨front ++ back, by rw [List.append_assoc], ?_, ?_⟩
  · rw [List.length_append]
    omega
  · intro character member
    rcases List.mem_append.mp member with before | after
    · exact written character before
    · exact writtenToo character after

theorem Reads.one (known : inTimestamp character = true) (rest : Text) : Reads 1 (character :: rest) rest := by
  refine ⟨[character], rfl, le_rfl, ?_⟩
  intro other member
  rw [List.mem_singleton.mp member]
  exact known

theorem Reads.none (most : Nat) (text : Text) : Reads most text text :=
  ⟨[], rfl, Nat.zero_le _, by simp⟩

private theorem readDigits_reads {count value : Nat} (read : readDigits count text = some (value, rest)) :
    Reads count text rest := by
  unfold readDigits at read
  split at read
  next digits =>
    cases read
    refine ⟨text.take count, (List.take_append_drop count text).symm, digits.1.le, ?_⟩
    intro character member
    rw [inTimestamp, List.all_eq_true.mp digits.2 character member, Bool.true_or]
  · cases read

private theorem readOneOf_reads {allowed : Text} (known : (allowed.all inTimestamp) = true) (read : readOneOf allowed text = some rest) :
    Reads 1 text rest := by
  cases text with
  | nil => cases read
  | cons first others =>
    rw [readOneOf] at read
    split at read
    next member =>
      cases read
      exact .one (List.all_eq_true.mp known first member) _
    · cases read

private theorem digits_bind {count most : Nat} {next : Nat × Text → Option α} {result : α}
    (read : (readDigits count text).bind next = some result) (more : ∀ pair, next pair = some result → Reads most pair.2 []) :
    Reads (most + count) text [] := by
  obtain ⟨pair, first, left⟩ := Option.bind_eq_some_iff.mp read
  rw [Nat.add_comm]
  exact (readDigits_reads first).trans (more pair left)

private theorem sign_bind {most : Nat} {allowed : Text} {next : Text → Option α} {result : α} (known : (allowed.all inTimestamp) = true)
    (read : (readOneOf allowed text).bind next = some result) (more : ∀ rest, next rest = some result → Reads most rest []) :
    Reads (most + 1) text [] := by
  obtain ⟨rest, first, left⟩ := Option.bind_eq_some_iff.mp read
  rw [Nat.add_comm]
  exact (readOneOf_reads known first).trans (more rest left)

private theorem readFraction_reads (read : readFraction text = some rest) : Reads 7 text rest := by
  unfold readFraction at read
  split at read
  next point =>
    split at read
    next few =>
      cases read
      obtain ⟨others, rfl⟩ : ∃ others, text = '.' :: others := by
        cases text with
        | nil => cases point
        | cons first others =>
          cases point
          exact ⟨others, rfl⟩
      refine ⟨'.' :: others.takeWhile Char.isDigit, ?_, Nat.succ_le_succ few.2, ?_⟩
      · rw [List.cons_append, List.tail_cons, List.takeWhile_append_dropWhile]
      · intro character member
        rcases List.mem_cons.mp member with rfl | digit
        · decide
        · rw [inTimestamp, List.mem_takeWhile_imp digit, Bool.true_or]
    · cases read
  · cases read
    exact .none 7 _

private theorem readZone_reads {offset : Nat × Nat} (read : readZone text = some offset) : Reads 6 text [] := by
  unfold readZone at read
  split at read
  next zulu =>
    rw [zulu]
    exact (Reads.one (by decide) []).trans (.none 5 [])
  · simp only [Option.bind_eq_bind, Option.bind_eq_some_iff, Prod.exists] at read
    obtain ⟨unsigned, sign, hour, left, hours, read⟩ := read
    have start := (readOneOf_reads (by decide) sign).trans (readDigits_reads hours)
    split at read
    next done =>
      rw [done] at start
      exact start.trans (.none 3 [])
    · obtain ⟨⟨minute, ending⟩, minutes, read⟩ := Option.bind_eq_some_iff.mp read
      split at read
      next done =>
        dsimp only at done
        rw [done] at minutes
        have separated : Reads 1 left (if left.head? = some ':' then left.tail else left) := by
          split
          next colon =>
            cases left with
            | nil => cases colon
            | cons first others =>
              cases colon
              exact .one (by decide) others
          · exact .none 1 left
        exact (start.trans separated).trans (readDigits_reads minutes)
      · cases read

private theorem storable_reads (storable : isStorableRecordedAt value = true) : Reads 32 value [] := by
  unfold isStorableRecordedAt at storable
  split at storable
  · cases storable
  next parts found =>
    unfold recordedAtParts at found
    refine digits_bind found fun _ found => sign_bind (by decide) found fun _ found => digits_bind found fun _ found =>
      sign_bind (by decide) found fun _ found => digits_bind found fun _ found => sign_bind (by decide) found fun _ found =>
      digits_bind found fun _ found => sign_bind (by decide) found fun _ found => digits_bind found fun _ found =>
      sign_bind (by decide) found fun _ found => digits_bind found fun _ found => ?_
    obtain ⟨left, fraction, found⟩ := Option.bind_eq_some_iff.mp found
    obtain ⟨offset, zone, -⟩ := Option.bind_eq_some_iff.mp found
    exact (readFraction_reads fraction).trans (readZone_reads zone)

private theorem inTimestamp_inv (inside : inTimestamp character = true) :
    escaped character = [character] ∧ character.toNat < 128 := by
  rw [inTimestamp, Bool.or_eq_true] at inside
  rcases inside with digit | sign
  · obtain ⟨plain, ascii, -⟩ := digit_inv digit
    exact ⟨plain, ascii⟩
  · have each : (['-', ' ', 'T', ':', '.', '+', 'Z'].all fun character =>
        decide (escaped character = [character]) && decide (character.toNat < 128)) = true := by decide
    have own := List.all_eq_true.mp each character (List.contains_iff_mem.mp sign)
    rw [Bool.and_eq_true, decide_eq_true_eq, decide_eq_true_eq] at own
    exact own

private theorem storable_plain (storable : isStorableRecordedAt value = true) :
    value.length ≤ 32 ∧ Plain value ∧ Ascii value := by
  obtain ⟨front, same, short, written⟩ := storable_reads storable
  rw [List.append_nil] at same
  subst same
  exact ⟨short, fun character member => (inTimestamp_inv (written character member)).1,
    fun character member => (inTimestamp_inv (written character member)).2⟩

variable {dateParses : Text → Bool} {id recordedAt : Text}

private theorem locates_inv (located : locates dateParses id recordedAt = true) : id.length = 36 ∧ Plain id ∧ Ascii id ∧ recordedAt.length ≤ 32 ∧
    Plain recordedAt ∧ Ascii recordedAt := by
  rw [locates, Bool.and_eq_true, Bool.and_eq_true] at located
  obtain ⟨length, characters⟩ := uuidPattern_inv located.1.1
  exact ⟨length, fun character member => (alphabet_inv (characters character member)).1,
    fun character member => (alphabet_inv (characters character member)).2.1, storable_plain located.1.2⟩

private theorem ascii_quoted (plain : Plain text) (ascii : Ascii text) : Ascii (quoted text) := by
  rw [quoted_plain_eq plain]
  intro character member
  rcases List.mem_append.mp member with inside | ending
  · rcases List.mem_cons.mp inside with rfl | own
    · decide
    · exact ascii character own
  · rw [List.mem_singleton.mp ending]
    decide

private theorem receiptId_pattern (located : locates dateParses id recordedAt = true) : receiptPattern (receiptId id recordedAt) = true := by
  obtain ⟨width, plain, ascii, short, plainToo, asciiToo⟩ := locates_inv located
  have length : (base64url (utf8Bytes (jsonPair id (quoted recordedAt)))).length = (4 * (recordedAt.length + 43) + 2) / 3 := by
    rw [length_base64url, utf8Bytes_ascii (ascii_jsonPair plain ascii (ascii_quoted plainToo asciiToo)), List.length_map, jsonPair_plain plain,
      quoted_plain_eq plainToo]
    simp only [List.length_append, List.length_cons, List.length_nil, width]
    congr 1
    omega
  have leading : (receiptId id recordedAt).take 3 = ['u', 'r', '_'] := rfl
  have rest : (receiptId id recordedAt).drop 3 = base64url (utf8Bytes (jsonPair id (quoted recordedAt))) := rfl
  rw [receiptPattern, leading, rest, length]
  simp only [beq_self_eq_true, Bool.true_and, Bool.and_eq_true, decide_eq_true_eq, List.all_eq_true, List.contains_iff_mem]
  exact ⟨⟨by omega, by omega⟩, base64url_alphabet (utf8Bytes_small _)⟩

private theorem parseReceiptId_receiptId (located : locates dateParses id recordedAt = true) :
    parseReceiptId dateParses (receiptId id recordedAt) = .ok (id, recordedAt) := by
  obtain ⟨-, plain, ascii, -, plainToo, asciiToo⟩ := locates_inv located
  have string : readString (quoted recordedAt ++ [']']) = some (recordedAt, [']']) := by
    rw [quoted_plain_eq plainToo, readString]
    have read := readCharacters_plain plainToo [']']
    simpa [expect] using read
  have start : skipBlanks (quoted recordedAt ++ [']']) = quoted recordedAt ++ [']'] := rfl
  have pair : readPair readString (asciiText (base64Bytes ((receiptId id recordedAt).drop 3))) = some (id, recordedAt) := by
    change readPair readString (asciiText (base64Bytes (base64url (utf8Bytes (jsonPair id (quoted recordedAt)))))) = _
    rw [base64Bytes_base64url (utf8Bytes_small _), asciiText_utf8Bytes (ascii_jsonPair plain ascii (ascii_quoted plainToo asciiToo)),
      jsonPair_plain plain]
    exact readPair_plain plain start string
  rw [parseReceiptId, if_pos (receiptId_pattern located), pair]
  exact if_pos ⟨located, rfl⟩

private theorem parseReceiptId_inv (parsed : parseReceiptId dateParses value = .ok (id, recordedAt)) :
    receiptId id recordedAt = value ∧ locates dateParses id recordedAt = true ∧ Patterned value := by
  unfold parseReceiptId at parsed
  split at parsed
  next matched =>
    split at parsed
    · cases parsed
    · split at parsed
      next accepted =>
        cases parsed
        exact ⟨accepted.2, accepted.1, receiptPattern_inv matched⟩
      · cases parsed
  · cases parsed

end Locator

section Paging

private theorem positions_after (rows : List α) (offset : Nat) :
    ((rows.zipIdx 1).filter fun row => decide (offset < row.2)).map Prod.fst = rows.drop offset := by
  have split : rows.zipIdx 1 = (rows.take offset).zipIdx 1 ++ (rows.drop offset).zipIdx (1 + (rows.take offset).length) := by
    conv_lhs => rw [← List.take_append_drop offset rows]
    exact List.zipIdx_append
  have before : ((rows.take offset).zipIdx 1).filter (fun row => decide (offset < row.2)) = [] := by
    rw [List.filter_eq_nil_iff]
    intro row member after
    have bound := List.snd_lt_of_mem_zipIdx member
    rw [List.length_take] at bound
    have past := of_decide_eq_true after
    omega
  have later : ((rows.drop offset).zipIdx (1 + (rows.take offset).length)).filter (fun row => decide (offset < row.2)) =
      (rows.drop offset).zipIdx (1 + (rows.take offset).length) := by
    rw [List.filter_eq_self]
    intro row member
    have bound := List.le_snd_of_mem_zipIdx member
    have some : offset < rows.length := by
      by_contra all
      rw [List.drop_eq_nil_of_le (not_lt.mp all)] at member
      cases member
    rw [List.length_take] at bound
    exact decide_eq_true (by omega)
  rw [split, List.filter_append, before, later, List.nil_append, List.zipIdx_map_fst]

private theorem deductionPage_eq (receiptId : Text) (event : UsageEvent) (offset limit : Nat) :
    deductionPage receiptId event offset limit =
      { items := ((event.deductions.drop offset).take limit).map UsageDeduction.item
        nextCursor := if offset + limit < event.deductions.length then some (encodeCursor receiptId (offset + limit)) else none } := by
  have rows := positions_after event.deductions offset
  have length := congrArg List.length rows
  rw [List.length_map, List.length_drop] at length
  rw [deductionPage]
  generalize (event.deductions.zipIdx 1).filter (fun row => decide (offset < row.2)) = after at rows length
  rw [← rows, ← List.map_take, List.map_map, List.take_take, List.length_take, length]
  congr 1
  · rw [Nat.min_eq_left (Nat.le_succ limit)]
    rfl
  · apply if_congr _ rfl rfl
    omega

variable {dateParses : Text → Bool} {find : Text → Text → UsageReceiptInput → Except ReceiptFailure UsageEvent}
  {input : UsageReceiptInput} {event : UsageEvent} {limit : Option Int} {size : Nat}

private theorem get_patterned (found : get dateParses find input = .ok event) : Patterned input.receiptId := by
  unfold get at found
  obtain ⟨⟨id, recordedAt⟩, parsed, -⟩ := bind_ok found
  exact (parseReceiptId_inv parsed).2.2

private theorem pageLimit_positive (sized : pageLimit limit = .ok size) : 0 < size := by
  unfold pageLimit at sized
  dsimp only at sized
  split at sized
  · cases sized
  next within =>
    cases sized
    omega

variable (found : get dateParses find input = .ok event) {offset : Nat}
include found

private theorem listDeductions_page (sized : pageLimit limit = .ok size) {cursor : Option Text}
    (start : pageOffset input.receiptId event.deductionCount cursor = .ok offset) :
    listDeductions dateParses find input cursor limit = .ok (deductionPage input.receiptId event offset size) := by
  rw [listDeductions, found, ok_bind, sized, ok_bind, start, ok_bind]

private theorem pageOffset_encodeCursor (within : offset ≤ event.deductionCount) :
    pageOffset input.receiptId event.deductionCount (some (encodeCursor input.receiptId offset)) = .ok offset := by
  have few : offset < 10 ^ 9 := by
    have counted := event.counted
    have fits := event.fits
    omega
  rw [pageOffset, decodeCursor_encodeCursor (get_patterned found) within few]

private theorem pages_from (sized : pageLimit limit = .ok size) (offset : Nat) {cursor : Option Text}
    (start : pageOffset input.receiptId event.deductionCount cursor = .ok offset) :
    Pages dateParses find input limit cursor ((event.deductions.drop offset).map UsageDeduction.item) := by
  have positive := pageLimit_positive sized
  have read := listDeductions_page found sized start
  rw [deductionPage_eq] at read
  by_cases more : offset + size < event.deductions.length
  · rw [if_pos more] at read
    have within : offset + size ≤ event.deductionCount := event.counted ▸ more.le
    have rest := pages_from sized (offset + size) (pageOffset_encodeCursor found within)
    have joined := Pages.more read rfl rest
    rw [← List.drop_drop, ← List.map_append, List.take_append_drop] at joined
    exact joined
  · rw [if_neg more] at read
    have all : (event.deductions.drop offset).take size = event.deductions.drop offset := by
      apply List.take_of_length_le
      rw [List.length_drop]
      omega
    rw [all] at read
    exact Pages.last read rfl
termination_by event.deductions.length - offset

private theorem pages_unique (sized : pageLimit limit = .ok size) {cursor : Option Text}
    {items : List DeductionItem} (pages : Pages dateParses find input limit cursor items)
    (start : pageOffset input.receiptId event.deductionCount cursor = .ok offset) :
    items = (event.deductions.drop offset).map UsageDeduction.item := by
  induction pages generalizing offset with
  | last read ended =>
    rw [listDeductions_page found sized start, deductionPage_eq] at read
    cases read
    dsimp only at ended ⊢
    split at ended
    · cases ended
    next done =>
      rw [List.take_of_length_le]
      rw [List.length_drop]
      omega
  | more read continued rest ih =>
    rw [listDeductions_page found sized start, deductionPage_eq] at read
    cases read
    dsimp only at continued ⊢
    split at continued
    next more =>
      cases continued
      have within : offset + size ≤ event.deductionCount := event.counted ▸ more.le
      rw [ih (pageOffset_encodeCursor found within), ← List.map_append, ← List.drop_drop, List.take_append_drop]
    · cases continued

end Paging

/-- Receipt ids are read back as they were written and accepted in one spelling; cursors are read back too, and an accepted one is the one that
the code writes exactly when it is spelled plainly; and the cursors lead through each of a receipt's deductions once, in order, to the end. -/
theorem receipt_codecs (dateParses : Text → Bool) (find : Text → Text → UsageReceiptInput → Except ReceiptFailure UsageEvent) :
    (∀ id recordedAt, locates dateParses id recordedAt = true →
      parseReceiptId dateParses (receiptId id recordedAt) = .ok (id, recordedAt)) ∧
    (∀ value id recordedAt, parseReceiptId dateParses value = .ok (id, recordedAt) → receiptId id recordedAt = value) ∧
    ∀ input event, get dateParses find input = .ok event →
      (∀ offset, offset ≤ event.deductionCount →
        decodeCursor input.receiptId event.deductionCount (encodeCursor input.receiptId offset) = some offset) ∧
      (∀ cursor offset, decodeCursor input.receiptId event.deductionCount cursor = some offset →
        (cursor = encodeCursor input.receiptId offset ↔ PlainCursor cursor)) ∧
      ∀ limit size, pageLimit limit = .ok size →
        Pages dateParses find input limit none (event.deductions.map UsageDeduction.item) ∧
        ∀ items, Pages dateParses find input limit none items → items = event.deductions.map UsageDeduction.item := by
  refine ⟨fun id recordedAt located => parseReceiptId_receiptId located,
    fun value id recordedAt parsed => (parseReceiptId_inv parsed).1, ?_⟩
  intro input event found
  have patterned := get_patterned found
  refine ⟨?_, fun cursor offset decoded => cursor_canonical patterned decoded, ?_⟩
  · intro offset within
    have counted := event.counted
    have fits := event.fits
    exact decodeCursor_encodeCursor patterned within (by omega)
  · intro limit size sized
    exact ⟨pages_from found sized 0 rfl, fun items pages => pages_unique found sized pages rfl⟩

/-- A receipt of two deductions, and two cursors of it that the code does not write and accepts: one whose JSON text has a blank, and one
with padding. -/
theorem cursor_accepted_otherwise :
    let id := "1f524c44-64c8-4c18-bceb-234d84a51aca".toList
    let recordedAt := "2026-10-02 15:04:05.123456+00".toList
    let input : UsageReceiptInput := ⟨"account".toList, none, receiptId id recordedAt⟩
    let deduction : UsageDeduction := ⟨"plan".toList, "grant".toList, "1".toList, none⟩
    let event : UsageEvent := ⟨[deduction, deduction], 2, rfl, by decide⟩
    ∀ cursor ∈ [base64url (utf8Bytes (jsonPair input.receiptId [' ', '1'])), encodeCursor input.receiptId 1 ++ ['=']],
      listDeductions (fun _ => true) (fun _ _ _ => .ok event) input (some cursor) (some 1) =
          .ok { items := [deduction.item], nextCursor := none } ∧
        decodeCursor input.receiptId event.deductionCount cursor = some 1 ∧ cursor ≠ encodeCursor input.receiptId 1 := by
  intro id recordedAt input deduction event
  have located : locates (fun _ => true) id recordedAt = true := by decide
  have found : get (fun _ => true) (fun _ _ _ => .ok event) input = .ok event := by
    rw [get, parseReceiptId_receiptId located]
    rfl
  have patterned := get_patterned found
  have listed {cursor : Text} (decoded : decodeCursor input.receiptId event.deductionCount cursor = some 1) :
      listDeductions (fun _ => true) (fun _ _ _ => .ok event) input (some cursor) (some 1) =
        .ok { items := [deduction.item], nextCursor := none } := by
    have start : pageOffset input.receiptId event.deductionCount (some cursor) = .ok 1 := by rw [pageOffset, decoded]
    rw [listDeductions_page found (show pageLimit (some 1) = .ok 1 from rfl) start, deductionPage_eq]
    rfl
  have ascii : Ascii [' ', '1'] := by
    intro character member
    simp only [List.mem_cons, List.not_mem_nil, or_false] at member
    rcases member with rfl | rfl <;> decide
  have digits : Ascii (Nat.toDigits 10 1) := toDigits_ascii 1
  simp only [List.forall_mem_cons, List.not_mem_nil, false_implies, implies_true, and_true]
  constructor
  · have bytes := base64Bytes_base64url (utf8Bytes_small (jsonPair input.receiptId [' ', '1']))
    have decoded : decodeCursor input.receiptId event.deductionCount (base64url (utf8Bytes (jsonPair input.receiptId [' ', '1']))) = some 1 :=
      decodeCursor_spelled patterned ascii rfl (by decide) (by decide) bytes ((length_cursor patterned ascii (by decide)).trans (by decide))
    refine ⟨listed decoded, decoded, ?_⟩
    intro same
    have clean := ((cursor_canonical patterned decoded).mp same).clean
    rw [bytes, asciiText_utf8Bytes (ascii_jsonPair patterned.plain patterned.ascii ascii), jsonPair_plain patterned.plain] at clean
    exact absurd (clean ' ' (by simp)).1 (by decide)
  · have unpadded : ∀ character ∈ encodeCursor input.receiptId 1, character ≠ '=' := by
      intro character member same
      have inside := base64url_alphabet (utf8Bytes_small _) character member
      have outside : base64urlAlphabet.contains '=' = false := by decide
      rw [same, ← List.contains_iff_mem, outside] at inside
      cases inside
    have bytes : base64Bytes (encodeCursor input.receiptId 1 ++ ['=']) = utf8Bytes (jsonPair input.receiptId (Nat.toDigits 10 1)) :=
      (base64Bytes_padded unpadded).trans (base64Bytes_base64url (utf8Bytes_small _))
    have short : utf16Length (encodeCursor input.receiptId 1 ++ ['=']) ≤ 1024 := by
      have own := length_cursor patterned digits (by decide)
      rw [utf16Length, List.map_append, List.sum_append]
      exact Nat.add_le_add own (by decide : 1 ≤ 24)
    have decoded : decodeCursor input.receiptId event.deductionCount (encodeCursor input.receiptId 1 ++ ['=']) = some 1 :=
      decodeCursor_spelled patterned digits (digits_start 1) (by decide) (by decide) bytes short
    refine ⟨listed decoded, decoded, ?_⟩
    intro same
    have length := congrArg List.length same
    simp at length

end Quotum.UsageReceipts
