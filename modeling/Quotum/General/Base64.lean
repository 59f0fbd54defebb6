import Mathlib.Data.List.Basic
import Mathlib.Tactic.IntervalCases

/-! Base64 under the alphabet for URLs: bytes as characters, and the lenient way back. -/

namespace Quotum.General

def base64urlAlphabet : List Char :=
  "ABCDEFGHIJKLMNOPQRSTUVWXYZabcdefghijklmnopqrstuvwxyz0123456789-_".toList

def sextetChar (sextet : Nat) : Char :=
  base64urlAlphabet.getD sextet '_'

def charSextet (character : Char) : Option Nat :=
  if character = '+' then some 62
  else if character = '/' then some 63
  else base64urlAlphabet.idxOf? character

def sextets : List Nat → List Nat
  | [] => []
  | [a] => [a / 4, a % 4 * 16]
  | [a, b] => [a / 4, a % 4 * 16 + b / 16, b % 16 * 4]
  | a :: b :: c :: rest => a / 4 :: (a % 4 * 16 + b / 16) :: (b % 16 * 4 + c / 64) :: c % 64 :: sextets rest

def sextetBytes : List Nat → List Nat
  | w :: x :: y :: z :: rest => (w * 4 + x / 16) :: (x % 16 * 16 + y / 4) :: (y % 4 * 64 + z) :: sextetBytes rest
  | [w, x, y] => [w * 4 + x / 16, x % 16 * 16 + y / 4]
  | [w, x] => [w * 4 + x / 16]
  | _ => []

def base64url (bytes : List Nat) : List Char :=
  (sextets bytes).map sextetChar

/-- The bytes of a text. Characters outside the alphabets are passed over, and padding ends the text. -/
def base64Bytes (text : List Char) : List Nat :=
  sextetBytes ((text.takeWhile fun character => decide (character ≠ '=')).filterMap charSextet)

theorem sextets_lt {bytes : List Nat} (small : ∀ byte ∈ bytes, byte < 256) : ∀ sextet ∈ sextets bytes, sextet < 64 := by
  fun_induction sextets bytes with
  | case1 => simp
  | case2 a =>
    have first := small a (by simp)
    simp only [List.mem_cons, List.not_mem_nil, or_false]
    omega
  | case3 a b =>
    have first := small a (by simp)
    have second := small b (by simp)
    simp only [List.mem_cons, List.not_mem_nil, or_false]
    omega
  | case4 a b c rest ih =>
    have first := small a (by simp)
    have second := small b (by simp)
    have third := small c (by simp)
    intro sextet member
    simp only [List.mem_cons] at member
    rcases member with rfl | rfl | rfl | rfl | later
    · omega
    · omega
    · omega
    · omega
    · exact ih (fun byte inside => small byte (by simp [inside])) sextet later

theorem sextetBytes_sextets {bytes : List Nat} (small : ∀ byte ∈ bytes, byte < 256) : sextetBytes (sextets bytes) = bytes := by
  fun_induction sextets bytes with
  | case1 => rfl
  | case2 a =>
    have first := small a (by simp)
    simp only [sextetBytes, List.cons.injEq, and_true]
    omega
  | case3 a b =>
    have first := small a (by simp)
    have second := small b (by simp)
    simp only [sextetBytes, List.cons.injEq, and_true]
    omega
  | case4 a b c rest ih =>
    have first := small a (by simp)
    have second := small b (by simp)
    have third := small c (by simp)
    have later := ih fun byte inside => small byte (by simp [inside])
    simp only [sextetBytes, List.cons.injEq, later, and_true]
    omega

theorem length_sextets (bytes : List Nat) : (sextets bytes).length = (4 * bytes.length + 2) / 3 := by
  fun_induction sextets bytes with
  | case1 => rfl
  | case2 a => simp
  | case3 a b => simp
  | case4 a b c rest ih =>
    simp only [List.length_cons, ih]
    omega

set_option maxRecDepth 2000 in
theorem sextetChar_inv {sextet : Nat} (small : sextet < 64) :
    charSextet (sextetChar sextet) = some sextet ∧ sextetChar sextet ≠ '=' ∧ sextetChar sextet ∈ base64urlAlphabet := by
  have each : ∀ index : Fin 64, charSextet (sextetChar index) = some index.val ∧ sextetChar index ≠ '=' ∧
      sextetChar index ∈ base64urlAlphabet := by decide
  exact each ⟨sextet, small⟩

theorem base64url_alphabet {bytes : List Nat} (small : ∀ byte ∈ bytes, byte < 256) :
    ∀ character ∈ base64url bytes, character ∈ base64urlAlphabet := by
  intro character member
  obtain ⟨sextet, inside, rfl⟩ := List.mem_map.mp member
  exact (sextetChar_inv (sextets_lt small sextet inside)).2.2

theorem length_base64url (bytes : List Nat) : (base64url bytes).length = (4 * bytes.length + 2) / 3 := by
  rw [base64url, List.length_map, length_sextets]

/-- Padding is not read. -/
theorem base64Bytes_padded {text : List Char} (unpadded : ∀ character ∈ text, character ≠ '=') :
    base64Bytes (text ++ ['=']) = base64Bytes text := by
  have all : ∀ character ∈ text, decide (character ≠ '=') = true := fun character member => decide_eq_true (unpadded character member)
  have own : text.takeWhile (fun character => decide (character ≠ '=')) = text := by
    have taken := @List.takeWhile_append_of_pos _ _ _ [] all
    rwa [List.append_nil, List.takeWhile_nil, List.append_nil] at taken
  rw [base64Bytes, base64Bytes, List.takeWhile_append_of_pos all, own, List.takeWhile_cons_of_neg (by decide), List.append_nil]

theorem base64Bytes_base64url {bytes : List Nat} (small : ∀ byte ∈ bytes, byte < 256) : base64Bytes (base64url bytes) = bytes := by
  have read : ∀ values : List Nat, (∀ value ∈ values, value < 64) →
      ((values.map sextetChar).takeWhile fun character => decide (character ≠ '=')).filterMap charSextet = values := by
    intro values
    induction values with
    | nil => simp
    | cons value rest ih =>
      intro bounded
      obtain ⟨known, padding, -⟩ := sextetChar_inv (bounded value (by simp))
      have later := ih fun other member => bounded other (by simp [member])
      rw [List.map_cons, List.takeWhile_cons_of_pos (by simpa using padding), List.filterMap_cons_some known, later]
  rw [base64Bytes, base64url, read _ (sextets_lt small), sextetBytes_sextets small]

end Quotum.General
