import Quotum.StableJson

/-! Stable JSON tells the value. The serialization is the text of an arrangement of the value, the text of a value is that of no other
one, and two values have one arrangement exactly when they differ in the order of object keys alone. -/

namespace Quotum.StableJson
open General.CodeUnits General.Numerals

mutual

def text : JsonValue → Units
  | .null => literal "null"
  | .bool true => literal "true"
  | .bool false => literal "false"
  | .number number => number.text
  | .string text => quoted text
  | .array items => 0x5B :: joined (itemTexts items) ++ [0x5D]
  | .object fields => 0x7B :: joined (fieldTexts fields) ++ [0x7D]

def itemTexts : List JsonValue → List Units
  | [] => []
  | item :: items => text item :: itemTexts items

def fieldTexts : List (Units × JsonValue) → List Units
  | [] => []
  | (key, child) :: fields => entryText (key, text child) :: fieldTexts fields

end

section Arrange
variable (before : Units → Units → Prop) [DecidableRel before]

mutual

/-- A value with the keys of every object in order. -/
def arranged : JsonValue → JsonValue
  | .array items => .array (arrangedItems items)
  | .object fields => .object ((arrangedFields fields).insertionSort fun left right => before left.1 right.1)
  | .null => .null
  | .bool value => .bool value
  | .number number => .number number
  | .string text => .string text

def arrangedItems : List JsonValue → List JsonValue
  | [] => []
  | item :: items => arranged item :: arrangedItems items

def arrangedFields : List (Units × JsonValue) → List (Units × JsonValue)
  | [] => []
  | (key, child) :: fields => (key, arranged child) :: arrangedFields fields

end

end Arrange

section Unique

/-- What follows the first of the joined texts. -/
def tails : List Units → Units
  | [] => []
  | text :: texts => 0x2C :: text ++ tails texts

private theorem joined_cons (first : Units) (texts : List Units) : joined (first :: texts) = first ++ tails texts := by
  induction texts generalizing first with
  | nil => exact (List.append_nil first).symm
  | cons next rest ih => rw [joined, ih, tails, List.cons_append]

/-- What may follow a value: nothing that a number could go on with. -/
def Ends (rest : Units) : Prop :=
  ∀ unit ∈ rest.head?, isNumeral unit = false

private theorem ends_tails (texts : List Units) {close : UInt16} (plain : isNumeral close = false) (rest : Units) :
    Ends (tails texts ++ close :: rest) := by
  intro unit first
  cases texts with
  | nil =>
    obtain rfl := Option.some.inj first
    exact plain
  | cons text texts =>
    obtain rfl := Option.some.inj first
    rfl

def opens (unit : UInt16) : Nat :=
  if unit = 0x6E then 0 else if unit = 0x74 ∨ unit = 0x66 then 1 else if isNumeral unit = true then 2 else if unit = 0x22 then 3
  else if unit = 0x5B then 4 else if unit = 0x7B then 5 else 6

def kind : JsonValue → Nat
  | .null => 0
  | .bool _ => 1
  | .number _ => 2
  | .string _ => 3
  | .array _ => 4
  | .object _ => 5

private theorem number_opens (number : Number) : ∃ first rest, number.text = first :: rest ∧ opens first = 2 := by
  have numeral : ∀ unit, isNumeral unit = true → opens unit = 2 := by
    intro unit inside
    have null : unit ≠ 0x6E := by
      rintro rfl
      cases inside
    have bools : ¬ (unit = 0x74 ∨ unit = 0x66) := by
      rintro (rfl | rfl)
      · cases inside
      · cases inside
    rw [opens, if_neg null, if_neg bools, if_pos inside]
  obtain ⟨first, rest, same⟩ := number.text_nonempty
  refine ⟨first, rest, same, numeral first (number.text_numeral first ?_)⟩
  rw [same]
  exact List.mem_cons_self

private theorem text_opens (value : JsonValue) : ∃ first rest, text value = first :: rest ∧ opens first = kind value := by
  cases value with
  | null => exact ⟨0x6E, _, by rw [text]; rfl, rfl⟩
  | bool value =>
    cases value with
    | true => exact ⟨0x74, _, by rw [text]; rfl, rfl⟩
    | false => exact ⟨0x66, _, by rw [text]; rfl, rfl⟩
  | number number =>
    obtain ⟨first, rest, same, opened⟩ := number_opens number
    exact ⟨first, rest, by rw [text, same], opened⟩
  | string string => exact ⟨0x22, _, by rw [text]; rfl, rfl⟩
  | array items => exact ⟨0x5B, _, by rw [text]; rfl, rfl⟩
  | object fields => exact ⟨0x7B, _, by rw [text]; rfl, rfl⟩

private theorem text_apart (value : JsonValue) {close : UInt16} (closes : opens close = 6) (rest rest' : Units) :
    text value ++ rest ≠ close :: rest' := by
  intro same
  obtain ⟨first, tail, starts, opened⟩ := text_opens value
  rw [starts] at same
  rw [(List.cons.inj same).1, closes] at opened
  cases value <;> cases opened

mutual

/-- A value's text at the front of another is that of no other value. -/
private theorem text_unique : ∀ (value other : JsonValue) {rest rest' : Units}, Ends rest → Ends rest' →
    text value ++ rest = text other ++ rest' → value = other ∧ rest = rest'
  | value, other, rest, rest', ends, ends', same => by
    have kinds : kind value = kind other := by
      obtain ⟨first, tail, starts, opened⟩ := text_opens value
      obtain ⟨first', tail', starts', opened'⟩ := text_opens other
      rw [starts, starts'] at same
      rw [← opened, ← opened', (List.cons.inj same).1]
    cases value with
    | null =>
      cases other with
      | null => exact ⟨rfl, List.append_cancel_left same⟩
      | _ => cases kinds
    | bool value =>
      cases other with
      | bool other =>
        have alike : value = other := by
          cases value with
          | true =>
            cases other with
            | true => rfl
            | false => cases (List.cons.inj same).1
          | false =>
            cases other with
            | true => cases (List.cons.inj same).1
            | false => rfl
        subst alike
        exact ⟨rfl, List.append_cancel_left same⟩
      | _ => cases kinds
    | number number =>
      cases other with
      | number number' =>
        rw [text, text] at same
        obtain ⟨rfl, rests⟩ := number_unique ends ends' same
        exact ⟨rfl, rests⟩
      | _ => cases kinds
    | string string =>
      cases other with
      | string string' =>
        rw [text, text] at same
        obtain ⟨rfl, rests⟩ := quoted_unique same
        exact ⟨rfl, rests⟩
      | _ => cases kinds
    | array items =>
      cases other with
      | array others =>
        rw [text, text] at same
        cases items with
        | nil =>
          cases others with
          | nil => exact ⟨rfl, (List.cons.inj (List.cons.inj same).2).2⟩
          | cons other others =>
            rw [itemTexts, itemTexts, joined, joined_cons] at same
            simp only [List.cons_append, List.append_assoc, List.nil_append, List.cons.injEq, true_and] at same
            exact absurd same.symm (text_apart other rfl _ _)
        | cons item items =>
          cases others with
          | nil =>
            rw [itemTexts, itemTexts, joined, joined_cons] at same
            simp only [List.cons_append, List.append_assoc, List.nil_append, List.cons.injEq, true_and] at same
            exact absurd same (text_apart item rfl _ _)
          | cons other others =>
            rw [itemTexts, itemTexts, joined_cons, joined_cons] at same
            simp only [List.cons_append, List.append_assoc, List.nil_append, List.cons.injEq, true_and] at same
            obtain ⟨rfl, later⟩ := text_unique item other (ends_tails _ rfl rest) (ends_tails _ rfl rest') same
            obtain ⟨rfl, rests⟩ := items_unique items others later
            exact ⟨rfl, rests⟩
      | _ => cases kinds
    | object fields =>
      cases other with
      | object others =>
        rw [text, text] at same
        cases fields with
        | nil =>
          cases others with
          | nil => exact ⟨rfl, (List.cons.inj (List.cons.inj same).2).2⟩
          | cons other others =>
            rw [fieldTexts, fieldTexts, joined, joined_cons, entryText, quoted] at same
            cases (List.cons.inj (List.cons.inj same).2).1
        | cons field fields =>
          cases others with
          | nil =>
            rw [fieldTexts, fieldTexts, joined, joined_cons, entryText, quoted] at same
            cases (List.cons.inj (List.cons.inj same).2).1
          | cons other others =>
            obtain ⟨key, child⟩ := field
            obtain ⟨key', child'⟩ := other
            rw [fieldTexts, fieldTexts, joined_cons, joined_cons, entryText, entryText] at same
            simp only [List.cons_append, List.append_assoc, List.nil_append, List.cons.injEq, true_and] at same
            obtain ⟨rfl, valued⟩ := quoted_unique same
            obtain ⟨rfl, later⟩ := text_unique child child' (ends_tails _ rfl rest) (ends_tails _ rfl rest') (List.cons.inj valued).2
            obtain ⟨rfl, rests⟩ := fields_unique fields others later
            exact ⟨rfl, rests⟩
      | _ => cases kinds

private theorem items_unique : ∀ (items others : List JsonValue) {rest rest' : Units},
    tails (itemTexts items) ++ 0x5D :: rest = tails (itemTexts others) ++ 0x5D :: rest' → items = others ∧ rest = rest'
  | [], [], _, _, same => ⟨rfl, (List.cons.inj same).2⟩
  | [], _ :: _, _, _, same => by cases (List.cons.inj same).1
  | _ :: _, [], _, _, same => by cases (List.cons.inj same).1
  | item :: items, other :: others, rest, rest', same => by
    rw [itemTexts, itemTexts, tails, tails] at same
    simp only [List.cons_append, List.append_assoc, List.cons.injEq, true_and] at same
    obtain ⟨rfl, later⟩ := text_unique item other (ends_tails _ rfl rest) (ends_tails _ rfl rest') same
    obtain ⟨rfl, rests⟩ := items_unique items others later
    exact ⟨rfl, rests⟩

private theorem fields_unique : ∀ (fields others : List (Units × JsonValue)) {rest rest' : Units},
    tails (fieldTexts fields) ++ 0x7D :: rest = tails (fieldTexts others) ++ 0x7D :: rest' → fields = others ∧ rest = rest'
  | [], [], _, _, same => ⟨rfl, (List.cons.inj same).2⟩
  | [], _ :: _, _, _, same => by cases (List.cons.inj same).1
  | _ :: _, [], _, _, same => by cases (List.cons.inj same).1
  | (key, child) :: fields, (key', child') :: others, rest, rest', same => by
    rw [fieldTexts, fieldTexts, tails, tails, entryText, entryText] at same
    simp only [List.cons_append, List.append_assoc, List.cons.injEq, true_and] at same
    obtain ⟨rfl, valued⟩ := quoted_unique same
    obtain ⟨rfl, later⟩ := text_unique child child' (ends_tails _ rfl rest) (ends_tails _ rfl rest') (List.cons.inj valued).2
    obtain ⟨rfl, rests⟩ := fields_unique fields others later
    exact ⟨rfl, rests⟩

end

end Unique

section Arranged
variable {before : Units → Units → Prop} [DecidableRel before]

private theorem arrangedFields_map (fields : List (Units × JsonValue)) :
    arrangedFields before fields = fields.map fun field => (field.1, arranged before field.2) := by
  induction fields with
  | nil => rfl
  | cons field fields ih => rw [arrangedFields, List.map_cons, ih]

private theorem fieldTexts_map (fields : List (Units × JsonValue)) :
    fieldTexts fields = fields.map fun field => entryText (field.1, text field.2) := by
  induction fields with
  | nil => rfl
  | cons field fields ih => rw [fieldTexts, List.map_cons, ih]

private theorem arrangedFields_keys (fields : List (Units × JsonValue)) : (arrangedFields before fields).map Prod.fst = fields.map Prod.fst := by
  rw [arrangedFields_map, List.map_map]
  rfl

end Arranged

section Serialize
variable (localeCompare : Units → Units → Ordering) (breakTies : Bool)

mutual

private theorem serialize_text : ∀ value : JsonValue,
    serializeStable localeCompare breakTies value = text (arranged (staysBefore localeCompare breakTies) value)
  | .null => by rw [serializeStable, arranged, text]
  | .bool true => by rw [serializeStable, arranged, text]
  | .bool false => by rw [serializeStable, arranged, text]
  | .number number => by rw [serializeStable, arranged, text]
  | .string string => by rw [serializeStable, arranged, text]
  | .array items => by rw [serializeStable, arranged, text, serialize_items items]
  | .object fields => by
    have sorted : ((arrangedFields (staysBefore localeCompare breakTies) fields).insertionSort fun left right =>
        staysBefore localeCompare breakTies left.1 right.1).map (fun field => (field.1, text field.2)) =
        (serializeFields localeCompare breakTies fields).insertionSort fun left right =>
          staysBefore localeCompare breakTies left.1 right.1 := by
      rw [serialize_fields fields]
      exact List.map_insertionSort _ _ _ _ fun _ _ _ _ => Iff.rfl
    rw [serializeStable, arranged, text, fieldTexts_map, ← sorted, List.map_map]
    rfl

private theorem serialize_items : ∀ items : List JsonValue,
    serializeItems localeCompare breakTies items = itemTexts (arrangedItems (staysBefore localeCompare breakTies) items)
  | [] => by rw [serializeItems, arrangedItems, itemTexts]
  | item :: items => by rw [serializeItems, arrangedItems, itemTexts, serialize_text item, serialize_items items]

private theorem serialize_fields : ∀ fields : List (Units × JsonValue), serializeFields localeCompare breakTies fields =
    (arrangedFields (staysBefore localeCompare breakTies) fields).map fun field => (field.1, text field.2)
  | [] => by rw [serializeFields, arrangedFields, List.map_nil]
  | (key, child) :: fields => by
    rw [serializeFields, arrangedFields, List.map_cons, serialize_text child, serialize_fields fields]

end

end Serialize

section Order
variable {localeCompare : Units → Units → Ordering} [Std.TransCmp localeCompare] {left middle right : Units}

/-- The broken order: below in the locale, or tied with it and not above in code units. -/
private theorem staysBefore_iff : staysBefore localeCompare true left right ↔
    localeCompare left right = .lt ∨ localeCompare left right = .eq ∧ left ≤ right := by
  rw [staysBefore, compareKeys]
  cases order : localeCompare right left with
  | lt =>
    rw [Std.OrientedCmp.gt_of_lt order]
    simp
  | eq =>
    rw [Std.OrientedCmp.eq_symm order, if_pos rfl]
    by_cases below : right < left
    · rw [if_pos below]
      simp [below]
    · rw [if_neg below]
      simp [List.not_lt.mp below]
  | gt =>
    rw [Std.OrientedCmp.lt_of_gt order]
    simp

private theorem staysBefore_total (left right : Units) : staysBefore localeCompare true left right ∨ staysBefore localeCompare true right left := by
  rw [staysBefore_iff, staysBefore_iff]
  cases order : localeCompare left right with
  | lt => exact .inl (.inl rfl)
  | eq =>
    rcases List.le_total left right with below | above
    · exact .inl (.inr ⟨rfl, below⟩)
    · exact .inr (.inr ⟨Std.OrientedCmp.eq_symm order, above⟩)
  | gt => exact .inr (.inl (Std.OrientedCmp.lt_of_gt order))

private theorem staysBefore_trans (first : staysBefore localeCompare true left middle) (second : staysBefore localeCompare true middle right) :
    staysBefore localeCompare true left right := by
  rw [staysBefore_iff] at first second ⊢
  rcases first with below | ⟨tied, units⟩
  · rcases second with belowToo | ⟨tiedToo, -⟩
    · exact .inl (Std.TransCmp.lt_trans below belowToo)
    · exact .inl (Std.TransCmp.lt_of_lt_of_eq below tiedToo)
  · rcases second with below | ⟨tiedToo, unitsToo⟩
    · exact .inl (Std.TransCmp.lt_of_eq_of_lt tied below)
    · exact .inr ⟨Std.TransCmp.eq_trans tied tiedToo, List.le_trans units unitsToo⟩

private theorem staysBefore_antisymm (first : staysBefore localeCompare true left right) (second : staysBefore localeCompare true right left) :
    left = right := by
  rw [staysBefore_iff] at first second
  rcases first with below | ⟨tied, units⟩
  · rcases second with above | ⟨tied, -⟩
    · cases (Std.OrientedCmp.gt_of_lt below).symm.trans above
    · cases (Std.OrientedCmp.gt_of_lt below).symm.trans tied
  · rcases second with above | ⟨-, unitsToo⟩
    · cases (Std.OrientedCmp.eq_symm tied).symm.trans above
    · exact List.le_antisymm units unitsToo

end Order

section Same
variable (localeCompare : Units → Units → Ordering)

/-- Fields of distinct keys are sorted to one list, in whatever order they come. -/
private theorem sorted_perm [Std.TransCmp localeCompare] {fields others : List (Units × JsonValue)}
    (distinct : (fields.map Prod.fst).Nodup) (same : fields.Perm others) :
    (fields.insertionSort fun left right => staysBefore localeCompare true left.1 right.1) =
      others.insertionSort fun left right => staysBefore localeCompare true left.1 right.1 := by
  have total : Std.Total fun left right : Units × JsonValue => staysBefore localeCompare true left.1 right.1 :=
    ⟨fun left right => staysBefore_total left.1 right.1⟩
  have trans : IsTrans (Units × JsonValue) fun left right => staysBefore localeCompare true left.1 right.1 :=
    ⟨fun _ _ _ first second => staysBefore_trans first second⟩
  refine List.Perm.eq_of_pairwise ?_ (List.pairwise_insertionSort _ fields) (List.pairwise_insertionSort _ others)
    ((List.perm_insertionSort _ fields).trans (same.trans (List.perm_insertionSort _ others).symm))
  intro left right member memberToo first second
  have inside := (List.mem_insertionSort _).mp member
  have insideToo := same.mem_iff.mpr ((List.mem_insertionSort _).mp memberToo)
  exact List.inj_on_of_nodup_map distinct inside insideToo (staysBefore_antisymm first second)

mutual

private theorem same_arranged [Std.TransCmp localeCompare] : ∀ value other : JsonValue, value.Distinct → value.Same other →
    arranged (staysBefore localeCompare true) value = arranged (staysBefore localeCompare true) other
  | .null, other, _, same => by
    cases other with
    | null => rfl
    | _ => exact same.elim
  | .bool value, other, _, same => by
    cases other with
    | bool other => rw [show value = other from same]
    | _ => exact same.elim
  | .number number, other, _, same => by
    cases other with
    | number number' => rw [show number = number' from same]
    | _ => exact same.elim
  | .string string, other, _, same => by
    cases other with
    | string string' => rw [show string = string' from same]
    | _ => exact same.elim
  | .array items, other, distinct, same => by
    cases other with
    | array others => rw [arranged, arranged, same_items items others distinct same]
    | _ => exact same.elim
  | .object fields, other, distinct, same => by
    cases other with
    | object others =>
      obtain ⟨order, perm, same⟩ := same
      have alike := same_fields fields order distinct.2 same
      have keys : ((arrangedFields (staysBefore localeCompare true) fields).map Prod.fst).Nodup := by
        rw [arrangedFields_keys]
        exact distinct.1
      rw [arranged, arranged]
      congr 1
      apply sorted_perm localeCompare keys
      rw [alike, arrangedFields_map, arrangedFields_map]
      exact (perm.map _).symm
    | _ => exact same.elim

private theorem same_items [Std.TransCmp localeCompare] : ∀ items others : List JsonValue, DistinctItems items → SameItems items others →
    arrangedItems (staysBefore localeCompare true) items = arrangedItems (staysBefore localeCompare true) others
  | [], [], _, _ => rfl
  | [], _ :: _, _, same => same.elim
  | _ :: _, [], _, same => same.elim
  | item :: items, other :: others, distinct, same => by
    rw [arrangedItems, arrangedItems, same_arranged item other distinct.1 same.1, same_items items others distinct.2 same.2]

private theorem same_fields [Std.TransCmp localeCompare] :
    ∀ fields others : List (Units × JsonValue), DistinctFields fields → SameFields fields others →
    arrangedFields (staysBefore localeCompare true) fields = arrangedFields (staysBefore localeCompare true) others
  | [], [], _, _ => rfl
  | [], _ :: _, _, same => same.elim
  | _ :: _, [], _, same => same.elim
  | (key, child) :: fields, (other, value) :: others, distinct, same => by
    obtain ⟨rfl, alike, rest⟩ := same
    rw [arrangedFields, arrangedFields, same_arranged child value distinct.1 alike, same_fields fields others distinct.2 rest]

end

variable {before : Units → Units → Prop} [DecidableRel before]

private theorem arranged_order {fields others : List (Units × JsonValue)}
    (same : (arrangedFields before fields).Perm (arrangedFields before others)) :
    ∃ order, others.Perm order ∧ arrangedFields before fields = arrangedFields before order := by
  have paired : List.Forall₂ (fun result field => result = (field.1, arranged before field.2)) (arrangedFields before others) others := by
    rw [arrangedFields_map, List.forall₂_map_left_iff]
    exact List.forall₂_same.mpr fun _ _ => rfl
  obtain ⟨order, mapped, perm⟩ := List.perm_comp_forall₂ same paired
  refine ⟨order, perm.symm, ?_⟩
  rw [arrangedFields_map order]
  exact List.forall₂_eq_eq_eq ▸ List.forall₂_map_right_iff.mpr mapped

mutual

private theorem arranged_same : ∀ value other : JsonValue, arranged before value = arranged before other → value.Same other
  | .null, other, same => by
    cases other with
    | null => trivial
    | _ => cases same
  | .bool value, other, same => by
    cases other with
    | bool other => exact JsonValue.bool.inj same
    | _ => cases same
  | .number number, other, same => by
    cases other with
    | number number' => exact JsonValue.number.inj same
    | _ => cases same
  | .string string, other, same => by
    cases other with
    | string string' => exact JsonValue.string.inj same
    | _ => cases same
  | .array items, other, same => by
    cases other with
    | array others => exact arranged_items items others (JsonValue.array.inj same)
    | _ => cases same
  | .object fields, other, same => by
    cases other with
    | object others =>
      have sorted := JsonValue.object.inj same
      have perm := (List.perm_insertionSort _ (arrangedFields before fields)).symm.trans
        (sorted ▸ List.perm_insertionSort _ (arrangedFields before others))
      obtain ⟨order, arranges, alike⟩ := arranged_order perm
      exact ⟨order, arranges, arranged_fields fields order alike⟩
    | _ => cases same

private theorem arranged_items : ∀ items others : List JsonValue,
    arrangedItems before items = arrangedItems before others → SameItems items others
  | [], [], _ => trivial
  | [], _ :: _, same => by cases same
  | _ :: _, [], same => by cases same
  | item :: items, other :: others, same => by
    obtain ⟨first, rest⟩ := List.cons.inj same
    exact ⟨arranged_same item other first, arranged_items items others rest⟩

private theorem arranged_fields : ∀ fields others : List (Units × JsonValue),
    arrangedFields before fields = arrangedFields before others → SameFields fields others
  | [], [], _ => trivial
  | [], _ :: _, same => by cases same
  | _ :: _, [], same => by cases same
  | (key, child) :: fields, (other, value) :: others, same => by
    obtain ⟨first, rest⟩ := List.cons.inj same
    obtain ⟨keys, children⟩ := Prod.mk.inj first
    exact ⟨keys, arranged_same child value children, arranged_fields fields others rest⟩

end

end Same

section Legacy
variable {localeCompare : Units → Units → Ordering}

/-- Keys that do not tie are ordered alike, and so is a key with itself. -/
private theorem staysBefore_untied [Std.TransCmp localeCompare] {left right : Units} (apart : localeCompare left right ≠ .eq ∨ left = right) :
    staysBefore localeCompare false left right ↔ staysBefore localeCompare true left right := by
  rcases apart with apart | rfl
  · rw [staysBefore, staysBefore, compareKeys, compareKeys]
    cases order : localeCompare right left with
    | lt | gt => rfl
    | eq => exact absurd (Std.OrientedCmp.eq_symm order) apart
  · have tied : localeCompare left left = .eq := Std.ReflCmp.compare_self
    have stays : staysBefore localeCompare false left left := by
      rw [staysBefore, compareKeys, tied]
      rintro ⟨⟩
    exact iff_of_true stays ((staysBefore_total left left).elim id id)

private theorem untied_sorted [Std.TransCmp localeCompare] {fields : List (Units × JsonValue)}
    (untied : fields.Pairwise fun left right => localeCompare left.1 right.1 ≠ .eq) :
    (fields.insertionSort fun left right => staysBefore localeCompare false left.1 right.1) =
      fields.insertionSort fun left right => staysBefore localeCompare true left.1 right.1 := by
  have apart : ∀ left ∈ fields, ∀ right ∈ fields, localeCompare left.1 right.1 ≠ .eq ∨ left.1 = right.1 := by
    have symm : Std.Symm fun left right : Units × JsonValue => localeCompare left.1 right.1 ≠ .eq ∨ left.1 = right.1 :=
      ⟨fun _ _ either => either.imp (fun apart tied => apart (Std.OrientedCmp.eq_symm tied)) Eq.symm⟩
    have pairs := untied.imp fun {left right : Units × JsonValue} apart => Or.inl (b := left.1 = right.1) apart
    exact fun left member right memberToo => List.Pairwise.forall_of_forall (fun _ _ => .inr rfl) pairs member memberToo
  have sorted := List.map_insertionSort (fun left right : Units × JsonValue => staysBefore localeCompare false left.1 right.1)
    (fun left right => staysBefore localeCompare true left.1 right.1) id fields
    fun left member right memberToo => staysBefore_untied (apart left member right memberToo)
  rwa [List.map_id, List.map_id] at sorted

mutual

private theorem untied_arranged [Std.TransCmp localeCompare] : ∀ value : JsonValue, value.Untied localeCompare →
    arranged (staysBefore localeCompare false) value = arranged (staysBefore localeCompare true) value
  | .null, _ => rfl
  | .bool _, _ => rfl
  | .number _, _ => rfl
  | .string _, _ => rfl
  | .array items, untied => by rw [arranged, arranged, untied_items items untied]
  | .object fields, untied => by
    have pairs : (arrangedFields (staysBefore localeCompare true) fields).Pairwise fun left right =>
        localeCompare left.1 right.1 ≠ .eq := by
      rw [arrangedFields_map, List.pairwise_map]
      exact untied.1
    rw [arranged, arranged, untied_fields fields untied.2, untied_sorted pairs]

private theorem untied_items [Std.TransCmp localeCompare] : ∀ items : List JsonValue, UntiedItems localeCompare items →
    arrangedItems (staysBefore localeCompare false) items = arrangedItems (staysBefore localeCompare true) items
  | [], _ => rfl
  | item :: items, untied => by rw [arrangedItems, arrangedItems, untied_arranged item untied.1, untied_items items untied.2]

private theorem untied_fields [Std.TransCmp localeCompare] : ∀ fields : List (Units × JsonValue), UntiedFields localeCompare fields →
    arrangedFields (staysBefore localeCompare false) fields = arrangedFields (staysBefore localeCompare true) fields
  | [], _ => rfl
  | (key, child) :: fields, untied => by
    rw [arrangedFields, arrangedFields, untied_arranged child untied.1, untied_fields fields untied.2]

end

end Legacy

/-- Two values have one stable text exactly when they are equal up to the order of object keys, and the legacy text is the stable one
wherever no two keys of an object tie. -/
theorem stable_json_fingerprint (localeCompare : Units → Units → Ordering) [Std.TransCmp localeCompare] (first second : Document) :
    (stableJson localeCompare first.value = stableJson localeCompare second.value ↔ first.value.Same second.value) ∧
      (first.value.Untied localeCompare → legacyStableJson localeCompare first.value = stableJson localeCompare first.value) := by
  refine ⟨⟨fun same => ?_, fun same => ?_⟩, fun untied => ?_⟩
  · rw [stableJson, stableJson, serialize_text, serialize_text] at same
    have nothing : Ends [] := by rintro _ ⟨⟩
    exact arranged_same _ _ (text_unique _ _ nothing nothing (congrArg (· ++ []) same)).1
  · rw [stableJson, stableJson, serialize_text, serialize_text, same_arranged localeCompare _ _ first.distinct same]
  · rw [legacyStableJson, stableJson, serialize_text, serialize_text, untied_arranged _ untied]

/-- A locale that does not tell capital letters apart from small ones. -/
def ignoringCase : Units → Units → Ordering :=
  compareOn fun key => key.map fun unit => if 0x41 ≤ unit ∧ unit ≤ 0x5A then unit.toNat + 32 else unit.toNat

instance : Std.TransCmp ignoringCase := inferInstanceAs (Std.TransCmp (compareOn _))

def flags (first second : Units) : JsonValue :=
  .object [(first, .bool true), (second, .bool false)]

private theorem flags_distinct {first second : Units} (apart : first ≠ second) : (flags first second).Distinct :=
  ⟨List.nodup_cons.mpr ⟨fun same => apart (List.mem_singleton.mp same), List.nodup_singleton _⟩, trivial, trivial, trivial⟩

/-- Keys that tie are put in the order of their code units, and keys that do not tie are ordered alike in both forms. -/
theorem stable_json_fingerprint_tied :
    stableJson ignoringCase (flags [0x61] [0x41]) = stableJson ignoringCase (.object [([0x41], .bool false), ([0x61], .bool true)]) ∧
      legacyStableJson ignoringCase (flags [0x62] [0x61]) = stableJson ignoringCase (flags [0x62] [0x61]) := by
  have apart : ([0x61] : Units) ≠ [0x41] := by decide
  have apartToo : ([0x62] : Units) ≠ [0x61] := by decide
  have swapped : (JsonValue.object [([0x41], .bool false), ([0x61], .bool true)]).Distinct :=
    ⟨List.nodup_cons.mpr ⟨fun same => apart (List.mem_singleton.mp same).symm, List.nodup_singleton _⟩, trivial, trivial, trivial⟩
  refine ⟨?_, ?_⟩
  · apply (stable_json_fingerprint ignoringCase ⟨_, flags_distinct apart⟩ ⟨_, swapped⟩).1.mpr
    exact ⟨_, List.Perm.swap _ _ _, rfl, rfl, rfl, rfl, trivial⟩
  · apply (stable_json_fingerprint ignoringCase ⟨_, flags_distinct apartToo⟩ ⟨_, flags_distinct apartToo⟩).2
    refine ⟨List.pairwise_pair.mpr ?_, trivial, trivial, trivial⟩
    rintro ⟨⟩

end Quotum.StableJson
