import Quotum.Promotions

/-! The counters of a promotion code follow its redemptions over every run, no clamp ever changes one of them, and they stay
within the cap but for the uses recorded as violations of it. -/

namespace Quotum.Promotions
open General

variable {change : PromotionCode → PromotionCode} {operation : PromotionOperation}

variable {row current : PromotionRedemption} {around : Surroundings} {input : ReserveInput}
   {existing : Option PromotionRedemption} {redemptionId : Nat} {stored : PromotionState}

structure Counted (redemptions : List PromotionRedemption) (code : PromotionCode) : Prop where
  reserved : code.reservedCount = reservedUses code.id redemptions
  redeemed : code.redeemedCount = redeemedUses code.id redemptions
  capped : ∀ cap, code.maxRedemptions = some cap →
    code.redeemedCount + code.reservedCount ≤ cap + globalViolations code.id redemptions

structure Sound (state : PromotionState) : Prop where
  codesDistinct : (state.codes.map PromotionCode.id).Nodup
  distinct : (state.redemptions.map PromotionRedemption.id).Nodup
  counted : ∀ code ∈ state.codes, Counted state.redemptions code
  clean : ∀ redemption ∈ state.redemptions, redemption.status = .reserved ∨ redemption.status = .released →
    redemption.limitViolation = none
  named : ∀ redemption ∈ state.redemptions, ∀ promotionCodeId rest,
    redemption.requestHash = .request promotionCodeId rest → redemption.promotionCodeId = promotionCodeId

theorem freshId_apart (redemptions : List PromotionRedemption) : freshId redemptions ∉ redemptions.map PromotionRedemption.id := by
  have below (ids : List Nat) : ∀ id ∈ ids, id < ids.foldr max 0 + 1 := by
    induction ids with
    | nil => simp
    | cons first rest ih =>
      intro id member
      rw [List.foldr_cons]
      rcases List.mem_cons.mp member with rfl | later
      · omega
      · have := ih id later
        omega
  intro member
  exact absurd (below _ _ member) (by simp [freshId])

/-! One redemption changed or added -/

def Replaces (old : Option PromotionRedemption) (new : PromotionRedemption) (rows next : List PromotionRedemption) : Prop :=
  ∀ p : PromotionRedemption → Bool, next.countP p + old.toList.countP p = rows.countP p + [new].countP p

private theorem replaces_update {rows : List PromotionRedemption} (distinct : (rows.map PromotionRedemption.id).Nodup)
    {row : PromotionRedemption} (member : row ∈ rows) (change : PromotionRedemption → PromotionRedemption) :
    Replaces (some row) (change row) rows (updateAt PromotionRedemption.id row.id change rows) :=
  updateAt_countP distinct member change

private theorem replaces_append (rows : List PromotionRedemption) (row : PromotionRedemption) : Replaces none row rows (rows ++ [row]) := by
  intro p
  rw [List.countP_append, Option.toList_none, List.countP_nil, Nat.add_zero]

section Replaces
variable {old : Option PromotionRedemption} {new : PromotionRedemption} {rows next : List PromotionRedemption} {code : PromotionCode}

theorem Replaces.apart (replaces : Replaces old new rows next) (same : ∀ row ∈ old, row.promotionCodeId = new.promotionCodeId)
    {promotionCodeId : Nat} (apart : promotionCodeId ≠ new.promotionCodeId) (p : PromotionRedemption → Bool) :
    next.countP (fun row => row.promotionCodeId == promotionCodeId && p row) =
      rows.countP (fun row => row.promotionCodeId == promotionCodeId && p row) := by
  have elsewhere : (new.promotionCodeId == promotionCodeId) = false := by simpa using fun here => apart here.symm
  have moved := replaces fun row => row.promotionCodeId == promotionCodeId && p row
  cases old with
  | none => simpa [List.countP_cons, elsewhere] using moved
  | some row => simpa [List.countP_cons, elsewhere, same row rfl] using moved

theorem Counted.elsewhere (counted : Counted rows code) (replaces : Replaces old new rows next)
    (same : ∀ row ∈ old, row.promotionCodeId = new.promotionCodeId) (apart : code.id ≠ new.promotionCodeId) :
    Counted next code where
  reserved := by rw [counted.reserved, reservedUses, reservedUses, replaces.apart same apart]
  redeemed := by rw [counted.redeemed, redeemedUses, redeemedUses, replaces.apart same apart]
  capped := by
    rw [globalViolations, replaces.apart same apart]
    exact counted.capped

theorem Replaces.here (replaces : Replaces old new rows next) (same : ∀ row ∈ old, row.promotionCodeId = new.promotionCodeId)
    (p : PromotionRedemption → Bool) :
    next.countP (fun row => row.promotionCodeId == new.promotionCodeId && p row) + old.toList.countP p =
      rows.countP (fun row => row.promotionCodeId == new.promotionCodeId && p row) + [new].countP p := by
  have moved := replaces fun row => row.promotionCodeId == new.promotionCodeId && p row
  cases old with
  | none => simpa [List.countP_cons] using moved
  | some row => simpa [List.countP_cons, same row rfl] using moved

structure Moves (old : Option PromotionRedemption) (new : PromotionRedemption) (violations : Nat) (code changed : PromotionCode) :
    Prop where
  id : changed.id = code.id
  reserved : changed.reservedCount + old.toList.countP (fun row => row.status == .reserved) =
    code.reservedCount + [new].countP (fun row => row.status == .reserved)
  redeemed : changed.redeemedCount + old.toList.countP (fun row => row.status == .applied || row.status == .reversed) =
    code.redeemedCount + [new].countP (fun row => row.status == .applied || row.status == .reversed)
  capped : ∀ cap, changed.maxRedemptions = some cap →
    changed.redeemedCount + changed.reservedCount + old.toList.countP (fun row => row.limitViolation == some .global) ≤
      cap + violations + [new].countP (fun row => row.limitViolation == some .global)

theorem Counted.here (counted : Counted rows code) (replaces : Replaces old new rows next)
    (same : ∀ row ∈ old, row.promotionCodeId = new.promotionCodeId) (here : code.id = new.promotionCodeId) {changed : PromotionCode}
    (moves : Moves old new (globalViolations code.id rows) code changed) : Counted next changed where
  reserved := by
    have moved := replaces.here same fun row => row.status == .reserved
    have stored := counted.reserved
    have counter := moves.reserved
    simp only [reservedUses, moves.id, here] at stored ⊢
    omega
  redeemed := by
    have moved := replaces.here same fun row => row.status == .applied || row.status == .reversed
    have stored := counted.redeemed
    have counter := moves.redeemed
    simp only [redeemedUses, moves.id, here] at stored ⊢
    omega
  capped := by
    intro cap capped
    have moved := replaces.here same fun row => row.limitViolation == some .global
    have counter := moves.capped cap capped
    simp only [globalViolations, moves.id, here] at counter ⊢
    omega

end Replaces

section
variable {state : PromotionState} (sound : Sound state)
include sound

theorem Sound.replace {old : Option PromotionRedemption} {new : PromotionRedemption}
    {next : List PromotionRedemption} (replaces : Replaces old new state.redemptions next)
    (same : ∀ row ∈ old, row.promotionCodeId = new.promotionCodeId) (distinct : (next.map PromotionRedemption.id).Nodup)
    (members : ∀ row ∈ next, row = new ∨ row ∈ state.redemptions)
    (clean : new.status = .reserved ∨ new.status = .released → new.limitViolation = none)
    (named : ∀ promotionCodeId rest, new.requestHash = .request promotionCodeId rest → new.promotionCodeId = promotionCodeId)
    (kept : ∀ code, (change code).id = code.id)
    (moves : ∀ code ∈ state.codes, code.id = new.promotionCodeId →
      Moves old new (globalViolations code.id state.redemptions) code (change code)) :
    Sound ⟨updateAt PromotionCode.id new.promotionCodeId change state.codes, next⟩ where
  codesDistinct := by
    rw [updateAt_keys kept]
    exact sound.codesDistinct
  distinct := distinct
  counted := by
    intro code member
    obtain ⟨stored, inside, ⟨here, rfl⟩ | ⟨apart, rfl⟩⟩ := mem_updateAt.mp member
    · exact (sound.counted stored inside).here replaces same here (moves stored inside here)
    · exact (sound.counted code inside).elsewhere replaces same apart
  clean := by
    intro row member
    rcases members row member with rfl | inside
    · exact clean
    · exact sound.clean row inside
  named := by
    intro row member
    rcases members row member with rfl | inside
    · exact named
    · exact sound.named row inside

theorem Sound.update (inside : row ∈ state.redemptions)
    {edit : PromotionRedemption → PromotionRedemption} (sameId : ∀ row, (edit row).id = row.id)
    (sameCode : (edit row).promotionCodeId = row.promotionCodeId) (sameHash : (edit row).requestHash = row.requestHash)
    (clean : (edit row).status = .reserved ∨ (edit row).status = .released → (edit row).limitViolation = none)
    (kept : ∀ code, (change code).id = code.id)
    (moves : ∀ code ∈ state.codes, code.id = row.promotionCodeId →
      Moves (some row) (edit row) (globalViolations code.id state.redemptions) code (change code)) :
    Sound ⟨updateAt PromotionCode.id row.promotionCodeId change state.codes,
      updateAt PromotionRedemption.id row.id edit state.redemptions⟩ := by
  rw [← sameCode]
  have replaces := replaces_update sound.distinct inside edit
  apply sound.replace replaces ?_ ?_ ?_ clean ?_ kept ?_
  · intro stored here
    cases here
    exact sameCode.symm
  · rw [updateAt_keys sameId]
    exact sound.distinct
  · intro other member
    obtain ⟨stored, there, ⟨here, rfl⟩ | ⟨apart, rfl⟩⟩ := mem_updateAt.mp member
    · have found := findAt_member sound.distinct there
      rw [here, findAt_member sound.distinct inside] at found
      cases found
      exact .inl rfl
    · exact .inr there
  · intro promotionCodeId rest hash
    rw [sameCode]
    exact sound.named row inside promotionCodeId rest (sameHash ▸ hash)
  · intro code member here
    exact moves code member (here.trans sameCode)

theorem Sound.edit (inside : row ∈ state.redemptions)
    {edit : PromotionRedemption → PromotionRedemption} (sameId : ∀ row, (edit row).id = row.id)
    (sameCode : (edit row).promotionCodeId = row.promotionCodeId) (sameHash : (edit row).requestHash = row.requestHash)
    (sameViolation : (edit row).limitViolation = row.limitViolation)
    (sameStatus : (edit row).status = row.status ∨ row.status = .applied ∧ (edit row).status = .reversed) :
    Sound ⟨state.codes, updateAt PromotionRedemption.id row.id edit state.redemptions⟩ := by
  have clean : (edit row).status = .reserved ∨ (edit row).status = .released → (edit row).limitViolation = none := by
    rw [sameViolation]
    rcases sameStatus with kept | ⟨-, reversed⟩
    · rw [kept]
      exact sound.clean row inside
    · simp [reversed]
  have kept (code : PromotionCode) : (id code).id = code.id := rfl
  have same : updateAt PromotionCode.id row.promotionCodeId id state.codes = state.codes := updateAt_fixed fun _ _ _ => rfl
  have result := sound.update inside sameId sameCode sameHash clean kept ?_
  · rwa [same] at result
  · intro code member here
    have counted := sound.counted code member
    refine ⟨rfl, ?_, ?_, ?_⟩
    · rcases sameStatus with kept | ⟨applied, reversed⟩
      · simp [List.countP_cons, kept]
      · simp [applied, reversed]
    · rcases sameStatus with kept | ⟨applied, reversed⟩
      · simp [List.countP_cons, kept]
      · simp [applied, reversed]
    · intro cap capped
      have := counted.capped cap capped
      simp only [Option.toList_some, List.countP_cons, List.countP_nil, sameViolation, id]
      omega

theorem Sound.append (fresh : row.id = freshId state.redemptions)
    (clean : row.status = .reserved ∨ row.status = .released → row.limitViolation = none)
    (named : ∀ promotionCodeId rest, row.requestHash = .request promotionCodeId rest → row.promotionCodeId = promotionCodeId)
    (kept : ∀ code, (change code).id = code.id)
    (moves : ∀ code ∈ state.codes, code.id = row.promotionCodeId →
      Moves none row (globalViolations code.id state.redemptions) code (change code)) :
    Sound ⟨updateAt PromotionCode.id row.promotionCodeId change state.codes, state.redemptions ++ [row]⟩ := by
  apply sound.replace (replaces_append state.redemptions row) (by simp) ?_ ?_ clean named kept moves
  · rw [List.map_append, List.nodup_append]
    refine ⟨sound.distinct, List.nodup_singleton _, ?_⟩
    intro id stored other added same
    have equal : other = row.id := by simpa using added
    exact freshId_apart state.redemptions (fresh ▸ equal ▸ same ▸ stored)
  · intro other member
    rcases List.mem_append.mp member with inside | added
    · exact .inr inside
    · exact .inl (by simpa using added)

end

/-! Reservations released together -/

private theorem countP_edited {rows : List PromotionRedemption} {edit : PromotionRedemption → PromotionRedemption}
    {p : PromotionRedemption → Bool} (same : ∀ row ∈ rows, p (edit row) = p row) : (rows.map edit).countP p = rows.countP p := by
  rw [List.countP_map]
  apply List.countP_congr
  intro row member
  rw [Function.comp, same row member]

section Releases
variable {state : PromotionState} {picked : PromotionRedemption → Bool}

def PicksReserved (picked : PromotionRedemption → Bool) (state : PromotionState) : Prop :=
  ∀ row ∈ state.redemptions, picked row = true → row.status = .reserved

private theorem reservedUses_release {rows : List PromotionRedemption} (picks : ∀ row ∈ rows, picked row = true → row.status = .reserved)
    (promotionCodeId : Nat) :
    reservedUses promotionCodeId (rows.map fun row => if picked row then row.release else row) +
      rows.countP (fun row => picked row && row.promotionCodeId == promotionCodeId) = reservedUses promotionCodeId rows := by
  unfold reservedUses
  induction rows with
  | nil => rfl
  | cons row rest ih =>
    have later := ih fun other member => picks other (by simp [member])
    have here := picks row (by simp)
    simp only [List.map_cons, List.countP_cons]
    by_cases taken : picked row = true
    · by_cases code : row.promotionCodeId = promotionCodeId
      · simp [taken, code, here taken, -List.countP_map]
        omega
      · simp [taken, code, -List.countP_map]
        omega
    · simp [taken, -List.countP_map]
      omega

theorem PicksReserved.le (picks : PicksReserved picked state) (sound : Sound state) {code : PromotionCode} (member : code ∈ state.codes) :
    ((state.redemptions.countP fun row => picked row && row.promotionCodeId == code.id : Nat) : Int) ≤ code.reservedCount := by
  have released := reservedUses_release picks code.id
  have stored := (sound.counted code member).reserved
  omega

private theorem releaseReservations_clamp (sound : Sound state) (picks : PicksReserved picked state) :
    releaseReservations nonNegative picked state = releaseReservations id picked state := by
  unfold releaseReservations
  congr 1
  apply List.map_congr_left
  intro code member
  have enough := picks.le sound member
  by_cases none : state.redemptions.countP (fun row => picked row && row.promotionCodeId == code.id) = 0
  · simp only [none, if_true]
  · simp only [none, if_false, PromotionCode.giveBack, nonNegative, id]
    congr 1
    omega

/-- Rows released together keep everything but their status. -/
private theorem releaseReservations_sound (sound : Sound state) (picks : PicksReserved picked state) :
    Sound (releaseReservations id picked state) where
  codesDistinct := by
    have kept : (releaseReservations id picked state).codes.map PromotionCode.id = state.codes.map PromotionCode.id := by
      unfold releaseReservations
      rw [List.map_map]
      apply List.map_congr_left
      intro code _
      simp only [Function.comp]
      split <;> rfl
    rw [kept]
    exact sound.codesDistinct
  distinct := by
    have kept : (releaseReservations id picked state).redemptions.map PromotionRedemption.id =
        state.redemptions.map PromotionRedemption.id := by
      unfold releaseReservations
      rw [List.map_map]
      apply List.map_congr_left
      intro row _
      simp only [Function.comp]
      split <;> rfl
    rw [kept]
    exact sound.distinct
  counted := by
    intro changed member
    obtain ⟨code, inside, rfl⟩ := List.mem_map.mp member
    have counted := sound.counted code inside
    have released := reservedUses_release picks code.id
    have redeemed : redeemedUses code.id (releaseReservations id picked state).redemptions =
        redeemedUses code.id state.redemptions := by
      apply countP_edited
      intro row within
      split
      · next taken =>
        rw [PromotionRedemption.release_promotionCodeId, PromotionRedemption.release_status, picks row within taken]
        rfl
      · rfl
    have violations : globalViolations code.id (releaseReservations id picked state).redemptions =
        globalViolations code.id state.redemptions := by
      apply countP_edited
      intro row _
      split <;> rfl
    have stored := counted.reserved
    have given : (if state.redemptions.countP (fun row => picked row && row.promotionCodeId == code.id) = 0 then code else
        code.giveBack id (state.redemptions.countP fun row => picked row && row.promotionCodeId == code.id)) =
        code.giveBack id (state.redemptions.countP fun row => picked row && row.promotionCodeId == code.id) := by
      split
      · next none => simp [none, PromotionCode.giveBack]
      · rfl
    simp only
    rw [given]
    refine ⟨?_, ?_, ?_⟩
    · simp only [PromotionCode.giveBack, id, releaseReservations]
      omega
    · exact counted.redeemed.trans (by rw [← redeemed]; rfl)
    · intro cap capped
      have bound := counted.capped cap capped
      simp only [PromotionCode.giveBack, id]
      rw [violations]
      omega
  clean := by
    intro changed member unused
    obtain ⟨row, inside, rfl⟩ := List.mem_map.mp member
    by_cases taken : picked row = true
    · rw [if_pos taken]
      exact sound.clean row inside (.inl (picks row inside taken))
    · rw [if_neg taken] at unused ⊢
      exact sound.clean row inside unused
  named := by
    intro changed member promotionCodeId rest hash
    obtain ⟨row, inside, rfl⟩ := List.mem_map.mp member
    by_cases taken : picked row = true
    · rw [if_pos taken] at hash ⊢
      exact sound.named row inside promotionCodeId rest hash
    · rw [if_neg taken] at hash ⊢
      exact sound.named row inside promotionCodeId rest hash

end Releases

/-! Uses taken -/

def expiredOf (around : Surroundings) (input : ReserveInput) (redemption : PromotionRedemption) : Bool :=
  redemption.customerId == input.customerId && redemption.promotionCodeId == input.promotionCodeId && redemption.isExpired around

private theorem isExpired_reserved {redemption : PromotionRedemption} (expired : redemption.isExpired around = true) :
    redemption.status = .reserved := by
  unfold PromotionRedemption.isExpired at expired
  simp only [Bool.and_eq_true, beq_iff_eq] at expired
  exact expired.1.1

private theorem expiredOf_picks (around : Surroundings) (input : ReserveInput) (state : PromotionState) :
    PicksReserved (expiredOf around input) state := by
  intro row _ picked
  unfold expiredOf at picked
  simp only [Bool.and_eq_true] at picked
  exact isExpired_reserved picked.2

private theorem takeUse_ok {clamp : Int → Int}
    {next : PromotionState} (succeeded : takeUse clamp around input existing stored = .ok next) :
    ∃ code, findAt PromotionCode.id input.promotionCodeId (releaseReservations clamp (expiredOf around input) stored).codes = some code ∧
      code.available around.now = true ∧
      next = {
        codes := updateAt PromotionCode.id input.promotionCodeId (PromotionCode.take input.reservedUntil.isSome)
          (releaseReservations clamp (expiredOf around input) stored).codes
        redemptions := storeUse input existing (releaseReservations clamp (expiredOf around input) stored).redemptions } := by
  unfold takeUse at succeeded
  have same : (fun redemption : PromotionRedemption => redemption.customerId == input.customerId &&
      redemption.promotionCodeId == input.promotionCodeId && redemption.isExpired around) = expiredOf around input := rfl
  simp only [same] at succeeded
  split at succeeded
  · cases succeeded
  · next code found =>
    split at succeeded
    · cases succeeded
    · split at succeeded
      · cases succeeded
      · split at succeeded
        · cases succeeded
        · split at succeeded
          · cases succeeded
          · next taken =>
            cases succeeded
            exact ⟨code, found, by simpa using taken, rfl⟩

private theorem available_below {code : PromotionCode} {now : Int} (available : code.available now = true) {cap : Int}
    (capped : code.maxRedemptions = some cap) : code.redeemedCount + code.reservedCount < cap := by
  unfold PromotionCode.available at available
  rw [capped] at available
  simpa using (Bool.and_eq_true_iff.mp available).2

/-- A released row that the customer's request finds again, of the request's code. -/
def Reopens (input : ReserveInput) (state : PromotionState) (row : PromotionRedemption) : Prop :=
  row ∈ state.redemptions ∧ row.status = .released ∧ row.promotionCodeId = input.promotionCodeId

private theorem takeUse_sound {next : PromotionState} (sound : Sound stored) (reopens : ∀ row ∈ existing, Reopens input stored row)
    (succeeded : takeUse id around input existing stored = .ok next) : Sound next := by
  obtain ⟨code, found, available, rfl⟩ := takeUse_ok succeeded
  have swept := releaseReservations_sound sound (expiredOf_picks around input stored)
  have only : ∀ other ∈ (releaseReservations id (expiredOf around input) stored).codes, other.id = input.promotionCodeId →
      other = code := by
    intro other member here
    have again := findAt_member swept.codesDistinct member
    rw [here, found] at again
    cases again
    rfl
  cases existing with
  | none =>
    have fresh : (reservation input (releaseReservations id (expiredOf around input) stored).redemptions).id =
        freshId (releaseReservations id (expiredOf around input) stored).redemptions := rfl
    apply swept.append fresh
    · intro _
      rfl
    · intro promotionCodeId rest hash
      cases hash
      rfl
    · intro other
      rfl
    · intro other member here
      obtain rfl := only other member here
      refine ⟨rfl, ?_, ?_, ?_⟩
      · cases kind : input.reservedUntil.isSome <;> simp [reservation, PromotionCode.take, kind]
      · cases kind : input.reservedUntil.isSome <;> simp [reservation, PromotionCode.take, kind]
      · intro cap capped
        have below := available_below available capped
        cases input.reservedUntil.isSome <;> simp [reservation, PromotionCode.take] <;> omega
  | some row =>
    obtain ⟨member, released, sameCode⟩ := reopens row rfl
    have inside : row ∈ (releaseReservations id (expiredOf around input) stored).redemptions := by
      apply List.mem_map.mpr
      refine ⟨row, member, if_neg fun picked => ?_⟩
      have reserved := expiredOf_picks around input stored row member picked
      rw [released] at reserved
      cases reserved
    have unviolated := sound.clean row member (.inr released)
    have again : row.reserveAgain input.reservedUntil =
        { row with
          status := if input.reservedUntil.isSome then .reserved else .applied
          reservedUntil := input.reservedUntil } := if_pos released
    rw [← sameCode]
    apply swept.update inside
    · intro other
      unfold PromotionRedemption.reserveAgain
      split <;> rfl
    · rw [again]
    · rw [again]
    · intro _
      rw [again]
      exact unviolated
    · intro other
      rfl
    · intro other stays here
      obtain rfl := only other stays (here.trans sameCode)
      rw [again]
      refine ⟨rfl, ?_, ?_, ?_⟩
      · cases kind : input.reservedUntil.isSome <;> simp [PromotionCode.take, released]
      · cases kind : input.reservedUntil.isSome <;> simp [PromotionCode.take, released]
      · intro cap capped
        have below := available_below available capped
        cases input.reservedUntil.isSome <;> simp [PromotionCode.take, unviolated] <;> omega

private theorem takeUse_clamp (sound : Sound stored) :
    takeUse nonNegative around input existing stored = takeUse id around input existing stored := by
  have same := releaseReservations_clamp sound (expiredOf_picks around input stored)
  unfold takeUse
  unfold expiredOf at same
  simp only [same]

private theorem existing_reopens {state : PromotionState} (sound : Sound state) {existing : PromotionRedemption}
    (member : existing ∈ state.redemptions) (hash : existing.requestHash = input.requestHash) (released : existing.status = .released) :
    Reopens input state existing :=
  ⟨member, released, sound.named existing member _ _ hash⟩

/-! One operation -/

section Steps
variable {state next : PromotionState}

section
variable (sound : Sound state)
include sound

theorem reserve_sound (succeeded : reservePromotionRedemption id around input state = .ok next) : Sound next := by
  unfold reservePromotionRedemption at succeeded
  split at succeeded
  · exact takeUse_sound sound (by simp) succeeded
  · next existing found =>
    split at succeeded
    · cases succeeded
    · next hash =>
      split at succeeded
      · cases succeeded
        exact sound
      · next released =>
        apply takeUse_sound sound ?_ succeeded
        intro row here
        cases here
        exact existing_reopens sound (List.mem_of_find?_eq_some found) (not_not.mp hash) (not_not.mp released)

private theorem reserve_clamp :
    reservePromotionRedemption nonNegative around input state = reservePromotionRedemption id around input state := by
  unfold reservePromotionRedemption
  simp only [takeUse_clamp sound]

private theorem reserved_counted (inside : row ∈ state.redemptions)
    (reserved : row.status = .reserved) {code : PromotionCode} (member : code ∈ state.codes) (here : code.id = row.promotionCodeId) :
    1 ≤ code.reservedCount := by
  have counted : 0 < reservedUses code.id state.redemptions :=
    List.countP_pos_iff.mpr ⟨row, inside, by simp [here, reserved]⟩
  have stored := (sound.counted code member).reserved
  omega

private theorem confirmUse_sound {input : ApplyInput}
    (inside : current ∈ state.redemptions) (waiting : current.status = .reserved ∨ current.status = .released) :
    Sound (confirmUse id input current state) := by
  have unviolated := sound.clean current inside waiting
  apply sound.update inside
  · intro row
    rfl
  · rfl
  · rfl
  · rintro (reserved | released)
    · cases reserved
    · cases released
  · intro code
    rfl
  · intro code member here
    have bound := (sound.counted code member).capped
    have found : findAt PromotionCode.id current.promotionCodeId
        (updateAt PromotionCode.id current.promotionCodeId (PromotionCode.confirm id current.status) state.codes) =
          some (code.confirm id current.status) := by
      rw [← here]
      exact findAt_update sound.codesDistinct member fun _ => rfl
    refine ⟨rfl, ?_, ?_, ?_⟩
    · rcases waiting with reserved | released
      · simp [PromotionCode.confirm, PromotionRedemption.apply, reserved]
      · simp [PromotionCode.confirm, PromotionRedemption.apply, released]
    · rcases waiting with reserved | released
      · simp [PromotionCode.confirm, PromotionRedemption.apply, reserved]
      · simp [PromotionCode.confirm, PromotionRedemption.apply, released]
    · intro cap capped
      have before := bound cap capped
      rw [found]
      rcases waiting with reserved | released
      · simp [PromotionCode.confirm, PromotionRedemption.apply, reserved, unviolated]
        omega
      · have maximum : code.maxRedemptions = some cap := capped
        by_cases exceeds : cap < code.redeemedCount + 1 + code.reservedCount
        · simp [PromotionCode.confirm, PromotionCode.overCap, PromotionRedemption.apply, released, unviolated, maximum, exceeds]
          omega
        · simp [PromotionCode.confirm, PromotionCode.overCap, PromotionRedemption.apply, released, unviolated, maximum, exceeds]
          omega

private theorem confirmUse_clamp {input : ApplyInput}
    (inside : current ∈ state.redemptions) :
    confirmUse nonNegative input current state = confirmUse id input current state := by
  have same : updateAt PromotionCode.id current.promotionCodeId (PromotionCode.confirm nonNegative current.status) state.codes =
      updateAt PromotionCode.id current.promotionCodeId (PromotionCode.confirm id current.status) state.codes := by
    apply updateAt_congr
    intro code member here
    unfold PromotionCode.confirm
    split
    · next reserved =>
      have enough := reserved_counted sound inside reserved member here
      simp only [nonNegative, id]
      congr 1
      omega
    · rfl
  unfold confirmUse
  rw [same]

omit sound in
private theorem waiting_of_not_used (unused : ¬ (current.status = .applied ∨ current.status = .reversed)) :
    current.status = .reserved ∨ current.status = .released := by
  cases status : current.status <;> simp_all

private theorem apply_sound {input : ApplyInput} (succeeded : applyPromotionRedemption id input state = .ok next) :
    Sound next := by
  unfold applyPromotionRedemption at succeeded
  split at succeeded
  · cases succeeded
  · next current found =>
    split at succeeded
    · cases succeeded
      exact sound
    · next unused =>
      cases succeeded
      exact confirmUse_sound sound (findAt_inv found).1 (waiting_of_not_used unused)

private theorem apply_clamp {input : ApplyInput} :
    applyPromotionRedemption nonNegative input state = applyPromotionRedemption id input state := by
  unfold applyPromotionRedemption
  split
  · rfl
  · next current found => rw [confirmUse_clamp sound (findAt_inv found).1]

private theorem release_sound (succeeded : releasePromotionRedemption id redemptionId state = .ok next) : Sound next := by
  unfold releasePromotionRedemption at succeeded
  split at succeeded
  · cases succeeded
  · next current found =>
    have inside := (findAt_inv found).1
    split at succeeded
    · cases succeeded
      exact sound
    · next kept =>
      have reserved := not_not.mp kept
      have unviolated := sound.clean current inside (.inl reserved)
      cases succeeded
      apply sound.update inside
      · intro row
        rfl
      · rfl
      · rfl
      · intro _
        exact unviolated
      · intro code
        rfl
      · intro code member here
        have bound := (sound.counted code member).capped
        refine ⟨rfl, ?_, ?_, ?_⟩
        · simp [PromotionCode.giveBack, reserved]
        · simp [PromotionCode.giveBack, reserved]
        · intro cap capped
          have before := bound cap capped
          simp [PromotionCode.giveBack, unviolated, PromotionRedemption.release]
          omega

private theorem release_clamp :
    releasePromotionRedemption nonNegative redemptionId state = releasePromotionRedemption id redemptionId state := by
  unfold releasePromotionRedemption
  split
  · rfl
  · next current found =>
    split
    · rfl
    · next kept =>
      have same : updateAt PromotionCode.id current.promotionCodeId (PromotionCode.giveBack nonNegative 1) state.codes =
          updateAt PromotionCode.id current.promotionCodeId (PromotionCode.giveBack id 1) state.codes := by
        apply updateAt_congr
        intro code member here
        have enough := reserved_counted sound (findAt_inv found).1 (not_not.mp kept) member here
        simp only [PromotionCode.giveBack, nonNegative, id]
        congr 1
        omega
      rw [same]

private theorem swept_picks {locked : Nat → Bool} {limit : Nat} :
    PicksReserved (fun redemption => (sweptReservations around locked limit state.redemptions).any fun swept =>
      swept.id == redemption.id) state := by
  intro row member picked
  obtain ⟨swept, chosen, same⟩ := List.any_eq_true.mp picked
  have sorted := List.mem_of_mem_take chosen
  rw [List.mem_insertionSort] at sorted
  obtain ⟨inside, expired⟩ := List.mem_filter.mp sorted
  have found := findAt_member sound.distinct inside
  rw [beq_iff_eq.mp same, findAt_member sound.distinct member] at found
  cases found
  exact isExpired_reserved (Bool.and_eq_true_iff.mp expired).1

private theorem hosted_sound {input : CheckoutPromotion} (mapping : Option Nat) :
    Sound (recordHostedUse input state mapping) := by
  unfold recordHostedUse
  split
  · exact sound
  · next promotionCodeId =>
    split
    · exact sound
    · have fresh (violation : Option PromotionLimitViolation) :
          (hostedUse input promotionCodeId violation state.redemptions).id = freshId state.redemptions := rfl
      apply sound.append (fresh _)
      · rintro (reserved | released)
        · cases reserved
        · cases released
      · intro _ _ hash
        cases hash
      · intro code
        rfl
      · intro code member here
        have bound := (sound.counted code member).capped
        have found : findAt PromotionCode.id promotionCodeId
            (updateAt PromotionCode.id promotionCodeId PromotionCode.countRedeemed state.codes) = some code.countRedeemed := by
          have same : code.id = promotionCodeId := here
          rw [← same]
          exact findAt_update sound.codesDistinct member fun _ => rfl
        refine ⟨rfl, ?_, ?_, ?_⟩
        · simp [PromotionCode.countRedeemed, hostedUse]
        · simp [PromotionCode.countRedeemed, hostedUse]
        · intro cap capped
          have before := bound cap capped
          have maximum : code.maxRedemptions = some cap := capped
          rw [found]
          by_cases exceeds : cap < code.redeemedCount + 1 + code.reservedCount
          · simp [PromotionCode.countRedeemed, PromotionCode.overCap, hostedUse, maximum, exceeds]
            omega
          · simp [PromotionCode.countRedeemed, PromotionCode.overCap, hostedUse, maximum, exceeds]
            omega

private theorem hostedUses_sound {input : CheckoutPromotion} (mappings : List (Option Nat)) :
    Sound (mappings.foldl (recordHostedUse input) state) := by
  induction mappings generalizing state with
  | nil => exact sound
  | cons mapping rest ih => exact ih (hosted_sound sound mapping)

private theorem checkout_sound {input : CheckoutPromotion}
    (succeeded : recordCheckoutPromotion id input state = .ok next) : Sound next := by
  unfold recordCheckoutPromotion at succeeded
  split at succeeded
  · exact apply_sound sound succeeded
  · cases succeeded
    exact hostedUses_sound sound input.promotionCodeIds

private theorem checkout_clamp {input : CheckoutPromotion} :
    recordCheckoutPromotion nonNegative input state = recordCheckoutPromotion id input state := by
  unfold recordCheckoutPromotion
  simp only [apply_clamp sound]

private theorem reverse_sound (inside : row ∈ state.redemptions)
    (applied : row.status = .applied) :
    Sound ⟨state.codes, updateAt PromotionRedemption.id row.id PromotionRedemption.reverse state.redemptions⟩ :=
  sound.edit inside (fun _ => rfl) rfl rfl rfl (.inr ⟨applied, rfl⟩)

private theorem revoke_sound (succeeded : reversePromotionRedemption redemptionId state = .ok next) : Sound next := by
  unfold reversePromotionRedemption at succeeded
  split at succeeded
  · cases succeeded
  · next current found =>
    split at succeeded
    · cases succeeded
    · split at succeeded
      · cases succeeded
      · next revocable =>
        cases succeeded
        exact reverse_sound sound (findAt_inv found).1 (not_not.mp (not_or.mp revocable).1)

/-- A refund changes only rows in use, from applied to reversed. -/
private theorem refund_sound {purchaseId : Nat} : Sound (reversePromotionRedemptionsForPurchase purchaseId state) where
  codesDistinct := sound.codesDistinct
  distinct := by
    have kept : (reversePromotionRedemptionsForPurchase purchaseId state).redemptions.map PromotionRedemption.id =
        state.redemptions.map PromotionRedemption.id := by
      unfold reversePromotionRedemptionsForPurchase
      rw [List.map_map]
      apply List.map_congr_left
      intro row _
      simp only [Function.comp]
      split <;> rfl
    rw [kept]
    exact sound.distinct
  counted := by
    intro code member
    have counted := sound.counted code member
    refine ⟨counted.reserved.trans ?_, counted.redeemed.trans ?_, ?_⟩
    · rw [reservedUses, reservedUses, reversePromotionRedemptionsForPurchase, countP_edited]
      intro row _
      split
      · next refunded =>
        simp only [PromotionRedemption.reverse, refunded.2]
        rfl
      · rfl
    · rw [redeemedUses, redeemedUses, reversePromotionRedemptionsForPurchase, countP_edited]
      intro row _
      split
      · next refunded => simp [PromotionRedemption.reverse, refunded.2]
      · rfl
    · have violations : globalViolations code.id (reversePromotionRedemptionsForPurchase purchaseId state).redemptions =
          globalViolations code.id state.redemptions := by
        apply countP_edited
        intro row _
        split <;> rfl
      rw [violations]
      exact counted.capped
  clean := by
    intro changed member unused
    obtain ⟨row, inside, rfl⟩ := List.mem_map.mp member
    by_cases refunded : row.purchaseId = some purchaseId ∧ row.status = .applied
    · rw [if_pos refunded] at unused
      rcases unused with reserved | released
      · cases reserved
      · cases released
    · rw [if_neg refunded] at unused ⊢
      exact sound.clean row inside unused
  named := by
    intro changed member promotionCodeId rest hash
    obtain ⟨row, inside, rfl⟩ := List.mem_map.mp member
    by_cases refunded : row.purchaseId = some purchaseId ∧ row.status = .applied
    · rw [if_pos refunded] at hash ⊢
      exact sound.named row inside promotionCodeId rest hash
    · rw [if_neg refunded] at hash ⊢
      exact sound.named row inside promotionCodeId rest hash

private theorem attach_sound {checkoutSessionId : Nat} {reservedUntil : Int} :
    Sound (attachPromotionCheckoutSession redemptionId checkoutSessionId reservedUntil state) := by
  have keptId (row : PromotionRedemption) : (row.attach checkoutSessionId reservedUntil).id = row.id := by
    unfold PromotionRedemption.attach
    split <;> rfl
  by_cases present : redemptionId ∈ state.redemptions.map PromotionRedemption.id
  · obtain ⟨row, inside, rfl⟩ := List.mem_map.mp present
    apply sound.edit inside keptId
    · unfold PromotionRedemption.attach
      split <;> rfl
    · unfold PromotionRedemption.attach
      split <;> rfl
    · unfold PromotionRedemption.attach
      split <;> rfl
    · unfold PromotionRedemption.attach
      split <;> exact .inl rfl
  · unfold attachPromotionCheckoutSession
    rw [updateAt_absent present]
    exact sound

private theorem deactivate_sound {promotionCodeId : Nat} : Sound (deactivatePromotionCode promotionCodeId state) where
  codesDistinct := by
    have kept := @updateAt_keys _ _ _ PromotionCode.id promotionCodeId PromotionCode.deactivate (fun _ => rfl) state.codes
    unfold deactivatePromotionCode
    rw [kept]
    exact sound.codesDistinct
  distinct := sound.distinct
  counted := by
    intro changed member
    obtain ⟨code, inside, ⟨here, rfl⟩ | ⟨apart, rfl⟩⟩ := mem_updateAt.mp member
    · have counted := sound.counted code inside
      exact ⟨counted.reserved, counted.redeemed, counted.capped⟩
    · exact sound.counted changed inside
  clean := sound.clean
  named := sound.named

private theorem perform_clamp (operation : PromotionOperation) :
    perform nonNegative operation state = perform id operation state := by
  cases operation with
  | reserve around input => exact reserve_clamp sound
  | apply input => exact apply_clamp sound
  | release redemptionId => exact release_clamp sound
  | sweep around locked limit => exact congrArg Except.ok (releaseReservations_clamp sound (swept_picks sound))
  | checkout input => exact checkout_clamp sound
  | refund purchaseId => rfl
  | revoke redemptionId => rfl
  | attach redemptionId checkoutSessionId reservedUntil => rfl
  | deactivate promotionCodeId => rfl

theorem perform_sound (succeeded : perform id operation state = .ok next) :
    Sound next := by
  cases operation with
  | reserve around input => exact reserve_sound sound succeeded
  | apply input => exact apply_sound sound succeeded
  | release redemptionId => exact release_sound sound succeeded
  | sweep around locked limit =>
    cases succeeded
    exact releaseReservations_sound sound (swept_picks sound)
  | checkout input => exact checkout_sound sound succeeded
  | refund purchaseId =>
    cases succeeded
    exact refund_sound sound
  | revoke redemptionId => exact revoke_sound sound succeeded
  | attach redemptionId checkoutSessionId reservedUntil =>
    cases succeeded
    exact attach_sound sound
  | deactivate promotionCodeId =>
    cases succeeded
    exact deactivate_sound sound

private theorem after_sound (operation : PromotionOperation) : Sound (after nonNegative state operation) := by
  unfold after
  rw [perform_clamp sound]
  split
  · next succeeded => exact perform_sound sound succeeded
  · exact sound

end

end Steps

theorem PromotionState.Unused.sound {state : PromotionState} (unused : state.Unused) : Sound state where
  codesDistinct := unused.distinct
  distinct := by simp [unused.unredeemed]
  counted := by
    intro code member
    obtain ⟨redeemed, reserved⟩ := unused.uncounted code member
    refine ⟨?_, ?_, ?_⟩
    · simp [reserved, reservedUses, unused.unredeemed]
    · simp [redeemed, redeemedUses, unused.unredeemed]
    · intro cap capped
      have positive := unused.capped code member cap capped
      omega
  clean := by simp [unused.unredeemed]
  named := by simp [unused.unredeemed]

theorem run_sound {state : PromotionState} (sound : Sound state) (operations : List PromotionOperation) :
    Sound (run state operations) := by
  unfold run
  induction operations generalizing state with
  | nil => exact sound
  | cons operation rest ih => exact ih (after_sound sound operation)

/-! Violations -/

section Violations
variable {promotionCodeId : Nat} {state next : PromotionState} {rows : List PromotionRedemption}

/-- No violation of a code's cap is recorded between two states. -/
abbrev SameViolations (promotionCodeId : Nat) (state next : PromotionState) : Prop :=
  globalViolations promotionCodeId next.redemptions = globalViolations promotionCodeId state.redemptions

private theorem globalViolations_edited {edit : PromotionRedemption → PromotionRedemption}
    (same : ∀ row ∈ rows, (edit row).promotionCodeId = row.promotionCodeId ∧ (edit row).limitViolation = row.limitViolation) :
    globalViolations promotionCodeId (rows.map edit) = globalViolations promotionCodeId rows := by
  apply countP_edited
  intro row member
  rw [(same row member).1, (same row member).2]

private theorem globalViolations_updated {edit : PromotionRedemption → PromotionRedemption}
    (same : ∀ row ∈ rows, (edit row).promotionCodeId = row.promotionCodeId ∧ (edit row).limitViolation = row.limitViolation) :
    globalViolations promotionCodeId (updateAt PromotionRedemption.id redemptionId edit rows) =
      globalViolations promotionCodeId rows := by
  apply globalViolations_edited
  intro row member
  split
  · exact same row member
  · exact ⟨rfl, rfl⟩

private theorem globalViolations_released (picked : PromotionRedemption → Bool) :
    SameViolations promotionCodeId state (releaseReservations id picked state) := by
  apply globalViolations_edited
  intro row _
  split <;> exact ⟨rfl, rfl⟩

private theorem takeUse_violations (succeeded : takeUse id around input existing state = .ok next) :
    SameViolations promotionCodeId state next := by
  obtain ⟨code, -, -, rfl⟩ := takeUse_ok succeeded
  have released := @globalViolations_released promotionCodeId state (expiredOf around input)
  unfold SameViolations at *
  cases existing with
  | none =>
    rw [← released]
    unfold globalViolations storeUse
    rw [List.countP_append]
    simp [reservation]
  | some row =>
    rw [← released]
    apply globalViolations_updated
    intro other _
    unfold PromotionRedemption.reserveAgain
    split <;> exact ⟨rfl, rfl⟩

private theorem reserve_violations (succeeded : reservePromotionRedemption id around input state = .ok next) :
    SameViolations promotionCodeId state next := by
  unfold reservePromotionRedemption at succeeded
  split at succeeded
  · exact takeUse_violations succeeded
  · split at succeeded
    · cases succeeded
    · split at succeeded
      · cases succeeded
        rfl
      · exact takeUse_violations succeeded

private theorem confirmUse_violations {input : ApplyInput} (sound : Sound state)
    (inside : current ∈ state.redemptions) (timely : current.promotionCodeId = promotionCodeId → current.status ≠ .released) :
    SameViolations promotionCodeId state (confirmUse id input current state) := by
  have replaces := @replaces_update state.redemptions sound.distinct current inside
  by_cases here : current.promotionCodeId = promotionCodeId
  · have inTime := timely here
    unfold confirmUse SameViolations globalViolations
    simp only [inTime, false_and, if_false]
    have moved := replaces (PromotionRedemption.apply input none) fun row =>
      row.promotionCodeId == promotionCodeId && row.limitViolation == some .global
    have same : (current.apply input none).limitViolation = current.limitViolation := Option.or_none
    have code : (current.apply input none).promotionCodeId = current.promotionCodeId := rfl
    simp only [Option.toList_some, List.countP_cons, List.countP_nil, same, code] at moved
    omega
  · exact (replaces _).apart (by simp [PromotionRedemption.apply]) (fun same => here (by rw [same]; rfl)) _

private theorem apply_violations {input : ApplyInput} (sound : Sound state)
    (timely : appliesLate promotionCodeId state (.apply input) = false)
    (succeeded : applyPromotionRedemption id input state = .ok next) : SameViolations promotionCodeId state next := by
  unfold applyPromotionRedemption at succeeded
  split at succeeded
  · cases succeeded
  · next current found =>
    split at succeeded
    · cases succeeded
      rfl
    · cases succeeded
      apply confirmUse_violations sound (findAt_inv found).1
      intro here released
      simp [appliesLate, found, here, released] at timely

private theorem hosted_violations {input : CheckoutPromotion} {mapping : Option Nat} (apart : mapping ≠ some promotionCodeId) :
    SameViolations promotionCodeId state (recordHostedUse input state mapping) := by
  unfold recordHostedUse
  split
  · rfl
  · next other =>
    split
    · rfl
    · have elsewhere : other ≠ promotionCodeId := fun same => apart (congrArg some same)
      unfold SameViolations globalViolations
      rw [List.countP_append]
      simp [hostedUse, elsewhere]

private theorem hostedUses_violations {input : CheckoutPromotion} {mappings : List (Option Nat)} (apart : some promotionCodeId ∉ mappings) :
    SameViolations promotionCodeId state (mappings.foldl (recordHostedUse input) state) := by
  induction mappings generalizing state with
  | nil => rfl
  | cons mapping rest ih =>
    rw [List.foldl_cons]
    exact (ih fun later => apart (by simp [later])).trans (hosted_violations fun same => apart (by simp [same]))

private theorem checkout_violations {input : CheckoutPromotion} (sound : Sound state)
    (timely : appliesLate promotionCodeId state (.checkout input) = false)
    (unhosted : recordsHosted promotionCodeId state (.checkout input) = false)
    (succeeded : recordCheckoutPromotion id input state = .ok next) : SameViolations promotionCodeId state next := by
  unfold recordCheckoutPromotion at succeeded
  split at succeeded
  · next owned found =>
    apply apply_violations sound ?_ succeeded
    have member : owned ∈ state.redemptions := by
      unfold ownedRedemption at found
      obtain ⟨redemptionId, -, found⟩ := Option.bind_eq_some_iff.mp found
      exact List.mem_of_find?_eq_some found
    have again := findAt_member sound.distinct member
    simp only [appliesLate, found] at timely
    simp only [appliesLate, again]
    exact timely
  · next found =>
    cases succeeded
    apply hostedUses_violations
    intro inside
    simp [recordsHosted, found, inside] at unhosted

private theorem revoke_violations (succeeded : reversePromotionRedemption redemptionId state = .ok next) :
    SameViolations promotionCodeId state next := by
  unfold reversePromotionRedemption at succeeded
  split at succeeded
  · cases succeeded
  · split at succeeded
    · cases succeeded
    · split at succeeded
      · cases succeeded
      · cases succeeded
        exact globalViolations_updated fun _ _ => ⟨rfl, rfl⟩

private theorem release_violations (succeeded : releasePromotionRedemption id redemptionId state = .ok next) :
    SameViolations promotionCodeId state next := by
  unfold releasePromotionRedemption at succeeded
  split at succeeded
  · cases succeeded
  · split at succeeded
    · cases succeeded
      rfl
    · cases succeeded
      exact globalViolations_updated fun _ _ => ⟨rfl, rfl⟩

private theorem perform_violations (sound : Sound state)
    (timely : appliesLate promotionCodeId state operation = false) (unhosted : recordsHosted promotionCodeId state operation = false)
    (succeeded : perform id operation state = .ok next) : SameViolations promotionCodeId state next := by
  cases operation with
  | reserve around input => exact reserve_violations succeeded
  | apply input => exact apply_violations sound timely succeeded
  | release redemptionId => exact release_violations succeeded
  | sweep around locked limit =>
    cases succeeded
    exact globalViolations_released _
  | checkout input => exact checkout_violations sound timely unhosted succeeded
  | refund purchaseId =>
    cases succeeded
    apply globalViolations_edited
    intro row _
    split <;> exact ⟨rfl, rfl⟩
  | revoke redemptionId => exact revoke_violations succeeded
  | attach redemptionId checkoutSessionId reservedUntil =>
    cases succeeded
    apply globalViolations_updated
    intro row _
    unfold PromotionRedemption.attach
    split <;> exact ⟨rfl, rfl⟩
  | deactivate promotionCodeId =>
    cases succeeded
    rfl

private theorem after_violations (sound : Sound state)
    (timely : appliesLate promotionCodeId state operation = false) (unhosted : recordsHosted promotionCodeId state operation = false) :
    SameViolations promotionCodeId state (after nonNegative state operation) := by
  unfold after
  rw [perform_clamp sound]
  split
  · next succeeded => exact perform_violations sound timely unhosted succeeded
  · rfl

private theorem run_violations (sound : Sound state) {operations : List PromotionOperation}
    (unforced : neverForced promotionCodeId state operations = true) :
    SameViolations promotionCodeId state (run state operations) := by
  induction operations generalizing state with
  | nil => rfl
  | cons operation rest ih =>
    simp only [neverForced, Bool.and_eq_true, Bool.not_eq_true'] at unforced
    obtain ⟨⟨timely, unhosted⟩, later⟩ := unforced
    exact (ih (after_sound sound operation) later).trans (after_violations sound timely unhosted)

end Violations

/-- Over every run of operations by any clients, a code's counters are the numbers of its reserved and of its applied or
reversed redemptions, no clamp changes a counter, and the uses exceed the cap by the recorded violations at most: by none
where no use is applied late or recorded from a hosted checkout. -/
theorem counters_follow_redemptions {start : PromotionState} (unused : start.Unused) (operations : List PromotionOperation) :
    (∀ code ∈ (run start operations).codes,
      code.reservedCount = reservedUses code.id (run start operations).redemptions ∧
      code.redeemedCount = redeemedUses code.id (run start operations).redemptions ∧
      ∀ cap, code.maxRedemptions = some cap →
        code.redeemedCount + code.reservedCount ≤ cap + globalViolations code.id (run start operations).redemptions ∧
        (neverForced code.id start operations = true → code.redeemedCount + code.reservedCount ≤ cap)) ∧
    ∀ operation, perform nonNegative operation (run start operations) = perform id operation (run start operations) := by
  have sound := run_sound unused.sound operations
  refine ⟨?_, perform_clamp sound⟩
  intro code member
  have counted := sound.counted code member
  refine ⟨counted.reserved, counted.redeemed, ?_⟩
  intro cap capped
  have bound := counted.capped cap capped
  refine ⟨bound, ?_⟩
  intro unforced
  have none := run_violations unused.sound unforced
  have initially : globalViolations code.id start.redemptions = 0 := by simp [globalViolations, unused.unredeemed]
  omega

def scarceCode : PromotionCode where
  id := 1
  promotionActive := true
  allowedChannels := [.web]
  active := true
  startsAt := none
  expiresAt := none
  billingAccountId := none
  maxRedemptions := some 1
  maxRedemptionsPerCustomer := some 1
  firstPurchaseOnly := false
  redeemedCount := 0
  reservedCount := 0

def reserveAs (customerId : Nat) : ReserveInput where
  customerId := customerId
  billingAccountId := customerId
  promotionCodeId := 1
  channel := .web
  provider := .stripe
  idempotencyKey := 7
  rest := 0
  reservedUntil := some 10
  subscriptionChangeId := none

/-- A reservation is swept, its use is taken by another customer, and the provider then confirms it all the same. -/
def lateConfirmation : List PromotionOperation :=
  [.reserve ⟨5, fun _ => false, fun _ => false⟩ (reserveAs 1),
    .sweep ⟨20, fun _ => false, fun _ => false⟩ (fun _ => false) 100,
    .reserve ⟨21, fun _ => false, fun _ => false⟩ { reserveAs 2 with reservedUntil := some 30 },
    .apply ⟨1, none, none⟩]

theorem counters_follow_redemptions_late :
    ∃ code ∈ (run ⟨[scarceCode], []⟩ lateConfirmation).codes,
      code.redeemedCount + code.reservedCount = 2 ∧
      code.redeemedCount + code.reservedCount ≤ 1 + globalViolations code.id (run ⟨[scarceCode], []⟩ lateConfirmation).redemptions := by
  have unused : PromotionState.Unused ⟨[scarceCode], []⟩ := by
    refine ⟨by simp, ?_, ?_, rfl⟩
    · simp [scarceCode]
    · simp [scarceCode]
  have counters := (counters_follow_redemptions unused lateConfirmation).1
  have member : { scarceCode with redeemedCount := 1, reservedCount := 1 } ∈ (run ⟨[scarceCode], []⟩ lateConfirmation).codes := by
    decide
  exact ⟨_, member, by decide, ((counters _ member).2.2 1 rfl).1⟩

end Quotum.Promotions
