import Quotum.Referrals

/-! Referrals and rewards stay safe in any interleaving of statements, as long as no two accounts redeem each other's codes
with both cycle checks made before either redemption ends. -/

namespace Quotum.Referrals
open General

variable {customerId : Nat} {session : Session} {stage : QualifyStage}

/-- What holds of the committed tables in any interleaving. -/
structure Valid (programs : List ReferralProgram) (tables : ReferralTables) : Prop where
  notSelf : ∀ referral ∈ tables.referrals, referral.referrerCustomerId ≠ referral.key.customerId
  keyed : (tables.referrals.map Referral.key).Nodup
  rewardsKeyed : (tables.rewards.map ReferralReward.key).Nodup
  coded : ∀ code ∈ tables.rewardCodes, ∃ reward, tables.reward code.reward = some reward ∧ reward.promotionCodeId.isSome = true
  codedOnce : (tables.rewardCodes.map RewardCode.reward).Nodup
  settled : ∀ key ∈ tables.settlements, ∃ reward, tables.reward key = some reward ∧ reward.status ≠ .pending
  settledOnce : tables.settlements.Nodup
  capped : ∀ programId, ∀ program ∈ findProgram programs programId, ∀ cap ∈ program.maxRewardsPerReferrer,
    ∀ customerId, tables.given customerId programId ≤ cap

structure Changes (holder : RowLock → Prop) (before after : ReferralTables) : Prop where
  referrals : ∀ key, findAt Referral.key key before.referrals = none → ¬ holder (.customer key.customerId) →
    findAt Referral.key key after.referrals = none
  rewards : ∀ key reward, before.reward key = some reward →
    ∃ later, after.reward key = some later ∧ later.customerId = reward.customerId ∧ (¬ holder (.reward key) → later = reward)
  given : ∀ customerId programId, ¬ holder (.customer customerId) → after.given customerId programId = before.given customerId programId

theorem Changes.refl (holder : RowLock → Prop) (tables : ReferralTables) : Changes holder tables tables :=
  ⟨fun _ absent _ => absent, fun _ reward found => ⟨reward, found, rfl, fun _ => rfl⟩, fun _ _ _ => rfl⟩

theorem Changes.trans {holder : RowLock → Prop} {first second third : ReferralTables} (one : Changes holder first second)
    (two : Changes holder second third) : Changes holder first third where
  referrals := fun key absent free => two.referrals key (one.referrals key absent free) free
  rewards := by
    intro key reward found
    obtain ⟨middle, there, customer, same⟩ := one.rewards key reward found
    obtain ⟨later, last, customerAgain, sameAgain⟩ := two.rewards key middle there
    exact ⟨later, last, customerAgain.trans customer, fun free => (sameAgain free).trans (same free)⟩
  given := fun customerId programId free => (two.given customerId programId free).trans (one.given customerId programId free)

def Owned (tables : ReferralTables) (key : RewardKey) (customerId : Nat) (holds : ReferralReward → Prop) : Prop :=
  ∃ reward, tables.reward key = some reward ∧ reward.customerId = customerId ∧ holds reward

def Fresh (rewards : List ReferralReward) : Prop :=
  ∀ reward ∈ rewards, reward.promotionCodeId = none ∧ reward.status = .pending

/-- The redeemed code is another account's, and the account has no referral in its program. -/
def Unreferred (account : Nat) (code : ReferralCode) (tables : ReferralTables) : Prop :=
  code.customerId ≠ account ∧ findAt Referral.key ⟨code.programId, account⟩ tables.referrals = none

def Uncoded (reward : ReferralReward) : Prop :=
  reward.status = .pending ∧ reward.promotionCodeId = none

def UnderCap (tables : ReferralTables) (key : RewardKey) (customerId : Nat) (program : ReferralProgram) : Prop :=
  key.recipient = .referrer → ∀ cap ∈ program.maxRewardsPerReferrer, tables.given customerId program.id < cap

section Knows
variable (programs : List ReferralProgram)

def Knows (tables : ReferralTables) : Session → Prop
  | .redeem account _ _ (.unmatched code) | .redeem account _ _ (.acyclic code) | .redeem account _ _ (.unpaid code) =>
    Unreferred account code tables
  | .redeem account _ _ (.recorded referral rewards) =>
    referral.key.customerId = account ∧ referral.referrerCustomerId ≠ account ∧
    findAt Referral.key referral.key tables.referrals = none ∧ Fresh rewards
  | .qualify _ (.earned rewards) => Fresh rewards
  | .prepare key (.found customerId) | .prepare key (.locked customerId) | .prepare key (.coded customerId _) =>
    Owned tables key customerId fun _ => True
  | .prepare key (.uncounted customerId program) =>
    findProgram programs key.referral.programId = some program ∧ Owned tables key customerId Uncoded
  | .prepare key (.allowed customerId program) =>
    findProgram programs key.referral.programId = some program ∧ Owned tables key customerId Uncoded ∧
    UnderCap tables key customerId program
  | .prepare key (.minted customerId program code) =>
    findProgram programs key.referral.programId = some program ∧ Owned tables key customerId Uncoded ∧
    UnderCap tables key customerId program ∧ code.reward = key
  | .prepare key (.stopped customerId outcome) =>
    Owned tables key customerId (fun reward => reward.status = .pending) ∧ outcome.status ≠ .pending
  | .prepared key customerId _ => Owned tables key customerId fun _ => True
  | .settle key customerId _ from_ (.written true) => Owned tables key customerId fun reward => reward.status = from_.status
  | .settle key customerId _ _ _ => Owned tables key customerId fun _ => True
  | _ => True

variable {programs} {holder : RowLock → Prop} {before after : ReferralTables} {key : RewardKey}

theorem Changes.owned (changes : Changes holder before after)
    (owned : Owned before key customerId fun _ => True) : Owned after key customerId fun _ => True := by
  obtain ⟨reward, found, customer, -⟩ := owned
  obtain ⟨later, there, same, -⟩ := changes.rewards key reward found
  exact ⟨later, there, same.trans customer, trivial⟩

theorem Changes.locked (changes : Changes holder before after) {holds : ReferralReward → Prop}
    (free : ¬ holder (.reward key)) (owned : Owned before key customerId holds) : Owned after key customerId holds := by
  obtain ⟨reward, found, customer, known⟩ := owned
  obtain ⟨later, there, -, same⟩ := changes.rewards key reward found
  obtain rfl := same free
  exact ⟨later, there, customer, known⟩

theorem Changes.underCap (changes : Changes holder before after) {program : ReferralProgram}
    (free : ¬ holder (.customer customerId)) (under : UnderCap before key customerId program) :
    UnderCap after key customerId program := by
  intro recipient cap capped
  rw [changes.given customerId program.id free]
  exact under recipient cap capped

theorem Changes.knows (changes : Changes holder before after) (known : Knows programs before session)
    (free : ∀ lock ∈ session.locks, ¬ holder lock) : Knows programs after session := by
  cases session with
  | redeem account code channel stage =>
    have own {key : ReferralKey} (customer : key.customerId = account) (held : RowLock.customer account ∈ stage.locks account)
        (absent : findAt Referral.key key before.referrals = none) : findAt Referral.key key after.referrals = none :=
      changes.referrals key absent (by rw [customer]; exact free _ held)
    cases stage with
    | unmatched resolved => exact ⟨known.1, own rfl (by simp [RedeemStage.locks]) known.2⟩
    | acyclic resolved => exact ⟨known.1, own rfl (by simp [RedeemStage.locks]) known.2⟩
    | unpaid resolved => exact ⟨known.1, own rfl (by simp [RedeemStage.locks]) known.2⟩
    | recorded referral rewards => exact ⟨known.1, known.2.1, own known.1 (by simp [RedeemStage.locks]) known.2.2.1, known.2.2.2⟩
    | _ => trivial
  | qualify key stage =>
    cases stage with
    | earned rewards => exact known
    | _ => trivial
  | prepare key stage =>
    cases stage with
    | begun => trivial
    | found customerId => exact changes.owned known
    | locked customerId => exact changes.owned known
    | uncounted customerId program =>
      exact ⟨known.1, changes.locked (free _ (by simp [Session.locks, PrepareStage.locks])) known.2⟩
    | allowed customerId program =>
      exact ⟨known.1, changes.locked (free _ (by simp [Session.locks, PrepareStage.locks])) known.2.1,
        changes.underCap (free _ (by simp [Session.locks, PrepareStage.locks])) known.2.2⟩
    | minted customerId program code =>
      exact ⟨known.1, changes.locked (free _ (by simp [Session.locks, PrepareStage.locks])) known.2.1,
        changes.underCap (free _ (by simp [Session.locks, PrepareStage.locks])) known.2.2.1, known.2.2.2⟩
    | coded customerId program => exact changes.owned known
    | stopped customerId outcome =>
      exact ⟨changes.locked (free _ (by simp [Session.locks, PrepareStage.locks])) known.1, known.2⟩
  | prepared key customerId effectKind => exact changes.owned known
  | settle key customerId outcome from_ stage =>
    cases stage with
    | begun | locked => exact changes.owned known
    | written settled =>
      cases settled with
      | true => exact changes.locked (free _ (by simp [Session.locks, SettleStage.locks])) known
      | false => exact changes.owned known
  | ended => trivial

variable (programs)

def discipline : Discipline ReferralTables Session RowLock where
  locks := Session.locks
  valid := Valid programs
  knows := Knows programs
  changes := Changes
  stable := fun changes known free => changes.knows known free

end Knows

section Tables
variable {programs : List ReferralProgram} {holder : RowLock → Prop} {tables : ReferralTables}

private theorem reward_inv {key : RewardKey} {reward : ReferralReward} (found : tables.reward key = some reward) :
    reward ∈ tables.rewards ∧ reward.key = key :=
  findAt_inv found

/-- A new reward has no code yet, so it neither counts nor is settled. -/
private theorem insertReward_changes (reward : ReferralReward) (fresh : reward.promotionCodeId = none) :
    Changes holder tables (tables.insertReward reward) := by
  unfold ReferralTables.insertReward
  split
  · exact .refl holder tables
  · refine ⟨fun _ absent _ => absent, fun key stored found => ⟨stored, findAt_append_some found _, rfl, fun _ => rfl⟩, ?_⟩
    intro customerId programId _
    unfold ReferralTables.given
    rw [List.countP_append, List.countP_singleton, fresh]
    simp

theorem Valid.insertReward (valid : Valid programs tables) (reward : ReferralReward) (fresh : reward.promotionCodeId = none) :
    Valid programs (tables.insertReward reward) := by
  have changes := @insertReward_changes (fun _ => False) tables reward fresh
  have given (customerId programId : Nat) := changes.given customerId programId not_false
  unfold ReferralTables.insertReward at changes given ⊢
  split
  · exact valid
  · next absent =>
    rw [Option.not_isSome_iff_eq_none] at absent
    simp only [if_neg (show ¬ (tables.reward reward.key).isSome = true by simp [absent])] at changes given
    exact {
      notSelf := valid.notSelf
      keyed := valid.keyed
      rewardsKeyed := by
        rw [List.map_append, List.map_singleton, ← List.concat_eq_append, List.nodup_concat]
        exact ⟨findAt_none.mp absent, valid.rewardsKeyed⟩
      coded := by
        intro code member
        obtain ⟨stored, found, isSome⟩ := valid.coded code member
        exact ⟨stored, findAt_append_some found _, isSome⟩
      codedOnce := valid.codedOnce
      settled := by
        intro key member
        obtain ⟨stored, found, status⟩ := valid.settled key member
        exact ⟨stored, findAt_append_some found _, status⟩
      settledOnce := valid.settledOnce
      capped := by
        intro programId program found cap capped customerId
        rw [given]
        exact valid.capped programId program found cap capped customerId }

private theorem insertRewards_kept (valid : Valid programs tables) {rewards : List ReferralReward} (fresh : Fresh rewards) :
    Valid programs (rewards.foldl ReferralTables.insertReward tables) ∧
      Changes holder tables (rewards.foldl ReferralTables.insertReward tables) := by
  induction rewards generalizing tables with
  | nil => exact ⟨valid, .refl holder tables⟩
  | cons reward rest ih =>
    have here := (fresh reward (by simp)).1
    obtain ⟨later, changes⟩ := ih (valid.insertReward reward here) fun other member => fresh other (by simp [member])
    exact ⟨later, (insertReward_changes reward here).trans changes⟩

theorem Valid.insertReferral (valid : Valid programs tables) {referral : Referral}
    (notSelf : referral.referrerCustomerId ≠ referral.key.customerId)
    (absent : findAt Referral.key referral.key tables.referrals = none) : Valid programs (tables.insertReferral referral) where
  notSelf := by
    intro stored member
    rcases List.mem_append.mp member with old | new
    · exact valid.notSelf stored old
    · exact List.mem_singleton.mp new ▸ notSelf
  keyed := by
    rw [ReferralTables.insertReferral, List.map_append, List.map_singleton, ← List.concat_eq_append, List.nodup_concat]
    exact ⟨findAt_none.mp absent, valid.keyed⟩
  rewardsKeyed := valid.rewardsKeyed
  coded := valid.coded
  codedOnce := valid.codedOnce
  settled := valid.settled
  settledOnce := valid.settledOnce
  capped := valid.capped

private theorem insertReferral_changes (referral : Referral) (held : holder (.customer referral.key.customerId)) :
    Changes holder tables (tables.insertReferral referral) where
  referrals := by
    intro key absent free
    rw [findAt_none] at absent ⊢
    rw [ReferralTables.insertReferral, List.map_append, List.map_singleton, List.mem_append, List.mem_singleton]
    rintro (old | rfl)
    · exact absent old
    · exact free held
  rewards := fun _ reward found => ⟨reward, found, rfl, fun _ => rfl⟩
  given := fun _ _ _ => rfl

private theorem qualify_keys (key : ReferralKey) : (tables.qualify key).referrals.map Referral.key = tables.referrals.map Referral.key :=
  @updateAt_keys _ _ _ Referral.key key (fun referral => { referral with status := .qualified }) (fun _ => rfl) tables.referrals

theorem Valid.qualify (valid : Valid programs tables) (key : ReferralKey) : Valid programs (tables.qualify key) where
  notSelf := by
    intro referral member
    obtain ⟨old, inside, ⟨-, rfl⟩ | ⟨-, rfl⟩⟩ := mem_updateAt.mp member
    · exact valid.notSelf old inside
    · exact valid.notSelf referral inside
  keyed := by
    rw [qualify_keys]
    exact valid.keyed
  rewardsKeyed := valid.rewardsKeyed
  coded := valid.coded
  codedOnce := valid.codedOnce
  settled := valid.settled
  settledOnce := valid.settledOnce
  capped := valid.capped

private theorem qualify_changes (key : ReferralKey) : Changes holder tables (tables.qualify key) where
  referrals := by
    intro other absent _
    rw [findAt_none] at absent ⊢
    rw [qualify_keys]
    exact absent
  rewards := fun _ reward found => ⟨reward, found, rfl, fun _ => rfl⟩
  given := fun _ _ _ => rfl

section Edited
variable {key : RewardKey} {edit : ReferralReward → ReferralReward}

private theorem reward_updated (key : RewardKey) (keptKey : ∀ reward, (edit reward).key = reward.key) {other : RewardKey} {reward : ReferralReward}
    (distinct : (tables.rewards.map ReferralReward.key).Nodup) (found : tables.reward other = some reward) :
    findAt ReferralReward.key other (updateAt ReferralReward.key key edit tables.rewards) =
      some (if other = key then edit reward else reward) := by
  obtain ⟨member, rfl⟩ := reward_inv found
  by_cases same : reward.key = key
  · subst same
    rw [if_pos rfl]
    exact findAt_update distinct member keptKey
  · rw [if_neg same]
    have stays : reward ∈ updateAt ReferralReward.key key edit tables.rewards := mem_updateAt.mpr ⟨reward, member, .inr ⟨same, rfl⟩⟩
    apply findAt_member _ stays
    rw [updateAt_keys keptKey]
    exact distinct

private theorem given_updated (keptKey : ∀ reward, (edit reward).key = reward.key)
    (kept : ∀ reward, (edit reward).customerId = reward.customerId ∧ (edit reward).promotionCodeId = reward.promotionCodeId)
    (customerId programId : Nat) :
    ReferralTables.given customerId programId { tables with rewards := updateAt ReferralReward.key key edit tables.rewards } =
      tables.given customerId programId := by
  unfold ReferralTables.given updateAt
  rw [List.countP_map]
  apply List.countP_congr
  intro reward _
  rw [Function.comp]
  split
  · rw [keptKey, (kept reward).1, (kept reward).2]
  · rfl

end Edited

theorem Valid.settle (valid : Valid programs tables) {key : RewardKey} {customerId : Nat} {from_ : SettledFrom}
    (owned : Owned tables key customerId fun reward => reward.status = from_.status) {status : ReferralRewardStatus}
    (left : status ≠ .pending) : Valid programs (tables.settle key from_ status) := by
  obtain ⟨reward, found, -, current⟩ := owned
  have keptKey (row : ReferralReward) : ({ row with status := status } : ReferralReward).key = row.key := rfl
  have settledHere : (tables.settle key from_ status).reward key = some { reward with status := status } := by
    have updated := reward_updated key keptKey valid.rewardsKeyed found
    rw [if_pos rfl] at updated
    exact updated
  have old {other : RewardKey} (member : other ∈ tables.settlements) :
      ∃ reward, (tables.settle key from_ status).reward other = some reward ∧ reward.status ≠ .pending := by
    obtain ⟨stored, there, away⟩ := valid.settled other member
    refine ⟨_, reward_updated key keptKey valid.rewardsKeyed there, ?_⟩
    split
    · exact left
    · exact away
  exact {
    notSelf := valid.notSelf
    keyed := valid.keyed
    rewardsKeyed := by
      have kept := updateAt_keys (k := key) keptKey tables.rewards
      exact kept ▸ valid.rewardsKeyed
    coded := by
      intro code member
      obtain ⟨stored, there, isSome⟩ := valid.coded code member
      refine ⟨_, reward_updated key keptKey valid.rewardsKeyed there, ?_⟩
      split <;> exact isSome
    codedOnce := valid.codedOnce
    settled := by
      intro other member
      unfold ReferralTables.settle at member
      cases from_ with
      | pending =>
        rcases List.mem_append.mp member with before | here
        · exact old before
        · rw [List.mem_singleton.mp here]
          exact ⟨_, settledHere, left⟩
      | held => exact old member
    settledOnce := by
      unfold ReferralTables.settle
      cases from_ with
      | pending =>
        simp only [if_true]
        rw [← List.concat_eq_append, List.nodup_concat]
        refine ⟨?_, valid.settledOnce⟩
        intro again
        obtain ⟨stored, there, away⟩ := valid.settled key again
        rw [found] at there
        obtain rfl := Option.some.inj there
        exact away current
      | held => exact valid.settledOnce
    capped := by
      intro programId program there cap capped account
      have given := @given_updated tables key (fun reward => { reward with status := status }) keptKey (fun _ => ⟨rfl, rfl⟩) account programId
      exact given ▸ valid.capped programId program there cap capped account }

private theorem settle_changes (valid : Valid programs tables) {key : RewardKey} (from_ : SettledFrom) (status : ReferralRewardStatus)
    (held : holder (.reward key)) : Changes holder tables (tables.settle key from_ status) where
  referrals := fun _ absent _ => absent
  rewards := by
    intro other reward found
    have keptKey (row : ReferralReward) : ({ row with status := status } : ReferralReward).key = row.key := rfl
    refine ⟨_, reward_updated key keptKey valid.rewardsKeyed found, ?_, ?_⟩
    · split <;> rfl
    · intro free
      have apart : other ≠ key := fun same => free (same ▸ held)
      rw [if_neg apart]
  given := fun customerId programId _ =>
    @given_updated tables key (fun reward => { reward with status := status }) (fun _ => rfl) (fun _ => ⟨rfl, rfl⟩) customerId programId

def withCode (id : Nat) (reward : ReferralReward) : ReferralReward :=
  { reward with promotionCodeId := some id }

variable (valid : Valid programs tables) {code : RewardCode}
include valid

private theorem given_mint (owned : Owned tables code.reward customerId Uncoded) (account programId : Nat) :
    (tables.mint code).given account programId = tables.given account programId +
      if customerId = account ∧ code.reward.recipient = .referrer ∧ code.reward.referral.programId = programId then 1 else 0 := by
  obtain ⟨reward, found, customer, uncoded⟩ := owned
  obtain ⟨member, key⟩ := reward_inv found
  have counted := updateAt_countP valid.rewardsKeyed member (withCode code.id) fun row =>
    row.customerId == account && row.key.recipient == .referrer && row.promotionCodeId.isSome && row.key.referral.programId == programId
  rw [key, List.countP_singleton, List.countP_singleton, uncoded.2] at counted
  simp only [Option.isSome_none, Bool.and_false, Bool.false_and, Bool.false_eq_true, if_false, Nat.add_zero, withCode,
    Option.isSome_some, Bool.and_true, Bool.and_eq_true, beq_iff_eq, key, customer, and_assoc] at counted
  exact counted

private theorem mint_reward (code : RewardCode) {key : RewardKey} {reward : ReferralReward}
    (found : tables.reward key = some reward) :
    (tables.mint code).reward key = some (if key = code.reward then withCode code.id reward else reward) :=
  @reward_updated tables (withCode code.id) code.reward (fun _ => rfl) key reward valid.rewardsKeyed found

theorem Valid.mint {program : ReferralProgram}
    (named : findProgram programs code.reward.referral.programId = some program) (owned : Owned tables code.reward customerId Uncoded)
    (under : UnderCap tables code.reward customerId program) : Valid programs (tables.mint code) where
  notSelf := valid.notSelf
  keyed := valid.keyed
  rewardsKeyed := by
    have kept := @updateAt_keys _ _ _ ReferralReward.key code.reward (withCode code.id) (fun _ => rfl) tables.rewards
    exact kept ▸ valid.rewardsKeyed
  coded := by
    intro other member
    rcases List.mem_append.mp member with old | new
    · obtain ⟨stored, there, isSome⟩ := valid.coded other old
      refine ⟨_, mint_reward valid code there, ?_⟩
      split
      · rfl
      · exact isSome
    · rw [List.mem_singleton.mp new]
      obtain ⟨reward, found, -⟩ := owned
      refine ⟨_, mint_reward valid code found, ?_⟩
      rw [if_pos rfl]
      rfl
  codedOnce := by
    rw [ReferralTables.mint, List.map_append, List.map_singleton, ← List.concat_eq_append, List.nodup_concat]
    refine ⟨?_, valid.codedOnce⟩
    intro again
    obtain ⟨other, member, same⟩ := List.mem_map.mp again
    obtain ⟨stored, there, isSome⟩ := valid.coded other member
    obtain ⟨reward, found, -, uncoded⟩ := owned
    rw [same, found] at there
    rw [← Option.some.inj there, uncoded.2] at isSome
    cases isSome
  settled := by
    intro key member
    obtain ⟨stored, there, away⟩ := valid.settled key member
    refine ⟨_, mint_reward valid code there, ?_⟩
    split <;> exact away
  settledOnce := valid.settledOnce
  capped := by
    intro programId other found cap capped account
    rw [given_mint valid owned]
    have stored := valid.capped programId other found cap capped account
    split
    · next here =>
      obtain ⟨rfl, recipient, rfl⟩ := here
      obtain rfl := Option.some.inj (named.symm.trans found)
      have room := under recipient cap capped
      rw [(findAt_inv named).2] at room
      omega
    · omega

private theorem mint_changes (owned : Owned tables code.reward customerId Uncoded)
    (reward : holder (.reward code.reward)) (customer : holder (.customer customerId)) : Changes holder tables (tables.mint code) where
  referrals := fun _ absent _ => absent
  rewards := by
    intro key stored found
    refine ⟨_, mint_reward valid code found, ?_, ?_⟩
    · split <;> rfl
    · intro free
      have apart : key ≠ code.reward := fun same => free (same ▸ reward)
      rw [if_neg apart]
  given := by
    intro account programId free
    have apart : customerId ≠ account := fun same => free (same ▸ customer)
    rw [given_mint valid owned, if_neg fun both => apart both.1, Nat.add_zero]

end Tables

section Statements
variable {programs : List ReferralProgram} {codes : List ReferralCode} {tables : ReferralTables}

def Keeps (programs : List ReferralProgram) (tables : ReferralTables) (session : Session) (result : ReferralTables × Session) : Prop :=
  (discipline programs).Statement session.wants tables session result.1 result.2

/-- A statement that only reads. -/
private theorem reads_only (valid : Valid programs tables) {next : Session}
    (knows : Knows programs tables next) (locks : ∀ lock ∈ next.locks, lock ∈ session.locks ∨ lock ∈ session.wants) :
    Keeps programs tables session (tables, next) :=
  ⟨valid, knows, Changes.refl _ tables, locks⟩

private theorem ends_only (valid : Valid programs tables) (session : Session) : Keeps programs tables session (tables, .ended) :=
  reads_only valid trivial fun _ none => absurd none (List.not_mem_nil)

private theorem fresh_createRewards (referral : ReferralKey) (referrer : Nat) (recipient : ReferralRecipient) :
    Fresh (createRewards referral referrer recipient) := by
  intro reward member
  unfold createRewards at member
  rcases List.mem_cons.mp member with rfl | later
  · exact ⟨rfl, rfl⟩
  · split at later
    · rw [List.mem_singleton.mp later]
      exact ⟨rfl, rfl⟩
    · cases later

private theorem fresh_redemptionRewards (program : ReferralProgram) (referral : Referral) : Fresh (redemptionRewards program referral) := by
  unfold redemptionRewards
  split
  · exact fresh_createRewards _ _ _
  · split
    · intro reward member
      rw [List.mem_singleton.mp member]
      exact ⟨rfl, rfl⟩
    · intro reward member
      cases member

private theorem redeem_keeps (valid : Valid programs tables) {account code : Nat} {channel : Promotions.PromotionChannel} {stage : RedeemStage}
    (reads : Reads) (knows : Knows programs tables (.redeem account code channel stage)) :
    Keeps programs tables (.redeem account code channel stage) (redeemCode programs codes account code channel reads tables stage) := by
  have ends := ends_only valid (.redeem account code channel stage)
  cases stage with
  | begun => exact reads_only valid trivial fun _ held => .inr held
  | locked =>
    simp only [redeemCode]
    split
    · exact ends
    · exact reads_only valid trivial fun _ held => .inl held
  | resolved resolved =>
    simp only [redeemCode]
    split_ifs with earlier self archived ios
    · exact ends
    · exact ends
    · exact ends
    · exact ends
    · rw [Option.not_isSome_iff_eq_none] at earlier
      exact reads_only valid ⟨self, earlier⟩ fun _ held => .inl held
  | unmatched resolved =>
    simp only [redeemCode]
    split_ifs with cycle
    · exact ends
    · exact reads_only valid knows fun _ held => .inl held
  | acyclic resolved =>
    simp only [redeemCode]
    split_ifs with paid
    · exact ends
    · exact reads_only valid knows fun _ held => .inl held
  | unpaid resolved =>
    simp only [redeemCode]
    split
    · exact ends
    · next program found =>
      split_ifs with taken
      · exact ends
      · rw [Option.not_isSome_iff_eq_none] at taken
        exact reads_only valid ⟨rfl, knows.1, taken, fresh_redemptionRewards program _⟩ fun _ held => .inl held
  | recorded referral rewards =>
    obtain ⟨customer, notSelf, absent, fresh⟩ := knows
    have inserted := valid.insertReferral (by rw [customer]; exact notSelf) absent
    obtain ⟨validAfter, changes⟩ := insertRewards_kept inserted fresh
    refine ⟨validAfter, trivial, (insertReferral_changes referral (.inl ?_)).trans changes, fun _ none => absurd none (List.not_mem_nil)⟩
    rw [customer]
    exact List.mem_singleton_self _

private theorem qualify_keeps (valid : Valid programs tables) {key : ReferralKey}
    (reads : Reads) (knows : Knows programs tables (.qualify key stage)) :
    Keeps programs tables (.qualify key stage) (qualifyReferral programs key reads tables stage) := by
  have ends := ends_only valid (.qualify key stage)
  cases stage with
  | begun => exact reads_only valid trivial fun _ held => .inr held
  | locked =>
    simp only [qualifyReferral]
    split
    · exact ends
    · refine reads_only valid trivial fun lock held => ?_
      simp only [Session.locks, QualifyStage.locks, Session.wants, List.mem_cons, List.not_mem_nil, or_false] at held ⊢
      exact held
  | read referral =>
    simp only [qualifyReferral]
    split
    · exact ends
    · split_ifs with earned
      · exact reads_only valid (fresh_createRewards _ _ _) fun _ held => .inl held
      · exact ends
  | earned rewards =>
    obtain ⟨validAfter, changes⟩ := insertRewards_kept (valid.qualify key) knows
    exact ⟨validAfter, trivial, (qualify_changes key).trans changes, fun _ none => absurd none (List.not_mem_nil)⟩

private theorem outcome_left (outcome : RewardOutcome) : outcome.status ≠ .pending := by
  cases outcome <;> simp [RewardOutcome.status]

private theorem prepare_keeps (valid : Valid programs tables) {key : RewardKey} {stage : PrepareStage}
    (reads : Reads) (knows : Knows programs tables (.prepare key stage)) :
    Keeps programs tables (.prepare key stage) (prepareReward programs key reads tables stage) := by
  have ends := ends_only valid (.prepare key stage)
  cases stage with
  | begun =>
    simp only [prepareReward]
    split
    · exact ends
    · next reward found => exact reads_only valid ⟨reward, found, rfl, trivial⟩ fun _ none => absurd none (List.not_mem_nil)
  | found customerId => exact reads_only valid knows fun _ held => .inr held
  | locked customerId =>
    have locks (lock : RowLock) (held : lock ∈ [RowLock.customer customerId, .reward key]) :
        lock ∈ Session.locks (.prepare key (.locked customerId)) ∨ lock ∈ Session.wants (.prepare key (.locked customerId)) := by
      simp only [Session.locks, PrepareStage.locks, Session.wants, List.mem_cons, List.not_mem_nil, or_false] at held ⊢
      exact held
    simp only [prepareReward]
    split
    · next reward program found named =>
      have owner : reward.customerId = customerId := by
        obtain ⟨stored, there, customer, -⟩ := knows
        rw [found] at there
        exact Option.some.inj there ▸ customer
      split_ifs with settled erased coded archived counted
      · exact ends
      · exact reads_only valid ⟨⟨reward, found, owner, not_ne_iff.mp settled⟩, outcome_left _⟩ locks
      · exact reads_only valid ⟨reward, found, owner, trivial⟩ locks
      · exact reads_only valid ⟨⟨reward, found, owner, not_ne_iff.mp settled⟩, outcome_left _⟩ locks
      · have uncoded : Uncoded reward := ⟨not_ne_iff.mp settled, Option.not_isSome_iff_eq_none.mp coded⟩
        exact reads_only valid ⟨named, reward, found, owner, uncoded⟩ locks
      · have uncoded : Uncoded reward := ⟨not_ne_iff.mp settled, Option.not_isSome_iff_eq_none.mp coded⟩
        refine reads_only valid ⟨named, ⟨reward, found, owner, uncoded⟩, ?_⟩ locks
        intro recipient cap capped
        exact absurd ⟨recipient, Option.isSome_iff_exists.mpr ⟨cap, capped⟩⟩ counted
    · exact ends
  | uncounted customerId program =>
    simp only [prepareReward]
    split_ifs with spent
    · obtain ⟨-, reward, found, owner, uncoded⟩ := knows
      exact reads_only valid ⟨⟨reward, found, owner, uncoded.1⟩, outcome_left _⟩ fun _ held => .inl held
    · refine reads_only valid ⟨knows.1, knows.2, ?_⟩ fun _ held => .inl held
      intro _ cap capped
      by_contra full
      exact spent (by rw [Option.mem_def.mp capped, Option.any_some, decide_eq_true_eq]; omega)
  | allowed customerId program =>
    simp only [prepareReward]
    split_ifs with taken
    · exact reads_only valid knows fun _ held => .inl held
    · exact reads_only valid ⟨knows.1, knows.2.1, knows.2.2, rfl⟩ fun _ held => .inl held
  | minted customerId program code =>
    obtain ⟨named, owned, under, rfl⟩ := knows
    have changes : Changes (fun lock => lock ∈ Session.locks (.prepare code.reward (.minted customerId program code)) ∨
        lock ∈ Session.wants (.prepare code.reward (.minted customerId program code))) tables (tables.mint code) :=
      mint_changes valid owned (.inl (by simp [Session.locks, PrepareStage.locks])) (.inl (by simp [Session.locks, PrepareStage.locks]))
    have minted := valid.mint named owned under
    obtain ⟨reward, found, owner, -⟩ := owned
    exact ⟨minted, changes.owned ⟨reward, found, owner, trivial⟩, changes, fun _ none => absurd none (List.not_mem_nil)⟩
  | coded customerId program => exact reads_only valid knows fun _ none => absurd none (List.not_mem_nil)
  | stopped customerId outcome =>
    obtain ⟨owned, left⟩ := knows
    exact ⟨@Valid.settle programs tables valid key customerId .pending owned _ left, trivial,
      settle_changes valid .pending _ (.inl (by simp [discipline, Session.locks, PrepareStage.locks])),
      fun _ none => absurd none (List.not_mem_nil)⟩

private theorem settle_keeps (valid : Valid programs tables) {key : RewardKey} {outcome : RewardOutcome} {from_ : SettledFrom}
    {stage : SettleStage} (knows : Knows programs tables (.settle key customerId outcome from_ stage)) :
    Keeps programs tables (.settle key customerId outcome from_ stage) (settleReward key customerId outcome from_ tables stage) := by
  cases stage with
  | begun => exact reads_only valid knows fun _ held => .inr held
  | locked =>
    have locks (settled : Bool) : ∀ lock ∈ Session.locks (.settle key customerId outcome from_ (.written settled)),
        lock ∈ Session.locks (.settle key customerId outcome from_ .locked) ∨
          lock ∈ Session.wants (.settle key customerId outcome from_ .locked) := by
      intro lock held
      simp only [Session.locks, SettleStage.locks, Session.wants, List.mem_cons, List.not_mem_nil, or_false] at held ⊢
      exact held
    simp only [settleReward]
    cases matches_ : (tables.reward key).any fun reward => reward.status == from_.status with
    | false => exact reads_only valid knows (locks false)
    | true =>
      obtain ⟨reward, found, owner, -⟩ := knows
      rw [found, Option.any_some, beq_iff_eq] at matches_
      exact reads_only valid ⟨reward, found, owner, matches_⟩ (locks true)
  | written settled =>
    cases settled with
    | false => exact ends_only valid _
    | true =>
      exact ⟨valid.settle knows (outcome_left outcome), trivial,
        settle_changes valid from_ _ (.inl (by simp [discipline, Session.locks, SettleStage.locks])),
        fun _ none => absurd none (List.not_mem_nil)⟩

theorem statement_keeps (valid : Valid programs tables) (reads : Reads) (knows : Knows programs tables session) :
    Keeps programs tables session (session.statement programs codes reads tables) := by
  cases session with
  | redeem account code channel stage => exact redeem_keeps valid reads knows
  | qualify key stage => exact qualify_keeps valid reads knows
  | prepare key stage => exact prepare_keeps valid reads knows
  | prepared key customerId effectKind => exact reads_only valid knows fun _ none => absurd none (List.not_mem_nil)
  | settle key customerId outcome from_ stage => exact settle_keeps valid knows
  | ended => exact ends_only valid _

end Statements

section Runs
variable {programs : List ReferralProgram} {codes : List ReferralCode} {world : ReferralWorld} {tables : ReferralTables} {account : Nat}

private theorem freeFor_nil (index : Nat) (sessions : List Session) : freeFor Session.locks index [] sessions = true := by
  unfold freeFor
  simp

private theorem after_kept (kept : (discipline programs).Kept world) (action : ReferralAction) :
    (discipline programs).Kept (action.after programs codes world) := by
  cases action with
  | redeem account code channel => exact kept.begun rfl trivial
  | qualify key => exact kept.begun rfl trivial
  | issue key => exact kept.begun rfl trivial
  | complete key =>
    simp only [ReferralAction.after]
    split
    · next reward found =>
      split
      · exact kept.begun rfl ⟨reward, found, rfl, trivial⟩
      · exact kept
    · exact kept
  | advance index reads =>
    simp only [ReferralAction.after, advanceSession]
    split
    · exact kept
    · next session found =>
      split
      · next free => exact kept.statement found free (statement_keeps kept.valid reads (kept.knows session (List.mem_of_getElem? found)))
      · exact kept
  | rollback index =>
    simp only [ReferralAction.after]
    split
    · exact kept
    · next session found =>
      exact kept.statement found (freeFor_nil index _) ⟨kept.valid, trivial, Changes.refl _ _, fun _ none => absurd none (List.not_mem_nil)⟩
  | defer key giveUp =>
    simp only [ReferralAction.after]
    split
    · next free =>
      unfold deferReward
      split
      · next pending =>
        obtain ⟨reward, found, status⟩ := (Option.any_eq_true _ _).mp pending.2
        rw [beq_iff_eq] at status
        have settled : Valid programs (world.store.settle key .pending .failed) :=
          @Valid.settle programs world.store kept.valid key reward.customerId .pending ⟨reward, found, rfl, status⟩ .failed (by simp)
        exact kept.alone free settled (settle_changes kept.valid .pending .failed (List.mem_singleton_self _))
      · exact kept
    · exact kept

theorem run_kept (kept : (discipline programs).Kept world) (actions : List ReferralAction) :
    (discipline programs).Kept (runReferrals programs codes world actions) := by
  unfold runReferrals
  induction actions generalizing world with
  | nil => exact kept
  | cons action rest ih => exact ih (after_kept kept action)

private theorem noReferrals_kept (programs : List ReferralProgram) : (discipline programs).Kept noReferrals where
  valid := {
    notSelf := by simp [noReferrals]
    keyed := by simp [noReferrals]
    rewardsKeyed := by simp [noReferrals]
    coded := by simp [noReferrals]
    codedOnce := by simp [noReferrals]
    settled := by simp [noReferrals]
    settledOnce := by simp [noReferrals]
    capped := by simp [noReferrals, ReferralTables.given] }
  knows := by simp [noReferrals]
  once := by simp [noReferrals]

/-- An account was referred by another one in a program, or a redemption that passed its cycle check is to record it. -/
def Taken (world : ReferralWorld) (programId account referrer : Nat) : Prop :=
  (∃ referral ∈ world.store.referrals, referral.key = ⟨programId, account⟩ ∧ referral.referrerCustomerId = referrer) ∨
  ∃ session ∈ world.sessions, session.checked = some (programId, account, referrer)

def Acyclic (world : ReferralWorld) : Prop :=
  ∀ programId account referrer, Taken world programId account referrer → ¬ Taken world programId referrer account

/-- A step that takes nothing new. -/
theorem Acyclic.kept (acyclic : Acyclic world) {next : ReferralWorld}
    (taken : ∀ programId account referrer, Taken next programId account referrer → Taken world programId account referrer) : Acyclic next :=
  fun programId account referrer here there =>
    acyclic programId account referrer (taken programId account referrer here) (taken programId referrer account there)

/-- A step that takes one pair which is not taken the other way round. -/
theorem Acyclic.checked (acyclic : Acyclic world) {next : ReferralWorld} {programId referrer : Nat} (apart : account ≠ referrer)
    (free : ¬ Taken world programId referrer account)
    (taken : ∀ program first second, Taken next program first second →
      Taken world program first second ∨ program = programId ∧ first = account ∧ second = referrer) : Acyclic next := by
  intro program first second here there
  rcases taken program first second here with old | ⟨rfl, rfl, rfl⟩
  · rcases taken program second first there with also | ⟨rfl, rfl, rfl⟩
    · exact acyclic program first second old also
    · exact free old
  · rcases taken program second first there with also | ⟨-, same, -⟩
    · exact free also
    · exact apart same.symm

private theorem insertRewards_referrals (tables : ReferralTables) (rewards : List ReferralReward) :
    (rewards.foldl ReferralTables.insertReward tables).referrals = tables.referrals := by
  induction rewards generalizing tables with
  | nil => rfl
  | cons reward rest ih =>
    rw [List.foldl_cons, ih]
    unfold ReferralTables.insertReward
    split <;> rfl

section
variable (reads : Reads) {channel : Promotions.PromotionChannel}
include reads

/-- Before its last statement a redemption only reads. -/
private theorem redeemCode_reads {code : Nat}
    {stage : RedeemStage} (open_ : ∀ referral rewards, stage ≠ .recorded referral rewards) :
    (redeemCode programs codes account code channel reads tables stage).1 = tables := by
  cases stage with
  | recorded referral rewards => exact absurd rfl (open_ referral rewards)
  | _ => grind [redeemCode]

private theorem qualifyReferral_reads {key : ReferralKey}
    (open_ : ∀ rewards, stage ≠ .earned rewards) : (qualifyReferral programs key reads tables stage).1 = tables := by
  cases stage with
  | earned rewards => exact absurd rfl (open_ rewards)
  | _ => grind [qualifyReferral]

private theorem prepareReward_referrals {key : RewardKey} {stage : PrepareStage} :
    (prepareReward programs key reads tables stage).1.referrals = tables.referrals := by
  cases stage with
  | minted customerId program code => rfl
  | stopped customerId outcome => rfl
  | _ => grind [prepareReward]

/-- A referral after a statement was there before, or is the one that the session was to record. -/
private theorem statement_referrals {referral : Referral}
    (member : referral ∈ (session.statement programs codes reads tables).1.referrals) :
    (∃ old ∈ tables.referrals, old.key = referral.key ∧ old.referrerCustomerId = referral.referrerCustomerId) ∨
      session.checked = some (referral.key.programId, referral.key.customerId, referral.referrerCustomerId) := by
  have stays (inside : referral ∈ tables.referrals) : ∃ old ∈ tables.referrals, old.key = referral.key ∧
      old.referrerCustomerId = referral.referrerCustomerId := ⟨referral, inside, rfl, rfl⟩
  cases session with
  | redeem account code channel stage =>
    cases stage with
    | recorded recorded rewards =>
      simp only [Session.statement, redeemCode, insertRewards_referrals] at member
      rcases List.mem_append.mp member with old | new
      · exact .inl (stays old)
      · rw [List.mem_singleton.mp new]
        exact .inr rfl
    | _ =>
      rw [Session.statement, redeemCode_reads reads (by simp)] at member
      exact .inl (stays member)
  | qualify key stage =>
    cases stage with
    | earned rewards =>
      simp only [Session.statement, qualifyReferral, insertRewards_referrals] at member
      obtain ⟨old, inside, ⟨-, rfl⟩ | ⟨-, rfl⟩⟩ := mem_updateAt.mp member
      · exact .inl ⟨old, inside, rfl, rfl⟩
      · exact .inl (stays inside)
    | _ =>
      rw [Session.statement, qualifyReferral_reads reads (by simp)] at member
      exact .inl (stays member)
  | prepare key stage =>
    rw [Session.statement, prepareReward_referrals] at member
    exact .inl (stays member)
  | prepared key customerId effectKind => exact .inl (stays member)
  | settle key customerId outcome from_ stage =>
    cases stage with
    | written settled => cases settled <;> exact .inl (stays member)
    | _ => exact .inl (stays member)
  | ended => exact .inl (stays member)

private theorem redeemCode_checked {code : Nat}
    {stage : RedeemStage} {pair : Nat × Nat × Nat} (away : ∀ resolved, stage ≠ .unmatched resolved)
    (checked : (redeemCode programs codes account code channel reads tables stage).2.checked = some pair) :
    Session.checked (.redeem account code channel stage) = some pair := by
  cases stage with
  | unmatched resolved => exact absurd rfl (away resolved)
  | unpaid resolved =>
    simp only [redeemCode] at checked
    split at checked
    · cases checked
    · next program found =>
      have named : program.id = resolved.programId := (findAt_inv found).2
      split_ifs at checked
      · cases checked
      · rw [← checked]
        simp only [Session.checked, newReferral, named]
  | _ => grind [redeemCode, Session.checked]

private theorem qualifyReferral_checked {key : ReferralKey} :
    (qualifyReferral programs key reads tables stage).2.checked = none := by
  cases stage <;> grind [qualifyReferral, Session.checked]

private theorem prepareReward_checked {key : RewardKey} {stage : PrepareStage} :
    (prepareReward programs key reads tables stage).2.checked = none := by
  cases stage <;> grind [prepareReward, Session.checked]

/-- A session that passed its cycle check was past it before, or passed it with this statement. -/
private theorem statement_checked {pair : Nat × Nat × Nat}
    (checked : (session.statement programs codes reads tables).2.checked = some pair) :
    session.checked = some pair ∨ ∃ account code channel resolved, session = .redeem account code channel (.unmatched resolved) ∧
      pair = (resolved.programId, account, resolved.customerId) ∧
      ∀ referral ∈ tables.referrals, referral.key = ⟨resolved.programId, resolved.customerId⟩ → referral.referrerCustomerId ≠ account := by
  cases session with
  | redeem account code channel stage =>
    cases stage with
    | unmatched resolved =>
      simp only [Session.statement, redeemCode] at checked
      split_ifs at checked with cycle
      · cases checked
      · refine .inr ⟨account, code, channel, resolved, rfl, (Option.some.inj checked).symm, ?_⟩
        intro referral member named referrer
        exact cycle (List.any_eq_true.mpr ⟨referral, member, by simp [named, referrer]⟩)
    | _ => exact .inl (@redeemCode_checked programs codes tables account reads channel code _ pair (by simp) checked)
  | qualify key stage =>
    rw [Session.statement, qualifyReferral_checked] at checked
    cases checked
  | prepare key stage =>
    rw [Session.statement, prepareReward_checked] at checked
    cases checked
  | prepared key customerId effectKind => cases checked
  | settle key customerId outcome from_ stage => cases stage <;> cases checked
  | ended => cases checked

end

private theorem taken_append {programId referrer : Nat} {sessions : List Session} {store : ReferralTables}
    (unchecked : session.checked = none) (taken : Taken ⟨store, sessions ++ [session]⟩ programId account referrer) :
    Taken ⟨store, sessions⟩ programId account referrer := by
  rcases taken with row | ⟨other, member, checked⟩
  · exact .inl row
  · rcases List.mem_append.mp member with old | new
    · exact .inr ⟨other, old, checked⟩
    · rw [List.mem_singleton.mp new, unchecked] at checked
      cases checked

private theorem taken_statement {index : Nat} (found : world.sessions[index]? = some session) (reads : Reads) {programId referrer : Nat}
    (taken : Taken ⟨(session.statement programs codes reads world.store).1,
      world.sessions.set index (session.statement programs codes reads world.store).2⟩ programId account referrer) :
    Taken world programId account referrer ∨ ∃ code channel resolved, session = .redeem account code channel (.unmatched resolved) ∧
      resolved.programId = programId ∧ resolved.customerId = referrer ∧
      ∀ referral ∈ world.store.referrals, referral.key = ⟨programId, referrer⟩ → referral.referrerCustomerId ≠ account := by
  have inside := List.mem_of_getElem? found
  rcases taken with ⟨referral, member, named, by_⟩ | ⟨other, member, checked⟩
  · rcases statement_referrals reads member with ⟨old, there, sameKey, sameReferrer⟩ | recorded
    · exact .inl (.inl ⟨old, there, sameKey.trans named, sameReferrer.trans by_⟩)
    · rw [named, by_] at recorded
      exact .inl (.inr ⟨session, inside, recorded⟩)
  · rcases List.mem_or_eq_of_mem_set member with old | rfl
    · exact .inl (.inr ⟨other, old, checked⟩)
    · rcases statement_checked reads checked with before | ⟨by_, code, channel, resolved, rfl, pair, negative⟩
      · exact .inl (.inr ⟨session, inside, before⟩)
      · simp only [Prod.mk.injEq] at pair
        obtain ⟨rfl, rfl, rfl⟩ := pair
        exact .inr ⟨code, channel, resolved, rfl, rfl, rfl, negative⟩

/-- No step but an overlapping cycle check lets two accounts refer each other. -/
private theorem after_acyclic (kept : (discipline programs).Kept world) (acyclic : Acyclic world) {action : ReferralAction}
    (apart : overlaps world action = false) : Acyclic (action.after programs codes world) := by
  cases action with
  | redeem account code channel => exact acyclic.kept fun _ _ _ taken => taken_append rfl taken
  | qualify key => exact acyclic.kept fun _ _ _ taken => taken_append rfl taken
  | issue key => exact acyclic.kept fun _ _ _ taken => taken_append rfl taken
  | complete key =>
    simp only [ReferralAction.after]
    split
    · split
      · exact acyclic.kept fun _ _ _ taken => taken_append rfl taken
      · exact acyclic
    · exact acyclic
  | advance index reads =>
    simp only [ReferralAction.after, advanceSession]
    split
    · exact acyclic
    · next session found =>
      split
      · by_cases checks : ∃ account code channel resolved, session = .redeem account code channel (.unmatched resolved) ∧
            ∀ referral ∈ world.store.referrals, referral.key = ⟨resolved.programId, resolved.customerId⟩ → referral.referrerCustomerId ≠ account
        · obtain ⟨account, code, channel, resolved, rfl, negative⟩ := checks
          have unreferred := kept.knows _ (List.mem_of_getElem? found)
          apply acyclic.checked (Ne.symm unreferred.1)
          · rintro (⟨referral, member, named, by_⟩ | ⟨session, member, checked⟩)
            · exact negative referral member named by_
            · have alone : (world.sessions.any fun session => session.checked == some (resolved.programId, resolved.customerId, account)) = false := by
                simpa only [overlaps, found] using apart
              exact List.any_eq_false.mp alone session member (by rw [checked]; exact beq_self_eq_true _)
          · intro program first second taken
            rcases taken_statement found reads taken with old | ⟨_, _, _, same, rfl, rfl, -⟩
            · exact .inl old
            · obtain ⟨rfl, -, -, rfl⟩ : account = first ∧ _ ∧ _ ∧ _ := by simpa using same
              exact .inr ⟨rfl, rfl, rfl⟩
        · apply acyclic.kept
          intro program first second taken
          rcases taken_statement found reads taken with old | ⟨code, channel, resolved, same, rfl, rfl, negative⟩
          · exact old
          · exact absurd ⟨first, code, channel, resolved, same, negative⟩ checks
      · exact acyclic
  | rollback index =>
    simp only [ReferralAction.after]
    split
    · exact acyclic
    · apply acyclic.kept
      rintro program first second (row | ⟨session, member, checked⟩)
      · exact .inl row
      · rcases List.mem_or_eq_of_mem_set member with old | rfl
        · exact .inr ⟨session, old, checked⟩
        · cases checked
  | defer key giveUp =>
    simp only [ReferralAction.after]
    split
    · unfold deferReward
      split <;> exact acyclic
    · exact acyclic

private theorem run_acyclic (kept : (discipline programs).Kept world) (acyclic : Acyclic world) {actions : List ReferralAction}
    (never : neverOverlaps programs codes world actions = true) : Acyclic (runReferrals programs codes world actions) := by
  unfold runReferrals
  induction actions generalizing world with
  | nil => exact acyclic
  | cons action rest ih =>
    rw [neverOverlaps, Bool.and_eq_true, Bool.not_eq_true'] at never
    exact ih (after_kept kept action) (after_acyclic kept acyclic never.1) never.2

private theorem safe_of_kept (kept : (discipline programs).Kept world) (acyclic : Acyclic world) : world.store.Safe programs where
  notSelf := kept.valid.notSelf
  notMutual := by
    intro first here second there same forward backward
    refine acyclic first.key.programId first.key.customerId first.referrerCustomerId (.inl ⟨first, here, rfl, rfl⟩)
      (.inl ⟨second, there, ?_, backward⟩)
    rw [same, forward]
  once := fun programId customerId => @countP_key _ _ _ _ Referral.key kept.valid.keyed _ ⟨programId, customerId⟩
    fun row holds => by
      simp only [Bool.and_eq_true, beq_iff_eq] at holds
      rw [← holds.1, ← holds.2]
  oneCode := fun key => @countP_key _ _ _ _ RewardCode.reward kept.valid.codedOnce _ key fun row holds => eq_of_beq holds
  settledOnce := fun key => List.nodup_iff_count_le_one.mp kept.valid.settledOnce key
  capped := kept.valid.capped

end Runs

/-- Referrals and rewards are safe in every interleaving in which no two accounts redeem each other's codes with both cycle
checks made before either redemption ends. -/
theorem referrals_safe (programs : List ReferralProgram) (codes : List ReferralCode) (actions : List ReferralAction)
    (never : neverOverlaps programs codes noReferrals actions = true) :
    (runReferrals programs codes noReferrals actions).store.Safe programs := by
  have none : Acyclic noReferrals := by
    rintro programId account referrer (⟨referral, member, -⟩ | ⟨session, member, -⟩) <;> cases member
  exact safe_of_kept (run_kept (noReferrals_kept programs) actions) (run_acyclic (noReferrals_kept programs) none never)

def friendProgram : ReferralProgram where
  id := 1
  trigger := .redemption
  recipient := .both
  effectKind := .featureGrant
  maxRewardsPerReferrer := some 1

def friendCodes : List ReferralCode :=
  [⟨10, 1, 100⟩, ⟨20, 1, 200⟩]

def usual (giftCode : Nat) : Reads where
  programActive := true
  hasPaid := false
  erased := false
  promotionActive := true
  giftCode := giftCode
  redeemed := .issued

def steps (count session giftCode : Nat) : List ReferralAction :=
  List.replicate count (.advance session (usual giftCode))

/-- A redemption whose reward two workers prepare at once, with the reverse code tried after it ended. -/
theorem referrals_safe_rewarded :
    (runReferrals [friendProgram] friendCodes noReferrals
      ([.redeem 200 10 .web] ++ steps 7 0 0 ++ [.issue ⟨⟨1, 200⟩, .referrer⟩, .issue ⟨⟨1, 200⟩, .referrer⟩, .redeem 100 20 .web] ++
        steps 2 1 5 ++ steps 2 2 5 ++ steps 8 1 5 ++ steps 8 2 6 ++ steps 7 3 0)).store.Safe [friendProgram] :=
  referrals_safe [friendProgram] friendCodes _ (by decide)

/-- Two accounts that redeem each other's codes at once both pass the cycle check. -/
theorem reciprocal_redemptions :
    ¬ (runReferrals [friendProgram] friendCodes noReferrals
      ([.redeem 200 10 .web, .redeem 100 20 .web] ++ steps 4 0 0 ++ steps 4 1 0 ++ steps 3 0 0 ++ steps 3 1 0)).store.Safe
        [friendProgram] := by
  intro safe
  have mutual_ := safe.notMutual ⟨⟨1, 200⟩, 100, .qualified⟩ (by decide) ⟨⟨1, 100⟩, 200, .qualified⟩ (by decide) rfl rfl
  exact mutual_ rfl

end Quotum.Referrals
