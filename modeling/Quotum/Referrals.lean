import Quotum.General.Locks
import Quotum.General.Lookup
import Quotum.Promotions

/-! Referral programs under concurrency: redemptions of referral codes, qualifications, and rewards prepared, redeemed and
settled, statement by statement, in transactions at read-committed isolation. A row that a transaction wrote is seen by the
others once it commits. -/

namespace Quotum.Referrals
open General

inductive ReferralTrigger where
  | redemption
  | firstPayment
  deriving DecidableEq

inductive ReferralRecipient where
  | referrer
  | both
  deriving DecidableEq

inductive PromotionEffectKind where
  | discount
  | featureGrant
  | planGrant
  deriving DecidableEq

structure ReferralProgram where
  id : Nat
  trigger : ReferralTrigger
  recipient : ReferralRecipient
  effectKind : PromotionEffectKind
  maxRewardsPerReferrer : Option Nat
  deriving DecidableEq

structure ReferralCode where
  code : Nat
  programId : Nat
  customerId : Nat
  deriving DecidableEq

inductive ReferralStatus where
  | pending
  | qualified
  deriving DecidableEq

structure ReferralKey where
  programId : Nat
  customerId : Nat
  deriving DecidableEq

structure Referral where
  key : ReferralKey
  referrerCustomerId : Nat
  status : ReferralStatus
  deriving DecidableEq

inductive ReferralRole where
  | referrer
  | referee
  deriving DecidableEq

structure RewardKey where
  referral : ReferralKey
  recipient : ReferralRole
  deriving DecidableEq

inductive ReferralRewardStatus where
  | pending
  | issued
  | held
  | skipped
  | failed
  deriving DecidableEq

structure ReferralReward where
  key : RewardKey
  customerId : Nat
  status : ReferralRewardStatus
  promotionCodeId : Option Nat
  deriving DecidableEq

structure RewardCode where
  id : Nat
  reward : RewardKey
  deriving DecidableEq

/-- What is committed, with every settlement that took a reward out of `pending`. -/
structure ReferralTables where
  referrals : List Referral
  rewards : List ReferralReward
  rewardCodes : List RewardCode
  settlements : List RewardKey
  deriving DecidableEq

inductive RewardOutcome where
  | issued
  | held (reason : String)
  | skipped (reason : String)
  | failed (reason : String)
  deriving DecidableEq

def RewardOutcome.status : RewardOutcome → ReferralRewardStatus
  | .issued => .issued
  | .held _ => .held
  | .skipped _ => .skipped
  | .failed _ => .failed

inductive SettledFrom where
  | pending
  | held
  deriving DecidableEq

def SettledFrom.status : SettledFrom → ReferralRewardStatus
  | .pending => .pending
  | .held => .held

inductive RedeemStage where
  | begun
  | locked
  | resolved (code : ReferralCode)
  | unmatched (code : ReferralCode)
  | acyclic (code : ReferralCode)
  | unpaid (code : ReferralCode)
  | recorded (referral : Referral) (rewards : List ReferralReward)
  deriving DecidableEq

inductive QualifyStage where
  | begun
  | locked
  | read (referral : Referral)
  | earned (rewards : List ReferralReward)
  deriving DecidableEq

inductive PrepareStage where
  | begun
  | found (customerId : Nat)
  | locked (customerId : Nat)
  | uncounted (customerId : Nat) (program : ReferralProgram)
  | allowed (customerId : Nat) (program : ReferralProgram)
  | minted (customerId : Nat) (program : ReferralProgram) (code : RewardCode)
  | coded (customerId : Nat) (program : ReferralProgram)
  | stopped (customerId : Nat) (outcome : RewardOutcome)
  deriving DecidableEq

inductive SettleStage where
  | begun
  | locked
  | written (settled : Bool)
  deriving DecidableEq

inductive Session where
  | redeem (account code : Nat) (channel : Promotions.PromotionChannel) (stage : RedeemStage)
  | qualify (key : ReferralKey) (stage : QualifyStage)
  | prepare (key : RewardKey) (stage : PrepareStage)
  | prepared (key : RewardKey) (customerId : Nat) (effectKind : PromotionEffectKind)
  | settle (key : RewardKey) (customerId : Nat) (outcome : RewardOutcome) (from_ : SettledFrom) (stage : SettleStage)
  | ended
  deriving DecidableEq

/-- Rows that a transaction locks until its end. -/
inductive RowLock where
  | customer (id : Nat)
  | referral (key : ReferralKey)
  | reward (key : RewardKey)
  deriving DecidableEq

structure Reads where
  programActive : Bool
  hasPaid : Bool
  erased : Bool
  promotionActive : Bool
  giftCode : Nat
  redeemed : RewardOutcome
  deriving DecidableEq

def RedeemStage.locks (account : Nat) : RedeemStage → List RowLock
  | .begun => []
  | _ => [.customer account]

def QualifyStage.locks (key : ReferralKey) : QualifyStage → List RowLock
  | .begun => []
  | .locked => [.customer key.customerId]
  | _ => [.customer key.customerId, .referral key]

def PrepareStage.locks (key : RewardKey) : PrepareStage → List RowLock
  | .begun | .found _ => []
  | .locked customerId => [.customer customerId]
  | .uncounted customerId _ | .allowed customerId _ | .minted customerId _ _ | .coded customerId _ | .stopped customerId _ =>
    [.customer customerId, .reward key]

def SettleStage.locks (key : RewardKey) (customerId : Nat) : SettleStage → List RowLock
  | .begun => []
  | .locked => [.customer customerId]
  | .written _ => [.customer customerId, .reward key]

def Session.locks : Session → List RowLock
  | .redeem account _ _ stage => stage.locks account
  | .qualify key stage => stage.locks key
  | .prepare key stage => stage.locks key
  | .prepared _ _ _ => []
  | .settle key customerId _ _ stage => stage.locks key customerId
  | .ended => []

def Session.wants : Session → List RowLock
  | .redeem account _ _ .begun => [.customer account]
  | .qualify key .begun => [.customer key.customerId]
  | .qualify key .locked => [.referral key]
  | .prepare _ (.found customerId) => [.customer customerId]
  | .prepare key (.locked _) => [.reward key]
  | .settle _ customerId _ _ .begun => [.customer customerId]
  | .settle key _ _ _ .locked => [.reward key]
  | _ => []

namespace ReferralTables

def reward (key : RewardKey) (tables : ReferralTables) : Option ReferralReward :=
  findAt ReferralReward.key key tables.rewards

def given (customerId programId : Nat) (tables : ReferralTables) : Nat :=
  tables.rewards.countP fun reward => reward.customerId == customerId && reward.key.recipient == .referrer &&
    reward.promotionCodeId.isSome && reward.key.referral.programId == programId

def insertReward (tables : ReferralTables) (reward : ReferralReward) : ReferralTables :=
  if (tables.reward reward.key).isSome then tables else { tables with rewards := tables.rewards ++ [reward] }

def insertReferral (referral : Referral) (tables : ReferralTables) : ReferralTables :=
  { tables with referrals := tables.referrals ++ [referral] }

def qualify (key : ReferralKey) (tables : ReferralTables) : ReferralTables :=
  { tables with referrals := updateAt Referral.key key (fun referral => { referral with status := .qualified }) tables.referrals }

def writeRewardOutcome (key : RewardKey) (status : ReferralRewardStatus) (tables : ReferralTables) : ReferralTables :=
  { tables with rewards := updateAt ReferralReward.key key (fun reward => { reward with status := status }) tables.rewards }

def settle (key : RewardKey) (from_ : SettledFrom) (status : ReferralRewardStatus) (tables : ReferralTables) : ReferralTables :=
  { tables.writeRewardOutcome key status with
    settlements := if from_ = .pending then tables.settlements ++ [key] else tables.settlements }

def mint (code : RewardCode) (tables : ReferralTables) : ReferralTables :=
  { tables with
    rewardCodes := tables.rewardCodes ++ [code]
    rewards := updateAt ReferralReward.key code.reward (fun reward => { reward with promotionCodeId := some code.id }) tables.rewards }

end ReferralTables

def createReward (referral : ReferralKey) (recipient : ReferralRole) (customerId : Nat) : ReferralReward where
  key := ⟨referral, recipient⟩
  customerId := customerId
  status := .pending
  promotionCodeId := none

def createRewards (referral : ReferralKey) (referrerCustomerId : Nat) (recipient : ReferralRecipient) : List ReferralReward :=
  createReward referral .referrer referrerCustomerId ::
    if recipient = .both then [createReward referral .referee referral.customerId] else []

def redemptionRewards (program : ReferralProgram) (referral : Referral) : List ReferralReward :=
  if program.trigger = .redemption then createRewards referral.key referral.referrerCustomerId program.recipient
  else if program.recipient = .both ∧ program.effectKind = .discount then
    [createReward referral.key .referee referral.key.customerId]
  else []

def newReferral (program : ReferralProgram) (account referrer : Nat) : Referral where
  key := ⟨program.id, account⟩
  referrerCustomerId := referrer
  status := if program.trigger = .redemption then .qualified else .pending

section Statements
variable (programs : List ReferralProgram) (codes : List ReferralCode)

def findProgram (id : Nat) : Option ReferralProgram :=
  findAt ReferralProgram.id id programs

def redeemCode (account code : Nat) (channel : Promotions.PromotionChannel) (reads : Reads) (tables : ReferralTables) :
    RedeemStage → ReferralTables × Session
  | .begun => (tables, .redeem account code channel .locked)
  | .locked =>
    match findAt ReferralCode.code code codes with
    | none => (tables, .ended)
    | some resolved => (tables, .redeem account code channel (.resolved resolved))
  | .resolved resolved =>
    if (findAt Referral.key ⟨resolved.programId, account⟩ tables.referrals).isSome then (tables, .ended)
    else if resolved.customerId = account then (tables, .ended)
    else if !reads.programActive then (tables, .ended)
    else if channel = .ios ∧ (findProgram programs resolved.programId).any (fun program => program.recipient == .both) then
      (tables, .ended)
    else (tables, .redeem account code channel (.unmatched resolved))
  | .unmatched resolved =>
    if tables.referrals.any fun referral => referral.key == ⟨resolved.programId, resolved.customerId⟩ &&
        referral.referrerCustomerId == account then (tables, .ended)
    else (tables, .redeem account code channel (.acyclic resolved))
  | .acyclic resolved =>
    if reads.hasPaid then (tables, .ended) else (tables, .redeem account code channel (.unpaid resolved))
  | .unpaid resolved =>
    match findProgram programs resolved.programId with
    | none => (tables, .ended)
    | some program =>
      let referral := newReferral program account resolved.customerId
      if (findAt Referral.key referral.key tables.referrals).isSome then (tables, .ended)
      else (tables, .redeem account code channel (.recorded referral (redemptionRewards program referral)))
  | .recorded referral rewards => (rewards.foldl ReferralTables.insertReward (tables.insertReferral referral), .ended)

def qualifyReferral (key : ReferralKey) (reads : Reads) (tables : ReferralTables) : QualifyStage → ReferralTables × Session
  | .begun => (tables, .qualify key .locked)
  | .locked =>
    match findAt Referral.key key tables.referrals with
    | none => (tables, .ended)
    | some referral => (tables, .qualify key (.read referral))
  | .read referral =>
    match findProgram programs key.programId with
    | none => (tables, .ended)
    | some program =>
      if referral.status = .pending ∧ !reads.erased ∧ reads.hasPaid then
        (tables, .qualify key (.earned (createRewards key referral.referrerCustomerId program.recipient)))
      else (tables, .ended)
  | .earned rewards => (rewards.foldl ReferralTables.insertReward (tables.qualify key), .ended)

/-- The next statement of preparing a reward: it ends with a code to redeem, or with nothing left to do. -/
def prepareReward (key : RewardKey) (reads : Reads) (tables : ReferralTables) : PrepareStage → ReferralTables × Session
  | .begun =>
    match tables.reward key with
    | none => (tables, .ended)
    | some reward => (tables, .prepare key (.found reward.customerId))
  | .found customerId => (tables, .prepare key (.locked customerId))
  | .locked customerId =>
    match tables.reward key, findProgram programs key.referral.programId with
    | some reward, some program =>
      if reward.status ≠ .pending then (tables, .ended)
      else if reads.erased then (tables, .prepare key (.stopped customerId (.skipped "RECIPIENT_ERASED")))
      else if reward.promotionCodeId.isSome then (tables, .prepare key (.coded customerId program))
      else if !reads.promotionActive then (tables, .prepare key (.stopped customerId (.failed "PROMOTION_ARCHIVED")))
      else if key.recipient = .referrer ∧ program.maxRewardsPerReferrer.isSome then
        (tables, .prepare key (.uncounted customerId program))
      else (tables, .prepare key (.allowed customerId program))
    | _, _ => (tables, .ended)
  | .uncounted customerId program =>
    if program.maxRewardsPerReferrer.any fun cap => decide (cap ≤ tables.given customerId program.id) then
      (tables, .prepare key (.stopped customerId (.skipped "REFERRER_LIMIT_REACHED")))
    else (tables, .prepare key (.allowed customerId program))
  | .allowed customerId program =>
    if tables.rewardCodes.any fun code => code.id == reads.giftCode then (tables, .prepare key (.allowed customerId program))
    else (tables, .prepare key (.minted customerId program ⟨reads.giftCode, key⟩))
  | .minted customerId program code => (tables.mint code, .prepared key customerId program.effectKind)
  | .coded customerId program => (tables, .prepared key customerId program.effectKind)
  | .stopped _ outcome => (tables.settle key .pending outcome.status, .ended)

/-- What redeeming the code of a reward comes to. A discount is only held. -/
def redeemReward (effectKind : PromotionEffectKind) (reads : Reads) : RewardOutcome :=
  if effectKind = .discount then .held "DISCOUNT_CODE" else reads.redeemed

/-- The next statement of a settlement, which counts only from the status it moves. -/
def settleReward (key : RewardKey) (customerId : Nat) (outcome : RewardOutcome) (from_ : SettledFrom) (tables : ReferralTables) :
    SettleStage → ReferralTables × Session
  | .begun => (tables, .settle key customerId outcome from_ .locked)
  | .locked =>
    (tables, .settle key customerId outcome from_
      (.written ((tables.reward key).any fun reward => reward.status == from_.status)))
  | .written settled => (if settled then tables.settle key from_ outcome.status else tables, .ended)

def Session.statement (reads : Reads) (tables : ReferralTables) : Session → ReferralTables × Session
  | .redeem account code channel stage => redeemCode programs codes account code channel reads tables stage
  | .qualify key stage => qualifyReferral programs key reads tables stage
  | .prepare key stage => prepareReward programs key reads tables stage
  | .prepared key customerId effectKind => (tables, .settle key customerId (redeemReward effectKind reads) .pending .begun)
  | .settle key customerId outcome from_ stage => settleReward key customerId outcome from_ tables stage
  | .ended => (tables, .ended)

inductive ReferralAction where
  | redeem (account code : Nat) (channel : Promotions.PromotionChannel)
  | qualify (key : ReferralKey)
  | issue (key : RewardKey)
  | complete (key : RewardKey)
  | advance (session : Nat) (reads : Reads)
  | rollback (session : Nat)
  | defer (key : RewardKey) (giveUp : Bool)
  deriving DecidableEq

abbrev ReferralWorld := Served ReferralTables Session

/-- Runs the next statement of a session, unless a row it locks is locked by another one. -/
def advanceSession (world : ReferralWorld) (index : Nat) (reads : Reads) : ReferralWorld :=
  match world.sessions[index]? with
  | none => world
  | some session =>
    if freeFor Session.locks index session.wants world.sessions then
      let result := session.statement programs codes reads world.store
      ⟨result.1, world.sessions.set index result.2⟩
    else world

def deferReward (key : RewardKey) (giveUp : Bool) (tables : ReferralTables) : ReferralTables :=
  if giveUp ∧ (tables.reward key).any (fun reward => reward.status == .pending) then tables.settle key .pending .failed else tables

def ReferralAction.after (world : ReferralWorld) : ReferralAction → ReferralWorld
  | .redeem account code channel => ⟨world.store, world.sessions ++ [.redeem account code channel .begun]⟩
  | .qualify key => ⟨world.store, world.sessions ++ [.qualify key .begun]⟩
  | .issue key => ⟨world.store, world.sessions ++ [.prepare key .begun]⟩
  | .complete key =>
    match world.store.reward key with
    | some reward =>
      if reward.status = .held then ⟨world.store, world.sessions ++ [.settle key reward.customerId .issued .held .begun]⟩ else world
    | none => world
  | .advance index reads => advanceSession programs codes world index reads
  | .rollback index =>
    match world.sessions[index]? with
    | none => world
    | some _ => ⟨world.store, world.sessions.set index .ended⟩
  | .defer key giveUp =>
    if freeFor Session.locks world.sessions.length [.reward key] world.sessions then
      ⟨deferReward key giveUp world.store, world.sessions⟩
    else world

/-- What any clients and workers reach, in any order of their statements. -/
def runReferrals (world : ReferralWorld) (actions : List ReferralAction) : ReferralWorld :=
  actions.foldl (ReferralAction.after programs codes) world

end Statements

def noReferrals : ReferralWorld :=
  ⟨⟨[], [], [], []⟩, []⟩

def Session.checked : Session → Option (Nat × Nat × Nat)
  | .redeem account _ _ (.acyclic code) | .redeem account _ _ (.unpaid code) => some (code.programId, account, code.customerId)
  | .redeem _ _ _ (.recorded referral _) => some (referral.key.programId, referral.key.customerId, referral.referrerCustomerId)
  | _ => none

/-- Whether a step makes a redemption's cycle check while another session, past its own check and not ended, redeems the other
way round. -/
def overlaps (world : ReferralWorld) : ReferralAction → Bool
  | .advance index _ =>
    match world.sessions[index]? with
    | some (.redeem account _ _ (.unmatched code)) =>
      world.sessions.any fun session => session.checked == some (code.programId, code.customerId, account)
    | _ => false
  | _ => false

/-- A run without such a step. -/
def neverOverlaps (programs : List ReferralProgram) (codes : List ReferralCode) : ReferralWorld → List ReferralAction → Bool
  | _, [] => true
  | world, action :: rest => !overlaps world action && neverOverlaps programs codes (action.after programs codes world) rest

structure ReferralTables.Safe (programs : List ReferralProgram) (tables : ReferralTables) : Prop where
  notSelf : ∀ referral ∈ tables.referrals, referral.referrerCustomerId ≠ referral.key.customerId
  notMutual : ∀ first ∈ tables.referrals, ∀ second ∈ tables.referrals, first.key.programId = second.key.programId →
    first.referrerCustomerId = second.key.customerId → second.referrerCustomerId ≠ first.key.customerId
  once : ∀ programId customerId,
    (tables.referrals.countP fun referral => referral.key.programId == programId && referral.key.customerId == customerId) ≤ 1
  oneCode : ∀ key, (tables.rewardCodes.countP fun code => code.reward == key) ≤ 1
  settledOnce : ∀ key, tables.settlements.count key ≤ 1
  capped : ∀ programId, ∀ program ∈ findProgram programs programId, ∀ cap ∈ program.maxRewardsPerReferrer,
    ∀ customerId, tables.given customerId programId ≤ cap

end Quotum.Referrals
