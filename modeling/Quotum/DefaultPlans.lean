import Quotum.ResetAllocations
import Quotum.General.Newest

/-! The default plan of one account: the grant that a write reconciles with the catalog, and the allowances of one feature that
writes open in the grant's reset windows. -/

namespace Quotum.DefaultPlans
open General Cadences ResetAllocations

structure DefaultPlanTarget where
  planVersionId : Nat
  entitlementKeys : List Text
  deriving DecidableEq

inductive PlanGrantStatus where
  | active
  | superseded
  | ended
  deriving DecidableEq

structure DefaultGrant where
  id : Nat
  planVersionId : Nat
  entitlementKeys : List Text
  startsAt : Int
  status : PlanGrantStatus
  deriving DecidableEq

/-- What else an account holds as its base plan: nothing, a funding subscription or a running base grant, or a base grant past
its end that is not recorded as expired yet. -/
inductive BasePlan where
  | none
  | held
  | elapsed
  deriving DecidableEq

structure GrantItem where
  id : Nat
  quantity : Nat
  reset : Option Cadence
  expiry : Expiry
  deriving DecidableEq

/-- The unique key of an allowance: its grant, its item and where its window starts, if the item resets. -/
structure WindowKey where
  grantId : Nat
  planItemId : Nat
  start : Option Int
  deriving DecidableEq

structure WindowAllowance where
  id : Nat
  grantId : Nat
  item : GrantItem
  sourceKey : WindowKey
  quantity : Nat
  consumed : Nat
  periodStart : Int
  periodEnd : Option Int
  expiresAt : Option Int
  deriving DecidableEq

structure DefaultAccount where
  clock : Int
  target : Option DefaultPlanTarget
  base : BasePlan
  grants : List DefaultGrant
  allowances : List WindowAllowance
  deriving DecidableEq

inductive DefaultPlanChange where
  | started
  | moved
  | superseded
  | ended
  deriving DecidableEq

def resetWindow (anchor : Int) (reset : Option Cadence) (now : Int) : Bounds :=
  match reset with
  | none => ⟨anchor, none⟩
  | some cadence => planGrantWindowBounds ⟨anchor, none⟩ cadence now

/-- When an allowance that starts at an instant of a window expires. It never outlives the window. -/
def allowanceExpiresAt (item : GrantItem) (start : Int) (ending : Option Int) : Option Int :=
  match storedExpiresAt start item.expiry with
  | none => ending
  | some expiry => if ending.any (fun last => decide (last < expiry)) = true then ending else some expiry

namespace WindowAllowance

def live (now : Int) (row : WindowAllowance) : Bool :=
  row.expiresAt.all fun expiry => decide (now < expiry)

/-- Whether the reset window that gave an allowance is not over. -/
def running (now : Int) (row : WindowAllowance) : Bool :=
  row.periodEnd.all fun ending => decide (now < ending)

def expire (now : Int) (row : WindowAllowance) : WindowAllowance :=
  if row.live now then { row with expiresAt := some now } else row

/-- The move to the item of another version on the same reset. -/
def keep (item : GrantItem) (now : Int) (row : WindowAllowance) : WindowAllowance :=
  if row.live now = true ∧ row.item.reset = item.reset then { row with item := item } else row

/-- The move to the grant that replaces an earlier one, in a window still running. -/
def resume (fromGrantId toGrantId : Nat) (item : GrantItem) (now : Int) (row : WindowAllowance) : WindowAllowance :=
  if row.grantId = fromGrantId ∧ row.periodStart ≤ now ∧ row.running now = true ∧ row.item.reset = item.reset then
    { row with grantId := toGrantId, item := item, expiresAt := least row.periodEnd (storedExpiresAt row.periodStart item.expiry) }
  else row

def reopen (item : GrantItem) (expiresAt : Option Int) (now : Int) (row : WindowAllowance) : WindowAllowance :=
  if row.live now then row else { row with item := item, expiresAt := expiresAt }

def consume (amount : Nat) (now : Int) (row : WindowAllowance) : WindowAllowance :=
  if row.live now = true ∧ row.consumed + amount ≤ row.quantity then { row with consumed := row.consumed + amount } else row

end WindowAllowance

structure PlanGrantWindow where
  grantId : Nat
  item : GrantItem
  start : Int
  ending : Option Int
  expiresAt : Option Int
  allocation : Option WindowAllowance
  resumes : Bool
  deriving DecidableEq

def otherResetEnds (grantId : Nat) (reset : Option Cadence) (rows : List WindowAllowance) : List Int :=
  rows.filterMap fun row => if row.grantId = grantId ∧ row.item.reset ≠ reset then row.expiresAt else none

/-- Where an allowance of a window starts: with the window, or where the last one of another reset ends inside it. -/
def allowanceStart (grantId : Nat) (reset : Option Cadence) (windowStart : Int) (rows : List WindowAllowance) : Int :=
  match (otherResetEnds grantId reset rows).max? with
  | none => windowStart
  | some ends => if windowStart < ends then ends else windowStart

def latestAllowance (grantId : Nat) (reset : Option Cadence) (rows : List WindowAllowance) : Option WindowAllowance :=
  newest (fun row => some row.periodStart) WindowAllowance.id
    (rows.filter fun row => decide (row.grantId = grantId ∧ row.item.reset = reset))

def planGrantWindow (grant : DefaultGrant) (item : GrantItem) (now : Int) (rows : List WindowAllowance) : PlanGrantWindow :=
  let window := resetWindow grant.startsAt item.reset now
  let start := allowanceStart grant.id item.reset window.startAt rows
  let expiresAt := allowanceExpiresAt item start window.endAt
  let allocation := (latestAllowance grant.id item.reset rows).filter fun row => decide (row.periodStart = start)
  { grantId := grant.id
    item := item
    start := start
    ending := window.endAt
    expiresAt := expiresAt
    allocation := allocation
    resumes := allocation.any fun row => !row.live now && expiresAt.all fun expiry => decide (now < expiry) }

namespace PlanGrantWindow

def missing (window : PlanGrantWindow) (now : Int) : Bool :=
  decide (window.start ≤ now) && (window.allocation.isNone || window.resumes) &&
    window.expiresAt.all fun expiry => decide (now < expiry)

def sourceKey (window : PlanGrantWindow) : WindowKey where
  grantId := window.grantId
  planItemId := window.item.id
  start := if window.item.reset.isNone then none else some window.start

def allowance (window : PlanGrantWindow) (id : Nat) : WindowAllowance where
  id := id
  grantId := window.grantId
  item := window.item
  sourceKey := window.sourceKey
  quantity := window.item.quantity
  consumed := 0
  periodStart := window.start
  periodEnd := window.ending
  expiresAt := window.expiresAt

def taken (window : PlanGrantWindow) (row : WindowAllowance) : Bool :=
  row.sourceKey == window.sourceKey ||
  row.grantId == window.grantId && row.item.id == window.item.id && row.periodStart == window.start

end PlanGrantWindow

namespace DefaultAccount

def held (account : DefaultAccount) : Option DefaultGrant :=
  account.grants.find? fun grant => grant.status == .active

/-- The latest default-plan grant in any state. -/
def previous (account : DefaultAccount) : Option DefaultGrant :=
  account.grants.getLast?

def editGrant (id : Nat) (edit : DefaultGrant → DefaultGrant) (account : DefaultAccount) : DefaultAccount :=
  { account with grants := updateAt DefaultGrant.id id edit account.grants }

def editAllowances (grantId : Nat) (edit : WindowAllowance → WindowAllowance) (account : DefaultAccount) : DefaultAccount :=
  { account with allowances := updateAt WindowAllowance.grantId grantId edit account.allowances }

def clampPlanGrantAllocations (grantId : Nat) (account : DefaultAccount) : DefaultAccount :=
  account.editAllowances grantId (WindowAllowance.expire account.clock)

def finishGrant (grantId : Nat) (status : PlanGrantStatus) (account : DefaultAccount) : DefaultAccount :=
  (account.editGrant grantId fun grant => { grant with status := status }).clampPlanGrantAllocations grantId

section Versions
variable (items : Nat → Option GrantItem)

/-- Moves a grant to the target in place. Allowances on the same reset move to the new item, and without an item they end. -/
def moveGrant (grantId : Nat) (target : DefaultPlanTarget) (versionChanged : Bool) (account : DefaultAccount) : DefaultAccount :=
  let moved := account.editGrant grantId fun grant =>
    { grant with planVersionId := target.planVersionId, entitlementKeys := target.entitlementKeys }
  if versionChanged then
    match items target.planVersionId with
    | some item => moved.editAllowances grantId (WindowAllowance.keep item account.clock)
    | none => moved.clampPlanGrantAllocations grantId
  else moved

/-- Starts a grant where the previous one started, and hands it the allowances left in windows still running. -/
def startGrant (target : DefaultPlanTarget) (account : DefaultAccount) : DefaultAccount :=
  let id := account.grants.length
  let started : DefaultGrant := {
    id := id
    planVersionId := target.planVersionId
    entitlementKeys := target.entitlementKeys
    startsAt := account.previous.elim account.clock DefaultGrant.startsAt
    status := .active }
  { account with
    grants := account.grants ++ [started]
    allowances :=
      match account.previous, items target.planVersionId with
      | some previous, some item => account.allowances.map (WindowAllowance.resume previous.id id item account.clock)
      | _, _ => account.allowances }

def reconcileDefaultPlanGrant (account : DefaultAccount) : DefaultAccount × Option DefaultPlanChange :=
  match account.held with
  | some grant =>
    if account.base = .held then (account.finishGrant grant.id .superseded, some .superseded)
    else
      match account.target with
      | none => (account.finishGrant grant.id .ended, some .ended)
      | some target =>
        let versionChanged := grant.planVersionId != target.planVersionId
        if versionChanged || grant.entitlementKeys != target.entitlementKeys then
          (moveGrant items grant.id target versionChanged account, some .moved)
        else (account, none)
  | none =>
    match account.target with
    | none => (account, none)
    | some target =>
      if account.base = .none then (startGrant items target account, some .started) else (account, none)

def window (account : DefaultAccount) : Option PlanGrantWindow :=
  account.held.bind fun grant => (items grant.planVersionId).map fun item =>
    planGrantWindow grant item account.clock account.allowances

def openPlanGrantWindows (account : DefaultAccount) : DefaultAccount :=
  match window items account with
  | none => account
  | some window =>
    if window.missing account.clock then
      match window.allocation with
      | some row =>
        { account with
          allowances := updateAt WindowAllowance.id row.id (WindowAllowance.reopen window.item window.expiresAt account.clock)
            account.allowances }
      | none =>
        if account.allowances.any window.taken then account
        else { account with allowances := account.allowances ++ [window.allowance account.allowances.length] }
    else account

/-- Supersedes the default plan with a trial or a promotional grant, which the account then holds. -/
def supersedeDefaultPlanGrant (account : DefaultAccount) : DefaultAccount :=
  { account.held.elim account (fun grant => account.finishGrant grant.id .superseded) with base := .held }

inductive DefaultPlanAction where
  | publish (target : Option DefaultPlanTarget)
  | base (plan : BasePlan)
  | reconcile
  | supersede
  | openWindows
  | consume (allowanceId amount : Nat)
  | read
  deriving DecidableEq

def perform (account : DefaultAccount) : DefaultPlanAction → DefaultAccount
  | .publish target => { account with target := target }
  | .base plan => { account with base := plan }
  | .reconcile => (reconcileDefaultPlanGrant items account).1
  | .supersede => account.supersedeDefaultPlanGrant
  | .openWindows => openPlanGrantWindows items account
  | .consume allowanceId amount =>
    { account with
      allowances := updateAt WindowAllowance.id allowanceId (WindowAllowance.consume amount account.clock) account.allowances }
  | .read => account

/-- An action after some time. -/
structure DefaultPlanStep where
  elapsed : Nat
  action : DefaultPlanAction
  deriving DecidableEq

def wait (elapsed : Nat) (account : DefaultAccount) : DefaultAccount :=
  { account with clock := account.clock + elapsed }

def after (account : DefaultAccount) (step : DefaultPlanStep) : DefaultAccount :=
  perform items (account.wait step.elapsed) step.action

/-- The state after steps in any order. -/
def runDefaultPlan (account : DefaultAccount) (steps : List DefaultPlanStep) : DefaultAccount :=
  steps.foldl (after items) account

/-- Whether a start leaves behind an allowance whose window is still running, because the version it starts has the feature on
another reset or not at all, or takes one over that does not start with its window. -/
def strands (account : DefaultAccount) : Bool :=
  account.held.isNone && account.base == .none && account.target.any fun target =>
    account.allowances.any fun row => row.running account.clock && account.previous.any fun previous =>
      (items target.planVersionId).all (fun item => decide (item.reset ≠ row.item.reset)) ||
      decide ((resetWindow previous.startsAt row.item.reset row.periodStart).startAt ≠ row.periodStart)

/-- Whether a write opens the allowance of one reset while the window of another one, which the grant gave before, is still
running: its allowance was ended early, or has no end. -/
def overlaps (account : DefaultAccount) : Bool :=
  (window items account).any fun window => window.missing account.clock &&
    account.allowances.any fun row => decide (row.grantId = window.grantId ∧ row.item.reset ≠ window.item.reset) &&
      row.running account.clock

def misplaced (account : DefaultAccount) : DefaultPlanAction → Bool
  | .reconcile => strands items account
  | .openWindows => overlaps items account
  | _ => false

/-- A run without such a start or opening. -/
def neverMisplaced : DefaultAccount → List DefaultPlanStep → Bool
  | _, [] => true
  | account, step :: rest =>
    !misplaced items (account.wait step.elapsed) step.action && neverMisplaced (after items account step) rest

end Versions

def anchor (account : DefaultAccount) : Int :=
  account.grants.head?.elim account.clock DefaultGrant.startsAt

end DefaultAccount

/-- An account that never held the default plan. -/
structure DefaultAccount.Fresh (account : DefaultAccount) : Prop where
  ungranted : account.grants = []
  unopened : account.allowances = []

/-- A reset window gives one allowance, and while it runs no other one does. -/
structure DefaultAccount.GrantedOnce (account : DefaultAccount) : Prop where
  distinct : (account.allowances.map WindowAllowance.id).Nodup
  alone : ∀ first ∈ account.allowances, ∀ second ∈ account.allowances, first.running account.clock = true →
    second.running account.clock = true → first.id = second.id
  once : ∀ first ∈ account.allowances, ∀ second ∈ account.allowances, first.item.reset = second.item.reset →
    (resetWindow account.anchor first.item.reset first.periodStart).contains second.periodStart = true → first.id = second.id

/-- What was consumed stays consumed: every allowance is still there, in its window, with at least the same use. -/
def StaysConsumed (earlier later : DefaultAccount) : Prop :=
  ∀ row ∈ earlier.allowances, ∃ kept ∈ later.allowances, kept.id = row.id ∧ kept.item.reset = row.item.reset ∧
    kept.periodStart = row.periodStart ∧ kept.quantity = row.quantity ∧ row.consumed ≤ kept.consumed

end Quotum.DefaultPlans
