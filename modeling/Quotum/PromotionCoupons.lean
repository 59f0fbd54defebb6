import Quotum.Decimal
import Quotum.General.Newest
import Quotum.General.Table

/-! The Stripe coupons of one web discount promotion, and the hosted code objects under them. A transaction begins before it holds the
promotion's row: the rows that it inserts carry the time at which it began. -/

namespace Quotum.PromotionCoupons
open General

inductive PromotionDuration where
  | once
  | repeating
  | forever
  deriving DecidableEq

inductive PromotionDiscount where
  | percent (percentOffBps : Nat) (duration : PromotionDuration) (durationMonths : Option Nat)
  | amount (amounts : List (Text × Nat)) (duration : PromotionDuration) (durationMonths : Option Nat)
  deriving DecidableEq

/-- What a coupon was created for. The discount is absent on coupons made before terms could be edited. -/
structure CouponAppliesTo where
  products : Option (List Text)
  discount : Option PromotionDiscount
  deriving DecidableEq

structure AppliesToHash where
  appliesTo : CouponAppliesTo
  replaces : Option Nat
  deriving DecidableEq

structure Coupon where
  id : Nat
  appliesTo : CouponAppliesTo
  appliesToHash : AppliesToHash
  catalogRevisionId : Option Nat
  createdAt : Int
  deriving DecidableEq

inductive PromotionProviderObjectStatus where
  | pending
  | ready
  | failed
  | retired
  deriving DecidableEq

structure CodeObject where
  id : Nat
  promotionCodeId : Nat
  parentObjectId : Nat
  status : PromotionProviderObjectStatus
  externalId : Option Text
  desiredActive : Bool
  desiredGeneration : Nat
  retireRequested : Bool
  deriving DecidableEq

structure Promotion where
  active : Bool
  discount : PromotionDiscount
  deriving DecidableEq

/-- The published catalog: its revision, and the Stripe products that the promotion's targets resolve to. -/
structure Catalog where
  publishedRevisionId : Option Nat
  products : Option (List Text)
  deriving DecidableEq

inductive ReconcileOutcome where
  | created
  | current
  | skipped
  deriving DecidableEq

/-- What a transaction is for: a maintenance pass or the preparation of a coupon, or an edit of the terms. -/
inductive CouponWork where
  | reconcile
  | edit (discount : PromotionDiscount)
  deriving DecidableEq

/-- How far a transaction has come: it began, it holds the promotion's row and has read the revision, or it has read the products too. -/
inductive CouponStage where
  | begun
  | locked (revision : Option Nat)
  | read (revision : Option Nat) (products : Option (List Text))
  deriving DecidableEq

structure CouponTransaction where
  id : Nat
  startedAt : Int
  work : CouponWork
  stage : CouponStage
  deriving DecidableEq

/-- An insert of hosted code objects in flight, with the coupon that its snapshot chose, and the codes with whether each may be active. -/
structure Hosting where
  id : Nat
  couponId : Nat
  codes : List (Nat × Bool)
  deriving DecidableEq

structure CouponState where
  now : Int
  promotion : Promotion
  catalog : Catalog
  coupons : List Coupon
  codeObjects : List CodeObject
  transactions : List CouponTransaction
  hostings : List Hosting
  nextId : Nat
  deriving DecidableEq

def couponMatches (existing wanted : CouponAppliesTo) : Bool :=
  decide (existing.products = wanted.products) && (decide (existing.discount = none) || decide (existing.discount = wanted.discount))

def selected (coupons : List Coupon) : Option Coupon :=
  newest (fun coupon => some coupon.createdAt) Coupon.id coupons

def hasLiveObject (promotionCodeId : Nat) (objects : List CodeObject) : Bool :=
  objects.any fun object => decide (object.promotionCodeId = promotionCodeId ∧ object.status ≠ .retired)

def newCoupon (startedAt : Int) (newId : Nat) (revision : Option Nat) (appliesTo : CouponAppliesTo) (replaces : Option Nat) : Coupon :=
  ⟨newId, appliesTo, ⟨appliesTo, replaces⟩, revision, startedAt⟩

namespace CouponState

def insertCoupon (coupon : Coupon) (s : CouponState) : CouponState :=
  if s.coupons.any fun other => decide (other.appliesToHash = coupon.appliesToHash) then s
  else { s with coupons := s.coupons ++ [coupon] }

/-- Asks the hosted codes of a superseded coupon to retire; one that Stripe has not seen retires at once. -/
def retireChildren (couponId : Nat) (s : CouponState) : CouponState :=
  { s with
    codeObjects := s.codeObjects.map fun object =>
      if object.parentObjectId = couponId ∧ object.status ≠ .retired then
        let asked := { object with retireRequested := true, desiredActive := false, desiredGeneration := object.desiredGeneration + 1 }
        if asked.status = .pending ∧ asked.externalId = none then { asked with status := .retired } else asked
      else object }

def reconcileCoupon (startedAt : Int) (newId : Nat) (revision : Option Nat) (products : Option (List Text)) (s : CouponState) :
    ReconcileOutcome × CouponState :=
  if !s.promotion.active then (.skipped, s)
  else
    let appliesTo : CouponAppliesTo := ⟨products, some s.promotion.discount⟩
    match selected s.coupons with
    | none => (.created, s.insertCoupon (newCoupon startedAt newId revision appliesTo none))
    | some latest =>
      if couponMatches latest.appliesTo appliesTo then
        (.current, { s with
          coupons := updateAt Coupon.id latest.id
            (fun coupon => { coupon with catalogRevisionId := revision, appliesTo := appliesTo }) s.coupons })
      else
        (.created, (s.insertCoupon (newCoupon startedAt newId revision appliesTo (some latest.id))).retireChildren latest.id)

def reconcileExistingCoupon (startedAt : Int) (newId : Nat) (revision : Option Nat) (products : Option (List Text)) (s : CouponState) :
    ReconcileOutcome × CouponState :=
  if s.coupons = [] then (.skipped, s) else s.reconcileCoupon startedAt newId revision products

/-- Records the terms of coupons that name none, before an edit changes them. -/
def stampCouponDiscount (discount : PromotionDiscount) (s : CouponState) : CouponState :=
  { s with
    coupons := s.coupons.map fun coupon =>
      if coupon.appliesTo.discount = none then { coupon with appliesTo := { coupon.appliesTo with discount := some discount } } else coupon }

def updatePromotionTerms (startedAt : Int) (newId : Nat) (revision : Option Nat) (products : Option (List Text)) (discount : PromotionDiscount)
    (s : CouponState) : ReconcileOutcome × CouponState :=
  if !s.promotion.active || decide (discount = s.promotion.discount) then (.skipped, s)
  else
    let stamped := s.stampCouponDiscount s.promotion.discount
    { stamped with promotion := { stamped.promotion with discount := discount } }.reconcileExistingCoupon startedAt newId revision products

/-- Everything that a transaction does after its reads. -/
def work (transaction : CouponTransaction) (newId : Nat) (revision : Option Nat) (products : Option (List Text)) (s : CouponState) :
    ReconcileOutcome × CouponState :=
  match transaction.work with
  | .reconcile => s.reconcileCoupon transaction.startedAt newId revision products
  | .edit discount => s.updatePromotionTerms transaction.startedAt newId revision products discount

def locked (s : CouponState) : Bool := s.transactions.any fun transaction => decide (transaction.stage ≠ .begun)

/-- Ends a transaction with what it did. Its new coupon's id is one that no coupon has. -/
def commit (id newId : Nat) (s : CouponState) : Option (ReconcileOutcome × CouponState) :=
  match findAt CouponTransaction.id id s.transactions with
  | none => none
  | some transaction =>
    match transaction.stage with
    | .begun | .locked _ => none
    | .read revision products =>
      if s.coupons.any fun coupon => decide (coupon.id = newId) then none
      else
        let (outcome, done) := s.work transaction newId revision products
        some (outcome, { done with transactions := done.transactions.filter fun other => decide (other.id ≠ id) })

/-- Inserts one hosted code object, unless the code has a live one by now. -/
def hostCode (couponId : Nat) (s : CouponState) (code : Nat × Bool) : CouponState :=
  if hasLiveObject code.1 s.codeObjects then s
  else { s with
    codeObjects := s.codeObjects ++ [⟨s.nextId, code.1, couponId, .pending, none, code.2, 0, false⟩]
    nextId := s.nextId + 1 }

end CouponState

inductive CouponStep where
  | wait (elapsed : Nat)
  | publish (catalog : Catalog)
  | begin (work : CouponWork)
  | lock (transaction : Nat)
  | read (transaction : Nat)
  | commit (transaction newId : Nat)
  | selectHosted (codes : List (Nat × Bool))
  | insertHosted (hosting : Nat)
  | syncCodeObject (object : Nat) (status : PromotionProviderObjectStatus) (externalId : Option Text)

def CouponStep.perform (s : CouponState) : CouponStep → CouponState
  | .wait elapsed => { s with now := s.now + elapsed }
  | .publish catalog => { s with catalog := catalog }
  | .begin work => { s with transactions := s.transactions ++ [⟨s.nextId, s.now, work, .begun⟩], nextId := s.nextId + 1 }
  | .lock transaction =>
    if s.locked then s
    else { s with
      transactions := updateAt CouponTransaction.id transaction
        (fun row => { row with stage := .locked s.catalog.publishedRevisionId }) s.transactions }
  | .read transaction =>
    { s with
      transactions := updateAt CouponTransaction.id transaction
        (fun row => match row.stage with
          | .locked revision => { row with stage := .read revision s.catalog.products }
          | _ => row) s.transactions }
  | .commit transaction newId =>
    match s.commit transaction newId with
    | some (_, next) => next
    | none => s
  | .selectHosted codes =>
    match selected s.coupons with
    | none => s
    | some coupon => { s with
      hostings := s.hostings ++ [⟨s.nextId, coupon.id, codes.filter fun code => !hasLiveObject code.1 s.codeObjects⟩]
      nextId := s.nextId + 1 }
  | .insertHosted hosting =>
    match findAt Hosting.id hosting s.hostings with
    | none => s
    | some chosen =>
      let hosted := chosen.codes.foldl (CouponState.hostCode chosen.couponId) s
      { hosted with hostings := hosted.hostings.filter fun other => decide (other.id ≠ hosting) }
  | .syncCodeObject object status externalId =>
    { s with
      codeObjects := updateAt CodeObject.id object
        (fun row => if row.status = .retired then row else { row with status := status, externalId := row.externalId.or externalId })
        s.codeObjects }

def runCoupons (s : CouponState) (steps : List CouponStep) : CouponState :=
  steps.foldl CouponStep.perform s

def created (now : Int) (discount : PromotionDiscount) (catalog : Catalog) : CouponState where
  now := now
  promotion := ⟨true, discount⟩
  catalog := catalog
  coupons := []
  codeObjects := []
  transactions := []
  hostings := []
  nextId := 0

end Quotum.PromotionCoupons
