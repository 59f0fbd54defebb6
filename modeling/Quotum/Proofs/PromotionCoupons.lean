import Quotum.PromotionCoupons

/-! The live coupon carries a promotion's terms as long as creation times agree with the order in which the promotion's row was held. The
run that breaks this is a transaction that began first and got the row last. -/

namespace Quotum.PromotionCoupons
open General CouponState

variable {coupon : Coupon} {couponId : Nat}

def CouponState.reconciles (transaction : CouponTransaction) (s : CouponState) : Bool :=
  s.promotion.active && match transaction.work with
    | .reconcile => true
    | .edit discount => decide (discount ≠ s.promotion.discount) && decide (s.coupons ≠ [])

def CouponState.terms (transaction : CouponTransaction) (s : CouponState) : PromotionDiscount :=
  match transaction.work with
  | .reconcile => s.promotion.discount
  | .edit discount => discount

/-- Whether a coupon that a transaction would create comes after the one that it replaces. -/
def follows (startedAt : Int) (newId : Nat) (latest : Coupon) : Bool :=
  decide (latest.createdAt < startedAt ∨ latest.createdAt = startedAt ∧ latest.id < newId)

/-- Where a step keeps to the order that readers go by: a reconcile that ends read the products as they still are, and the coupon that it
creates comes after the one that it replaces; hosted codes go under the coupon that is still selected. -/
def CouponStep.fits (s : CouponState) : CouponStep → Bool
  | .commit id newId =>
    match findAt CouponTransaction.id id s.transactions with
    | none => true
    | some transaction =>
      match transaction.stage with
      | .begun | .locked _ => true
      | .read _ products =>
        !s.reconciles transaction || (decide (products = s.catalog.products) &&
          match selected s.coupons with
          | none => true
          | some latest =>
            decide (latest.appliesTo = ⟨products, some (s.terms transaction)⟩) || follows transaction.startedAt newId latest)
  | .insertHosted id =>
    match findAt Hosting.id id s.hostings with
    | none => true
    | some hosting => hosting.codes.all (fun code => hasLiveObject code.1 s.codeObjects) ||
        decide ((selected s.coupons).map Coupon.id = some hosting.couponId)
  | _ => true

def orderly (s : CouponState) : List CouponStep → Bool
  | [] => true
  | step :: rest => step.fits s && orderly (step.perform s) rest

structure Coupon.Onward (coupon later : Coupon) : Prop where
  id : later.id = coupon.id
  createdAt : later.createdAt = coupon.createdAt
  hash : later.appliesToHash = coupon.appliesToHash

theorem Coupon.Onward.refl (coupon : Coupon) : coupon.Onward coupon :=
  ⟨rfl, rfl, rfl⟩

theorem Coupon.Onward.trans (first second third : Coupon) (left : first.Onward second) (right : second.Onward third) :
    first.Onward third :=
  ⟨right.id.trans left.id, right.createdAt.trans left.createdAt, right.hash.trans left.hash⟩

def Coupon.newer (coupon other : Coupon) : Bool :=
  overtakes (fun coupon => some coupon.createdAt) Coupon.id coupon other

private theorem newer_iff {other : Coupon} :
    coupon.newer other = true ↔ other.createdAt < coupon.createdAt ∨ other.createdAt = coupon.createdAt ∧ other.id < coupon.id := by
  simp [Coupon.newer, overtakes]

theorem Coupon.Onward.newer {later other after : Coupon} (left : coupon.Onward later) (right : other.Onward after) :
    later.newer after = coupon.newer other := by
  rw [Bool.eq_iff_iff, newer_iff, newer_iff, left.id, left.createdAt, right.id, right.createdAt]

/-- What holds of every state that an orderly run reaches. -/
structure Sound (s : CouponState) : Prop where
  ids : (s.coupons.map Coupon.id).Nodup
  named : ∀ coupon ∈ s.coupons, coupon.appliesTo.discount ≠ none
  chain : ∀ coupon ∈ s.coupons, ∀ replaced, coupon.appliesToHash.replaces = some replaced →
    ∃ other ∈ s.coupons, other.id = replaced ∧ coupon.newer other = true
  children : ∀ object ∈ s.codeObjects, object.status ≠ .retired → object.retireRequested = false →
    (selected s.coupons).map Coupon.id = some object.parentObjectId

private theorem created_sound (now : Int) (discount : PromotionDiscount) (catalog : Catalog) : Sound (created now discount catalog) where
  ids := by simp [created]
  named := by simp [created]
  chain := by simp [created]
  children := by simp [created]

section Selection
variable {coupons : List Coupon}

private theorem selected_none (absent : selected coupons = none) : coupons = [] := by
  cases coupons with
  | nil => rfl
  | cons first rest => exact absurd (newest_none absent first (by simp)) (by rintro ⟨⟩)

private theorem selected_member (found : selected coupons = some coupon) : coupon ∈ coupons :=
  (newest_stamped found).1

private theorem selected_last (found : selected coupons = some coupon) : ∀ other ∈ coupons, other.newer coupon = false :=
  newest_last found

private theorem selected_eq (distinct : (coupons.map Coupon.id).Nodup) (member : coupon ∈ coupons)
    (last : ∀ other ∈ coupons, other.newer coupon = false) : selected coupons = some coupon :=
  newest_eq distinct member rfl last

private theorem newer_total {first second : Coupon} (apart : first.id ≠ second.id) (behind : first.newer second = false) :
    second.newer first = true := by
  have either : first.newer second = true ∨ second.newer first = true := overtakes_total rfl rfl apart
  rw [behind] at either
  exact either.resolve_left (by rintro ⟨⟩)

private theorem selected_append {latest : Coupon} (distinct : ((coupons ++ [coupon]).map Coupon.id).Nodup)
    (found : selected coupons = some latest) (newer : coupon.newer latest = true) : selected (coupons ++ [coupon]) = some coupon := by
  apply selected_eq distinct (by simp)
  intro other member
  rcases List.mem_append.mp member with old | new
  · have behind := selected_last found other old
    rw [Bool.eq_false_iff] at behind ⊢
    intro passed
    exact behind (overtakes_trans passed newer)
  · obtain rfl := List.mem_singleton.mp new
    rw [Bool.eq_false_iff]
    intro passed
    rw [newer_iff] at passed
    omega

private theorem selected_map {change : Coupon → Coupon} (distinct : (coupons.map Coupon.id).Nodup)
    (onward : ∀ coupon : Coupon, coupon.Onward (change coupon)) :
    selected (coupons.map change) = (selected coupons).map change := by
  have ids : ((coupons.map change).map Coupon.id).Nodup := by
    rwa [map_kept fun coupon => (onward coupon).id]
  cases found : selected coupons with
  | none =>
    rw [selected_none found]
    rfl
  | some coupon =>
    apply selected_eq ids (List.mem_map_of_mem (selected_member found))
    intro other member
    obtain ⟨old, inside, rfl⟩ := List.mem_map.mp member
    rw [(onward old).newer (onward coupon)]
    exact selected_last found old inside

end Selection

section Steps
variable {s next : CouponState} {products : Option (List Text)} {newId : Nat}

/-- What a step leaves of the coupons: each is still there, and the state is as sound. -/
structure Kept (s next : CouponState) : Prop where
  sound : Sound next
  coupons : Continues Coupon.Onward s.coupons next.coupons

theorem Kept.refl (sound : Sound s) : Kept s s :=
  ⟨sound, .refl .refl _⟩

theorem Kept.trans {last : CouponState} (left : Kept s next) (right : Kept next last) : Kept s last :=
  ⟨right.sound, left.coupons.trans Coupon.Onward.trans right.coupons⟩

theorem Kept.aside (sound : Sound s) (coupons : next.coupons = s.coupons) (objects : next.codeObjects = s.codeObjects) : Kept s next where
  sound := {
    ids := coupons ▸ sound.ids
    named := coupons ▸ sound.named
    chain := coupons ▸ sound.chain
    children := by
      rw [objects, coupons]
      exact sound.children }
  coupons := by
    rw [coupons]
    exact .refl .refl _

theorem Sound.stamp (sound : Sound s) {change : Coupon → Coupon} (onward : ∀ coupon : Coupon, coupon.Onward (change coupon))
    (named : ∀ coupon ∈ s.coupons, (change coupon).appliesTo.discount ≠ none) : Kept s { s with coupons := s.coupons.map change } where
  sound := {
    ids := by
      rw [map_kept fun coupon => (onward coupon).id]
      exact sound.ids
    named := by
      intro coupon member
      obtain ⟨old, inside, rfl⟩ := List.mem_map.mp member
      exact named old inside
    chain := by
      intro coupon member replaced replaces
      obtain ⟨old, inside, rfl⟩ := List.mem_map.mp member
      rw [(onward old).hash] at replaces
      obtain ⟨other, there, same, newer⟩ := sound.chain old inside replaced replaces
      exact ⟨change other, List.mem_map_of_mem there, (onward other).id.trans same, ((onward old).newer (onward other)).trans newer⟩
    children := by
      intro object member live unasked
      have parent := sound.children object member live unasked
      rw [selected_map sound.ids onward]
      cases found : selected s.coupons with
      | none =>
        rw [found] at parent
        cases parent
      | some coupon =>
        rw [found] at parent
        exact (congrArg some (onward coupon).id).trans parent }
  coupons := .map fun coupon _ => onward coupon

theorem Sound.hash_free (sound : Sound s) {latest : Coupon} (found : selected s.coupons = some latest) (appliesTo : CouponAppliesTo) :
    (s.coupons.any fun other => decide (other.appliesToHash = ⟨appliesTo, some latest.id⟩)) = false := by
  rw [List.any_eq_false]
  intro coupon member same
  have hash := of_decide_eq_true same
  obtain ⟨other, there, id, newer⟩ := sound.chain coupon member latest.id (by rw [hash])
  obtain rfl := List.inj_on_of_nodup_map sound.ids there (selected_member found) id
  rw [selected_last found coupon member] at newer
  cases newer

private theorem retireChildren_children (parents : ∀ object ∈ s.codeObjects, object.status ≠ .retired →
    object.retireRequested = false → object.parentObjectId = couponId) :
    ∀ object ∈ (s.retireChildren couponId).codeObjects, object.status ≠ .retired → object.retireRequested = true := by
  intro object member live
  obtain ⟨old, inside, rfl⟩ := List.mem_map.mp member
  dsimp only at live ⊢
  split at live
  · next chosen =>
    rw [if_pos chosen]
    split <;> rfl
  · next spared =>
    rw [if_neg spared]
    by_contra unasked
    exact spared ⟨parents old inside live (by simpa using unasked), live⟩

private theorem nodup_new (distinct : (s.coupons.map Coupon.id).Nodup) (fresh : ∀ other ∈ s.coupons, other.id ≠ coupon.id) :
    ((s.coupons ++ [coupon]).map Coupon.id).Nodup := by
  rw [List.map_append, List.map_singleton]
  refine distinct.append (List.nodup_singleton _) ?_
  rw [List.disjoint_singleton]
  intro inside
  obtain ⟨other, member, same⟩ := List.mem_map.mp inside
  exact fresh other member same

private theorem reconcileCoupon_kept (sound : Sound s) (active : s.promotion.active = true) {startedAt : Int} (revision : Option Nat)
    (fresh : ∀ coupon ∈ s.coupons, coupon.id ≠ newId)
    (ordered : ∀ latest, selected s.coupons = some latest → latest.appliesTo ≠ ⟨products, some s.promotion.discount⟩ →
      follows startedAt newId latest = true) :
    Kept s (s.reconcileCoupon startedAt newId revision products).2 ∧
      (selected (s.reconcileCoupon startedAt newId revision products).2.coupons).map Coupon.appliesTo =
        some ⟨products, some s.promotion.discount⟩ := by
  simp only [CouponState.reconcileCoupon, active, Bool.not_true, Bool.false_eq_true, if_false]
  split
  · next absent =>
    have empty := selected_none absent
    have alone (coupon : Coupon) : selected ([] ++ [coupon]) = some coupon := rfl
    simp only [CouponState.insertCoupon, empty, List.any_nil, Bool.false_eq_true, if_false]
    refine ⟨⟨⟨?_, ?_, ?_, ?_⟩, ?_⟩, by rw [alone]; rfl⟩
    · simp
    · simp [newCoupon]
    · simp [newCoupon]
    · intro object member live unasked
      have parent := sound.children object member live unasked
      rw [absent] at parent
      cases parent
    · rw [empty]
      exact .append .refl _ _
  · next latest found =>
    split
    · have onward (coupon : Coupon) : coupon.Onward (if coupon.id = latest.id then
          { coupon with catalogRevisionId := revision, appliesTo := ⟨products, some s.promotion.discount⟩ } else coupon) := by
        split <;> exact ⟨rfl, rfl, rfl⟩
      refine ⟨sound.stamp onward ?_, ?_⟩
      · intro coupon member
        split
        · rintro ⟨⟩
        · exact sound.named coupon member
      · simp only [updateAt]
        rw [selected_map sound.ids onward, found, Option.map_some, Option.map_some, if_pos rfl]
    · next unmatched =>
      have apart : latest.appliesTo ≠ ⟨products, some s.promotion.discount⟩ := by
        intro same
        rw [same] at unmatched
        exact unmatched (by simp [couponMatches])
      have newer : (newCoupon startedAt newId revision ⟨products, some s.promotion.discount⟩ (some latest.id)).newer latest = true :=
        newer_iff.mpr (of_decide_eq_true (ordered latest found apart))
      have distinct : ((s.coupons ++ [newCoupon startedAt newId revision ⟨products, some s.promotion.discount⟩ (some latest.id)]).map
          Coupon.id).Nodup := nodup_new sound.ids fresh
      have now_ := selected_append distinct found newer
      have inserted : s.insertCoupon (newCoupon startedAt newId revision ⟨products, some s.promotion.discount⟩ (some latest.id)) =
          { s with coupons := s.coupons ++ [newCoupon startedAt newId revision ⟨products, some s.promotion.discount⟩ (some latest.id)] } :=
        if_neg (by
          rw [Bool.not_eq_true]
          exact sound.hash_free found ⟨products, some s.promotion.discount⟩)
      rw [inserted]
      refine ⟨⟨⟨distinct, ?_, ?_, ?_⟩, .append .refl _ _⟩, ?_⟩
      · intro coupon member
        rcases List.mem_append.mp member with old | new
        · exact sound.named coupon old
        · obtain rfl := List.mem_singleton.mp new
          rintro ⟨⟩
      · intro coupon member replaced replaces
        rcases List.mem_append.mp member with old | new
        · obtain ⟨other, there, held⟩ := sound.chain coupon old replaced replaces
          exact ⟨other, List.mem_append_left _ there, held⟩
        · obtain rfl := List.mem_singleton.mp new
          exact ⟨latest, List.mem_append_left _ (selected_member found), Option.some.inj replaces, newer⟩
      · intro object member live unasked
        have asked := retireChildren_children (fun old inside standing free => by
          have parent := sound.children old inside standing free
          rw [found] at parent
          exact (Option.some.inj parent).symm) object member live
        rw [unasked] at asked
        cases asked
      · exact congrArg (Option.map Coupon.appliesTo) now_

private theorem insertCoupon_frame (coupon : Coupon) :
    (s.insertCoupon coupon).promotion = s.promotion ∧ (s.insertCoupon coupon).catalog = s.catalog := by
  simp only [CouponState.insertCoupon]
  split <;> exact ⟨rfl, rfl⟩

private theorem reconcileCoupon_frame (startedAt : Int) (newId : Nat) (revision : Option Nat) (products : Option (List Text)) :
    (s.reconcileCoupon startedAt newId revision products).2.promotion = s.promotion ∧
      (s.reconcileCoupon startedAt newId revision products).2.catalog = s.catalog := by
  simp only [CouponState.reconcileCoupon]
  split
  · exact ⟨rfl, rfl⟩
  · split
    · exact insertCoupon_frame _
    · split
      · exact ⟨rfl, rfl⟩
      · exact insertCoupon_frame _

private theorem stampCouponDiscount_eq (sound : Sound s) (discount : PromotionDiscount) : s.stampCouponDiscount discount = s := by
  have same : (s.coupons.map fun coupon => if coupon.appliesTo.discount = none then
      { coupon with appliesTo := { coupon.appliesTo with discount := some discount } } else coupon) = s.coupons.map id :=
    List.map_congr_left fun coupon member => if_neg (sound.named coupon member)
  rw [List.map_id] at same
  simp only [CouponState.stampCouponDiscount, same]

private theorem work_kept (sound : Sound s) {transaction : CouponTransaction} (revision : Option Nat)
    (fresh : ∀ coupon ∈ s.coupons, coupon.id ≠ newId)
    (ordered : s.reconciles transaction = true → ∀ latest, selected s.coupons = some latest →
      latest.appliesTo ≠ ⟨products, some (s.terms transaction)⟩ → follows transaction.startedAt newId latest = true) :
    Kept s (s.work transaction newId revision products).2 ∧ (s.work transaction newId revision products).2.catalog = s.catalog ∧
      ((s.work transaction newId revision products).1 ≠ .skipped → s.reconciles transaction = true ∧
        (selected (s.work transaction newId revision products).2.coupons).map Coupon.appliesTo =
          some ⟨products, some (s.work transaction newId revision products).2.promotion.discount⟩) := by
  cases active : s.promotion.active with
  | false =>
    have skipped : s.work transaction newId revision products = (.skipped, s) := by
      simp only [CouponState.work]
      split
      · simp only [CouponState.reconcileCoupon, active, Bool.not_false, if_true]
      · simp only [CouponState.updatePromotionTerms, active, Bool.not_false, Bool.true_or, if_true]
    rw [skipped]
    exact ⟨.refl sound, rfl, fun other => absurd rfl other⟩
  | true =>
    simp only [CouponState.reconciles, active, Bool.true_and, CouponState.terms, CouponState.work] at ordered ⊢
    cases kind : transaction.work with
    | reconcile =>
      simp only [kind] at ordered ⊢
      obtain ⟨kept, terms⟩ := reconcileCoupon_kept sound active revision fresh (ordered trivial)
      obtain ⟨promotion, catalog⟩ := reconcileCoupon_frame (s := s) transaction.startedAt newId revision products
      exact ⟨kept, catalog, fun _ => ⟨trivial, by rw [promotion]; exact terms⟩⟩
    | edit discount =>
      simp only [kind, CouponState.updatePromotionTerms, active, Bool.not_true, Bool.false_or] at ordered ⊢
      split
      · exact ⟨.refl sound, rfl, fun other => absurd rfl other⟩
      · next changed =>
        rw [stampCouponDiscount_eq sound]
        have edited : Kept s { s with promotion := { s.promotion with discount := discount } } := .aside sound rfl rfl
        simp only [CouponState.reconcileExistingCoupon]
        split
        · exact ⟨edited, rfl, fun other => absurd rfl other⟩
        · next some_ =>
          have changes : discount ≠ s.promotion.discount := by simpa using changed
          have reconciles : (decide (discount ≠ s.promotion.discount) && decide (s.coupons ≠ [])) = true := by
            simp only [Bool.and_eq_true, decide_eq_true_eq]
            exact ⟨changes, some_⟩
          obtain ⟨kept, terms⟩ := reconcileCoupon_kept edited.sound active revision fresh (ordered reconciles)
          obtain ⟨promotion, catalog⟩ := reconcileCoupon_frame (s := { s with promotion := { s.promotion with discount := discount } })
            transaction.startedAt newId revision products
          exact ⟨edited.trans kept, catalog, fun _ => ⟨reconciles, by rw [promotion]; exact terms⟩⟩

/-- What a commit leaves in an orderly run: a reconcile that ends as created or current has the promotion's terms on the coupon that
readers select. -/
private theorem commit_kept (sound : Sound s) {id : Nat} {outcome : ReconcileOutcome} (fits : (CouponStep.commit id newId).fits s = true)
    (done : s.commit id newId = some (outcome, next)) :
    Kept s next ∧ (outcome ≠ .skipped →
      (selected next.coupons).map Coupon.appliesTo = some ⟨next.catalog.products, some next.promotion.discount⟩) := by
  simp only [CouponState.commit] at done
  simp only [CouponStep.fits] at fits
  cases found : findAt CouponTransaction.id id s.transactions with
  | none =>
    rw [found] at done
    cases done
  | some transaction =>
    simp only [found] at done fits
    cases stage : transaction.stage with
    | begun =>
      rw [stage] at done
      cases done
    | locked revision =>
      rw [stage] at done
      cases done
    | read revision products =>
      simp only [stage] at done fits
      split at done
      · cases done
      · next fresh =>
        cases done
        have free : ∀ coupon ∈ s.coupons, coupon.id ≠ newId := by
          intro coupon member same
          exact fresh (List.any_eq_true.mpr ⟨coupon, member, decide_eq_true same⟩)
        have met (reconciles : s.reconciles transaction = true) : products = s.catalog.products ∧
            ∀ latest, selected s.coupons = some latest → latest.appliesTo ≠ ⟨products, some (s.terms transaction)⟩ →
              follows transaction.startedAt newId latest = true := by
          rw [reconciles, Bool.not_true, Bool.false_or, Bool.and_eq_true, decide_eq_true_eq] at fits
          refine ⟨fits.1, ?_⟩
          intro latest chosen apart
          have ordered := fits.2
          simp only [chosen, Bool.or_eq_true, decide_eq_true_eq] at ordered
          exact ordered.resolve_left apart
        obtain ⟨kept, catalog, terms⟩ := work_kept sound revision free fun reconciles => (met reconciles).2
        refine ⟨⟨{ kept.sound with }, kept.coupons⟩, ?_⟩
        intro ended
        obtain ⟨reconciles, carried⟩ := terms ended
        have current := (met reconciles).1
        rw [← catalog] at current
        rw [← current]
        exact carried

private theorem hostCode_same {code : Nat × Bool} (live : hasLiveObject code.1 s.codeObjects = true) : s.hostCode couponId code = s :=
  if_pos live

private theorem hostCode_kept (sound : Sound s) (code : Nat × Bool) (parent : (selected s.coupons).map Coupon.id = some couponId) :
    Kept s (s.hostCode couponId code) ∧ (s.hostCode couponId code).coupons = s.coupons := by
  simp only [CouponState.hostCode]
  split
  · exact ⟨.refl sound, rfl⟩
  · refine ⟨⟨{ sound with children := ?_ }, .refl .refl _⟩, rfl⟩
    intro object member live unasked
    rcases List.mem_append.mp member with old | new
    · exact sound.children object old live unasked
    · obtain rfl := List.mem_singleton.mp new
      exact parent

private theorem hostCodes_kept (sound : Sound s) (codes : List (Nat × Bool))
    (parent : (selected s.coupons).map Coupon.id = some couponId) : Kept s (codes.foldl (CouponState.hostCode couponId) s) := by
  induction codes generalizing s with
  | nil => exact .refl sound
  | cons code rest ih =>
    obtain ⟨kept, coupons⟩ := hostCode_kept sound code parent
    exact kept.trans (ih kept.sound (by rw [coupons]; exact parent))

private theorem hostCodes_same {codes : List (Nat × Bool)} (live : ∀ code ∈ codes, hasLiveObject code.1 s.codeObjects = true) :
    codes.foldl (CouponState.hostCode couponId) s = s := by
  induction codes with
  | nil => rfl
  | cons code rest ih =>
    rw [List.foldl_cons, hostCode_same (live code (by simp))]
    exact ih fun other member => live other (by simp [member])

private theorem insertHosted_kept (sound : Sound s) {hosting : Nat} (fits : (CouponStep.insertHosted hosting).fits s = true) :
    Kept s (CouponStep.perform s (.insertHosted hosting)) := by
  simp only [CouponStep.fits] at fits
  simp only [CouponStep.perform]
  cases found : findAt Hosting.id hosting s.hostings with
  | none => exact .refl sound
  | some chosen =>
    simp only [found, Bool.or_eq_true, List.all_eq_true, decide_eq_true_eq] at fits
    have kept : Kept s (chosen.codes.foldl (CouponState.hostCode chosen.couponId) s) := by
      rcases fits with live | parent
      · rw [hostCodes_same live]
        exact .refl sound
      · exact hostCodes_kept sound chosen.codes parent
    exact ⟨{ kept.sound with }, kept.coupons⟩

theorem perform_kept (sound : Sound s) (step : CouponStep) (fits : step.fits s = true) : Kept s (step.perform s) := by
  cases step with
  | wait elapsed => exact .aside sound rfl rfl
  | publish catalog => exact .aside sound rfl rfl
  | begin work => exact .aside sound rfl rfl
  | lock transaction =>
    simp only [CouponStep.perform]
    split
    · exact .refl sound
    · exact .aside sound rfl rfl
  | read transaction => exact .aside sound rfl rfl
  | commit transaction newId =>
    simp only [CouponStep.perform]
    split
    · next done => exact (commit_kept sound fits done).1
    · exact .refl sound
  | selectHosted codes =>
    simp only [CouponStep.perform]
    split
    · exact .refl sound
    · exact .aside sound rfl rfl
  | insertHosted hosting => exact insertHosted_kept sound fits
  | syncCodeObject object status externalId =>
    refine ⟨{ sound with children := ?_ }, .refl .refl _⟩
    intro row member live unasked
    obtain ⟨old, inside, ⟨-, rfl⟩ | ⟨-, rfl⟩⟩ := mem_updateAt.mp member
    · by_cases retired : old.status = .retired
      · rw [if_pos retired] at live
        exact absurd retired live
      · rw [if_neg retired] at unasked ⊢
        exact sound.children old inside retired unasked
    · exact sound.children row inside live unasked

theorem run_kept (sound : Sound s) (steps : List CouponStep) (ordered : orderly s steps = true) : Kept s (runCoupons s steps) := by
  induction steps generalizing s with
  | nil => exact .refl sound
  | cons step rest ih =>
    simp only [orderly, Bool.and_eq_true] at ordered
    have kept := perform_kept sound step ordered.1
    exact kept.trans (ih kept.sound ordered.2)

private theorem orderly_append (steps more : List CouponStep) :
    orderly s (steps ++ more) = (orderly s steps && orderly (runCoupons s steps) more) := by
  induction steps generalizing s with
  | nil => rfl
  | cons step rest ih =>
    rw [List.cons_append, orderly, orderly, ih, Bool.and_assoc]
    rfl

/-- A coupon that another one has superseded is not selected again. -/
private theorem superseded_stays {middle last : CouponState} (first : Kept s middle) (second : Kept middle last)
    (chosen : selected s.coupons = some coupon) (superseded : (selected middle.coupons).map Coupon.id ≠ some coupon.id) :
    (selected last.coupons).map Coupon.id ≠ some coupon.id := by
  obtain ⟨kept, inside, same⟩ := first.coupons coupon (selected_member chosen)
  cases next : selected middle.coupons with
  | none =>
    rw [selected_none next] at inside
    cases inside
  | some successor =>
    have apart : kept.id ≠ successor.id := by
      intro equal
      rw [next] at superseded
      exact superseded (congrArg some (equal.symm.trans same.id))
    have newer := newer_total apart (selected_last next kept inside)
    intro again
    cases final : selected last.coupons with
    | none =>
      rw [final] at again
      cases again
    | some latest =>
      rw [final] at again
      obtain ⟨late, there, onward⟩ := second.coupons kept inside
      obtain ⟨later, also, forward⟩ := second.coupons successor (selected_member next)
      have here : late = latest := List.inj_on_of_nodup_map second.sound.ids there (selected_member final)
        (onward.id.trans (same.id.trans (Option.some.inj again).symm))
      have behind := selected_last final later also
      rw [← here, forward.newer onward, newer] at behind
      cases behind

end Steps

def percentOff (percentOffBps : Nat) : PromotionDiscount := .percent percentOffBps .once none

end Quotum.PromotionCoupons
