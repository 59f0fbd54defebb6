import Quotum.MeterLimitSources
import Quotum.General.Outcomes

/-! Which scopes an account's limits meet under, over every run of publishes, purchases, plan changes and status changes. -/

namespace Quotum.MeterLimitSources
open General Cadences
open MeterLimitScopes (MeterLimitScope)
open MeterLimitSpend (OveragePolicy)
open DefaultEntitlements (PlanKind)
open SubscriptionChanges (SubscriptionStatus)

/-- What the purchase guard would refuse of a subscription of the customer that a provider's report makes live again. -/
def revivalConflicts (customer : Nat) (project : Project) : Operation → List String
  | .reportStatus id status expiresAt =>
    match findAt Subscription.id id project.subscriptions with
    | none => []
    | some subscription =>
      if subscription.customer = customer ∧ subscription.live project.now = false ∧
          (withStatus status expiresAt subscription).live project.now = true then
        meterLimitScopeConflicts project customer subscription.planVersion (some id)
      else []
  | _ => []

/-- The states of a project in which the customer's subscriptions come back to life only where they would still be sold. -/
inductive Reaches (customer : Nat) : Project → Prop where
  | created (now : Time) : Reaches customer (created now)
  | step {project next : Project} (reached : Reaches customer project) (operation : Operation)
      (unopposed : revivalConflicts customer project operation = []) (done : operation.apply project = .ok next) : Reaches customer next

/-- The account holds one base plan at most, and no plan twice. -/
def HoldsOnce (project : Project) (customer : Nat) : Prop :=
  ∀ first ∈ project.subscriptions, ∀ second ∈ project.subscriptions, first.customer = customer → second.customer = customer →
    first.live project.now = true → second.live project.now = true → first.id ≠ second.id →
    first.planVersion.planKey ≠ second.planVersion.planKey ∧
      ¬ (first.planVersion.planKind = .base ∧ second.planVersion.planKind = .base)

/-- What every published version keeps. -/
structure WellFormed (plan : PlanVersion) : Prop where
  once : (plan.items.map LimitItem.featureKey).Nodup
  unlimited : ∀ item ∈ plan.items, item.itemKind = .unlimitedUsage → item.allocationScope = .account

def Apart (customer : Nat) (project : Project) : Prop :=
  ∀ held ∈ project.subscriptions, ∀ target ∈ project.subscriptions, held.customer = customer → target.customer = customer →
    held.live project.now = true → target.live project.now = true → held.id ≠ target.id →
    ∀ heldItem ∈ held.planVersion.items, ∀ item ∈ target.planVersion.items,
      scopesConflict held.planVersion target.planVersion heldItem item = false

structure Sound (customer : Nat) (project : Project) : Prop where
  numbered : project.subscriptions.map Subscription.id = List.range project.subscriptions.length
  plans : ∀ plan ∈ project.plans, WellFormed plan
  versions : ∀ plan ∈ project.versions, WellFormed plan
  subscriptions : ∀ subscription ∈ project.subscriptions, WellFormed subscription.planVersion
  account : ∀ plan ∈ project.plans, some plan.planKey = project.defaultPlan → ∀ item ∈ plan.items, item.allocationScope = .account
  apart : Apart customer project

theorem Sound.distinct {customer : Nat} {project : Project} (sound : Sound customer project) :
    (project.subscriptions.map Subscription.id).Nodup := by
  rw [sound.numbered]
  exact List.nodup_range

variable {target : PlanVersion}

section Guards

private theorem scopesConflict_comm (held target : PlanVersion) (heldItem item : LimitItem) :
    scopesConflict held target heldItem item = scopesConflict target held item heldItem := by
  rw [Bool.eq_iff_iff]
  simp only [scopesConflict, Bool.and_eq_true, Bool.not_eq_true', Bool.and_eq_false_iff, beq_iff_eq, beq_eq_false_iff_ne, bne_iff_ne]
  constructor
  · rintro ⟨⟨⟨⟨feature, kinds⟩, scopes⟩, plans⟩, bases⟩
    exact ⟨⟨⟨⟨feature.symm, kinds.symm⟩, scopes.symm⟩, plans.symm⟩, bases.symm⟩
  · rintro ⟨⟨⟨⟨feature, kinds⟩, scopes⟩, plans⟩, bases⟩
    exact ⟨⟨⟨⟨feature.symm, kinds.symm⟩, scopes.symm⟩, plans.symm⟩, bases.symm⟩

private theorem scopes_agree {held : PlanVersion} {heldItem item : LimitItem} (free : scopesConflict held target heldItem item = false)
    (feature : heldItem.featureKey = item.featureKey) (limit : heldItem.itemKind = .meterLimit)
    (plans : held.planKey ≠ target.planKey) (bases : ¬ (held.planKind = .base ∧ target.planKind = .base)) :
    heldItem.allocationScope = item.allocationScope := by
  by_contra other
  have conflict : scopesConflict held target heldItem item = true := by
    simp only [scopesConflict, Bool.and_eq_true, Bool.not_eq_true', Bool.and_eq_false_iff, beq_iff_eq, beq_eq_false_iff_ne, bne_iff_ne]
    refine ⟨⟨⟨⟨feature, .inl ?_⟩, other⟩, plans⟩, ?_⟩
    · rw [limit]
      nofun
    · rw [← not_and_or]
      exact fun both => bases both.symm
  rw [conflict] at free
  cases free

private theorem conflicts_none {project : Project} {customer : Nat} {excluded : Option Nat}
    (none : meterLimitScopeConflicts project customer target excluded = []) {held : Subscription} (member : held ∈ project.subscriptions)
    (owner : held.customer = customer) (live : held.live project.now = true) (included : some held.id ≠ excluded)
    {heldItem item : LimitItem} (inside : heldItem ∈ held.planVersion.items) (targeted : item ∈ target.items) :
    scopesConflict held.planVersion target heldItem item = false := by
  rw [Bool.eq_false_iff]
  intro conflict
  have listed : item.featureKey ∈ meterLimitScopeConflicts project customer target excluded := by
    rw [meterLimitScopeConflicts]
    refine (List.mem_insertionSort _).mpr (List.mem_dedup.mpr (List.mem_map_of_mem (List.mem_filter.mpr ⟨targeted, ?_⟩)))
    refine List.any_eq_true.mpr ⟨held, List.mem_filter.mpr ⟨member, ?_⟩, List.any_eq_true.mpr ⟨heldItem, inside, conflict⟩⟩
    rw [Bool.and_eq_true, Bool.and_eq_true, beq_iff_eq]
    exact ⟨⟨owner, live⟩, decide_eq_true included⟩
  rw [none] at listed
  cases listed

private theorem scopesAgree_inv {conflicts : List String} {agreed : Unit} (succeeded : assertMeterLimitScopesAgree conflicts = .ok agreed) :
    conflicts = [] := by
  rw [assertMeterLimitScopesAgree] at succeeded
  split at succeeded
  · assumption
  · cases succeeded

end Guards

section Publish

variable {passed : Unit}

private theorem forM_ok {α : Type} {check : α → Except Failure Unit} {inputs : List α}
    (succeeded : inputs.forM check = .ok passed) : ∀ input ∈ inputs, check input = .ok () := by
  induction inputs with
  | nil => nofun
  | cons first rest ih =>
    obtain ⟨_, here, later⟩ := bind_ok (show (check first >>= fun _ => rest.forM check) = .ok passed from succeeded)
    intro input member
    rcases List.mem_cons.mp member with rfl | inside
    · exact here
    · exact ih later input inside

private theorem workingPlan_wellFormed {plan : AuthoredPlan} (succeeded : assertPlan (workingPlan plan) = .ok passed) :
    WellFormed (workingPlan plan) := by
  rw [assertPlan] at succeeded
  obtain ⟨_, unique, -⟩ := bind_ok succeeded
  rw [assertUnique] at unique
  split at unique
  · next once =>
    refine ⟨once, fun item member unlimited => ?_⟩
    obtain ⟨authored, -, rfl⟩ := List.mem_map.mp member
    cases authored with
    | meterLimit featureKey quantity reset overagePolicy allocationScope => cases unlimited
    | unlimitedUsage featureKey => rfl
  · cases unique

private theorem defaultPlan_account {plans : List PlanVersion} {key : Option String}
    (unique : (plans.map PlanVersion.planKey).Nodup) (succeeded : assertDefaultPlan plans key = .ok passed) {plan : PlanVersion}
    (member : plan ∈ plans) (marked : some plan.planKey = key) : ∀ item ∈ plan.items, item.allocationScope = .account := by
  subst marked
  rw [assertDefaultPlan] at succeeded
  split at succeeded
  · cases succeeded
  · next found here =>
    have passes := List.find?_some here
    have key := eq_of_beq passes
    obtain rfl := List.inj_on_of_nodup_map unique (List.mem_of_find?_eq_some here) member key
    split at succeeded
    · intro item inside
      have checked := forM_ok succeeded item inside
      rw [assertDefaultItem] at checked
      split at checked
      · assumption
      · cases checked
    · cases succeeded

/-- Publishing changes the catalog and adds versions, and no subscription. -/
theorem publish_inv {intent : CatalogIntent} {project next : Project} (done : publish intent project = .ok next) :
    ∃ plans versions, (∀ plan ∈ plans, WellFormed plan) ∧ (∀ plan ∈ versions, plan ∈ plans) ∧
      (∀ plan ∈ plans, some plan.planKey = intent.defaultPlan → ∀ item ∈ plan.items, item.allocationScope = .account) ∧
      next = { project with plans, defaultPlan := intent.defaultPlan, versions := project.versions ++ versions } := by
  rw [publish] at done
  dsimp only at done
  obtain ⟨_, unique, done⟩ := bind_ok done
  obtain ⟨_, checked, done⟩ := bind_ok done
  obtain ⟨_, -, done⟩ := bind_ok done
  obtain ⟨_, marked, done⟩ := bind_ok done
  obtain ⟨_, -, done⟩ := bind_ok done
  obtain ⟨_, -, done⟩ := bind_ok done
  cases done
  refine ⟨_, _, fun plan member => ?_, fun plan member => (List.mem_filter.mp member).1, fun plan member key => ?_, rfl⟩
  · obtain ⟨authored, -, rfl⟩ := List.mem_map.mp member
    exact workingPlan_wellFormed (forM_ok checked _ member)
  · rw [assertUnique] at unique
    split at unique
    · next once => exact defaultPlan_account once marked member key
    · cases unique

end Publish

section Steps
variable {customer version : Nat} {project next : Project} {planKey : String}

private theorem publish_sound {intent : CatalogIntent} (sound : Sound customer project) (done : publish intent project = .ok next) :
    Sound customer next := by
  obtain ⟨plans, versions, formed, published, account, rfl⟩ := publish_inv done
  refine ⟨sound.numbered, formed, fun plan member => ?_, sound.subscriptions, account, sound.apart⟩
  rcases List.mem_append.mp member with old | new
  · exact sound.versions plan old
  · exact formed plan (published plan new)

private theorem live_earlier {now later : Time} (order : now ≤ later) {subscription : Subscription} (live : subscription.live later = true) :
    subscription.live now = true := by
  rw [Subscription.live, Bool.and_eq_true] at live ⊢
  refine ⟨live.1, ?_⟩
  cases known : subscription.expiresAt with
  | none => rfl
  | some expiry =>
    have ahead := live.2
    rw [known] at ahead
    exact decide_eq_true (order.trans_lt (of_decide_eq_true ahead))

private theorem wait_sound (sound : Sound customer project) (later : Time) : Sound customer { project with now := max project.now later } := by
  refine ⟨sound.numbered, sound.plans, sound.versions, sound.subscriptions, sound.account, ?_⟩
  intro held member target other owner holder live alive
  exact sound.apart held member target other owner holder (live_earlier (Nat.le_max_left _ _) live)
    (live_earlier (Nat.le_max_left _ _) alive)

private theorem publishedVersion_inv (found : publishedVersion planKey version project = .ok target) : target ∈ project.versions := by
  rw [publishedVersion] at found
  split at found
  · cases found
  · next plan here =>
    cases found
    exact List.mem_of_find?_eq_some here

private theorem apart_with {subscriptions : List Subscription} {changed : Subscription}
    (others : ∀ subscription ∈ subscriptions, subscription = changed ∨ subscription ∈ project.subscriptions ∧ subscription.id ≠ changed.id)
    (apart : Apart customer project) (free : changed.customer = customer → changed.live project.now = true →
      ∀ held ∈ project.subscriptions, held.customer = customer → held.live project.now = true → held.id ≠ changed.id →
      ∀ heldItem ∈ held.planVersion.items, ∀ item ∈ changed.planVersion.items,
        scopesConflict held.planVersion changed.planVersion heldItem item = false) :
    Apart customer { project with subscriptions } := by
  intro held member target other owner holder live alive distinct heldItem inside item targeted
  rcases others held member with rfl | ⟨known, away⟩
  · rcases others target other with rfl | ⟨kept, off⟩
    · exact absurd rfl distinct
    · rw [scopesConflict_comm]
      exact free owner live target kept holder alive off item targeted heldItem inside
  · rcases others target other with rfl | ⟨kept, off⟩
    · exact free holder alive held known owner live away heldItem inside item targeted
    · exact apart held known target kept owner holder live alive distinct heldItem inside item targeted

section
variable (sound : Sound customer project) {change : Subscription → Subscription} {id : Nat} {subscription : Subscription}
  {expiresAt : Option Time}
include sound

private theorem purchase_sound {buyer : Nat} (done : purchase buyer planKey version expiresAt project = .ok next) : Sound customer next := by
  rw [purchase] at done
  obtain ⟨target, found, done⟩ := bind_ok done
  obtain ⟨_, agreed, done⟩ := bind_ok done
  cases done
  have fresh : ∀ subscription ∈ project.subscriptions, subscription.id ≠ project.subscriptions.length := by
    intro subscription member same
    have listed := List.mem_map_of_mem (f := Subscription.id) member
    rw [sound.numbered, List.mem_range, same] at listed
    exact lt_irrefl _ listed
  refine ⟨?_, sound.plans, sound.versions, fun subscription member => ?_, sound.account, ?_⟩
  · rw [List.map_append, sound.numbered, List.length_append, List.length_singleton, List.range_succ]
    rfl
  · rcases List.mem_append.mp member with old | new
    · exact sound.subscriptions subscription old
    · rw [List.mem_singleton.mp new]
      exact sound.versions target (publishedVersion_inv found)
  · refine @apart_with customer project _ ⟨project.subscriptions.length, buyer, target, .active, expiresAt, project.now⟩ ?_ sound.apart ?_
    · intro subscription member
      rcases List.mem_append.mp member with old | new
      · exact .inr ⟨old, fresh subscription old⟩
      · exact .inl (List.mem_singleton.mp new)
    · intro holder _ held member owner live _ heldItem inside item targeted
      exact conflicts_none (scopesAgree_inv agreed) member (owner.trans holder.symm) live nofun inside targeted

private theorem updated_member (kept : (change subscription).id = subscription.id)
    (found : findAt Subscription.id id project.subscriptions = some subscription)
    {row : Subscription} (member : row ∈ updateAt Subscription.id id change project.subscriptions) :
    row = change subscription ∨ row ∈ project.subscriptions ∧ row.id ≠ (change subscription).id := by
  obtain ⟨inside, key⟩ := findAt_inv found
  rw [updateAt, List.mem_map] at member
  obtain ⟨other, listed, rfl⟩ := member
  by_cases same : other.id = id
  · left
    rw [if_pos same]
    exact congrArg change (List.inj_on_of_nodup_map sound.distinct listed inside (same.trans key.symm))
  · right
    rw [if_neg same, kept, key]
    exact ⟨listed, same⟩

private theorem updated_sound (kept : ∀ row, (change row).id = row.id)
    (found : findAt Subscription.id id project.subscriptions = some subscription)
    (formed : WellFormed (change subscription).planVersion)
    (apart : Apart customer { project with subscriptions := updateAt Subscription.id id change project.subscriptions }) :
    Sound customer { project with subscriptions := updateAt Subscription.id id change project.subscriptions } := by
  have keys : (updateAt Subscription.id id change project.subscriptions).map Subscription.id =
      project.subscriptions.map Subscription.id := updateAt_keys kept project.subscriptions
  refine ⟨?_, sound.plans, sound.versions, fun row member => ?_, sound.account, apart⟩
  · rw [keys, sound.numbered, updateAt, List.length_map]
  · rcases updated_member sound (kept subscription) found member with rfl | ⟨old, -⟩
    · exact formed
    · exact sound.subscriptions row old

private theorem changePlan_sound (done : changePlan id planKey version project = .ok next) : Sound customer next := by
  rw [changePlan] at done
  obtain ⟨target, found, done⟩ := bind_ok done
  split at done
  · cases done
  · next subscription here =>
    split at done
    · cases done
      exact sound
    · obtain ⟨_, agreed, done⟩ := bind_ok done
      cases done
      have key := (findAt_inv here).2
      refine updated_sound sound (fun _ => rfl) here (sound.versions target (publishedVersion_inv found)) ?_
      refine apart_with (fun row member => updated_member sound rfl here member) sound.apart ?_
      intro holder _ held member owner live other heldItem inside item targeted
      refine conflicts_none (scopesAgree_inv agreed) member (owner.trans holder.symm) live (fun same => other ?_) inside targeted
      exact (Option.some.inj same).trans key.symm

private theorem reportStatus_sound {status : SubscriptionStatus}
    (unopposed : revivalConflicts customer project (.reportStatus id status expiresAt) = []) :
    Sound customer (reportStatus id status expiresAt project) := by
  cases here : findAt Subscription.id id project.subscriptions with
  | none =>
    have absent : updateAt Subscription.id id (withStatus status expiresAt) project.subscriptions = project.subscriptions := by
      apply updateAt_fixed
      intro row member key
      rw [← key, findAt_member sound.distinct member] at here
      cases here
    rw [reportStatus, absent]
    exact sound
  | some subscription =>
    obtain ⟨member, key⟩ := findAt_inv here
    refine updated_sound sound (fun _ => rfl) here (sound.subscriptions subscription member) ?_
    refine apart_with (fun row listed => updated_member sound rfl here listed) sound.apart ?_
    intro holder revived held listed owner live other heldItem inside item targeted
    cases alive : subscription.live project.now with
    | true => exact sound.apart held listed subscription member owner holder live alive other heldItem inside item targeted
    | false =>
      simp only [revivalConflicts, here] at unopposed
      rw [if_pos ⟨holder, alive, revived⟩] at unopposed
      refine conflicts_none unopposed listed owner live (fun same => other ?_) inside targeted
      exact (Option.some.inj same).trans key.symm

end

theorem run_sound (reached : Reaches customer project) : Sound customer project := by
  induction reached with
  | created now => exact ⟨rfl, nofun, nofun, nofun, nofun, nofun⟩
  | step _ operation unopposed done sound =>
    cases operation with
    | wait later =>
      cases done
      exact wait_sound sound later
    | publish intent => exact publish_sound sound done
    | purchase buyer planKey version expiresAt => exact purchase_sound sound done
    | changePlan subscription planKey version => exact changePlan_sound sound done
    | reportStatus subscription status expiresAt =>
      cases done
      exact reportStatus_sound sound unopposed

end Steps

section Sources
variable {project : Project} {customer : Nat} {featureKey : String} {anchor row : MeterLimitRow} {sources : List MeterLimitRow}

private theorem mem_onFeature {plan : PlanVersion} {item : LimitItem} :
    item ∈ onFeature featureKey plan ↔ item ∈ plan.items ∧ item.featureKey = featureKey := by
  rw [onFeature, List.mem_filter, beq_iff_eq]

private theorem mem_subscriptionRows (member : row ∈ subscriptionRows project customer featureKey) :
    ∃ subscription ∈ project.subscriptions, subscription.customer = customer ∧ subscription.live project.now = true ∧
      ∃ item ∈ subscription.planVersion.items, item.featureKey = featureKey ∧
        row = meterLimitRow (some subscription.id) item.overagePolicy subscription.planVersion item subscription.createdAt := by
  rw [subscriptionRows, List.mem_flatMap] at member
  obtain ⟨subscription, listed, member⟩ := member
  obtain ⟨inside, held⟩ := List.mem_filter.mp ((List.mem_insertionSort _).mp listed)
  rw [Bool.and_eq_true, beq_iff_eq] at held
  obtain ⟨item, onIt, rfl⟩ := List.mem_map.mp member
  obtain ⟨listedItem, feature⟩ := mem_onFeature.mp onIt
  exact ⟨subscription, inside, held.1, held.2, item, listedItem, feature, rfl⟩

private theorem mem_defaultPlanRows (sound : Sound customer project) (member : row ∈ defaultPlanRows project customer featureKey) :
    row.subscriptionId = none ∧ row.allocationScope = .account := by
  rw [defaultPlanRows] at member
  split at member
  · cases member
  · next plan found =>
    split at member
    · cases member
    · obtain ⟨item, listed, rfl⟩ := List.mem_map.mp member
      have passes := List.find?_some found
      have marked := eq_of_beq passes
      exact ⟨rfl, sound.account plan (List.mem_of_find?_eq_some found) marked item (mem_onFeature.mp listed).1⟩

theorem combine_inv {quantity : Nat}
    (combined : combineMeterLimits sources = some (anchor, quantity)) : anchor ∈ sources ∧ anchor.itemKind = .meterLimit ∧
      (anchor.subscriptionId.isSome = true ∨ ∀ row ∈ sources, row.itemKind = .meterLimit → row.subscriptionId = none) := by
  have limits : ∀ row ∈ sources.filter (fun row => row.itemKind == .meterLimit), row ∈ sources ∧ row.itemKind = .meterLimit := by
    intro row member
    rw [List.mem_filter, beq_iff_eq] at member
    exact member
  simp only [combineMeterLimits] at combined
  split at combined
  · next unpaid =>
    obtain ⟨first, found, same⟩ := Option.map_eq_some_iff.mp combined
    cases same
    obtain ⟨inside, kind⟩ := limits _ (List.mem_of_head? found)
    refine ⟨inside, kind, .inr fun row member limit => ?_⟩
    have listed : row ∈ sources.filter (fun row => row.itemKind == .meterLimit) := List.mem_filter.mpr ⟨member, beq_iff_eq.mpr limit⟩
    have free := List.filter_eq_nil_iff.mp unpaid row listed
    exact Option.not_isSome_iff_eq_none.mp free
  · obtain ⟨first, found, same⟩ := Option.map_eq_some_iff.mp combined
    cases same
    have newest : anchor ∈ ((sources.filter fun row => row.itemKind == .meterLimit).filter fun row => row.subscriptionId.isSome) := by
      refine (List.mem_insertionSort fun left right : MeterLimitRow => right.sortAt ≤ left.sortAt).mp ?_
      rcases Option.or_eq_some_iff.mp found with base | ⟨-, first⟩
      · exact List.mem_of_find?_eq_some base
      · exact List.mem_of_head? first
    obtain ⟨listed, paid⟩ := List.mem_filter.mp newest
    obtain ⟨inside, kind⟩ := limits _ listed
    exact ⟨inside, kind, .inl paid⟩

private theorem mixed_none (same : ∀ row ∈ sources, row.subscriptionId.isSome = true → row.allocationScope = anchor.allocationScope) :
    mixedScopeSources sources anchor = [] := by
  rw [mixedScopeSources]
  refine if_pos (List.all_eq_true.mpr fun row member => beq_iff_eq.mpr ?_)
  obtain ⟨inside, paid⟩ := List.mem_filter.mp member
  exact same row inside paid

private theorem sources_agree (sound : Sound customer project) (once : HoldsOnce project customer)
    (limit : anchor.itemKind = .meterLimit) (held : anchor ∈ subscriptionRows project customer featureKey)
    (member : row ∈ subscriptionRows project customer featureKey) : row.allocationScope = anchor.allocationScope := by
  obtain ⟨first, known, owner, live, item, inside, feature, rfl⟩ := mem_subscriptionRows held
  obtain ⟨second, listed, holder, alive, other, targeted, named, rfl⟩ := mem_subscriptionRows member
  by_cases same : first.id = second.id
  · obtain rfl := List.inj_on_of_nodup_map sound.distinct known listed same
    have single := (sound.subscriptions first known).once
    rw [List.inj_on_of_nodup_map single targeted inside (named.trans feature.symm)]
  · obtain ⟨plans, bases⟩ := once first known second listed owner holder live alive same
    have free := sound.apart first known second listed owner holder live alive same item inside other targeted
    exact (scopes_agree free (feature.trans named.symm) limit plans bases).symm

end Sources

/-- As long as a provider revives an account's subscriptions only where the purchase guard would let them through, its sources mix no
declared scopes on any feature while it holds one base plan at most and no plan twice. -/
theorem unmixed_scopes {customer : Nat} {project : Project} (reached : Reaches customer project) (once : HoldsOnce project customer)
    {featureKey : String} {anchor : MeterLimitRow} {quantity : Nat}
    (combined : combineMeterLimits (queryMeterLimitRows project customer featureKey) = some (anchor, quantity)) :
    mixedScopeSources (queryMeterLimitRows project customer featureKey) anchor = [] := by
  have sound := run_sound reached
  obtain ⟨member, limit, paid⟩ := combine_inv combined
  refine mixed_none fun row listed some => ?_
  have subscribed : ∀ source ∈ queryMeterLimitRows project customer featureKey, source.subscriptionId.isSome = true →
      source ∈ subscriptionRows project customer featureKey := by
    intro source inside paidFor
    rcases List.mem_append.mp inside with subscription | default_
    · exact subscription
    · rw [(mem_defaultPlanRows sound default_).1] at paidFor
      cases paidFor
  rcases paid with anchored | unpaid
  · exact sources_agree sound once limit (subscribed anchor member anchored) (subscribed row listed some)
  · have free : anchor.allocationScope = .account := by
      rcases List.mem_append.mp member with subscription | default_
      · obtain ⟨_, _, _, _, _, _, _, rfl⟩ := mem_subscriptionRows subscription
        cases unpaid _ member limit
      · exact (mem_defaultPlanRows sound default_).2
    rw [free]
    obtain ⟨subscription, known, _, _, item, inside, _, rfl⟩ := mem_subscriptionRows (subscribed row listed some)
    cases kind : item.itemKind with
    | meterLimit => cases unpaid _ listed kind
    | unlimitedUsage => exact (sound.subscriptions subscription known).unlimited item inside kind

section Examples

def cappedPlan (key : String) (kind : PlanKind) (scope : MeterLimitScope) : AuthoredPlan :=
  ⟨key, 1, kind, [.meterLimit "f" 10 ⟨.month, 1, Nat.one_pos⟩ .blocked (some scope)]⟩

def twoBasePlans : List Operation :=
  [.publish ⟨[cappedPlan "a" .base .account, cappedPlan "b" .base .entity], none⟩, .purchase 0 "a" 1 none, .purchase 0 "b" 1 none]

/-- An add-on lapses, a plan of another scope is published and bought, and the add-on comes back to life. -/
def revivedAddon : List Operation :=
  [.publish ⟨[cappedPlan "a" .addon .account], none⟩, .purchase 0 "a" 1 none, .reportStatus 0 .expired none,
    .publish ⟨[cappedPlan "b" .base .entity], none⟩, .purchase 0 "b" 1 none, .reportStatus 0 .active none]

/-- The mixed sources of an account once the operations were accepted. -/
def mixedAfter (operations : List Operation) : Except Failure (List MeterLimitRow) := do
  let project ← operations.foldlM Operation.apply (created 0)
  let sources := queryMeterLimitRows project 0 "f"
  .ok ((combineMeterLimits sources).elim [] fun combined => mixedScopeSources sources combined.1)

/-- Accepted operations alone do not keep scopes apart: two base plans mix them, and so does a subscription that comes back to life. -/
theorem unmixed_scopes_fails : (∃ rows, mixedAfter twoBasePlans = .ok rows ∧ rows ≠ []) ∧
    ∃ rows, mixedAfter revivedAddon = .ok rows ∧ rows ≠ [] := by
  have mixes {operations : List Operation} (two : (mixedAfter operations).toOption.map List.length = some 2) :
      ∃ rows, mixedAfter operations = .ok rows ∧ rows ≠ [] := by
    cases ran : mixedAfter operations with
    | error failure =>
      rw [ran] at two
      cases two
    | ok rows =>
      refine ⟨rows, rfl, ?_⟩
      rintro rfl
      rw [ran] at two
      cases two
  exact ⟨mixes rfl, mixes rfl⟩

def publishedPlan : Project :=
  let plan := workingPlan (cappedPlan "a" .base .account)
  ⟨0, [plan], none, [plan], []⟩

def soldPlan : Project :=
  { publishedPlan with subscriptions := [⟨0, 0, workingPlan (cappedPlan "a" .base .account), .active, none, 0⟩] }

def soldLimit : MeterLimitRow :=
  ⟨.meterLimit, some 0, 10, .blocked, some ⟨.month, 1, Nat.one_pos⟩, .base, .account, "a", 1, 0⟩

theorem unmixed_scopes_sold : mixedScopeSources (queryMeterLimitRows soldPlan 0 "f") soldLimit = [] := by
  apply @unmixed_scopes 0 soldPlan _ _ "f" soldLimit 10 rfl
  · have published : Reaches 0 publishedPlan := .step (.created 0) (.publish ⟨[cappedPlan "a" .base .account], none⟩) rfl rfl
    exact .step published (.purchase 0 "a" 1 none) rfl rfl
  · intro first one second two _ _ _ _ apart
    rw [List.mem_singleton.mp one, List.mem_singleton.mp two] at apart
    exact absurd rfl apart

end Examples

end Quotum.MeterLimitSources
