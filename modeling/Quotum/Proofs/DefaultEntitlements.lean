import Quotum.Proofs.DefaultPlans
import Quotum.DefaultEntitlements

/-! The reconciliation of the default plan settles every account, and a read before it reports what a read after it does, metadata
apart, where no plan grant hides another. -/

namespace Quotum.DefaultPlans
open General

variable {row : EntitlementRow}

/-- A default plan that follows the catalog: the grant it holds is the target's, and it holds one wherever it applies. -/
structure Settled (account : DefaultAccount) : Prop where
  follows : ∀ grant ∈ account.grants, grant.status = .active → account.base ≠ .held ∧ ∃ target, account.target = some target ∧
    grant.planVersionId = target.planVersionId ∧ grant.entitlementKeys = target.entitlementKeys
  starts : account.base ≠ .held → account.target.isSome → ∃ grant ∈ account.grants, grant.status = .active

section Settled
variable {items : Nat → Option GrantItem} {account : DefaultAccount} {grant : DefaultGrant}

private theorem held_active (held : account.held = some grant) : grant ∈ account.grants ∧ grant.status = .active := by
  simp only [DefaultAccount.held] at held
  exact ⟨List.mem_of_find?_eq_some held, by simpa using List.find?_some held⟩

private theorem held_none (idle : account.held = none) (member : grant ∈ account.grants) : grant.status ≠ .active := by
  intro active
  have none := List.find?_eq_none.mp idle grant member
  simp [active] at none

private theorem finish_none (held : account.held = some grant)
    (one : ∀ first ∈ account.grants, ∀ second ∈ account.grants, first.status = .active → second.status = .active → first = second)
    {status : PlanGrantStatus} (done : status ≠ .active) :
    ∀ other ∈ (account.finishGrant grant.id status).grants, other.status ≠ .active := by
  intro other member active
  obtain ⟨inside, isActive⟩ := held_active held
  have changed : other ∈ updateAt DefaultGrant.id grant.id (fun row => { row with status := status }) account.grants := member
  obtain ⟨old, oldInside, ⟨-, rfl⟩ | ⟨apart, rfl⟩⟩ := mem_updateAt.mp changed
  · exact done active
  · exact apart (congrArg DefaultGrant.id (one other oldInside grant inside active isActive))

private theorem move_grants (grantId : Nat) (target : DefaultPlanTarget) (versionChanged : Bool) :
    (DefaultAccount.moveGrant items grantId target versionChanged account).grants =
      updateAt DefaultGrant.id grantId (fun grant =>
        { grant with planVersionId := target.planVersionId, entitlementKeys := target.entitlementKeys }) account.grants := by
  simp only [DefaultAccount.moveGrant]
  repeat' split
  all_goals rfl

private theorem reconcile_frame : (DefaultAccount.reconcileDefaultPlanGrant items account).1.base = account.base ∧
    (DefaultAccount.reconcileDefaultPlanGrant items account).1.target = account.target := by
  simp only [DefaultAccount.reconcileDefaultPlanGrant]
  repeat' split
  all_goals first | exact ⟨rfl, rfl⟩ | simp only [DefaultAccount.moveGrant]
  repeat' split
  all_goals exact ⟨rfl, rfl⟩

private theorem reconcile_settles (recorded : account.base ≠ .elapsed)
    (one : ∀ first ∈ account.grants, ∀ second ∈ account.grants, first.status = .active → second.status = .active → first = second) :
    Settled (DefaultAccount.reconcileDefaultPlanGrant items account).1 := by
  obtain ⟨sameBase, sameTarget⟩ := @reconcile_frame items account
  cases held : account.held with
  | some grant =>
    obtain ⟨inside, active⟩ := held_active held
    by_cases taken : account.base = .held
    · have result : (DefaultAccount.reconcileDefaultPlanGrant items account).1 = account.finishGrant grant.id .superseded := by
        simp only [DefaultAccount.reconcileDefaultPlanGrant, held, if_pos taken]
      constructor
      · intro other member isActive
        rw [result] at member
        exact absurd isActive (finish_none held one (by decide) other member)
      · intro free
        rw [sameBase] at free
        exact absurd taken free
    · cases published : account.target with
      | none =>
        have result : (DefaultAccount.reconcileDefaultPlanGrant items account).1 = account.finishGrant grant.id .ended := by
          simp only [DefaultAccount.reconcileDefaultPlanGrant, held, if_neg taken, published]
        constructor
        · intro other member isActive
          rw [result] at member
          exact absurd isActive (finish_none held one (by decide) other member)
        · intro _ some
          rw [sameTarget, published] at some
          cases some
      | some target =>
        by_cases differs : (grant.planVersionId != target.planVersionId || grant.entitlementKeys != target.entitlementKeys) = true
        · have result : (DefaultAccount.reconcileDefaultPlanGrant items account).1 = DefaultAccount.moveGrant items grant.id target
              (grant.planVersionId != target.planVersionId) account := by
            simp only [DefaultAccount.reconcileDefaultPlanGrant, held, if_neg taken, published, if_pos differs]
          have changed := @move_grants items account grant.id target (grant.planVersionId != target.planVersionId)
          rw [← result] at changed
          constructor
          · intro other member isActive
            rw [sameBase, sameTarget]
            refine ⟨taken, target, published, ?_⟩
            rw [changed] at member
            obtain ⟨old, oldInside, ⟨-, rfl⟩ | ⟨apart, rfl⟩⟩ := mem_updateAt.mp member
            · exact ⟨rfl, rfl⟩
            · exact absurd (congrArg DefaultGrant.id (one other oldInside grant inside isActive active)) apart
          · intro _ _
            refine ⟨{ grant with planVersionId := target.planVersionId, entitlementKeys := target.entitlementKeys }, ?_, active⟩
            rw [changed]
            exact mem_updateAt.mpr ⟨grant, inside, .inl ⟨rfl, rfl⟩⟩
        · have result : (DefaultAccount.reconcileDefaultPlanGrant items account).1 = account := by
            simp only [DefaultAccount.reconcileDefaultPlanGrant, held, if_neg taken, published, if_neg differs]
          rw [result]
          constructor
          · intro other member isActive
            refine ⟨taken, target, published, ?_⟩
            rw [one other member grant inside isActive active]
            simpa [not_or] using differs
          · exact fun _ _ => ⟨grant, inside, active⟩
  | none =>
    cases published : account.target with
    | none =>
      have result : (DefaultAccount.reconcileDefaultPlanGrant items account).1 = account := by
        simp only [DefaultAccount.reconcileDefaultPlanGrant, held, published]
      rw [result]
      constructor
      · intro other member isActive
        exact absurd isActive (held_none held member)
      · intro _ some
        rw [published] at some
        cases some
    | some target =>
      by_cases free : account.base = .none
      · have result : (DefaultAccount.reconcileDefaultPlanGrant items account).1 = DefaultAccount.startGrant items target account := by
          simp only [DefaultAccount.reconcileDefaultPlanGrant, held, published, if_pos free]
        constructor
        · intro other member isActive
          rw [sameBase, sameTarget]
          refine ⟨by rw [free]; decide, target, published, ?_⟩
          rw [result] at member
          simp only [DefaultAccount.startGrant, List.mem_append, List.mem_singleton] at member
          rcases member with old | rfl
          · exact absurd isActive (held_none held old)
          · exact ⟨rfl, rfl⟩
        · intro _ _
          rw [result]
          simp only [DefaultAccount.startGrant, List.mem_append, List.mem_singleton]
          exact ⟨_, .inr rfl, rfl⟩
      · have result : (DefaultAccount.reconcileDefaultPlanGrant items account).1 = account := by
          simp only [DefaultAccount.reconcileDefaultPlanGrant, held, published, if_neg free]
        rw [result]
        have taken : account.base = .held := by
          cases base : account.base with
          | none => exact absurd base free
          | held => rfl
          | elapsed => exact absurd base recorded
        constructor
        · intro other member isActive
          exact absurd isActive (held_none held member)
        · intro unheld
          exact absurd taken unheld

private theorem settled_stays (settled : Settled account) : DefaultAccount.reconcileDefaultPlanGrant items account = (account, none) := by
  cases held : account.held with
  | some grant =>
    obtain ⟨inside, active⟩ := held_active held
    obtain ⟨free, target, published, version, keys⟩ := settled.follows grant inside active
    simp [DefaultAccount.reconcileDefaultPlanGrant, held, free, published, version, keys]
  | none =>
    cases published : account.target with
    | none => simp only [DefaultAccount.reconcileDefaultPlanGrant, held, published]
    | some target =>
      by_cases free : account.base = .none
      · obtain ⟨grant, inside, active⟩ := settled.starts (by rw [free]; decide) (by rw [published]; rfl)
        exact absurd active (held_none held inside)
      · simp only [DefaultAccount.reconcileDefaultPlanGrant, held, published, if_neg free]

end Settled

end Quotum.DefaultPlans

namespace Quotum.DefaultEntitlements
open General DefaultPlans SourceStatus EntitledAccount

section Ranks
variable {first second : ActiveSource}

private theorem latestFirst_le {first second : Option Int} (earlier : ActiveSource.latestFirst first ≤ ActiveSource.latestFirst second) :
    ∀ expiry ∈ first, ∃ other ∈ second, other ≤ expiry := by
  intro expiry isExpiry
  rw [Option.mem_def] at isExpiry
  subst isExpiry
  simp only [ActiveSource.latestFirst, Prod.Lex.toLex_le_toLex] at earlier
  cases second with
  | none =>
    rcases earlier with before | same
    · exact absurd before (show ¬ true < false by decide)
    · cases same.1
  | some other =>
    simp only [Option.isSome_some, lt_self_iff_false, true_and, false_or, Option.getD_some] at earlier
    exact ⟨other, rfl, by omega⟩

private theorem latestFirst_inj {first second : Option Int} (same : ActiveSource.latestFirst first = ActiveSource.latestFirst second) :
    first = second := by
  simp only [ActiveSource.latestFirst, toLex_inj, Prod.mk.injEq] at same
  cases first <;> cases second <;> simp at same ⊢
  exact same

private theorem rank_granted (ahead : first.rank ≤ second.rank) (granted : first.granted = true) : second.granted = true := by
  simp only [ActiveSource.rank, Prod.Lex.toLex_le_toLex, granted] at ahead
  rcases ahead with before | same
  · cases other : second.granted with
    | true => rfl
    | false =>
      rw [other] at before
      exact absurd before (by decide)
  · exact same.1.symm

/-- Of two sources of a kind, the first one runs at least as long. -/
private theorem rank_expires (ahead : first.rank ≤ second.rank) (kind : first.granted = second.granted) :
    ∀ expiry ∈ first.expiresAt, ∃ other ∈ second.expiresAt, other ≤ expiry := by
  apply latestFirst_le
  simp only [ActiveSource.rank, Prod.Lex.toLex_le_toLex, kind, lt_self_iff_false, true_and, false_or] at ahead
  rcases ahead with before | same
  · exact before.le
  · exact same.1.le

private theorem rank_same (ahead : first.rank ≤ second.rank) (behind : second.rank ≤ first.rank) :
    first.expiresAt = second.expiresAt ∧ first.priority = second.priority ∧ first.sortId = second.sortId := by
  have same := le_antisymm ahead behind
  simp only [ActiveSource.rank, toLex_inj, Prod.mk.injEq] at same
  exact ⟨latestFirst_inj same.2.1, same.2.2.1, same.2.2.2.2⟩

end Ranks

section Sources
variable {versions : Nat → PlanVersion} {account earlier later : EntitledAccount} {source : ActiveSource} {key : Text}

private theorem mem_paidSources : source ∈ account.paidSources versions ↔
    (∃ row ∈ account.subscriptions, row.running account.clock = true ∧ subscriptionSource versions row = source) ∨
      ∃ row ∈ account.purchases, row.running = true ∧ purchaseSource row = source := by
  simp only [paidSources, List.mem_append, List.mem_map, List.mem_filter, and_assoc]

private theorem mem_termSources : source ∈ account.termSources versions ↔
    ∃ grant ∈ account.planGrants, grant.running account.clock = true ∧
      ∃ key ∈ grant.entitlementKeys, termGrantSource versions grant key = source := by
  simp only [termSources, List.mem_flatMap, List.mem_map, List.mem_filter, and_assoc]

private theorem mem_defaultSources : source ∈ account.defaultSources versions ↔
    ∃ grant ∈ account.defaultGrants, grant.status = .active ∧
      ∃ key ∈ grant.entitlementKeys, defaultGrantSource versions grant key = source := by
  simp only [defaultSources, List.mem_flatMap, List.mem_map, List.mem_filter, and_assoc, beq_iff_eq]

private theorem mem_activeSources : source ∈ account.activeSources versions ↔
    source ∈ account.paidSources versions ∨ source ∈ account.termSources versions ∨ source ∈ account.defaultSources versions := by
  simp only [activeSources, List.mem_append, or_assoc]

private theorem firstSource_spec (found : account.firstSource versions key = some source) :
    source ∈ account.activeSources versions ∧ source.key = key ∧
      ∀ other ∈ account.activeSources versions, other.key = key → source.rank ≤ other.rank := by
  simp only [firstSource] at found
  have member := List.argmin_mem found
  rw [List.mem_filter, beq_iff_eq] at member
  refine ⟨member.1, member.2, ?_⟩
  intro other inside same
  apply List.le_of_mem_argmin _ found
  rw [List.mem_filter, beq_iff_eq]
  exact ⟨inside, same⟩

private theorem firstSource_none (absent : account.firstSource versions key = none) :
    ∀ other ∈ account.activeSources versions, other.key ≠ key := by
  simp only [firstSource, List.argmin_eq_none, List.filter_eq_nil_iff, beq_iff_eq] at absent
  exact absent

private theorem firstSource_some (member : source ∈ account.activeSources versions) :
    ∃ first, account.firstSource versions source.key = some first := by
  cases found : account.firstSource versions source.key with
  | none => exact absurd rfl (firstSource_none found source member)
  | some first => exact ⟨first, rfl⟩

private theorem paid_kind (member : source ∈ account.paidSources versions) : source.granted = false := by
  rcases mem_paidSources.mp member with ⟨row, -, -, rfl⟩ | ⟨row, -, -, rfl⟩ <;> rfl

private theorem term_kind (member : source ∈ account.termSources versions) : source.granted = true ∧ source.expiresAt.isSome ∧
    source.metadata.status = .active ∧ ∃ id, source.source = .planGrant id := by
  obtain ⟨grant, -, running, key, -, rfl⟩ := mem_termSources.mp member
  simp only [TermGrant.running, Bool.and_eq_true, beq_iff_eq] at running
  exact ⟨rfl, rfl, running.1, grant.id, rfl⟩

private theorem default_kind (member : source ∈ account.defaultSources versions) : source.granted = true ∧ source.expiresAt = none ∧
    source.metadata.status = .active ∧ ∃ grant ∈ account.defaultGrants, grant.status = .active ∧
      source.key ∈ grant.entitlementKeys ∧ source.source = .defaultGrant grant.id := by
  obtain ⟨grant, inside, active, key, given, rfl⟩ := mem_defaultSources.mp member
  refine ⟨rfl, rfl, ?_, grant, inside, active, given, rfl⟩
  simp only [defaultGrantSource, active, ofGrant]

private theorem source_expires (member : source ∈ account.activeSources versions) : ∀ expiry ∈ source.expiresAt, account.clock < expiry := by
  intro expiry isExpiry
  rcases mem_activeSources.mp member with paid | term | held
  · rcases mem_paidSources.mp paid with ⟨row, -, running, rfl⟩ | ⟨row, -, -, rfl⟩
    · simp only [SubscriptionSource.running, Bool.and_eq_true] at running
      have same : row.expiresAt = some expiry := isExpiry
      simpa [same] using running.2
    · cases isExpiry
  · obtain ⟨grant, -, running, key, -, rfl⟩ := mem_termSources.mp term
    cases isExpiry
    simp only [TermGrant.running, Bool.and_eq_true, decide_eq_true_eq] at running
    exact running.2
  · rw [(default_kind held).2.1] at isExpiry
    cases isExpiry

/-- Time that passes between writes: only the default plan may change. -/
structure Later (earlier later : EntitledAccount) : Prop where
  clock : earlier.clock ≤ later.clock
  subscriptions : later.subscriptions = earlier.subscriptions
  purchases : later.purchases = earlier.purchases
  planGrants : later.planGrants = earlier.planGrants

variable (passed : Later earlier later)
include passed

theorem Later.paid_back (member : source ∈ later.paidSources versions) :
    source ∈ earlier.paidSources versions := by
  rw [mem_paidSources, passed.subscriptions, passed.purchases] at member
  rw [mem_paidSources]
  rcases member with ⟨row, inside, running, rfl⟩ | bought
  · refine .inl ⟨row, inside, ?_, rfl⟩
    simp only [SubscriptionSource.running, Bool.and_eq_true] at running ⊢
    refine ⟨running.1, ?_⟩
    cases expires : row.expiresAt with
    | none =>
      rw [expires] at running
      exact absurd running.2 (by simp)
    | some expiry =>
      rw [expires] at running
      have := passed.clock
      have := running.2
      simp only [Option.any_some, decide_eq_true_eq] at this ⊢
      omega
  · exact .inr bought

theorem Later.paid_on (member : source ∈ earlier.paidSources versions)
    (runs : ∀ expiry ∈ source.expiresAt, later.clock < expiry) : source ∈ later.paidSources versions := by
  rw [mem_paidSources] at member
  rw [mem_paidSources, passed.subscriptions, passed.purchases]
  rcases member with ⟨row, inside, running, rfl⟩ | bought
  · refine .inl ⟨row, inside, ?_, rfl⟩
    simp only [SubscriptionSource.running, Bool.and_eq_true] at running ⊢
    refine ⟨running.1, ?_⟩
    cases expires : row.expiresAt with
    | none =>
      rw [expires] at running
      exact absurd running.2 (by simp)
    | some expiry =>
      have := runs expiry expires
      simpa using this
  · exact .inr bought

theorem Later.term_back (member : source ∈ later.termSources versions) :
    source ∈ earlier.termSources versions := by
  rw [mem_termSources, passed.planGrants] at member
  rw [mem_termSources]
  obtain ⟨grant, inside, running, given⟩ := member
  refine ⟨grant, inside, ?_, given⟩
  simp only [TermGrant.running, Bool.and_eq_true, decide_eq_true_eq] at running ⊢
  have := passed.clock
  exact ⟨running.1, by omega⟩

theorem Later.term_on (member : source ∈ earlier.termSources versions)
    (runs : ∀ expiry ∈ source.expiresAt, later.clock < expiry) : source ∈ later.termSources versions := by
  rw [mem_termSources] at member
  rw [mem_termSources, passed.planGrants]
  obtain ⟨grant, inside, running, key, given, rfl⟩ := member
  refine ⟨grant, inside, ?_, key, given, rfl⟩
  simp only [TermGrant.running, Bool.and_eq_true, decide_eq_true_eq] at running ⊢
  exact ⟨running.1, runs grant.endsAt rfl⟩

end Sources

section Tables
variable {versions : Nat → PlanVersion} {account : EntitledAccount} {key : Text}

private theorem firstRow_key (found : (account.firstSource versions key).map ActiveSource.row = some row) :
    row.key = key := by
  rw [Option.map_eq_some_iff] at found
  obtain ⟨source, first, rfl⟩ := found
  exact (firstSource_spec first).2.1

private theorem stored_row : findAt EntitlementRow.key key (account.storeEntitlements versions).entitlements =
    ((account.firstSource versions key).map ActiveSource.row).or
      ((findAt EntitlementRow.key key account.entitlements).map account.deactivate) := by
  have under (row : EntitlementRow) :
      (((account.firstSource versions row.key).map ActiveSource.row).getD (account.deactivate row)).key = row.key := by
    cases first : (account.firstSource versions row.key).map ActiveSource.row with
    | none => rfl
    | some taken => exact firstRow_key first
  simp only [storeEntitlements]
  rw [findAt_append, findAt_map fun row _ => under row, findAt_filterMap fun k row => firstRow_key]
  cases first : account.firstSource versions key with
  | none =>
    simp only [Option.map_none, ite_self, Option.or_none, Option.none_or]
    cases found : findAt EntitlementRow.key key account.entitlements with
    | none => rfl
    | some row =>
      obtain ⟨-, rfl⟩ := findAt_inv found
      rw [Option.map_some, Option.map_some, first, Option.map_none, Option.getD_none]
  | some source =>
    simp only [Option.map_some, Option.some_or]
    cases found : findAt EntitlementRow.key key account.entitlements with
    | none =>
      have absent := findAt_none.mp found
      obtain ⟨member, same, -⟩ := firstSource_spec first
      have listed : key ∈ (((account.activeSources versions).map ActiveSource.key).dedup.filter fun key =>
          decide (key ∉ account.entitlements.map EntitlementRow.key)) := by
        rw [List.mem_filter, List.mem_dedup, decide_eq_true_eq]
        exact ⟨same ▸ List.mem_map_of_mem member, absent⟩
      rw [if_pos listed]
      rfl
    | some row =>
      obtain ⟨-, rfl⟩ := findAt_inv found
      rw [Option.map_some, first, Option.map_some, Option.getD_some, Option.some_or]

private theorem stored_keys (once : (account.entitlements.map EntitlementRow.key).Nodup) :
    ((account.storeEntitlements versions).entitlements.map EntitlementRow.key).Nodup := by
  simp only [storeEntitlements, List.map_append, List.map_map]
  rw [filterMap_keys fun k row => firstRow_key, List.nodup_append]
  have kept : account.entitlements.map (EntitlementRow.key ∘ fun row =>
      ((account.firstSource versions row.key).map ActiveSource.row).getD (account.deactivate row)) =
        account.entitlements.map EntitlementRow.key := by
    apply List.map_congr_left
    intro row _
    rw [Function.comp]
    cases first : (account.firstSource versions row.key).map ActiveSource.row with
    | none => rfl
    | some taken => exact firstRow_key first
  rw [kept]
  refine ⟨once, ((List.nodup_dedup _).filter _).filter _, ?_⟩
  intro stored inside added addedInside same
  rw [List.mem_filter, List.mem_filter, decide_eq_true_eq] at addedInside
  exact addedInside.1.2 (same ▸ inside)

end Tables

section Snapshots
variable {versions : Nat → PlanVersion} {account : EntitledAccount} {key : Text}

def shown (versions : Nat → PlanVersion) (account : EntitledAccount) (row : EntitlementRow) : EntitlementEntry :=
  if account.ending versions row then
    { entry account.clock row with
      active := false
      metadata := { (entry account.clock row).metadata with
        status := if (account.defaultPlanReadVersion versions).isSome then .inactive else .ended } }
  else entry account.clock row

def heldEntry (versions : Nat → PlanVersion) (target : DefaultPlanTarget) (key : Text) : EntitlementEntry :=
  ⟨key, true, none, ⟨.planGrant, some .default, .active, some (versions target.planVersionId).planKey, none⟩⟩

def heldAt (versions : Nat → PlanVersion) (account : EntitledAccount) (key : Text) : Option EntitlementEntry :=
  account.target.bind fun target =>
    if account.heldBasePlan versions = false ∧ key ∈ target.entitlementKeys then some (heldEntry versions target key) else none

section StandIn
variable {entries : List EntitlementEntry} {held : EntitlementEntry}

private theorem standIn_find : findAt EntitlementEntry.key key (standIn entries held) =
    if key = held.key then ((findAt EntitlementEntry.key key entries).filter EntitlementEntry.active).or (some held)
    else findAt EntitlementEntry.key key entries := by
  simp only [standIn]
  cases found : findAt EntitlementEntry.key held.key entries with
  | none =>
    simp only
    rw [findAt_append]
    by_cases same : key = held.key
    · subst same
      rw [found, if_pos rfl, findAt, List.find?_cons_of_pos (by simp)]
      rfl
    · rw [if_neg same, findAt, findAt, List.find?_cons_of_neg (by simpa using fun equal => same equal.symm), List.find?_nil,
        Option.or_none]
  | some stored =>
    simp only
    obtain ⟨-, under⟩ := findAt_inv found
    cases live : stored.active with
    | true =>
      by_cases same : key = held.key
      · subst same
        rw [if_pos rfl, if_pos rfl, found, Option.filter_some, live, if_pos rfl, Option.some_or]
      · rw [if_pos rfl, if_neg same]
    | false =>
      rw [if_neg (by decide), findAt_replace entries rfl]
      by_cases same : key = held.key
      · subst same
        rw [if_pos rfl, found, Option.map_some, if_pos under, Option.filter_some, live, if_neg (by decide), Option.none_or]
      · rw [if_neg same]
        cases other : findAt EntitlementEntry.key key entries with
        | none => rfl
        | some row => rw [Option.map_some, if_neg (fun equal => same ((findAt_inv other).2 ▸ equal))]

private theorem standIn_keys (once : (entries.map EntitlementEntry.key).Nodup) :
    ((standIn entries held).map EntitlementEntry.key).Nodup := by
  simp only [standIn]
  cases found : findAt EntitlementEntry.key held.key entries with
  | none =>
    simp only [List.map_append, List.map_cons, List.map_nil]
    exact List.nodup_append.mpr ⟨once, List.nodup_singleton _, fun stored inside other isHeld same => by
      rw [List.mem_singleton] at isHeld
      exact findAt_none.mp found (isHeld ▸ same ▸ inside)⟩
  | some stored =>
    simp only
    split
    · exact once
    · rw [updateAt, List.map_map]
      rw [List.map_congr_left (g := EntitlementEntry.key)]
      · exact once
      · intro row _
        rw [Function.comp]
        split
        · next same => exact same.symm
        · rfl

private theorem standIns_find (keys : List Text) (target : DefaultPlanTarget) (entries : List EntitlementEntry) :
    findAt EntitlementEntry.key key ((keys.map (heldEntry versions target)).foldl standIn entries) =
      if key ∈ keys then ((findAt EntitlementEntry.key key entries).filter EntitlementEntry.active).or
        (some (heldEntry versions target key))
      else findAt EntitlementEntry.key key entries := by
  induction keys generalizing entries with
  | nil => rfl
  | cons first rest ih =>
    rw [List.map_cons, List.foldl_cons, ih, standIn_find]
    by_cases same : key = first
    · subst same
      rw [if_pos (show key = (heldEntry versions target key).key from rfl), if_pos (show key ∈ key :: rest from List.mem_cons_self)]
      cases stored : (findAt EntitlementEntry.key key entries).filter EntitlementEntry.active with
      | none => simp only [Option.none_or, Option.filter_some, heldEntry, if_true, Option.some_or, ite_self]
      | some row =>
        have live := (Option.filter_eq_some_iff.mp stored).2
        simp only [Option.some_or, Option.filter_some, live, if_true, ite_self]
    · rw [if_neg (show key ≠ (heldEntry versions target first).key from same)]
      simp only [List.mem_cons, same, false_or]

private theorem standIns_keys (held : List EntitlementEntry) {entries : List EntitlementEntry}
    (once : (entries.map EntitlementEntry.key).Nodup) : ((held.foldl standIn entries).map EntitlementEntry.key).Nodup := by
  induction held generalizing entries with
  | nil => exact once
  | cons first rest ih => exact ih (standIn_keys once)

end StandIn

private theorem mark_key (ending : List (Text × SourceStatus)) (entry : EntitlementEntry) : (markEnding ending entry).key = entry.key := by
  simp only [markEnding]
  split <;> rfl

private theorem filter_or {α : Type} (p : α → Bool) (found : Option α) : (found.filter p).or found = found := by
  cases found with
  | none => rfl
  | some value => cases kept : p value <;> simp [Option.filter_some, kept]

/-- A read's entries before they are listed. -/
def merged (versions : Nat → PlanVersion) (account : EntitledAccount) : List EntitlementEntry :=
  (account.pendingHeld versions).foldl standIn (account.readEntitlementRows.map (markEnding (account.pendingEnding versions)))

private theorem snapshot_listing : account.getEntitlementSnapshot versions = listing EntitlementEntry.key (merged versions account) := by
  simp only [getEntitlementSnapshot, withPendingEntitlements]
  split
  · next empty =>
    rw [Bool.and_eq_true, List.isEmpty_iff, List.isEmpty_iff] at empty
    have marks : account.readEntitlementRows.map (markEnding []) = account.readEntitlementRows := by
      rw [List.map_congr_left (g := id), List.map_id]
      intro entry _
      rfl
    rw [merged, empty.1, empty.2, List.foldl_nil, marks]
    exact (List.Pairwise.insertionSort_eq (listing_sorted _)).symm
  · rfl

variable (once : (account.entitlements.map EntitlementRow.key).Nodup)
include once

private theorem mark_shown (member : row ∈ account.entitlements) :
    markEnding (account.pendingEnding versions) (entry account.clock row) = shown versions account row := by
  have found : findAt Prod.fst (entry account.clock row).key (account.pendingEnding versions) =
      ((some row).filter (account.ending versions)).map fun row =>
        (row.key, if (account.defaultPlanReadVersion versions).isSome then SourceStatus.inactive else .ended) := by
    have stored : findAt EntitlementRow.key row.key account.entitlements = some row := findAt_member once member
    rw [← stored, ← findAt_filter once, pendingEnding]
    exact findAt_map fun _ _ => rfl
  simp only [markEnding, found, shown]
  cases ends : account.ending versions row with
  | false | true => rw [Option.filter_some, ends]; rfl

private theorem entry_keys : ((account.entitlements.map (entry account.clock)).map EntitlementEntry.key).Nodup := by
  rw [List.map_map]
  exact once

private theorem read_keys : (account.readEntitlementRows.map EntitlementEntry.key).Nodup :=
  ((listing_perm _).map _).nodup_iff.mpr (entry_keys once)

private theorem merged_keys : ((merged versions account).map EntitlementEntry.key).Nodup := by
  apply standIns_keys
  rw [List.map_map, show EntitlementEntry.key ∘ markEnding (account.pendingEnding versions) = EntitlementEntry.key from
    funext fun entry => mark_key _ entry]
  exact read_keys once

/-- What a read reports of a key: the stored entitlement as the next write leaves it, unless it is inactive and the default plan
holds the key. -/
private theorem merged_find :
    findAt EntitlementEntry.key key (merged versions account) =
      (((findAt EntitlementRow.key key account.entitlements).map (shown versions account)).filter EntitlementEntry.active).or
        ((heldAt versions account key).or ((findAt EntitlementRow.key key account.entitlements).map (shown versions account))) := by
  have marked : findAt EntitlementEntry.key key (account.readEntitlementRows.map (markEnding (account.pendingEnding versions))) =
      (findAt EntitlementRow.key key account.entitlements).map (shown versions account) := by
    have entered : findAt EntitlementEntry.key key (account.entitlements.map (entry account.clock)) =
        (findAt EntitlementRow.key key account.entitlements).map (entry account.clock) := findAt_map fun _ _ => rfl
    have listed : findAt EntitlementEntry.key key account.readEntitlementRows =
        findAt EntitlementEntry.key key (account.entitlements.map (entry account.clock)) :=
      findAt_perm (read_keys once) (listing_perm _)
    rw [findAt_map fun entry _ => mark_key _ entry, listed, entered, Option.map_map]
    cases found : findAt EntitlementRow.key key account.entitlements with
    | none => rfl
    | some row => exact congrArg some (mark_shown once (findAt_inv found).1)
  simp only [merged, pendingHeld, heldAt]
  cases published : account.target with
  | none =>
    simp only [List.foldl_nil, marked, Option.bind_none, Option.none_or]
    exact (filter_or _ _).symm
  | some target =>
    simp only [defaultPlanReadVersion, published, Option.map_some, Option.bind_some]
    cases taken : account.heldBasePlan versions with
    | true =>
      simp only [if_true, Option.isSome_none, Bool.false_eq_true, if_false, List.foldl_nil, marked, reduceCtorEq, false_and,
        Option.none_or]
      exact (filter_or _ _).symm
    | false =>
      simp only [Bool.false_eq_true, if_false, Option.isSome_some, if_true, true_and]
      have held := @standIns_find versions key target.entitlementKeys.dedup target
        (account.readEntitlementRows.map (markEnding (account.pendingEnding versions)))
      simp only [List.mem_dedup, marked] at held
      refine held.trans ?_
      split
      · rw [Option.some_or]
      · rw [Option.none_or]
        exact (filter_or _ _).symm

end Snapshots

section Reconciled
variable {versions : Nat → PlanVersion} {account : EntitledAccount} {key : Text} {source : ActiveSource}

private theorem heldBase_iff : account.basePlan versions = .held ↔ account.heldBasePlan versions = true := by
  simp only [basePlan]
  cases account.heldBasePlan versions with
  | true => simp
  | false => cases account.elapsedBaseGrant <;> simp

private theorem reconciled_default : (account.reconcileDefaultPlanGrant versions).1.defaultAccount versions =
    ((account.defaultAccount versions).reconcileDefaultPlanGrant fun version => (versions version).item).1 := by
  have whole (other : DefaultAccount) (clock : other.clock = account.clock) (target : other.target = account.target)
      (base : other.base = account.basePlan versions) :
      ⟨account.clock, account.target, account.basePlan versions, other.grants, other.allowances⟩ = other := by
    obtain ⟨_, _, _, _, _⟩ := other
    subst clock target base
    rfl
  obtain ⟨base, target⟩ := @reconcile_frame (fun version => (versions version).item) (account.defaultAccount versions)
  exact whole _ (@perform_clock (fun version => (versions version).item) (account.defaultAccount versions) .reconcile) target base

theorem reconciled_settled (recorded : account.elapsedBaseGrant = false)
    (one : ∀ first ∈ account.defaultGrants, ∀ second ∈ account.defaultGrants, first.status = .active → second.status = .active →
      first = second) : Settled ((account.reconcileDefaultPlanGrant versions).1.defaultAccount versions) := by
  rw [reconciled_default]
  apply reconcile_settles _ one
  simp only [defaultAccount, basePlan, recorded]
  split <;> decide

/-- A settled account is not out of date, and the next reconciliation changes nothing. -/
theorem settled_current (settled : Settled (account.defaultAccount versions)) :
    account.defaultPlanOutOfDate versions = false ∧ account.reconcileDefaultPlanGrant versions = (account, none) := by
  constructor
  · rw [defaultPlanOutOfDate, Bool.or_eq_false_iff]
    constructor
    · simp only [defaultPlanPending]
      cases published : account.target with
      | none => rfl
      | some target =>
        cases taken : account.heldBasePlan versions with
        | true => simp
        | false =>
          obtain ⟨grant, inside, active⟩ := settled.starts
            (fun held => by rw [heldBase_iff.mp held] at taken; cases taken) (by simp [defaultAccount, published])
          have some : account.defaultGrants.any (fun held => held.status == .active) = true :=
            List.any_eq_true.mpr ⟨grant, inside, by simpa using active⟩
          simp [some]
    · rw [List.any_eq_false]
      intro grant inside
      rw [Bool.and_eq_true, not_and, beq_iff_eq]
      intro active
      obtain ⟨free, target, published, version, keys⟩ := settled.follows grant inside active
      have free : account.heldBasePlan versions = false := Bool.eq_false_iff.mpr fun taken => free (heldBase_iff.mpr taken)
      have published : account.target = some target := published
      simp [published, version, keys, free]
  · simp only [reconcileDefaultPlanGrant, settled_stays settled]
    rfl

private theorem settled_gives (settled : Settled (account.defaultAccount versions)) :
    (∃ source ∈ account.defaultSources versions, source.key = key) ↔ (heldAt versions account key).isSome := by
  constructor
  · rintro ⟨source, member, rfl⟩
    obtain ⟨-, -, -, grant, inside, active, given, -⟩ := default_kind member
    obtain ⟨free, target, published, -, keys⟩ := settled.follows grant inside active
    have free : account.heldBasePlan versions = false := Bool.eq_false_iff.mpr fun taken => free (heldBase_iff.mpr taken)
    have published : account.target = some target := published
    rw [keys] at given
    simp [heldAt, published, free, given]
  · intro held
    simp only [heldAt] at held
    cases published : account.target with
    | none => rw [published] at held; cases held
    | some target =>
      rw [published, Option.bind_some] at held
      split at held
      · next gives =>
        obtain ⟨grant, inside, active⟩ := settled.starts
          (fun held => by rw [heldBase_iff.mp held] at gives; cases gives.1) (by simp [defaultAccount, published])
        obtain ⟨-, other, isTarget, -, keys⟩ := settled.follows grant inside active
        have same : account.target = some other := isTarget
        rw [published, Option.some.injEq] at same
        subst same
        exact ⟨_, mem_defaultSources.mpr ⟨grant, inside, active, key, by rw [keys]; exact gives.2, rfl⟩, rfl⟩
      · cases held

private theorem reads_source (member : source ∈ account.activeSources versions) :
    reads account.clock source.row = true := by
  have expires := source_expires member
  rcases mem_activeSources.mp member with paid | term | held
  · rcases mem_paidSources.mp paid with ⟨row, -, running, rfl⟩ | ⟨row, -, -, rfl⟩
    · simp only [SubscriptionSource.running, Bool.and_eq_true] at running
      exact running.2
    · rfl
  · obtain ⟨grant, -, running, given, -, rfl⟩ := mem_termSources.mp term
    have := expires grant.endsAt rfl
    simpa [reads, ActiveSource.row, termGrantSource] using this
  · obtain ⟨grant, -, -, given, -, rfl⟩ := mem_defaultSources.mp held
    rfl

/-- A running source that the default plan keeps reads as it was stored. -/
private theorem shown_source (member : source ∈ account.activeSources versions) (kept : account.ending versions source.row = false) :
    shown versions account source.row = ⟨source.key, true, source.expiresAt, source.metadata⟩ := by
  simp only [shown, kept, Bool.false_eq_true, if_false, entry, reads_source member, if_true]
  rfl

private theorem ending_source (ends : account.ending versions row = true) :
    row.active = true ∧ (∃ grant ∈ account.defaultGrants, grant.status = .active ∧ row.source = some (.defaultGrant grant.id)) ∧
      heldAt versions account row.key = none := by
  simp only [ending, Bool.and_eq_true, List.any_eq_true, beq_iff_eq, Bool.not_eq_true'] at ends
  obtain ⟨⟨active, grant, inside, source, isActive⟩, dropped⟩ := ends
  refine ⟨active, ⟨grant, inside, isActive, source⟩, ?_⟩
  simp only [heldAt]
  cases published : account.target with
  | none => rfl
  | some target =>
    rw [Option.bind_some, if_neg]
    rintro ⟨free, given⟩
    simp [published, given, defaultPlanReadVersion, free] at dropped

private theorem ending_intro (active : row.active = true) {grant : DefaultGrant} (inside : grant ∈ account.defaultGrants)
    (isActive : grant.status = .active) (source : row.source = some (.defaultGrant grant.id))
    (dropped : heldAt versions account row.key = none) : account.ending versions row = true := by
  simp only [ending, Bool.and_eq_true, List.any_eq_true, beq_iff_eq, Bool.not_eq_true']
  refine ⟨⟨active, grant, inside, source, isActive⟩, ?_⟩
  simp only [heldAt] at dropped
  cases published : account.target with
  | none => rfl
  | some target =>
    rw [published, Option.bind_some] at dropped
    split at dropped
    · cases dropped
    · next without =>
      cases taken : account.heldBasePlan versions with
      | true => simp [defaultPlanReadVersion, taken]
      | false =>
        have absent : row.key ∉ target.entitlementKeys := fun given => without ⟨taken, given⟩
        simp [absent]

/-- The recorded status of a running source is the one it gives. -/
private theorem sourceStatus_source (stored : account.Stored) (member : source ∈ account.activeSources versions) :
    account.sourceStatus source.source = some source.metadata.status := by
  rcases mem_activeSources.mp member with paid | term | held
  · rcases mem_paidSources.mp paid with ⟨row, inside, -, rfl⟩ | ⟨row, inside, -, rfl⟩
    · exact congrArg (Option.map SubscriptionSource.status) (findAt_member stored.subscriptions inside)
    · exact congrArg (Option.map PurchaseSource.status) (findAt_member stored.purchases inside)
  · obtain ⟨grant, inside, -, given, -, rfl⟩ := mem_termSources.mp term
    exact congrArg (Option.map TermGrant.status) (findAt_member stored.planGrants inside)
  · obtain ⟨grant, inside, -, given, -, rfl⟩ := mem_defaultSources.mp held
    exact congrArg (Option.map fun row : DefaultGrant => ofGrant row.status) (findAt_member stored.defaultGrants inside)

private theorem same_rank (stored : account.Stored) {first second : ActiveSource} (firstMember : first ∈ account.activeSources versions)
    (secondMember : second ∈ account.activeSources versions) (ahead : first.rank ≤ second.rank) (behind : second.rank ≤ first.rank) :
    first.expiresAt = second.expiresAt ∧ first.metadata.status = second.metadata.status := by
  obtain ⟨expires, priority, id⟩ := rank_same ahead behind
  refine ⟨expires, ?_⟩
  have others {source : ActiveSource} (member : source ∈ account.activeSources versions) :
      (∃ row ∈ account.subscriptions, subscriptionSource versions row = source) ∨
        source.priority = 2 ∧ source.metadata.status = .completed ∨ source.priority = 3 ∧ source.metadata.status = .active := by
    rcases mem_activeSources.mp member with paid | term | held
    · rcases mem_paidSources.mp paid with ⟨row, inside, -, rfl⟩ | ⟨row, -, running, rfl⟩
      · exact .inl ⟨row, inside, rfl⟩
      · simp only [PurchaseSource.running, Bool.and_eq_true, beq_iff_eq] at running
        exact .inr (.inl ⟨rfl, running.1.1⟩)
    · obtain ⟨-, -, active, -⟩ := term_kind term
      obtain ⟨grant, -, -, given, -, rfl⟩ := mem_termSources.mp term
      exact .inr (.inr ⟨rfl, active⟩)
    · obtain ⟨-, -, active, -⟩ := default_kind held
      obtain ⟨grant, -, -, given, -, rfl⟩ := mem_defaultSources.mp held
      exact .inr (.inr ⟨rfl, active⟩)
  rcases others firstMember with ⟨row, inside, rfl⟩ | ⟨kind, status⟩ | ⟨kind, status⟩
  · rcases others secondMember with ⟨other, otherInside, rfl⟩ | ⟨kind, -⟩ | ⟨kind, -⟩
    · have same : row = other := List.inj_on_of_nodup_map stored.subscriptions inside otherInside id
      rw [same]
    · rw [← priority] at kind
      cases kind
    · rw [← priority] at kind
      cases kind
  · rcases others secondMember with ⟨other, -, rfl⟩ | ⟨-, also⟩ | ⟨alsoKind, -⟩
    · rw [priority] at kind
      cases kind
    · rw [status, also]
    · rw [← priority, kind] at alsoKind
      cases alsoKind
  · rcases others secondMember with ⟨other, -, rfl⟩ | ⟨alsoKind, -⟩ | ⟨-, also⟩
    · rw [priority] at kind
      cases kind
    · rw [← priority, kind] at alsoKind
      cases alsoKind
    · rw [status, also]

private theorem stopped_twice (status : SourceStatus) : status.stopped.stopped = status.stopped := by
  cases status <;> rfl

end Reconciled

section Prediction
variable {versions : Nat → PlanVersion} {earlier : EntitledAccount} {now : Int} {target : Option DefaultPlanTarget} {key : Text}
  {source : ActiveSource}

private theorem since_later (passed : earlier.clock ≤ now) : Later earlier (earlier.since versions now target) :=
  ⟨passed, rfl, rfl, rfl⟩

private theorem since_keys (stored : earlier.Stored) :
    ((earlier.since versions now target).entitlements.map EntitlementRow.key).Nodup := stored_keys stored.keys

private theorem since_row : findAt EntitlementRow.key key (earlier.since versions now target).entitlements =
    ((earlier.firstSource versions key).map ActiveSource.row).or
      ((findAt EntitlementRow.key key earlier.entitlements).map earlier.deactivate) := stored_row

/-- A stored source that runs, and that the default plan keeps, is what a read reports. -/
private theorem merged_source {account : EntitledAccount} (once : (account.entitlements.map EntitlementRow.key).Nodup)
    (row : findAt EntitlementRow.key key account.entitlements = some source.row) (member : source ∈ account.activeSources versions)
    (stays : account.ending versions source.row = false) :
    findAt EntitlementEntry.key key (merged versions account) = some ⟨key, true, source.expiresAt, source.metadata⟩ := by
  have under : source.key = key := (findAt_inv row).2
  rw [merged_find once, row, Option.map_some, shown_source member stays, Option.filter_some, if_pos rfl, Option.some_or, under]

/-- A read after the write reports the first source of a key. -/
private theorem merged_written {account : EntitledAccount} (settled : Settled (account.defaultAccount versions))
    (once : (account.entitlements.map EntitlementRow.key).Nodup) (first : account.firstSource versions key = some source) :
    findAt EntitlementEntry.key key (merged versions (account.storeEntitlements versions)) =
      some ⟨key, true, source.expiresAt, source.metadata⟩ := by
  obtain ⟨member, under, -⟩ := firstSource_spec first
  have stays : (account.storeEntitlements versions).ending versions source.row = false := by
    apply Bool.eq_false_iff.mpr
    intro ends
    obtain ⟨-, ⟨grant, inside, active, from_⟩, dropped⟩ := ending_source ends
    have given : source ∈ account.defaultSources versions := by
      rcases mem_activeSources.mp member with paid | term | held
      · rcases mem_paidSources.mp paid with ⟨row, -, -, rfl⟩ | ⟨row, -, -, rfl⟩ <;> cases from_
      · obtain ⟨-, -, -, id, isTerm⟩ := term_kind term
        have same : some source.source = some (.defaultGrant grant.id) := from_
        rw [isTerm] at same
        cases same
      · exact held
    have held := (settled_gives settled).mp ⟨source, given, rfl⟩
    have none : heldAt versions account source.key = none := dropped
    rw [none] at held
    cases held
  have row : findAt EntitlementRow.key key (account.storeEntitlements versions).entitlements = some source.row := by
    rw [stored_row, first, Option.map_some, Option.some_or]
  exact @merged_source versions key source (account.storeEntitlements versions) (stored_keys once) row member stays

/-- Without a source, a read after the write reports what the key's row was, inactive. -/
private theorem merged_dropped {account : EntitledAccount} (settled : Settled (account.defaultAccount versions))
    (once : (account.entitlements.map EntitlementRow.key).Nodup) (none : account.firstSource versions key = none) :
    heldAt versions account key = Option.none ∧ findAt EntitlementEntry.key key (merged versions (account.storeEntitlements versions)) =
      (findAt EntitlementRow.key key account.entitlements).map fun row => entry account.clock (account.deactivate row) := by
  have unheld : heldAt versions account key = Option.none := by
    rw [← Option.not_isSome_iff_eq_none, ← settled_gives settled]
    rintro ⟨source, member, under⟩
    exact firstSource_none none source (mem_activeSources.mpr (.inr (.inr member))) under
  refine ⟨unheld, ?_⟩
  have same : heldAt versions (account.storeEntitlements versions) key = Option.none := unheld
  rw [merged_find (stored_keys once), same, Option.none_or, stored_row, none, Option.map_none, Option.none_or, Option.map_map]
  cases findAt EntitlementRow.key key account.entitlements with
  | none => rfl
  | some row =>
    have stays : (account.storeEntitlements versions).ending versions (account.deactivate row) = false := rfl
    simp only [Option.map_some, Function.comp, shown, stays, Bool.false_eq_true, if_false]
    rfl

private theorem stored_active (found : findAt EntitlementRow.key key (earlier.storeEntitlements versions).entitlements = some row)
    (active : row.active = true ∨ row.source ≠ none) :
    ∃ source, earlier.firstSource versions key = some source ∧ row = source.row := by
  rw [stored_row] at found
  cases first : earlier.firstSource versions key with
  | some source =>
    rw [first, Option.map_some, Option.some_or, Option.some.injEq] at found
    exact ⟨source, rfl, found.symm⟩
  | none =>
    rw [first, Option.map_none, Option.none_or, Option.map_eq_some_iff] at found
    obtain ⟨old, -, rfl⟩ := found
    rcases active with active | sourced
    · cases active
    · exact absurd rfl sourced

private theorem ending_default {account : EntitledAccount}
    (apart : ∀ id, source.source ≠ .defaultGrant id) : account.ending versions source.row = false := by
  apply Bool.eq_false_iff.mpr
  intro ends
  obtain ⟨-, ⟨grant, -, -, isDefault⟩, -⟩ := ending_source ends
  exact apart grant.id (Option.some.inj isDefault)

private theorem paid_apart {account : EntitledAccount} (member : source ∈ account.paidSources versions) :
    ∀ id, source.source ≠ .defaultGrant id := by
  rcases mem_paidSources.mp member with ⟨row, -, -, rfl⟩ | ⟨row, -, -, rfl⟩ <;> rintro id ⟨⟩

private theorem term_apart {account : EntitledAccount} (member : source ∈ account.termSources versions) :
    ∀ id, source.source ≠ .defaultGrant id := by
  obtain ⟨-, -, -, grant, same⟩ := term_kind member
  intro id
  rw [same]
  rintro ⟨⟩

/-- A read reports the key as given by a source that ranks like this one. -/
def ReadsAs (versions : Nat → PlanVersion) (account : EntitledAccount) (key : Text) (first : ActiveSource) : Prop :=
  ∃ source : ActiveSource, findAt EntitlementEntry.key key (merged versions account) = some ⟨key, true, source.expiresAt, source.metadata⟩ ∧
    source.expiresAt = first.expiresAt ∧ source.metadata.status = first.metadata.status

private theorem reconciled_status {account : EntitledAccount}
    (ids : (account.defaultGrants.map DefaultGrant.id).Nodup)
    (one : ∀ first ∈ account.defaultGrants, ∀ second ∈ account.defaultGrants, first.status = .active → second.status = .active →
      first = second) (free : account.heldBasePlan versions = false) {grant : DefaultGrant} (inside : grant ∈ account.defaultGrants)
    (active : grant.status = .active) :
    (account.reconcileDefaultPlanGrant versions).1.sourceStatus (.defaultGrant grant.id) =
      some (if account.target.isSome then .active else .ended) := by
  have unheld : account.basePlan versions ≠ .held := fun taken => by
    rw [heldBase_iff.mp taken] at free
    cases free
  have held : (account.defaultAccount versions).held = some grant := by
    cases found : (account.defaultAccount versions).held with
    | none => exact absurd active (held_none found inside)
    | some other =>
      obtain ⟨otherInside, otherActive⟩ := held_active found
      rw [one other otherInside grant inside otherActive active]
  have updated (change : DefaultGrant → DefaultGrant) (kept : ∀ row, (change row).id = row.id) :
      (findAt DefaultGrant.id grant.id (updateAt DefaultGrant.id grant.id change account.defaultGrants)) = some (change grant) :=
    findAt_update ids inside kept
  simp only [reconcileDefaultPlanGrant, DefaultAccount.reconcileDefaultPlanGrant, held, sourceStatus]
  rw [if_neg (show (account.defaultAccount versions).base ≠ .held from unheld)]
  cases published : account.target with
  | none =>
    have none : (account.defaultAccount versions).target = none := published
    simp only [none]
    exact congrArg (Option.map fun row : DefaultGrant => ofGrant row.status) (updated (fun row => { row with status := .ended }) fun _ => rfl)
  | some target =>
    have some : (account.defaultAccount versions).target = some target := published
    simp only [some, Option.isSome_some, if_true]
    split
    · simp only [move_grants]
      refine (congrArg (Option.map fun row : DefaultGrant => ofGrant row.status) (updated (fun row =>
        { row with planVersionId := target.planVersionId, entitlementKeys := target.entitlementKeys }) fun _ => rfl)).trans ?_
      simp only [Option.map_some, active, ofGrant]
    · refine (congrArg (Option.map fun row : DefaultGrant => ofGrant row.status) (findAt_member ids inside)).trans ?_
      simp only [Option.map_some, active, ofGrant]

private theorem deactivated_outline {account : EntitledAccount} (row : EntitlementRow) (taken : Bool) :
    (entry now (account.deactivate row)).outline taken = ⟨row.key, false, row.expiresAt, if taken then none else
      some ((row.source.bind account.sourceStatus).getD row.metadata.status).stopped.stopped⟩ := rfl

private theorem inactive_outline {account : EntitledAccount} {taken : Bool} (kept : account.ending versions row = false)
    (unread : reads account.clock row = false) : (shown versions account row).outline taken =
      ⟨row.key, false, row.expiresAt, if taken then none else some row.metadata.status.stopped⟩ := by
  simp only [shown, kept, Bool.false_eq_true, if_false, EntitlementEntry.outline, entry, unread, inactiveEntitlementMetadata]

private theorem ended_outline {account : EntitledAccount} {taken : Bool} (ends : account.ending versions row = true) :
    (shown versions account row).outline taken = ⟨row.key, false, row.expiresAt, if taken then none else
      some (if (account.defaultPlanReadVersion versions).isSome then .inactive else .ended)⟩ := by
  simp only [shown, ends, if_true, EntitlementEntry.outline]
  rfl

section
variable {account : EntitledAccount} (since : account = earlier.since versions now target) (passed : earlier.clock ≤ now)
include since passed

/-- A stored source that still reads as active still runs, or is the default plan's. -/
private theorem still_running (member : source ∈ earlier.activeSources versions)
    (read : reads now source.row = true) : source ∈ account.paidSources versions ∨
      source ∈ account.termSources versions ∨ source ∈ earlier.defaultSources versions := by
  subst since
  have later := @since_later versions earlier now target passed
  rcases mem_activeSources.mp member with paid | term | held
  · left
    apply later.paid_on paid
    rcases mem_paidSources.mp paid with ⟨row, -, running, rfl⟩ | ⟨row, -, -, rfl⟩
    · intro expiry isExpiry
      have expires : row.expiresAt = some expiry := isExpiry
      have runs : row.expiresAt.any (fun expiry => decide (now < expiry)) = true := read
      rw [expires, Option.any_some, decide_eq_true_eq] at runs
      exact runs
    · intro expiry isExpiry
      cases isExpiry
  · right
    left
    apply later.term_on term
    obtain ⟨grant, -, -, given, -, rfl⟩ := mem_termSources.mp term
    intro expiry isExpiry
    cases isExpiry
    simp only [reads, ActiveSource.row, termGrantSource, Bool.true_and, Option.all_some, decide_eq_true_eq] at read
    exact read
  · exact .inr (.inr held)

variable (stored : earlier.Stored)
include stored

/-- A key that a running paid source gives reads as the write leaves it. -/
private theorem predicted_paid {first : ActiveSource}
    (paid : first ∈ account.paidSources versions)
    (least : ∀ other ∈ account.paidSources versions, other.key = key → first.rank ≤ other.rank)
    (under : first.key = key) :
    ReadsAs versions account key first := by
  subst since
  have later := @since_later versions earlier now target passed
  have before := later.paid_back paid
  have active : first ∈ earlier.activeSources versions := mem_activeSources.mpr (.inl before)
  obtain ⟨source, found⟩ := firstSource_some active
  rw [under] at found
  obtain ⟨member, sourceUnder, first_⟩ := firstSource_spec found
  have ahead := first_ first active under
  have kind : source.granted = false := by
    have free := paid_kind before
    apply Bool.eq_false_iff.mpr
    intro granted
    rw [rank_granted ahead granted] at free
    cases free
  have bought : source ∈ earlier.paidSources versions := by
    rcases mem_activeSources.mp member with bought | term | held
    · exact bought
    · rw [(term_kind term).1] at kind
      cases kind
    · rw [(default_kind held).1] at kind
      cases kind
  have runs : source ∈ (earlier.since versions now target).paidSources versions := by
    apply later.paid_on bought
    intro expiry isExpiry
    obtain ⟨other, isOther, sooner⟩ := rank_expires ahead (kind.trans (paid_kind before).symm) expiry isExpiry
    have reached : now < other := source_expires (mem_activeSources.mpr (.inl paid)) other isOther
    exact Int.lt_of_lt_of_le reached sooner
  have row : findAt EntitlementRow.key key (earlier.since versions now target).entitlements = some source.row := by
    rw [since_row, found, Option.map_some, Option.some_or]
  refine ⟨source, merged_source (since_keys stored) row (mem_activeSources.mpr (.inl runs)) (ending_default (paid_apart runs)), ?_⟩
  exact same_rank stored member active ahead (least source runs sourceUnder)

/-- So does a key that only a plan grant other than the default gives, and that was stored from such a grant. -/
private theorem predicted_term {first : ActiveSource}
    (term : first ∈ account.termSources versions)
    (least : ∀ other ∈ account.termSources versions, other.key = key → first.rank ≤ other.rank)
    (under : first.key = key)
    (found : findAt EntitlementRow.key key account.entitlements = some row) {id : Nat}
    (from_ : row.source = some (.planGrant id)) :
    ReadsAs versions account key first := by
  subst since
  have later := @since_later versions earlier now target passed
  have before := later.term_back term
  have active : first ∈ earlier.activeSources versions := mem_activeSources.mpr (.inr (.inl before))
  obtain ⟨source, isFirst, rfl⟩ := stored_active found (.inr (by rw [from_]; exact Option.some_ne_none _))
  obtain ⟨member, sourceUnder, ranked⟩ := firstSource_spec isFirst
  have ahead := ranked first active under
  have isTerm : source.source = .planGrant id := Option.some.inj from_
  have given : source ∈ earlier.termSources versions := by
    rcases mem_activeSources.mp member with paid | given | held
    · rcases mem_paidSources.mp paid with ⟨row, -, -, rfl⟩ | ⟨row, -, -, rfl⟩ <;> cases isTerm
    · exact given
    · obtain ⟨-, -, -, grant, -, -, -, isDefault⟩ := default_kind held
      rw [isTerm] at isDefault
      cases isDefault
  have runs : source ∈ (earlier.since versions now target).termSources versions := by
    apply later.term_on given
    intro expiry isExpiry
    obtain ⟨other, isOther, sooner⟩ := rank_expires ahead ((term_kind given).1.trans (term_kind before).1.symm) expiry isExpiry
    have reached : now < other := source_expires (mem_activeSources.mpr (.inr (.inl term))) other isOther
    exact Int.lt_of_lt_of_le reached sooner
  refine ⟨source, merged_source (since_keys stored) found (mem_activeSources.mpr (.inr (.inl runs))) (ending_default (term_apart runs)), ?_⟩
  exact same_rank stored member active ahead (least source runs sourceUnder)

/-- A key that the default plan holds reads as active without an end, where no running plan grant shares it. -/
private theorem predicted_default {held : EntitlementEntry}
    (holds : heldAt versions account key = some held)
    (unpaid : ∀ source ∈ account.paidSources versions, source.key ≠ key)
    (alone : ∀ source ∈ account.termSources versions, source.key ≠ key) :
    ∃ entry, findAt EntitlementEntry.key key (merged versions account) = some entry ∧ entry.key = key ∧
      entry.active = true ∧ entry.expiresAt = none ∧ entry.metadata.status = .active := by
  subst since
  have isHeld : held.key = key ∧ held.active = true ∧ held.expiresAt = none ∧ held.metadata.status = .active := by
    simp only [heldAt, Option.bind_eq_some_iff, Option.ite_none_right_eq_some, Option.some.injEq] at holds
    obtain ⟨published, -, -, rfl⟩ := holds
    exact ⟨rfl, rfl, rfl, rfl⟩
  rw [merged_find (since_keys stored), holds, Option.some_or]
  cases read : ((findAt EntitlementRow.key key (earlier.since versions now target).entitlements).map
      (shown versions (earlier.since versions now target))).filter EntitlementEntry.active with
  | none => exact ⟨held, rfl, isHeld⟩
  | some stays =>
    refine ⟨stays, rfl, ?_⟩
    rw [Option.filter_eq_some_iff, Option.map_eq_some_iff] at read
    obtain ⟨⟨row, found, rfl⟩, active⟩ := read
    have kept : (earlier.since versions now target).ending versions row = false := by
      apply Bool.eq_false_iff.mpr
      intro ends
      simp only [shown, ends, if_true, Bool.false_eq_true] at active
    simp only [shown, kept, Bool.false_eq_true, if_false] at active ⊢
    have isRead : reads now row = true := active
    have wasActive : row.active = true := by
      simp only [reads, Bool.and_eq_true] at isRead
      exact isRead.1
    obtain ⟨source, isFirst, rfl⟩ := stored_active found (.inl wasActive)
    obtain ⟨member, under, -⟩ := firstSource_spec isFirst
    rcases still_running rfl passed member isRead with paid | term | given
    · exact absurd under (unpaid source paid)
    · exact absurd under (alone source term)
    · obtain ⟨-, endless, status, -⟩ := default_kind given
      refine ⟨under, active, endless, ?_⟩
      have reading : (entry now source.row).metadata = source.metadata := if_pos isRead
      rw [show (entry (earlier.since versions now target).clock source.row).metadata = source.metadata from reading]
      exact status

/-- A key that nothing gives reads as the write leaves it: inactive, with what was stored of it. -/
private theorem predicted_dropped (unheld : heldAt versions account key = none)
    (unpaid : ∀ source ∈ account.paidSources versions, source.key ≠ key)
    (ungranted : ∀ source ∈ account.termSources versions, source.key ≠ key)
    (found : findAt EntitlementRow.key key account.entitlements = some row) :
    (shown versions account row).outline (account.takenOver versions) =
      (entry now (((account.reconcileDefaultPlanGrant versions).1).deactivate row)).outline
        (account.takenOver versions) := by
  subst since
  rw [deactivated_outline]
  by_cases sourced : row.source = none
  · have kept : (earlier.since versions now target).ending versions row = false := by
      apply Bool.eq_false_iff.mpr
      intro ends
      obtain ⟨-, ⟨grant, -, -, from_⟩, -⟩ := ending_source ends
      rw [sourced] at from_
      cases from_
    rw [inactive_outline kept (by simp only [reads, sourced, Bool.and_false]), sourced, Option.bind_none, Option.getD_none, stopped_twice]
  · obtain ⟨source, isFirst, rfl⟩ := stored_active found (.inr sourced)
    obtain ⟨member, under, -⟩ := firstSource_spec isFirst
    have recorded := sourceStatus_source stored member
    have other (apart : ∀ id, source.source ≠ .defaultGrant id) :
        (shown versions (earlier.since versions now target) source.row).outline ((earlier.since versions now target).takenOver versions) =
          ⟨source.row.key, false, source.row.expiresAt, if (earlier.since versions now target).takenOver versions then none else
            some ((source.row.source.bind ((earlier.since versions now target).reconcileDefaultPlanGrant versions).1.sourceStatus).getD
              source.row.metadata.status).stopped.stopped⟩ := by
      have unread : reads now source.row = false := by
        apply Bool.eq_false_iff.mpr
        intro isRead
        rcases still_running rfl passed member isRead with paid | term | given
        · exact unpaid source paid under
        · exact ungranted source term under
        · obtain ⟨-, -, -, grant, -, -, -, isDefault⟩ := default_kind given
          exact apart grant.id isDefault
      have same : ((earlier.since versions now target).reconcileDefaultPlanGrant versions).1.sourceStatus source.source =
          some source.metadata.status := by
        rw [← recorded]
        cases ref : source.source with
        | subscription id | purchase id | planGrant id => rfl
        | defaultGrant id => exact absurd ref (apart id)
      rw [inactive_outline (ending_default apart) unread, stopped_twice,
        show source.row.source.bind ((earlier.since versions now target).reconcileDefaultPlanGrant versions).1.sourceStatus =
          some source.metadata.status from same, Option.getD_some]
      rfl
    rcases mem_activeSources.mp member with paid | term | given
    · exact other (paid_apart paid)
    · exact other (term_apart term)
    · obtain ⟨-, -, -, grant, inside, active, -, isDefault⟩ := default_kind given
      have ends : (earlier.since versions now target).ending versions source.row = true :=
        ending_intro rfl inside active (congrArg some isDefault) (by rw [show source.row.key = key from under]; exact unheld)
      rw [ended_outline ends]
      cases taken : (earlier.since versions now target).takenOver versions with
      | true => rfl
      | false =>
        have free : (earlier.since versions now target).heldBasePlan versions = false := by
          apply Bool.eq_false_iff.mpr
          intro held
          have some : (earlier.since versions now target).defaultGrants.any (fun grant => grant.status == .active) = true :=
            List.any_eq_true.mpr ⟨grant, inside, by simpa using active⟩
          rw [takenOver, held, some] at taken
          cases taken
        have status := @reconciled_status versions (earlier.since versions now target) stored.defaultGrants stored.one free grant inside
          active
        rw [show source.row.source = some (.defaultGrant grant.id) from congrArg some isDefault, Option.bind_some, status,
          Option.getD_some]
        simp only [defaultPlanReadVersion, free, Bool.false_eq_true, if_false, Option.isSome_map]
        cases (earlier.since versions now target).target with
        | none => rfl
        | some published => rfl

/-- Key by key, a read before the write says what a read after it does. -/
private theorem predicted (recorded : account.elapsedBaseGrant = false) (unshared : account.UnsharedKey versions key) :
    (findAt EntitlementEntry.key key (merged versions account)).map (EntitlementEntry.outline (account.takenOver versions)) =
      (findAt EntitlementEntry.key key (merged versions (account.recomputeCustomerEntitlements versions))).map
        (EntitlementEntry.outline (account.takenOver versions)) := by
  have keys : (account.entitlements.map EntitlementRow.key).Nodup := since ▸ since_keys stored
  have settled := @reconciled_settled versions account recorded (since ▸ stored.one)
  have once : ((account.reconcileDefaultPlanGrant versions).1.entitlements.map EntitlementRow.key).Nodup := keys
  cases first : (account.reconcileDefaultPlanGrant versions).1.firstSource versions key with
  | none =>
    obtain ⟨unheld, written⟩ := merged_dropped settled once first
    have absent := firstSource_none first
    have unpaid : ∀ source ∈ account.paidSources versions, source.key ≠ key :=
      fun source member => absent source (mem_activeSources.mpr (.inl member))
    have ungranted : ∀ source ∈ account.termSources versions, source.key ≠ key :=
      fun source member => absent source (mem_activeSources.mpr (.inr (.inl member)))
    rw [recomputeCustomerEntitlements, written, merged_find keys,
      show heldAt versions account key = none from unheld, Option.none_or,
      show (account.reconcileDefaultPlanGrant versions).1.entitlements =
        account.entitlements from rfl]
    cases found : findAt EntitlementRow.key key account.entitlements with
    | none => rfl
    | some row =>
      have same := predicted_dropped since passed stored unheld unpaid ungranted found
      rw [Option.map_some, Option.filter_some]
      split
      · rw [Option.some_or]
        exact congrArg some same
      · rw [Option.none_or]
        exact congrArg some same
  | some source =>
    rw [recomputeCustomerEntitlements, merged_written settled once first]
    obtain ⟨member, under, ranked⟩ := firstSource_spec first
    have paidRank : ∀ other ∈ account.paidSources versions, other.key = key → source.rank ≤ other.rank :=
      fun other inside same => ranked other (mem_activeSources.mpr (.inl inside)) same
    have termRank : ∀ other ∈ account.termSources versions, other.key = key → source.rank ≤ other.rank :=
      fun other inside same => ranked other (mem_activeSources.mpr (.inr (.inl inside))) same
    have unpaid (granted : source.granted = true) : ∀ other ∈ account.paidSources versions, other.key ≠ key := by
      intro other inside same
      have kind := rank_granted (paidRank other inside same) granted
      rw [paid_kind inside] at kind
      cases kind
    have only (granted : source.granted = true) {other : ActiveSource}
        (inside : other ∈ account.termSources versions) (same : other.key = key) :
        account.grantedOnly versions key = true := by
      simp only [grantedOnly, Bool.and_eq_true, List.any_eq_true, beq_iff_eq, Bool.not_eq_true', List.any_eq_false]
      exact ⟨⟨other, inside, same⟩, unpaid granted⟩
    rcases mem_activeSources.mp member with paid | term | held
    · obtain ⟨stays, read, expires, status⟩ := predicted_paid since passed stored paid paidRank under
      rw [read, Option.map_some, Option.map_some]
      simp only [EntitlementEntry.outline, expires, status]
    · obtain ⟨⟨row, inside, sameKey, id, from_⟩, -⟩ := unshared (only (term_kind term).1 term under)
      have found := (findAt_mem keys).mpr ⟨inside, sameKey⟩
      obtain ⟨stays, read, expires, status⟩ := predicted_term since passed stored term termRank under found from_
      rw [read, Option.map_some, Option.map_some]
      simp only [EntitlementEntry.outline, expires, status]
    · obtain ⟨granted, endless, status, -⟩ := default_kind held
      obtain ⟨entry, holds⟩ := Option.isSome_iff_exists.mp ((settled_gives settled).mp ⟨source, held, under⟩)
      have alone : ∀ other ∈ account.termSources versions, other.key ≠ key := by
        intro other inside same
        have dropped := (unshared (only granted inside same)).2
        have isHeld : heldAt versions account key = some entry := holds
        simp only [heldAt, Option.bind_eq_some_iff, Option.ite_none_right_eq_some] at isHeld
        obtain ⟨published, isTarget, ⟨-, given⟩, -⟩ := isHeld
        exact dropped published isTarget given
      obtain ⟨stays, read, sameKey, active, expires, isActive⟩ := predicted_default since passed stored holds (unpaid granted) alone
      rw [read, Option.map_some, Option.map_some]
      simp only [EntitlementEntry.outline, sameKey, active, expires, isActive, endless, status]

end

/-- The reconciliation of the default plan converges from every account whose base grants are recorded, and a read of the account
since its last recompute says which entitlements the next write leaves. -/
theorem default_plan_converges (versions : Nat → PlanVersion) :
    (∀ account : EntitledAccount, account.Stored → account.elapsedBaseGrant = false →
      (account.reconcileDefaultPlanGrant versions).1.defaultPlanOutOfDate versions = false ∧
        (account.reconcileDefaultPlanGrant versions).1.reconcileDefaultPlanGrant versions =
          ((account.reconcileDefaultPlanGrant versions).1, none)) ∧
    ∀ (earlier : EntitledAccount) (now : Int) (target : Option DefaultPlanTarget), earlier.Stored → earlier.clock ≤ now →
      (earlier.since versions now target).elapsedBaseGrant = false →
      (∀ key, (earlier.since versions now target).UnsharedKey versions key →
        (findAt EntitlementEntry.key key ((earlier.since versions now target).getEntitlementSnapshot versions)).map
            (EntitlementEntry.outline ((earlier.since versions now target).takenOver versions)) =
          (findAt EntitlementEntry.key key
            (((earlier.since versions now target).recomputeCustomerEntitlements versions).getEntitlementSnapshot versions)).map
              (EntitlementEntry.outline ((earlier.since versions now target).takenOver versions))) ∧
      ((earlier.since versions now target).Unshared versions →
        ((earlier.since versions now target).getEntitlementSnapshot versions).map
            (EntitlementEntry.outline ((earlier.since versions now target).takenOver versions)) =
          (((earlier.since versions now target).recomputeCustomerEntitlements versions).getEntitlementSnapshot versions).map
            (EntitlementEntry.outline ((earlier.since versions now target).takenOver versions))) := by
  constructor
  · intro account stored recorded
    exact settled_current (reconciled_settled recorded stored.one)
  · intro earlier now target stored passed recorded
    generalize since : earlier.since versions now target = account at recorded ⊢
    have keys : (account.entitlements.map EntitlementRow.key).Nodup := since ▸ since_keys stored
    have before : ((merged versions account).map EntitlementEntry.key).Nodup := merged_keys keys
    have after : ((merged versions (account.recomputeCustomerEntitlements versions)).map EntitlementEntry.key).Nodup :=
      merged_keys (stored_keys keys)
    rw [snapshot_listing, snapshot_listing]
    constructor
    · intro key unshared
      rw [← findAt_perm before (listing_perm _).symm, ← findAt_perm after (listing_perm _).symm]
      exact predicted since.symm passed stored recorded unshared
    · intro unshared
      have kept : ∀ entry : EntitlementEntry, (entry.outline (account.takenOver versions)).key = entry.key := fun _ => rfl
      apply listing_congr kept before after
      intro key
      convert predicted since.symm passed stored recorded (unshared key)

end Prediction

/-- Version 9 is an add-on's, every other one the free base plan's. -/
def sampleVersions (version : Nat) : PlanVersion :=
  if version = 9 then ⟨['x'], .addon, none⟩ else ⟨['f'], .base, none⟩

def sampleAccount : EntitledAccount where
  clock := 5
  target := some ⟨1, [['f'], ['g']]⟩
  subscriptions := [⟨1, ['s'], .active, 0, some 6, some 9⟩]
  purchases := []
  planGrants := [⟨1, 9, .addon, true, .active, 20, [['a']]⟩]
  defaultGrants := [⟨0, 1, [['f'], ['g']], 0, .active⟩]
  allowances := []
  entitlements := []

private theorem sampleAccount_stored : sampleAccount.Stored where
  subscriptions := by decide
  purchases := by decide
  planGrants := by decide
  defaultGrants := by decide
  one := by decide
  keys := by decide

private theorem sampleAccount_unshared : (sampleAccount.since sampleVersions 7 (some ⟨2, [['f']]⟩)).Unshared sampleVersions := by
  intro key granted
  obtain rfl : ['a'] = key := by
    simp only [grantedOnly, Bool.and_eq_true, List.any_eq_true, beq_iff_eq] at granted
    obtain ⟨⟨source, member, rfl⟩, -⟩ := granted
    obtain ⟨grant, inside, -, given, isGiven, rfl⟩ := mem_termSources.mp member
    obtain rfl := List.mem_singleton.mp inside
    exact (List.mem_singleton.mp isGiven).symm
  refine ⟨⟨⟨['a'], true, some 20, some (.planGrant 1), ⟨.planGrant, some .promotion, .active, some ['x'], some (.planGrant 1)⟩⟩, ?_⟩, ?_⟩
  · exact ⟨by decide, rfl, 1, rfl⟩
  · decide

theorem default_plan_converges_republished :
    ((sampleAccount.reconcileDefaultPlanGrant sampleVersions).1.defaultPlanOutOfDate sampleVersions = false ∧
      (sampleAccount.reconcileDefaultPlanGrant sampleVersions).1.reconcileDefaultPlanGrant sampleVersions =
        ((sampleAccount.reconcileDefaultPlanGrant sampleVersions).1, none)) ∧
    ((findAt EntitlementEntry.key ['a'] ((sampleAccount.since sampleVersions 7 (some ⟨2, [['f']]⟩)).getEntitlementSnapshot
        sampleVersions)).map (EntitlementEntry.outline ((sampleAccount.since sampleVersions 7 (some ⟨2, [['f']]⟩)).takenOver sampleVersions)) =
      (findAt EntitlementEntry.key ['a'] (((sampleAccount.since sampleVersions 7 (some ⟨2, [['f']]⟩)).recomputeCustomerEntitlements
        sampleVersions).getEntitlementSnapshot sampleVersions)).map
          (EntitlementEntry.outline ((sampleAccount.since sampleVersions 7 (some ⟨2, [['f']]⟩)).takenOver sampleVersions))) ∧
    ((sampleAccount.since sampleVersions 7 (some ⟨2, [['f']]⟩)).getEntitlementSnapshot sampleVersions).map
        (EntitlementEntry.outline ((sampleAccount.since sampleVersions 7 (some ⟨2, [['f']]⟩)).takenOver sampleVersions)) =
      (((sampleAccount.since sampleVersions 7 (some ⟨2, [['f']]⟩)).recomputeCustomerEntitlements sampleVersions).getEntitlementSnapshot
        sampleVersions).map
          (EntitlementEntry.outline ((sampleAccount.since sampleVersions 7 (some ⟨2, [['f']]⟩)).takenOver sampleVersions)) :=
  ⟨(default_plan_converges sampleVersions).1 sampleAccount sampleAccount_stored (by decide),
    ((default_plan_converges sampleVersions).2 sampleAccount 7 (some ⟨2, [['f']]⟩) sampleAccount_stored (by decide) (by decide)).1
      ['a'] (sampleAccount_unshared ['a']),
    ((default_plan_converges sampleVersions).2 sampleAccount 7 (some ⟨2, [['f']]⟩) sampleAccount_stored (by decide) (by decide)).2
      sampleAccount_unshared⟩

/-- An account that never held the default plan, with a promotional add-on whose key the default plan is about to give too. -/
def promotedAccount : EntitledAccount where
  clock := 5
  target := none
  subscriptions := []
  purchases := []
  planGrants := [⟨1, 9, .addon, true, .active, 20, [['a']]⟩]
  defaultGrants := []
  allowances := []
  entitlements := []

/-- Before the write, the new key names no grant, and the promoted one ends with its promotion. -/
theorem default_plan_read_differs :
    (promotedAccount.since sampleVersions 7 (some ⟨1, [['f']]⟩)).elapsedBaseGrant = false ∧
    (promotedAccount.since sampleVersions 7 (some ⟨1, [['f']]⟩)).getEntitlementSnapshot sampleVersions ≠
      ((promotedAccount.since sampleVersions 7 (some ⟨1, [['f']]⟩)).recomputeCustomerEntitlements sampleVersions).getEntitlementSnapshot
        sampleVersions ∧
    ((promotedAccount.since sampleVersions 7 (some ⟨1, [['a']]⟩)).getEntitlementSnapshot sampleVersions).map
        EntitlementEntry.expiresAt = [some 20] ∧
    (((promotedAccount.since sampleVersions 7 (some ⟨1, [['a']]⟩)).recomputeCustomerEntitlements sampleVersions).getEntitlementSnapshot
        sampleVersions).map EntitlementEntry.expiresAt = [none] := by
  decide

end Quotum.DefaultEntitlements
