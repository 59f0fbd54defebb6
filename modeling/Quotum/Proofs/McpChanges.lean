import Quotum.McpChanges
import Quotum.Proofs.Team

/-! An agent's change is applied only as it was approved. The last write of an approval does not look at the row, so the proof keeps what
the row can say by then: a receipt that a recovery read is the one that the approval is answered with. -/

namespace Quotum.McpChanges
open General Team McpState

variable {preparation : Preparation} {row : Change} {authorization : Nat} {answer : Option Nat} {receipts : List Receipt}

/-- The statuses that nothing follows. -/
def ChangeStatus.terminal : ChangeStatus → Bool
  | .completed | .failed | .stale | .rejected | .cancelled | .expired => true
  | .pending | .applying | .needsReview => false

def ChangeStatus.approved : ChangeStatus → Bool
  | .applying | .completed | .stale | .failed | .needsReview => true
  | .pending | .rejected | .cancelled | .expired => false

structure Change.Onward (row later : Change) : Prop where
  same : later = { row with status := later.status, result := later.result }
  terminal : row.status.terminal = true → later.status = row.status
  approved : row.status.approved = true → later.status.approved = true

theorem Change.Onward.refl (row : Change) : row.Onward row :=
  ⟨rfl, fun _ => rfl, fun held => held⟩

theorem Change.Onward.trans (first second third : Change) (left : first.Onward second) (right : second.Onward third) :
    first.Onward third where
  same := by rw [right.same, left.same]
  terminal := by
    intro ended
    have kept := left.terminal ended
    rw [right.terminal (kept ▸ ended), kept]
  approved := fun held => right.approved (left.approved held)

theorem Change.Onward.id {later : Change} (onward : row.Onward later) : later.id = row.id := by
  rw [onward.same]

structure McpState.Onward (s later : McpState) : Prop where
  org : s.org.Onward later.org
  changes : Continues Change.Onward s.changes later.changes

theorem McpState.Onward.refl (s : McpState) : s.Onward s :=
  ⟨.refl _, .refl .refl _⟩

theorem McpState.Onward.trans {first second third : McpState} (left : first.Onward second) (right : second.Onward third) :
    first.Onward third :=
  ⟨left.org.trans right.org, left.changes.trans Change.Onward.trans right.changes⟩

def keysOf (receipts : List Receipt) : List Nat := receipts.map Receipt.operationKey

structure Standing (receipts : List Receipt) (row : Change) (stage : ApplyStage) : Prop where
  status : row.status = .applying ∨ row.status = .needsReview ∨ (row.status = .completed ∧ row.id ∈ keysOf receipts)
  stage : match stage with
    | .claimed | .called => row.id ∉ keysOf receipts
    | .committed response => response < 400
    | .answered response => row.id ∈ keysOf receipts → response < 400
    | .threw => True

theorem Standing.approved {stage : ApplyStage} (standing : Standing receipts row stage) :
    row.status.approved = true := by
  rcases standing.status with same | same | ⟨same, -⟩ <;> rw [same] <;> rfl

/-- What holds of every state of the changes of an organization. -/
structure Sys (s : McpState) : Prop where
  team : Sound s.org
  changeIds : (s.changes.map Change.id).Nodup
  changesKnown : ∀ row ∈ s.changes, row.id < s.nextId
  changeKeys : (s.changes.map fun row => (row.authorizationId, row.requestKey)).Nodup
  claims : (s.executions.map Execution.changeId).Nodup
  standing : ∀ execution ∈ s.executions, ∃ row ∈ s.changes, row.id = execution.changeId ∧ Standing s.receipts row execution.stage
  appliedOnce : s.applied.Nodup
  appliedRows : ∀ id ∈ s.applied, ∃ row ∈ s.changes, row.id = id ∧ row.status.approved = true
  calls : ∀ execution ∈ s.executions, execution.changeId ∈ s.applied ↔ execution.stage ≠ .claimed
  receiptsApplied : ∀ receipt ∈ s.receipts, receipt.operationKey ∈ s.applied ∧ receipt.response < 400
  recovered : ∀ recovery ∈ s.recoveries, ∀ response, recovery.recovered = some (some response) →
    ∃ receipt ∈ s.receipts, receipt.operationKey = recovery.row.id ∧ receipt.response = response

private theorem opened_sys (now : Int) (limit : MemberLimit) (owner : Nat) : Sys (opened (founded now limit owner)) where
  team := founded_sound now limit owner
  changeIds := by simp [opened]
  changesKnown := by simp [opened]
  changeKeys := by simp [opened]
  claims := by simp [opened]
  standing := by simp [opened]
  appliedOnce := by simp [opened]
  appliedRows := by simp [opened]
  calls := by simp [opened]
  receiptsApplied := by simp [opened]
  recovered := by simp [opened]

section Steps
variable {platform : Platform} {s next : McpState} {decision : Decision} {stage : ApplyStage}

section
variable (sys : Sys s) {execution : Execution}
include sys

theorem Sys.change_unique {first second : Change} (left : first ∈ s.changes) (right : second ∈ s.changes)
    (same : first.id = second.id) : first = second :=
  List.inj_on_of_nodup_map sys.changeIds left right same

theorem Sys.execution_unique {first second : Execution} (left : first ∈ s.executions) (right : second ∈ s.executions)
    (same : first.changeId = second.changeId) : first = second :=
  List.inj_on_of_nodup_map sys.claims left right same

/-- Changes moved in place, each as its own row allows and as the request that holds it can stand. -/
theorem Sys.changes_map (change : Change → Change) (onward : ∀ row ∈ s.changes, row.Onward (change row))
    (standing : ∀ execution ∈ s.executions, ∀ row ∈ s.changes, row.id = execution.changeId →
      Standing s.receipts row execution.stage → Standing s.receipts (change row) execution.stage) :
    Sys { s with changes := s.changes.map change } ∧ s.Onward { s with changes := s.changes.map change } := by
  have ids : (s.changes.map change).map Change.id = s.changes.map Change.id := by
    rw [List.map_map]
    exact List.map_congr_left fun row member => (onward row member).id
  have keys : (s.changes.map change).map (fun row => (row.authorizationId, row.requestKey)) =
      s.changes.map fun row => (row.authorizationId, row.requestKey) := by
    rw [List.map_map]
    apply List.map_congr_left
    intro row member
    rw [Function.comp, (onward row member).same]
  refine ⟨{ sys with
    changeIds := by rw [ids]; exact sys.changeIds
    changesKnown := ?known
    changeKeys := by rw [keys]; exact sys.changeKeys
    standing := ?standing
    appliedRows := ?applied }, ⟨.refl _, .map onward⟩⟩
  case known =>
    intro row member
    obtain ⟨old, inside, rfl⟩ := List.mem_map.mp member
    rw [(onward old inside).id]
    exact sys.changesKnown old inside
  case standing =>
    intro execution member
    obtain ⟨row, inside, same, stands⟩ := sys.standing execution member
    exact ⟨change row, List.mem_map_of_mem inside, (onward row inside).id.trans same, standing execution member row inside same stands⟩
  case applied =>
    intro id applied
    obtain ⟨row, inside, same, held⟩ := sys.appliedRows id applied
    exact ⟨change row, List.mem_map_of_mem inside, (onward row inside).id.trans same, (onward row inside).approved held⟩

theorem Sys.refuse {change : Change → Change}
    (either : ∀ row ∈ s.changes, change row = row ∨ (row.status = .pending ∧ ∃ status, change row = { row with status := status })) :
    Sys { s with changes := s.changes.map change } ∧ s.Onward { s with changes := s.changes.map change } := by
  apply sys.changes_map
  · intro row member
    rcases either row member with same | ⟨pending, status, moved⟩
    · rw [same]
      exact .refl row
    · rw [moved]
      exact ⟨rfl, fun ended => absurd ended (by rw [pending]; rintro ⟨⟩), fun held => absurd held (by rw [pending]; rintro ⟨⟩)⟩
  · intro execution inside row member same standing
    rcases either row member with same | ⟨pending, status, moved⟩
    · rwa [same]
    · have held := standing.approved
      rw [pending] at held
      cases held

theorem Sys.refuse_one {id : Nat} (from_ : ChangeStatus → Bool) (status : ChangeStatus)
    (pending : ∀ row ∈ s.changes, row.id = id → from_ row.status = true → row.status = .pending) :
    Sys { s with changes := setStatus id from_ status s.changes } ∧ s.Onward { s with changes := setStatus id from_ status s.changes } := by
  apply sys.refuse
  intro row member
  split
  · next chosen => exact .inr ⟨pending row member chosen.1 chosen.2, status, rfl⟩
  · exact .inl rfl

omit sys in
theorem Standing.receipt (standing : Standing receipts row stage)
    {receipt : Receipt} (apart : receipt.operationKey ≠ row.id) : Standing (receipts ++ [receipt]) row stage := by
  have same : row.id ∈ keysOf (receipts ++ [receipt]) ↔ row.id ∈ keysOf receipts := by
    simp only [keysOf, List.map_append, List.map_singleton, List.mem_append, List.mem_singleton]
    exact ⟨fun inside => inside.resolve_right (Ne.symm apart), .inl⟩
  refine ⟨?_, ?_⟩
  · rw [same]
    exact standing.status
  · cases stage with
    | claimed | called => exact fun inside => standing.stage (same.mp inside)
    | committed response => exact standing.stage
    | answered response => exact fun inside => standing.stage (same.mp inside)
    | threw => trivial

theorem Sys.record {recovery : Recovery} {recovered : Option Nat} (member : recovery ∈ s.recoveries)
    (found : recovery.recovered = some recovered) :
    Sys { s with changes := s.record recovery recovered } ∧ s.Onward { s with changes := s.record recovery recovered } := by
  cases recovered with
  | some response =>
    obtain ⟨receipt, inside, key, answer⟩ := sys.recovered recovery member response found
    have succeeded : response < 400 := answer ▸ (sys.receiptsApplied receipt inside).2
    simp only [McpState.record]
    rw [if_pos succeeded]
    apply sys.changes_map
    · intro row _
      split
      · next open_ =>
        refine ⟨rfl, fun ended => ?_, fun _ => rfl⟩
        rcases open_.2 with same | same <;> rw [same] at ended <;> cases ended
      · exact .refl row
    · intro execution _ row _ _ standing
      split
      · next open_ =>
        refine ⟨.inr (.inr ⟨rfl, ?_⟩), standing.stage⟩
        exact List.mem_map.mpr ⟨receipt, inside, key.trans open_.1.symm⟩
      · exact standing
  | none =>
    simp only [McpState.record]
    split
    · apply sys.changes_map
      · intro row _
        split
        · next open_ =>
          have applying := of_decide_eq_true open_.2
          exact ⟨rfl, fun ended => absurd ended (by rw [applying]; rintro ⟨⟩), fun _ => rfl⟩
        · exact .refl row
      · intro execution _ row _ _ standing
        split
        · exact ⟨.inr (.inl rfl), standing.stage⟩
        · exact standing
    · exact ⟨{ sys with }, ⟨.refl _, .refl .refl _⟩⟩

theorem Sys.approve (member : row ∈ s.changes) (pending : row.status = .pending) :
    Sys { s with
      changes := setStatus row.id (fun _ => true) .applying s.changes
      executions := s.executions ++ [⟨row.id, .claimed⟩] } ∧
      s.Onward { s with
        changes := setStatus row.id (fun _ => true) .applying s.changes
        executions := s.executions ++ [⟨row.id, .claimed⟩] } := by
  have untouched : row.id ∉ s.applied := by
    intro applied
    obtain ⟨other, inside, same, held⟩ := sys.appliedRows row.id applied
    obtain rfl := sys.change_unique inside member same
    rw [pending] at held
    cases held
  have free : ∀ execution ∈ s.executions, execution.changeId ≠ row.id := by
    intro execution inside same
    obtain ⟨other, there, here, standing⟩ := sys.standing execution inside
    obtain rfl := sys.change_unique there member (here.trans same)
    have held := standing.approved
    rw [pending] at held
    cases held
  have moved := sys.changes_map (fun other => if other.id = row.id ∧ (fun _ => true) other.status = true then
      { other with status := .applying } else other)
    (by
      intro other inside
      split
      · next same =>
        obtain rfl := sys.change_unique inside member same.1
        exact ⟨rfl, fun ended => absurd ended (by rw [pending]; rintro ⟨⟩), fun held => absurd held (by rw [pending]; rintro ⟨⟩)⟩
      · exact .refl other)
    (by
      intro execution inside other there same standing
      rw [if_neg fun both => free execution inside (same.symm.trans both.1)]
      exact standing)
  have unreceipted : row.id ∉ keysOf s.receipts := by
    intro inside
    obtain ⟨receipt, there, same⟩ := List.mem_map.mp inside
    exact untouched (same ▸ (sys.receiptsApplied receipt there).1)
  refine ⟨{ moved.1 with claims := ?claims, standing := ?standing, calls := ?calls }, ⟨.refl _, moved.2.changes⟩⟩
  case claims =>
    rw [List.map_append, List.map_singleton]
    refine sys.claims.append (List.nodup_singleton _) ?_
    simp only [List.disjoint_singleton]
    intro inside
    obtain ⟨execution, there, same⟩ := List.mem_map.mp inside
    exact free execution there same
  case standing =>
    intro execution inside
    rcases List.mem_append.mp inside with old | new
    · exact moved.1.standing execution old
    · obtain rfl := List.mem_singleton.mp new
      refine ⟨{ row with status := .applying }, List.mem_map.mpr ⟨row, member, if_pos ⟨rfl, rfl⟩⟩, rfl, .inl rfl, unreceipted⟩
  case calls =>
    intro execution inside
    rcases List.mem_append.mp inside with old | new
    · exact sys.calls execution old
    · obtain rfl := List.mem_singleton.mp new
      exact ⟨fun applied => absurd applied untouched, fun later => absurd rfl later⟩

theorem Sys.ended (p : Execution → Bool) : Sys { s with executions := s.executions.filter p } where
  __ := sys
  claims := sys.claims.sublist ((List.filter_sublist).map Execution.changeId)
  standing := fun execution member => sys.standing execution (List.mem_filter.mp member).1
  calls := fun execution member => sys.calls execution (List.mem_filter.mp member).1

private theorem finish_kept {id response : Nat} (member : execution ∈ s.executions)
    (key : execution.changeId = id) (answered : execution.stage = .answered response) :
    Sys (s.finish id response) ∧ s.Onward (s.finish id response) := by
  -- The request leaves first, so that no other request's change is written.
  have left := sys.ended fun other => Decidable.decide (other.changeId ≠ id)
  have moved := left.changes_map (fun row =>
      if row.id = id then { row with status := resultStatus response, result := some response } else row)
    (by
      intro row inside
      split
      · next same =>
        obtain ⟨other, there, here, standing⟩ := sys.standing execution member
        obtain rfl := sys.change_unique inside there (same.trans (here.trans key).symm)
        refine ⟨rfl, fun ended => ?_, fun _ => ?_⟩
        · rcases standing.status with status | status | ⟨status, receipt⟩
          · rw [status] at ended
            cases ended
          · rw [status] at ended
            cases ended
          · have settled := standing.stage
            rw [answered] at settled
            simp only [resultStatus, if_pos (settled receipt), status]
        · simp only [resultStatus]
          split
          · rfl
          · split
            · rfl
            · split <;> rfl
      · exact .refl row)
    (by
      intro other inside row _ same standing
      have apart : other.changeId ≠ id := of_decide_eq_true (List.mem_filter.mp inside).2
      rw [if_neg fun here => apart (same.symm.trans here)]
      exact standing)
  exact ⟨moved.1, ⟨.refl _, moved.2.changes⟩⟩

private theorem giveUp_kept (id : Nat) : Sys (s.giveUp id) ∧ s.Onward (s.giveUp id) := by
  have left := sys.ended fun other => Decidable.decide (other.changeId ≠ id)
  have moved := left.changes_map (fun row =>
      if row.id = id ∧ (fun status => Decidable.decide (status = .applying)) row.status then { row with status := .needsReview } else row)
    (by
      intro row _
      split
      · next open_ =>
        have applying := of_decide_eq_true open_.2
        exact ⟨rfl, fun ended => absurd ended (by rw [applying]; rintro ⟨⟩), fun _ => rfl⟩
      · exact .refl row)
    (by
      intro other _ row _ _ standing
      split
      · exact ⟨.inr (.inl rfl), standing.stage⟩
      · exact standing)
  exact ⟨moved.1, ⟨.refl _, moved.2.changes⟩⟩

omit sys in
private theorem setStage_ids (id : Nat) (stage : ApplyStage) (s : McpState) :
    (s.setStage id stage).executions.map Execution.changeId = s.executions.map Execution.changeId := by
  have kept : ∀ execution : Execution, Execution.changeId { execution with stage := stage } = execution.changeId := fun _ => rfl
  exact updateAt_keys kept s.executions

/-- A request that goes on to a later stage of its apply, which was called. -/
theorem Sys.staged {id : Nat} (later : stage ≠ .claimed) (applied : id ∈ s.applied)
    (stands : ∀ execution ∈ s.executions, execution.changeId = id → ∀ row ∈ s.changes, row.id = id →
      Standing s.receipts row execution.stage → Standing s.receipts row stage) : Sys (s.setStage id stage) where
  __ := sys
  claims := by
    rw [setStage_ids]
    exact sys.claims
  standing := by
    intro execution member
    obtain ⟨old, inside, ⟨same, rfl⟩ | ⟨-, rfl⟩⟩ := mem_updateAt.mp member
    · obtain ⟨row, there, key, standing⟩ := sys.standing old inside
      exact ⟨row, there, key, stands old inside same row there (key.trans same) standing⟩
    · exact sys.standing execution inside
  calls := by
    intro execution member
    obtain ⟨old, inside, ⟨same, rfl⟩ | ⟨-, rfl⟩⟩ := mem_updateAt.mp member
    · exact ⟨fun _ => later, fun _ => same ▸ applied⟩
    · exact sys.calls execution inside

private theorem callApply_kept (member : execution ∈ s.executions) (claimed : execution.stage = .claimed) :
    Sys ({ s with applied := s.applied ++ [execution.changeId] }.setStage execution.changeId .called) where
  __ := sys
  claims := by
    rw [setStage_ids]
    exact sys.claims
  standing := by
    intro other there
    obtain ⟨old, present, ⟨same, rfl⟩ | ⟨-, rfl⟩⟩ := mem_updateAt.mp there
    · obtain rfl := sys.execution_unique present member same
      obtain ⟨row, inside, key, standing⟩ := sys.standing old present
      rw [claimed] at standing
      exact ⟨row, inside, key, standing.status, standing.stage⟩
    · exact sys.standing other present
  appliedOnce := by
    have fresh : execution.changeId ∉ s.applied := fun applied => (sys.calls execution member).mp applied claimed
    exact sys.appliedOnce.append (List.nodup_singleton _) (by simpa using fresh)
  appliedRows := by
    intro id applied
    rcases List.mem_append.mp applied with before | new
    · exact sys.appliedRows id before
    · obtain rfl := List.mem_singleton.mp new
      obtain ⟨row, inside, key, standing⟩ := sys.standing execution member
      exact ⟨row, inside, key, standing.approved⟩
  calls := by
    intro other there
    obtain ⟨old, present, ⟨same, rfl⟩ | ⟨apart, rfl⟩⟩ := mem_updateAt.mp there
    · exact ⟨fun _ => (by rintro ⟨⟩), fun _ => List.mem_append_right _ (List.mem_singleton.mpr same)⟩
    · rw [← sys.calls other present]
      constructor
      · intro applied
        exact (List.mem_append.mp applied).resolve_right fun new => apart (List.mem_singleton.mp new)
      · exact List.mem_append_left _
  receiptsApplied := by
    intro receipt there
    exact ⟨List.mem_append_left _ (sys.receiptsApplied receipt there).1, (sys.receiptsApplied receipt there).2⟩

omit sys in
/-- A first commit leaves a receipt of a success, and a refused one leaves nothing. -/
private theorem commitApply_spec (kind : ActionKind) {id : Nat} (response : Nat) (free : id ∉ keysOf receipts) :
    (∃ answer, commitApply kind id response receipts = (.answered answer, receipts)) ∨
      ∃ answer stored, commitApply kind id response receipts = (.committed answer, receipts ++ [⟨id, stored⟩]) ∧
        answer < 400 ∧ stored < 400 := by
  cases kind with
  | administration =>
    have absent : administrationReceipt id receipts = none := by
      simp only [administrationReceipt, findAt_absent free, Option.map_none]
    simp only [commitApply, withAdministrationReceipt, absent]
    by_cases rejected : response ≥ 400
    · rw [if_pos rejected]
      exact .inl ⟨response, rfl⟩
    · rw [if_neg rejected]
      exact .inr ⟨response, response, rfl, not_le.mp rejected, not_le.mp rejected⟩
  | commercial =>
    simp only [commitApply]
    by_cases executed : response < 400
    · rw [if_pos executed]
      exact .inr ⟨response, 200, rfl, executed, by omega⟩
    · rw [if_neg executed]
      exact .inl ⟨response, rfl⟩
  | replay => exact .inl ⟨response, rfl⟩

private theorem receipted_kept (member : execution ∈ s.executions) (called : execution.stage = .called)
    {answer stored : Nat} (succeeded : answer < 400) (good : stored < 400) :
    Sys ({ s with receipts := s.receipts ++ [(⟨execution.changeId, stored⟩ : Receipt)] }.setStage execution.changeId (.committed answer)) where
  __ := sys
  claims := by
    rw [setStage_ids]
    exact sys.claims
  standing := by
    intro other there
    obtain ⟨old, present, ⟨same, rfl⟩ | ⟨apart, rfl⟩⟩ := mem_updateAt.mp there
    · obtain ⟨row, inside, key, standing⟩ := sys.standing old present
      refine ⟨row, inside, key, ?_, succeeded⟩
      rcases standing.status with status | status | ⟨status, -⟩
      · exact .inl status
      · exact .inr (.inl status)
      · refine .inr (.inr ⟨status, List.mem_map.mpr ⟨⟨execution.changeId, stored⟩, ?_, ?_⟩⟩)
        · exact List.mem_append_right _ (List.mem_singleton.mpr rfl)
        · exact (key.trans same).symm
    · obtain ⟨row, inside, key, standing⟩ := sys.standing other present
      exact ⟨row, inside, key, standing.receipt (by rw [key]; exact Ne.symm apart)⟩
  calls := by
    intro other there
    obtain ⟨old, present, ⟨same, rfl⟩ | ⟨-, rfl⟩⟩ := mem_updateAt.mp there
    · obtain rfl := sys.execution_unique present member same
      exact ⟨fun _ => (by rintro ⟨⟩), fun _ => (sys.calls old member).mpr (by rw [called]; rintro ⟨⟩)⟩
    · exact sys.calls other present
  receiptsApplied := by
    intro receipt there
    rcases List.mem_append.mp there with old | new
    · exact sys.receiptsApplied receipt old
    · obtain rfl := List.mem_singleton.mp new
      exact ⟨(sys.calls execution member).mpr (by rw [called]; rintro ⟨⟩), good⟩
  recovered := by
    intro recovery there response found
    obtain ⟨receipt, inside, same⟩ := sys.recovered recovery there response found
    exact ⟨receipt, List.mem_append_left _ inside, same⟩

end

/-- What the commit of an approval found and did: the change is pending and stands, its own principal asks from a live session with the
capability that the change needs, the agent is still authorized, and a sensitive change spends a confirmation of exactly this request. -/
structure Approved (platform : Platform) (decision : Decision) (row : Change) (s : McpState) (after : Organization) : Prop where
  asked : decision.approve = true
  member : row ∈ s.changes
  pending : row.status = .pending
  unexpired : s.org.now < row.expiresAt
  principal : platform.people.principalOf decision.session = row.principalId
  session : s.sessionLive decision.session = true
  capable : ∃ member ∈ s.org.memberships, member.principalId = row.principalId ∧ member.status = .active ∧
    row.capability ∈ capabilitiesFor member.role
  authorized : ∃ grant ∈ s.authorizations, grant.id = row.authorizationId ∧ grant.revoked = false ∧ s.org.now < grant.expiresAt
  confirmed : row.sensitive = true → ∃ grant ∈ s.org.grants, decision.stepUpToken = some grant.id ∧
    grant.Spendable s.org.now decision.session row.scope row.stepUpAction (platform.approveTarget row.id row.requestHash) ∧
    { grant with consumedAt := some s.org.now } ∈ after.grants

private theorem asTeam_ok {α : Type} {outcome : Except TeamError α} {value : α} (done : asTeam outcome = .ok value) : outcome = .ok value := by
  cases outcome with
  | ok other =>
    cases done
    rfl
  | error error => cases done

private theorem requireCapability_ok {role : MerchantRole} {capability : MerchantCapability} {value : Unit}
    (done : requireCapability role capability = .ok value) : capability ∈ capabilitiesFor role := by
  simp only [requireCapability] at done
  split at done
  · assumption
  · cases done

theorem confirm_inv {org : Organization} (done : s.confirm platform decision row = .ok org) :
    Team.Writes s.org org ∧ ((decision.approve && row.sensitive) = false → org = s.org) ∧
      ((decision.approve && row.sensitive) = true → ∃ grant ∈ s.org.grants, decision.stepUpToken = some grant.id ∧
        grant.Spendable s.org.now decision.session row.scope row.stepUpAction (platform.approveTarget row.id row.requestHash) ∧
        { grant with consumedAt := some s.org.now } ∈ org.grants) := by
  simp only [McpState.confirm] at done
  split at done
  · next needed =>
    split at done
    · cases done
    · next token held =>
      obtain ⟨writes, grant, inside, same, spendable, spent⟩ := consume_inv (asTeam_ok done)
      exact ⟨writes, fun free => absurd (needed.symm.trans free) (by rintro ⟨⟩), fun _ => ⟨grant, inside, held.trans (by rw [same]), spendable, spent⟩⟩
  · next free =>
    cases done
    exact ⟨.refl, fun _ => rfl, fun needed => absurd needed free⟩

theorem claim_inv {claimed : Bool} (sys : Sys s) (done : s.claim platform decision = .ok (claimed, next)) :
    (claimed = false ∧ Sys next ∧ s.Onward next ∧ next.executions = s.executions ∧ next.applied = s.applied) ∨
      (claimed = true ∧ ∃ row org, row.id = decision.changeId ∧ Approved platform decision row s org ∧ Team.Writes s.org org ∧
        next = { s with org := org, changes := setStatus row.id (fun _ => true) .applying s.changes }) := by
  simp only [McpState.claim] at done
  split at done
  · cases done
  next row found =>
  obtain ⟨member, key⟩ := findAt_inv found
  split at done
  · cases done
  next principal =>
  split at done
  · cases done
    exact .inl ⟨rfl, sys, .refl s, rfl, rfl⟩
  next pending =>
  have open_ : row.status = .pending := by simpa using pending
  have refused (status : ChangeStatus) : Sys { s with changes := setStatus row.id (fun _ => true) status s.changes } ∧
      s.Onward { s with changes := setStatus row.id (fun _ => true) status s.changes } := by
    apply sys.refuse_one
    intro other inside same _
    rw [sys.change_unique inside member same]
    exact open_
  split at done
  · cases done
    exact .inl ⟨rfl, (refused .expired).1, (refused .expired).2, rfl, rfl⟩
  next unexpired =>
  split at done
  · cases done
  next session =>
  obtain ⟨acting, here, done⟩ := bind_ok done
  obtain ⟨_, capable, done⟩ := bind_ok done
  split at done
  · cases done
  next authorized =>
  obtain ⟨org, spent, done⟩ := bind_ok done
  cases done
  obtain ⟨present, whose, active⟩ := membership_inv (asTeam_ok here)
  have capability := requireCapability_ok (asTeam_ok capable)
  obtain ⟨writes, free, confirmed⟩ := confirm_inv spent
  cases approve : decision.approve with
  | false =>
    obtain rfl := free (by rw [approve, Bool.false_and])
    exact .inl ⟨rfl, (refused .rejected).1, (refused .rejected).2, rfl, rfl⟩
  | true =>
    refine .inr ⟨rfl, row, org, key, ?_, writes, rfl⟩
    exact {
      asked := approve
      member := member
      pending := open_
      unexpired := not_le.mp unexpired
      principal := by simpa using Eq.symm (not_not.mp principal)
      session := by simpa using session
      capable := ⟨acting, present, whose, active, capability⟩
      authorized := by simpa using authorized
      confirmed := fun sensitive => confirmed (by rw [approve, sensitive]; rfl) }

private theorem keyed_inv {requestKey : Text} (found : s.keyed authorization requestKey = some row) :
    row ∈ s.changes ∧ row.authorizationId = authorization ∧ row.requestKey = requestKey := by
  simp only [McpState.keyed] at found
  have held := List.find?_some found
  exact ⟨List.mem_of_find?_eq_some found, of_decide_eq_true held⟩

private theorem keyed_absent {requestKey : Text} (absent : s.keyed authorization requestKey = none) :
    (authorization, requestKey) ∉ s.changes.map fun row => (row.authorizationId, row.requestKey) := by
  intro inside
  obtain ⟨row, member, same⟩ := List.mem_map.mp inside
  exact List.find?_eq_none.mp absent row member (decide_eq_true (Prod.ext_iff.mp same))

private theorem proposing_inv (done : s.proposing preparation = .ok answer) :
    (answer = none ∧ s.keyed preparation.authorizationId preparation.input.requestKey = none) ∨
      ∃ row, s.keyed preparation.authorizationId preparation.input.requestKey = some row ∧ row.requestHash = preparation.requestHash ∧
        answer = some row.id := by
  simp only [McpState.proposing] at done
  split at done
  · cases done
  obtain ⟨member, -, done⟩ := bind_ok done
  obtain ⟨-, -, done⟩ := bind_ok done
  split at done
  · next row found =>
    split at done
    · cases done
    · next same =>
      cases done
      exact .inr ⟨row, found, not_not.mp same, rfl⟩
  · next absent =>
    cases done
    exact .inl ⟨rfl, absent⟩

section
variable (sys : Sys s) {instance_ : Option Nat} {previewExpiresAt : Option Int} {input : BillingChangeInput}
include sys

theorem Sys.replaced {changes : List Change} (done : s.replaced preparation = .ok changes) :
    Sys { s with changes := changes } ∧ s.Onward { s with changes := changes } ∧
      changes.map (fun row => (row.authorizationId, row.requestKey)) = s.changes.map fun row => (row.authorizationId, row.requestKey) := by
  simp only [McpState.replaced] at done
  split at done
  · cases done
    exact ⟨sys, .refl s, rfl⟩
  · next id _ =>
    split at done
    · cases done
      have either (row : Change) (_ : row ∈ s.changes) :
          (if Decidable.decide (row.id = id ∧ row.authorizationId = preparation.authorizationId ∧
              row.projectInstanceId = preparation.projectInstanceId ∧ row.status = .pending) = true then
            { row with status := .cancelled } else row) = row ∨
          (row.status = .pending ∧ ∃ status, (if Decidable.decide (row.id = id ∧ row.authorizationId = preparation.authorizationId ∧
              row.projectInstanceId = preparation.projectInstanceId ∧ row.status = .pending) = true then
            { row with status := .cancelled } else row) = { row with status := status }) := by
        split
        · next chosen => exact .inr ⟨(of_decide_eq_true chosen).2.2.2, .cancelled, rfl⟩
        · exact .inl rfl
      obtain ⟨kept, onward⟩ := sys.refuse either
      refine ⟨kept, onward, ?_⟩
      rw [List.map_map]
      apply List.map_congr_left
      intro row _
      rw [Function.comp]
      split <;> rfl
    · cases done

theorem Sys.inserted (row : Change) (fresh : row.id = s.nextId)
    (free : (row.authorizationId, row.requestKey) ∉ s.changes.map fun row => (row.authorizationId, row.requestKey)) :
    Sys { s with changes := s.changes ++ [row], nextId := s.nextId + 1 } ∧
      s.Onward { s with changes := s.changes ++ [row], nextId := s.nextId + 1 } := by
  refine ⟨{ sys with
    changeIds := nodup_fresh sys.changeIds sys.changesKnown fresh
    changesKnown := known_fresh sys.changesKnown fresh
    changeKeys := ?keys
    standing := ?standing
    appliedRows := ?applied }, ⟨.refl _, .append .refl _ _⟩⟩
  case keys =>
    rw [List.map_append, List.map_singleton]
    exact sys.changeKeys.append (List.nodup_singleton _) (by simpa only [List.disjoint_singleton] using free)
  case standing =>
    intro execution member
    obtain ⟨other, inside, held⟩ := sys.standing execution member
    exact ⟨other, List.mem_append_left _ inside, held⟩
  case applied =>
    intro id applied
    obtain ⟨other, inside, held⟩ := sys.appliedRows id applied
    exact ⟨other, List.mem_append_left _ inside, held⟩

private theorem insertChange_kept {fits : Bool} {id : Nat}
    (done : s.insertChange platform preparation previewExpiresAt fits = .ok (id, next)) :
    Sys next ∧ s.Onward next ∧ next.executions = s.executions ∧ next.applied = s.applied := by
  simp only [McpState.insertChange] at done
  obtain ⟨answer, proposed, done⟩ := bind_ok done
  rcases proposing_inv proposed with ⟨rfl, absent⟩ | ⟨row, -, -, rfl⟩
  · dsimp only at done
    split at done
    · cases done
    obtain ⟨changes, replaced, done⟩ := bind_ok done
    split at done
    · cases done
    cases done
    obtain ⟨kept, onward, keys⟩ := sys.replaced replaced
    have free := keyed_absent absent
    rw [← keys] at free
    obtain ⟨inserted, later⟩ := kept.inserted (s.proposal platform preparation previewExpiresAt) rfl free
    exact ⟨{ inserted with }, ⟨.refl _, (onward.trans later).changes⟩, rfl, rfl⟩
  · cases done
    exact ⟨sys, .refl s, rfl, rfl⟩

/-- A change that `apply` was called for, or that a request holds to call it. -/
def McpState.Handled (s : McpState) (id : Nat) : Prop :=
  id ∈ s.applied ∨ id ∈ s.executions.map Execution.changeId

/-- What a step that approves nothing keeps. -/
structure Kept (s next : McpState) : Prop where
  sys : Sys next
  onward : s.Onward next
  handled : ∀ id, next.Handled id → s.Handled id

theorem Kept.refl : Kept s s :=
  ⟨sys, .refl s, fun _ held => held⟩

/-- A step that moves what no approval looks at. -/
theorem Kept.aside (next : McpState) (org : next.org = s.org) (changes : next.changes = s.changes)
    (executions : next.executions = s.executions) (receipts : next.receipts = s.receipts) (applied : next.applied = s.applied)
    (recoveries : next.recoveries = s.recoveries) (counter : s.nextId ≤ next.nextId) : Kept s next where
  sys := {
    team := org ▸ sys.team
    changeIds := changes ▸ sys.changeIds
    changesKnown := fun row member => (sys.changesKnown row (changes ▸ member)).trans_le counter
    changeKeys := changes ▸ sys.changeKeys
    claims := executions ▸ sys.claims
    standing := by
      rw [executions, changes, receipts]
      exact sys.standing
    appliedOnce := applied ▸ sys.appliedOnce
    appliedRows := by
      rw [applied, changes]
      exact sys.appliedRows
    calls := by
      rw [executions, applied]
      exact sys.calls
    receiptsApplied := by
      rw [receipts, applied]
      exact sys.receiptsApplied
    recovered := by
      rw [receipts, recoveries]
      exact sys.recovered }
  onward := by
    refine ⟨org ▸ .refl s.org, ?_⟩
    rw [changes]
    exact .refl .refl _
  handled := by
    intro id held
    simpa only [McpState.Handled, applied, executions] using held

omit sys in
theorem Kept.changed (sys : Sys next) (onward : s.Onward next) (executions : next.executions = s.executions)
    (applied : next.applied = s.applied) : Kept s next where
  sys := sys
  onward := onward
  handled := by
    intro id held
    simpa only [McpState.Handled, applied, executions] using held

omit sys in
theorem Kept.ended (kept : Sys next) (onward : s.Onward next) (id : Nat) (applied : next.applied = s.applied)
    (executions : next.executions = s.executions.filter fun execution => Decidable.decide (execution.changeId ≠ id)) : Kept s next where
  sys := kept
  onward := onward
  handled := by
    intro other held
    rcases held with before | inside
    · exact .inl (applied ▸ before)
    · rw [executions] at inside
      exact .inr (((List.filter_sublist).map Execution.changeId).subset inside)

private theorem prepare_kept {scope : MerchantScope}
    (done : s.prepare platform authorization scope instance_ input = .ok (answer, next)) : Kept s next := by
  simp only [McpState.prepare] at done
  obtain ⟨access, -, done⟩ := bind_ok done
  split at done
  · cases done
  · obtain ⟨-, -, done⟩ := bind_ok done
    split at done
    · split at done
      · cases done
      · cases done
        exact .refl sys
    · cases done
      exact .aside sys _ rfl rfl rfl rfl rfl rfl (Nat.le_succ _)

private theorem admit_kept {admitted : Bool}
    (done : s.admitPreparation preparation admitted = .ok (answer, next)) : Kept s next := by
  simp only [McpState.admitPreparation] at done
  obtain ⟨replayed, -, done⟩ := bind_ok done
  split at done
  · cases done
    exact .refl sys
  · obtain ⟨⟨ticket, reserved⟩, reserving, done⟩ := bind_ok done
    cases done
    simp only [McpState.reserveProposal] at reserving
    split at reserving
    · cases reserving
    · split at reserving
      · cases reserving
      · cases reserving
        exact .aside sys _ rfl rfl rfl rfl rfl rfl (Nat.le_succ _)

private theorem cancel_kept {id : Nat} (done : s.cancel platform authorization id instance_ = .ok next) : Kept s next := by
  simp only [McpState.cancel] at done
  split at done
  · cases done
  · split at done
    · cases done
    · obtain ⟨-, -, done⟩ := bind_ok done
      cases done
      obtain ⟨kept, onward⟩ := sys.refuse_one (fun status => Decidable.decide (status = .pending)) .cancelled
        fun row _ _ pending => of_decide_eq_true pending
      exact .changed kept onward rfl rfl

private theorem decide_kept {session id : Nat} {approve : Bool} {stepUpToken : Option Nat}
    (done : s.decide platform session id approve stepUpToken instance_ = .ok next) : Kept s next := by
  simp only [McpState.decide] at done
  split at done
  · cases done
  · split at done
    · cases done
    · obtain ⟨access, -, done⟩ := bind_ok done
      obtain ⟨-, -, done⟩ := bind_ok done
      cases done
      exact .aside sys _ rfl rfl rfl rfl rfl rfl (Nat.le_succ _)

attribute [local simp] McpStep.perform

private theorem applying_kept (id : Nat) {next : ApplyStage → Option (ApplyStage × McpState)}
    (each : ∀ execution ∈ s.executions, execution.changeId = id → ∀ stage after, next execution.stage = some (stage, after) →
      Kept s (after.setStage id stage)) : Kept s (s.applying id next) := by
  simp only [McpState.applying]
  split
  · exact .refl sys
  · next stage after found =>
    obtain ⟨execution, here, there⟩ := Option.bind_eq_some_iff.mp found
    obtain ⟨member, key⟩ := findAt_inv here
    exact each execution member key stage after there

structure Approves (platform : Platform) (s next : McpState) (step : McpStep) (decision : Decision) (row : Change) : Prop where
  step : step = .claim decision.id
  decided : decision ∈ s.decisions
  change : row.id = decision.changeId
  approved : Approved platform decision row s next.org
  applying : ∃ later ∈ next.changes, later.id = row.id ∧ later.status = .applying
  sys : Sys next
  onward : s.Onward next
  handled : ∀ id, next.Handled id → s.Handled id ∨ id = row.id

private theorem claiming_cases (decided : decision ∈ s.decisions) :
    Kept s (s.claiming platform decision) ∨
      ∃ row, Approves platform s (s.claiming platform decision) (.claim decision.id) decision row := by
  simp only [McpState.claiming]
  split
  · exact .inl (.aside sys _ rfl rfl rfl rfl rfl rfl le_rfl)
  · next claimed next done =>
    rcases claim_inv sys done with ⟨rfl, kept, onward, executions, applied⟩ | ⟨rfl, row, org, key, approved, writes, rfl⟩
    · have here : Kept s next := .changed kept onward executions applied
      exact .inl ⟨{ kept with }, ⟨onward.org, onward.changes⟩, here.handled⟩
    · obtain ⟨kept, onward⟩ := sys.approve approved.member approved.pending
      obtain ⟨sound, after⟩ := writes.kept sys.team
      refine .inr ⟨row, ?_⟩
      rw [← key]
      exact {
        step := rfl
        decided := decided
        change := key
        approved := approved
        applying := ⟨{ row with status := .applying }, List.mem_map.mpr ⟨row, approved.member, if_pos ⟨rfl, rfl⟩⟩, rfl, rfl⟩
        sys := { kept with team := sound }
        onward := ⟨after, onward.changes⟩
        handled := by
          intro id held
          rcases held with applied | inside
          · exact .inl (.inl applied)
          · rw [if_pos rfl, List.map_append, List.mem_append, List.map_singleton, List.mem_singleton] at inside
            exact inside.imp .inr fun same => same }

omit sys in
theorem Kept.setStage {after : McpState} {id : Nat} (sys : Sys (after.setStage id stage)) (org : after.org = s.org)
    (changes : after.changes = s.changes) (executions : after.executions = s.executions)
    (applied : ∀ other ∈ after.applied, s.Handled other) : Kept s (after.setStage id stage) where
  sys := sys
  onward := by
    refine ⟨org ▸ .refl s.org, ?_⟩
    simp only [McpState.setStage, changes]
    exact .refl .refl _
  handled := by
    intro other held
    rcases held with before | inside
    · exact applied other before
    · rw [setStage_ids, executions] at inside
      exact .inr inside

private theorem read_kept {id : Nat} (done : s.read id = .ok next) : Kept s next := by
  simp only [McpState.read] at done
  split at done
  · cases done
  · next row _ =>
    split at done
    · cases done
      exact .refl sys
    · cases done
      refine ⟨{ sys with changesKnown := ?_, recovered := ?_ }, ⟨.refl _, .refl .refl _⟩, fun _ held => held⟩
      · exact fun row member => Nat.lt_succ_of_lt (sys.changesKnown row member)
      · intro recovery member response found
        rcases List.mem_append.mp member with old | new
        · exact sys.recovered recovery old response found
        · obtain rfl := List.mem_singleton.mp new
          cases found

private theorem lookUp_kept (recovery : Nat) : Kept s (McpStep.perform platform s (.lookUp recovery)) := by
  refine ⟨{ sys with recovered := ?_ }, ⟨.refl _, .refl .refl _⟩, fun _ held => held⟩
  intro begun member response found
  obtain ⟨old, inside, ⟨-, rfl⟩ | ⟨-, rfl⟩⟩ := mem_updateAt.mp member
  · obtain ⟨receipt, there, answer⟩ := Option.map_eq_some_iff.mp (Option.some.inj found)
    obtain ⟨present, key⟩ := findAt_inv there
    exact ⟨receipt, present, key, answer⟩
  · exact sys.recovered begun inside response found

private theorem record_kept (recovery : Nat) : Kept s (McpStep.perform platform s (.record recovery)) := by
  simp only [McpStep.perform]
  split
  · exact .refl sys
  · next begun found =>
    split
    · exact .refl sys
    · next recovered asked =>
      obtain ⟨kept, onward⟩ := sys.record (findAt_inv found).1 asked
      refine ⟨{ kept with recovered := ?_ }, ⟨onward.org, onward.changes⟩, fun _ held => held⟩
      exact fun other member => sys.recovered other (List.mem_filter.mp member).1

private theorem callApply_step (id : Nat) : Kept s (McpStep.perform platform s (.callApply id)) := by
  simp only [McpStep.perform]
  apply applying_kept sys
  intro execution member key stage after found
  split at found
  · next claimed =>
    cases found
    subst key
    refine .setStage (callApply_kept sys member claimed) rfl rfl rfl ?_
    intro other applied
    rcases List.mem_append.mp applied with before | new
    · exact .inl before
    · exact .inr (List.mem_singleton.mp new ▸ List.mem_map_of_mem member)
  · cases found

private theorem commitApply_step (id response : Nat) : Kept s (McpStep.perform platform s (.commitApply id response)) := by
  simp only [McpStep.perform]
  apply applying_kept sys
  intro execution member key stage after found
  split at found
  · next called =>
    obtain ⟨row, here, done⟩ := Option.map_eq_some_iff.mp found
    subst key
    obtain ⟨change, there, same, standing⟩ := sys.standing execution member
    rw [called] at standing
    have free : execution.changeId ∉ keysOf s.receipts := same ▸ standing.stage
    rcases commitApply_spec row.kind response free with ⟨answer, outcome⟩ | ⟨answer, stored, outcome, good, kept⟩
    · rw [outcome] at done
      cases done
      refine .setStage (sys.staged (by rintro ⟨⟩) ?_ ?_) rfl rfl rfl fun _ => .inl
      · exact (sys.calls execution member).mpr (by rw [called]; rintro ⟨⟩)
      · intro other inside equal row _ id before
        obtain rfl := sys.execution_unique inside member equal
        rw [called] at before
        exact ⟨before.status, fun receipted => absurd receipted before.stage⟩
    · rw [outcome] at done
      cases done
      exact .setStage (receipted_kept sys member called good kept) rfl rfl rfl fun _ => .inl
  · cases found

private theorem answer_step (id : Nat) : Kept s (McpStep.perform platform s (.answer id)) := by
  simp only [McpStep.perform]
  apply applying_kept sys
  intro execution member key stage after found
  split at found
  · next response committed =>
    cases found
    refine .setStage (sys.staged (by rintro ⟨⟩) ?_ ?_) rfl rfl rfl fun _ => .inl
    · exact key ▸ (sys.calls execution member).mpr (by rw [committed]; rintro ⟨⟩)
    · intro other inside equal row _ _ before
      obtain rfl := sys.execution_unique inside member (equal.trans key.symm)
      rw [committed] at before
      exact ⟨before.status, fun _ => before.stage⟩
  · cases found

private theorem throw_step (id : Nat) : Kept s (McpStep.perform platform s (.throw id)) := by
  simp only [McpStep.perform]
  apply applying_kept sys
  intro execution member key stage after found
  have threw (called : execution.stage ≠ .claimed) : Kept s (s.setStage id .threw) := by
    refine .setStage (sys.staged (by rintro ⟨⟩) ?_ ?_) rfl rfl rfl fun _ => .inl
    · exact key ▸ (sys.calls execution member).mpr called
    · intro other _ _ row _ _ before
      exact ⟨before.status, trivial⟩
  split at found
  · next called =>
    cases found
    exact threw (by rw [called]; rintro ⟨⟩)
  · next response committed =>
    cases found
    exact threw (by rw [committed]; rintro ⟨⟩)
  · cases found

private theorem finish_step (id : Nat) : Kept s (McpStep.perform platform s (.finish id)) := by
  simp only [McpStep.perform]
  split
  · next response found =>
    obtain ⟨execution, here, answered⟩ := Option.map_eq_some_iff.mp found
    obtain ⟨member, key⟩ := findAt_inv here
    obtain ⟨kept, onward⟩ := finish_kept sys member key answered
    exact .ended kept onward id rfl rfl
  · exact .refl sys

private theorem giveUp_step (id : Nat) : Kept s (McpStep.perform platform s (.giveUp id)) := by
  obtain ⟨kept, onward⟩ := giveUp_kept sys id
  simp only [McpStep.perform]
  split
  · exact .ended kept onward id rfl rfl
  · exact .ended kept onward id rfl rfl
  · exact .refl sys

/-- A step approves a change, or it hands over no change that was not handled before. -/
private theorem perform_cases (step : McpStep) :
    Kept s (step.perform platform s) ∨ ∃ decision row, Approves platform s (step.perform platform s) step decision row := by
  have error_kept : Kept s s := .refl sys
  cases step with
  | team action =>
    left
    obtain ⟨sound, onward⟩ : Sound (action.perform platform.people s.org) ∧ s.org.Onward (action.perform platform.people s.org) :=
      perform_kept sys.team action
    exact ⟨{ sys with team := sound }, ⟨onward, .refl .refl _⟩, fun _ held => held⟩
  | openSession absoluteExpiresAt => exact .inl (.aside sys _ rfl rfl rfl rfl rfl rfl (Nat.le_succ _))
  | touchSession session => exact .inl (.aside sys _ rfl rfl rfl rfl rfl rfl le_rfl)
  | revokeSession session => exact .inl (.aside sys _ rfl rfl rfl rfl rfl rfl le_rfl)
  | authorize principal write expiresAt => exact .inl (.aside sys _ rfl rfl rfl rfl rfl rfl (Nat.le_succ _))
  | approveAuthorization authorization => exact .inl (.aside sys _ rfl rfl rfl rfl rfl rfl le_rfl)
  | revokeAuthorization authorization => exact .inl (.aside sys _ rfl rfl rfl rfl rfl rfl le_rfl)
  | prepare authorization scope instance_ input =>
    left
    simp only [McpStep.perform]
    split
    · next done => exact prepare_kept sys done
    · exact error_kept
  | admitPreparation preparation admitted =>
    left
    simp only [McpStep.perform]
    split
    · exact error_kept
    · split
      · exact .aside sys _ rfl rfl rfl rfl rfl rfl le_rfl
      · exact .aside sys _ rfl rfl rfl rfl rfl rfl le_rfl
      · next done => exact admit_kept sys done
  | insertChange preparation previewExpiresAt fits =>
    left
    simp only [McpStep.perform]
    split
    · exact error_kept
    · split
      · next done =>
        obtain ⟨kept, onward, executions, applied⟩ := insertChange_kept sys done
        exact .changed kept onward executions applied
      · exact error_kept
  | release preparation =>
    left
    simp only [McpStep.perform]
    split
    · exact error_kept
    · exact .aside sys _ rfl rfl rfl rfl rfl rfl le_rfl
  | abandon preparation =>
    left
    simp only [McpStep.perform]
    split
    · exact error_kept
    · exact .aside sys _ rfl rfl rfl rfl rfl rfl le_rfl
  | cancel authorization id instance_ =>
    left
    simp only [McpStep.perform]
    split
    · next done => exact cancel_kept sys done
    · exact error_kept
  | read id =>
    left
    simp only [McpStep.perform]
    split
    · next done => exact read_kept sys done
    · exact error_kept
  | lookUp recovery => exact .inl (lookUp_kept sys recovery)
  | record recovery => exact .inl (record_kept sys recovery)
  | decide session id approve stepUpToken instance_ =>
    left
    simp only [McpStep.perform]
    split
    · next done => exact decide_kept sys done
    · exact error_kept
  | claim decision =>
    simp only [McpStep.perform]
    split
    · exact .inl error_kept
    · next begun found =>
      obtain ⟨decided, key⟩ := findAt_inv found
      have cases_ : Kept s (s.claiming platform begun) ∨ _ := claiming_cases sys decided
      rcases cases_ with kept | ⟨row, approves⟩
      · exact .inl kept
      · exact .inr ⟨begun, row, key ▸ approves⟩
  | callApply id => exact .inl (callApply_step sys id)
  | commitApply id response => exact .inl (commitApply_step sys id response)
  | answer id => exact .inl (answer_step sys id)
  | throw id => exact .inl (throw_step sys id)
  | finish id => exact .inl (finish_step sys id)
  | giveUp id => exact .inl (giveUp_step sys id)
  | crash id => exact .inl (.ended (sys.ended _) ⟨.refl _, .refl .refl _⟩ id rfl rfl)

private theorem step_kept (step : McpStep) : Sys (step.perform platform s) ∧ s.Onward (step.perform platform s) := by
  have cases : Kept s (step.perform platform s) ∨ ∃ decision row, Approves platform s (step.perform platform s) step decision row :=
    perform_cases sys step
  rcases cases with kept | ⟨decision, row, approves⟩
  · exact ⟨kept.sys, kept.onward⟩
  · exact ⟨approves.sys, approves.onward⟩

private theorem runMcp_kept (steps : List McpStep) : Sys (runMcp platform s steps) ∧ s.Onward (runMcp platform s steps) := by
  induction steps generalizing s with
  | nil => exact ⟨sys, .refl s⟩
  | cons step rest ih =>
    obtain ⟨after, here⟩ := step_kept sys step
    obtain ⟨last, later⟩ := ih after
    exact ⟨last, here.trans later⟩

omit sys in
private theorem runMcp_append (steps more : List McpStep) : runMcp platform s (steps ++ more) = runMcp platform (runMcp platform s steps) more :=
  List.foldl_append

/-- A change that a run hands over to `apply` was approved by one of its commits. -/
private theorem runMcp_origin (steps : List McpStep) {id : Nat} (handled : (runMcp platform s steps).Handled id) :
    s.Handled id ∨ ∃ first decision row rest, steps = first ++ .claim decision.id :: rest ∧ row.id = id ∧
      Approves platform (runMcp platform s first) (McpStep.perform platform (runMcp platform s first) (.claim decision.id))
        (.claim decision.id) decision row := by
  induction steps generalizing s with
  | nil => exact .inl handled
  | cons step rest ih =>
    obtain ⟨after, -⟩ : Sys (step.perform platform s) ∧ s.Onward (step.perform platform s) := step_kept sys step
    rcases ih after handled with here | ⟨first, decision, row, last, rfl, same, approves⟩
    · rcases perform_cases sys step with kept | ⟨decision, row, approves⟩
      · exact .inl (kept.handled id here)
      · obtain rfl := approves.step
        rcases approves.handled id here with before | same
        · exact .inl before
        · exact .inr ⟨[], decision, row, rest, rfl, same.symm, approves⟩
    · exact .inr ⟨step :: first, decision, row, last, rfl, same, approves⟩

/-- A pending change was never handed over. -/
theorem Sys.unhandled (member : row ∈ s.changes) (open_ : row.status.approved = false) : row.id ∉ s.applied := by
  intro applied
  obtain ⟨other, inside, same, held⟩ := sys.appliedRows row.id applied
  obtain rfl := sys.change_unique inside member same
  rw [open_] at held
  cases held

omit sys in
theorem Change.Onward.decided {later : Change} (onward : row.Onward later) (decided : row.status ≠ .pending) :
    later.status ≠ .pending := by
  cases held : row.status.approved with
  | true =>
    intro open_
    have approved := onward.approved held
    rw [open_] at approved
    cases approved
  | false =>
    have ended : row.status.terminal = true := by
      cases status : row.status <;> simp_all [ChangeStatus.approved, ChangeStatus.terminal]
    rw [onward.terminal ended]
    exact decided

omit sys in
private theorem spent_stays {org later : Organization} (onward : org.Onward later) {grant : StepUpGrant} {at_ : Int}
    (spent : { grant with consumedAt := some at_ } ∈ org.grants) : ∃ kept ∈ later.grants, kept.id = grant.id ∧ kept.consumedAt = some at_ := by
  obtain ⟨kept, inside, same⟩ := onward.grants _ spent
  exact ⟨kept, inside, same.id, (same.dead (.inl rfl)).1⟩

variable (member : row ∈ s.changes)
include member

private theorem keyed_member : s.keyed row.authorizationId row.requestKey = some row := by
  cases found : s.keyed row.authorizationId row.requestKey with
  | none => exact absurd (List.mem_map.mpr ⟨row, member, rfl⟩) (keyed_absent found)
  | some other =>
    obtain ⟨inside, authorization, key⟩ := keyed_inv found
    rw [List.inj_on_of_nodup_map sys.changeKeys inside member (Prod.ext authorization key)]

private theorem proposing_used (authorization : preparation.authorizationId = row.authorizationId)
    (key : preparation.input.requestKey = row.requestKey)
    (done : s.proposing preparation = .ok answer) : answer = some row.id ∧ row.requestHash = preparation.requestHash := by
  have found := keyed_member sys member
  rw [← authorization, ← key] at found
  rcases proposing_inv done with ⟨-, absent⟩ | ⟨other, here, hash, rfl⟩
  · rw [found] at absent
    cases absent
  · obtain rfl := Option.some.inj (found.symm.trans here)
    exact ⟨rfl, hash⟩

private theorem prepare_used {scope : MerchantScope} (key : input.requestKey = row.requestKey)
    (done : s.prepare platform row.authorizationId scope instance_ input = .ok (answer, next)) :
    answer = some row.id ∧ row.requestHash.input = input ∧ next = s := by
  have found := keyed_member sys member
  rw [← key] at found
  simp only [McpState.prepare] at done
  obtain ⟨access, -, done⟩ := bind_ok done
  split at done
  · cases done
  · obtain ⟨-, -, done⟩ := bind_ok done
    rw [found] at done
    dsimp only at done
    split at done
    · cases done
    · next same =>
      cases done
      exact ⟨rfl, by rw [not_not.mp same], rfl⟩

private theorem admit_used (authorization : preparation.authorizationId = row.authorizationId)
    (key : preparation.input.requestKey = row.requestKey)
    {admitted : Bool} (done : s.admitPreparation preparation admitted = .ok (answer, next)) :
    answer = some row.id ∧ row.requestHash = preparation.requestHash ∧ next = s := by
  simp only [McpState.admitPreparation] at done
  obtain ⟨replayed, proposed, done⟩ := bind_ok done
  obtain ⟨rfl, hash⟩ := proposing_used sys member authorization key proposed
  cases done
  exact ⟨rfl, hash, rfl⟩

private theorem insertChange_used (authorization : preparation.authorizationId = row.authorizationId)
    (key : preparation.input.requestKey = row.requestKey)
    {fits : Bool} {answer : Nat} (done : s.insertChange platform preparation previewExpiresAt fits = .ok (answer, next)) :
    answer = row.id ∧ row.requestHash = preparation.requestHash ∧ next = s := by
  simp only [McpState.insertChange] at done
  obtain ⟨replayed, proposed, done⟩ := bind_ok done
  obtain ⟨rfl, hash⟩ := proposing_used sys member authorization key proposed
  cases done
  exact ⟨rfl, hash, rfl⟩

end

end Steps

/-- An agent's billing change is applied only as approved. For an earlier state of any run and what it becomes: `apply` was called at most
once for each change, and only after one commit that found it pending, unexpired, asked for by its own principal from a live session with
the capability and the authorization it needs, and that spent a confirmation of exactly this change and request where it is sensitive, as
no other commit can any more; a settled change keeps its status, a decided one is never pending again, and a refused one is never applied;
and a used request key answers with its own change, or not at all. -/
theorem changes_apply_as_approved (platform : Platform) (now : Int) (limit : MemberLimit) (owner : Nat) (before later : List McpStep) :
    let start := opened (founded now limit owner)
    let earlier := runMcp platform start before
    let s := runMcp platform earlier later
    s.applied.Nodup ∧
    (∀ id ∈ s.applied, ∃ first decision row rest, before ++ later = first ++ .claim decision.id :: rest ∧
      let found := runMcp platform start first
      let decided := McpStep.perform platform found (.claim decision.id)
      row.id = id ∧ decision.changeId = id ∧ decision ∈ found.decisions ∧ id ∉ found.applied ∧
      Approved platform decision row found decided.org ∧
      (∃ next ∈ decided.changes, next.id = id ∧ next.status = .applying) ∧
      (row.sensitive = true → ∃ spent ∈ s.org.grants, decision.stepUpToken = some spent.id ∧ spent.consumedAt = some found.org.now)) ∧
    (∀ row ∈ earlier.changes, ∃ next ∈ s.changes, next = { row with status := next.status, result := next.result } ∧
      (row.status.terminal = true → next.status = row.status) ∧ (row.status ≠ .pending → next.status ≠ .pending) ∧
      (row.status = .rejected ∨ row.status = .cancelled ∨ row.status = .expired → row.id ∉ s.applied)) ∧
    (s.changes.map fun row => (row.authorizationId, row.requestKey)).Nodup ∧
    (∀ row ∈ s.changes,
      (∀ scope instance_ input answer next, input.requestKey = row.requestKey →
        s.prepare platform row.authorizationId scope instance_ input = .ok (answer, next) →
        answer = some row.id ∧ row.requestHash.input = input ∧ next = s) ∧
      (∀ preparation, preparation.authorizationId = row.authorizationId → preparation.input.requestKey = row.requestKey →
        (∀ admitted answer next, s.admitPreparation preparation admitted = .ok (answer, next) →
          answer = some row.id ∧ row.requestHash = preparation.requestHash ∧ next = s) ∧
        ∀ previewExpiresAt fits answer next, s.insertChange platform preparation previewExpiresAt fits = .ok (answer, next) →
          answer = row.id ∧ row.requestHash = preparation.requestHash ∧ next = s)) := by
  intro start earlier s
  have initial : Sys start := opened_sys now limit owner
  obtain ⟨early, -⟩ : Sys earlier ∧ start.Onward earlier := runMcp_kept initial before
  obtain ⟨sys, onward⟩ : Sys s ∧ earlier.Onward s := runMcp_kept early later
  refine ⟨sys.appliedOnce, ?approved, ?settled, sys.changeKeys, ?keys⟩
  case approved =>
    intro id applied
    have whole : s = runMcp platform start (before ++ later) := (runMcp_append before later).symm
    have handled : (runMcp platform start (before ++ later)).Handled id := whole ▸ .inl applied
    rcases runMcp_origin initial (before ++ later) handled with none_ | ⟨first, decision, row, rest, split, rfl, approves⟩
    · rcases none_ with none_ | none_ <;> cases none_
    · obtain ⟨reached, -⟩ : Sys (runMcp platform start first) ∧ start.Onward (runMcp platform start first) := runMcp_kept initial first
      have approved := approves.approved
      refine ⟨first, decision, row, rest, split, rfl, approves.change.symm, approves.decided, ?_, approved, approves.applying, ?_⟩
      · exact reached.unhandled approved.member (by rw [approved.pending]; rfl)
      · intro sensitive
        obtain ⟨grant, -, token, -, spent⟩ := approved.confirmed sensitive
        have after : s = runMcp platform (McpStep.perform platform (runMcp platform start first) (.claim decision.id)) rest := by
          rw [whole, split, runMcp_append]
          rfl
        obtain ⟨-, last⟩ : Sys s ∧ (McpStep.perform platform (runMcp platform start first) (.claim decision.id)).Onward s :=
          after ▸ runMcp_kept approves.sys rest
        obtain ⟨kept, inside, same, at_⟩ := spent_stays last.org spent
        exact ⟨kept, inside, token.trans (by rw [same]), at_⟩
  case settled =>
    intro row member
    obtain ⟨next, inside, kept⟩ := onward.changes row member
    refine ⟨next, inside, kept.same, kept.terminal, kept.decided, ?_⟩
    intro refused
    have status : row.status.terminal = true ∧ row.status.approved = false := by
      rcases refused with same | same | same <;> rw [same] <;> exact ⟨rfl, rfl⟩
    rw [← kept.id]
    exact sys.unhandled inside (by rw [kept.terminal status.1, status.2])
  case keys =>
    intro row member
    refine ⟨fun scope instance_ input answer next key done => prepare_used sys member key done, ?_⟩
    intro preparation authorization key
    exact ⟨fun admitted answer next done => admit_used sys member authorization key done,
      fun previewExpiresAt fits answer next done => insertChange_used sys member authorization key done⟩

end Quotum.McpChanges
