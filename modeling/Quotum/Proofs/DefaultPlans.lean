import Quotum.DefaultPlans

/-! The reset windows of the default plan give each allowance once, in every run without a start that strands an allowance and
without an opening beside another reset's window. -/

namespace Quotum.DefaultPlans
open General Cadences ResetAllocations

variable {edit : WindowAllowance → WindowAllowance} {previous : DefaultGrant}

section Windows
variable {anchor now time : Int} {reset : Option Cadence}

private theorem resetWindow_contains (reset : Option Cadence) (begun : anchor ≤ now) (dated : now < openEnd) :
    (resetWindow anchor reset now).contains now = true := by
  cases reset with
  | none => exact contains_iff.mpr ⟨begun, fun _ none => by cases none⟩
  | some cadence =>
    apply planGrantWindow_contains
    · exact contains_iff.mpr ⟨begun, fun _ none => by cases none⟩
    · exact fun _ => dated

private theorem resetWindow_unique (begun : anchor ≤ now) (dated : now < openEnd) (begunAlso : anchor ≤ time) (datedAlso : time < openEnd) :
    resetWindow anchor reset now = resetWindow anchor reset time ∨
      (resetWindow anchor reset now).apart (resetWindow anchor reset time) = true := by
  cases reset with
  | none => exact .inl rfl
  | some cadence =>
    apply planGrantWindow_unique
    · exact contains_iff.mpr ⟨begun, fun _ none => by cases none⟩
    · exact fun _ => dated
    · exact contains_iff.mpr ⟨begunAlso, fun _ none => by cases none⟩
    · exact fun _ => datedAlso

private theorem resetWindow_shared (begun : anchor ≤ now) (dated : now < openEnd) (begunAlso : anchor ≤ time) (datedAlso : time < openEnd)
    (shared : (resetWindow anchor reset time).contains now = true) : resetWindow anchor reset now = resetWindow anchor reset time := by
  rcases resetWindow_unique begun dated begunAlso datedAlso with same | apart
  · exact same
  · rw [Bounds.not_apart (resetWindow_contains reset begun dated) shared] at apart
    cases apart

end Windows

/-- Where an allowance lies: in the window of an instant it was opened at, which it does not outlive. -/
structure Placed (anchor clock : Int) (row : WindowAllowance) : Prop where
  window : ∃ time, anchor ≤ time ∧ time ≤ clock ∧ (resetWindow anchor row.item.reset time).endAt = row.periodEnd ∧
    (resetWindow anchor row.item.reset time).startAt ≤ row.periodStart ∧ row.periodStart ≤ time
  expires : ∀ ending ∈ row.periodEnd, ∃ expiry ∈ row.expiresAt, expiry ≤ ending

private theorem resetWindow_begins {anchor : Int} (reset : Option Cadence) {time : Int} (begun : anchor ≤ time) (dated : time < openEnd) :
    anchor ≤ (resetWindow anchor reset time).startAt := by
  cases reset with
  | none => exact le_rfl
  | some cadence =>
    obtain ⟨steps, same, low, high⟩ := @resetSubWindow_spec anchor cadence openEnd time begun dated
    have counted : 0 ≤ steps := by
      by_contra behind
      have := (boundary_mono anchor cadence).monotone (show steps + 1 ≤ 0 by omega)
      rw [boundary_zero] at this
      omega
    have := (boundary_mono anchor cadence).monotone counted
    rw [boundary_zero] at this
    simp only [resetWindow, planGrantWindowBounds, Option.getD_none, same]
    exact this

section Placed
variable {anchor clock now : Int} {row : WindowAllowance}

theorem Placed.started (placed : Placed anchor clock row) (dated : clock < openEnd) :
    anchor ≤ row.periodStart ∧ row.periodStart ≤ clock ∧ (resetWindow anchor row.item.reset row.periodStart).endAt = row.periodEnd ∧
      (resetWindow anchor row.item.reset row.periodStart).startAt ≤ row.periodStart := by
  obtain ⟨time, begun, reached, ends, starts, opened⟩ := placed.window
  have timely : time < openEnd := by omega
  have first := resetWindow_begins row.item.reset begun timely
  have here : (resetWindow anchor row.item.reset time).contains row.periodStart = true := by
    refine contains_iff.mpr ⟨starts, ?_⟩
    intro ending isEnd
    have := (contains_iff.mp (resetWindow_contains row.item.reset begun timely)).2 ending isEnd
    omega
  have same := resetWindow_shared (by omega) (by omega) begun timely here
  rw [same]
  exact ⟨by omega, by omega, ends, starts⟩

theorem Placed.current (placed : Placed anchor clock row) (dated : clock < openEnd) (running : row.running clock = true) :
    resetWindow anchor row.item.reset clock = resetWindow anchor row.item.reset row.periodStart := by
  obtain ⟨begun, opened, ends, starts⟩ := placed.started dated
  apply resetWindow_shared (by omega) dated begun (by omega)
  refine contains_iff.mpr ⟨by omega, ?_⟩
  intro ending isEnd
  rw [ends] at isEnd
  unfold WindowAllowance.running at running
  rw [isEnd] at running
  simpa using running

theorem Placed.within (placed : Placed anchor clock row) (dated : clock < openEnd)
    (starts : (resetWindow anchor row.item.reset clock).startAt ≤ row.periodStart) :
    resetWindow anchor row.item.reset row.periodStart = resetWindow anchor row.item.reset clock ∧
      (resetWindow anchor row.item.reset clock).endAt = row.periodEnd := by
  obtain ⟨begun, opened, ends, -⟩ := placed.started dated
  have reached : anchor ≤ clock := by omega
  have here : (resetWindow anchor row.item.reset clock).contains row.periodStart = true := by
    refine contains_iff.mpr ⟨starts, ?_⟩
    intro ending isEnd
    have := (contains_iff.mp (resetWindow_contains row.item.reset reached dated)).2 ending isEnd
    omega
  have same := resetWindow_shared begun (by omega) reached dated here
  rw [same] at ends
  exact ⟨same, ends⟩

private theorem current_running (begun : anchor ≤ clock) (dated : clock < openEnd)
    (ends : (resetWindow anchor row.item.reset clock).endAt = row.periodEnd) : row.running clock = true := by
  simp only [WindowAllowance.running, Option.all_eq_true, decide_eq_true_eq]
  intro ending isEnd
  rw [← ends] at isEnd
  exact (contains_iff.mp (resetWindow_contains row.item.reset begun dated)).2 ending isEnd

theorem Placed.later (placed : Placed anchor clock row) (passed : clock ≤ now) : Placed anchor now row := by
  obtain ⟨time, begun, reached, rest⟩ := placed.window
  exact ⟨⟨time, begun, reached.trans passed, rest⟩, placed.expires⟩

theorem Placed.live_running (placed : Placed anchor clock row) (live : row.live now = true) : row.running now = true := by
  unfold WindowAllowance.live at live
  unfold WindowAllowance.running
  cases ending : row.periodEnd with
  | none => rfl
  | some last =>
    obtain ⟨expiry, expires, before⟩ := placed.expires last ending
    rw [Option.mem_def.mp expires] at live
    simp only [Option.all_some, decide_eq_true_eq] at live ⊢
    omega

private theorem running_earlier (passed : clock ≤ now) (running : row.running now = true) : row.running clock = true := by
  unfold WindowAllowance.running at running ⊢
  cases ending : row.periodEnd with
  | none => rfl
  | some last =>
    rw [ending] at running
    simp only [Option.all_some, decide_eq_true_eq] at running ⊢
    omega

/-- What an operation may do to an allowance: it keeps its window and its use, and its expiry once the window is over. -/
structure Edited (clock : Int) (row edited : WindowAllowance) : Prop where
  id : edited.id = row.id
  reset : edited.item.reset = row.item.reset
  start : edited.periodStart = row.periodStart
  ending : edited.periodEnd = row.periodEnd
  quantity : edited.quantity = row.quantity
  consumed : row.consumed ≤ edited.consumed
  expires : row.running clock = false → edited.expiresAt = row.expiresAt
  bounded : ∀ ending ∈ row.periodEnd, ∃ expiry ∈ edited.expiresAt, expiry ≤ ending

theorem Edited.refl (placed : Placed anchor clock row) : Edited clock row row :=
  ⟨rfl, rfl, rfl, rfl, rfl, le_rfl, fun _ => rfl, placed.expires⟩

theorem Edited.placed {edited : WindowAllowance} (edits : Edited clock row edited) (placed : Placed anchor clock row) :
    Placed anchor clock edited where
  window := by
    rw [edits.reset, edits.start, edits.ending]
    exact placed.window
  expires := by
    rw [edits.ending]
    exact edits.bounded

theorem Edited.running {edited : WindowAllowance} (edits : Edited clock row edited) : edited.running clock = row.running clock := by
  unfold WindowAllowance.running
  rw [edits.ending]

variable (placed : Placed anchor clock row)
include placed

private theorem expire_edits : Edited clock row (row.expire clock) := by
  unfold WindowAllowance.expire
  split
  · next live =>
    have runs := placed.live_running live
    refine ⟨rfl, rfl, rfl, rfl, rfl, le_rfl, fun finished => ?_, fun ending isEnd => ⟨clock, rfl, ?_⟩⟩
    · rw [runs] at finished
      cases finished
    · unfold WindowAllowance.running at runs
      rw [Option.mem_def.mp isEnd] at runs
      simp only [Option.all_some, decide_eq_true_eq] at runs
      omega
  · exact .refl placed

private theorem keep_edits (item : GrantItem) : Edited clock row (row.keep item clock) := by
  unfold WindowAllowance.keep
  split
  · next both => exact ⟨rfl, both.2.symm, rfl, rfl, rfl, le_rfl, fun _ => rfl, placed.expires⟩
  · exact .refl placed

private theorem consume_edits (amount : Nat) : Edited clock row (row.consume amount clock) := by
  unfold WindowAllowance.consume
  split
  · exact ⟨rfl, rfl, rfl, rfl, rfl, Nat.le_add_right _ _, fun _ => rfl, placed.expires⟩
  · exact .refl placed

private theorem resume_edits (fromGrantId toGrantId : Nat) (item : GrantItem) :
    Edited clock row (row.resume fromGrantId toGrantId item clock) := by
  simp only [WindowAllowance.resume]
  split
  · next all =>
    refine ⟨rfl, all.2.2.2.symm, rfl, rfl, rfl, le_rfl, ?_, ?_⟩
    · intro finished
      rw [all.2.2.1] at finished
      cases finished
    · intro ending isEnd
      rw [Option.mem_def.mp isEnd]
      cases storedExpiresAt row.periodStart item.expiry with
      | none => exact ⟨ending, rfl, le_rfl⟩
      | some expiry => exact ⟨min ending expiry, rfl, min_le_left _ _⟩
  · exact .refl placed

end Placed

/-- The grants after an update that starts none. -/
def Regranted (grants changed : List DefaultGrant) : Prop :=
  ∃ change : DefaultGrant → DefaultGrant, changed = grants.map change ∧ ∀ grant, (change grant).id = grant.id ∧
    (change grant).startsAt = grant.startsAt ∧ ((change grant).status = .active → grant.status = .active)

theorem Regranted.refl (grants : List DefaultGrant) : Regranted grants grants :=
  ⟨id, by simp, fun _ => ⟨rfl, rfl, id⟩⟩

/-- What every allowance and grant keeps to while the grants start at one instant. -/
structure SoundFrom (anchor : Int) (account : DefaultAccount) : Prop where
  begun : anchor ≤ account.clock
  starts : ∀ grant ∈ account.grants, grant.startsAt = anchor
  numbered : ∀ grant ∈ account.grants, grant.id < account.grants.length
  latest : ∀ grant ∈ account.grants, grant.status = .active → account.previous = some grant
  ids : account.allowances.map WindowAllowance.id = List.range account.allowances.length
  placed : ∀ row ∈ account.allowances, Placed anchor account.clock row
  granted : ∀ row ∈ account.allowances, row.grantId < account.grants.length
  owned : ∀ row ∈ account.allowances, row.running account.clock = true →
    ∃ previous, account.previous = some previous ∧ row.grantId = previous.id
  single : ∀ first ∈ account.allowances, ∀ second ∈ account.allowances, first.running account.clock = true →
    second.running account.clock = true → first.item.reset = second.item.reset
  opened : ∀ row ∈ account.allowances, row.running account.clock = true → row.periodStart =
    allowanceStart row.grantId row.item.reset (resetWindow anchor row.item.reset row.periodStart).startAt account.allowances
  once : ∀ first ∈ account.allowances, ∀ second ∈ account.allowances, first.item.reset = second.item.reset →
    first.periodEnd = second.periodEnd → first.id = second.id

section Sound
variable {anchor : Int} {account changed : DefaultAccount} {rows : List WindowAllowance} {reset : Option Cadence}

private theorem otherResetEnds_map {grantId : Nat} (owner : ∀ row ∈ rows, (edit row).grantId = row.grantId)
    (kept : ∀ row ∈ rows, (edit row).item.reset = row.item.reset)
    (expires : ∀ row ∈ rows, row.grantId = grantId → row.item.reset ≠ reset → (edit row).expiresAt = row.expiresAt) :
    otherResetEnds grantId reset (rows.map edit) = otherResetEnds grantId reset rows := by
  simp only [otherResetEnds, List.filterMap_map]
  apply List.filterMap_congr
  intro row member
  simp only [Function.comp, owner row member, kept row member]
  split
  · next other => exact expires row member other.1 other.2
  · rfl

private theorem previous_regranted (grants : Regranted account.grants changed.grants)
    (last : account.previous = some previous) :
    ∃ renewed, changed.previous = some renewed ∧ renewed.id = previous.id := by
  obtain ⟨change, same, kept⟩ := grants
  refine ⟨change previous, ?_, (kept previous).1⟩
  simp only [DefaultAccount.previous] at last ⊢
  rw [same, List.getLast?_map, last]
  rfl

/-- What a change of the allowances keeps that moves none of their windows. -/
theorem SoundFrom.rewritten (sound : SoundFrom anchor account) (clock : changed.clock = account.clock)
    {edit : WindowAllowance → WindowAllowance} (rows : changed.allowances = account.allowances.map edit)
    (edits : ∀ row ∈ account.allowances, Edited account.clock row (edit row)) :
    changed.allowances.map WindowAllowance.id = List.range changed.allowances.length ∧
      (∀ row ∈ changed.allowances, Placed anchor changed.clock row) ∧
      (∀ first ∈ changed.allowances, ∀ second ∈ changed.allowances, first.running changed.clock = true →
        second.running changed.clock = true → first.item.reset = second.item.reset) ∧
      ∀ first ∈ changed.allowances, ∀ second ∈ changed.allowances, first.item.reset = second.item.reset →
        first.periodEnd = second.periodEnd → first.id = second.id := by
  rw [rows, clock]
  refine ⟨?_, ?_, ?_, ?_⟩
  · rw [List.map_map, List.length_map, ← sound.ids]
    apply List.map_congr_left
    intro row member
    exact (edits row member).id
  · intro row member
    obtain ⟨earlier, inside, rfl⟩ := List.mem_map.mp member
    exact (edits earlier inside).placed (sound.placed earlier inside)
  · intro first firstMember second secondMember firstRuns secondRuns
    obtain ⟨one, oneInside, rfl⟩ := List.mem_map.mp firstMember
    obtain ⟨other, otherInside, rfl⟩ := List.mem_map.mp secondMember
    rw [(edits one oneInside).running] at firstRuns
    rw [(edits other otherInside).running] at secondRuns
    rw [(edits one oneInside).reset, (edits other otherInside).reset]
    exact sound.single one oneInside other otherInside firstRuns secondRuns
  · intro first firstMember second secondMember reset ending
    obtain ⟨one, oneInside, rfl⟩ := List.mem_map.mp firstMember
    obtain ⟨other, otherInside, rfl⟩ := List.mem_map.mp secondMember
    rw [(edits one oneInside).reset, (edits other otherInside).reset] at reset
    rw [(edits one oneInside).ending, (edits other otherInside).ending] at ending
    rw [(edits one oneInside).id, (edits other otherInside).id]
    exact sound.once one oneInside other otherInside reset ending

theorem SoundFrom.edited (sound : SoundFrom anchor account) (clock : changed.clock = account.clock)
    (grants : Regranted account.grants changed.grants)
    (rows : changed.allowances = account.allowances.map edit)
    (edits : ∀ row ∈ account.allowances, Edited account.clock row (edit row))
    (owner : ∀ row ∈ account.allowances, (edit row).grantId = row.grantId) : SoundFrom anchor changed := by
  have old : ∀ row ∈ changed.allowances, ∃ earlier ∈ account.allowances, edit earlier = row := by
    intro row member
    rw [rows] at member
    exact List.mem_map.mp member
  have counted : changed.grants.length = account.grants.length := by
    obtain ⟨change, same, -⟩ := grants
    rw [same, List.length_map]
  have earlierGrant : ∀ grant ∈ changed.grants, ∃ earlier ∈ account.grants, grant.id = earlier.id ∧
      grant.startsAt = earlier.startsAt := by
    obtain ⟨change, same, kept⟩ := grants
    intro grant member
    rw [same] at member
    obtain ⟨earlier, inside, rfl⟩ := List.mem_map.mp member
    exact ⟨earlier, inside, (kept earlier).1, (kept earlier).2.1⟩
  obtain ⟨ids, placed, single, once⟩ := sound.rewritten clock rows edits
  refine ⟨clock ▸ sound.begun, ?_, ?_, ?_, ids, placed, ?_, ?_, single, ?_, once⟩
  · intro grant member
    obtain ⟨earlier, inside, -, start⟩ := earlierGrant grant member
    rw [start]
    exact sound.starts earlier inside
  · intro grant member
    obtain ⟨earlier, inside, same, -⟩ := earlierGrant grant member
    rw [same, counted]
    exact sound.numbered earlier inside
  · intro grant member active
    obtain ⟨change, same, kept⟩ := grants
    rw [same] at member
    obtain ⟨earlier, inside, rfl⟩ := List.mem_map.mp member
    have last := sound.latest earlier inside ((kept earlier).2.2 active)
    simp only [DefaultAccount.previous] at last ⊢
    rw [same, List.getLast?_map, last]
    rfl
  · intro row member
    obtain ⟨earlier, inside, rfl⟩ := old row member
    rw [owner earlier inside, counted]
    exact sound.granted earlier inside
  · intro row member running
    obtain ⟨earlier, inside, rfl⟩ := old row member
    rw [clock, (edits earlier inside).running] at running
    obtain ⟨previous, last, same⟩ := sound.owned earlier inside running
    obtain ⟨renewed, isLast, sameId⟩ := previous_regranted grants last
    refine ⟨renewed, isLast, ?_⟩
    rw [owner earlier inside, sameId]
    exact same
  · intro row member running
    obtain ⟨earlier, inside, rfl⟩ := old row member
    rw [clock, (edits earlier inside).running] at running
    have same := sound.opened earlier inside running
    rw [(edits earlier inside).start, (edits earlier inside).reset, owner earlier inside, rows]
    simp only [allowanceStart] at same ⊢
    rw [otherResetEnds_map owner fun other otherInside => (edits other otherInside).reset]
    · exact same
    · intro other otherInside _ apart
      apply (edits other otherInside).expires
      apply Bool.eq_false_iff.mpr
      intro alsoRuns
      exact apart (sound.single other otherInside earlier inside alsoRuns running)

theorem SoundFrom.wait (sound : SoundFrom anchor account) (elapsed : Nat) : SoundFrom anchor (account.wait elapsed) where
  begun := by
    have := sound.begun
    simp only [DefaultAccount.wait]
    omega
  starts := sound.starts
  numbered := sound.numbered
  latest := sound.latest
  ids := sound.ids
  placed := by
    intro row member
    apply (sound.placed row member).later
    simp only [DefaultAccount.wait]
    omega
  granted := sound.granted
  owned := by
    intro row member running
    exact sound.owned row member (running_earlier (by simp only [DefaultAccount.wait]; omega) running)
  single := by
    intro first firstMember second secondMember firstRuns secondRuns
    apply sound.single first firstMember second secondMember
    · exact running_earlier (by simp only [DefaultAccount.wait]; omega) firstRuns
    · exact running_earlier (by simp only [DefaultAccount.wait]; omega) secondRuns
  opened := by
    intro row member running
    exact sound.opened row member (running_earlier (by simp only [DefaultAccount.wait]; omega) running)
  once := sound.once

private theorem consumed_kept (rows : changed.allowances = account.allowances.map edit)
    {clock : Int} (edits : ∀ row ∈ account.allowances, Edited clock row (edit row)) : StaysConsumed account changed := by
  intro row member
  have same := edits row member
  refine ⟨edit row, ?_, same.id, same.reset, same.start, same.quantity, same.consumed⟩
  rw [rows]
  exact List.mem_map_of_mem member

theorem StaysConsumed.refl (account : DefaultAccount) : StaysConsumed account account :=
  fun row member => ⟨row, member, rfl, rfl, rfl, rfl, le_rfl⟩

theorem StaysConsumed.trans {last : DefaultAccount} (first : StaysConsumed account changed) (second : StaysConsumed changed last) :
    StaysConsumed account last := by
  intro row member
  obtain ⟨kept, inside, id, reset, start, quantity, consumed⟩ := first row member
  obtain ⟨still, alsoInside, sameId, sameReset, sameStart, sameQuantity, more⟩ := second kept inside
  exact ⟨still, alsoInside, sameId.trans id, sameReset.trans reset, sameStart.trans start, sameQuantity.trans quantity,
    consumed.trans more⟩

/-- What an operation that starts no grant and opens no window does. -/
structure Touched (anchor : Int) (account changed : DefaultAccount) : Prop where
  sound : SoundFrom anchor changed
  consumed : StaysConsumed account changed

theorem SoundFrom.touched (sound : SoundFrom anchor account) (clock : changed.clock = account.clock)
    (grants : Regranted account.grants changed.grants) (edit : WindowAllowance → WindowAllowance)
    (rows : changed.allowances = account.allowances.map edit)
    (edits : ∀ row ∈ account.allowances, Edited account.clock row (edit row))
    (owner : ∀ row ∈ account.allowances, (edit row).grantId = row.grantId) : Touched anchor account changed :=
  ⟨sound.edited clock grants rows edits owner, consumed_kept rows edits⟩

theorem Touched.trans {last : DefaultAccount} (first : Touched anchor account changed) (second : Touched anchor changed last) :
    Touched anchor account last :=
  ⟨second.sound, first.consumed.trans second.consumed⟩

theorem SoundFrom.untouched (sound : SoundFrom anchor account) (clock : changed.clock = account.clock)
    (grants : changed.grants = account.grants) (rows : changed.allowances = account.allowances) : Touched anchor account changed := by
  refine sound.touched clock ?_ id ?_ ?_ ?_
  · rw [grants]
    exact .refl account.grants
  · rw [rows, List.map_id]
  · intro row member
    exact .refl (sound.placed row member)
  · exact fun _ _ => rfl

theorem SoundFrom.touchedAt {κ : Type} [DecidableEq κ] (sound : SoundFrom anchor account) (clock : changed.clock = account.clock)
    (grants : Regranted account.grants changed.grants) (key : WindowAllowance → κ) (k : κ)
    (edit : WindowAllowance → WindowAllowance) (rows : changed.allowances = updateAt key k edit account.allowances)
    (edits : ∀ row ∈ account.allowances, key row = k → Edited account.clock row (edit row))
    (owner : ∀ row, (edit row).grantId = row.grantId) : Touched anchor account changed := by
  apply sound.touched clock grants _ rows
  · intro row member
    split
    · next here => exact edits row member here
    · exact .refl (sound.placed row member)
  · intro row _
    split
    · exact owner row
    · rfl

private theorem editGrant_regranted (id : Nat) {edit : DefaultGrant → DefaultGrant}
    (kept : ∀ grant, (edit grant).id = grant.id ∧ (edit grant).startsAt = grant.startsAt ∧
      ((edit grant).status = .active → grant.status = .active)) :
    Regranted account.grants (account.editGrant id edit).grants := by
  refine ⟨_, rfl, ?_⟩
  intro grant
  split
  · exact kept grant
  · exact ⟨rfl, rfl, fun active => active⟩

private theorem expire_owner (clock : Int) (row : WindowAllowance) : (row.expire clock).grantId = row.grantId := by
  simp only [WindowAllowance.expire]
  split <;> rfl

private theorem keep_owner (item : GrantItem) (clock : Int) (row : WindowAllowance) : (row.keep item clock).grantId = row.grantId := by
  simp only [WindowAllowance.keep]
  split <;> rfl

private theorem consume_owner (amount : Nat) (clock : Int) (row : WindowAllowance) : (row.consume amount clock).grantId = row.grantId := by
  simp only [WindowAllowance.consume]
  split <;> rfl

private theorem reopen_owner (item : GrantItem) (expiresAt : Option Int) (clock : Int) (row : WindowAllowance) :
    (row.reopen item expiresAt clock).grantId = row.grantId := by
  simp only [WindowAllowance.reopen]
  split <;> rfl

section
variable (sound : SoundFrom anchor account)
include sound

theorem SoundFrom.finish (grantId : Nat) {status : PlanGrantStatus} (done : status ≠ .active) :
    Touched anchor account (account.finishGrant grantId status) := by
  have grants := @editGrant_regranted account grantId (fun grant => { grant with status := status })
    fun _ => ⟨rfl, rfl, fun active => absurd active done⟩
  refine sound.touchedAt rfl grants WindowAllowance.grantId grantId (WindowAllowance.expire account.clock) rfl ?_ ?_
  · intro row member _
    exact expire_edits (sound.placed row member)
  · exact expire_owner account.clock

theorem SoundFrom.move (items : Nat → Option GrantItem) (grantId : Nat)
    (target : DefaultPlanTarget) (versionChanged : Bool) :
    Touched anchor account (DefaultAccount.moveGrant items grantId target versionChanged account) := by
  have grants := @editGrant_regranted account grantId
    (fun grant => { grant with planVersionId := target.planVersionId, entitlementKeys := target.entitlementKeys })
    fun _ => ⟨rfl, rfl, fun active => active⟩
  simp only [DefaultAccount.moveGrant]
  split
  · split
    · next item _ =>
      refine sound.touchedAt rfl grants WindowAllowance.grantId grantId (WindowAllowance.keep item account.clock) rfl ?_ ?_
      · intro row member _
        exact keep_edits (sound.placed row member) item
      · exact keep_owner item account.clock
    · refine sound.touchedAt rfl grants WindowAllowance.grantId grantId (WindowAllowance.expire account.clock) rfl ?_ ?_
      · intro row member _
        exact expire_edits (sound.placed row member)
      · exact expire_owner account.clock
  · refine sound.touched rfl grants id (List.map_id _).symm ?_ ?_
    · intro row member
      exact .refl (sound.placed row member)
    · exact fun _ _ => rfl

theorem SoundFrom.supersede : Touched anchor account account.supersedeDefaultPlanGrant := by
  simp only [DefaultAccount.supersedeDefaultPlanGrant]
  cases account.held with
  | none => exact sound.untouched rfl rfl rfl
  | some grant =>
    have finished : Touched anchor account (account.finishGrant grant.id .superseded) := sound.finish grant.id (by decide)
    exact finished.trans (finished.sound.untouched rfl rfl rfl)

theorem SoundFrom.consume (allowanceId amount : Nat) (items : Nat → Option GrantItem) :
    Touched anchor account (DefaultAccount.perform items account (.consume allowanceId amount)) := by
  refine sound.touchedAt rfl (.refl _) WindowAllowance.id allowanceId (WindowAllowance.consume amount account.clock) rfl ?_ ?_
  · intro row member _
    exact consume_edits (sound.placed row member) amount
  · exact consume_owner amount account.clock

theorem SoundFrom.held {grant : DefaultGrant} (held : account.held = some grant) :
    grant ∈ account.grants ∧ account.previous = some grant := by
  simp only [DefaultAccount.held] at held
  have member := List.mem_of_find?_eq_some held
  have active := List.find?_some held
  exact ⟨member, sound.latest grant member (by simpa using active)⟩

/-- Only a reconciliation with nothing held starts a grant. -/
theorem SoundFrom.reconcile (items : Nat → Option GrantItem) {grant : DefaultGrant}
    (held : account.held = some grant) :
    Touched anchor account (DefaultAccount.reconcileDefaultPlanGrant items account).1 := by
  simp only [DefaultAccount.reconcileDefaultPlanGrant, held]
  split
  · exact sound.finish grant.id (by decide)
  · cases account.target with
    | none => exact sound.finish grant.id (by decide)
    | some target =>
      simp only
      split
      · exact sound.move items grant.id target _
      · exact sound.untouched rfl rfl rfl

end

section Opening
variable {items : Nat → Option GrantItem} {grant : DefaultGrant} {item : GrantItem} {row : WindowAllowance}

theorem SoundFrom.windowed (sound : SoundFrom anchor account) (held : account.held = some grant) :
    (planGrantWindow grant item account.clock account.allowances).start =
      allowanceStart grant.id item.reset (resetWindow anchor item.reset account.clock).startAt account.allowances ∧
    (planGrantWindow grant item account.clock account.allowances).ending = (resetWindow anchor item.reset account.clock).endAt := by
  have start := sound.starts grant (sound.held held).1
  subst start
  exact ⟨rfl, rfl⟩

private theorem allowanceStart_after (grantId : Nat) (reset : Option Cadence) (windowStart : Int) (rows : List WindowAllowance) :
    windowStart ≤ allowanceStart grantId reset windowStart rows := by
  simp only [allowanceStart]
  split
  · exact le_rfl
  · split <;> omega

private theorem allowanceExpires_bounded (item : GrantItem) (start : Int) {ending : Option Int} {last : Int} (ends : last ∈ ending) :
    ∃ expiry ∈ allowanceExpiresAt item start ending, expiry ≤ last := by
  rw [Option.mem_def] at ends
  subst ends
  simp only [allowanceExpiresAt]
  split
  · exact ⟨last, rfl, le_rfl⟩
  · next expiry _ =>
    split
    · exact ⟨last, rfl, le_rfl⟩
    · next within =>
      simp only [Option.any_some, decide_eq_true_eq, not_lt] at within
      exact ⟨expiry, rfl, within⟩

private theorem allocation_found (found : (planGrantWindow grant item account.clock account.allowances).allocation = some row) :
    row ∈ account.allowances ∧ row.grantId = grant.id ∧ row.item.reset = item.reset ∧
      row.periodStart = (planGrantWindow grant item account.clock account.allowances).start := by
  simp only [planGrantWindow, Option.filter_eq_some_iff, decide_eq_true_eq] at found
  have inside := (newest_stamped found.1).1
  rw [List.mem_filter, decide_eq_true_eq] at inside
  exact ⟨inside.1, inside.2.1, inside.2.2, found.2⟩

theorem SoundFrom.reopened (sound : SoundFrom anchor account) (dated : account.clock < openEnd) (held : account.held = some grant)
    (found : (planGrantWindow grant item account.clock account.allowances).allocation = some row) :
    Edited account.clock row (row.reopen item (planGrantWindow grant item account.clock account.allowances).expiresAt
      account.clock) := by
  obtain ⟨member, -, reset, start⟩ := allocation_found found
  have placed := sound.placed row member
  obtain ⟨isStart, -⟩ := @SoundFrom.windowed _ _ _ item sound held
  have starts : (resetWindow anchor row.item.reset account.clock).startAt ≤ row.periodStart := by
    rw [start, isStart, reset]
    apply allowanceStart_after
  have ends := (placed.within dated starts).2
  simp only [WindowAllowance.reopen]
  split
  · exact .refl placed
  · refine ⟨rfl, reset.symm, rfl, rfl, rfl, le_rfl, ?_, ?_⟩
    · intro finished
      rw [current_running sound.begun dated ends] at finished
      cases finished
    · intro ending isEnd
      apply allowanceExpires_bounded
      have window := sound.starts grant (sound.held held).1
      rw [window, ← reset, ends]
      exact isEnd

theorem SoundFrom.distinct (sound : SoundFrom anchor account) : (account.allowances.map WindowAllowance.id).Nodup := by
  rw [sound.ids]
  exact List.nodup_range

theorem SoundFrom.found (sound : SoundFrom anchor account) (dated : account.clock < openEnd) (held : account.held = some grant)
    (member : row ∈ account.allowances) (reset : row.item.reset = item.reset)
    (ends : row.periodEnd = (resetWindow anchor item.reset account.clock).endAt) :
    (planGrantWindow grant item account.clock account.allowances).allocation = some row := by
  have placed := sound.placed row member
  obtain ⟨begun, reached, ending, -⟩ := placed.started dated
  rw [← reset] at ends
  have running := current_running sound.begun dated ends.symm
  obtain ⟨previous, last, owner⟩ := sound.owned row member running
  rw [(sound.held held).2, Option.some.injEq] at last
  subst last
  have current := placed.current dated running
  have start := sound.opened row member running
  obtain ⟨isStart, -⟩ := @SoundFrom.windowed _ _ _ item sound held
  rw [← current, owner, reset, ← isStart] at start
  have listed : row ∈ account.allowances.filter fun other => decide (other.grantId = grant.id ∧ other.item.reset = item.reset) := by
    rw [List.mem_filter, decide_eq_true_eq]
    exact ⟨member, owner, reset⟩
  have latest : latestAllowance grant.id item.reset account.allowances = some row := by
    apply newest_eq _ listed rfl
    · intro other otherListed
      rw [List.mem_filter, decide_eq_true_eq] at otherListed
      obtain ⟨inside, -, sameReset⟩ := otherListed
      apply Bool.eq_false_iff.mpr
      intro passed
      obtain ⟨later, earlier, isLater, isEarlier, order⟩ := overtakes_inv passed
      cases isLater
      cases isEarlier
      have starts : (resetWindow anchor other.item.reset account.clock).startAt ≤ other.periodStart := by
        have := allowanceStart_after grant.id item.reset (resetWindow anchor item.reset account.clock).startAt account.allowances
        rw [sameReset]
        omega
      have alsoEnds := ((sound.placed other inside).within dated starts).2
      have same := sound.once row member other inside (by rw [reset, sameReset]) (by rw [ends, ← alsoEnds, reset, sameReset])
      have equal := List.inj_on_of_nodup_map sound.distinct member inside same
      subst equal
      omega
    · exact List.Nodup.sublist (List.filter_sublist.map _) sound.distinct
  simp only [planGrantWindow, latest, Option.filter_eq_some_iff, decide_eq_true_eq]
  exact ⟨trivial, start⟩

private theorem otherResetEnds_append {grantId : Nat}
    (same : row.item.reset = reset) : otherResetEnds grantId reset (rows ++ [row]) = otherResetEnds grantId reset rows := by
  simp [otherResetEnds, same]

/-- A window that gave no allowance yet gives one, where no window of another reset runs. -/
theorem SoundFrom.inserted (sound : SoundFrom anchor account) (dated : account.clock < openEnd) (held : account.held = some grant)
    (missing : (planGrantWindow grant item account.clock account.allowances).missing account.clock = true)
    (absent : (planGrantWindow grant item account.clock account.allowances).allocation = none)
    (apart : ∀ row ∈ account.allowances, row.grantId = grant.id → row.item.reset ≠ item.reset → row.running account.clock = false) :
    SoundFrom anchor { account with allowances := account.allowances ++
      [(planGrantWindow grant item account.clock account.allowances).allowance account.allowances.length] } := by
  obtain ⟨isStart, isEnd⟩ := @SoundFrom.windowed _ _ _ item sound held
  have after := allowanceStart_after grant.id item.reset (resetWindow anchor item.reset account.clock).startAt account.allowances
  rw [← isStart] at after
  have begins : (planGrantWindow grant item account.clock account.allowances).start ≤ account.clock := by
    simp only [PlanGrantWindow.missing, Bool.and_eq_true, decide_eq_true_eq] at missing
    exact missing.1.1
  generalize opens : (planGrantWindow grant item account.clock account.allowances).allowance account.allowances.length = row
  have reset : row.item.reset = item.reset := by rw [← opens]; rfl
  have owner : row.grantId = grant.id := by rw [← opens]; rfl
  have start : row.periodStart = (planGrantWindow grant item account.clock account.allowances).start := by rw [← opens]; rfl
  have ends : row.periodEnd = (resetWindow anchor item.reset account.clock).endAt := by rw [← opens, ← isEnd]; rfl
  have number : row.id = account.allowances.length := by rw [← opens]; rfl
  have placed : Placed anchor account.clock row := by
    refine ⟨⟨account.clock, sound.begun, le_rfl, ?_, ?_, ?_⟩, ?_⟩
    · rw [reset, ends]
    · rw [reset, start]
      exact after
    · rw [start]
      exact begins
    · intro ending isLast
      rw [ends, ← isEnd] at isLast
      rw [← opens]
      exact allowanceExpires_bounded item _ isLast
  have running : row.running account.clock = true := by
    apply current_running sound.begun dated
    rw [reset, ends]
  -- A running allowance is the grant's, so none is on another reset.
  have sameReset : ∀ other ∈ account.allowances, other.running account.clock = true → other.item.reset = item.reset := by
    intro other member alsoRuns
    obtain ⟨previous, last, same⟩ := sound.owned other member alsoRuns
    rw [(sound.held held).2, Option.some.injEq] at last
    subst last
    by_contra differs
    rw [apart other member same differs] at alsoRuns
    cases alsoRuns
  have fresh : ∀ other ∈ account.allowances, other.item.reset = item.reset →
      other.periodEnd ≠ (resetWindow anchor item.reset account.clock).endAt := by
    intro other member onReset alsoEnds
    rw [sound.found dated held member onReset alsoEnds] at absent
    cases absent
  have either : ∀ other ∈ account.allowances ++ [row], other ∈ account.allowances ∨ other = row := by
    intro other member
    simpa only [List.mem_append, List.mem_singleton] using member
  refine ⟨sound.begun, sound.starts, sound.numbered, sound.latest, ?_, ?_, ?_, ?_, ?_, ?_, ?_⟩
  · rw [List.map_append, sound.ids, List.length_append, List.map_singleton, number, List.length_singleton, List.range_succ]
  · intro other member
    rcases either other member with old | rfl
    · exact sound.placed other old
    · exact placed
  · intro other member
    rcases either other member with old | rfl
    · exact sound.granted other old
    · rw [owner]
      exact sound.numbered grant (sound.held held).1
  · intro other member alsoRuns
    rcases either other member with old | rfl
    · exact sound.owned other old alsoRuns
    · exact ⟨grant, (sound.held held).2, owner⟩
  · have onReset : ∀ other ∈ account.allowances ++ [row], other.running account.clock = true → other.item.reset = item.reset := by
      intro other member alsoRuns
      rcases either other member with old | rfl
      · exact sameReset other old alsoRuns
      · exact reset
    intro first firstMember second secondMember firstRuns secondRuns
    rw [onReset first firstMember firstRuns, onReset second secondMember secondRuns]
  · intro other member alsoRuns
    rcases either other member with old | rfl
    · have same := sound.opened other old alsoRuns
      simp only [allowanceStart] at same ⊢
      rw [otherResetEnds_append (reset.trans (sameReset other old alsoRuns).symm)]
      exact same
    · rw [(placed.within dated (by rw [reset, start]; exact after)).1, start, isStart, owner, reset]
      simp only [allowanceStart]
      rw [otherResetEnds_append reset]
  · intro first firstMember second secondMember same sameEnd
    rcases either first firstMember with old | rfl
    · rcases either second secondMember with oldAlso | rfl
      · exact sound.once first old second oldAlso same sameEnd
      · exact absurd (sameEnd.trans ends) (fresh first old (same.trans reset))
    · rcases either second secondMember with old | rfl
      · exact absurd (sameEnd.symm.trans ends) (fresh second old (same.symm.trans reset))
      · rfl

theorem SoundFrom.open (sound : SoundFrom anchor account) (dated : account.clock < openEnd)
    (clear : DefaultAccount.overlaps items account = false) :
    Touched anchor account (DefaultAccount.openPlanGrantWindows items account) := by
  simp only [DefaultAccount.openPlanGrantWindows]
  split
  · exact sound.untouched rfl rfl rfl
  · next window current =>
    simp only [DefaultAccount.overlaps, current, Option.any_some, Bool.and_eq_false_imp] at clear
    simp only [DefaultAccount.window, Option.bind_eq_some_iff, Option.map_eq_some_iff] at current
    obtain ⟨grant, held, item, -, rfl⟩ := current
    split
    · next missing =>
      split
      · next row found =>
        refine sound.touchedAt rfl (.refl _) WindowAllowance.id row.id (WindowAllowance.reopen _ _ account.clock) rfl ?_ ?_
        · intro other member same
          have equal := List.inj_on_of_nodup_map sound.distinct member (allocation_found found).1 same
          subst equal
          exact sound.reopened dated held found
        · exact reopen_owner _ _ account.clock
      · next absent =>
        split
        · exact sound.untouched rfl rfl rfl
        · constructor
          · apply sound.inserted dated held missing absent
            intro row member owner apart
            have none := List.any_eq_false.mp (clear missing) row member
            simpa [planGrantWindow, owner, apart] using none
          · intro row member
            exact ⟨row, List.mem_append_left _ member, rfl, rfl, rfl, rfl, le_rfl⟩
    · exact sound.untouched rfl rfl rfl

end Opening

section Starting
variable {items : Nat → Option GrantItem} {target : DefaultPlanTarget}

variable (sound : SoundFrom anchor account)
include sound

theorem SoundFrom.unopened (ungranted : account.grants = []) : account.allowances = [] := by
  apply List.eq_nil_iff_forall_not_mem.mpr
  intro row member
  have := sound.granted row member
  rw [ungranted] at this
  exact Nat.not_lt_zero _ this

/-- The first grant starts now, where every window is counted from. -/
theorem SoundFrom.first (ungranted : account.grants = []) :
    SoundFrom account.clock (DefaultAccount.startGrant items target account) ∧
      StaysConsumed account (DefaultAccount.startGrant items target account) := by
  have unopened := sound.unopened ungranted
  have none : account.previous = none := by
    simp only [DefaultAccount.previous, ungranted, List.getLast?_nil]
  have same : DefaultAccount.startGrant items target account = { account with
      grants := [⟨0, target.planVersionId, target.entitlementKeys, account.clock, .active⟩] } := by
    simp only [DefaultAccount.startGrant, none, ungranted, List.length_nil, List.nil_append, Option.elim_none]
  rw [same]
  constructor
  · constructor
    · exact le_rfl
    all_goals simp [unopened, DefaultAccount.previous]
  · intro row member
    rw [unopened] at member
    cases member

/-- A start hands over every allowance in a window still running, where it leaves none behind. -/
private theorem resumed_rows (last : account.previous = some previous)
    {item : GrantItem} (carried : ∀ row ∈ account.allowances, row.running account.clock = true → row.item.reset = item.reset)
    (dated : account.clock < openEnd) {id : Nat} {row : WindowAllowance} (member : row ∈ account.allowances) :
    (row.resume previous.id id item account.clock).grantId = if row.running account.clock then id else row.grantId := by
  simp only [WindowAllowance.resume]
  cases running : row.running account.clock with
  | false => simp
  | true =>
    obtain ⟨latest, isLast, owner⟩ := sound.owned row member running
    rw [last, Option.some.injEq] at isLast
    subst isLast
    obtain ⟨-, reached, -, -⟩ := (sound.placed row member).started dated
    rw [if_pos ⟨owner, reached, rfl, carried row member running⟩, if_pos rfl]

/-- A grant started where the others did, which takes over the allowances of every window still running. -/
theorem SoundFrom.handed (idle : account.held = none) (clock : changed.clock = account.clock)
    {started : DefaultGrant} (grants : changed.grants = account.grants ++ [started]) (number : started.id = account.grants.length)
    (start : started.startsAt = anchor)
    (rows : changed.allowances = account.allowances.map edit)
    (edits : ∀ row ∈ account.allowances, Edited account.clock row (edit row))
    (owner : ∀ row ∈ account.allowances, (edit row).grantId = if row.running account.clock then started.id else row.grantId)
    (whole : ∀ row ∈ account.allowances, row.running account.clock = true →
      (resetWindow anchor row.item.reset row.periodStart).startAt = row.periodStart) : SoundFrom anchor changed := by
  have old : ∀ row ∈ changed.allowances, ∃ earlier ∈ account.allowances, edit earlier = row := by
    intro row member
    rw [rows] at member
    exact List.mem_map.mp member
  have last : changed.previous = some started := by
    simp only [DefaultAccount.previous, grants, List.getLast?_concat]
  have length : changed.grants.length = account.grants.length + 1 := by
    rw [grants, List.length_append, List.length_singleton]
  have one : ∀ grant ∈ changed.grants, grant ∈ account.grants ∨ grant = started := by
    intro grant member
    rw [grants] at member
    simpa only [List.mem_append, List.mem_singleton] using member
  obtain ⟨ids, placed, single, once⟩ := sound.rewritten clock rows edits
  refine ⟨clock ▸ sound.begun, ?_, ?_, ?_, ids, placed, ?_, ?_, single, ?_, once⟩
  · intro grant member
    rcases one grant member with earlier | rfl
    · exact sound.starts grant earlier
    · exact start
  · intro grant member
    rw [length]
    rcases one grant member with earlier | rfl
    · exact (sound.numbered grant earlier).trans (Nat.lt_succ_self _)
    · rw [number]
      exact Nat.lt_succ_self _
  · intro grant member active
    rcases one grant member with earlier | rfl
    · have none := List.find?_eq_none.mp idle grant earlier
      simp [active] at none
    · exact last
  · intro row member
    obtain ⟨earlier, inside, rfl⟩ := old row member
    rw [owner earlier inside, length]
    have := sound.granted earlier inside
    split <;> omega
  · intro row member running
    obtain ⟨earlier, inside, rfl⟩ := old row member
    rw [clock, (edits earlier inside).running] at running
    refine ⟨started, last, ?_⟩
    rw [owner earlier inside, if_pos running]
  · intro row member running
    obtain ⟨earlier, inside, rfl⟩ := old row member
    rw [clock, (edits earlier inside).running] at running
    have alone : otherResetEnds started.id earlier.item.reset changed.allowances = [] := by
      simp only [otherResetEnds, List.filterMap_eq_nil_iff]
      intro other otherMember
      obtain ⟨before, beforeInside, rfl⟩ := old other otherMember
      rw [owner before beforeInside, (edits before beforeInside).reset]
      have := sound.granted before beforeInside
      cases alsoRuns : before.running account.clock with
      | false => rw [if_neg (by simp only [Bool.false_eq_true, if_false]; omega)]
      | true => rw [if_neg (fun both => both.2 (sound.single before beforeInside earlier inside alsoRuns running))]
    rw [(edits earlier inside).start, (edits earlier inside).reset, owner earlier inside, if_pos running, whole earlier inside running]
    simp only [allowanceStart, alone, List.max?_nil]

/-- A start after an earlier grant, where it strands no allowance. -/
theorem SoundFrom.restarted (dated : account.clock < openEnd) (idle : account.held = none)
    (last : account.previous = some previous)
    (kept : ∀ row ∈ account.allowances, row.running account.clock = true →
      (items target.planVersionId).any (fun item => decide (item.reset = row.item.reset)) = true ∧
        (resetWindow previous.startsAt row.item.reset row.periodStart).startAt = row.periodStart) :
    Touched anchor account (DefaultAccount.startGrant items target account) := by
  have start : previous.startsAt = anchor := sound.starts previous (List.mem_of_getLast? last)
  rw [start] at kept
  cases given : items target.planVersionId with
  | none =>
    have ended : ∀ row ∈ account.allowances, row.running account.clock = false := by
      intro row member
      apply Bool.eq_false_iff.mpr
      intro running
      have := (kept row member running).1
      rw [given] at this
      cases this
    have rows : (DefaultAccount.startGrant items target account).allowances = account.allowances.map id := by
      simp only [DefaultAccount.startGrant, last, given, List.map_id]
    have edits : ∀ row ∈ account.allowances, Edited account.clock row (id row) := fun row member => .refl (sound.placed row member)
    refine ⟨sound.handed idle rfl rfl rfl ?_ rows edits ?_ ?_, consumed_kept rows edits⟩
    · rw [last]
      exact start
    · intro row member
      rw [ended row member]
      rfl
    · intro row member running
      exact (kept row member running).2
  | some item =>
    have carried : ∀ row ∈ account.allowances, row.running account.clock = true → row.item.reset = item.reset := by
      intro row member running
      have same := (kept row member running).1
      rw [given, Option.any_some, decide_eq_true_eq] at same
      exact same.symm
    have rows : (DefaultAccount.startGrant items target account).allowances =
        account.allowances.map (WindowAllowance.resume previous.id account.grants.length item account.clock) := by
      simp only [DefaultAccount.startGrant, last, given]
    have edits : ∀ row ∈ account.allowances,
        Edited account.clock row (row.resume previous.id account.grants.length item account.clock) :=
      fun row member => resume_edits (sound.placed row member) previous.id account.grants.length item
    refine ⟨sound.handed idle rfl rfl rfl ?_ rows edits ?_ ?_, consumed_kept rows edits⟩
    · rw [last]
      exact start
    · intro row member
      exact resumed_rows sound last carried dated member
    · intro row member running
      exact (kept row member running).2

end Starting

end Sound

def Sound (account : DefaultAccount) : Prop := ∃ anchor, SoundFrom anchor account

section Runs
variable {items : Nat → Option GrantItem} {account : DefaultAccount}

theorem Touched.both {anchor : Int} {changed : DefaultAccount} (touched : Touched anchor account changed) :
    Sound changed ∧ StaysConsumed account changed :=
  ⟨⟨anchor, touched.sound⟩, touched.consumed⟩

private theorem reconcile_sound (sound : Sound account) (dated : account.clock < openEnd)
    (clear : DefaultAccount.strands items account = false) :
    Sound (DefaultAccount.reconcileDefaultPlanGrant items account).1 ∧
      StaysConsumed account (DefaultAccount.reconcileDefaultPlanGrant items account).1 := by
  obtain ⟨anchor, sound⟩ := sound
  cases idle : account.held with
  | some grant => exact (sound.reconcile items idle).both
  | none =>
    simp only [DefaultAccount.reconcileDefaultPlanGrant, idle]
    cases published : account.target with
    | none => exact (sound.untouched rfl rfl rfl).both
    | some target =>
      simp only
      split
      · next free =>
        cases last : account.previous with
        | none =>
          have first := @SoundFrom.first _ _ items target sound (List.getLast?_eq_none_iff.mp last)
          exact ⟨⟨account.clock, first.1⟩, first.2⟩
        | some previous =>
          refine (sound.restarted dated idle last ?_).both
          intro row member running
          simp only [DefaultAccount.strands, idle, free, published, last, Option.isNone_none, beq_self_eq_true, Bool.and_self,
            Bool.true_and, Option.any_some, List.any_eq_false] at clear
          have kept := clear row member
          rw [running, Bool.true_and, Bool.not_eq_true, Bool.or_eq_false_iff, decide_eq_false_iff_not, not_not] at kept
          refine ⟨?_, kept.2⟩
          have same := kept.1
          cases given : items target.planVersionId with
          | none =>
            rw [given] at same
            cases same
          | some item =>
            rw [given, Option.all_some, decide_eq_false_iff_not, not_not] at same
            rw [Option.any_some, decide_eq_true_eq]
            exact same
      · exact (sound.untouched rfl rfl rfl).both

/-- Every operation that neither strands an allowance nor opens one beside another keeps the invariant. -/
theorem perform_sound (sound : Sound account) (dated : account.clock < openEnd) {action : DefaultAccount.DefaultPlanAction}
    (clear : DefaultAccount.misplaced items account action = false) :
    Sound (DefaultAccount.perform items account action) ∧ StaysConsumed account (DefaultAccount.perform items account action) := by
  cases action with
  | reconcile => exact reconcile_sound sound dated clear
  | openWindows =>
    obtain ⟨anchor, sound⟩ := sound
    exact (sound.open dated clear).both
  | supersede =>
    obtain ⟨anchor, sound⟩ := sound
    exact sound.supersede.both
  | consume allowanceId amount =>
    obtain ⟨anchor, sound⟩ := sound
    exact (sound.consume allowanceId amount items).both
  | publish target =>
    obtain ⟨anchor, sound⟩ := sound
    have touched : Touched anchor account { account with target := target } := sound.untouched rfl rfl rfl
    exact touched.both
  | base plan =>
    obtain ⟨anchor, sound⟩ := sound
    have touched : Touched anchor account { account with base := plan } := sound.untouched rfl rfl rfl
    exact touched.both
  | read => exact ⟨sound, .refl account⟩

theorem perform_clock (action : DefaultAccount.DefaultPlanAction) :
    (DefaultAccount.perform items account action).clock = account.clock := by
  cases action with
  | reconcile =>
    simp only [DefaultAccount.perform, DefaultAccount.reconcileDefaultPlanGrant]
    repeat' split
    all_goals first | rfl | simp only [DefaultAccount.moveGrant]
    repeat' split
    all_goals rfl
  | openWindows =>
    simp only [DefaultAccount.perform, DefaultAccount.openPlanGrantWindows]
    repeat' split
    all_goals rfl
  | supersede =>
    simp only [DefaultAccount.perform, DefaultAccount.supersedeDefaultPlanGrant]
    cases account.held <;> rfl
  | publish target | base plan | consume allowanceId amount | read => rfl

private theorem after_clock (step : DefaultAccount.DefaultPlanStep) : account.clock ≤ (DefaultAccount.after items account step).clock := by
  simp only [DefaultAccount.after, perform_clock, DefaultAccount.wait]
  omega

private theorem run_clock (steps : List DefaultAccount.DefaultPlanStep) :
    account.clock ≤ (DefaultAccount.runDefaultPlan items account steps).clock := by
  induction steps generalizing account with
  | nil => exact le_rfl
  | cons step rest ih => exact (after_clock step).trans ih

private theorem run_append (steps rest : List DefaultAccount.DefaultPlanStep) :
    DefaultAccount.runDefaultPlan items account (steps ++ rest) =
      DefaultAccount.runDefaultPlan items (DefaultAccount.runDefaultPlan items account steps) rest := by
  simp only [DefaultAccount.runDefaultPlan, List.foldl_append]

private theorem neverMisplaced_append (steps rest : List DefaultAccount.DefaultPlanStep) :
    DefaultAccount.neverMisplaced items account (steps ++ rest) = (DefaultAccount.neverMisplaced items account steps &&
      DefaultAccount.neverMisplaced items (DefaultAccount.runDefaultPlan items account steps) rest) := by
  induction steps generalizing account with
  | nil => rfl
  | cons step earlier ih =>
    simp only [List.cons_append, DefaultAccount.neverMisplaced, ih, Bool.and_assoc]
    rfl

theorem run_sound {steps : List DefaultAccount.DefaultPlanStep} (sound : Sound account)
    (dated : (DefaultAccount.runDefaultPlan items account steps).clock < openEnd)
    (clear : DefaultAccount.neverMisplaced items account steps = true) :
    Sound (DefaultAccount.runDefaultPlan items account steps) ∧
      StaysConsumed account (DefaultAccount.runDefaultPlan items account steps) := by
  induction steps generalizing account with
  | nil => exact ⟨sound, .refl account⟩
  | cons step rest ih =>
    simp only [DefaultAccount.neverMisplaced, Bool.and_eq_true, Bool.not_eq_true'] at clear
    have waited : Sound (account.wait step.elapsed) := by
      obtain ⟨anchor, sound⟩ := sound
      exact ⟨anchor, sound.wait step.elapsed⟩
    have reached : (account.wait step.elapsed).clock ≤ (DefaultAccount.runDefaultPlan items account (step :: rest)).clock := by
      have := @run_clock items (DefaultAccount.after items account step) rest
      rw [DefaultAccount.after, perform_clock] at this
      exact this
    have performed := perform_sound waited (by omega) clear.1
    have finished := ih performed.1 dated clear.2
    refine ⟨finished.1, ?_⟩
    have same : StaysConsumed account (account.wait step.elapsed) := StaysConsumed.refl account
    exact (same.trans performed.2).trans finished.2

theorem fresh_sound (fresh : account.Fresh) : Sound account := by
  refine ⟨account.clock, ?_⟩
  constructor
  · exact le_rfl
  all_goals simp [fresh.ungranted, fresh.unopened]

/-- The invariant gives each window its allowance once. -/
theorem Sound.granted_once (sound : Sound account) (dated : account.clock < openEnd) : account.GrantedOnce := by
  obtain ⟨anchor, sound⟩ := sound
  have ended : ∀ row ∈ account.allowances, account.anchor = anchor := by
    intro row member
    have := sound.granted row member
    cases grants : account.grants with
    | nil =>
      rw [grants] at this
      exact absurd this (Nat.not_lt_zero _)
    | cons grant rest =>
      simp only [DefaultAccount.anchor, grants, List.head?_cons, Option.elim_some]
      exact sound.starts grant (by rw [grants]; exact List.mem_cons_self)
  refine ⟨sound.distinct, ?_, ?_⟩
  · intro first firstMember second secondMember firstRuns secondRuns
    have reset := sound.single first firstMember second secondMember firstRuns secondRuns
    apply sound.once first firstMember second secondMember reset
    have firstPlaced := sound.placed first firstMember
    have secondPlaced := sound.placed second secondMember
    rw [← (firstPlaced.started dated).2.2.1, ← (secondPlaced.started dated).2.2.1, ← firstPlaced.current dated firstRuns,
      ← secondPlaced.current dated secondRuns, reset]
  · intro first firstMember second secondMember reset inside
    rw [ended first firstMember] at inside
    obtain ⟨begun, reached, firstEnds, -⟩ := (sound.placed first firstMember).started dated
    obtain ⟨begunAlso, reachedAlso, secondEnds, -⟩ := (sound.placed second secondMember).started dated
    apply sound.once first firstMember second secondMember reset
    rw [← firstEnds, ← secondEnds, ← reset]
    rw [resetWindow_shared begunAlso (by omega) begun (by omega) inside]

/-- The default plan refills no window, and what was consumed stays consumed, in every run that strands no allowance and opens none
beside another. -/
theorem default_plan_never_refills (fresh : account.Fresh) {steps : List DefaultAccount.DefaultPlanStep}
    (dated : (DefaultAccount.runDefaultPlan items account steps).clock < openEnd)
    (clear : DefaultAccount.neverMisplaced items account steps = true) :
    (DefaultAccount.runDefaultPlan items account steps).GrantedOnce ∧ ∀ earlier later, steps = earlier ++ later →
      StaysConsumed (DefaultAccount.runDefaultPlan items account earlier) (DefaultAccount.runDefaultPlan items account steps) := by
  constructor
  · exact (run_sound (fresh_sound fresh) dated clear).1.granted_once dated
  · rintro earlier later rfl
    rw [neverMisplaced_append, Bool.and_eq_true] at clear
    rw [run_append] at dated ⊢
    have reached := (@run_clock items (DefaultAccount.runDefaultPlan items account earlier) later).trans_lt dated
    exact (run_sound (run_sound (fresh_sound fresh) reached clear.1).1 dated clear.2).2

end Runs

/-- A daily item, a version without the feature, and a weekly item. -/
def sampleItems : Nat → Option GrantItem
  | 1 => some ⟨1, 5, some ⟨.day, 1, Nat.one_pos⟩, .never⟩
  | 3 => some ⟨3, 7, some ⟨.week, 1, Nat.one_pos⟩, .never⟩
  | _ => none

def sampleAccount : DefaultAccount := ⟨0, none, .none, [], []⟩

/-- The feature leaves and comes back, a subscription takes over and ends, and the day becomes a week. -/
def returningSteps : List DefaultAccount.DefaultPlanStep :=
  [⟨0, .publish (some ⟨1, []⟩)⟩, ⟨0, .reconcile⟩, ⟨0, .openWindows⟩, ⟨0, .consume 0 3⟩,
   ⟨5, .publish (some ⟨2, []⟩)⟩, ⟨0, .reconcile⟩, ⟨5, .publish (some ⟨1, []⟩)⟩, ⟨0, .reconcile⟩, ⟨0, .openWindows⟩,
   ⟨1, .base .held⟩, ⟨0, .reconcile⟩, ⟨7, .base .none⟩, ⟨0, .reconcile⟩, ⟨0, .openWindows⟩, ⟨0, .consume 0 1⟩,
   ⟨1, .publish (some ⟨3, []⟩)⟩, ⟨0, .reconcile⟩, ⟨0, .openWindows⟩, ⟨86400000, .openWindows⟩]

theorem default_plan_never_refills_returning :
    (DefaultAccount.runDefaultPlan sampleItems sampleAccount returningSteps).GrantedOnce ∧
      ∀ earlier later, returningSteps = earlier ++ later →
        StaysConsumed (DefaultAccount.runDefaultPlan sampleItems sampleAccount earlier)
          (DefaultAccount.runDefaultPlan sampleItems sampleAccount returningSteps) :=
  default_plan_never_refills ⟨rfl, rfl⟩ (by decide) (by decide)

/-- The plan is published without the feature while a subscription holds the base, and with it again once it ended. -/
def strandingSteps : List DefaultAccount.DefaultPlanStep :=
  [⟨0, .publish (some ⟨1, []⟩)⟩, ⟨0, .reconcile⟩, ⟨0, .openWindows⟩, ⟨0, .consume 0 5⟩, ⟨1, .base .held⟩, ⟨0, .reconcile⟩,
   ⟨0, .publish (some ⟨2, []⟩)⟩, ⟨0, .base .none⟩, ⟨0, .reconcile⟩, ⟨0, .publish (some ⟨1, []⟩)⟩, ⟨0, .reconcile⟩, ⟨0, .openWindows⟩]

theorem default_plan_refills :
    sampleAccount.Fresh ∧ (DefaultAccount.runDefaultPlan sampleItems sampleAccount strandingSteps).clock < openEnd ∧
      ¬ (DefaultAccount.runDefaultPlan sampleItems sampleAccount strandingSteps).GrantedOnce := by
  refine ⟨⟨rfl, rfl⟩, by decide, ?_⟩
  intro granted
  exact absurd granted.once (by decide)

end Quotum.DefaultPlans
