import Quotum.DispatchClaims

/-! A key's dispatches are serial. A committed claim keeps the row pending until its own request stores the answer or releases it, so the
next authorization comes after the release, and after a stored answer none comes. -/

namespace Quotum.DispatchClaims
open KeyState

variable {stage : Stage}

variable {Hash : Type}

def Entry.request : Entry → Nat
  | .authorized request _ | .dispatched request | .stored request _ | .released request => request

section Record
variable (requests : Nat → KeyedRequest)

/-- What an entry of the record comes after. No entry comes after a stored answer. -/
def Entry.Follows (earlier : List Entry) : Entry → Prop
  | .authorized request grants => (∀ entry ∈ earlier, entry.request ≠ request) ∧
      (∀ other taken, .authorized other taken ∈ earlier → .released other ∈ earlier ∧ List.Disjoint grants taken) ∧
      ((requests request).stepUp ≠ none → grants ≠ []) ∧ ∀ other answer, .stored other answer ∉ earlier
  | .dispatched request => (∃ grants, .authorized request grants ∈ earlier) ∧ .dispatched request ∉ earlier ∧
      .released request ∉ earlier ∧ ∀ other answer, .stored other answer ∉ earlier
  | .stored request answer => .dispatched request ∈ earlier ∧ .released request ∉ earlier ∧
      (∃ response, response.status < 500 ∧ answer = (requests request).repeated response) ∧ ∀ other answer, .stored other answer ∉ earlier
  | .released request => .dispatched request ∈ earlier ∧ .released request ∉ earlier ∧ ∀ other answer, .stored other answer ∉ earlier

/-- A record, newest first, each entry of which comes after the entries it needs. -/
def Serial : List Entry → Prop
  | [] => True
  | entry :: earlier => entry.Follows requests earlier ∧ Serial earlier

end Record

section Invariant
variable (requests : Nat → KeyedRequest) (digest : Input → Hash)

/-- The record holds nothing of a request. -/
def Unlogged (s : KeyState Hash) (request : Nat) : Prop :=
  ∀ entry ∈ s.log, entry.request ≠ request

/-- The row as a transaction finds it that may write it: absent, or its own without a result. -/
def Open (s : KeyState Hash) (request : Nat) : Prop :=
  s.row = none ∨ s.row = some ⟨digest (requests request).input, none⟩

/-- A committed claim: the row is pending under its hash, and of all authorizations only its own is not released. -/
structure Claimed (s : KeyState Hash) (request : Nat) : Prop where
  row : s.row = some ⟨digest (requests request).input, some (.dispatch .pending)⟩
  authorized : ∃ grants, .authorized request grants ∈ s.log
  others : ∀ other grants, .authorized other grants ∈ s.log → other = request ∨ .released other ∈ s.log
  unreleased : .released request ∉ s.log

/-- The grants that a transaction consumes: there, unconsumed, and at least one where the action asks for one. -/
structure Consuming (s : KeyState Hash) (request : Nat) (grants : List Nat) : Prop where
  dispatches : (requests request).input.dispatches = true
  asked : (requests request).stepUp ≠ none → grants ≠ []
  unconsumed : ∀ id ∈ grants, ∃ grant ∈ s.grants, grant.id = id ∧ grant.consumedAt = none

def Knows (s : KeyState Hash) (request : Nat) : Stage → Prop
  | .begun | .checked | .skipped => Unlogged s request
  | .inserted => Unlogged s request ∧ s.row = none
  | .leaving outcome => Unlogged s request ∧ ∀ answer, outcome = .stored answer →
      ∃ result, s.row = some ⟨digest (requests request).input, some result⟩ ∧ result.state = some "completed".toList ∧ result.response = answer
  | .locked => Unlogged s request ∧ Open requests digest s request
  | .operated result => Unlogged s request ∧ Open requests digest s request ∧ ∀ stored, result ≠ some (.dispatch stored)
  | .authorized grants => Unlogged s request ∧ Open requests digest s request ∧ Consuming requests s request grants
  | .claimed => Claimed requests digest s request ∧ .dispatched request ∉ s.log
  | .dispatching | .failed _ => Claimed requests digest s request ∧ .dispatched request ∈ s.log
  | .answered response => (Claimed requests digest s request ∧ .dispatched request ∈ s.log) ∧ response.status < 500
  | .crashed held => held = true → Claimed requests digest s request
  | .ended _ => True

structure Recorded (s : KeyState Hash) : Prop where
  serial : Serial requests s.log
  settled : (∀ row stored, s.row = some row → row.result ≠ some (.dispatch stored)) →
    ∀ request grants, .authorized request grants ∈ s.log → .released request ∈ s.log
  stored : ∀ request answer, .stored request answer ∈ s.log →
    s.row = some ⟨digest (requests request).input, some (.dispatch (.completed answer))⟩
  kind : ∀ row stored, s.row = some row → row.result = some (.dispatch stored) →
    ∃ request, (requests request).input.dispatches = true ∧ digest (requests request).input = row.requestHash
  spent : ∀ request grants, .authorized request grants ∈ s.log → ∀ id ∈ grants,
    (∃ grant ∈ s.grants, grant.id = id) ∧ ∀ grant ∈ s.grants, grant.id = id → grant.consumedAt ≠ none

structure Sound (s : KeyState Hash) : Prop where
  knows : ∀ request, Knows requests digest s request (s.stages request)
  holder : ∀ request, (s.stages request).locks = true ↔ s.holder = some request
  record : Recorded requests digest s

end Invariant

section Steps
variable {requests : Nat → KeyedRequest} {digest : Input → Hash} {s after : KeyState Hash} {request other : Nat}

theorem Claimed.unanswered (claimed : Claimed requests digest s request) (record : Recorded requests digest s) (other : Nat)
    (answer : StoredDispatchResponse) : .stored other answer ∉ s.log := by
  intro member
  have completed := record.stored other answer member
  rw [claimed.row] at completed
  simp at completed

theorem Open.unanswered (opened : Open requests digest s request) (record : Recorded requests digest s) (other : Nat)
    (answer : StoredDispatchResponse) : .stored other answer ∉ s.log := by
  intro member
  have completed := record.stored other answer member
  rcases opened with absent | unset
  · rw [absent] at completed
    cases completed
  · rw [unset] at completed
    simp at completed

/-- Of two claims that are held there is but one. -/
theorem Claimed.unique (claimed : Claimed requests digest s request) (also : Claimed requests digest s other) : other = request := by
  obtain ⟨grants, authorized⟩ := also.authorized
  exact (claimed.others other grants authorized).resolve_right also.unreleased

theorem Knows.claimed (knows : Knows requests digest s request stage) (held : stage.held = true) :
    Claimed requests digest s request := by
  cases stage with
  | claimed | dispatching | failed => exact knows.1
  | answered => exact knows.1.1
  | crashed => exact knows held
  | begun | checked | skipped | inserted | leaving | locked | authorized | operated | ended => cases held

theorem Open.unclaimed (opened : Open requests digest s request) : ¬ Claimed requests digest s other := by
  intro claimed
  have pending := claimed.row
  rcases opened with absent | unset
  · rw [absent] at pending
    cases pending
  · rw [unset] at pending
    simp at pending

section
variable (knows : Knows requests digest s request stage)
include knows

/-- A request without a claim keeps what it knows, as long as the row it holds stays and nothing is recorded of it. -/
theorem Knows.aside (free : stage.held = false)
    (logged : ∀ entry ∈ after.log, entry ∈ s.log ∨ entry.request ≠ request)
    (kept : stage.locks = true → after.row = s.row)
    (left : ∀ grants, stage = .authorized grants → ∀ id ∈ grants, (∃ grant ∈ s.grants, grant.id = id ∧ grant.consumedAt = none) →
      ∃ grant ∈ after.grants, grant.id = id ∧ grant.consumedAt = none) : Knows requests digest after request stage := by
  have quiet (unlogged : Unlogged s request) : Unlogged after request := fun entry member =>
    (logged entry member).elim (unlogged entry) id
  cases stage with
  | begun | checked | skipped => exact quiet knows
  | inserted => exact ⟨quiet knows.1, (kept rfl).trans knows.2⟩
  | leaving outcome =>
    refine ⟨quiet knows.1, ?_⟩
    rw [kept rfl]
    exact knows.2
  | locked =>
    refine ⟨quiet knows.1, ?_⟩
    rw [Open, kept rfl]
    exact knows.2
  | operated =>
    refine ⟨quiet knows.1, ?_, knows.2.2⟩
    rw [Open, kept rfl]
    exact knows.2.1
  | authorized grants =>
    refine ⟨quiet knows.1, ?_, knows.2.2.dispatches, knows.2.2.asked, ?_⟩
    · rw [Open, kept rfl]
      exact knows.2.1
    · exact fun id member => left grants rfl id member (knows.2.2.unconsumed id member)
  | claimed | dispatching | answered | failed => cases free
  | crashed held =>
    intro claimed
    rw [show held = false from free] at claimed
    cases claimed
  | ended => trivial

theorem Knows.held (held : stage.held = true) (row : after.row = s.row)
    (log : after.log = s.log) : Knows requests digest after request stage := by
  have claimed : Claimed requests digest s request → Claimed requests digest after request := by
    rintro ⟨pending, authorized, others, unreleased⟩
    constructor
    · rw [row]
      exact pending
    all_goals rw [log]
    · exact authorized
    · exact others
    · exact unreleased
  cases stage with
  | claimed | dispatching | failed => exact ⟨claimed knows.1, log ▸ knows.2⟩
  | answered => exact ⟨⟨claimed knows.1.1, log ▸ knows.1.2⟩, knows.2⟩
  | crashed => exact fun held => claimed (knows held)
  | _ => cases held

theorem Knows.kept (row : after.row = s.row) (log : after.log = s.log)
    (left : ∀ grants, stage = .authorized grants → ∀ id ∈ grants, (∃ grant ∈ s.grants, grant.id = id ∧ grant.consumedAt = none) →
      ∃ grant ∈ after.grants, grant.id = id ∧ grant.consumedAt = none) : Knows requests digest after request stage := by
  by_cases held : stage.held = true
  · exact knows.held held row log
  · refine knows.aside (Bool.eq_false_iff.mpr held) ?_ (fun _ => row) left
    intro entry member
    rw [log] at member
    exact .inl member

theorem Knows.same (row : after.row = s.row) (log : after.log = s.log)
    (grants : after.grants = s.grants) : Knows requests digest after request stage :=
  knows.kept row log fun _ _ _ _ found => grants ▸ found

end

theorem Recorded.same (record : Recorded requests digest s) (row : after.row = s.row) (log : after.log = s.log)
    (grants : after.grants = s.grants) : Recorded requests digest after := by
  obtain ⟨serial, settled, stored, kind, spent⟩ := record
  constructor
  · rwa [log]
  · rwa [log, row]
  · rwa [log, row]
  · rwa [row]
  · rwa [log, grants]

private theorem sound_moved (stages : after.stages = Function.update s.stages request stage)
    (own : Knows requests digest after request stage)
    (others : ∀ other, other ≠ request → Knows requests digest after other (s.stages other))
    (held : stage.locks = true ↔ after.holder = some request)
    (holders : ∀ other, other ≠ request → ((s.stages other).locks = true ↔ after.holder = some other))
    (record : Recorded requests digest after) : Sound requests digest after where
  knows := by
    intro other
    rw [stages]
    by_cases same : other = request
    · subst same
      rwa [Function.update_self]
    · rw [Function.update_of_ne same]
      exact others other same
  holder := by
    intro other
    rw [stages]
    by_cases same : other = request
    · subst same
      rwa [Function.update_self]
    · rw [Function.update_of_ne same]
      exact holders other same
  record := record

section
variable (sound : Sound requests digest s)
include sound

/-- A stage that changes neither the tables nor who holds the row. -/
theorem Sound.quiet (same : stage.locks = (s.stages request).locks)
    (own : Knows requests digest s request stage) : Sound requests digest (s.move request stage) := by
  refine sound_moved rfl ?_ ?_ ?_ ?_ ?_
  · exact own.same rfl rfl rfl
  · exact fun other _ => (sound.knows other).same rfl rfl rfl
  · rw [same]
    exact sound.holder request
  · exact fun other _ => sound.holder other
  · exact sound.record.same rfl rfl rfl

theorem Sound.unlocked (free : s.holder = none) (other : Nat) : (s.stages other).locks = false := by
  apply Bool.eq_false_iff.mpr
  intro locked
  have holder := (sound.holder other).mp locked
  rw [free] at holder
  cases holder

theorem Sound.alone (locked : (s.stages request).locks = true) (other : Nat) (apart : other ≠ request) :
    (s.stages other).locks = false := by
  apply Bool.eq_false_iff.mpr
  intro also
  have holder := (sound.holder other).mp also
  rw [(sound.holder request).mp locked] at holder
  exact apart (Option.some.inj holder).symm

theorem Sound.taken (free : s.holder = none) (locks : stage.locks = true)
    (own : Knows requests digest s request stage) : Sound requests digest ({ s with holder := some request }.move request stage) := by
  refine sound_moved rfl ?_ ?_ ?_ ?_ ?_
  · exact own.same rfl rfl rfl
  · exact fun other _ => (sound.knows other).same rfl rfl rfl
  · exact iff_of_true locks rfl
  · intro other apart
    rw [sound.unlocked free other]
    exact iff_of_false Bool.false_ne_true fun same => apart (Option.some.inj same).symm
  · exact sound.record.same rfl rfl rfl

theorem Sound.released (locked : (s.stages request).locks = true) {stage : Stage} (locks : stage.locks = false)
    (own : Knows requests digest s request stage) : Sound requests digest (s.rollback request stage) := by
  refine sound_moved rfl ?_ ?_ ?_ ?_ ?_
  · exact own.same rfl rfl rfl
  · exact fun other _ => (sound.knows other).same rfl rfl rfl
  · rw [locks]
    exact iff_of_false Bool.false_ne_true (by rintro ⟨⟩)
  · intro other apart
    rw [sound.alone locked other apart]
    exact iff_of_false Bool.false_ne_true (by rintro ⟨⟩)
  · exact sound.record.same rfl rfl rfl

/-- A write of the row by a request that no other one holds it or a claim against. -/
theorem Sound.written {stage : Stage} (stages : after.stages = Function.update s.stages request stage)
    (locks : stage.locks = false) (free : after.holder = none) (own : Knows requests digest after request stage)
    (others : ∀ other, other ≠ request → (s.stages other).locks = false ∧ (s.stages other).held = false)
    (logged : ∀ entry ∈ after.log, entry ∈ s.log ∨ entry.request = request) (record : Recorded requests digest after) :
    Sound requests digest after := by
  refine sound_moved stages own ?_ ?_ ?_ ?_
  · intro other apart
    apply (sound.knows other).aside (others other apart).2
    · exact fun entry member => (logged entry member).imp_right fun same other => apart (other.symm.trans same)
    · intro locked
      rw [(others other apart).1] at locked
      cases locked
    · intro grants consuming
      have unlocked := (others other apart).1
      rw [consuming] at unlocked
      cases unlocked
  · rw [locks, free]
    exact iff_of_false Bool.false_ne_true (by rintro ⟨⟩)
  · intro other apart
    rw [(others other apart).1, free]
    exact iff_of_false Bool.false_ne_true (by rintro ⟨⟩)
  · exact record

theorem Sound.unheld (none : ¬ Claimed requests digest s other) :
    (s.stages other).held = false :=
  Bool.eq_false_iff.mpr fun held => none ((sound.knows other).claimed held)

theorem Sound.checkSession (request : Nat) : Sound requests digest (s.checkSession requests request) := by
  have knows := sound.knows request
  rw [KeyState.checkSession]
  split
  · next stage =>
    rw [stage] at knows
    split
    · exact sound.quiet (by rw [stage]; rfl) knows
    · exact sound.quiet (by rw [stage]; rfl) trivial
  · exact sound

theorem Sound.insertRow (request : Nat) : Sound requests digest (s.insertRow request) := by
  have knows := sound.knows request
  rw [KeyState.insertRow]
  split
  · next stage =>
    rw [stage] at knows
    split
    · exact sound.quiet (by rw [stage]; rfl) knows
    · exact sound
    · next absent free => exact sound.taken free rfl ⟨knows, absent⟩
  · exact sound

/-- While the row is free, a held claim is the only thing that stands on it. -/
theorem Sound.only (claimed : Claimed requests digest s request) (free : s.holder = none) (other : Nat)
    (apart : other ≠ request) : (s.stages other).locks = false ∧ (s.stages other).held = false := by
  refine ⟨sound.unlocked free other, sound.unheld ?_⟩
  intro also
  exact apart (claimed.unique also)

end

/-- The row of a claim that is settled takes another claim only where the claim was released. -/
theorem Claimed.settled (claimed : Claimed requests digest s request) :
    ∀ other grants, .authorized other grants ∈ Entry.released request :: s.log → .released other ∈ Entry.released request :: s.log := by
  intro other grants member
  have before : .authorized other grants ∈ s.log := (List.mem_cons.mp member).resolve_left (by rintro ⟨⟩)
  rcases claimed.others other grants before with rfl | released
  · exact List.mem_cons_self
  · exact List.mem_cons_of_mem _ released

section Reading
variable [DecidableEq Hash]

private theorem knows_readRow {row : IdempotencyRow Hash} (found : s.row = some row) (unlogged : Unlogged s request) :
    (readRow requests digest request row).locks = true ∧ Knows requests digest s request (readRow requests digest request row) := by
  obtain ⟨requestHash, result⟩ := row
  have other {outcome : Outcome} (apart : ∀ answer, outcome ≠ .stored answer) :
      (Stage.leaving outcome).locks = true ∧ Knows requests digest s request (.leaving outcome) :=
    ⟨rfl, unlogged, fun answer same => absurd same (apart answer)⟩
  rw [readRow]
  split
  · exact other (by rintro answer ⟨⟩)
  · next same =>
    obtain rfl := not_not.mp same
    cases result with
    | none => exact ⟨rfl, unlogged, .inr found⟩
    | some result =>
      dsimp only
      split
      · split
        · next completed =>
          refine ⟨rfl, unlogged, ?_⟩
          rintro answer ⟨⟩
          exact ⟨result, found, completed, rfl⟩
        · exact other (by rintro answer ⟨⟩)
      · exact other (by rintro answer ⟨⟩)

theorem Sound.selectRow (sound : Sound requests digest s) (request : Nat) : Sound requests digest (s.selectRow requests digest request) := by
  have knows := sound.knows request
  rw [KeyState.selectRow]
  split
  · next stage =>
    rw [stage] at knows
    exact sound.quiet (by rw [stage]; rfl) ⟨knows.1, .inl knows.2⟩
  · next stage =>
    rw [stage] at knows
    split
    · exact sound.quiet (by rw [stage]; rfl) trivial
    · exact sound
    · next found free =>
      obtain ⟨locks, reads⟩ := knows_readRow found knows
      exact sound.taken free locks reads
  · exact sound

theorem Claimed.own (claimed : Claimed requests digest s request) : s.row.filter (isOwn requests digest request) = s.row := by
  rw [claimed.row, Option.filter_some, isOwn]
  simp [StoredResult.state]

theorem Sound.storeAnswer (sound : Sound requests digest s) (request : Nat) : Sound requests digest (s.storeAnswer requests digest request) := by
  have knows := sound.knows request
  rw [KeyState.storeAnswer]
  split
  · next response stage =>
    rw [stage] at knows
    obtain ⟨⟨claimed, dispatched⟩, small⟩ := knows
    have unanswered := claimed.unanswered sound.record
    rw [claimed.own, claimed.row]
    split
    · exact sound.quiet (by rw [stage]; rfl) trivial
    · exact sound
    · next found free =>
      obtain rfl := Option.some.inj found
      refine sound.written rfl rfl free trivial (sound.only claimed free) ?_ ?_
      · intro entry member
        exact (List.mem_cons.mp member).symm.imp_right (congrArg Entry.request)
      · obtain ⟨serial, settled, stored, kind, spent⟩ := sound.record
        constructor
        · exact ⟨⟨dispatched, claimed.unreleased, ⟨response, small, rfl⟩, unanswered⟩, serial⟩
        · intro none
          exact absurd rfl (none _ _ rfl)
        · intro other answer member
          rcases List.mem_cons.mp member with own | before
          · cases own
            rfl
          · exact absurd before (unanswered other answer)
        · rintro row stored ⟨⟩ -
          exact kind ⟨_, some (.dispatch .pending)⟩ _ claimed.row rfl
        · intro other grants member
          exact spent other grants ((List.mem_cons.mp member).resolve_left (by rintro ⟨⟩))
  · exact sound

theorem Sound.releaseDispatch (sound : Sound requests digest s) (request : Nat) :
    Sound requests digest (s.releaseDispatch requests digest request) := by
  have knows := sound.knows request
  rw [KeyState.releaseDispatch]
  split
  · next response stage =>
    rw [stage] at knows
    obtain ⟨claimed, dispatched⟩ := knows
    have unanswered := claimed.unanswered sound.record
    rw [claimed.own, claimed.row]
    dsimp only
    split
    · exact sound.quiet (by rw [stage]; rfl) trivial
    · exact sound
    · next found free =>
      refine sound.written rfl rfl free trivial (sound.only claimed free) ?_ ?_
      · intro entry member
        exact (List.mem_cons.mp member).symm.imp_right (congrArg Entry.request)
      · obtain ⟨serial, settled, stored, kind, spent⟩ := sound.record
        constructor
        · exact ⟨⟨dispatched, claimed.unreleased, unanswered⟩, serial⟩
        · exact fun _ => claimed.settled
        · intro other answer member
          exact absurd ((List.mem_cons.mp member).resolve_left (by rintro ⟨⟩)) (unanswered other answer)
        · rintro row stored ⟨⟩
        · intro other grants member
          exact spent other grants ((List.mem_cons.mp member).resolve_left (by rintro ⟨⟩))
  · exact sound

end Reading

section
variable (sound : Sound requests digest s)
include sound

theorem Sound.leave (request : Nat) : Sound requests digest (s.leave request) := by
  rw [KeyState.leave]
  split
  · next outcome stage => exact sound.released (by rw [stage]; rfl) rfl trivial
  · exact sound

theorem Sound.authorize (hash : Text → Text) (request : Nat) (allowed : Bool) :
    Sound requests digest (s.authorize requests hash request allowed) := by
  have knows := sound.knows request
  rw [KeyState.authorize]
  split
  · next json stage input =>
    rw [stage] at knows
    have dispatches : (requests request).input.dispatches = true := by rw [input]; rfl
    have undone : Sound requests digest (s.rollback request (.ended .rolledBack)) := sound.released (by rw [stage]; rfl) rfl trivial
    split
    · exact undone
    · split
      · next plain =>
        refine sound.quiet (by rw [stage]; rfl) ⟨knows.1, knows.2, dispatches, ?_, ?_⟩
        · exact fun asked => absurd plain asked
        · rintro id ⟨⟩
      · next use asked =>
        dsimp only
        split
        · exact undone
        · next nonempty =>
          refine sound.quiet (by rw [stage]; rfl) ⟨knows.1, knows.2, dispatches, fun _ => nonempty, ?_⟩
          intro id member
          rw [matching] at member
          split at member
          · cases member
          · obtain ⟨grant, inside, rfl⟩ := List.mem_map.mp member
            obtain ⟨there, fits⟩ := List.mem_filter.mp inside
            have fits := of_decide_eq_true fits
            exact ⟨grant, there, rfl, fits.2.2.2.2.2.2.1⟩
  · exact sound

theorem Sound.operate (request : Nat) (result : Except Unit (Option StoredResult)) :
    Sound requests digest (s.operate requests request result) := by
  have knows := sound.knows request
  unfold KeyState.operate
  split
  · next stage _ =>
    rw [stage] at knows
    exact sound.quiet (by rw [stage]; rfl) ⟨knows.1, knows.2, by rintro stored ⟨⟩⟩
  · next stage _ =>
    rw [stage] at knows
    exact sound.quiet (by rw [stage]; rfl) ⟨knows.1, knows.2, by rintro stored ⟨⟩⟩
  · next stage _ => exact sound.released (by rw [stage]; rfl) rfl trivial
  · exact sound

omit sound in
private theorem consumed_grants {ids : List Nat} {now : Int} {grants : List StepUpGrant} {id : Nat} :
    ((∃ grant ∈ grants, grant.id = id) → ∃ grant ∈ consumed ids now grants, grant.id = id) ∧
      ((id ∈ ids ∨ ∀ grant ∈ grants, grant.id = id → grant.consumedAt ≠ none) →
        ∀ grant ∈ consumed ids now grants, grant.id = id → grant.consumedAt ≠ none) := by
  constructor
  · rintro ⟨grant, member, rfl⟩
    refine ⟨_, List.mem_map_of_mem member, ?_⟩
    split <;> rfl
  · intro either grant member same
    obtain ⟨old, inside, rfl⟩ := List.mem_map.mp member
    by_cases listed : old.id ∈ ids
    · rw [if_pos listed]
      simp
    · rw [if_neg listed] at same ⊢
      exact either.resolve_left (fun own => listed (same ▸ own)) old inside same

theorem Sound.commit (request : Nat) : Sound requests digest (s.commit requests digest request) := by
  have knows := sound.knows request
  obtain ⟨serial, settled, stored, kind, spent⟩ := sound.record
  have apart (opened : Open requests digest s request) (locked : (s.stages request).locks = true) (other : Nat) (apart : other ≠ request) :
      (s.stages other).locks = false ∧ (s.stages other).held = false :=
    ⟨sound.alone locked other apart, sound.unheld opened.unclaimed⟩
  have settled (opened : Open requests digest s request) (other : Nat) (grants : List Nat) (member : .authorized other grants ∈ s.log) :
      .released other ∈ s.log := by
    refine settled ?_ other grants member
    intro row stored found same
    rcases opened with absent | unset
    · rw [absent] at found
      cases found
    · rw [unset] at found
      cases found
      cases same
  rw [KeyState.commit]
  split
  · next grants stage =>
    rw [stage] at knows
    obtain ⟨unlogged, opened, dispatches, asked, unconsumed⟩ := knows
    have unanswered := opened.unanswered sound.record
    refine sound.written rfl rfl rfl ?_ (apart opened (by rw [stage]; rfl)) ?_ ?_
    · refine ⟨⟨rfl, ⟨grants, List.mem_cons_self⟩, ?_, ?_⟩, ?_⟩
      · intro other taken member
        rcases List.mem_cons.mp member with own | before
        · exact .inl (Entry.authorized.inj own).1
        · exact .inr (List.mem_cons_of_mem _ (settled opened other taken before))
      · intro member
        exact unlogged _ ((List.mem_cons.mp member).resolve_left (by rintro ⟨⟩)) rfl
      · intro member
        exact unlogged _ ((List.mem_cons.mp member).resolve_left (by rintro ⟨⟩)) rfl
    · intro entry member
      exact (List.mem_cons.mp member).symm.imp_right (congrArg Entry.request)
    · constructor
      · refine ⟨⟨unlogged, ?_, asked, unanswered⟩, serial⟩
        intro other taken member
        refine ⟨settled opened other taken member, ?_⟩
        intro id own before
        obtain ⟨grant, inside, same, left⟩ := unconsumed id own
        exact (spent other taken member id before).2 grant inside same left
      · intro none
        exact absurd rfl (none _ _ rfl)
      · intro other answer member
        exact absurd ((List.mem_cons.mp member).resolve_left (by rintro ⟨⟩)) (unanswered other answer)
      · rintro row stored ⟨⟩ -
        exact ⟨request, dispatches, rfl⟩
      · intro other taken member id inside
        rcases List.mem_cons.mp member with own | before
        · obtain ⟨rfl, rfl⟩ := Entry.authorized.inj own
          obtain ⟨grant, there, same, -⟩ := unconsumed id inside
          exact ⟨consumed_grants.1 ⟨grant, there, same⟩, consumed_grants.2 (.inl inside)⟩
        · obtain ⟨there, gone⟩ := spent other taken before id inside
          exact ⟨consumed_grants.1 there, consumed_grants.2 (.inr gone)⟩
  · next result stage =>
    rw [stage] at knows
    obtain ⟨unlogged, opened, plain⟩ := knows
    refine sound.written rfl rfl rfl trivial (apart opened (by rw [stage]; rfl)) (fun entry => .inl) ?_
    constructor
    · exact serial
    · exact fun _ => settled opened
    · intro other answer member
      exact absurd member (opened.unanswered sound.record other answer)
    · rintro row stored ⟨⟩ same
      exact absurd same (plain stored)
    · exact spent
  · exact sound

/-- An entry of a request that holds the claim, and nothing else. -/
theorem Sound.dispatch (request : Nat) : Sound requests digest (s.dispatch request) := by
  have knows := sound.knows request
  rw [KeyState.dispatch]
  split
  · next stage =>
    rw [stage] at knows
    obtain ⟨claimed, undispatched⟩ := knows
    obtain ⟨grants, authorized⟩ := claimed.authorized
    have unanswered := claimed.unanswered sound.record
    refine sound_moved rfl ?_ ?_ ?_ ?_ ?_
    · refine ⟨⟨claimed.row, ⟨grants, List.mem_cons_of_mem _ authorized⟩, ?_, ?_⟩, List.mem_cons_self⟩
      · intro other taken member
        have before : .authorized other taken ∈ s.log := (List.mem_cons.mp member).resolve_left (by rintro ⟨⟩)
        exact (claimed.others other taken before).imp_right (List.mem_cons_of_mem _)
      · intro member
        exact claimed.unreleased ((List.mem_cons.mp member).resolve_left (by rintro ⟨⟩))
    · intro other apart
      apply (sound.knows other).aside (sound.unheld fun also => apart (claimed.unique also))
      · intro entry member
        rcases List.mem_cons.mp member with rfl | before
        · exact .inr apart.symm
        · exact .inl before
      · exact fun _ => rfl
      · exact fun _ _ _ _ found => found
    · have holder := sound.holder request
      rw [stage] at holder
      exact holder
    · exact fun other _ => sound.holder other
    · obtain ⟨serial, settled, stored, kind, spent⟩ := sound.record
      constructor
      · exact ⟨⟨⟨grants, authorized⟩, undispatched, claimed.unreleased, unanswered⟩, serial⟩
      · intro none
        exact absurd rfl (none _ _ claimed.row)
      · intro other answer member
        exact absurd ((List.mem_cons.mp member).resolve_left (by rintro ⟨⟩)) (unanswered other answer)
      · exact kind
      · intro other taken member
        exact spent other taken ((List.mem_cons.mp member).resolve_left (by rintro ⟨⟩))
  · exact sound

theorem Sound.answer (request : Nat) (response : StoredDispatchResponse) :
    Sound requests digest (s.answer request response) := by
  have knows := sound.knows request
  rw [KeyState.answer]
  split
  · next stage =>
    rw [stage] at knows
    split
    · exact sound.quiet (by rw [stage]; rfl) knows
    · next small => exact sound.quiet (by rw [stage]; rfl) ⟨knows, Nat.lt_of_not_le small⟩
  · exact sound

theorem Sound.throw (request : Nat) : Sound requests digest (s.throw request) := by
  have knows := sound.knows request
  rw [KeyState.throw]
  split
  · next stage =>
    rw [stage] at knows
    exact sound.quiet (by rw [stage]; rfl) knows
  · exact sound

theorem Sound.crash (request : Nat) : Sound requests digest (s.crash request) := by
  have knows := sound.knows request
  rw [KeyState.crash]
  split
  · exact sound
  · have own : Knows requests digest s request (.crashed (s.stages request).held) := fun held => knows.claimed held
    by_cases locked : (s.stages request).locks = true
    · rw [if_pos ((sound.holder request).mp locked)]
      exact sound.released locked rfl own
    · rw [if_neg (fun holds => locked ((sound.holder request).mpr holds))]
      exact sound.quiet (Bool.eq_false_iff.mpr locked).symm own

/-- What changes outside the key: the clock, the sessions, and the grants that no open transaction consumes. -/
theorem Sound.outside (stages : after.stages = s.stages) (row : after.row = s.row)
    (holder : after.holder = s.holder) (log : after.log = s.log)
    (there : ∀ id, (∃ grant ∈ s.grants, grant.id = id) → ∃ grant ∈ after.grants, grant.id = id)
    (gone : ∀ id, (∃ grant ∈ s.grants, grant.id = id) → (∀ grant ∈ s.grants, grant.id = id → grant.consumedAt ≠ none) →
      ∀ grant ∈ after.grants, grant.id = id → grant.consumedAt ≠ none)
    (left : ∀ id ∈ s.heldGrants, (∃ grant ∈ s.grants, grant.id = id ∧ grant.consumedAt = none) →
      ∃ grant ∈ after.grants, grant.id = id ∧ grant.consumedAt = none) : Sound requests digest after where
  knows := by
    intro request
    rw [stages]
    refine (sound.knows request).kept row log ?_
    intro taken stage id member
    apply left id
    have holds := (sound.holder request).mp (by rw [stage]; rfl)
    rw [heldGrants, holds]
    dsimp only
    rwa [stage]
  holder := by
    rw [stages, holder]
    exact sound.holder
  record := by
    obtain ⟨serial, settled, stored, kind, spent⟩ := sound.record
    constructor
    · rwa [log]
    · rwa [log, row]
    · rwa [log, row]
    · rwa [row]
    · intro request taken member id inside
      rw [log] at member
      obtain ⟨before, consumed⟩ := spent request taken member id inside
      exact ⟨there id before, gone id before consumed⟩

theorem Sound.issueGrant (grant : StepUpGrant) : Sound requests digest (s.issueGrant grant) := by
  rw [KeyState.issueGrant]
  split
  · exact sound
  · next fresh =>
    refine sound.outside rfl rfl rfl rfl ?_ ?_ ?_
    · rintro id ⟨old, member, same⟩
      exact ⟨old, List.mem_append_left _ member, same⟩
    · rintro id ⟨old, member, rfl⟩ consumed other inside same
      rcases List.mem_append.mp inside with before | new
      · exact consumed other before same
      · obtain rfl := List.mem_singleton.mp new
        exact absurd (List.mem_map.mpr ⟨old, member, same.symm⟩) fresh
    · rintro id - ⟨old, member, same⟩
      exact ⟨old, List.mem_append_left _ member, same⟩

theorem Sound.editGrant (id : Nat) {edit : StepUpGrant → StepUpGrant}
    (ids : ∀ grant, (edit grant).id = grant.id) : Sound requests digest (s.editGrant id edit) := by
  rw [KeyState.editGrant]
  split
  · exact sound
  · next unheld =>
    refine sound.outside rfl rfl rfl rfl ?_ ?_ ?_
    · rintro other ⟨grant, member, rfl⟩
      refine ⟨_, List.mem_map_of_mem member, ?_⟩
      split
      · exact ids grant
      · rfl
    · intro other _ consumed grant member same
      obtain ⟨old, inside, rfl⟩ := List.mem_map.mp member
      by_cases edited : old.id = id ∧ old.consumedAt = none
      · rw [if_pos edited, ids] at same
        exact absurd edited.2 (consumed old inside same)
      · rw [if_neg edited] at same ⊢
        exact consumed old inside same
    · rintro other held ⟨grant, member, rfl, left⟩
      refine ⟨_, List.mem_map_of_mem member, ?_⟩
      rw [if_neg fun edited : grant.id = id ∧ grant.consumedAt = none => unheld (edited.1 ▸ held)]
      exact ⟨rfl, left⟩

end

section Runs
variable [DecidableEq Hash] {hash : Text → Text}

theorem Sound.perform (sound : Sound requests digest s) (step : KeyStep) : Sound requests digest (perform requests digest hash s step) := by
  cases step with
  | wait | session => exact sound.outside rfl rfl rfl rfl (fun _ => id) (fun _ _ => id) (fun _ _ => id)
  | issueGrant grant => exact sound.issueGrant grant
  | verifyGrant id => exact sound.editGrant id fun _ => rfl
  | consumeGrant id => exact sound.editGrant id fun _ => rfl
  | checkSession request => exact sound.checkSession request
  | insertRow request => exact sound.insertRow request
  | selectRow request => exact sound.selectRow request
  | leave request => exact sound.leave request
  | authorize request allowed => exact sound.authorize hash request allowed
  | operate request result => exact sound.operate request result
  | commit request => exact sound.commit request
  | dispatch request => exact sound.dispatch request
  | answer request response => exact sound.answer request response
  | throw request => exact sound.throw request
  | storeAnswer request => exact sound.storeAnswer request
  | releaseDispatch request => exact sound.releaseDispatch request
  | crash request => exact sound.crash request

theorem Sound.run (sound : Sound requests digest s) (steps : List KeyStep) : Sound requests digest (run requests digest hash steps s) := by
  induction steps generalizing s with
  | nil => exact sound
  | cons step rest ih => exact ih (sound.perform step)

end Runs

end Steps

private theorem unused_sound (requests : Nat → KeyedRequest) (digest : Input → Hash) (now : Int) (sessions : Nat → Option MerchantSession)
    (grants : List StepUpGrant) : Sound requests digest (unused now sessions grants) where
  knows := by rintro request entry ⟨⟩
  holder := fun _ => iff_of_false Bool.false_ne_true (by rintro ⟨⟩)
  record := by
    constructor
    · trivial
    · rintro - request grants ⟨⟩
    · rintro request answer ⟨⟩
    · rintro row stored ⟨⟩
    · rintro request grants ⟨⟩

section Law
variable (requests : Nat → KeyedRequest) (digest : Input → Hash)

inductive Effect (s after : KeyState Hash) : KeyStep → Prop where
  | same {step : KeyStep} (row : after.row = s.row) (log : after.log = s.log) : Effect s after step
  | claims {request : Nat} (opened : Open requests digest s request)
      (log : after.log = s.log ∨ ∃ grants, after.log = .authorized request grants :: s.log) : Effect s after (.commit request)
  | dispatches {request : Nat} (held : (s.stages request).held = true) (row : after.row = s.row)
      (log : after.log = .dispatched request :: s.log) : Effect s after (.dispatch request)
  | stores {request : Nat} {answer : StoredDispatchResponse} (held : (s.stages request).held = true)
      (log : after.log = .stored request answer :: s.log) : Effect s after (.storeAnswer request)
  | releases {request : Nat} (held : (s.stages request).held = true)
      (log : after.log = .released request :: s.log) : Effect s after (.releaseDispatch request)

/-- Where a request comes to that an answer was stored before: it answers the same, unless its session ended or it crashed. -/
def Awaits (answer : StoredDispatchResponse) : Stage → Prop
  | .begun | .checked | .skipped | .crashed false | .ended .sessionExpired => True
  | .leaving outcome | .ended outcome => outcome = .stored (some answer)
  | _ => False

variable {requests digest} {s : KeyState Hash}

def answeredRow (requestHash : Hash) (answer : StoredDispatchResponse) : Option (IdempotencyRow Hash) :=
  some ⟨requestHash, some (.dispatch (.completed answer))⟩

variable {requestHash : Hash} {answer : StoredDispatchResponse}

theorem Claimed.unsettled {request : Nat} (claimed : Claimed requests digest s request) : s.row ≠ answeredRow requestHash answer := by
  rw [claimed.row, answeredRow]
  simp

theorem Open.unsettled {request : Nat} (opened : Open requests digest s request) : s.row ≠ answeredRow requestHash answer := by
  rcases opened with absent | unset
  · rw [absent, answeredRow]
    rintro ⟨⟩
  · rw [unset, answeredRow]
    simp

private theorem move_apart {request other : Nat} (apart : other ≠ request) (stage : Stage) :
    (s.move request stage).stages other = s.stages other := by
  simp only [move, Function.update_of_ne apart]

private theorem moved_stage {request : Nat} : (s.move request stage).stages request = stage := by
  simp only [move, Function.update_self]

theorem Awaits.free (awaits : Awaits answer stage) : stage.held = false := by
  cases stage with
  | crashed held =>
    cases held with
    | false => rfl
    | true => cases awaits
  | begun | checked | skipped | leaving | ended => rfl
  | _ => cases awaits

variable [DecidableEq Hash] {hash : Text → Text}

theorem Sound.effect (sound : Sound requests digest s) (step : KeyStep) :
    Effect requests digest s (KeyState.perform requests digest hash s step) step := by
  cases step with
  | wait | session => exact .same rfl rfl
  | issueGrant =>
    simp only [KeyState.perform, KeyState.issueGrant]
    split <;> exact .same rfl rfl
  | verifyGrant | consumeGrant =>
    simp only [KeyState.perform, KeyState.editGrant]
    split <;> exact .same rfl rfl
  | checkSession request =>
    simp only [KeyState.perform, KeyState.checkSession]
    split
    · split <;> exact .same rfl rfl
    · exact .same rfl rfl
  | insertRow request =>
    simp only [KeyState.perform, KeyState.insertRow]
    split
    · split <;> exact .same rfl rfl
    · exact .same rfl rfl
  | selectRow request =>
    simp only [KeyState.perform, KeyState.selectRow]
    split
    · exact .same rfl rfl
    · split <;> exact .same rfl rfl
    · exact .same rfl rfl
  | leave request =>
    simp only [KeyState.perform, KeyState.leave]
    split <;> exact .same rfl rfl
  | authorize request allowed =>
    simp only [KeyState.perform, KeyState.authorize]
    split
    · split
      · exact .same rfl rfl
      · split
        · exact .same rfl rfl
        · split <;> exact .same rfl rfl
    · exact .same rfl rfl
  | operate request result =>
    simp only [KeyState.perform]
    unfold KeyState.operate
    split <;> exact .same rfl rfl
  | commit request =>
    have knows := sound.knows request
    simp only [KeyState.perform, KeyState.commit]
    split
    · next grants stage =>
      rw [stage] at knows
      exact .claims knows.2.1 (.inr ⟨grants, rfl⟩)
    · next stage =>
      rw [stage] at knows
      exact .claims knows.2.1 (.inl rfl)
    · exact .same rfl rfl
  | dispatch request =>
    simp only [KeyState.perform, KeyState.dispatch]
    split
    · next stage => exact .dispatches (by rw [stage]; rfl) rfl rfl
    · exact .same rfl rfl
  | answer request response =>
    simp only [KeyState.perform, KeyState.answer]
    split <;> exact .same rfl rfl
  | throw request =>
    simp only [KeyState.perform, KeyState.throw]
    split <;> exact .same rfl rfl
  | storeAnswer request =>
    simp only [KeyState.perform, KeyState.storeAnswer]
    split
    · next stage =>
      split
      · exact .same rfl rfl
      · exact .same rfl rfl
      · exact .stores (by rw [stage]; rfl) rfl
    · exact .same rfl rfl
  | releaseDispatch request =>
    simp only [KeyState.perform, KeyState.releaseDispatch]
    split
    · next stage =>
      split
      · exact .same rfl rfl
      · exact .same rfl rfl
      · exact .releases (by rw [stage]; rfl) rfl
    · exact .same rfl rfl
  | crash request =>
    simp only [KeyState.perform, KeyState.crash]
    split <;> exact .same rfl rfl

/-- After a stored answer no step writes the row or the record. -/
private theorem answered_step (sound : Sound requests digest s) (settled : s.row = answeredRow requestHash answer) (step : KeyStep) :
    (perform requests digest hash s step).row = s.row ∧ (perform requests digest hash s step).log = s.log := by
  have effect : Effect requests digest s (perform requests digest hash s step) step := sound.effect step
  cases effect with
  | same row log => exact ⟨row, log⟩
  | claims opened => exact absurd settled opened.unsettled
  | @dispatches request held => exact absurd settled ((sound.knows request).claimed held).unsettled
  | @stores request _ held => exact absurd settled ((sound.knows request).claimed held).unsettled
  | @releases request held => exact absurd settled ((sound.knows request).claimed held).unsettled

def KeyStep.request : KeyStep → Option Nat
  | .wait _ | .session _ _ | .issueGrant _ | .verifyGrant _ _ _ | .consumeGrant _ => none
  | .checkSession request | .insertRow request | .selectRow request | .leave request | .authorize request _ | .operate request _
  | .commit request | .dispatch request | .answer request _ | .throw request | .storeAnswer request | .releaseDispatch request
  | .crash request => some request

/-- A step moves no request but its own. -/
private theorem perform_apart (step : KeyStep) {other : Nat} (apart : step.request ≠ some other) :
    (perform requests digest hash s step).stages other = s.stages other := by
  have ne {request : Nat} (other_ : some request ≠ some other) : other ≠ request := fun same => other_ (congrArg some same.symm)
  cases step
  case operate request result =>
    simp only [perform]
    unfold operate
    split
    all_goals first | rfl | exact move_apart (ne apart) _
  all_goals
    simp only [perform, issueGrant, editGrant, checkSession, insertRow, selectRow, leave, authorize, commit, KeyState.dispatch,
      KeyState.answer, KeyState.throw, storeAnswer, releaseDispatch, crash, rollback]
    repeat' split
    all_goals first | rfl | exact move_apart (ne apart) _

private theorem readRow_settled {request : Nat} (input : digest (requests request).input = requestHash)
    (dispatches : (requests request).input.dispatches = true) :
    readRow requests digest request ⟨requestHash, some (.dispatch (.completed answer))⟩ = .leaving (.stored (some answer)) := by
  cases shape : (requests request).input with
  | dispatch json => simp [readRow, ← input, shape, StoredResult.state, StoredResult.response]
  | mutation json =>
    rw [shape] at dispatches
    cases dispatches

section
variable {request : Nat} (awaits : Awaits answer (s.stages request))
include awaits
omit [DecidableEq Hash]

private theorem awaits_check : Awaits answer ((s.checkSession requests request).stages request) := by
  unfold checkSession
  split
  · split
    · exact moved_stage.symm ▸ trivial
    · exact moved_stage.symm ▸ trivial
  · exact awaits

private theorem awaits_insert (settled : s.row = answeredRow requestHash answer) : Awaits answer ((s.insertRow request).stages request) := by
  simp only [insertRow, settled, answeredRow]
  split
  · exact moved_stage.symm ▸ trivial
  · exact awaits

private theorem awaits_leave : Awaits answer ((s.leave request).stages request) := by
  unfold leave
  split
  · next outcome stage =>
    rw [moved_stage, show outcome = .stored (some answer) from (stage ▸ awaits : Awaits answer (.leaving outcome))]
    rfl
  · exact awaits

private theorem awaits_crash : Awaits answer ((s.crash request).stages request) := by
  unfold crash
  split
  · exact awaits
  · rw [moved_stage, awaits.free]
    trivial

end

private theorem awaits_select (settled : s.row = answeredRow requestHash answer) {request : Nat}
    (input : digest (requests request).input = requestHash)
    (dispatches : (requests request).input.dispatches = true) (awaits : Awaits answer (s.stages request)) :
    Awaits answer ((s.selectRow requests digest request).stages request) := by
  simp only [selectRow, settled, answeredRow]
  split
  · next stage => exact (stage ▸ awaits : Awaits answer .inserted).elim
  · split
    · next absent => cases absent
    · exact awaits
    · next found _ =>
      obtain rfl := Option.some.inj found
      rw [moved_stage, readRow_settled input dispatches]
      rfl
  · exact awaits

private theorem awaits_step (settled : s.row = answeredRow requestHash answer) {request : Nat}
    (input : digest (requests request).input = requestHash)
    (dispatches : (requests request).input.dispatches = true) (awaits : Awaits answer (s.stages request)) (step : KeyStep) :
    Awaits answer ((perform requests digest hash s step).stages request) := by
  by_cases own : step.request = some request
  case neg =>
    rw [perform_apart step own]
    exact awaits
  have other {stage : Stage} (at_ : s.stages request = stage) : Awaits answer stage := at_ ▸ awaits
  cases step with
  | wait | session | issueGrant | verifyGrant | consumeGrant => cases own
  | checkSession =>
    cases own
    exact awaits_check awaits
  | insertRow =>
    cases own
    exact awaits_insert awaits settled
  | selectRow =>
    cases own
    exact awaits_select settled input dispatches awaits
  | leave =>
    cases own
    exact awaits_leave awaits
  | crash =>
    cases own
    exact awaits_crash awaits
  | authorize =>
    cases own
    simp only [perform, authorize]
    split
    · next stage _ => exact (other stage).elim
    · exact awaits
  | operate =>
    cases own
    simp only [perform]
    unfold operate
    split
    · next stage _ => exact (other stage).elim
    · next stage _ => exact (other stage).elim
    · next stage _ => exact (other stage).elim
    · exact awaits
  | commit =>
    cases own
    simp only [perform, commit]
    split
    · next stage => exact (other stage).elim
    · next stage => exact (other stage).elim
    · exact awaits
  | dispatch =>
    cases own
    simp only [perform, KeyState.dispatch]
    split
    · next stage => exact (other stage).elim
    · exact awaits
  | answer =>
    cases own
    simp only [perform, KeyState.answer]
    split
    · next stage => exact (other stage).elim
    · exact awaits
  | throw =>
    cases own
    simp only [perform, KeyState.throw]
    split
    · next stage => exact (other stage).elim
    · exact awaits
  | storeAnswer =>
    cases own
    simp only [perform, storeAnswer]
    split
    · next stage => exact (other stage).elim
    · exact awaits
  | releaseDispatch =>
    cases own
    simp only [perform, releaseDispatch]
    split
    · next stage => exact (other stage).elim
    · exact awaits

private theorem awaits_run (sound : Sound requests digest s) (settled : s.row = answeredRow requestHash answer) (steps : List KeyStep) :
    (run requests digest hash steps s).row = s.row ∧ (run requests digest hash steps s).log = s.log ∧
      ∀ request, digest (requests request).input = requestHash → (requests request).input.dispatches = true →
        Awaits answer (s.stages request) → Awaits answer ((run requests digest hash steps s).stages request) := by
  induction steps generalizing s with
  | nil => exact ⟨rfl, rfl, fun request _ _ awaits => awaits⟩
  | cons step rest ih =>
    obtain ⟨row, log⟩ : (KeyState.perform requests digest hash s step).row = s.row ∧ _ := answered_step sound settled step
    have after : Sound requests digest (KeyState.perform requests digest hash s step) := sound.perform step
    obtain ⟨rows, logs, each⟩ := ih after (row.trans settled)
    refine ⟨rows.trans row, logs.trans log, ?_⟩
    intro request input dispatches awaits
    exact each request input dispatches (awaits_step settled input dispatches awaits step)

private theorem returns_stored (settled : s.row = answeredRow requestHash answer) (free : s.holder = none) {request : Nat}
    (input : digest (requests request).input = requestHash) (dispatches : (requests request).input.dispatches = true)
    (begun : s.stages request = .begun) (live : (s.sessions (requests request).session).any (MerchantSession.live s.now) = true) :
    (run requests digest hash [.checkSession request, .insertRow request, .selectRow request, .leave request] s).stages request =
      .ended (.stored (some answer)) := by
  have reads : readRow requests digest request ⟨requestHash, some (.dispatch (.completed answer))⟩ = _ := readRow_settled input dispatches
  have checked : perform requests digest hash s (.checkSession request) = s.move request .checked := by
    simp only [perform, checkSession, begun, live, if_true]
  have skipped (before : KeyState Hash) (stage : before.stages request = .checked) (row : before.row = answeredRow requestHash answer) :
      perform requests digest hash before (.insertRow request) = before.move request .skipped := by
    simp only [perform, insertRow, stage, row, answeredRow]
  have selected (before : KeyState Hash) (stage : before.stages request = .skipped) (row : before.row = answeredRow requestHash answer)
      (free : before.holder = none) : perform requests digest hash before (.selectRow request) =
        { before with holder := some request }.move request (.leaving (.stored (some answer))) := by
    simp only [perform, selectRow, stage, row, answeredRow, free, reads]
  have left (before : KeyState Hash) (stage : before.stages request = .leaving (.stored (some answer))) :
      (perform requests digest hash before (.leave request)).stages request = .ended (.stored (some answer)) := by
    simp only [perform, leave, stage, moved_stage]
  simp only [run, List.foldl_cons, List.foldl_nil]
  rw [checked, skipped (s.move request .checked) moved_stage settled]
  rw [selected ((s.move request .checked).move request .skipped) moved_stage settled free]
  exact left _ moved_stage

variable (requests digest hash)

/-- What holds of a key: its dispatches are serial, each authorized by its own request, and an answer is final. -/
structure OncePerKey (s : KeyState Hash) : Prop where
  single : ∀ one other, (s.stages one).inFlight = true → (s.stages other).inFlight = true → one = other
  serial : Serial requests s.log
  recorded : ∀ request, s.stages request = .dispatching → .dispatched request ∈ s.log
  spent : ∀ request grants, .authorized request grants ∈ s.log → ∀ id ∈ grants, ∀ grant ∈ s.grants, grant.id = id → grant.consumedAt ≠ none
  final : ∀ requestHash answer, s.row = answeredRow requestHash answer → ∀ steps,
    (run requests digest hash steps s).row = s.row ∧ (run requests digest hash steps s).log = s.log ∧
      ∀ request, digest (requests request).input = requestHash → Awaits answer (s.stages request) →
        Awaits answer ((run requests digest hash steps s).stages request)
  returned : ∀ requestHash answer, s.row = answeredRow requestHash answer → s.holder = none → ∀ request,
    digest (requests request).input = requestHash → s.stages request = .begun →
      (s.sessions (requests request).session).any (MerchantSession.live s.now) = true →
        (run requests digest hash [.checkSession request, .insertRow request, .selectRow request, .leave request] s).stages request =
          .ended (.stored (some answer))
  apart : ∀ row, s.row = some row → ∀ owner, row.requestHash = digest (requests owner).input → ∀ request,
    (requests request).input ≠ (requests owner).input → (s.stages request).inFlight = false ∧
      ∀ step, .dispatched request ∈ (perform requests digest hash s step).log → .dispatched request ∈ s.log
  release : ∀ requestHash, s.row = some ⟨requestHash, some (.dispatch .pending)⟩ → ∀ step,
    (perform requests digest hash s step).row ≠ s.row → ∃ request, (step = .storeAnswer request ∨ step = .releaseDispatch request) ∧
      (s.stages request).held = true ∧ Claimed requests digest s request

variable {requests digest hash}

private theorem inFlight_held (inFlight : stage.inFlight = true) : stage.held = true := by
  cases stage with
  | dispatching => rfl
  | crashed => exact inFlight
  | _ => cases inFlight

theorem Sound.once (sound : Sound requests digest s) (injective : Function.Injective digest) : OncePerKey requests digest hash s := by
  have same {owner request : Nat} (equal : digest (requests owner).input = digest (requests request).input) :
      (requests owner).input = (requests request).input := injective equal
  have dispatches {requestHash : Hash} {answer : StoredDispatchResponse} (settled : s.row = answeredRow requestHash answer) {request : Nat}
      (input : digest (requests request).input = requestHash) : (requests request).input.dispatches = true := by
    obtain ⟨owner, dispatches, hashed⟩ := sound.record.kind _ _ settled rfl
    rw [same (input.trans hashed.symm)]
    exact dispatches
  constructor
  · intro one other first second
    have claimed := (sound.knows one).claimed (inFlight_held first)
    have also := (sound.knows other).claimed (inFlight_held second)
    exact (claimed.unique also).symm
  · exact sound.record.serial
  · intro request stage
    have knows := sound.knows request
    rw [stage] at knows
    exact knows.2
  · exact fun request grants member id inside => (sound.record.spent request grants member id inside).2
  · intro requestHash answer settled steps
    obtain ⟨row, log, each⟩ : (KeyState.run requests digest hash steps s).row = s.row ∧ _ := awaits_run sound settled steps
    exact ⟨row, log, fun request input => each request input (dispatches settled input)⟩
  · intro requestHash answer settled free request input
    exact returns_stored settled free input (dispatches settled input)
  · intro row found owner hashed request different
    have unclaimed : ¬ Claimed requests digest s request := by
      intro claimed
      have pending := claimed.row
      rw [found] at pending
      have hashes := congrArg IdempotencyRow.requestHash (Option.some.inj pending)
      exact different (same (hashes.symm.trans hashed))
    refine ⟨Bool.eq_false_iff.mpr fun inFlight => unclaimed ((sound.knows request).claimed (inFlight_held inFlight)), ?_⟩
    intro step member
    have effect : Effect requests digest s (KeyState.perform requests digest hash s step) step := sound.effect step
    cases effect with
    | same _ log => exact log ▸ member
    | claims _ log =>
      rcases log with log | ⟨grants, log⟩
      · exact log ▸ member
      · rw [log] at member
        exact (List.mem_cons.mp member).resolve_left (by rintro ⟨⟩)
    | @dispatches owner held _ log =>
      rw [log] at member
      rcases List.mem_cons.mp member with own | before
      · obtain rfl := Entry.dispatched.inj own
        exact absurd ((sound.knows request).claimed held) unclaimed
      · exact before
    | stores _ log =>
      rw [log] at member
      exact (List.mem_cons.mp member).resolve_left (by rintro ⟨⟩)
    | releases _ log =>
      rw [log] at member
      exact (List.mem_cons.mp member).resolve_left (by rintro ⟨⟩)
  · intro requestHash pending step changed
    have effect : Effect requests digest s (KeyState.perform requests digest hash s step) step := sound.effect step
    cases effect with
    | same row => exact absurd row changed
    | claims opened =>
      rcases opened with absent | unset
      · rw [absent] at pending
        cases pending
      · rw [unset] at pending
        simp at pending
    | dispatches _ row => exact absurd row changed
    | @stores request _ held => exact ⟨request, .inl rfl, held, (sound.knows request).claimed held⟩
    | @releases request held => exact ⟨request, .inr rfl, held, (sound.knows request).claimed held⟩

/-- At every state that requests of one key can come to, with crashes anywhere, the key's dispatches are serial, each follows its own
committed authorization, a stored answer is final, and only the holder of the pending claim lets it go. -/
theorem dispatched_once (requests : Nat → KeyedRequest) (digest : Input → Hash) (injective : Function.Injective digest) (hash : Text → Text)
    (now : Int) (sessions : Nat → Option MerchantSession) (grants : List StepUpGrant) (steps : List KeyStep) :
    OncePerKey requests digest hash (run requests digest hash steps (unused now sessions grants)) := by
  have sound : Sound requests digest (run requests digest hash steps (unused now sessions grants)) :=
    (unused_sound requests digest now sessions grants).run steps
  exact sound.once injective

/-- A sensitive action that fails at first, with its retry under a grant of its own and a repeat of that. -/
def refundRequests : Nat → KeyedRequest
  | 0 => ⟨7, .dispatch "refund".toList, some ⟨[], "refund".toList, [], some ['a']⟩, id⟩
  | 1 => ⟨7, .dispatch "refund".toList, some ⟨[], "refund".toList, [], some ['b']⟩, id⟩
  | _ => ⟨7, .dispatch "refund".toList, some ⟨[], "refund".toList, [], none⟩, id⟩

def refundGrants : List StepUpGrant :=
  [⟨1, 7, [], "refund".toList, [], some ['a'], some 0, none, 600000⟩, ⟨2, 7, [], "refund".toList, [], some ['b'], some 0, none, 600000⟩]

def claimSteps (request : Nat) : List KeyStep :=
  [.checkSession request, .insertRow request, .selectRow request, .authorize request true, .commit request, .dispatch request]

def refundSteps : List KeyStep :=
  claimSteps 0 ++ [.answer 0 ⟨503, []⟩, .releaseDispatch 0] ++ claimSteps 1 ++ [.answer 1 ⟨200, []⟩, .storeAnswer 1]

def refundSessions : Nat → Option MerchantSession := fun _ => some ⟨none, 1000, 0⟩

theorem dispatched_once_refund :
    (run refundRequests id id refundSteps (unused 0 refundSessions refundGrants)).log =
      [.stored 1 ⟨200, []⟩, .dispatched 1, .authorized 1 [2], .released 0, .dispatched 0, .authorized 0 [1]] ∧
    OncePerKey refundRequests id id (run refundRequests id id refundSteps (unused 0 refundSessions refundGrants)) := by
  refine ⟨rfl, ?_⟩
  exact dispatched_once refundRequests id Function.injective_id id 0 refundSessions refundGrants refundSteps

end Law

end Quotum.DispatchClaims
