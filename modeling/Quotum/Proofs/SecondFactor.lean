import Quotum.SecondFactor

/-! Second-factor codes are single use in every run in which the columns that a write relies on are as its operation read them. The writes
guard only part of what was read: a TOTP's not the secret, none of them the lock, and the recount of the recovery codes nothing. -/

namespace Quotum.SecondFactor
open FactorState

def FactorEvent.accepted : FactorEvent → List (Text × Int)
  | .totp secret step _ | .promoted secret step _ _ _ => [(secret, step)]
  | _ => []

def FactorEvent.replaced : FactorEvent → List Text
  | .promoted _ _ _ replaced _ => [replaced]
  | _ => []

/-- Every lock set before has ended. -/
def Unlocked (earlier : List FactorEvent) (time : Int) : Prop :=
  ∀ ending, .locked ending ∈ earlier → ending ≤ time

/-- A step newer than those accepted under its secret, which was not replaced, while no lock runs. -/
def FreshStep (earlier : List FactorEvent) (secret : Text) (step time : Int) : Prop :=
  Unlocked earlier time ∧ ∀ event ∈ earlier, (∀ other, (secret, other) ∈ event.accepted → other < step) ∧ secret ∉ event.replaced

/-- What an event may come after. A recovery code comes neither after itself nor after the replacement of its set. -/
def FactorEvent.Allowed (earlier : List FactorEvent) : FactorEvent → Prop
  | .locked _ | .regenerated _ => True
  | .totp secret step time | .promoted secret step time _ _ => FreshStep earlier secret step time
  | .recoveryCode code time => Unlocked earlier time ∧ ∀ event ∈ earlier, code ∉ event.codes

def UsedOnce : List FactorEvent → Prop
  | [] => True
  | event :: earlier => event.Allowed earlier ∧ UsedOnce earlier

/-- Codes are single use, and the count of the recovery codes is right whenever nothing is in flight. -/
structure SingleUse (s : FactorState) : Prop where
  codes : UsedOnce s.log
  count : (∀ stage ∈ s.operations, ∃ outcome, stage = .done outcome) → s.row.backupCodesRemaining = s.row.backupCodes.plain.length

def lockAsRead (read : FactorRow) (s : FactorState) : Bool :=
  s.row.lockedUntil == none || s.row.lockedUntil == read.lockedUntil

/-- Whether a write that takes effect finds the columns that its operation decided on as it read them: the secret and the lock of a TOTP,
the lock of a recovery code or a promotion, as many recovery codes for a recount, and for a failure no lock that ends later than its own. -/
def FactorStage.fits (s : FactorState) : FactorStage → Bool
  | .claimingTotp read step _ => !(s.row.verified && s.row.lastUsedStep.all fun last => decide (last < step)) ||
      s.row.secret == read.secret && lockAsRead read s
  | .claimingRecovery checked read _ _ => s.row.backupCodes != read.backupCodes || lockAsRead checked s
  | .promoting read _ _ => s.row.pendingSecret != read.pendingSecret || lockAsRead read s
  | .counting read => read.backupCodes.plain.length == s.row.backupCodes.plain.length
  | .failing now _ => decide (s.row.failedVerificationCount + 1 < secondFactorMaxFailures) ||
      s.row.lockedUntil.all fun ending => decide (ending ≤ now + secondFactorLockMs)
  | _ => true

def FactorStep.fits (s : FactorState) : FactorStep → Bool
  | .advance operation _ => (s.operations[operation]?).all (FactorStage.fits s)
  | _ => true

def orderly (hotp : Text → Int → Text) (s : FactorState) : List FactorStep → Bool
  | [] => true
  | step :: rest => step.fits s && orderly hotp (perform hotp s step) rest

structure Consistent (row : FactorRow) : Prop where
  distinct : row.backupCodes.plain.Nodup
  count : row.backupCodesRemaining = row.backupCodes.plain.length
  apart : ∀ pending, row.pendingSecret = some pending → pending.plain ≠ row.secret.plain

structure Kept (s : FactorState) : Prop where
  used : UsedOnce s.log
  row : Consistent s.row
  locks : ∀ ending, .locked ending ∈ s.log → ending ≤ s.now ∨ ∃ last, s.row.lockedUntil = some last ∧ ending ≤ last
  steps : ∀ event ∈ s.log, ∀ step, (s.row.secret.plain, step) ∈ event.accepted → ∃ last, s.row.lastUsedStep = some last ∧ step ≤ last
  current : ∀ event ∈ s.log, s.row.secret.plain ∉ event.replaced
  pending : ∀ pending, s.row.pendingSecret = some pending → ∀ event ∈ s.log, pending.plain ∉ event.secrets
  unspent : ∀ event ∈ s.log, ∀ code ∈ s.row.backupCodes.plain, code ∉ event.codes

def Lapsed (row : FactorRow) (now : Int) : Prop :=
  ∀ ending, row.lockedUntil = some ending → ending ≤ now

/-- What an operation has found out: that the lock it read has lapsed, and its recovery code among those it read. -/
def FactorStage.Knows (now : Int) : FactorStage → Prop
  | .totp _ start | .recovery _ start | .confirming _ start => start ≤ now
  | .claimingTotp read _ _ | .promoting read _ _ => Lapsed read now
  | .rereading checked _ _ => Lapsed checked now
  | .claimingRecovery checked read code _ => Lapsed checked now ∧ code ∈ read.backupCodes.plain
  | .clearing start next => start ≤ now ∧ next.Knows now
  | .syncing | .counting _ | .failing _ _ | .done _ => True

structure Sound (s : FactorState) : Prop where
  kept : Kept s
  knows : ∀ stage ∈ s.operations, stage.Knows s.now

variable {secret : Text} {step : Int}

section Events

private theorem accepted_secrets {event : FactorEvent} (accepted : (secret, step) ∈ event.accepted) :
    secret ∈ event.secrets := by
  cases event with
  | totp => exact List.mem_singleton.mpr (Prod.mk.inj (List.mem_singleton.mp accepted)).1
  | promoted => exact List.mem_cons.mpr (.inl (Prod.mk.inj (List.mem_singleton.mp accepted)).1)
  | locked | recoveryCode | regenerated => cases accepted

private theorem replaced_secrets {event : FactorEvent} (replaced : secret ∈ event.replaced) : secret ∈ event.secrets := by
  cases event with
  | promoted => exact List.mem_cons_of_mem _ replaced
  | totp | locked | recoveryCode | regenerated => cases replaced

end Events

section Statements
variable {s : FactorState} {now : Int} {stage : FactorStage} {read row : FactorRow}

theorem Kept.unlocked (kept : Kept s) (lapsed : Lapsed read s.now) (same : lockAsRead read s = true) :
    Unlocked s.log s.now := by
  intro ending member
  rcases kept.locks ending member with ended | ⟨last, runs, before⟩
  · exact ended
  · rw [lockAsRead, runs, Bool.or_eq_true, beq_iff_eq, beq_iff_eq] at same
    rcases same with cleared | asRead
    · cases cleared
    · exact before.trans (lapsed last asRead.symm)

theorem Kept.recordFailure (kept : Kept s) (error : FactorError) (fits : (FactorStage.failing now error).fits s = true) :
    Kept (s.recordFailure now) := by
  rw [FactorStage.fits, Bool.or_eq_true, decide_eq_true_eq] at fits
  obtain ⟨used, ⟨distinct, count, apart⟩, locks, steps, current, pending, unspent⟩ := kept
  rw [FactorState.recordFailure]
  dsimp only
  split
  · next spent =>
    have later := fits.resolve_left (Nat.not_lt.mpr spent)
    refine ⟨⟨trivial, used⟩, ⟨distinct, count, apart⟩, ?_, ?_, ?_, ?_, ?_⟩
    · intro ending member
      rcases List.mem_cons.mp member with own | before
      · exact .inr ⟨_, rfl, (FactorEvent.locked.inj own).le⟩
      · rcases locks ending before with ended | ⟨last, runs, within⟩
        · exact .inl ended
        · rw [runs] at later
          exact .inr ⟨_, rfl, within.trans (of_decide_eq_true later)⟩
    · rw [List.forall_mem_cons]
      exact ⟨nofun, steps⟩
    · rw [List.forall_mem_cons]
      exact ⟨nofun, current⟩
    · intro secret waits
      rw [List.forall_mem_cons]
      exact ⟨nofun, pending secret waits⟩
    · rw [List.forall_mem_cons]
      exact ⟨nofun, unspent⟩
  · exact ⟨used, ⟨distinct, count, apart⟩, locks, steps, current, pending, unspent⟩

theorem Kept.clearLapsed (kept : Kept s) (past : now ≤ s.now) : Kept (s.clearLapsed now) := by
  obtain ⟨used, ⟨distinct, count, apart⟩, locks, steps, current, pending, unspent⟩ := kept
  rw [FactorState.clearLapsed]
  split
  · next lapsed =>
    refine ⟨used, ⟨distinct, count, apart⟩, ?_, steps, current, pending, unspent⟩
    intro ending member
    rcases locks ending member with ended | ⟨last, runs, within⟩
    · exact .inl ended
    · rw [runs] at lapsed
      exact .inl (within.trans ((of_decide_eq_true lapsed).trans past))
  · exact ⟨used, ⟨distinct, count, apart⟩, locks, steps, current, pending, unspent⟩

theorem Kept.claimTotp (kept : Kept s) (lapsed : Lapsed read s.now)
    (fits : (FactorStage.claimingTotp read step now).fits s = true) : Kept (s.claimTotp read step now).1 := by
  rw [FactorStage.fits, Bool.or_eq_true, Bool.not_eq_true'] at fits
  rw [FactorState.claimTotp]
  split
  · next accepts =>
    have fits := fits.resolve_left (by rw [accepts]; rintro ⟨⟩)
    rw [Bool.and_eq_true, beq_iff_eq] at fits
    obtain ⟨secret, asRead⟩ := fits
    obtain ⟨-, newer⟩ := Bool.and_eq_true_iff.mp accepts
    have unlocked := kept.unlocked lapsed asRead
    obtain ⟨used, ⟨distinct, count, apart⟩, locks, steps, current, pending, unspent⟩ := kept
    have fresh : FreshStep s.log read.secret.plain step s.now := by
      rw [← secret]
      refine ⟨unlocked, fun event member => ⟨?_, current event member⟩⟩
      intro other accepted
      obtain ⟨last, used, within⟩ := steps event member other accepted
      rw [used] at newer
      exact lt_of_le_of_lt within (of_decide_eq_true newer)
    refine ⟨⟨fresh, used⟩, ⟨distinct, count, apart⟩, ?_, ?_, ?_, ?_, ?_⟩
    · intro ending member
      exact .inl (unlocked ending ((List.mem_cons.mp member).resolve_left (by rintro ⟨⟩)))
    · intro event member other accepted
      refine ⟨step, rfl, ?_⟩
      rcases List.mem_cons.mp member with rfl | before
      · exact (Prod.mk.inj (List.mem_singleton.mp accepted)).2.le
      · have accepted : (read.secret.plain, other) ∈ event.accepted := secret ▸ accepted
        exact ((fresh.2 event before).1 other accepted).le
    · rw [List.forall_mem_cons]
      exact ⟨nofun, current⟩
    · intro waiting waits event member named
      rcases List.mem_cons.mp member with rfl | before
      · have same : waiting.plain = read.secret.plain := List.mem_singleton.mp named
        rw [← secret] at same
        exact apart waiting waits same
      · exact pending waiting waits event before named
    · rw [List.forall_mem_cons]
      exact ⟨nofun, unspent⟩
  · exact kept

theorem Kept.claimRecoveryCode (kept : Kept s) {checked : FactorRow} {code : Text} {nonce : Nat}
    (lapsed : Lapsed checked s.now) (found : code ∈ read.backupCodes.plain)
    (fits : (FactorStage.claimingRecovery checked read code now).fits s = true) : Kept (s.claimRecoveryCode read code nonce now).1 := by
  rw [FactorStage.fits, Bool.or_eq_true, bne_iff_ne] at fits
  rw [FactorState.claimRecoveryCode]
  split
  · next same =>
    have asRead := fits.resolve_left fun changed => changed same
    have unlocked := kept.unlocked lapsed asRead
    obtain ⟨used, ⟨distinct, count, apart⟩, locks, steps, current, pending, unspent⟩ := kept
    rw [same] at distinct unspent
    refine ⟨⟨⟨unlocked, fun event member => unspent event member code found⟩, used⟩, ⟨distinct.erase code, rfl, apart⟩, ?_, ?_, ?_, ?_, ?_⟩
    · intro ending member
      exact .inl (unlocked ending ((List.mem_cons.mp member).resolve_left (by rintro ⟨⟩)))
    · rw [List.forall_mem_cons]
      exact ⟨nofun, steps⟩
    · rw [List.forall_mem_cons]
      exact ⟨nofun, current⟩
    · intro waiting waits
      rw [List.forall_mem_cons]
      exact ⟨nofun, pending waiting waits⟩
    · intro event member other inside named
      obtain ⟨different, left⟩ := (distinct.mem_erase_iff).mp inside
      rcases List.mem_cons.mp member with rfl | before
      · exact different (List.mem_singleton.mp named)
      · exact unspent event before other left named
  · exact kept

/-- Fresh recovery codes take the place of the ones before. -/
private theorem areFreshCodes_iff {codes : List Text} : s.areFreshCodes codes = true ↔ codes.Nodup ∧ codes.length = recoveryCodeCount ∧
    ∀ code ∈ codes, code ∉ s.row.backupCodes.plain ∧ ∀ event ∈ s.log, code ∉ event.codes := by
  simp [areFreshCodes, and_assoc]

private theorem isFreshSecret_iff : s.isFreshSecret secret = true ↔
    secret ≠ s.row.secret.plain ∧ ∀ event ∈ s.log, secret ∉ event.secrets := by
  simp [isFreshSecret]

theorem Kept.promote (kept : Kept s) (draw : FactorDraw) (lapsed : Lapsed read s.now)
    (fits : (FactorStage.promoting read step now).fits s = true) : Kept (s.promote read step draw).1 := by
  rw [FactorStage.fits, Bool.or_eq_true, bne_iff_ne] at fits
  rw [FactorState.promote]
  split
  · exact kept
  · next secret waits =>
    split
    · exact kept
    · next same =>
      have asRead := fits.resolve_left fun changed => changed (waits.trans (not_not.mp same).symm)
      split
      · exact kept
      · next drawn =>
        have fresh : s.areFreshCodes draw.recoveryCodes = true := by
          rw [Bool.or_eq_true, Bool.not_eq_true', Bool.not_eq_true', not_or] at drawn
          exact Bool.not_eq_false _ ▸ drawn.2
        obtain ⟨differ, -, unused⟩ := areFreshCodes_iff.mp fresh
        have unlocked := kept.unlocked lapsed asRead
        obtain ⟨used, ⟨distinct, count, apart⟩, locks, steps, current, pending, unspent⟩ := kept
        have unnamed := pending secret waits
        refine ⟨⟨⟨unlocked, fun event member => ⟨?_, ?_⟩⟩, used⟩, ⟨differ, rfl, ?_⟩, ?_, ?_, ?_, ?_, ?_⟩
        · exact fun other accepted => absurd (accepted_secrets accepted) (unnamed event member)
        · exact fun replaced => unnamed event member (replaced_secrets replaced)
        · rintro other ⟨⟩
        · intro ending member
          exact .inl (unlocked ending ((List.mem_cons.mp member).resolve_left (by rintro ⟨⟩)))
        · intro event member other accepted
          rcases List.mem_cons.mp member with rfl | before
          · exact ⟨step, rfl, (Prod.mk.inj (List.mem_singleton.mp accepted)).2.le⟩
          · exact absurd (accepted_secrets accepted) (unnamed event before)
        · intro event member replaced
          rcases List.mem_cons.mp member with rfl | before
          · exact apart secret waits (List.mem_singleton.mp replaced)
          · exact unnamed event before (replaced_secrets replaced)
        · rintro other ⟨⟩
        · intro event member code inside named
          rcases List.mem_cons.mp member with rfl | before
          · exact (unused code inside).1 named
          · exact (unused code inside).2 event before named

theorem Kept.beginEnrolment (kept : Kept s) (secret : Sealed Text) : Kept (s.beginEnrolment secret) := by
  rw [FactorState.beginEnrolment]
  split
  · next fresh =>
    obtain ⟨different, unnamed⟩ := isFreshSecret_iff.mp fresh
    obtain ⟨used, ⟨distinct, count, apart⟩, locks, steps, current, pending, unspent⟩ := kept
    refine ⟨used, ⟨distinct, count, ?_⟩, locks, steps, current, ?_, unspent⟩
    · rintro other ⟨⟩
      exact different
    · rintro other ⟨⟩
      exact unnamed
  · exact kept

theorem Kept.regenerateRecoveryCodes (kept : Kept s) (draw : FactorDraw) : Kept (s.regenerateRecoveryCodes draw) := by
  rw [FactorState.regenerateRecoveryCodes]
  split
  · next drawn =>
    obtain ⟨differ, -, unused⟩ := areFreshCodes_iff.mp (Bool.and_eq_true_iff.mp drawn).2
    obtain ⟨used, ⟨distinct, count, apart⟩, locks, steps, current, pending, unspent⟩ := kept
    refine ⟨⟨trivial, used⟩, ⟨differ, rfl, apart⟩, ?_, ?_, ?_, ?_, ?_⟩
    · intro ending member
      exact locks ending ((List.mem_cons.mp member).resolve_left (by rintro ⟨⟩))
    · rw [List.forall_mem_cons]
      exact ⟨nofun, steps⟩
    · rw [List.forall_mem_cons]
      exact ⟨nofun, current⟩
    · intro waiting waits
      rw [List.forall_mem_cons]
      exact ⟨nofun, pending waiting waits⟩
    · intro event member code inside named
      rcases List.mem_cons.mp member with rfl | before
      · exact (unused code inside).1 named
      · exact (unused code inside).2 event before named
  · exact kept

theorem Kept.later (kept : Kept s) (elapsed : Nat) : Kept { s with now := s.now + elapsed } := by
  obtain ⟨used, row, locks, steps, current, pending, unspent⟩ := kept
  refine ⟨used, row, ?_, steps, current, pending, unspent⟩
  exact fun ending member => (locks ending member).imp_left fun ended => ended.trans (Int.le_add_of_nonneg_right (Int.natCast_nonneg elapsed))

theorem Lapsed.later {later : Int} (lapsed : Lapsed row now) (past : now ≤ later) : Lapsed row later :=
  fun ending runs => (lapsed ending runs).trans past

theorem FactorStage.Knows.later {later : Int} (knows : stage.Knows now) (past : now ≤ later) :
    stage.Knows later := by
  induction stage with
  | totp | recovery | confirming => exact knows.trans past
  | claimingTotp | promoting | rereading => exact Lapsed.later knows past
  | claimingRecovery => exact ⟨knows.1.later past, knows.2⟩
  | clearing start next ih => exact ⟨knows.1.trans past, ih knows.2⟩
  | syncing | counting | failing | done => trivial

/-- What comes after the check of the lock knows that it has lapsed. -/
private theorem lockedUntil_knows {start : Int} {next : FactorStage} (past : start ≤ now)
    (knows : Lapsed row now → next.Knows now) : (lockedUntil row start next).Knows now := by
  rw [lockedUntil]
  split
  · next none =>
    apply knows
    intro ending runs
    rw [none] at runs
    cases runs
  · next ending runs =>
    split
    · trivial
    · next lapsed =>
      refine ⟨past, knows ?_⟩
      intro other same
      obtain rfl := Option.some.inj (runs.symm.trans same)
      exact (Int.not_lt.mp lapsed).trans past

variable {hotp : Text → Int → Text}

/-- A statement that fits keeps the row and the record, and its operation knows what it goes on with. -/
theorem statement_keeps (kept : Kept s) (knows : stage.Knows s.now) (fits : stage.fits s = true) (draw : FactorDraw) :
    Kept (s.statement hotp draw stage).1 ∧ (s.statement hotp draw stage).1.now = s.now ∧ (s.statement hotp draw stage).2.Knows s.now := by
  cases stage with
  | totp code start =>
    simp only [statement]
    split
    · exact ⟨kept, rfl, trivial⟩
    · refine ⟨kept, rfl, lockedUntil_knows knows fun lapsed => ?_⟩
      split
      · trivial
      · exact lapsed
  | claimingTotp read step start =>
    refine ⟨kept.claimTotp knows fits, ?_⟩
    simp only [statement, FactorState.claimTotp]
    split <;> exact ⟨rfl, trivial⟩
  | recovery code start =>
    simp only [statement]
    split
    · exact ⟨kept, rfl, trivial⟩
    · exact ⟨kept, rfl, lockedUntil_knows knows id⟩
  | rereading checked code start =>
    simp only [statement]
    split
    · next found => exact ⟨kept, rfl, knows, List.contains_iff_mem.mp (Bool.and_eq_true_iff.mp found).2⟩
    · exact ⟨kept, rfl, trivial⟩
  | claimingRecovery checked read code start =>
    refine ⟨kept.claimRecoveryCode knows.1 knows.2 fits, ?_⟩
    simp only [statement, FactorState.claimRecoveryCode]
    split <;> exact ⟨rfl, trivial⟩
  | confirming code start =>
    simp only [statement]
    split
    · exact ⟨kept, rfl, trivial⟩
    · refine ⟨kept, rfl, lockedUntil_knows knows fun lapsed => ?_⟩
      split
      · trivial
      · exact lapsed
  | promoting read step start =>
    refine ⟨kept.promote draw knows fits, ?_⟩
    simp only [statement, FactorState.promote]
    split
    · exact ⟨rfl, trivial⟩
    · split
      · exact ⟨rfl, trivial⟩
      · split <;> exact ⟨rfl, trivial⟩
  | syncing =>
    simp only [statement]
    split <;> exact ⟨kept, rfl, trivial⟩
  | counting read =>
    obtain ⟨used, ⟨distinct, -, apart⟩, locks, steps, current, pending, unspent⟩ := kept
    exact ⟨⟨used, ⟨distinct, beq_iff_eq.mp fits, apart⟩, locks, steps, current, pending, unspent⟩, rfl, trivial⟩
  | clearing start next =>
    refine ⟨kept.clearLapsed knows.1, ?_, knows.2⟩
    simp only [statement, FactorState.clearLapsed]
    split <;> rfl
  | failing start error =>
    refine ⟨kept.recordFailure error fits, ?_, trivial⟩
    simp only [statement, FactorState.recordFailure]
    split <;> rfl
  | done outcome => exact ⟨kept, rfl, trivial⟩

theorem Sound.started (sound : Sound s) (knows : stage.Knows s.now) : Sound (s.startOperation stage) := by
  obtain ⟨⟨used, row, locks, steps, current, pending, unspent⟩, operations⟩ := sound
  refine ⟨⟨used, row, locks, steps, current, pending, unspent⟩, ?_⟩
  intro other member
  rcases List.mem_append.mp member with before | new
  · exact operations other before
  · exact List.mem_singleton.mp new ▸ knows

theorem Kept.operations (kept : Kept s) (operations : List FactorStage) : Kept { s with operations := operations } := by
  obtain ⟨used, row, locks, steps, current, pending, unspent⟩ := kept
  exact ⟨used, row, locks, steps, current, pending, unspent⟩

theorem Sound.perform (sound : Sound s) (step : FactorStep) (fits : step.fits s = true) : Sound (perform hotp s step) := by
  cases step with
  | wait elapsed =>
    refine ⟨sound.kept.later elapsed, ?_⟩
    intro stage member
    exact (sound.knows stage member).later (Int.le_add_of_nonneg_right (Int.natCast_nonneg elapsed))
  | verifyCode input =>
    apply sound.started
    split
    · trivial
    · exact Int.le_refl s.now
    · exact Int.le_refl s.now
  | confirmEnrolment code =>
    apply sound.started
    split
    · exact Int.le_refl s.now
    · trivial
  | syncRecoveryCount => exact sound.started trivial
  | beginEnrolment secret =>
    refine ⟨sound.kept.beginEnrolment secret, ?_⟩
    simp only [FactorState.perform, FactorState.beginEnrolment]
    split <;> exact sound.knows
  | regenerateRecoveryCodes draw =>
    refine ⟨sound.kept.regenerateRecoveryCodes draw, ?_⟩
    simp only [FactorState.perform, FactorState.regenerateRecoveryCodes]
    split <;> exact sound.knows
  | advance operation draw =>
    simp only [FactorState.perform, FactorState.advance]
    split
    · exact sound
    · next stage found =>
      rw [FactorStep.fits, found] at fits
      obtain ⟨kept, now, knows⟩ : Kept (s.statement hotp draw stage).1 ∧ _ ∧ _ :=
        statement_keeps sound.kept (sound.knows stage (List.mem_of_getElem? found)) fits draw
      refine ⟨kept.operations _, ?_⟩
      intro other member
      rw [now]
      rcases List.mem_or_eq_of_mem_set member with before | rfl
      · exact sound.knows other before
      · exact knows
  | crash operation =>
    refine ⟨sound.kept.operations _, ?_⟩
    intro other member
    rcases List.mem_or_eq_of_mem_set member with before | rfl
    · exact sound.knows other before
    · trivial

theorem Sound.run (sound : Sound s) (steps : List FactorStep) (fits : orderly hotp s steps = true) : Sound (run hotp steps s) := by
  induction steps generalizing s with
  | nil => exact sound
  | cons step rest ih =>
    obtain ⟨first, later⟩ := Bool.and_eq_true_iff.mp fits
    exact ih (sound.perform step first) later

theorem idle_sound (now : Int) (consistent : Consistent row) : Sound (idle now row) where
  kept := by
    refine ⟨trivial, consistent, ?_, ?_, ?_, ?_, ?_⟩
    · rintro ending ⟨⟩
    · rintro event ⟨⟩
    · rintro event ⟨⟩
    · rintro secret waits event ⟨⟩
    · rintro event ⟨⟩
  knows := by rintro stage ⟨⟩

end Statements

/-- In a run whose writes find the secret, the lock and the number of recovery codes that their operations decided on as these were read,
and in which no failure moves the end of a lock back, codes are single use and the count of the recovery codes is right. -/
theorem codes_single_use (hotp : Text → Int → Text) (now : Int) (row : FactorRow) (consistent : Consistent row) (steps : List FactorStep)
    (fits : orderly hotp (idle now row) steps = true) : SingleUse (run hotp steps (idle now row)) := by
  have sound := (idle_sound now consistent).run steps fits
  exact ⟨sound.kept.used, fun _ => sound.kept.row.count⟩

section Runs

/-- Codes that tell the secret and the step's last digit. -/
def shortHotp (secret : Text) (step : Int) : Text :=
  (if secret = ['o'] then ['1', '1', '1', '1', '1'] else ['2', '2', '2', '2', '2']) ++ [Nat.digitChar (step.toNat % 10)]

def enrolled : FactorRow :=
  { placeholder with secret := ⟨0, ['o']⟩, verified := true, backupCodes := ⟨0, ["aaaaa-aaaaa".toList]⟩, backupCodesRemaining := 1 }

def noDraw : FactorDraw := ⟨0, [], true⟩

def tenCodes : List Text := (List.range 10).map fun n => Nat.digitChar n :: "bbbb-bbbbb".toList

/-- A code of the old authenticator is read before the new one is confirmed and accepted after. -/
def replacedRun : List FactorStep :=
  [.beginEnrolment ⟨0, ['n']⟩, .confirmEnrolment "222229".toList, .verifyCode "111110".toList, .advance 0 noDraw, .advance 1 noDraw,
    .advance 0 ⟨0, tenCodes, true⟩, .advance 1 noDraw]

/-- A code is read before five failures lock the factor and accepted after. -/
def lockedRun : List FactorStep :=
  [.verifyCode "111110".toList, .advance 0 noDraw] ++
    (List.range 5).flatMap (fun n => [.verifyCode "000000".toList, .advance (n + 1) noDraw, .advance (n + 1) noDraw]) ++ [.advance 0 noDraw]

def recountedRun : List FactorStep :=
  [.syncRecoveryCount, .advance 0 noDraw, .verifyCode "aaaaa-aaaaa".toList, .advance 1 noDraw, .advance 1 noDraw, .advance 1 noDraw,
    .advance 0 noDraw]

private theorem enrolled_consistent : Consistent enrolled where
  distinct := List.nodup_singleton _
  count := rfl
  apart := by rintro secret ⟨⟩

/-- Without the condition codes are not single use: one of a replaced authenticator and one under a lock are accepted, and the count of the
recovery codes is wrong while nothing is in flight. -/
theorem codes_single_use_fails : Consistent enrolled ∧ ¬ SingleUse (run shortHotp replacedRun (idle 3000000 enrolled)) ∧
    ¬ SingleUse (run shortHotp lockedRun (idle 3000000 enrolled)) ∧ ¬ SingleUse (run shortHotp recountedRun (idle 3000000 enrolled)) := by
  refine ⟨enrolled_consistent, ?_, ?_, ?_⟩
  · intro single
    have log : (run shortHotp replacedRun (idle 3000000 enrolled)).log =
        [.totp ['o'] 100 3000000, .promoted ['n'] 99 3000000 ['o'] ["aaaaa-aaaaa".toList]] := rfl
    have used := single.codes
    rw [log] at used
    exact (used.1.2 _ (List.mem_singleton_self _)).2 (List.mem_singleton_self _)
  · intro single
    have log : (run shortHotp lockedRun (idle 3000000 enrolled)).log = [.totp ['o'] 100 3000000, .locked 3900000] := rfl
    have used := single.codes
    rw [log] at used
    have ended := used.1.1 3900000 (List.mem_singleton_self _)
    omega
  · intro single
    have settled : (run shortHotp recountedRun (idle 3000000 enrolled)).operations = [.done .synced, .done (.verified .recoveryCode)] := rfl
    have wrong : (run shortHotp recountedRun (idle 3000000 enrolled)).row.backupCodesRemaining = 1 := rfl
    have left : (run shortHotp recountedRun (idle 3000000 enrolled)).row.backupCodes.plain = [] := rfl
    have count := single.count
    rw [settled, wrong, left] at count
    have equal := count (by simp)
    cases equal

/-- An authenticator is replaced, and its successor's next code is accepted. -/
theorem codes_single_use_replaced :
    SingleUse (run shortHotp [.beginEnrolment ⟨0, ['n']⟩, .confirmEnrolment "222229".toList, .advance 0 noDraw, .advance 0 ⟨0, tenCodes, true⟩,
      .verifyCode "222220".toList, .advance 1 noDraw, .advance 1 noDraw] (idle 3000000 enrolled)) := by
  apply codes_single_use shortHotp 3000000 enrolled enrolled_consistent
  rfl

end Runs

end Quotum.SecondFactor
