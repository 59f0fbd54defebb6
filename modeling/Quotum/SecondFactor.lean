import Quotum.Decimal

/-! The second factor of one account: its row, and the operations that read it, work outside of any lock, and write it with a guard of their
own. Each statement is atomic, and the statements of any operations interleave. -/

namespace Quotum.SecondFactor

def totpDigits : Nat := 6
def totpPeriodMs : Int := 30000
def recoveryCodeCount : Nat := 10
def secondFactorMaxFailures : Nat := 5
def secondFactorLockMs : Int := 900000

structure Sealed (α : Type) where
  nonce : Nat
  plain : α
  deriving DecidableEq

/-- The account's row. An account without one reads as the placeholder that it gets before it enrols. -/
structure FactorRow where
  secret : Sealed Text
  backupCodes : Sealed (List Text)
  verified : Bool
  failedVerificationCount : Nat
  lockedUntil : Option Int
  pendingSecret : Option (Sealed Text)
  lastUsedStep : Option Int
  backupCodesRemaining : Nat
  deriving DecidableEq

inductive CodeKind where
  | totp
  | recoveryCode
  deriving DecidableEq

def isTotpShape (input : Text) : Bool :=
  input.length == totpDigits && input.all Char.isDigit

def isRecoveryShape (input : Text) : Bool :=
  input.length == 11 && (input.take 5).all Char.isAlphanum && input[5]? == some '-' && (input.drop 6).all Char.isAlphanum

def codeKind (input : Text) : Option CodeKind :=
  if isTotpShape input then some .totp
  else if isRecoveryShape input then some .recoveryCode
  else none

inductive FactorError where
  | invalidCode
  | codeAlreadyUsed
  | notEnrolled
  | locked (ending : Int)
  | enrolmentNotStarted
  deriving DecidableEq

inductive FactorOutcome where
  | verified (kind : CodeKind)
  | confirmed (recoveryCodes : List Text)
  | synced
  | failed (error : FactorError)
  | crashed
  deriving DecidableEq

inductive FactorStage where
  | totp (code : Text) (now : Int)
  | claimingTotp (read : FactorRow) (step : Int) (now : Int)
  | recovery (code : Text) (now : Int)
  /-- The lock is checked, and `claimRecoveryCode` reads the row again. -/
  | rereading (checked : FactorRow) (code : Text) (now : Int)
  | claimingRecovery (checked read : FactorRow) (code : Text) (now : Int)
  | confirming (code : Text) (now : Int)
  | promoting (read : FactorRow) (step : Int) (now : Int)
  | syncing
  | counting (read : FactorRow)
  /-- A lapsed lock is cleared before the operation goes on. -/
  | clearing (now : Int) (next : FactorStage)
  | failing (now : Int) (error : FactorError)
  | done (outcome : FactorOutcome)
  deriving DecidableEq

/-- What is recorded of the account, newest first: locks with their ends, the codes accepted with the time of their write, and the
authenticators and recovery sets replaced. -/
inductive FactorEvent where
  | locked (ending : Int)
  | totp (secret : Text) (step : Int) (time : Int)
  | recoveryCode (code : Text) (time : Int)
  | promoted (secret : Text) (step : Int) (time : Int) (replaced : Text) (replacedCodes : List Text)
  | regenerated (replacedCodes : List Text)
  deriving DecidableEq

structure FactorState where
  now : Int
  row : FactorRow
  operations : List FactorStage
  log : List FactorEvent
  deriving DecidableEq

/-- What a statement draws: the nonce and the codes that it seals, and whether the caller's work in its transaction goes through. -/
structure FactorDraw where
  nonce : Nat
  recoveryCodes : List Text
  committed : Bool
  deriving DecidableEq

inductive FactorStep where
  | wait (elapsed : Nat)
  | verifyCode (input : Text)
  | confirmEnrolment (code : Text)
  | syncRecoveryCount
  | beginEnrolment (secret : Sealed Text)
  | regenerateRecoveryCodes (draw : FactorDraw)
  | advance (operation : Nat) (draw : FactorDraw)
  | crash (operation : Nat)
  deriving DecidableEq

def FactorEvent.secrets : FactorEvent → List Text
  | .totp secret _ _ => [secret]
  | .promoted secret _ _ replaced _ => [secret, replaced]
  | _ => []

def FactorEvent.codes : FactorEvent → List Text
  | .recoveryCode code _ => [code]
  | .promoted _ _ _ _ replacedCodes => replacedCodes
  | .regenerated replacedCodes => replacedCodes
  | _ => []

section Statements
variable (hotp : Text → Int → Text)

/-- The step that a code was generated for, one either side of the current one, and the latest of several. -/
def matchTotpStep (secret code : Text) (now : Int) : Option Int :=
  let current := now / totpPeriodMs
  if isTotpShape code then ([current + 1, current, current - 1].find? fun step => hotp secret step == code) else none

/-- Goes on to the next statement unless a lock runs. One that has lapsed is cleared before. -/
def lockedUntil (row : FactorRow) (now : Int) (next : FactorStage) : FactorStage :=
  match row.lockedUntil with
  | none => next
  | some ending => if now < ending then .done (.failed (.locked ending)) else .clearing now next

namespace FactorState

/-- Whether a drawn secret was never this account's. -/
def isFreshSecret (secret : Text) (s : FactorState) : Bool :=
  secret != s.row.secret.plain && (s.log.all fun event => !event.secrets.contains secret)

/-- Whether drawn recovery codes are distinct and were never this account's. -/
def areFreshCodes (codes : List Text) (s : FactorState) : Bool :=
  decide codes.Nodup && codes.length == recoveryCodeCount &&
    codes.all fun code => !s.row.backupCodes.plain.contains code && s.log.all fun event => !event.codes.contains code

/-- Counts a failed verification and locks the factor once the budget is spent. -/
def recordFailure (now : Int) (s : FactorState) : FactorState :=
  let count := s.row.failedVerificationCount + 1
  if secondFactorMaxFailures ≤ count then
    let ending := now + secondFactorLockMs
    { s with row := { s.row with failedVerificationCount := count, lockedUntil := some ending }, log := .locked ending :: s.log }
  else { s with row := { s.row with failedVerificationCount := count } }

def clearLapsed (now : Int) (s : FactorState) : FactorState :=
  if s.row.lockedUntil.any fun ending => decide (ending ≤ now) then
    { s with row := { s.row with failedVerificationCount := 0, lockedUntil := none } }
  else s

def claimTotp (read : FactorRow) (step now : Int) (s : FactorState) : FactorState × FactorStage :=
  if s.row.verified && s.row.lastUsedStep.all fun last => decide (last < step) then
    ({ s with
      row := { s.row with lastUsedStep := some step, failedVerificationCount := 0, lockedUntil := none }
      log := .totp read.secret.plain step s.now :: s.log }, .done (.verified .totp))
  else (s, .failing now .codeAlreadyUsed)

/-- The compare-and-set of the recovery set without a code. -/
def claimRecoveryCode (read : FactorRow) (code : Text) (nonce : Nat) (now : Int) (s : FactorState) : FactorState × FactorStage :=
  if s.row.backupCodes = read.backupCodes then
    let remaining := read.backupCodes.plain.erase code
    ({ s with
      row := { s.row with
        backupCodes := ⟨nonce, remaining⟩
        backupCodesRemaining := remaining.length
        failedVerificationCount := 0
        lockedUntil := none }
      log := .recoveryCode code s.now :: s.log }, .done (.verified .recoveryCode))
  else (s, .failing now .invalidCode)

/-- Promotes the pending authenticator, with a fresh set of recovery codes, in one transaction with the caller's work. -/
def promote (read : FactorRow) (step : Int) (draw : FactorDraw) (s : FactorState) : FactorState × FactorStage :=
  match s.row.pendingSecret with
  | none => (s, .done (.failed .enrolmentNotStarted))
  | some pending =>
    if read.pendingSecret ≠ some pending then (s, .done (.failed .enrolmentNotStarted))
    else if !draw.committed || !s.areFreshCodes draw.recoveryCodes then (s, .done .crashed)
    else
      ({ s with
        row := { s.row with
          secret := pending
          pendingSecret := none
          verified := true
          lastUsedStep := some step
          failedVerificationCount := 0
          lockedUntil := none
          backupCodes := ⟨draw.nonce, draw.recoveryCodes⟩
          backupCodesRemaining := draw.recoveryCodes.length }
        log := .promoted pending.plain step s.now s.row.secret.plain s.row.backupCodes.plain :: s.log }, .done (.confirmed draw.recoveryCodes))

def statement (draw : FactorDraw) (s : FactorState) : FactorStage → FactorState × FactorStage
  | .totp code now =>
    if !s.row.verified then (s, .done (.failed .notEnrolled))
    else (s, lockedUntil s.row now (match matchTotpStep hotp s.row.secret.plain code now with
      | none => .failing now .invalidCode
      | some step => .claimingTotp s.row step now))
  | .claimingTotp read step now => s.claimTotp read step now
  | .recovery code now =>
    if !s.row.verified then (s, .done (.failed .notEnrolled)) else (s, lockedUntil s.row now (.rereading s.row code now))
  | .rereading checked code now =>
    if s.row.verified && s.row.backupCodes.plain.contains code then (s, .claimingRecovery checked s.row code now)
    else (s, .failing now .invalidCode)
  | .claimingRecovery _ read code now => s.claimRecoveryCode read code draw.nonce now
  | .confirming code now =>
    match s.row.pendingSecret with
    | none => (s, .done (.failed .enrolmentNotStarted))
    | some pending => (s, lockedUntil s.row now (match matchTotpStep hotp pending.plain code now with
      | none => .failing now .invalidCode
      | some step => .promoting s.row step now))
  | .promoting read step _ => s.promote read step draw
  | .syncing => if !s.row.verified then (s, .done .synced) else (s, .counting s.row)
  | .counting read =>
    ({ s with row := { s.row with backupCodesRemaining := read.backupCodes.plain.length } }, .done .synced)
  | .clearing now next => (s.clearLapsed now, next)
  | .failing now error => (s.recordFailure now, .done (.failed error))
  | .done outcome => (s, .done outcome)

/-- Starts enrolling or replacing an authenticator. The new secret waits in its own column. -/
def beginEnrolment (secret : Sealed Text) (s : FactorState) : FactorState :=
  if s.isFreshSecret secret.plain then { s with row := { s.row with pendingSecret := some secret } } else s

/-- Replaces every recovery code. -/
def regenerateRecoveryCodes (draw : FactorDraw) (s : FactorState) : FactorState :=
  if s.row.verified && s.areFreshCodes draw.recoveryCodes then
    { s with
      row := { s.row with backupCodes := ⟨draw.nonce, draw.recoveryCodes⟩, backupCodesRemaining := draw.recoveryCodes.length }
      log := .regenerated s.row.backupCodes.plain :: s.log }
  else s

def startOperation (stage : FactorStage) (s : FactorState) : FactorState :=
  { s with operations := s.operations ++ [stage] }

def verifyCode (input : Text) (s : FactorState) : FactorState :=
  s.startOperation (match codeKind input with
    | none => .done (.failed .invalidCode)
    | some .recoveryCode => .recovery input s.now
    | some .totp => .totp input s.now)

def confirmEnrolment (code : Text) (s : FactorState) : FactorState :=
  s.startOperation (if isTotpShape code then .confirming code s.now else .done (.failed .invalidCode))

def advance (operation : Nat) (draw : FactorDraw) (s : FactorState) : FactorState :=
  match s.operations[operation]? with
  | none => s
  | some stage =>
    let (after, next) := s.statement hotp draw stage
    { after with operations := s.operations.set operation next }

def perform (s : FactorState) : FactorStep → FactorState
  | .wait elapsed => { s with now := s.now + elapsed }
  | .verifyCode input => s.verifyCode input
  | .confirmEnrolment code => s.confirmEnrolment code
  | .syncRecoveryCount => s.startOperation .syncing
  | .beginEnrolment secret => s.beginEnrolment secret
  | .regenerateRecoveryCodes draw => s.regenerateRecoveryCodes draw
  | .advance operation draw => s.advance hotp operation draw
  | .crash operation => { s with operations := s.operations.set operation (.done .crashed) }

def run (steps : List FactorStep) (s : FactorState) : FactorState :=
  steps.foldl (perform hotp) s

end FactorState

end Statements

/-- An account of which nothing is in flight. -/
def idle (now : Int) (row : FactorRow) : FactorState where
  now := now
  row := row
  operations := []
  log := []

/-- The row of an account before it enrols. -/
def placeholder : FactorRow where
  secret := ⟨0, "email-otp-only".toList⟩
  backupCodes := ⟨0, []⟩
  verified := false
  failedVerificationCount := 0
  lockedUntil := none
  pendingSecret := none
  lastUsedStep := none
  backupCodesRemaining := 0

end Quotum.SecondFactor
