import Quotum.Decimal

/-! One idempotency key of one principal: the requests that carry it claim its row in a transaction, dispatch outside of it, and then
store the answer or release the row. The statements of any requests interleave, each transaction under the locks it holds. -/

namespace Quotum.DispatchClaims

/-- How long a session lasts without use: half an hour. -/
def idleMs : Int := 30 * 60000

structure MerchantSession where
  revokedAt : Option Int
  absoluteExpiresAt : Int
  lastSeenAt : Int
  deriving DecidableEq

def MerchantSession.live (now : Int) (session : MerchantSession) : Bool :=
  session.revokedAt.isNone && decide (now < session.absoluteExpiresAt) && decide (now - idleMs < session.lastSeenAt)

structure StepUpGrant where
  id : Nat
  sessionId : Nat
  scope : Text
  action : Text
  target : Text
  tokenHash : Option Text
  verifiedAt : Option Int
  consumedAt : Option Int
  expiresAt : Int
  deriving DecidableEq

structure StepUpUse where
  scope : Text
  action : Text
  target : Text
  token : Option Text
  deriving DecidableEq

/-- What a request's hash is taken of: the JSON text of a dispatch's input, or of that of a mutation inside the transaction. -/
inductive Input where
  | dispatch (json : Text)
  | mutation (json : Text)
  deriving DecidableEq

def Input.dispatches : Input → Bool
  | .dispatch _ => true
  | .mutation _ => false

structure StoredDispatchResponse where
  status : Nat
  body : Text
  deriving DecidableEq

inductive StoredDispatch where
  | pending
  | completed (response : StoredDispatchResponse)
  deriving DecidableEq

/-- A stored result: a dispatch's, or the value that a mutation answered, as far as a dispatch would read it. -/
inductive StoredResult where
  | dispatch (stored : StoredDispatch)
  | value (state : Option Text) (response : Option StoredDispatchResponse) (json : Text)
  deriving DecidableEq

namespace StoredResult

def state : StoredResult → Option Text
  | .dispatch .pending => some "pending".toList
  | .dispatch (.completed _) => some "completed".toList
  | .value state _ _ => state

def response : StoredResult → Option StoredDispatchResponse
  | .dispatch .pending => none
  | .dispatch (.completed response) => some response
  | .value _ response _ => response

end StoredResult

structure IdempotencyRow (Hash : Type) where
  requestHash : Hash
  result : Option StoredResult
  deriving DecidableEq

/-- A request under the key, with what it hands to the dispatch: whether its action takes a confirmation, and how a repeat's answer
differs from the first. -/
structure KeyedRequest where
  session : Nat
  input : Input
  stepUp : Option StepUpUse
  repeated : StoredDispatchResponse → StoredDispatchResponse

inductive Outcome where
  | sessionExpired
  | idempotencyConflict
  | operationInProgress
  /-- `authorize` or the mutation threw, and the transaction rolled back. -/
  | rolledBack
  | stored (response : Option StoredDispatchResponse)
  | value (result : Option StoredResult)
  | dispatched (response : StoredDispatchResponse)
  | threw
  deriving DecidableEq

inductive Stage where
  | begun
  | checked
  /-- Its insert met a committed row. -/
  | skipped
  /-- Its own row is inserted and not committed. -/
  | inserted
  /-- It read the row under its lock and ends the transaction. -/
  | leaving (outcome : Outcome)
  | locked
  | authorized (grants : List Nat)
  | operated (result : Option StoredResult)
  | claimed
  | dispatching
  | answered (response : StoredDispatchResponse)
  | failed (response : Option StoredDispatchResponse)
  | ended (outcome : Outcome)
  | crashed (held : Bool)
  deriving DecidableEq

namespace Stage

def locks : Stage → Bool
  | inserted | leaving _ | locked | authorized _ | operated _ => true
  | _ => false

/-- Whether the claim is committed and neither stored nor released, by a request that may have crashed. -/
def held : Stage → Bool
  | claimed | dispatching | answered _ | failed _ => true
  | crashed held => held
  | _ => false

/-- Whether the dispatch runs, or may still run after a crash. -/
def inFlight : Stage → Bool
  | dispatching => true
  | crashed held => held
  | _ => false

end Stage

/-- What is recorded of the key: committed authorizations with the grants they consumed, dispatches, stored answers and releases. -/
inductive Entry where
  | authorized (request : Nat) (grants : List Nat)
  | dispatched (request : Nat)
  | stored (request : Nat) (answer : StoredDispatchResponse)
  | released (request : Nat)
  deriving DecidableEq

/-- The tables, the request whose transaction holds the row, how far each request is, and the record, newest first. -/
structure KeyState (Hash : Type) where
  now : Int
  sessions : Nat → Option MerchantSession
  grants : List StepUpGrant
  row : Option (IdempotencyRow Hash)
  holder : Option Nat
  stages : Nat → Stage
  log : List Entry

inductive KeyStep where
  | wait (elapsed : Nat)
  | session (id : Nat) (row : Option MerchantSession)
  | issueGrant (grant : StepUpGrant)
  | verifyGrant (id : Nat) (tokenHash : Text) (expiresAt : Int)
  | consumeGrant (id : Nat)
  | checkSession (request : Nat)
  | insertRow (request : Nat)
  | selectRow (request : Nat)
  | leave (request : Nat)
  | authorize (request : Nat) (allowed : Bool)
  | operate (request : Nat) (result : Except Unit (Option StoredResult))
  | commit (request : Nat)
  | dispatch (request : Nat)
  | answer (request : Nat) (response : StoredDispatchResponse)
  | throw (request : Nat)
  | storeAnswer (request : Nat)
  | releaseDispatch (request : Nat)
  | crash (request : Nat)

namespace KeyState
variable {Hash : Type}

def move (request : Nat) (stage : Stage) (s : KeyState Hash) : KeyState Hash :=
  { s with stages := Function.update s.stages request stage }

/-- Ends a transaction without its writes. -/
def rollback (request : Nat) (stage : Stage) (s : KeyState Hash) : KeyState Hash :=
  { s with holder := none }.move request stage

/-- The grants that an open transaction has consumed and not committed. -/
def heldGrants (s : KeyState Hash) : List Nat :=
  match s.holder with
  | none => []
  | some request =>
    match s.stages request with
    | .authorized grants => grants
    | _ => []

def issueGrant (grant : StepUpGrant) (s : KeyState Hash) : KeyState Hash :=
  if grant.id ∈ s.grants.map StepUpGrant.id then s
  else { s with grants := s.grants ++ [{ grant with tokenHash := none, verifiedAt := none, consumedAt := none }] }

/-- Changes a grant that is not consumed. Waits while an open transaction consumes it. -/
def editGrant (id : Nat) (edit : StepUpGrant → StepUpGrant) (s : KeyState Hash) : KeyState Hash :=
  if id ∈ s.heldGrants then s
  else { s with grants := s.grants.map fun grant => if grant.id = id ∧ grant.consumedAt = none then edit grant else grant }

def checkSession (requests : Nat → KeyedRequest) (request : Nat) (s : KeyState Hash) : KeyState Hash :=
  match s.stages request with
  | .begun =>
    if (s.sessions (requests request).session).any (MerchantSession.live s.now) then s.move request .checked
    else s.move request (.ended .sessionExpired)
  | _ => s

/-- Inserts the row, or does nothing where one is committed. Waits for a row that is inserted and not committed. -/
def insertRow (request : Nat) (s : KeyState Hash) : KeyState Hash :=
  match s.stages request with
  | .checked =>
    match s.row, s.holder with
    | some _, _ => s.move request .skipped
    | none, some _ => s
    | none, none => { s with holder := some request }.move request .inserted
  | _ => s

variable (requests : Nat → KeyedRequest) (digest : Input → Hash)

section Reading
variable [DecidableEq Hash]

def readRow (request : Nat) (row : IdempotencyRow Hash) : Stage :=
  if row.requestHash ≠ digest (requests request).input then .leaving .idempotencyConflict
  else
    match row.result with
    | none => .locked
    | some result =>
      match (requests request).input with
      | .dispatch _ =>
        if result.state = some "completed".toList then .leaving (.stored result.response) else .leaving .operationInProgress
      | .mutation _ => .leaving (.value (some result))

/-- Reads the row for update. Waits while another transaction holds it; an uncommitted row is not seen. -/
def selectRow (request : Nat) (s : KeyState Hash) : KeyState Hash :=
  match s.stages request with
  | .inserted => s.move request .locked
  | .skipped =>
    match s.row, s.holder with
    | none, _ => s.move request (.ended .idempotencyConflict)
    | some _, some _ => s
    | some row, none => { s with holder := some request }.move request (readRow requests digest request row)
  | _ => s

def isOwn (request : Nat) (row : IdempotencyRow Hash) : Bool :=
  decide (row.requestHash = digest (requests request).input) && decide (row.result.bind StoredResult.state = some "pending".toList)

def storeAnswer (request : Nat) (s : KeyState Hash) : KeyState Hash :=
  match s.stages request with
  | .answered response =>
    match s.row.filter (isOwn requests digest request), s.holder with
    | none, _ => s.move request (.ended (.dispatched response))
    | some _, some _ => s
    | some row, none =>
      let answer := (requests request).repeated response
      { s with
        row := some { row with result := some (.dispatch (.completed answer)) }
        log := .stored request answer :: s.log }.move request (.ended (.dispatched response))
  | _ => s

def releaseDispatch (request : Nat) (s : KeyState Hash) : KeyState Hash :=
  match s.stages request with
  | .failed response =>
    let outcome := (response.map Outcome.dispatched).getD .threw
    match s.row.filter (isOwn requests digest request), s.holder with
    | none, _ => s.move request (.ended outcome)
    | some _, some _ => s
    | some _, none => { s with row := none, log := .released request :: s.log }.move request (.ended outcome)
  | _ => s

end Reading

def leave (request : Nat) (s : KeyState Hash) : KeyState Hash :=
  match s.stages request with
  | .leaving outcome => { s with holder := none }.move request (.ended outcome)
  | _ => s

def matching (hash : Text → Text) (session : Nat) (use : StepUpUse) (now : Int) (grants : List StepUpGrant) : List Nat :=
  match use.token with
  | none => []
  | some token => (grants.filter fun grant => grant.tokenHash = some (hash token) ∧ grant.sessionId = session ∧ grant.scope = use.scope ∧
      grant.action = use.action ∧ grant.target = use.target ∧ grant.verifiedAt.isSome ∧ grant.consumedAt = none ∧
      now < grant.expiresAt).map StepUpGrant.id

/-- Authorizes a dispatch: the role's capability as it is now, and the grant that the action takes. -/
def authorize (hash : Text → Text) (request : Nat) (allowed : Bool) (s : KeyState Hash) : KeyState Hash :=
  match s.stages request, (requests request).input with
  | .locked, .dispatch _ =>
    if !allowed then s.rollback request (.ended .rolledBack)
    else
      match (requests request).stepUp with
      | none => s.move request (.authorized [])
      | some use =>
        let grants := matching hash (requests request).session use s.now s.grants
        if grants = [] then s.rollback request (.ended .rolledBack) else s.move request (.authorized grants)
  | _, _ => s

def operate (request : Nat) (result : Except Unit (Option StoredResult)) (s : KeyState Hash) : KeyState Hash :=
  match s.stages request, (requests request).input, result with
  | .locked, .mutation _, .ok (some (.value state response json)) => s.move request (.operated (some (.value state response json)))
  | .locked, .mutation _, .ok none => s.move request (.operated none)
  | .locked, .mutation _, .error _ => s.rollback request (.ended .rolledBack)
  | _, _, _ => s

def consumed (ids : List Nat) (now : Int) (grants : List StepUpGrant) : List StepUpGrant :=
  grants.map fun grant => if grant.id ∈ ids then { grant with consumedAt := some now } else grant

def commit (request : Nat) (s : KeyState Hash) : KeyState Hash :=
  match s.stages request with
  | .authorized grants =>
    { s with
      row := some ⟨digest (requests request).input, some (.dispatch .pending)⟩
      holder := none
      grants := consumed grants s.now s.grants
      log := .authorized request grants :: s.log }.move request .claimed
  | .operated result =>
    { s with row := some ⟨digest (requests request).input, result⟩, holder := none }.move request (.ended (.value result))
  | _ => s

def dispatch (request : Nat) (s : KeyState Hash) : KeyState Hash :=
  match s.stages request with
  | .claimed => { s with log := .dispatched request :: s.log }.move request .dispatching
  | _ => s

def answer (request : Nat) (response : StoredDispatchResponse) (s : KeyState Hash) : KeyState Hash :=
  match s.stages request with
  | .dispatching => s.move request (if 500 ≤ response.status then .failed (some response) else .answered response)
  | _ => s

def throw (request : Nat) (s : KeyState Hash) : KeyState Hash :=
  match s.stages request with
  | .dispatching => s.move request (.failed none)
  | _ => s

/-- Ends a request wherever it is. Its open transaction is rolled back. -/
def crash (request : Nat) (s : KeyState Hash) : KeyState Hash :=
  match s.stages request with
  | .ended _ => s
  | stage => { s with holder := if s.holder = some request then none else s.holder }.move request (.crashed stage.held)

variable [DecidableEq Hash] (hash : Text → Text)

def perform (s : KeyState Hash) : KeyStep → KeyState Hash
  | .wait elapsed => { s with now := s.now + elapsed }
  | .session id row => { s with sessions := Function.update s.sessions id row }
  | .issueGrant grant => s.issueGrant grant
  | .verifyGrant id tokenHash expiresAt =>
    s.editGrant id fun grant => { grant with tokenHash := some tokenHash, verifiedAt := some s.now, expiresAt := expiresAt }
  | .consumeGrant id => s.editGrant id fun grant => { grant with consumedAt := some s.now }
  | .checkSession request => s.checkSession requests request
  | .insertRow request => s.insertRow request
  | .selectRow request => s.selectRow requests digest request
  | .leave request => s.leave request
  | .authorize request allowed => s.authorize requests hash request allowed
  | .operate request result => s.operate requests request result
  | .commit request => s.commit requests digest request
  | .dispatch request => s.dispatch request
  | .answer request response => s.answer request response
  | .throw request => s.throw request
  | .storeAnswer request => s.storeAnswer requests digest request
  | .releaseDispatch request => s.releaseDispatch requests digest request
  | .crash request => s.crash request

def run (steps : List KeyStep) (s : KeyState Hash) : KeyState Hash :=
  steps.foldl (perform requests digest hash) s

end KeyState

/-- Before the key's first request. -/
def unused {Hash : Type} (now : Int) (sessions : Nat → Option MerchantSession) (grants : List StepUpGrant) : KeyState Hash where
  now := now
  sessions := sessions
  grants := grants
  row := none
  holder := none
  stages := fun _ => .begun
  log := []

end Quotum.DispatchClaims
