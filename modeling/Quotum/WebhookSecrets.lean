import Quotum.Decimal
import Quotum.General.Table

/-! The signing secrets of webhook endpoints: they are issued, rotated, forgotten and re-sealed while the deployment moves to another
key, and the delivery worker signs with what it can open. Each request is one transaction. -/

namespace Quotum.WebhookSecrets
open General

structure SecretEnvelope where
  keyId : Text
  nonce : List Nat
  tag : List Nat
  ciphertext : List Nat
  deriving DecidableEq

structure SecretScope where
  label : Text
  instanceId : Text
  connectionId : Text
  versionId : Nat
  purpose : Text
  deriving DecidableEq

/-- AES-256-GCM: the ciphertext and the tag of a text under a key, a nonce and what is authenticated with it. -/
structure Aead (Key : Type) where
  encrypt : Key → List Nat → SecretScope → Text → List Nat × List Nat
  decrypt : Key → List Nat → SecretScope → List Nat × List Nat → Option Text
  tag_length : ∀ key nonce scope text, (encrypt key nonce scope text).2.length = 16
  decrypts : ∀ key nonce scope text, decrypt key nonce scope (encrypt key nonce scope text) = some text

abbrev Nonce := { bytes : List Nat // bytes.length = 12 }

structure ConnectionCipher (Key : Type) where
  activeKeyId : Text
  keys : List (Text × Key)

namespace ConnectionCipher
variable {Key : Type} (aead : Aead Key) (cipher : ConnectionCipher Key)

def key (keyId : Text) : Option Key :=
  (findAt Prod.fst keyId cipher.keys).map Prod.snd

def encrypt (value : Text) (scope : SecretScope) (nonce : Nonce) : Except String SecretEnvelope :=
  match cipher.key cipher.activeKeyId with
  | none => .error "Connection encryption key unavailable"
  | some key =>
    let sealed := aead.encrypt key nonce scope value
    .ok { keyId := cipher.activeKeyId, nonce := nonce, tag := sealed.2, ciphertext := sealed.1 }

def decrypt (envelope : SecretEnvelope) (scope : SecretScope) : Except String Text :=
  match cipher.key envelope.keyId with
  | none => .error "Connection secret is unavailable"
  | some key =>
    if envelope.nonce.length ≠ 12 ∨ envelope.tag.length ≠ 16 then .error "Connection secret is unavailable"
    else
      match aead.decrypt key envelope.nonce scope (envelope.ciphertext, envelope.tag) with
      | none => .error "Connection secret is unavailable"
      | some value => .ok value

end ConnectionCipher

structure WebhookSecretScope where
  projectId : Text
  endpointId : Text
  generation : Nat
  deriving DecidableEq

def scopeOf (scope : WebhookSecretScope) : SecretScope where
  label := "quotum-webhook-endpoint-v1".toList
  instanceId := scope.projectId
  connectionId := scope.endpointId
  versionId := scope.generation
  purpose := "signing".toList

section Sealer
variable {Key : Type} (aead : Aead Key) (cipher : ConnectionCipher Key)

def sealSecret (secret : Text) (scope : WebhookSecretScope) (nonce : Nonce) : Except String SecretEnvelope :=
  cipher.encrypt aead secret (scopeOf scope) nonce

def openSecret (envelope : SecretEnvelope) (scope : WebhookSecretScope) : Except String Text :=
  match cipher.decrypt aead envelope (scopeOf scope) with
  | .error _ => .error "Webhook endpoint secret is unavailable"
  | .ok value => .ok value

end Sealer

structure PreviousSecret where
  envelope : SecretEnvelope
  expiresAt : Int
  deriving DecidableEq

/-- An endpoint's columns about its secrets. A replaced envelope is stored with the end of its overlap, or neither is. -/
structure WebhookEndpoint where
  id : Text
  projectId : Text
  secretGeneration : Nat
  secretEnvelope : SecretEnvelope
  previousSecret : Option PreviousSecret
  rotationKey : Option Text
  idempotencyKey : Text
  requestHash : Text
  deriving DecidableEq

def WebhookEndpoint.scope (row : WebhookEndpoint) (generation : Nat) : WebhookSecretScope :=
  ⟨row.projectId, row.id, generation⟩

def webhookEndpointLimit : Nat := 20

/-- A disclosed secret: it is returned once, to the request that issued it. -/
structure Disclosure where
  endpointId : Text
  generation : Nat
  secret : Text
  deriving DecidableEq

/-- The endpoints, the keys the deployment runs with, and every secret that was ever disclosed, the newest first. -/
structure WebhookStore (Key : Type) where
  cipher : ConnectionCipher Key
  endpoints : List WebhookEndpoint
  disclosed : List Disclosure
  now : Int

structure CreateInput where
  id : Text
  projectId : Text
  secret : Text
  nonce : Nonce
  idempotencyKey : Text
  requestHash : Text

structure RotationInput where
  projectId : Text
  endpointId : Text
  secret : Text
  nonce : Nonce
  overlapHours : Nat
  idempotencyKey : Text

namespace WebhookStore
variable {Key : Type} (aead : Aead Key) (store : WebhookStore Key)

def ofProject (projectId : Text) : List WebhookEndpoint :=
  store.endpoints.filter fun row => decide (row.projectId = projectId)

/-- Creates an endpoint, or finds the one that an earlier request with the same key created. -/
def createEndpoint (input : CreateInput) : Except String (WebhookStore Key) := do
  let envelope ← sealSecret aead store.cipher input.secret ⟨input.projectId, input.id, 1⟩ input.nonce
  match (store.ofProject input.projectId).find? fun row => decide (row.idempotencyKey = input.idempotencyKey) with
  | some earlier => if earlier.requestHash ≠ input.requestHash then .error "IDEMPOTENCY_CONFLICT" else .ok store
  | none =>
    if webhookEndpointLimit ≤ (store.ofProject input.projectId).length then .error "WEBHOOK_ENDPOINT_LIMIT_REACHED"
    else if input.id ∈ store.endpoints.map WebhookEndpoint.id then .error "webhook_endpoints_pkey"
    else
      .ok { store with
        endpoints := store.endpoints ++
          [{ id := input.id, projectId := input.projectId, secretGeneration := 1, secretEnvelope := envelope, previousSecret := none,
             rotationKey := none, idempotencyKey := input.idempotencyKey, requestHash := input.requestHash }]
        disclosed := ⟨input.id, 1, input.secret⟩ :: store.disclosed }

def endpoint? (projectId endpointId : Text) : Option WebhookEndpoint :=
  (findAt WebhookEndpoint.id endpointId store.endpoints).filter fun row => decide (row.projectId = projectId)

def deleteEndpoint (projectId endpointId : Text) : Except String (WebhookStore Key) :=
  if (store.endpoint? projectId endpointId).isSome then
    .ok { store with endpoints := store.endpoints.filter fun row => decide (row.id ≠ endpointId) }
  else .error "WEBHOOK_ENDPOINT_NOT_FOUND"

def hourMs : Int := 3600000

/-- The row after a rotation: what it replaces stays for the overlap. -/
def rotated (input : RotationInput) (envelope : SecretEnvelope) (row : WebhookEndpoint) : WebhookEndpoint :=
  { row with
    previousSecret := if 0 < input.overlapHours then some ⟨row.secretEnvelope, store.now + input.overlapHours * hourMs⟩ else none
    secretEnvelope := envelope
    secretGeneration := row.secretGeneration + 1
    rotationKey := some input.idempotencyKey }

def rotateSecret (input : RotationInput) : Except String (WebhookStore Key) :=
  match store.endpoint? input.projectId input.endpointId with
  | none => .error "WEBHOOK_ENDPOINT_NOT_FOUND"
  | some current =>
    if current.rotationKey = some input.idempotencyKey then .ok store
    else if 2147483647 ≤ current.secretGeneration then .error "integer out of range"
    else do
      let generation := current.secretGeneration + 1
      let envelope ← sealSecret aead store.cipher input.secret (current.scope generation) input.nonce
      .ok { store with
        endpoints := updateAt WebhookEndpoint.id input.endpointId (store.rotated input envelope) store.endpoints
        disclosed := ⟨input.endpointId, generation, input.secret⟩ :: store.disclosed }

/-- The part of `deleteExpiredEvents` about secrets. -/
def forgetExpiredSecrets : WebhookStore Key :=
  { store with
    endpoints := store.endpoints.map fun row =>
      { row with previousSecret := row.previousSecret.filter fun previous => decide (store.now < previous.expiresAt) } }

end WebhookStore

def WebhookEndpoint.sealedOtherwise (keyId : Text) (row : WebhookEndpoint) : Bool :=
  decide (row.secretEnvelope.keyId ≠ keyId) || row.previousSecret.any fun previous => decide (previous.envelope.keyId ≠ keyId)

namespace WebhookStore
variable {Key : Type} (aead : Aead Key) (store : WebhookStore Key)

def countEndpointSecretsSealedWithOtherKeys (keyId : Text) : Nat :=
  store.endpoints.countP (WebhookEndpoint.sealedOtherwise keyId)

def resealEnvelope (nonce : Nonce) (scope : WebhookSecretScope) (envelope : SecretEnvelope) : Except String SecretEnvelope :=
  if envelope.keyId = store.cipher.activeKeyId then .ok envelope
  else do
    let secret ← openSecret aead store.cipher envelope scope
    sealSecret aead store.cipher secret scope nonce

def resealRow (nonces : Nonce × Nonce) (row : WebhookEndpoint) : Except String WebhookEndpoint := do
  let current ← store.resealEnvelope aead nonces.1 (row.scope row.secretGeneration) row.secretEnvelope
  match row.previousSecret with
  | none => .ok { row with secretEnvelope := current }
  | some previous =>
    let replaced ← store.resealEnvelope aead nonces.2 (row.scope (row.secretGeneration - 1)) previous.envelope
    .ok { row with secretEnvelope := current, previousSecret := some { previous with envelope := replaced } }

/-- One batch. It takes the rows that others have not locked, up to a limit: `picked` says which. -/
def resealEndpointSecrets (picked : Text → Bool) (nonces : Text → Nonce × Nonce) : Except String (WebhookStore Key) := do
  let endpoints ← store.endpoints.mapM fun row =>
    if row.sealedOtherwise store.cipher.activeKeyId && picked row.id then store.resealRow aead (nonces row.id) row else .ok row
  .ok { store with endpoints := endpoints }

/-- Deploys a new active key, the old one beside it. A key that was kept beside the old one goes, so nothing may need it. -/
def introduceKey (keyId : Text) (key : Key) : Except String (WebhookStore Key) :=
  match store.cipher.key store.cipher.activeKeyId with
  | none => .error "Connection encryption key unavailable"
  | some active =>
    if keyId = store.cipher.activeKeyId then .error "QUOTUM_SECRETS_PREVIOUS_KEY_ID"
    else if store.countEndpointSecretsSealedWithOtherKeys store.cipher.activeKeyId ≠ 0 then .error "rotate-secrets"
    else .ok { store with cipher := ⟨keyId, [(keyId, key), (store.cipher.activeKeyId, active)]⟩ }

/-- Deploys without the old key, once every envelope uses the active one. -/
def retireKey : Except String (WebhookStore Key) :=
  match store.cipher.key store.cipher.activeKeyId with
  | none => .error "Connection encryption key unavailable"
  | some active =>
    if store.countEndpointSecretsSealedWithOtherKeys store.cipher.activeKeyId ≠ 0 then .error "rotate-secrets"
    else .ok { store with cipher := ⟨store.cipher.activeKeyId, [(store.cipher.activeKeyId, active)]⟩ }

end WebhookStore

inductive SecretStep (Key : Type) where
  | create (input : CreateInput)
  | delete (projectId endpointId : Text)
  | rotate (input : RotationInput)
  | forget
  | reseal (picked : Text → Bool) (nonces : Text → Nonce × Nonce)
  | introduce (keyId : Text) (key : Key)
  | retire
  | advance (by_ : Nat)

/-- The secrets that a step may disclose. -/
def SecretStep.secrets {Key : Type} : SecretStep Key → List Text
  | .create input => [input.secret]
  | .rotate input => [input.secret]
  | _ => []

section Runs
variable {Key : Type} (aead : Aead Key)

def kept (store : WebhookStore Key) (done : Except String (WebhookStore Key)) : WebhookStore Key :=
  match done with
  | .error _ => store
  | .ok next => next

def perform (store : WebhookStore Key) : SecretStep Key → WebhookStore Key
  -- A generated id was never used before.
  | .create input => if input.id ∈ store.disclosed.map Disclosure.endpointId then store else kept store (store.createEndpoint aead input)
  | .delete projectId endpointId => kept store (store.deleteEndpoint projectId endpointId)
  | .rotate input => kept store (store.rotateSecret aead input)
  | .forget => store.forgetExpiredSecrets
  | .reseal picked nonces => kept store (store.resealEndpointSecrets aead picked nonces)
  | .introduce keyId key => kept store (store.introduceKey keyId key)
  | .retire => kept store store.retireKey
  | .advance by_ => { store with now := store.now + by_ }

def run (store : WebhookStore Key) (steps : List (SecretStep Key)) : WebhookStore Key :=
  steps.foldl (perform aead) store

end Runs

def deployed {Key : Type} (keyId : Text) (key : Key) (now : Int) : WebhookStore Key :=
  ⟨⟨keyId, [(keyId, key)]⟩, [], [], now⟩

/-- A store that a run leaves whose disclosed secrets are such as may be. -/
def Reached {Key : Type} (aead : Aead Key) (allowed : Text → Prop) (store : WebhookStore Key) : Prop :=
  ∃ keyId key now steps, store = run aead (deployed keyId key now) steps ∧ ∀ step ∈ steps, ∀ secret ∈ step.secrets, allowed secret

section Delivery
variable {Key : Type} (aead : Aead Key)

/-- The envelopes a claim returns: a replaced one only while its overlap lasts. -/
def WebhookEndpoint.claimedSecrets (row : WebhookEndpoint) (now : Int) : List (SecretEnvelope × Nat) :=
  (row.secretEnvelope, row.secretGeneration) ::
    ((row.previousSecret.filter fun previous => decide (now < previous.expiresAt)).map fun previous =>
      (previous.envelope, row.secretGeneration - 1)).toList

/-- The secrets that `request` signs a delivery with. -/
def signingSecrets (cipher : ConnectionCipher Key) (row : WebhookEndpoint) (now : Int) : Except String (List Text) :=
  (row.claimedSecrets now).mapM fun claimed => openSecret aead cipher claimed.1 (row.scope claimed.2)

end Delivery

/-- HMAC-SHA256 under the key that a base64 text encodes, in base64 as well. -/
structure Hmac where
  digest : Text → Text → Text
  keyed : Text → Bool
  unspaced : ∀ key message, ' ' ∉ digest key message

def webhookSecretPrefix : Text := "whsec_".toList

def webhookTimestampToleranceSeconds : Int := 300

def integerText (value : Int) : Text :=
  if value < 0 then '-' :: Nat.toDigits 10 value.natAbs else Nat.toDigits 10 value.natAbs

def digitsNumber (text : Text) : Option Nat :=
  let digits := text.takeWhile Char.isDigit
  if digits.isEmpty then none else some (Nat.ofDigitChars 10 digits 0)

/-- `parseInt` of a text without leading whitespace. -/
def parseInt : Text → Option Int
  | '-' :: rest => (digitsNumber rest).map fun number : Nat => -(number : Int)
  | '+' :: rest => (digitsNumber rest).map fun number : Nat => (number : Int)
  | text => (digitsNumber text).map fun number : Nat => (number : Int)

structure WebhookHeaders where
  webhookId : Text
  webhookTimestamp : Text
  webhookSignature : Text
  deriving DecidableEq

section Signing
variable (hmac : Hmac)

def secretKey (secret : Text) : Except String Text :=
  if ¬ webhookSecretPrefix.isPrefixOf secret then .error "A webhook secret starts with whsec_"
  else
    let key := secret.drop webhookSecretPrefix.length
    if hmac.keyed key then .ok key else .error "A webhook secret has no key"

def signature (secret webhookId timestamp body : Text) : Except String Text := do
  let key ← secretKey hmac secret
  .ok ("v1,".toList ++ hmac.digest key (webhookId ++ '.' :: timestamp ++ '.' :: body))

def createWebhookHeaders (webhookId body : Text) (secrets : List Text) (now : Int) : Except String WebhookHeaders :=
  if secrets = [] then .error "A webhook delivery needs a signing secret"
  else do
    let timestamp := integerText (now / 1000)
    let signatures ← secrets.mapM fun secret => signature hmac secret webhookId timestamp body
    .ok ⟨webhookId, timestamp, [' '].intercalate signatures⟩

def verifyWebhookSignature (secret body webhookId timestamp header : Text) (now toleranceSeconds : Int) : Bool :=
  match parseInt timestamp with
  | none => false
  | some seconds =>
    decide (seconds.natAbs ≤ maxSafeInteger ∧ integerText seconds = timestamp) &&
      decide (|now - 1000 * seconds| ≤ 1000 * toleranceSeconds) &&
      match signature hmac secret webhookId timestamp body with
      | .error _ => false
      | .ok expected => ((header.splitOn ' ').filter fun candidate => "v1,".toList.isPrefixOf candidate).any (· == expected)

end Signing

end Quotum.WebhookSecrets
