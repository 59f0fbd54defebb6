import Quotum.WebhookSecrets
import Quotum.General.JsonReading
import Quotum.General.Outcomes

/-! The envelopes of an endpoint and its generation stay in step, so every delivery is signed with the secret disclosed last, and with
the one before it while its overlap lasts. -/

namespace Quotum.WebhookSecrets
open General

variable {Key : Type} {aead : Aead Key}

section Envelopes
variable {cipher other : ConnectionCipher Key} {envelope : SecretEnvelope} {scope : WebhookSecretScope} {secret : Text} {nonce : Nonce}

private theorem open_sealed (done : sealSecret aead cipher secret scope nonce = .ok envelope) :
    envelope.keyId = cipher.activeKeyId ∧ openSecret aead cipher envelope scope = .ok secret := by
  rw [sealSecret, ConnectionCipher.encrypt] at done
  split at done
  · cases done
  · next key found =>
    cases done
    refine ⟨rfl, ?_⟩
    have fits : ¬ (nonce.val.length ≠ 12 ∨ (aead.encrypt key nonce (scopeOf scope) secret).2.length ≠ 16) := by
      rw [nonce.property, aead.tag_length]
      simp
    simp only [openSecret, ConnectionCipher.decrypt, found, if_neg fits, Prod.mk.eta, aead.decrypts]

/-- A cipher opens an envelope with the envelope's own key only. -/
private theorem open_congr (same : cipher.key envelope.keyId = other.key envelope.keyId) :
    openSecret aead cipher envelope scope = openSecret aead other envelope scope := by
  simp only [openSecret, ConnectionCipher.decrypt, same]

end Envelopes

/-- What holds of an endpoint's row, given the secrets that were disclosed for it, the newest first. -/
inductive InStep (aead : Aead Key) (cipher : ConnectionCipher Key) (row : WebhookEndpoint) : List Text → Prop where
  | mk {current : Text} {older : List Text} (generation : row.secretGeneration = older.length + 1)
      (opens : openSecret aead cipher row.secretEnvelope (row.scope row.secretGeneration) = .ok current)
      (replaced : ∀ previous ∈ row.previousSecret, ∃ secret ∈ older.head?,
        openSecret aead cipher previous.envelope (row.scope (row.secretGeneration - 1)) = .ok secret) :
      InStep aead cipher row (current :: older)

/-- The secrets that were disclosed for an endpoint, the newest first. -/
def issued (disclosed : List Disclosure) (endpointId : Text) : List Text :=
  (disclosed.filter fun disclosure => decide (disclosure.endpointId = endpointId)).map Disclosure.secret

section Disclosures
variable {disclosed : List Disclosure} {disclosure : Disclosure} {endpointId : Text}

private theorem issued_here (here : disclosure.endpointId = endpointId) :
    issued (disclosure :: disclosed) endpointId = disclosure.secret :: issued disclosed endpointId := by
  simp [issued, here]

private theorem issued_apart (apart : disclosure.endpointId ≠ endpointId) :
    issued (disclosure :: disclosed) endpointId = issued disclosed endpointId := by
  simp [issued, apart]

private theorem issued_none (fresh : endpointId ∉ disclosed.map Disclosure.endpointId) : issued disclosed endpointId = [] := by
  simp only [issued, List.map_eq_nil_iff, List.filter_eq_nil_iff, decide_eq_true_eq]
  intro disclosure member same
  exact fresh (List.mem_map.mpr ⟨disclosure, member, same⟩)

end Disclosures

structure Sound (aead : Aead Key) (allowed : Text → Prop) (store : WebhookStore Key) : Prop where
  distinct : (store.endpoints.map WebhookEndpoint.id).Nodup
  active : (store.cipher.key store.cipher.activeKeyId).isSome = true
  rows : ∀ row ∈ store.endpoints, InStep aead store.cipher row (issued store.disclosed row.id)
  disclosed : ∀ row ∈ store.endpoints, row.id ∈ store.disclosed.map Disclosure.endpointId
  secrets : ∀ disclosure ∈ store.disclosed, allowed disclosure.secret

section Steps
variable {allowed : Text → Prop} {store next : WebhookStore Key} {row : WebhookEndpoint}

theorem Sound.create (sound : Sound aead allowed store) {input : CreateInput} (fresh : input.id ∉ store.disclosed.map Disclosure.endpointId)
    (may : allowed input.secret) (done : store.createEndpoint aead input = .ok next) : Sound aead allowed next := by
  obtain ⟨envelope, made, done⟩ := bind_ok done
  split at done
  · split at done
    · cases done
    · cases done
      exact sound
  · split at done
    · cases done
    · split at done
      · cases done
      · next unused =>
        cases done
        have opens := (open_sealed made).2
        refine ⟨?_, sound.active, ?_, ?_, List.forall_mem_cons.mpr ⟨may, sound.secrets⟩⟩
        · rw [List.map_append, List.nodup_append]
          refine ⟨sound.distinct, List.nodup_singleton _, ?_⟩
          rintro id member _ new rfl
          rw [List.mem_singleton.mp new] at member
          exact unused member
        · intro row member
          rcases List.mem_append.mp member with old | new
          · have apart : input.id ≠ row.id := fun same => unused (same ▸ List.mem_map_of_mem old)
            rw [issued_apart apart]
            exact sound.rows row old
          · rw [List.mem_singleton.mp new]
            rw [issued_here rfl, issued_none fresh]
            refine .mk rfl opens ?_
            rintro previous ⟨⟩
        · intro row member
          rcases List.mem_append.mp member with old | new
          · exact List.mem_cons_of_mem _ (sound.disclosed row old)
          · rw [List.mem_singleton.mp new]
            exact List.mem_cons_self

theorem Sound.delete (sound : Sound aead allowed store) {projectId endpointId : Text} (done : store.deleteEndpoint projectId endpointId = .ok next) :
    Sound aead allowed next := by
  rw [WebhookStore.deleteEndpoint] at done
  split at done
  · cases done
    exact ⟨sound.distinct.sublist (List.filter_sublist.map _), sound.active, fun row member => sound.rows row (List.mem_of_mem_filter member),
      fun row member => sound.disclosed row (List.mem_of_mem_filter member), sound.secrets⟩
  · cases done

theorem Sound.rotate (sound : Sound aead allowed store) {input : RotationInput} (may : allowed input.secret) (done : store.rotateSecret aead input = .ok next) :
    Sound aead allowed next := by
  rw [WebhookStore.rotateSecret] at done
  split at done
  · cases done
  · next current found =>
    obtain ⟨inside, id⟩ := findAt_inv (Option.filter_eq_some_iff.mp found).1
    split at done
    · cases done
      exact sound
    split at done
    · cases done
    · obtain ⟨envelope, made, done⟩ := bind_ok done
      cases done
      have opens := (open_sealed made).2
      refine ⟨?_, sound.active, ?_, ?_, List.forall_mem_cons.mpr ⟨may, sound.secrets⟩⟩
      · have keys : ∀ row, (store.rotated input envelope row).id = row.id := fun _ => rfl
        rw [updateAt_keys keys]
        exact sound.distinct
      · intro row member
        rcases mem_updateAt.mp member with ⟨old, there, ⟨same, rfl⟩ | ⟨apart, rfl⟩⟩
        · obtain rfl : old = current := List.inj_on_of_nodup_map sound.distinct there inside (same.trans id.symm)
          have kept := sound.rows old there
          rw [issued_here (same.symm : input.endpointId = _)]
          change InStep aead store.cipher _ (input.secret :: issued store.disclosed old.id)
          generalize issued store.disclosed old.id = secrets at kept ⊢
          obtain ⟨generation, was, -⟩ := kept
          refine .mk (by rw [List.length_cons, ← generation]; rfl) opens ?_
          intro previous replaced
          simp only [WebhookStore.rotated] at replaced
          split at replaced
          · cases replaced
            exact ⟨_, rfl, was⟩
          · cases replaced
        · rw [issued_apart (Ne.symm apart : input.endpointId ≠ _)]
          exact sound.rows row there
      · intro row member
        obtain ⟨old, there, change⟩ := mem_updateAt.mp member
        rcases change with ⟨-, rfl⟩ | ⟨-, rfl⟩
        · exact List.mem_cons_of_mem _ (sound.disclosed old there)
        · exact List.mem_cons_of_mem _ (sound.disclosed row there)

theorem Sound.forget (sound : Sound aead allowed store) : Sound aead allowed store.forgetExpiredSecrets := by
  refine ⟨?_, sound.active, ?_, ?_, sound.secrets⟩
  · rw [WebhookStore.forgetExpiredSecrets, List.map_map]
    exact sound.distinct
  · intro row member
    obtain ⟨old, inside, rfl⟩ := List.mem_map.mp member
    have kept := sound.rows old inside
    change InStep aead store.cipher _ (issued store.disclosed old.id)
    generalize issued store.disclosed old.id = secrets at kept ⊢
    obtain ⟨generation, opens, replaced⟩ := kept
    exact .mk generation opens fun previous still => replaced previous (Option.mem_filter_iff.mp still).1
  · intro row member
    obtain ⟨old, inside, rfl⟩ := List.mem_map.mp member
    exact sound.disclosed old inside

private theorem reseal_opens {nonce : Nonce} {scope : WebhookSecretScope} {envelope resealed : SecretEnvelope} {secret : Text}
    (opens : openSecret aead store.cipher envelope scope = .ok secret)
    (done : store.resealEnvelope aead nonce scope envelope = .ok resealed) :
    openSecret aead store.cipher resealed scope = .ok secret := by
  rw [WebhookStore.resealEnvelope, opens] at done
  split at done
  · cases done
    exact opens
  · exact (open_sealed done).2

theorem InStep.reseal {secrets : List Text} (kept : InStep aead store.cipher row secrets) {nonces : Nonce × Nonce}
    {resealed : WebhookEndpoint} (done : store.resealRow aead nonces row = .ok resealed) :
    resealed.id = row.id ∧ InStep aead store.cipher resealed secrets := by
  obtain ⟨generation, opens, replaced⟩ := kept
  obtain ⟨current, first, done⟩ := bind_ok done
  have opens := reseal_opens opens first
  split at done
  · next none_ =>
    cases done
    refine ⟨rfl, .mk generation opens ?_⟩
    intro previous still
    cases none_.symm.trans still
  · next previous some_ =>
    obtain ⟨envelope, second, done⟩ := bind_ok done
    cases done
    obtain ⟨secret, head, was⟩ := replaced previous some_
    refine ⟨rfl, .mk generation opens ?_⟩
    rintro _ ⟨⟩
    exact ⟨secret, head, reseal_opens was second⟩

theorem Sound.reseal (sound : Sound aead allowed store) {picked : Text → Bool} {nonces : Text → Nonce × Nonce}
    (done : store.resealEndpointSecrets aead picked nonces = .ok next) : Sound aead allowed next := by
  obtain ⟨endpoints, each, done⟩ := bind_ok done
  cases done
  have pairs := (List.forall₂_and_left _ _).mpr ⟨sound.rows, mapM_ok each⟩
  have kept : List.Forall₂ (fun row resealed => row.id = resealed.id ∧ InStep aead store.cipher resealed (issued store.disclosed row.id))
      store.endpoints endpoints := by
    refine pairs.imp ?_
    rintro row resealed ⟨inStep, made⟩
    split at made
    · obtain ⟨same, resealed⟩ := inStep.reseal made
      exact ⟨same.symm, resealed⟩
    · cases made
      exact ⟨rfl, inStep⟩
  have ids : store.endpoints.map WebhookEndpoint.id = endpoints.map WebhookEndpoint.id := by
    rw [← List.forall₂_eq_eq_eq, List.forall₂_map_left_iff, List.forall₂_map_right_iff]
    exact kept.imp fun _ _ both => both.1
  refine ⟨ids ▸ sound.distinct, sound.active, ?_, ?_, sound.secrets⟩
  · intro resealed member
    obtain ⟨row, -, same, inStep⟩ := (paired kept).2 resealed member
    exact same ▸ inStep
  · intro resealed member
    obtain ⟨row, inside, same, -⟩ := (paired kept).2 resealed member
    exact same ▸ sound.disclosed row inside

private theorem uniform (none_ : store.countEndpointSecretsSealedWithOtherKeys store.cipher.activeKeyId = 0) (member : row ∈ store.endpoints) :
    row.secretEnvelope.keyId = store.cipher.activeKeyId ∧
      ∀ previous ∈ row.previousSecret, previous.envelope.keyId = store.cipher.activeKeyId := by
  have other := List.countP_eq_zero.mp none_ row member
  simp only [WebhookEndpoint.sealedOtherwise, Bool.or_eq_true, decide_eq_true_eq, Option.any_eq_true, not_or, not_not, not_exists,
    not_and] at other
  exact other

section
variable (sound : Sound aead allowed store)
include sound

/-- Other keys beside the active one may come and go while nothing is sealed with them. -/
theorem Sound.redeploy {cipher : ConnectionCipher Key}
    (none_ : store.countEndpointSecretsSealedWithOtherKeys store.cipher.activeKeyId = 0) (active : (cipher.key cipher.activeKeyId).isSome = true)
    (same : store.cipher.key store.cipher.activeKeyId = cipher.key store.cipher.activeKeyId) : Sound aead allowed { store with cipher := cipher } := by
  refine ⟨sound.distinct, active, ?_, sound.disclosed, sound.secrets⟩
  intro row member
  have kept := sound.rows row member
  obtain ⟨current, others⟩ := uniform none_ member
  change InStep aead cipher row (issued store.disclosed row.id)
  generalize issued store.disclosed row.id = secrets at kept ⊢
  obtain ⟨generation, opens, replaced⟩ := kept
  refine .mk generation ?_ ?_
  · rw [← opens]
    exact (open_congr (current.symm ▸ same)).symm
  · intro previous still
    obtain ⟨secret, head, was⟩ := replaced previous still
    refine ⟨secret, head, ?_⟩
    rw [← was]
    exact (open_congr ((others previous still).symm ▸ same)).symm

theorem Sound.introduce {keyId : Text} {key : Key} (done : store.introduceKey keyId key = .ok next) :
    Sound aead allowed next := by
  rw [WebhookStore.introduceKey] at done
  split at done
  · cases done
  · next active found =>
    split at done
    · cases done
    · next apart =>
      split at done
      · cases done
      · next uniform =>
        cases done
        apply sound.redeploy (not_not.mp uniform)
        · simp [ConnectionCipher.key, findAt]
        · simp [ConnectionCipher.key, findAt, apart, ← found]

theorem Sound.retire (done : store.retireKey = .ok next) : Sound aead allowed next := by
  rw [WebhookStore.retireKey] at done
  split at done
  · cases done
  · next active found =>
    split at done
    · cases done
    · next uniform =>
      cases done
      apply sound.redeploy (not_not.mp uniform)
      · simp [ConnectionCipher.key, findAt]
      · simp [ConnectionCipher.key, findAt, ← found]

theorem Sound.kept {done : Except String (WebhookStore Key)} (each : ∀ next, done = .ok next → Sound aead allowed next) :
    Sound aead allowed (kept store done) := by
  cases done with
  | error message => exact sound
  | ok next => exact each next rfl

theorem Sound.perform (step : SecretStep Key) (may : ∀ secret ∈ step.secrets, allowed secret) :
    Sound aead allowed (perform aead store step) := by
  cases step with
  | create input =>
    rw [WebhookSecrets.perform]
    split
    · exact sound
    · next fresh => exact sound.kept fun _ done => sound.create fresh (may _ List.mem_cons_self) done
  | delete projectId endpointId => exact sound.kept fun _ done => sound.delete done
  | rotate input => exact sound.kept fun _ done => sound.rotate (may _ List.mem_cons_self) done
  | forget => exact sound.forget
  | reseal picked nonces => exact sound.kept fun _ done => sound.reseal done
  | introduce keyId key => exact sound.kept fun _ done => sound.introduce done
  | retire => exact sound.kept fun _ done => sound.retire done
  | advance by_ => exact ⟨sound.distinct, sound.active, sound.rows, sound.disclosed, sound.secrets⟩

theorem Sound.run (steps : List (SecretStep Key)) (may : ∀ step ∈ steps, ∀ secret ∈ step.secrets, allowed secret) :
    Sound aead allowed (run aead store steps) := by
  induction steps generalizing store with
  | nil => exact sound
  | cons step rest ih =>
    obtain ⟨first, later⟩ := List.forall_mem_cons.mp may
    exact ih (sound.perform step first) later

end

private theorem sound_deployed (keyId : Text) (key : Key) (now : Int) : Sound aead allowed (deployed keyId key now) :=
  ⟨List.nodup_nil, by simp [deployed, ConnectionCipher.key, findAt], by simp [deployed], by simp [deployed], by simp [deployed]⟩

end Steps

/-- Whether the secret that a rotation replaced still signs. -/
def WebhookEndpoint.overlaps (row : WebhookEndpoint) (now : Int) : Bool :=
  row.previousSecret.any fun previous => decide (now < previous.expiresAt)

theorem InStep.signs {cipher : ConnectionCipher Key} {row : WebhookEndpoint} {secrets : List Text} (kept : InStep aead cipher row secrets)
    (now : Int) : row.secretGeneration = secrets.length ∧
      signingSecrets aead cipher row now = .ok (secrets.take (if row.overlaps now then 2 else 1)) := by
  obtain ⟨generation, opens, replaced⟩ := kept
  refine ⟨generation, ?_⟩
  have first : openSecret aead cipher row.secretEnvelope (row.scope row.secretGeneration) = .ok _ := opens
  rw [signingSecrets, WebhookEndpoint.claimedSecrets, List.mapM_cons, first, ok_bind]
  cases stored : row.previousSecret with
  | none =>
    have over_ : row.overlaps now = false := by simp [WebhookEndpoint.overlaps, stored]
    simp only [over_, Option.filter_none, Option.map_none, Option.toList_none, List.mapM_nil]
    rfl
  | some previous =>
    obtain ⟨secret, head, was⟩ := replaced previous stored
    obtain ⟨older, rfl⟩ := List.head?_eq_some_iff.mp head
    by_cases lasts : now < previous.expiresAt
    · have over_ : row.overlaps now = true := by simp [WebhookEndpoint.overlaps, stored, lasts]
      have second : openSecret aead cipher previous.envelope (row.scope (row.secretGeneration - 1)) = .ok secret := was
      simp only [over_, Option.filter_some, lasts, decide_true, if_true, Option.map_some, Option.toList_some, List.mapM_cons, second,
        ok_bind, List.mapM_nil]
      rfl
    · have over_ : row.overlaps now = false := by simp [WebhookEndpoint.overlaps, stored, lasts]
      simp only [over_, Option.filter_some, lasts, decide_false]
      rfl

theorem Reached.sound {allowed : Text → Prop} {store : WebhookStore Key} (reached : Reached aead allowed store) : Sound aead allowed store := by
  obtain ⟨keyId, key, now, steps, rfl, may⟩ := reached
  exact (sound_deployed keyId key now).run steps may

/-- The secrets that sign: the last one disclosed, and the one before it while its overlap lasts. -/
def WebhookStore.signing (store : WebhookStore Key) (row : WebhookEndpoint) : List Text :=
  (issued store.disclosed row.id).take (if row.overlaps store.now then 2 else 1)

theorem InStep.opens {cipher : ConnectionCipher Key} {row : WebhookEndpoint} {secrets : List Text} (kept : InStep aead cipher row secrets) :
    (∃ secret ∈ secrets[0]?, openSecret aead cipher row.secretEnvelope (row.scope row.secretGeneration) = .ok secret) ∧
      ∀ previous ∈ row.previousSecret, ∃ secret ∈ secrets[1]?,
        openSecret aead cipher previous.envelope (row.scope (row.secretGeneration - 1)) = .ok secret := by
  obtain ⟨-, opens, replaced⟩ := kept
  refine ⟨⟨_, rfl, opens⟩, fun previous stored => ?_⟩
  rw [List.getElem?_cons_succ, ← List.head?_eq_getElem?]
  exact replaced previous stored

def plainAead : Aead Unit where
  encrypt _ _ _ text := (text.map Char.toNat, List.replicate 16 0)
  decrypt _ _ _ sealed_ := some (sealed_.1.map Char.ofNat)
  tag_length _ _ _ _ := List.length_replicate
  decrypts _ _ _ text := by simp [Function.comp_def]

def zeros : Nonce := ⟨List.replicate 12 0, rfl⟩

/-- An endpoint whose secret is rotated after the deployment moved to another key, and re-sealed before the old one goes. -/
def rotation : List (SecretStep Unit) :=
  [.create ⟨['e'], ['p'], "whsec_a".toList, zeros, ['c'], ['h']⟩, .introduce ['n'] (),
    .rotate ⟨['p'], ['e'], "whsec_b".toList, zeros, 24, ['r']⟩, .reseal (fun _ => true) (fun _ => (zeros, zeros)), .retire, .advance 3600000]

def rotatedEndpoint : WebhookEndpoint where
  id := ['e']
  projectId := ['p']
  secretGeneration := 2
  secretEnvelope := ⟨['n'], zeros, List.replicate 16 0, "whsec_b".toList.map Char.toNat⟩
  previousSecret := some ⟨⟨['n'], zeros, List.replicate 16 0, "whsec_a".toList.map Char.toNat⟩, 86400000⟩
  rotationKey := some ['r']
  idempotencyKey := ['c']
  requestHash := ['h']

def rotatedStore : WebhookStore Unit := run plainAead (deployed ['o'] () 0) rotation

private theorem rotated_member : rotatedEndpoint ∈ rotatedStore.endpoints := by decide

private theorem rotation_signs : signingSecrets plainAead rotatedStore.cipher rotatedEndpoint rotatedStore.now =
    .ok ["whsec_b".toList, "whsec_a".toList] := rfl

private theorem rotated_reached : Reached plainAead (fun _ => True) rotatedStore := ⟨_, _, _, rotation, rfl, fun _ _ _ _ => trivial⟩

section Signatures
variable {hmac : Hmac} {secret webhookId timestamp body : Text} {secrets : List Text}

/-- A secret as `generateWebhookSecret` makes them. -/
def Generated (hmac : Hmac) (secret : Text) : Prop :=
  ∃ key, secret = webhookSecretPrefix ++ key ∧ hmac.keyed key = true

def mark : Text := "v1,".toList

def digestOf (hmac : Hmac) (webhookId timestamp body secret : Text) : Text :=
  hmac.digest (secret.drop webhookSecretPrefix.length) (webhookId ++ '.' :: timestamp ++ '.' :: body)

private theorem mark_unspaced : ' ' ∉ mark ++ digestOf hmac webhookId timestamp body secret := by
  intro spaced
  rcases List.mem_append.mp spaced with marked | digest
  · revert marked
    decide
  · exact hmac.unspaced _ _ digest

private theorem signature_generated (generated : Generated hmac secret) :
    signature hmac secret webhookId timestamp body = .ok (mark ++ digestOf hmac webhookId timestamp body secret) := by
  obtain ⟨key, rfl, keyed⟩ := generated
  have starts : webhookSecretPrefix.isPrefixOf (webhookSecretPrefix ++ key) = true := by simp
  simp only [signature, secretKey, starts, not_true_eq_false, if_false, List.drop_left, keyed, if_true, ok_bind, digestOf, mark]

private theorem digitsNumber_toDigits (number : Nat) : digitsNumber (Nat.toDigits 10 number) = some number := by
  have digits : (Nat.toDigits 10 number).takeWhile Char.isDigit = Nat.toDigits 10 number :=
    List.takeWhile_eq_self_iff.mpr fun _ => Json.toDigits_digit
  have some_ : (Nat.toDigits 10 number).isEmpty = false := List.isEmpty_eq_false_iff.mpr Nat.toDigits_ne_nil
  simp only [digitsNumber, digits, some_]
  rw [Nat.ofDigitChars_toDigits (by omega) (by omega)]
  rfl

private theorem parseInt_integerText (value : Int) : parseInt (integerText value) = some value := by
  rw [integerText]
  split
  · next negative =>
    rw [parseInt, digitsNumber_toDigits, Option.map_some]
    congr 1
    omega
  · next positive =>
    have number := digitsNumber_toDigits value.natAbs
    have digits : ∀ character ∈ Nat.toDigits 10 value.natAbs, character.isDigit = true := fun _ => Json.toDigits_digit
    generalize Nat.toDigits 10 value.natAbs = text at number digits
    have value_ : (value.natAbs : Int) = value := by omega
    have plain : parseInt text = (digitsNumber text).map fun number : Nat => (number : Int) := by
      rw [parseInt.eq_def]
      split
      · exact absurd (digits '-' List.mem_cons_self) (by decide)
      · exact absurd (digits '+' List.mem_cons_self) (by decide)
      · rfl
    rw [plain, number, Option.map_some, value_]

private theorem headers_exist {sentAt : Int} (generated : ∀ secret ∈ secrets, Generated hmac secret) (some_ : secrets ≠ []) :
    createWebhookHeaders hmac webhookId body secrets sentAt = .ok ⟨webhookId, integerText (sentAt / 1000),
      [' '].intercalate (secrets.map fun secret => mark ++ digestOf hmac webhookId (integerText (sentAt / 1000)) body secret)⟩ := by
  have signatures : secrets.mapM (fun secret => signature hmac secret webhookId (integerText (sentAt / 1000)) body) = .ok _ :=
    mapM_eq fun secret member => signature_generated (generated secret member)
  simp only [createWebhookHeaders, if_neg some_, signatures, ok_bind]

/-- A receiver verifies a delivery just when it comes in time and one of the secrets that signed it gives the digest of its own. -/
private theorem verifies_iff {sentAt receivedAt tolerance : Int} {headers : WebhookHeaders} (generated : ∀ secret ∈ secrets, Generated hmac secret)
    (made : createWebhookHeaders hmac webhookId body secrets sentAt = .ok headers) (known : Generated hmac secret) :
    verifyWebhookSignature hmac secret body headers.webhookId headers.webhookTimestamp headers.webhookSignature receivedAt tolerance = true ↔
      ((sentAt / 1000).natAbs ≤ maxSafeInteger ∧ |receivedAt - 1000 * (sentAt / 1000)| ≤ 1000 * tolerance) ∧
        ∃ other ∈ secrets, digestOf hmac webhookId headers.webhookTimestamp body other =
          digestOf hmac webhookId headers.webhookTimestamp body secret := by
  have some_ : secrets ≠ [] := by
    rintro rfl
    cases made
  obtain rfl := Except.ok.inj ((headers_exist generated some_).symm.trans made)
  have apart : ∀ text ∈ secrets.map fun secret => mark ++ digestOf hmac webhookId (integerText (sentAt / 1000)) body secret, ' ' ∉ text := by
    intro text member
    obtain ⟨secret, -, rfl⟩ := List.mem_map.mp member
    exact mark_unspaced
  have split_ := List.splitOn_intercalate ' ' apart (by simpa using some_)
  have all : ∀ text ∈ secrets.map fun secret => mark ++ digestOf hmac webhookId (integerText (sentAt / 1000)) body secret,
      "v1,".toList.isPrefixOf text = true := by
    intro text member
    obtain ⟨secret, -, rfl⟩ := List.mem_map.mp member
    rw [List.isPrefixOf_iff_prefix]
    exact List.prefix_append _ _
  simp only [verifyWebhookSignature, parseInt_integerText, signature_generated known, split_, List.filter_eq_self.mpr all, Bool.and_eq_true,
    decide_eq_true_eq, and_true, List.any_eq_true, List.mem_map, beq_iff_eq]
  refine and_congr_right fun _ => ⟨?_, ?_⟩
  · rintro ⟨_, ⟨other, member, rfl⟩, same⟩
    exact ⟨other, member, List.append_cancel_left same⟩
  · rintro ⟨other, member, same⟩
    exact ⟨_, ⟨other, member, rfl⟩, by rw [same]⟩

end Signatures

private theorem issued_allowed {allowed : Text → Prop} {disclosed : List Disclosure} (secrets : ∀ disclosure ∈ disclosed, allowed disclosure.secret)
    (endpointId : Text) : ∀ secret ∈ issued disclosed endpointId, allowed secret := by
  intro secret member
  obtain ⟨disclosure, inside, rfl⟩ := List.mem_map.mp member
  exact secrets disclosure (List.mem_of_mem_filter inside)

/-- Digests that are the key itself, but for spaces. -/
def keyDigests : Hmac where
  digest key _ := key.filter fun character => decide (character ≠ ' ')
  keyed key := !key.isEmpty
  unspaced key _ spaced := by simpa using (List.mem_filter.mp spaced).2

private theorem rotation_generated : Reached plainAead (Generated keyDigests) rotatedStore := by
  have first : Generated keyDigests "whsec_a".toList := ⟨['a'], rfl, rfl⟩
  have second : Generated keyDigests "whsec_b".toList := ⟨['b'], rfl, rfl⟩
  refine ⟨_, _, _, rotation, rfl, ?_⟩
  simpa [rotation, SecretStep.secrets] using ⟨first, second⟩

end Quotum.WebhookSecrets
