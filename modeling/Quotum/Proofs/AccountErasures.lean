import Quotum.AccountErasures

/-! An erased account id stays away: what one statement of a creation or an erasure keeps, under the locks of the others. -/

namespace Quotum.AccountErasures
open General

variable {Digest : Type} (configuration : ErasureConfiguration Digest) (subject : Nat × AccountId) {customerId : Nat}

/-- What holds of the accounts in any interleaving. -/
structure Sound (store : AccountStore Digest) : Prop where
  ids : store.customers.map CustomerRow.id = List.range store.customers.length
  alone : ∀ first ∈ store.customers, ∀ second ∈ store.customers, first.projectId = second.projectId →
    first.billingAccountId = second.billingAccountId → first.id = second.id
  drawn : ∀ customer ∈ store.customers, store.speakable customer.billingAccountId = true
  spoken : ∀ erasure ∈ store.erasures, store.speakable erasure.subjectId = true
  gone : store.ErasedGone subject
  buried : ∀ erasure ∈ store.erasures, store.clock < erasure.tombstoneExpiresAt → ∃ keyring, configuration.keyring = some keyring ∧
    ∃ tombstone ∈ store.tombstones, tombstone.projectId = erasure.projectId ∧ tombstone.expiresAt = erasure.tombstoneExpiresAt ∧
      tombstone.keyId = keyring.current.id ∧
      tombstone.idDigest = configuration.erasureDigest keyring.current erasure.projectId erasure.subjectId

/-- What a call knows of the accounts from its earlier statements. -/
def Knows (store : AccountStore Digest) (session : AccountSession) : Prop :=
  session.startedAt ≤ store.clock ∧ store.speakable session.billingAccountId = true ∧
    match session.stage with
    | .checked seen => seen ≤ store.erasures.length ∧
        ∀ erasure ∈ store.erasures.take seen, session.names erasure → erasure.tombstoneExpiresAt ≤ store.clock
    | .inserted => (∀ row ∈ store.customers, row.projectId = session.projectId → row.billingAccountId ≠ session.billingAccountId) ∧
        ∀ erasure ∈ store.erasures, erasure.subject = subject → session.names erasure → erasure.tombstoneExpiresAt ≤ store.clock
    | .updated customerId | .locked customerId | .frozen customerId => ∃ row ∈ store.customers, row.id = customerId ∧
        row.projectId = session.projectId ∧ row.billingAccountId = session.billingAccountId
    | _ => True

structure Changes (holder : AccountLock Digest → Prop) (before after : AccountStore Digest) : Prop where
  clock : before.clock ≤ after.clock
  rows : ∀ row ∈ before.customers, ¬ holder (.row row.id) → ∃ later ∈ after.customers, later.id = row.id ∧
    later.projectId = row.projectId ∧ later.billingAccountId = row.billingAccountId
  entries : ∀ row ∈ after.customers, (∃ earlier ∈ before.customers, earlier.projectId = row.projectId ∧
    earlier.billingAccountId = row.billingAccountId) ∨ holder (.entry row.projectId row.billingAccountId) ∨
      before.speakable row.billingAccountId = false
  erasures : ∃ added, after.erasures = before.erasures ++ added ∧ ∀ erasure ∈ added,
    holder (.entry erasure.projectId erasure.subjectId)

section Stores
variable {configuration subject} {holder : AccountLock Digest → Prop} {store before after : AccountStore Digest} {session : AccountSession}
  {account : AccountId} {projectId : Nat}

theorem changes_refl (store : AccountStore Digest) : Changes holder store store :=
  ⟨le_rfl, fun row member _ => ⟨row, member, rfl, rfl, rfl⟩, fun row member => .inl ⟨row, member, rfl, rfl⟩,
    [], (List.append_nil _).symm, fun _ none => nomatch none⟩

private theorem speakable_grows (fewer : before.erasures.length ≤ after.erasures.length)
    (known : before.speakable account = true) : after.speakable account = true := by
  cases account with
  | named id => rfl
  | erased erasureId =>
    simp only [AccountStore.speakable, decide_eq_true_eq] at known ⊢
    omega

theorem Changes.speakable (changes : Changes holder before after) (known : before.speakable account = true) :
    after.speakable account = true := by
  obtain ⟨added, appended, -⟩ := changes.erasures
  apply speakable_grows _ known
  rw [appended, List.length_append]
  exact Nat.le_add_right _ _

theorem Changes.standing (changes : Changes holder before after) (apart : ¬ holder (.row customerId))
    (stands : ∃ row ∈ before.customers, row.id = customerId ∧ row.projectId = projectId ∧ row.billingAccountId = account) :
    ∃ row ∈ after.customers, row.id = customerId ∧ row.projectId = projectId ∧ row.billingAccountId = account := by
  obtain ⟨row, inside, rfl, project, same⟩ := stands
  obtain ⟨later, there, sameRow, sameProject, sameAccount⟩ := changes.rows row inside apart
  exact ⟨later, there, sameRow, sameProject.trans project, sameAccount.trans same⟩

theorem Changes.knows (changes : Changes holder before after) (knows : Knows subject before session)
    (apart : ∀ lock ∈ session.locks configuration, ¬ holder lock) : Knows subject after session := by
  obtain ⟨projectId, account, call, startedAt, stage⟩ := session
  obtain ⟨began, known, knows⟩ := knows
  obtain ⟨added, appended, taken⟩ := changes.erasures
  have later := changes.clock
  refine ⟨began.trans later, changes.speakable known, ?_⟩
  cases stage with
  | checked seen =>
    obtain ⟨earlier, dead⟩ := knows
    refine ⟨?_, ?_⟩
    · rw [appended, List.length_append]
      exact earlier.trans (Nat.le_add_right _ _)
    · rw [appended, List.take_append_of_le_length earlier]
      exact fun erasure member names => (dead erasure member names).trans later
  | inserted =>
    obtain ⟨none, dead⟩ := knows
    have free : ¬ holder (.entry projectId account) := apart _ (by simp [AccountSession.locks])
    refine ⟨?_, ?_⟩
    · intro row member project same
      rcases changes.entries row member with ⟨old, inside, oldProject, oldAccount⟩ | held | unspoken
      · exact none old inside (oldProject.trans project) (oldAccount.trans same)
      · rw [project, same] at held
        exact free held
      · rw [same] at unspoken
        exact absurd known (Bool.eq_false_iff.mp unspoken)
    · intro erasure member mine names
      rw [appended] at member
      rcases List.mem_append.mp member with old | new
      · exact (dead erasure old mine names).trans later
      · have held := taken erasure new
        rw [← names.1, ← names.2] at held
        exact absurd held free
  | updated customerId => exact changes.standing (apart _ (by simp [AccountSession.locks])) knows
  | locked customerId => exact changes.standing (apart _ (by simp [AccountSession.locks])) knows
  | frozen customerId => exact changes.standing (apart _ (by simp [AccountSession.locks])) knows
  | begun | conflicted | missing | unclaimed | abandoned => trivial
  | seeking customerId => trivial
  | answered answer => trivial

private theorem findAccount_some {row : CustomerRow} (found : store.findAccount projectId account = some row) :
    row ∈ store.customers ∧ row.projectId = projectId ∧ row.billingAccountId = account := by
  have names := List.find?_some found
  rw [Bool.and_eq_true, beq_iff_eq, beq_iff_eq] at names
  exact ⟨List.mem_of_find?_eq_some found, names⟩

private theorem findAccount_none (absent : store.findAccount projectId account = none) :
    ∀ row ∈ store.customers, row.projectId = projectId → row.billingAccountId ≠ account := by
  intro row member project same
  have apart := List.find?_eq_none.mp absent row member
  simp [project, same] at apart

theorem Sound.absent (sound : Sound configuration subject store) {erasure : ErasureRow Digest} (member : erasure ∈ store.erasures)
    (mine : erasure.subject = subject) (live : store.clock < erasure.tombstoneExpiresAt) :
    store.findAccount erasure.projectId erasure.subjectId = none := by
  cases found : store.findAccount erasure.projectId erasure.subjectId with
  | none => rfl
  | some row =>
    obtain ⟨inside, project, same⟩ := findAccount_some found
    exact absurd same (sound.gone erasure member mine live row inside project)

variable (configuration subject) in
/-- A step that no session takes under locks keeps the accounts. -/
structure Effect (holder : AccountLock Digest → Prop) (before after : AccountStore Digest) : Prop where
  sound : Sound configuration subject after
  changes : Changes holder before after

variable (sound : Sound configuration subject store)
include sound

theorem Sound.inserted (known : store.speakable session.billingAccountId = true)
    (free : ∀ row ∈ store.customers, row.projectId = session.projectId → row.billingAccountId ≠ session.billingAccountId)
    (dead : ∀ erasure ∈ store.erasures, erasure.subject = subject → session.names erasure → erasure.tombstoneExpiresAt ≤ store.clock)
    (held : holder (.entry session.projectId session.billingAccountId)) (email : Option Text) :
    Effect configuration subject holder store (store.insertCustomer session email) := by
  have either {row : CustomerRow} (member : row ∈ (store.insertCustomer session email).customers) :
      row ∈ store.customers ∨ row.id = store.customers.length ∧ row.projectId = session.projectId ∧
        row.billingAccountId = session.billingAccountId := by
    rcases List.mem_append.mp member with old | new
    · exact .inl old
    · rw [List.mem_singleton.mp new]
      exact .inr ⟨rfl, rfl, rfl⟩
  refine ⟨⟨?_, ?_, ?_, sound.spoken, ?_, sound.buried⟩, ⟨le_rfl, ?_, ?_, [], (List.append_nil _).symm, fun _ none => nomatch none⟩⟩
  · simp only [AccountStore.insertCustomer, List.map_append, List.map_cons, List.map_nil, sound.ids, List.length_append,
      List.length_singleton, List.range_succ]
  · intro first firstMember second secondMember project same
    rcases either firstMember with one | ⟨oneId, oneProject, oneAccount⟩ <;>
      rcases either secondMember with other | ⟨otherId, otherProject, otherAccount⟩
    · exact sound.alone first one second other project same
    · exact absurd (same.trans otherAccount) (free first one (project.trans otherProject))
    · exact absurd (same.symm.trans oneAccount) (free second other (project.symm.trans oneProject))
    · exact oneId.trans otherId.symm
  · intro row member
    rcases either member with old | ⟨-, -, same⟩
    · exact sound.drawn row old
    · rw [same]
      exact known
  · intro erasure member mine live row inside project same
    rcases either inside with old | ⟨-, rowProject, rowAccount⟩
    · exact sound.gone erasure member mine live row old project same
    · have := dead erasure member mine ⟨rowProject.symm.trans project, rowAccount.symm.trans same⟩
      exact absurd live (not_lt.mpr this)
  · intro row member _
    exact ⟨row, List.mem_append_left _ member, rfl, rfl, rfl⟩
  · intro row member
    rcases either member with old | ⟨-, project, same⟩
    · exact .inl ⟨row, old, rfl, rfl⟩
    · rw [project, same]
      exact .inr (.inl held)

theorem Sound.updated (customerId : Nat) (email : Option Text) :
    Effect configuration subject holder store (store.updateCustomer customerId session email) := by
  let edit (row : CustomerRow) : CustomerRow := { row with email := email <|> row.email, updatedAt := session.startedAt }
  have same : (store.updateCustomer customerId session email).customers = updateAt CustomerRow.id customerId edit store.customers := rfl
  have old : ∀ row ∈ (store.updateCustomer customerId session email).customers, ∃ earlier ∈ store.customers, row.id = earlier.id ∧
      row.projectId = earlier.projectId ∧ row.billingAccountId = earlier.billingAccountId := by
    intro row member
    obtain ⟨earlier, inside, ⟨-, rfl⟩ | ⟨-, rfl⟩⟩ := mem_updateAt.mp member
    · exact ⟨earlier, inside, rfl, rfl, rfl⟩
    · exact ⟨_, inside, rfl, rfl, rfl⟩
  refine ⟨⟨?_, ?_, ?_, sound.spoken, ?_, sound.buried⟩, ⟨le_rfl, ?_, ?_, [], (List.append_nil _).symm, fun _ none => nomatch none⟩⟩
  · have kept : ∀ row, CustomerRow.id (edit row) = row.id := fun _ => rfl
    rw [same, updateAt_keys kept, updateAt, List.length_map, sound.ids]
  · intro first firstMember second secondMember project account
    obtain ⟨one, oneInside, oneId, oneProject, oneAccount⟩ := old first firstMember
    obtain ⟨other, otherInside, otherId, otherProject, otherAccount⟩ := old second secondMember
    rw [oneId, otherId]
    exact sound.alone one oneInside other otherInside (oneProject.symm.trans (project.trans otherProject))
      (oneAccount.symm.trans (account.trans otherAccount))
  · intro row member
    obtain ⟨earlier, inside, -, -, account⟩ := old row member
    rw [account]
    exact sound.drawn earlier inside
  · intro erasure member mine live row inside project account
    obtain ⟨earlier, earlierInside, -, rowProject, rowAccount⟩ := old row inside
    exact sound.gone erasure member mine live earlier earlierInside (rowProject.symm.trans project) (rowAccount.symm.trans account)
  · intro row member _
    by_cases here : row.id = customerId
    · exact ⟨edit row, mem_updateAt.mpr ⟨row, member, .inl ⟨here, rfl⟩⟩, rfl, rfl, rfl⟩
    · exact ⟨row, mem_updateAt.mpr ⟨row, member, .inr ⟨here, rfl⟩⟩, rfl, rfl, rfl⟩
  · intro row member
    obtain ⟨earlier, inside, -, project, account⟩ := old row member
    exact .inl ⟨earlier, inside, project.symm, account.symm⟩

theorem Sound.erased {keyring : ErasureKeyring} (configured : configuration.keyring = some keyring)
    (known : store.speakable session.billingAccountId = true)
    (stands : ∃ row ∈ store.customers, row.id = customerId ∧ row.projectId = session.projectId ∧
      row.billingAccountId = session.billingAccountId)
    (row : holder (.row customerId)) (entry : holder (.entry session.projectId session.billingAccountId)) (input : CustomerErasureInput) :
    Effect configuration subject holder store (store.eraseCustomer configuration customerId session input keyring.current) := by
  obtain ⟨erased, erasedInside, erasedId, erasedProject, erasedAccount⟩ := stands
  have old : ∀ row ∈ (store.eraseCustomer configuration customerId session input keyring.current).customers,
      (row.id = customerId ∧ row.billingAccountId = .erased store.erasures.length) ∨ row ∈ store.customers ∧ row.id ≠ customerId := by
    intro row member
    obtain ⟨earlier, inside, ⟨here, rfl⟩ | ⟨apart, rfl⟩⟩ := mem_updateAt.mp member
    · exact .inl ⟨here, rfl⟩
    · exact .inr ⟨inside, apart⟩
  have stub : store.speakable (.erased store.erasures.length) = false := by simp [AccountStore.speakable]
  have grows {account : AccountId} (spoken : store.speakable account = true) :
      (store.eraseCustomer configuration customerId session input keyring.current).speakable account = true := by
    apply speakable_grows _ spoken
    simp only [AccountStore.eraseCustomer, List.length_append]
    exact Nat.le_add_right _ _
  have fresh {account : AccountId} (spoken : store.speakable account = true) : account ≠ .erased store.erasures.length := by
    rintro rfl
    rw [spoken] at stub
    cases stub
  refine ⟨⟨?_, ?_, ?_, ?_, ?_, ?_⟩, ⟨le_rfl, ?_, ?_, ?_⟩⟩
  · have kept : ∀ row, CustomerRow.id (AccountStore.anonymized store.erasures.length session.startedAt row) = row.id := fun _ => rfl
    simp only [AccountStore.eraseCustomer]
    rw [updateAt_keys kept, updateAt, List.length_map, sound.ids]
  · intro first firstMember second secondMember project account
    rcases old first firstMember with ⟨oneId, oneAccount⟩ | ⟨one, -⟩ <;>
      rcases old second secondMember with ⟨otherId, otherAccount⟩ | ⟨other, -⟩
    · exact oneId.trans otherId.symm
    · exact absurd (account.symm.trans oneAccount) (fresh (sound.drawn second other))
    · exact absurd (account.trans otherAccount) (fresh (sound.drawn first one))
    · exact sound.alone first one second other project account
  · intro row member
    rcases old row member with ⟨-, account⟩ | ⟨inside, -⟩
    · rw [account]
      simp [AccountStore.speakable, AccountStore.eraseCustomer]
    · exact grows (sound.drawn row inside)
  · intro erasure member
    rcases List.mem_append.mp member with earlier | new
    · exact grows (sound.spoken erasure earlier)
    · rw [List.mem_singleton.mp new]
      exact grows known
  · intro erasure member mine live row inside project account
    rcases List.mem_append.mp member with earlier | new
    · rcases old row inside with ⟨-, stubbed⟩ | ⟨kept, -⟩
      · exact fresh (sound.spoken erasure earlier) (account.symm.trans stubbed)
      · exact sound.gone erasure earlier mine live row kept project account
    · obtain rfl := List.mem_singleton.mp new
      rcases old row inside with ⟨-, stubbed⟩ | ⟨kept, apart⟩
      · exact fresh known (account.symm.trans stubbed)
      · apply apart
        rw [← erasedId]
        exact sound.alone row kept erased erasedInside (project.trans erasedProject.symm) (account.trans erasedAccount.symm)
  · intro erasure member live
    rcases List.mem_append.mp member with earlier | new
    · obtain ⟨ring, isRing, tombstone, inside, rest⟩ := sound.buried erasure earlier live
      exact ⟨ring, isRing, tombstone, List.mem_append_left _ inside, rest⟩
    · obtain rfl := List.mem_singleton.mp new
      exact ⟨keyring, configured, _, List.mem_append_right _ (List.mem_singleton_self _), rfl, rfl, rfl, rfl⟩
  · intro other member apart
    have elsewhere : other.id ≠ customerId := by
      rintro rfl
      exact apart row
    exact ⟨other, mem_updateAt.mpr ⟨other, member, .inr ⟨elsewhere, rfl⟩⟩, rfl, rfl, rfl⟩
  · intro other member
    rcases old other member with ⟨-, account⟩ | ⟨inside, -⟩
    · rw [account]
      exact .inr (.inr stub)
    · exact .inl ⟨other, inside, rfl, rfl⟩
  · refine ⟨_, rfl, ?_⟩
    intro erasure new
    rw [List.mem_singleton.mp new]
    exact entry

theorem Sound.waits (elapsed : Nat) :
    Effect configuration subject holder store { store with clock := store.clock + elapsed } := by
  have later : store.clock ≤ store.clock + elapsed := Int.le_add_of_nonneg_right (Int.natCast_nonneg elapsed)
  refine ⟨⟨sound.ids, sound.alone, sound.drawn, sound.spoken, ?_, ?_⟩, ⟨later, ?_, ?_, [], (List.append_nil _).symm, fun _ none => nomatch none⟩⟩
  · exact fun erasure member mine live => sound.gone erasure member mine (later.trans_lt live)
  · exact fun erasure member live => sound.buried erasure member (later.trans_lt live)
  · exact fun row member _ => ⟨row, member, rfl, rfl, rfl⟩
  · exact fun row member => .inl ⟨row, member, rfl, rfl⟩

theorem Sound.swept (erasureId : Nat) :
    Effect configuration subject holder store { store with
      tombstones := store.tombstones.filter fun tombstone =>
        !(tombstone.erasureId == erasureId && decide (tombstone.expiresAt < store.clock - dayMillis)) } := by
  refine ⟨⟨sound.ids, sound.alone, sound.drawn, sound.spoken, sound.gone, ?_⟩, ⟨le_rfl, ?_, ?_, [], (List.append_nil _).symm,
    fun _ none => nomatch none⟩⟩
  · intro erasure member live
    obtain ⟨keyring, configured, tombstone, inside, project, expires, rest⟩ := sound.buried erasure member live
    refine ⟨keyring, configured, tombstone, List.mem_filter.mpr ⟨inside, ?_⟩, project, expires, rest⟩
    have runs : store.clock < erasure.tombstoneExpiresAt := live
    have kept : ¬ tombstone.expiresAt < store.clock - dayMillis := by
      rw [expires, dayMillis]
      omega
    simp [kept]
  · exact fun row member _ => ⟨row, member, rfl, rfl, rfl⟩
  · exact fun row member => .inl ⟨row, member, rfl, rfl⟩

end Stores

def accountRules : Discipline (AccountStore Digest) AccountSession (AccountLock Digest) where
  locks := AccountSession.locks configuration
  valid := Sound configuration subject
  knows := Knows subject
  changes := Changes
  stable := fun changes knows apart => changes.knows knows apart

section Tombstones
variable [DecidableEq Digest] {configuration subject} {store : AccountStore Digest} {erasure : ErasureRow Digest}

theorem Sound.refuses (sound : Sound configuration subject store) (member : erasure ∈ store.erasures)
    (live : store.clock < erasure.tombstoneExpiresAt) {now : Int} (began : now ≤ store.clock) :
    notErased configuration store now erasure.projectId erasure.subjectId = false := by
  obtain ⟨keyring, configured, tombstone, inside, project, expires, key, digest⟩ := sound.buried erasure member live
  rw [notErased, Bool.not_eq_false', List.any_eq_true]
  refine ⟨tombstone, inside, ?_⟩
  simp only [Bool.and_eq_true, beq_iff_eq, decide_eq_true_eq, List.contains_iff_mem]
  refine ⟨⟨project, by omega⟩, ?_⟩
  rw [key, digest]
  simp [erasureDigests, configured]

theorem Sound.passed (sound : Sound configuration subject store) {session : AccountSession} (began : session.startedAt ≤ store.clock)
    (passed : notErased configuration store session.startedAt session.projectId session.billingAccountId = true) :
    ∀ erasure ∈ store.erasures, session.names erasure → erasure.tombstoneExpiresAt ≤ store.clock := by
  intro erasure member names
  by_contra live
  have refused := sound.refuses member (not_le.mp live) began
  rw [← names.1, ← names.2, passed] at refused
  cases refused

/-- An account that was not found is answered by its tombstone. -/
private theorem missing_statement (admitted : Bool) (projectId : Nat) (account : AccountId) (call : AccountCall) (startedAt : Int) :
    accountStatement configuration admitted store ⟨projectId, account, call, startedAt, .missing⟩ =
      (store, .answered (if notErased configuration store startedAt projectId account then .billingAccountNotFound
        else .billingAccountErased)) := by
  cases call <;> rfl

variable (configuration subject store)

/-- The rules are kept where a session's statement leaves the store as `after` and comes to `next`. -/
abbrev Stated (session : AccountSession) (after : AccountStore Digest) (next : CallStage) : Prop :=
  (accountRules configuration subject).Statement (session.wanted configuration store) store session after { session with stage := next }

abbrev StatementKeeps (admitted : Bool) (session : AccountSession) : Prop :=
  Stated configuration subject store session (accountStatement configuration admitted store session).1
    (accountStatement configuration admitted store session).2

variable {configuration subject store} {served : ServedAccounts Digest} {after : AccountStore Digest} {answer : AccountAnswer}

section Statements
omit [DecidableEq Digest]
variable {session : AccountSession} (sound : Sound configuration subject store)
include sound

private theorem stated_kept {next : CallStage} (knowing : Knows subject store { session with stage := next })
    (locks : ∀ lock ∈ AccountSession.locks configuration { session with stage := next },
      lock ∈ session.locks configuration ∨ lock ∈ session.wanted configuration store) :
    Stated configuration subject store session store next :=
  ⟨sound, knowing, changes_refl store, locks⟩

variable (knows : Knows subject store session)
include knows

private theorem stated_stays : Stated configuration subject store session store session.stage :=
  stated_kept sound knows fun _ held => .inl held

private theorem stated_answers (answer : AccountAnswer) : Stated configuration subject store session store (.answered answer) :=
  stated_kept sound ⟨knows.1, knows.2.1, trivial⟩ fun _ none => nomatch none

omit sound in
private theorem stated_writes (effect : Effect configuration subject
    (fun lock => lock ∈ session.locks configuration ∨ lock ∈ session.wanted configuration store) store after) :
    Stated configuration subject store session after (.answered answer) :=
  ⟨effect.sound, ⟨knows.1.trans effect.changes.clock, effect.changes.speakable knows.2.1, trivial⟩, effect.changes,
    fun _ none => nomatch none⟩

end Statements

private theorem stated_checks (sound : Sound configuration subject store) {session : AccountSession} (knows : Knows subject store session) :
    Stated configuration subject store session store
      (if notErased configuration store session.startedAt session.projectId session.billingAccountId
        then .checked store.erasures.length else .answered .billingAccountErased) := by
  by_cases passed : notErased configuration store session.startedAt session.projectId session.billingAccountId = true
  · rw [if_pos passed]
    refine stated_kept sound ⟨knows.1, knows.2.1, le_rfl, ?_⟩ fun _ none => nomatch none
    rw [List.take_length]
    exact sound.passed knows.1 passed
  · rw [if_neg passed]
    exact stated_answers sound knows .billingAccountErased

section Stages
variable {projectId : Nat} {account : AccountId} {call : AccountCall} {startedAt : Int} (admitted : Bool)
  (sound : Sound configuration subject store)
include sound

private theorem begun_keeps (knows : Knows subject store ⟨projectId, account, call, startedAt, .begun⟩) :
    StatementKeeps configuration subject store admitted ⟨projectId, account, call, startedAt, .begun⟩ := by
  cases call with
  | ensureCustomer email => exact stated_checks sound knows
  | create => exact stated_checks sound knows
  | get =>
    simp only [StatementKeeps, accountStatement]
    split <;> exact stated_answers sound knows _
  | resolveUsageCustomer =>
    simp only [StatementKeeps, accountStatement]
    split
    · exact stated_answers sound knows _
    · exact stated_kept sound ⟨knows.1, knows.2.1, trivial⟩ fun _ none => nomatch none
  | requestCustomerErasure input =>
    simp only [StatementKeeps, accountStatement]
    split
    · exact stated_answers sound knows _
    · split
      · exact stated_kept sound ⟨knows.1, knows.2.1, trivial⟩ fun _ none => nomatch none
      · exact stated_answers sound knows _

private theorem checked_keeps {seen : Nat} (knows : Knows subject store ⟨projectId, account, call, startedAt, .checked seen⟩)
    (ahead : (projectId, account) = subject →
      AccountSession.overtaken store ⟨projectId, account, call, startedAt, .checked seen⟩ = false) :
    StatementKeeps configuration subject store admitted ⟨projectId, account, call, startedAt, .checked seen⟩ := by
  obtain ⟨began, known, within, earlier⟩ := knows
  have dead : ∀ erasure ∈ store.erasures, erasure.subject = subject → projectId = erasure.projectId ∧ account = erasure.subjectId →
      erasure.tombstoneExpiresAt ≤ store.clock := by
    intro erasure member mine names
    rw [← List.take_append_drop seen store.erasures] at member
    rcases List.mem_append.mp member with before | after
    · exact earlier erasure before names
    · by_contra live
      refine absurd (List.any_eq_true.mpr ⟨erasure, after, ?_⟩) (Bool.eq_false_iff.mp (ahead (by rw [names.1, names.2, ← mine]; rfl)))
      exact decide_eq_true ⟨names, not_le.mp live⟩
  cases call with
  | ensureCustomer email =>
    simp only [StatementKeeps, accountStatement]
    split
    · next row found =>
      refine stated_kept sound ⟨began, known, row, (findAccount_some found).1, rfl, (findAccount_some found).2⟩ fun lock held => .inr ?_
      simpa [AccountSession.locks, AccountSession.wanted, found] using held
    · next absent =>
      refine stated_kept sound ⟨began, known, findAccount_none absent, dead⟩ fun lock held => .inr ?_
      simpa [AccountSession.locks, AccountSession.wanted, absent] using held
  | create =>
    simp only [StatementKeeps, accountStatement]
    split
    · exact stated_kept sound ⟨began, known, trivial⟩ fun _ none => nomatch none
    · next absent =>
      refine stated_kept sound ⟨began, known, findAccount_none absent, dead⟩ fun lock held => .inr ?_
      simpa [AccountSession.locks, AccountSession.wanted] using held
  | get | resolveUsageCustomer | requestCustomerErasure => exact stated_stays sound ⟨began, known, within, earlier⟩

private theorem inserted_keeps (knows : Knows subject store ⟨projectId, account, call, startedAt, .inserted⟩) :
    StatementKeeps configuration subject store admitted ⟨projectId, account, call, startedAt, .inserted⟩ := by
  obtain ⟨known, free, dead⟩ := knows.2
  have writing (email : Option Text) := @Sound.inserted _ configuration subject
    (fun lock => lock ∈ AccountSession.locks configuration ⟨projectId, account, call, startedAt, .inserted⟩ ∨
      lock ∈ AccountSession.wanted configuration store ⟨projectId, account, call, startedAt, .inserted⟩) store
    ⟨projectId, account, call, startedAt, .inserted⟩ sound known free dead (.inl (by simp [AccountSession.locks])) email
  cases call with
  | ensureCustomer email => exact stated_writes knows (writing email)
  | create => exact stated_writes knows (writing none)
  | get | resolveUsageCustomer | requestCustomerErasure => exact stated_stays sound knows

private theorem seeking_keeps (knows : Knows subject store ⟨projectId, account, call, startedAt, .seeking customerId⟩) :
    StatementKeeps configuration subject store admitted ⟨projectId, account, call, startedAt, .seeking customerId⟩ := by
  cases call with
  | requestCustomerErasure input =>
    simp only [StatementKeeps, accountStatement]
    split
    · next found =>
      obtain ⟨row, member, same⟩ := List.any_eq_true.mp found
      simp only [Bool.and_eq_true, beq_iff_eq] at same
      exact stated_kept sound ⟨knows.1, knows.2.1, row, member, same.1.1, same.1.2, same.2⟩ fun lock held => .inr held
    · exact stated_kept sound ⟨knows.1, knows.2.1, trivial⟩ fun _ none => nomatch none
  | ensureCustomer | create | get | resolveUsageCustomer => exact stated_stays sound knows

theorem locked_keeps (knows : Knows subject store ⟨projectId, account, call, startedAt, .locked customerId⟩) :
    StatementKeeps configuration subject store admitted ⟨projectId, account, call, startedAt, .locked customerId⟩ := by
  cases call with
  | requestCustomerErasure input =>
    simp only [StatementKeeps, accountStatement]
    split
    · exact stated_answers sound knows _
    · split
      · exact stated_answers sound knows _
      · split
        · exact stated_answers sound knows _
        · refine stated_kept sound knows fun lock held => ?_
          rcases List.mem_cons.mp held with rfl | entries
          · exact .inl (List.mem_singleton_self _)
          · exact .inr entries
  | ensureCustomer | create | get | resolveUsageCustomer => exact stated_stays sound knows

end Stages

/-- The next statement of a call that no erasure overtook keeps the rules. -/
theorem statement_keeps (sound : Sound configuration subject store) {session : AccountSession} (knows : Knows subject store session)
    (ahead : (session.projectId, session.billingAccountId) = subject → session.overtaken store = false) (admitted : Bool) :
    StatementKeeps configuration subject store admitted session := by
  obtain ⟨projectId, account, call, startedAt, stage⟩ := session
  cases stage with
  | begun => exact begun_keeps admitted sound knows
  | checked seen => exact checked_keeps admitted sound knows ahead
  | conflicted =>
    cases call with
    | create =>
      simp only [StatementKeeps, accountStatement]
      split <;> exact stated_answers sound knows _
    | ensureCustomer | get | resolveUsageCustomer | requestCustomerErasure => exact stated_stays sound knows
  | inserted => exact inserted_keeps admitted sound knows
  | updated customerId =>
    cases call with
    | ensureCustomer email => exact stated_writes knows (sound.updated customerId email)
    | create | get | resolveUsageCustomer | requestCustomerErasure => exact stated_stays sound knows
  | missing =>
    rw [StatementKeeps, missing_statement]
    exact stated_answers sound knows _
  | unclaimed =>
    cases call with
    | requestCustomerErasure input =>
      simp only [StatementKeeps, accountStatement]
      split <;> exact stated_kept sound ⟨knows.1, knows.2.1, trivial⟩ fun _ none => nomatch none
    | ensureCustomer | create | get | resolveUsageCustomer => exact stated_stays sound knows
  | seeking customerId => exact seeking_keeps admitted sound knows
  | locked customerId => exact locked_keeps admitted sound knows
  | frozen customerId =>
    cases call with
    | requestCustomerErasure input =>
      simp only [StatementKeeps, accountStatement]
      split
      · exact stated_answers sound knows _
      · next keyring configured =>
        exact stated_writes knows (sound.erased configured knows.2.1 knows.2.2 (.inl (by simp [AccountSession.locks]))
          (.inl (by simp [AccountSession.locks])) input)
    | ensureCustomer | create | get | resolveUsageCustomer => exact stated_stays sound knows
  | answered answer =>
    cases call <;> exact stated_stays sound knows
  | abandoned =>
    cases call <;> exact stated_stays sound knows

theorem kept_effect (kept : (accountRules configuration subject).Kept served)
    (effect : Effect configuration subject (· ∈ ([] : List (AccountLock Digest))) served.store after) :
    (accountRules configuration subject).Kept { served with store := after } := by
  refine kept.alone ?_ effect.sound effect.changes
  simp [freeFor]

/-- Every step that overtakes no creation keeps the rules. -/
theorem perform_keeps (kept : (accountRules configuration subject).Kept served) {step : AccountStep}
    (ahead : unraced subject served step = true) : (accountRules configuration subject).Kept (perform configuration served step) := by
  have sound : Sound configuration subject served.store := kept.valid
  cases step with
  | wait elapsed => exact kept_effect kept (sound.waits elapsed)
  | begin projectId billingAccountId call =>
    simp only [perform]
    split
    · next spoken => exact kept.begun rfl ⟨le_rfl, spoken, trivial⟩
    · exact kept
  | advance index admitted =>
    simp only [perform]
    split
    · exact kept
    · next session found =>
      split
      · next free =>
        have knows : Knows subject served.store session := kept.knows session (List.mem_of_getElem? found)
        have fresh : (session.projectId, session.billingAccountId) = subject → session.overtaken served.store = false := by
          rintro rfl
          simpa [unraced, found] using ahead
        exact kept.statement found free (statement_keeps sound knows fresh admitted)
      · exact kept
  | crash index =>
    simp only [perform]
    split
    · exact kept
    · next session found =>
      have knows : Knows subject served.store session := kept.knows session (List.mem_of_getElem? found)
      split
      · exact kept
      · have free : freeFor (AccountSession.locks configuration) index [] served.sessions = true := by simp [freeFor]
        exact kept.statement found free ⟨sound, ⟨knows.1, knows.2.1, trivial⟩, changes_refl served.store, fun _ none => nomatch none⟩
  | sweep erasureId => exact kept_effect kept (sound.swept erasureId)

private theorem runAccounts_keeps (steps : List AccountStep) (kept : (accountRules configuration subject).Kept served)
    (ahead : unracedRun configuration subject served steps = true) :
    (accountRules configuration subject).Kept (runAccounts configuration served steps) := by
  induction steps generalizing served with
  | nil => exact kept
  | cons step steps more =>
    obtain ⟨first, rest⟩ := (Bool.and_eq_true _ _).mp ahead
    exact more (perform_keeps kept first) rest

variable (configuration subject) in
omit [DecidableEq Digest] in
private theorem noAccounts_kept (clock : Int) : (accountRules configuration subject).Kept (noAccounts clock) := by
  refine ⟨⟨rfl, ?_, ?_, ?_, ?_, ?_⟩, ?_, ?_⟩ <;> simp [noAccounts, AccountStore.ErasedGone]

private theorem statement_refuses (sound : Sound configuration subject store) {session : AccountSession} (knows : Knows subject store session)
    (member : erasure ∈ store.erasures) (mine : erasure.subject = subject)
    (live : store.clock < erasure.tombstoneExpiresAt) (names : session.names erasure) (open_ : ∀ answer, session.stage ≠ .answered answer)
    (admitted : Bool) (given : (accountStatement configuration admitted store session).2 = .answered answer) :
    answer = .billingAccountErased ∨ answer = .billingAccountNotFound ∨ store.Replayed session answer := by
  obtain ⟨projectId, account, call, startedAt, stage⟩ := session
  obtain ⟨rfl, rfl⟩ := names
  obtain ⟨began, known, knows⟩ := knows
  have absent := sound.absent member mine live
  have gone {customerId : Nat} (stands : ∃ row ∈ store.customers, row.id = customerId ∧ row.projectId = erasure.projectId ∧
      row.billingAccountId = erasure.subjectId) : False := by
    obtain ⟨row, inside, -, project, same⟩ := stands
    exact sound.gone erasure member mine live row inside project same
  have refused : notErased configuration store startedAt erasure.projectId erasure.subjectId = false := sound.refuses member live began
  cases stage with
  | begun =>
    cases call with
    | ensureCustomer email =>
      simp only [accountStatement, refused] at given
      exact .inl (CallStage.answered.inj given).symm
    | create =>
      simp only [accountStatement, refused] at given
      exact .inl (CallStage.answered.inj given).symm
    | get =>
      simp only [accountStatement, absent] at given
      exact .inr (.inl (CallStage.answered.inj given).symm)
    | resolveUsageCustomer =>
      simp only [accountStatement, absent] at given
      cases given
    | requestCustomerErasure input =>
      simp only [accountStatement] at given
      split at given
      · next unconfigured =>
        obtain ⟨keyring, configured, -⟩ := sound.buried erasure member live
        rw [configured] at unconfigured
        cases unconfigured
      · split at given
        · cases given
        · next replay found =>
          have keyed := List.find?_some found
          rw [Bool.and_eq_true, beq_iff_eq, beq_iff_eq] at keyed
          refine .inr (.inr ⟨input, rfl, replay, List.mem_of_find?_eq_some found, keyed.1, keyed.2, ?_⟩)
          rw [← CallStage.answered.inj given]
          split
          · exact .inl rfl
          · exact .inr rfl
  | checked seen =>
    cases call with
    | ensureCustomer email =>
      simp only [accountStatement, absent] at given
      cases given
    | create =>
      simp only [accountStatement, absent] at given
      cases given
    | get | resolveUsageCustomer => cases given
    | requestCustomerErasure input => cases given
  | conflicted =>
    cases call with
    | create =>
      simp only [accountStatement, absent] at given
      exact .inr (.inl (CallStage.answered.inj given).symm)
    | ensureCustomer email => cases given
    | get | resolveUsageCustomer => cases given
    | requestCustomerErasure input => cases given
  | inserted => exact absurd (knows.2 erasure member mine ⟨rfl, rfl⟩) (not_le.mpr live)
  | updated customerId => exact absurd knows gone
  | missing =>
    rw [missing_statement, refused] at given
    exact .inl (CallStage.answered.inj given).symm
  | unclaimed =>
    cases call with
    | requestCustomerErasure input =>
      simp only [accountStatement, absent] at given
      cases given
    | ensureCustomer email => cases given
    | create | get | resolveUsageCustomer => cases given
  | seeking customerId =>
    cases call with
    | requestCustomerErasure input =>
      simp only [accountStatement] at given
      split at given <;> cases given
    | ensureCustomer email => cases given
    | create | get | resolveUsageCustomer => cases given
  | locked customerId => exact absurd knows gone
  | frozen customerId => exact absurd knows gone
  | answered answer => exact absurd rfl (open_ answer)
  | abandoned => cases call <;> cases given

private theorem callsRefused (kept : (accountRules configuration subject).Kept served) :
    CallsRefused configuration subject served := by
  intro erasure member mine live index session admitted found names open_ next answer there given
  have sound : Sound configuration subject served.store := kept.valid
  have knows : Knows subject served.store session := kept.knows session (List.mem_of_getElem? found)
  simp only [perform, found] at there
  split at there
  · rw [List.getElem?_set_self (List.getElem?_eq_some_iff.mp found).1] at there
    rw [← Option.some.inj there] at given
    exact statement_refuses sound knows member mine live names open_ admitted given
  · rw [Option.some.inj (found.symm.trans there)] at open_
    exact absurd given (open_ answer)

/-- The next statement of the call begun last, when it asks for no lock. -/
theorem advance_last {sessions : List AccountSession} {session : AccountSession} (unlocked : session.wanted configuration store = [])
    (admitted : Bool) : perform configuration ⟨store, sessions ++ [session]⟩ (.advance sessions.length admitted) =
      ⟨(accountStatement configuration admitted store session).1,
        sessions ++ [{ session with stage := (accountStatement configuration admitted store session).2 }]⟩ := by
  have found : (sessions ++ [session])[sessions.length]? = some session := List.getElem?_concat_length
  have free : freeFor (AccountSession.locks configuration) sessions.length (session.wanted configuration store) (sessions ++ [session]) = true := by
    rw [unlocked]
    simp [freeFor]
  simp only [perform, found, if_pos free]
  rw [List.set_append_right _ _ le_rfl, Nat.sub_self, List.set_cons_zero]

/-- An answered call asks and writes nothing more. -/
private theorem advance_answered (sessions : List AccountSession) (projectId : Nat) (account : AccountId) (call : AccountCall) (startedAt : Int)
    (answer : AccountAnswer) (admitted : Bool) :
    perform configuration ⟨store, sessions ++ [⟨projectId, account, call, startedAt, .answered answer⟩]⟩
      (.advance sessions.length admitted) = ⟨store, sessions ++ [⟨projectId, account, call, startedAt, .answered answer⟩]⟩ := by
  rw [advance_last (by cases call <;> rfl)]
  cases call <;> rfl

private theorem erasedAnswered (kept : (accountRules configuration subject).Kept served) :
    ErasedAnswered configuration subject served := by
  intro erasure member mine live call admitted naming
  have sound : Sound configuration subject served.store := kept.valid
  have absent := sound.absent member mine live
  have refused : notErased configuration served.store served.store.clock erasure.projectId erasure.subjectId = false :=
    sound.refuses member live le_rfl
  have subject : call.subject erasure.subjectId = erasure.subjectId := by
    cases call with
    | requestCustomerErasure input => exact naming input rfl
    | ensureCustomer email => rfl
    | create | get | resolveUsageCustomer => rfl
  have begun : runAccounts configuration served (.begin erasure.projectId erasure.subjectId call ::
      List.replicate 3 (.advance served.sessions.length admitted)) =
      perform configuration (perform configuration (perform configuration ⟨served.store, served.sessions ++
        [⟨erasure.projectId, erasure.subjectId, call, served.store.clock, .begun⟩]⟩ (.advance served.sessions.length admitted))
          (.advance served.sessions.length admitted)) (.advance served.sessions.length admitted) := by
    simp only [runAccounts, List.replicate, List.foldl_cons, List.foldl_nil]
    rw [show perform configuration served (.begin erasure.projectId erasure.subjectId call) = ⟨served.store, served.sessions ++
      [⟨erasure.projectId, erasure.subjectId, call, served.store.clock, .begun⟩]⟩ by
        simp only [perform, subject, sound.spoken erasure member, if_true]]
  rw [begun, advance_last (by cases call <;> rfl)]
  cases call with
  | ensureCustomer email =>
    simp only [accountStatement, refused]
    rw [if_neg Bool.false_ne_true, advance_answered, advance_answered]
    rfl
  | create =>
    simp only [accountStatement, refused]
    rw [if_neg Bool.false_ne_true, advance_answered, advance_answered]
    rfl
  | get =>
    simp only [accountStatement, absent]
    rw [advance_answered, advance_answered]
    rfl
  | resolveUsageCustomer =>
    simp only [accountStatement, absent]
    rw [advance_last rfl, missing_statement, refused, if_neg Bool.false_ne_true, advance_answered]
    rfl
  | requestCustomerErasure input =>
    obtain ⟨keyring, configured, -⟩ := sound.buried erasure member live
    cases found : served.store.findErasure erasure.projectId input.idempotencyKey with
    | none =>
      simp only [accountStatement, configured, found, erasedAnswer]
      rw [advance_last rfl]
      simp only [accountStatement, absent]
      rw [advance_last rfl, missing_statement, refused, if_neg Bool.false_ne_true]
    | some replay =>
      simp only [accountStatement, configured, found, erasedAnswer]
      rw [advance_answered, advance_answered]

/-- An erased id stays away until its tombstone expires, in any interleaving in which no creation of it goes on after an erasure
that was committed since its tombstone check. A call that names the id is refused, unless it repeats an erasure's idempotency key. -/
theorem erased_account_stays_away (configuration : ErasureConfiguration Digest) (subject : Nat × AccountId) (clock : Int)
    (steps : List AccountStep) (ahead : unracedRun configuration subject (noAccounts clock) steps = true) :
    (runAccounts configuration (noAccounts clock) steps).store.ErasedGone subject ∧
    CallsRefused configuration subject (runAccounts configuration (noAccounts clock) steps) ∧
    ErasedAnswered configuration subject (runAccounts configuration (noAccounts clock) steps) := by
  have kept := runAccounts_keeps steps (noAccounts_kept configuration subject clock) ahead
  have sound : Sound configuration subject (runAccounts configuration (noAccounts clock) steps).store := kept.valid
  exact ⟨sound.gone, callsRefused kept, erasedAnswered kept⟩

end Tombstones

def plainDigests : ErasureConfiguration AccountId where
  keyring := some ⟨⟨['k'], []⟩, none⟩
  tombstoneDays := 30
  erasureDigest _ _ account := account
  erasureFingerprint _ body := body.billingAccountId

def someone : AccountId := .named ['u']

def someoneErased : CustomerErasureInput := ⟨⟨someone, .dataSubjectRequest, none, []⟩, ['o'], ['e']⟩

def erasedSteps : List AccountStep :=
  .begin 1 someone .create :: List.replicate 3 (.advance 0 true) ++
    .begin 1 someone (.requestCustomerErasure someoneErased) :: List.replicate 5 (.advance 1 true)

theorem erased_someone_stays_away :
    (runAccounts plainDigests (noAccounts 0) erasedSteps).store.ErasedGone (1, someone) ∧
    CallsRefused plainDigests (1, someone) (runAccounts plainDigests (noAccounts 0) erasedSteps) ∧
    ErasedAnswered plainDigests (1, someone) (runAccounts plainDigests (noAccounts 0) erasedSteps) :=
  erased_account_stays_away plainDigests (1, someone) 0 erasedSteps (by decide)

def overtakenSteps : List AccountStep :=
  .begin 1 someone .create :: List.replicate 3 (.advance 0 true) ++ [.begin 1 someone (.ensureCustomer none), .advance 1 true] ++
    .begin 1 someone (.requestCustomerErasure someoneErased) :: List.replicate 5 (.advance 2 true) ++ List.replicate 2 (.advance 1 true)

def someoneReceipt : ErasureRow AccountId :=
  ⟨0, 1, 0, .dataSubjectRequest, none, ['o'], ['e'], some someone, [], someone, 2592000000, 0⟩

/-- A creation overtaken by an erasure brings the id back, and an erasure repeated under its key is answered by its receipt. -/
theorem overtaken_creation_returns :
    (¬ ∀ (configuration : ErasureConfiguration AccountId) (subject : Nat × AccountId) (clock : Int) (steps : List AccountStep),
      (runAccounts configuration (noAccounts clock) steps).store.ErasedGone subject) ∧
    ¬ ∀ (configuration : ErasureConfiguration AccountId) (clock : Int) (steps : List AccountStep) (index : Nat)
      (session next : AccountSession) (answer : AccountAnswer), ∀ erasure ∈ (runAccounts configuration (noAccounts clock) steps).store.erasures,
        (runAccounts configuration (noAccounts clock) steps).store.clock < erasure.tombstoneExpiresAt →
          (runAccounts configuration (noAccounts clock) steps).sessions[index]? = some session → session.names erasure →
            session.stage = .begun →
              (runAccounts configuration (noAccounts clock) (steps ++ [.advance index true])).sessions[index]? = some next →
                next.stage = .answered answer → answer = .billingAccountErased ∨ answer = .billingAccountNotFound := by
  refine ⟨fun gone => ?_, fun refused => ?_⟩
  · exact gone plainDigests (1, someone) 0 overtakenSteps someoneReceipt (by decide) rfl (by decide) ⟨1, 1, someone, none, none, 0, 0⟩
      (by decide) rfl rfl
  · have answered := refused plainDigests 0 (erasedSteps ++ [.begin 1 someone (.requestCustomerErasure someoneErased)]) 2
      ⟨1, someone, .requestCustomerErasure someoneErased, 0, .begun⟩
      ⟨1, someone, .requestCustomerErasure someoneErased, 0, .answered (.receipt 0 true)⟩ (.receipt 0 true) someoneReceipt
      (by decide) (by decide) (by decide) ⟨rfl, rfl⟩ rfl (by decide) rfl
    revert answered
    decide

end Quotum.AccountErasures
