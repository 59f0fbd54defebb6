import Quotum.PaymentSetups

/-! A payment setup is resolved once, unless one that needs attention is expired after its saved card was recorded. -/

namespace Quotum.PaymentSetups

variable {update : PaymentSetupRow → Option PaymentSetupRow}

variable {setup : Nat} {stage : Stage}

/-- A setup that waits for its customer, or expired, has no saved card. -/
def Tidy (row : PaymentSetupRow) : Prop :=
  row.status = .creating ∨ row.status = .awaitingCustomer ∨ row.status = .expired → row.intendedPaymentMethodId = none

/-- What a statement may do to a row, which it completes under a condition only. -/
structure Onward (completes : Prop) (row next : PaymentSetupRow) : Prop where
  slot : next.slot = row.slot
  status : row.status.isResolved = true → next.status = row.status
  intended : row.intendedPaymentMethodId.isSome = true → next.intendedPaymentMethodId.isSome = true
  tidy : Tidy row → Tidy next
  plan : row.planStatus ≠ some .pending → next.planStatus = row.planStatus
  subscription : ∀ id, row.externalSubscriptionId = some id → next.externalSubscriptionId = some id
  completed : next.status = .completed → row.status = .completed ∨ completes

section Rows
variable {row next : PaymentSetupRow} {now : Int} {worker : Text}

theorem Onward.refl (completes : Prop) (row : PaymentSetupRow) : Onward completes row row where
  slot := rfl
  status _ := rfl
  intended isSome := isSome
  tidy kept := kept
  plan _ := rfl
  subscription _ same := same
  completed := .inl

theorem Onward.mono {completes other : Prop} (onward : Onward completes row next) (implies : completes → other) :
    Onward other row next where
  slot := onward.slot
  status := onward.status
  intended := onward.intended
  tidy := onward.tidy
  plan := onward.plan
  subscription := onward.subscription
  completed isCompleted := (onward.completed isCompleted).imp_right implies

private theorem open_status {status other : PaymentSetupStatus} (unresolved : status.isResolved = false) (isResolved : status.isResolved = true) :
    other = status := by
  rw [unresolved] at isResolved
  cases isResolved

private theorem tidy_of (reached : row.status = .applyingDefault ∨ row.status = .completed ∨ row.status = .needsAttention) : Tidy row := by
  intro waiting
  rcases reached with reached | reached | reached <;> simp [reached] at waiting

private theorem recordPaymentSetupLink_onward {session url : Text} (written : row.recordPaymentSetupLink session url = some next) :
    Onward False row next := by
  simp only [PaymentSetupRow.recordPaymentSetupLink, Option.ite_none_right_eq_some] at written
  obtain ⟨-, same⟩ := written
  obtain rfl := Option.some.inj same
  refine ⟨rfl, ?_, fun isSome => isSome, ?_, fun _ => rfl, fun _ same => same, ?_⟩
  · intro isResolved
    have begun : row.status ≠ .creating := by
      intro creating
      rw [creating] at isResolved
      cases isResolved
    exact if_neg begun
  · intro kept waiting
    apply kept
    by_cases creating : row.status = .creating
    · exact .inl creating
    · simpa only [creating, if_false] using waiting
  · intro isCompleted
    by_cases creating : row.status = .creating
    · simp [creating] at isCompleted
    · exact .inl (by simpa only [creating, if_false] using isCompleted)

private theorem claimPaymentSetup_onward (written : row.claimPaymentSetup now worker = some next) : Onward False row next := by
  simp only [PaymentSetupRow.claimPaymentSetup, Option.ite_none_right_eq_some] at written
  obtain ⟨-, same⟩ := written
  obtain rfl := Option.some.inj same
  exact ⟨rfl, fun _ => rfl, fun isSome => isSome, fun kept => kept, fun _ => rfl, fun _ same => same, .inl⟩

private theorem releasePaymentSetupClaim_onward (written : row.releasePaymentSetupClaim worker = some next) : Onward False row next := by
  simp only [PaymentSetupRow.releasePaymentSetupClaim, Option.ite_none_right_eq_some] at written
  obtain ⟨-, same⟩ := written
  obtain rfl := Option.some.inj same
  exact ⟨rfl, fun _ => rfl, fun isSome => isSome, fun kept => kept, fun _ => rfl, fun _ same => same, .inl⟩

private theorem recordPaymentSetupIntent_onward {externalSetupIntentId paymentMethodId : Text} {externalSessionId : Option Text}
    (written : row.recordPaymentSetupIntent worker externalSetupIntentId paymentMethodId externalSessionId = some next) :
    Onward False row next ∧ next.intendedPaymentMethodId = some paymentMethodId := by
  simp only [PaymentSetupRow.recordPaymentSetupIntent, Option.ite_none_right_eq_some] at written
  obtain ⟨⟨-, unresolved⟩, same⟩ := written
  obtain rfl := Option.some.inj same
  exact ⟨⟨rfl, open_status unresolved, fun _ => rfl, fun _ => tidy_of (.inl rfl), fun _ => rfl, fun _ same => same, (by rintro ⟨⟩)⟩, rfl⟩

private theorem completePaymentSetup_onward {paymentMethodId : Text} (recorded : row.status ≠ .expired)
    (written : row.completePaymentSetup now worker paymentMethodId = some next) :
    Onward (row.claimedBy = some worker ∧ next.defaultPaymentMethodId = some paymentMethodId) row next := by
  simp only [PaymentSetupRow.completePaymentSetup, Option.ite_none_right_eq_some] at written
  obtain ⟨⟨held, uncompleted⟩, same⟩ := written
  obtain rfl := Option.some.inj same
  refine ⟨rfl, ?_, fun isSome => isSome, fun _ => tidy_of (.inr (.inl rfl)), fun _ => rfl, fun _ same => same,
    fun _ => .inr ⟨held, rfl⟩⟩
  · intro isResolved
    cases status : row.status with
    | completed => exact absurd status uncompleted
    | expired => exact absurd status recorded
    | creating | awaitingCustomer | applyingDefault | needsAttention => rw [status] at isResolved; cases isResolved

private theorem recordPaymentSetupSubscriptionId_onward {subscription : Text}
    (written : row.recordPaymentSetupSubscriptionId worker subscription = some next) :
    Onward False row next ∧ next.externalSubscriptionId = some subscription := by
  simp only [PaymentSetupRow.recordPaymentSetupSubscriptionId, Option.ite_none_right_eq_some] at written
  obtain ⟨⟨-, -, free⟩, same⟩ := written
  obtain rfl := Option.some.inj same
  refine ⟨⟨rfl, fun _ => rfl, fun isSome => isSome, fun kept => kept, fun _ => rfl, ?_, .inl⟩, rfl⟩
  intro id recorded
  rcases free with none | again
  · rw [recorded] at none
    cases none
  · exact again.symm.trans recorded

private theorem recordPaymentSetupPlanOutcome_onward {outcome : PlanOutcome}
    (known : ∀ id, outcome.externalSubscriptionId = some id → row.externalSubscriptionId = some id)
    (written : row.recordPaymentSetupPlanOutcome now worker outcome = some next) : Onward False row next := by
  simp only [PaymentSetupRow.recordPaymentSetupPlanOutcome, Option.ite_none_right_eq_some] at written
  obtain ⟨⟨-, pending, -⟩, same⟩ := written
  obtain rfl := Option.some.inj same
  refine ⟨rfl, fun _ => rfl, fun isSome => isSome, fun kept => kept, fun settled => absurd pending settled, ?_, .inl⟩
  intro id recorded
  cases named : outcome.externalSubscriptionId with
  | none => simpa [named] using recorded
  | some other =>
    rw [known other named] at recorded
    simpa [named] using recorded

/-- An expiry before the saved card is recorded. -/
private theorem expirePaymentSetup_onward (tidy : Tidy row) (unrecorded : row.status = .needsAttention → row.intendedPaymentMethodId = none)
    (written : row.expirePaymentSetup worker = some next) : Onward False row next := by
  simp only [PaymentSetupRow.expirePaymentSetup, Option.ite_none_right_eq_some] at written
  obtain ⟨⟨-, status⟩, same⟩ := written
  obtain rfl := Option.some.inj same
  have none : row.intendedPaymentMethodId = none := by
    rcases status with creating | awaiting | attention
    · exact tidy (.inl creating)
    · exact tidy (.inr (.inl awaiting))
    · exact unrecorded attention
  refine ⟨rfl, ?_, ?_, fun _ _ => rfl, fun _ => rfl, fun _ same => same, (by rintro ⟨⟩)⟩
  · intro isResolved
    rcases status with status | status | status <;>
    · rw [status] at isResolved
      cases isResolved
  · intro isSome
    rw [none] at isSome
    cases isSome

private theorem flagPaymentSetupAttention_onward {reason : Text} (written : row.flagPaymentSetupAttention worker reason = some next) :
    Onward False row next := by
  simp only [PaymentSetupRow.flagPaymentSetupAttention, Option.ite_none_right_eq_some] at written
  obtain ⟨⟨-, unresolved⟩, same⟩ := written
  obtain rfl := Option.some.inj same
  exact ⟨rfl, open_status unresolved, fun isSome => isSome, fun _ => tidy_of (.inr (.inr rfl)), fun _ => rfl, fun _ same => same,
    (by rintro ⟨⟩)⟩

end Rows

def Stage.paymentMethodId : Stage → Option Text
  | .updating resolved | .starting resolved | .subscribed resolved _ _ | .concluding resolved _ | .completing resolved =>
    some resolved.paymentMethodId
  | _ => none

def Stage.subscription : Stage → Option Text
  | .concluding _ outcome => outcome.externalSubscriptionId
  | _ => none

/-- A stage that owes nothing to a saved card. -/
def Stage.Idle (stage : Stage) : Prop := stage.paymentMethodId = none ∧ stage.subscription = none

private theorem finish_idle (execution : Execution) : execution.finish.Idle := by
  simp only [Execution.finish]
  split <;> exact ⟨rfl, rfl⟩

private theorem thrown_idle (message : Text) (execution : Execution) : (execution.thrown message).Idle := by
  simp only [Execution.thrown]
  split
  · exact ⟨rfl, rfl⟩
  · exact ⟨rfl, rfl⟩
  · split <;> exact ⟨rfl, rfl⟩

def Setups.Subscribed (setups : Setups) (setup : Nat) (id : Text) : Prop :=
  ∃ row : PaymentSetupRow, setups.rows[setup]? = some row ∧ row.externalSubscriptionId = some id

/-- The invariant: what executions hold of a setup is still true of it. -/
structure Sound (setups : Setups) : Prop where
  tidy : ∀ row ∈ setups.rows, Tidy row
  single : ∀ (first second : Nat) (one two : PaymentSetupRow), setups.rows[first]? = some one → setups.rows[second]? = some two →
    one.slot = two.slot → one.status.isResolved = false → two.status.isResolved = false → first = second
  recorded : ∀ record ∈ setups.intents, ∃ row : PaymentSetupRow, setups.rows[record.setup]? = some row ∧
    row.intendedPaymentMethodId.isSome = true
  past : ∀ (index : Nat) (execution : Execution) (paymentMethodId : Text), setups.executions[index]? = some execution →
    execution.stage.paymentMethodId = some paymentMethodId → ⟨index, execution.setup, execution.worker, paymentMethodId⟩ ∈ setups.intents
  claimed : ∀ execution ∈ setups.executions, ∀ id, execution.claimed.externalSubscriptionId = some id →
    setups.Subscribed execution.setup id
  named : ∀ execution ∈ setups.executions, ∀ id, execution.stage.subscription = some id → setups.Subscribed execution.setup id

def Advanced (completes : Nat → PaymentSetupRow → PaymentSetupRow → Prop) (before after : Setups) : Prop :=
  ∀ (setup : Nat) (row : PaymentSetupRow), before.rows[setup]? = some row →
    ∃ next, after.rows[setup]? = some next ∧ Onward (completes setup row next) row next

section States
variable {setups after : Setups} {completes : Nat → PaymentSetupRow → PaymentSetupRow → Prop} {action : SetupAction}
  {next : PaymentSetupRow}

theorem Advanced.same (same : after.rows = setups.rows) : Advanced completes setups after := by
  intro setup row found
  exact ⟨row, same ▸ found, Onward.refl _ row⟩

private theorem write_inv (written : setups.write setup update = some after) :
    ∃ row next, setups.rows[setup]? = some row ∧ update row = some next ∧ after = { setups with rows := setups.rows.set setup next } := by
  simp only [Setups.write] at written
  split at written
  · cases written
  · next row found =>
    split at written
    · cases written
    · next next updated =>
      rw [Option.ite_none_right_eq_some] at written
      exact ⟨row, next, found, updated, (Option.some.inj written.2).symm⟩

/-- A row of the table after one was written. -/
private theorem set_inv {rows : List PaymentSetupRow} {other : Nat} {row : PaymentSetupRow} (found : (rows.set setup next)[other]? = some row) :
    other = setup ∧ row = next ∨ other ≠ setup ∧ rows[other]? = some row := by
  by_cases same : other = setup
  · subst same
    have inside : other < rows.length := by
      have := (List.getElem?_eq_some_iff.mp found).1
      rwa [List.length_set] at this
    rw [List.getElem?_set_self inside] at found
    exact .inl ⟨rfl, (Option.some.inj found).symm⟩
  · rw [List.getElem?_set_ne (Ne.symm same)] at found
    exact .inr ⟨same, found⟩

theorem Advanced.written {setup : Nat} {row : PaymentSetupRow} (found : setups.rows[setup]? = some row)
    (onward : Onward (completes setup row next) row next) : Advanced completes setups { setups with rows := setups.rows.set setup next } := by
  intro other old there
  by_cases same : other = setup
  · subst same
    rw [found] at there
    obtain rfl := Option.some.inj there
    exact ⟨next, List.getElem?_set_self (List.getElem?_eq_some_iff.mp found).1, onward⟩
  · exact ⟨old, (List.getElem?_set_ne (Ne.symm same)).trans there, Onward.refl _ old⟩

theorem Setups.Subscribed.advanced {id : Text} (subscribed : setups.Subscribed setup id)
    (advanced : Advanced completes setups after) : after.Subscribed setup id := by
  obtain ⟨row, found, recorded⟩ := subscribed
  obtain ⟨next, there, onward⟩ := advanced setup row found
  exact ⟨next, there, onward.subscription id recorded⟩

section
variable (sound : Sound setups) {row : PaymentSetupRow}
include sound

theorem Sound.written {setup : Nat} {finishes : Prop} (found : setups.rows[setup]? = some row) (onward : Onward finishes row next) :
    Sound { setups with rows := setups.rows.set setup next } := by
  have advanced : Advanced (fun _ _ _ => finishes) setups { setups with rows := setups.rows.set setup next } :=
    Advanced.written found onward
  have before {other : Nat} {one : PaymentSetupRow} (there : (setups.rows.set setup next)[other]? = some one)
      (unresolved : one.status.isResolved = false) :
      ∃ old, setups.rows[other]? = some old ∧ old.slot = one.slot ∧ old.status.isResolved = false := by
    rcases set_inv there with ⟨rfl, rfl⟩ | ⟨-, kept⟩
    · refine ⟨row, found, onward.slot.symm, Bool.eq_false_iff.mpr ?_⟩
      intro isResolved
      rw [onward.status isResolved, isResolved] at unresolved
      cases unresolved
    · exact ⟨one, kept, rfl, unresolved⟩
  refine ⟨?_, ?_, ?_, sound.past, ?_, ?_⟩
  · intro one member
    rcases List.mem_or_eq_of_mem_set member with old | rfl
    · exact sound.tidy one old
    · exact onward.tidy (sound.tidy row (List.mem_of_getElem? found))
  · intro first second one two here there slots oneOpen twoOpen
    obtain ⟨oldOne, oneFound, oneSlot, oneUnresolved⟩ := before here oneOpen
    obtain ⟨oldTwo, twoFound, twoSlot, twoUnresolved⟩ := before there twoOpen
    exact sound.single first second oldOne oldTwo oneFound twoFound (by rw [oneSlot, twoSlot, slots]) oneUnresolved twoUnresolved
  · intro record member
    obtain ⟨old, there, isSome⟩ := sound.recorded record member
    obtain ⟨one, now, moved⟩ := advanced record.setup old there
    exact ⟨one, now, moved.intended isSome⟩
  · intro execution member id recorded
    exact (sound.claimed execution member id recorded).advanced advanced
  · intro execution member id recorded
    exact (sound.named execution member id recorded).advanced advanced

/-- A new stage of an execution, which holds only what is true. -/
theorem Sound.staged {index : Nat} {execution : Execution} (found : setups.executions[index]? = some execution)
    {stage : Stage}
    (past : ∀ paymentMethodId, stage.paymentMethodId = some paymentMethodId →
      ⟨index, execution.setup, execution.worker, paymentMethodId⟩ ∈ setups.intents)
    (named : ∀ id, stage.subscription = some id → setups.Subscribed execution.setup id) :
    Sound (setups.setStage index execution stage) := by
  refine ⟨sound.tidy, sound.single, sound.recorded, ?_, ?_, ?_⟩
  · intro other one paymentMethodId there recorded
    by_cases same : other = index
    · subst same
      have placed : (setups.executions.set other { execution with stage := stage })[other]? = some { execution with stage := stage } :=
        List.getElem?_set_self (List.getElem?_eq_some_iff.mp found).1
      obtain rfl := Option.some.inj (placed.symm.trans there)
      exact past paymentMethodId recorded
    · have kept : setups.executions[other]? = some one := (List.getElem?_set_ne (Ne.symm same)).symm.trans there
      exact sound.past other one paymentMethodId kept recorded
  · intro one member id recorded
    rcases List.mem_or_eq_of_mem_set member with old | rfl
    · exact sound.claimed one old id recorded
    · exact sound.claimed execution (List.mem_of_getElem? found) id recorded
  · intro one member id recorded
    rcases List.mem_or_eq_of_mem_set member with old | rfl
    · exact sound.named one old id recorded
    · exact named id recorded

theorem Sound.idle {index : Nat} {execution : Execution} (found : setups.executions[index]? = some execution)
    (idle : stage.Idle) : Sound (setups.setStage index execution stage) := by
  refine sound.staged found ?_ ?_
  · intro paymentMethodId recorded
    rw [idle.1] at recorded
    cases recorded
  · intro id recorded
    rw [idle.2] at recorded
    cases recorded

theorem Sound.begin (found : setups.rows[setup]? = some row) (worker : Text)
    (task : PaymentSetupTask) (idle : stage.Idle) : Sound (setups.begin setup worker task row stage) := by
  refine ⟨sound.tidy, sound.single, sound.recorded, ?_, ?_, ?_⟩
  · intro index execution paymentMethodId there recorded
    rw [Setups.begin, List.getElem?_append] at there
    split at there
    · exact sound.past index execution paymentMethodId there recorded
    · obtain rfl := List.mem_singleton.mp (List.mem_of_getElem? there)
      rw [idle.1] at recorded
      cases recorded
  · intro execution member id recorded
    rcases List.mem_append.mp member with old | new
    · exact sound.claimed execution old id recorded
    · obtain rfl := List.mem_singleton.mp new
      exact ⟨row, found, recorded⟩
  · intro execution member id recorded
    rcases List.mem_append.mp member with old | new
    · exact sound.named execution old id recorded
    · obtain rfl := List.mem_singleton.mp new
      rw [idle.2] at recorded
      cases recorded

/-- A new setup in a slot that no unresolved setup holds. -/
theorem Sound.reserved (tidy : Tidy row) (free : ∀ other ∈ setups.rows, other.slot = row.slot → other.status.isResolved = true) :
    Sound { setups with rows := setups.rows ++ [row] } ∧ Advanced completes setups { setups with rows := setups.rows ++ [row] } := by
  have advanced {completes : Nat → PaymentSetupRow → PaymentSetupRow → Prop} :
      Advanced completes setups { setups with rows := setups.rows ++ [row] } := by
    intro setup old found
    refine ⟨old, ?_, Onward.refl _ old⟩
    rw [List.getElem?_append_left (List.getElem?_eq_some_iff.mp found).1]
    exact found
  have unchanged : Advanced (fun _ _ _ => False) setups { setups with rows := setups.rows ++ [row] } := advanced
  have apart {setup : Nat} {one : PaymentSetupRow} (found : setups.rows[setup]? = some one) (unresolved : one.status.isResolved = false) :
      one.slot ≠ row.slot := by
    intro same
    rw [free one (List.mem_of_getElem? found) same] at unresolved
    cases unresolved
  have places {setup : Nat} {one : PaymentSetupRow} (found : (setups.rows ++ [row])[setup]? = some one) :
      setups.rows[setup]? = some one ∨ setup = setups.rows.length ∧ one = row := by
    rw [List.getElem?_append] at found
    split at found
    · exact .inl found
    · next outside =>
      have inside := (List.getElem?_eq_some_iff.mp found).1
      rw [List.length_singleton] at inside
      exact .inr ⟨by omega, List.mem_singleton.mp (List.mem_of_getElem? found)⟩
  refine ⟨⟨?_, ?_, ?_, sound.past, ?_, ?_⟩, advanced⟩
  · intro one member
    rcases List.mem_append.mp member with old | new
    · exact sound.tidy one old
    · exact List.mem_singleton.mp new ▸ tidy
  · intro first second one two here there slots oneOpen twoOpen
    rcases places here with oneOld | ⟨rfl, rfl⟩
    · rcases places there with twoOld | ⟨rfl, rfl⟩
      · exact sound.single first second one two oneOld twoOld slots oneOpen twoOpen
      · exact absurd slots (apart oneOld oneOpen)
    · rcases places there with twoOld | ⟨rfl, rfl⟩
      · exact absurd slots.symm (apart twoOld twoOpen)
      · rfl
  · intro record member
    obtain ⟨old, found, isSome⟩ := sound.recorded record member
    obtain ⟨one, now, moved⟩ := unchanged record.setup old found
    exact ⟨one, now, moved.intended isSome⟩
  · intro execution member id recorded
    exact (sound.claimed execution member id recorded).advanced unchanged
  · intro execution member id recorded
    exact (sound.named execution member id recorded).advanced unchanged

theorem reserve_sound {input : ReservePaymentSetupInput} {reservation : PaymentSetupReservation}
    (reserved : setups.reservePaymentSetup input = some (after, setup, reservation)) : Sound after ∧ Advanced completes setups after := by
  simp only [Setups.reservePaymentSetup] at reserved
  split at reserved
  · rw [Option.map_eq_some_iff] at reserved
    obtain ⟨row, -, same⟩ := reserved
    obtain rfl := (Prod.mk.inj same).1
    exact ⟨sound, Advanced.same rfl⟩
  · split at reserved
    · split at reserved
      · cases reserved
      · rw [Option.ite_none_right_eq_some] at reserved
        obtain rfl := (Prod.mk.inj (Option.some.inj reserved.2)).1
        exact ⟨sound, Advanced.same rfl⟩
    · next free =>
      obtain rfl := (Prod.mk.inj (Option.some.inj reserved)).1
      apply sound.reserved
      · exact fun _ => rfl
      · intro other member same
        have taken := List.findIdx?_eq_none_iff.mp free other member
        rw [Bool.and_eq_false_iff, decide_eq_false_iff_not, Bool.not_eq_false'] at taken
        exact taken.resolve_left fun apart => apart same

private theorem create_sound (input : ReservePaymentSetupInput) :
    Sound (setups.createPaymentSetup input) ∧ Advanced completes setups (setups.createPaymentSetup input) := by
  simp only [Setups.createPaymentSetup]
  split
  · exact ⟨sound, Advanced.same rfl⟩
  · next after setup reservation reserved =>
    have kept : Sound after ∧ Advanced completes setups after := reserve_sound sound reserved
    obtain ⟨afterSound, advanced⟩ := kept
    have issued {row : PaymentSetupRow} (found : after.rows[setup]? = some row) (next : Setups)
        (same : next = if row.canIssueHostedSetupLink after.now then after.begin setup [] .creation row .issuing else after) :
        Sound next ∧ Advanced completes setups next := by
      subst same
      split
      · exact ⟨afterSound.begin found [] .creation ⟨rfl, rfl⟩, advanced⟩
      · exact ⟨afterSound, advanced⟩
    split
    · next found => exact issued found _ rfl
    · next found => exact issued found _ rfl
    · exact ⟨afterSound, advanced⟩

omit sound in
private theorem apply_idle (claimed : PaymentSetupRow) (event : NormalizedPaymentSetupEvent) : (applyPaymentSetupEvent claimed event).Idle := by
  simp only [applyPaymentSetupEvent]
  split
  · exact ⟨rfl, rfl⟩
  · split
    · split <;> exact ⟨rfl, rfl⟩
    · exact ⟨rfl, rfl⟩

omit sound in
private theorem reconcile_idle (now : Int) (claimed : PaymentSetupRow) : (reconcilePaymentSetup now claimed).Idle := by
  simp only [reconcilePaymentSetup]
  split
  · exact ⟨rfl, rfl⟩
  · split
    · split <;> exact ⟨rfl, rfl⟩
    · exact ⟨rfl, rfl⟩

omit sound in
private theorem unresolved_idle (setup : PaymentSetupRow) (retrieved : CheckoutSession) : (reconcileUnresolvedSetup setup retrieved).Idle := by
  simp only [reconcileUnresolvedSetup]
  generalize (if setup.externalSessionId.isSome then some retrieved else none) = session
  split
  · exact ⟨rfl, rfl⟩
  · split <;> exact ⟨rfl, rfl⟩

theorem claim_sound (setup : Nat) (worker : Text) (task : PaymentSetupTask) :
    Sound (setups.claim setup worker task) ∧ Advanced completes setups (setups.claim setup worker task) := by
  simp only [Setups.claim]
  split
  · exact ⟨sound, Advanced.same rfl⟩
  · next after written =>
    obtain ⟨row, next, found, updated, rfl⟩ := write_inv written
    have onward := claimPaymentSetup_onward updated
    have claimed := sound.written found onward
    have advanced : Advanced completes setups { setups with rows := setups.rows.set setup next } :=
      Advanced.written found (onward.mono False.elim)
    split
    · next there => exact ⟨claimed.begin there worker _ (apply_idle _ _), advanced⟩
    · next there => exact ⟨claimed.begin there worker _ (reconcile_idle _ _), advanced⟩
    · exact ⟨sound, Advanced.same rfl⟩

/-- What the step of an execution keeps: the invariant, and the rows but for what it may do to them. -/
def Progresses (completes : Nat → PaymentSetupRow → PaymentSetupRow → Prop) (setups : Setups) (index : Nat) (execution : Execution)
    (result : Setups × Stage) : Prop :=
  Sound (result.1.setStage index execution result.2) ∧ Advanced completes setups result.1

section
variable {index : Nat} {execution : Execution} (found : setups.executions[index]? = some execution) {resolved : ResolvedSetupIntent}
include found

theorem Sound.waits (idle : stage.Idle) :
    Progresses completes setups index execution (setups, stage) :=
  ⟨sound.idle found idle, Advanced.same rfl⟩

/-- A statement, after which the execution holds what the statement wrote. -/
theorem Sound.attempt
    (onward : ∀ row next, setups.rows[execution.setup]? = some row → update row = some next →
      Onward False row next ∧ ∀ id, stage.subscription = some id → next.externalSubscriptionId = some id)
    (past : ∀ paymentMethodId, stage.paymentMethodId = some paymentMethodId →
      ⟨index, execution.setup, execution.worker, paymentMethodId⟩ ∈ setups.intents) (reason : Text) :
    Progresses completes setups index execution (setups.attempt execution update stage reason) := by
  simp only [Setups.attempt]
  split
  · next after written =>
    obtain ⟨row, next, there, updated, rfl⟩ := write_inv written
    obtain ⟨kept, named⟩ := onward row next there updated
    refine ⟨(sound.written there kept).staged found past ?_, Advanced.written there (kept.mono False.elim)⟩
    intro id recorded
    exact ⟨next, List.getElem?_set_self (List.getElem?_eq_some_iff.mp there).1, named id recorded⟩
  · exact sound.waits found (thrown_idle reason execution)

theorem Sound.attemptUnless
    (onward : ∀ row next, setups.rows[execution.setup]? = some row → update row = some next →
      Onward (completes execution.setup row next) row next) (settled : PaymentSetupStatus → Bool) (reason : Text) :
    Progresses completes setups index execution (setups.attemptUnless settled execution update reason) := by
  simp only [Setups.attemptUnless]
  split
  · next written =>
    obtain ⟨row, next, there, updated, rfl⟩ := write_inv written
    have kept := onward row next there updated
    exact ⟨(sound.written there kept).idle found (finish_idle execution), Advanced.written there kept⟩
  · apply sound.waits found
    split
    · exact finish_idle execution
    · exact thrown_idle reason execution
  · exact sound.waits found (thrown_idle reason execution)

/-- A statement whose refusal changes nothing. -/
theorem Sound.applies
    (onward : ∀ row next, update row = some next → Onward False row next)
    (idle : stage.Idle) :
    Progresses completes setups index execution ((setups.write execution.setup update).getD setups, stage) := by
  cases written : setups.write execution.setup update with
  | none => exact sound.waits found idle
  | some after =>
    obtain ⟨row, next, there, updated, rfl⟩ := write_inv written
    have kept := onward row next updated
    exact ⟨(sound.written there kept).idle found idle, Advanced.written there (kept.mono False.elim)⟩

theorem Sound.intend (resolved : ResolvedSetupIntent)
    (checkoutSessionId : Option Text) :
    Progresses completes setups index execution (setups.intend index execution resolved checkoutSessionId) := by
  simp only [Setups.intend]
  split
  · exact sound.waits found (thrown_idle claimLost execution)
  · next after written =>
    obtain ⟨row, next, there, updated, rfl⟩ := write_inv written
    obtain ⟨onward, intended⟩ := recordPaymentSetupIntent_onward updated
    have kept := sound.written there onward
    let record : IntentRecord := ⟨index, execution.setup, execution.worker, resolved.paymentMethodId⟩
    have recorded : Sound { setups with rows := setups.rows.set execution.setup next, intents := record :: setups.intents } := by
      refine ⟨kept.tidy, kept.single, ?_, ?_, kept.claimed, kept.named⟩
      · intro other member
        rcases List.mem_cons.mp member with rfl | old
        · exact ⟨next, List.getElem?_set_self (List.getElem?_eq_some_iff.mp there).1, by rw [intended]; rfl⟩
        · exact kept.recorded other old
      · intro other one paymentMethodId here isPast
        exact List.mem_cons_of_mem _ (kept.past other one paymentMethodId here isPast)
    refine ⟨recorded.staged found ?_ ?_, Advanced.written there (onward.mono False.elim)⟩
    · intro paymentMethodId isPast
      obtain rfl := Option.some.inj isPast
      exact List.mem_cons_self
    · intro id named
      cases named

omit sound found in
private theorem startPlan_inv {setup : PaymentSetupRow} {answer : PlanAnswer}
    (started : startPlanOnSavedCard setup resolved answer = some stage) :
    (∃ subscription successful, stage = .subscribed resolved subscription successful) ∨
      ∃ outcome, stage = .concluding resolved outcome ∧ outcome.externalSubscriptionId = setup.externalSubscriptionId := by
  cases answer with
  | existing subscription successful => exact .inl ⟨subscription, successful, (Option.some.inj started).symm⟩
  | created subscription successful =>
    exact .inl ⟨subscription, successful, (Option.some.inj (Option.ite_none_left_eq_some.mp started).2).symm⟩
  | notEligible code message => exact .inr ⟨_, (Option.some.inj (Option.ite_none_left_eq_some.mp started).2).symm, rfl⟩
  | planChanged => exact .inr ⟨_, (Option.some.inj (Option.ite_none_left_eq_some.mp started).2).symm, rfl⟩
  | declined code message => exact .inr ⟨_, (Option.some.inj (Option.ite_none_left_eq_some.mp started).2).symm, rfl⟩

theorem Sound.startPlan (starting : execution.stage = .starting resolved) {answer : PlanAnswer}
    (started : startPlanOnSavedCard execution.claimed resolved answer = some stage) :
    Progresses completes setups index execution (setups, stage) := by
  have past := sound.past index execution resolved.paymentMethodId found (by rw [starting]; rfl)
  refine ⟨sound.staged found ?_ ?_, Advanced.same rfl⟩
  · intro paymentMethodId recorded
    rcases startPlan_inv started with ⟨_, _, rfl⟩ | ⟨_, rfl, -⟩
    · exact Option.some.inj recorded ▸ past
    · exact Option.some.inj recorded ▸ past
  · intro id named
    rcases startPlan_inv started with ⟨_, _, rfl⟩ | ⟨outcome, rfl, same⟩
    · cases named
    · exact sound.claimed execution (List.mem_of_getElem? found) id (same.symm.trans named)

/-- A step that completes a setup: by an execution whose worker holds the claim and that has recorded the saved card. -/
def Completes (action : SetupAction) (setups : Setups) (setup : Nat) (row next : PaymentSetupRow) : Prop :=
  ∃ index execution paymentMethodId, action = .advance index .nothing ∧ setups.executions[index]? = some execution ∧
    execution.setup = setup ∧ row.claimedBy = some execution.worker ∧
    ⟨index, setup, execution.worker, paymentMethodId⟩ ∈ setups.intents ∧ next.defaultPaymentMethodId = some paymentMethodId

/-- An expiry that comes before the saved card is recorded. -/
theorem Sound.expire (expiring : execution.stage = .expiring)
    (early : (SetupAction.advance index .nothing).expiresRecorded setups = false) (reason : Text) :
    Progresses completes setups index execution
      (setups.attemptUnless PaymentSetupStatus.isResolved execution (PaymentSetupRow.expirePaymentSetup execution.worker) reason) := by
  refine sound.attemptUnless found ?_ _ reason
  intro row next there updated
  have tidy := sound.tidy row (List.mem_of_getElem? there)
  have held : row.claimedBy = some execution.worker := by
    simp only [PaymentSetupRow.expirePaymentSetup, Option.ite_none_right_eq_some] at updated
    exact updated.1.1
  refine (expirePaymentSetup_onward tidy ?_ updated).mono False.elim
  intro attention
  simp only [SetupAction.expiresRecorded, found, there, expiring, held, attention] at early
  simpa using early

theorem Sound.complete (completing : execution.stage = .completing resolved) (settled : PaymentSetupStatus → Bool) (reason : Text) :
    Progresses (Completes (.advance index .nothing) setups) setups index execution
      (setups.attemptUnless settled execution
        (PaymentSetupRow.completePaymentSetup setups.now execution.worker resolved.paymentMethodId) reason) := by
  have past := sound.past index execution resolved.paymentMethodId found (by rw [completing]; rfl)
  refine sound.attemptUnless found ?_ settled reason
  intro row next there updated
  have recorded : row.status ≠ .expired := by
    intro expired
    obtain ⟨same, here, isSome⟩ := sound.recorded _ past
    obtain rfl := Option.some.inj (there.symm.trans here)
    rw [sound.tidy row (List.mem_of_getElem? there) (.inr (.inr expired))] at isSome
    cases isSome
  refine (completePaymentSetup_onward recorded updated).mono ?_
  rintro ⟨held, method⟩
  exact ⟨index, execution, resolved.paymentMethodId, rfl, found, rfl, held, past, method⟩

theorem Sound.advance {answer : Answer} {result : Setups × Stage}
    (advanced : setups.advance index execution answer = some result)
    (early : (SetupAction.advance index answer).expiresRecorded setups = false) :
    Progresses (Completes (.advance index answer) setups) setups index execution result := by
  simp only [Setups.advance] at advanced
  split at advanced
  · next stage => -- issuing
    split at advanced
    · obtain rfl := Option.some.inj advanced
      exact sound.waits found (thrown_idle _ execution)
    · obtain rfl := Option.some.inj advanced
      exact sound.waits found ⟨rfl, rfl⟩
  · next stage => -- linking
    obtain rfl := Option.some.inj advanced
    have idle := finish_idle execution
    refine sound.attempt found ?_ ?_ _
    · intro row next _ updated
      refine ⟨recordPaymentSetupLink_onward updated, ?_⟩
      intro id named
      rw [idle.2] at named
      cases named
    · intro paymentMethodId recorded
      rw [idle.1] at recorded
      cases recorded
  · next stage => -- reading
    obtain rfl := Option.some.inj advanced
    exact sound.waits found (unresolved_idle _ _)
  · next stage => -- resolving
    split at advanced
    · obtain rfl := Option.some.inj advanced
      exact sound.waits found ⟨rfl, rfl⟩
    · obtain rfl := Option.some.inj advanced
      exact sound.waits found (thrown_idle _ execution)
  · next stage => -- intending
    obtain rfl := Option.some.inj advanced
    exact sound.intend found _ _
  · next resolved stage => -- updating
    obtain rfl := Option.some.inj advanced
    have past := sound.past index execution resolved.paymentMethodId found (by rw [stage]; rfl)
    refine ⟨sound.staged found ?_ ?_, Advanced.same rfl⟩
    · intro paymentMethodId recorded
      split at recorded
      · exact Option.some.inj recorded ▸ past
      · exact Option.some.inj recorded ▸ past
    · intro id named
      split at named <;> cases named
  · next resolved _ stage => -- starting
    rw [Option.map_eq_some_iff] at advanced
    obtain ⟨next, started, rfl⟩ := advanced
    exact sound.startPlan found stage started
  · next resolved subscription successful stage => -- subscribed
    obtain rfl := Option.some.inj advanced
    have past := sound.past index execution resolved.paymentMethodId found (by rw [stage]; rfl)
    refine sound.attempt found ?_ ?_ _
    · intro row next there updated
      obtain ⟨onward, recorded⟩ := recordPaymentSetupSubscriptionId_onward updated
      refine ⟨onward, ?_⟩
      intro id named
      simp only [Stage.subscription, finishWithSubscription] at named
      split at named
      · exact recorded.trans named
      · obtain ⟨same, here, before⟩ := sound.claimed execution (List.mem_of_getElem? found) id named
        obtain rfl := Option.some.inj (there.symm.trans here)
        exact onward.subscription id before
    · intro paymentMethodId recorded
      exact Option.some.inj recorded ▸ past
  · next resolved outcome stage => -- concluding
    obtain rfl := Option.some.inj advanced
    have past := sound.past index execution resolved.paymentMethodId found (by rw [stage]; rfl)
    refine sound.attempt found ?_ ?_ _
    · intro row next there updated
      refine ⟨recordPaymentSetupPlanOutcome_onward ?_ updated, fun _ named => nomatch named⟩
      intro id named
      obtain ⟨same, here, before⟩ := sound.named execution (List.mem_of_getElem? found) id (by rw [stage]; exact named)
      obtain rfl := Option.some.inj (there.symm.trans here)
      exact before
    · intro paymentMethodId recorded
      exact Option.some.inj recorded ▸ past
  · next resolved stage => -- completing
    obtain rfl := Option.some.inj advanced
    exact sound.complete found stage _ _
  · next stage => -- expiring
    obtain rfl := Option.some.inj advanced
    exact sound.expire found stage early _
  · next stage => -- flagging
    obtain rfl := Option.some.inj advanced
    exact sound.applies found (fun _ _ updated => flagPaymentSetupAttention_onward updated) ⟨rfl, rfl⟩
  · next stage => -- releasing
    obtain rfl := Option.some.inj advanced
    exact sound.applies found (fun _ _ updated => releasePaymentSetupClaim_onward updated) ⟨rfl, rfl⟩
  · cases advanced

end

/-- One step of any kind. -/
theorem Sound.perform (early : action.expiresRecorded setups = false) :
    Sound (action.perform setups) ∧ Advanced (Completes action setups) setups (action.perform setups) := by
  cases action with
  | wait elapsed =>
    exact ⟨⟨sound.tidy, sound.single, sound.recorded, sound.past, sound.claimed, sound.named⟩, Advanced.same rfl⟩
  | create input => exact create_sound sound input
  | claim setup worker task => exact claim_sound sound setup worker task
  | advance index answer =>
    simp only [SetupAction.perform]
    split
    · exact ⟨sound, Advanced.same rfl⟩
    · next execution found =>
      split
      · exact ⟨sound, Advanced.same rfl⟩
      · next after stage advanced => exact sound.advance found advanced early
  | fail index reason =>
    simp only [SetupAction.perform]
    split
    · exact ⟨sound, Advanced.same rfl⟩
    · next execution found =>
      refine ⟨sound.idle found ?_, Advanced.same rfl⟩
      simp only [Setups.failed]
      split
      · exact ⟨rfl, rfl⟩
      · exact ⟨rfl, rfl⟩
      · exact ⟨rfl, rfl⟩
      · exact thrown_idle reason execution
  | crash index =>
    simp only [SetupAction.perform]
    split
    · exact ⟨sound, Advanced.same rfl⟩
    · next execution found => exact ⟨sound.idle found ⟨rfl, rfl⟩, Advanced.same rfl⟩

end

theorem Sound.initial (now : Int) : Sound (noSetups now) where
  tidy _ member := nomatch member
  single _ _ _ _ here := nomatch here
  recorded _ member := nomatch member
  past _ _ _ found := nomatch found
  claimed _ member := nomatch member
  named _ member := nomatch member

theorem Advanced.settles (advanced : Advanced completes setups after) : setups.Settles after where
  status setup row found isResolved := by
    obtain ⟨next, there, onward⟩ := advanced setup row found
    exact ⟨next, there, onward.status isResolved⟩
  plan setup row found settled := by
    obtain ⟨next, there, onward⟩ := advanced setup row found
    exact ⟨next, there, onward.plan settled⟩
  subscription setup row id found recorded := by
    obtain ⟨next, there, onward⟩ := advanced setup row found
    exact ⟨next, there, onward.subscription id recorded⟩

theorem Setups.Settles.refl (setups : Setups) : setups.Settles setups := by
  have same : Advanced (fun _ _ _ => False) setups setups := Advanced.same rfl
  exact same.settles

theorem Setups.Settles.trans {last : Setups} (first : setups.Settles after) (second : after.Settles last) : setups.Settles last where
  status setup row found isResolved := by
    obtain ⟨next, there, same⟩ := first.status setup row found isResolved
    rw [← same] at isResolved ⊢
    exact second.status setup next there isResolved
  plan setup row found settled := by
    obtain ⟨next, there, same⟩ := first.plan setup row found settled
    rw [← same] at settled ⊢
    exact second.plan setup next there settled
  subscription setup row id found recorded := by
    obtain ⟨next, there, same⟩ := first.subscription setup row id found recorded
    exact second.subscription setup next id there same

theorem Sound.run (actions : List SetupAction) : ∀ {setups : Setups}, Sound setups → KeepsRecorded setups actions →
    Sound (runSetups setups actions) ∧ setups.Settles (runSetups setups actions) := by
  induction actions with
  | nil => exact fun sound _ => ⟨sound, Setups.Settles.refl _⟩
  | cons action rest ih =>
    intro setups sound kept
    obtain ⟨after, advanced⟩ := sound.perform kept.1
    obtain ⟨last, settles⟩ := ih after kept.2
    exact ⟨last, advanced.settles.trans settles⟩

private theorem keepsRecorded_append (more : List SetupAction) (actions : List SetupAction) : ∀ {setups : Setups},
    KeepsRecorded setups (actions ++ more) → KeepsRecorded setups actions ∧ KeepsRecorded (runSetups setups actions) more := by
  induction actions with
  | nil => exact fun kept => ⟨trivial, kept⟩
  | cons action rest ih =>
    intro setups kept
    obtain ⟨first, second⟩ := ih kept.2
    exact ⟨⟨kept.1, first⟩, second⟩

private theorem expires_uncompleted {row : PaymentSetupRow} (late : action.expiresRecorded setups = true)
    (found : setups.rows[setup]? = some row) (there : (action.perform setups).rows[setup]? = some next)
    (isCompleted : next.status = .completed) : row.status = .completed := by
  simp only [SetupAction.expiresRecorded] at late
  split at late
  · next index =>
    cases started : setups.executions[index]? with
    | none => simp [started] at late
    | some execution =>
      cases current : setups.rows[execution.setup]? with
      | none => simp [started, current] at late
      | some old =>
        simp only [started, current, Bool.and_eq_true, decide_eq_true_eq] at late
        simp only [SetupAction.perform, started, Setups.advance, late.1.1.1, Setups.attemptUnless, current, Setups.setStage] at there
        split at there
        · next written =>
          obtain ⟨before, expired, _, updated, rfl⟩ := write_inv written
          simp only [PaymentSetupRow.expirePaymentSetup, Option.ite_none_right_eq_some] at updated
          obtain rfl := Option.some.inj updated.2
          rcases set_inv there with ⟨-, rfl⟩ | ⟨-, kept⟩
          · cases isCompleted
          · exact (Option.some.inj (found.symm.trans kept)) ▸ isCompleted
        · exact (Option.some.inj (found.symm.trans there)) ▸ isCompleted
        · exact (Option.some.inj (found.symm.trans there)) ▸ isCompleted
  · cases late

theorem Sound.completed (sound : Sound setups) {row : PaymentSetupRow}
    (found : setups.rows[setup]? = some row) (there : (action.perform setups).rows[setup]? = some next)
    (uncompleted : row.status ≠ .completed) (isCompleted : next.status = .completed) : Completes action setups setup row next := by
  cases late : action.expiresRecorded setups with
  | true => exact absurd (expires_uncompleted late found there isCompleted) uncompleted
  | false =>
    obtain ⟨last, here, onward⟩ := (sound.perform late).2 setup row found
    obtain rfl := Option.some.inj (there.symm.trans here)
    exact (onward.completed isCompleted).resolve_left uncompleted

theorem Sound.resolvesOnce (sound : Sound setups) : setups.ResolvesOnce where
  single := sound.single
  recorded record member := by
    obtain ⟨row, found, isSome⟩ := sound.recorded record member
    refine ⟨row, found, ?_⟩
    intro expired
    rw [sound.tidy row (List.mem_of_getElem? found) (.inr (.inr expired))] at isSome
    cases isSome
  completed action setup row next := sound.completed

end States

/-- In every run that expires no setup which needs attention after its saved card was recorded, setups are resolved once. -/
theorem payment_setup_resolved_once (now : Int) (actions more : List SetupAction) (kept : KeepsRecorded (noSetups now) (actions ++ more)) :
    (runSetups (noSetups now) actions).ResolvesOnce ∧
      (runSetups (noSetups now) actions).Settles (runSetups (noSetups now) (actions ++ more)) := by
  obtain ⟨keptFirst, keptMore⟩ := keepsRecorded_append more actions kept
  obtain ⟨sound, -⟩ := (Sound.initial now).run actions keptFirst
  obtain ⟨-, settles⟩ := sound.run more keptMore
  refine ⟨sound.resolvesOnce, ?_⟩
  simp only [runSetups, List.foldl_append] at settles ⊢
  exact settles

/-- A completion whose card is recorded, and which Stripe then fails until the setup needs attention. -/
def flaggedRun : List SetupAction :=
  let card : StripeSetupIntent := ⟨some "succeeded".toList, some ['c'], some (['m'], some (some "card".toList))⟩
  [.create ⟨['b'], none, ['c'], ['t'], ['h'], false⟩, .advance 0 (.session ['s'] ['u']), .advance 0 .nothing,
    .claim 0 ['w'] (.event ⟨false, ['s'], some ['i']⟩), .advance 1 (.setupIntent none card), .advance 1 .nothing,
    .fail 1 ['e'], .advance 1 .nothing,
    .claim 0 ['w'] (.reconciliation true), .fail 2 ['e'], .advance 2 .nothing, .advance 2 .nothing]

/-- The run goes on with a later attempt that claims the setup. -/
theorem payment_setup_resolved_once_flagged : KeepsRecorded (noSetups 0) (flaggedRun ++ [.claim 0 ['w'] (.reconciliation false)]) ∧
    (runSetups (noSetups 0) flaggedRun).ResolvesOnce := by
  have kept : KeepsRecorded (noSetups 0) (flaggedRun ++ [.claim 0 ['w'] (.reconciliation false)]) := by decide
  exact ⟨kept, (payment_setup_resolved_once 0 flaggedRun [.claim 0 ['w'] (.reconciliation false)] kept).1⟩

/-- A late expiry event then expires the setup, whose saved card had been recorded. -/
theorem recorded_setup_expires : ¬ ∀ (now : Int) (actions : List SetupAction), (runSetups (noSetups now) actions).ResolvesOnce := by
  intro claim
  let late := flaggedRun ++ [.claim 0 ['w'] (.event ⟨true, ['s'], none⟩), .advance 3 .nothing]
  have recorded : (⟨1, 0, ['w'], ['m']⟩ : IntentRecord) ∈ (runSetups (noSetups 0) late).intents := by decide
  obtain ⟨row, found, unexpired⟩ := (claim 0 late).recorded _ recorded
  have expired : (runSetups (noSetups 0) late).rows[0]?.map PaymentSetupRow.status = some .expired := by decide
  rw [found] at expired
  exact unexpired (Option.some.inj expired)

end Quotum.PaymentSetups
