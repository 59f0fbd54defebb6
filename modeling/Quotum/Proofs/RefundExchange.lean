import Quotum.RefundExchange
import Quotum.Proofs.RefundRequests

/-! A refund request creates one refund at most: every call is applied while Stripe still keeps its key. -/

namespace Quotum.RefundExchange
open General RefundRequests

def Shows (refunds : List StripeRefund) (answer : StripeRefundAnswer) : Prop :=
  ∃ refund ∈ refunds, refund.id = answer.id ∧ refund.named = true ∧ answer.status ∈ refund.statuses

/-- What the exchange keeps in any order of steps. -/
structure Sound (exchange : Exchange) : Prop where
  ids : exchange.refunds.map StripeRefund.id = List.range exchange.refunds.length
  begun : ∀ row ∈ exchange.request, row.createdAt ≤ exchange.clock
  calls : ∀ call ∈ exchange.calls, ∃ row ∈ exchange.request, call.startedAt < row.createdAt + resendWindow
  keyed : ∀ entry ∈ exchange.key, ∃ row ∈ exchange.request, row.createdAt ≤ entry.1
  named : ∀ refund ∈ exchange.refunds, refund.named = true → ∃ usedAt, exchange.key = some (usedAt, .refund refund.id)
  kept : ∀ entry ∈ exchange.key, ∀ id, entry.2 = .refund id → ∃ refund ∈ exchange.refunds, refund.id = id ∧ refund.named = true
  answers : ∀ call ∈ exchange.calls, ∀ answer, call.reply = some (.refund answer) → Shows exchange.refunds answer
  errors : ∀ call ∈ exchange.calls, ∀ error, call.reply = some (.error error) → ∃ usedAt, exchange.key = some (usedAt, .error error)
  found : ∀ answer, .found (some answer) ∈ exchange.executions → Shows exchange.refunds answer
  recorded : ∀ row ∈ exchange.request, ∀ id ∈ row.providerRefundId, ∃ refund ∈ exchange.refunds, refund.id = id ∧ refund.named = true
  failed : ∀ row ∈ exchange.request, row.status = .failed → (∃ usedAt error, exchange.key = some (usedAt, .error error)) ∨
    ∃ refund ∈ exchange.refunds, refund.named = true ∧ ∃ status ∈ refund.statuses, status = .failed ∨ status = .canceled

section Exchanges
variable {exchange : Exchange} {row : RefundRequestRow}

section
variable (sound : Sound exchange) {answer : StripeRefundAnswer} {reply : CreateReply}
include sound

theorem Sound.sameRefund {first second : StripeRefund} (one : first ∈ exchange.refunds)
    (other : second ∈ exchange.refunds) (same : first.id = second.id) : first = second := by
  have distinct : (exchange.refunds.map StripeRefund.id).Nodup := by
    rw [sound.ids]
    exact List.nodup_range
  exact List.inj_on_of_nodup_map distinct one other same

theorem Sound.createdOnce : exchange.CreatedOnce where
  recorded := sound.recorded
  once := by
    rw [List.countP_eq_length_filter]
    have all : ∀ first ∈ exchange.refunds.filter StripeRefund.named, ∀ second ∈ exchange.refunds.filter StripeRefund.named, first = second := by
      intro first one second other
      obtain ⟨oneInside, oneNamed⟩ := List.mem_filter.mp one
      obtain ⟨otherInside, otherNamed⟩ := List.mem_filter.mp other
      obtain ⟨_, oneKey⟩ := sound.named first oneInside oneNamed
      obtain ⟨_, otherKey⟩ := sound.named second otherInside otherNamed
      rw [oneKey] at otherKey
      have same : first.id = second.id := by
        injection otherKey with pair
        injection pair with _ answer
        injection answer
      exact sound.sameRefund oneInside otherInside same
    have distinct : (exchange.refunds.filter StripeRefund.named).Nodup := by
      have ids : exchange.refunds.Nodup := by
        apply List.Nodup.of_map StripeRefund.id
        rw [sound.ids]
        exact List.nodup_range
      exact ids.filter _
    exact length_le_one distinct all
  failed := by
    intro row member failed
    rcases sound.failed row member failed with ⟨usedAt, error, key⟩ | reported
    · left
      intro refund inside
      apply Bool.eq_false_iff.mpr
      intro named
      obtain ⟨_, other⟩ := sound.named refund inside named
      rw [key] at other
      injection other with pair
      injection pair with _ answer
      cases answer
    · exact .inr reported

def Exchange.refused (exchange : Exchange) : Prop :=
  (∃ usedAt error, exchange.key = some (usedAt, .error error)) ∨
    ∃ refund ∈ exchange.refunds, refund.named = true ∧ ∃ status ∈ refund.statuses, status = .failed ∨ status = .canceled

/-- A stage of an execution, which knows only refunds that carry the request's id. -/
theorem Sound.staged (index : Nat) {stage : ExecutionStage}
    (shows : ∀ answer, stage = .found (some answer) → Shows exchange.refunds answer) : Sound (exchange.setStage index stage) := by
  refine ⟨sound.ids, sound.begun, sound.calls, sound.keyed, sound.named, sound.kept, sound.answers, sound.errors, ?_, sound.recorded,
    sound.failed⟩
  intro answer member
  rcases List.mem_or_eq_of_mem_set member with old | same
  · exact sound.found answer old
  · exact shows answer same.symm

theorem Sound.written {edit : RefundRequestRow → RefundRequestRow}
    (created : ∀ row, (edit row).createdAt = row.createdAt)
    (ids : ∀ row ∈ exchange.request, ∀ id ∈ (edit row).providerRefundId, id ∈ row.providerRefundId ∨
      ∃ refund ∈ exchange.refunds, refund.id = id ∧ refund.named = true)
    (failed : ∀ row ∈ exchange.request, (edit row).status = .failed → row.status = .failed ∨ exchange.refused) :
    Sound { exchange with request := exchange.request.map edit } := by
  have of {row : RefundRequestRow} (member : row ∈ exchange.request.map edit) : ∃ old ∈ exchange.request, edit old = row := by
    rw [Option.mem_def, Option.map_eq_some_iff] at member
    exact member
  have into {row : RefundRequestRow} (member : row ∈ exchange.request) : edit row ∈ exchange.request.map edit :=
    Option.mem_map_of_mem edit member
  refine ⟨sound.ids, ?_, ?_, ?_, sound.named, sound.kept, sound.answers, sound.errors, sound.found, ?_, ?_⟩
  · intro row member
    obtain ⟨old, inside, rfl⟩ := of member
    rw [created]
    exact sound.begun old inside
  · intro call member
    obtain ⟨row, inside, early⟩ := sound.calls call member
    exact ⟨edit row, into inside, by rw [created]; exact early⟩
  · intro entry member
    obtain ⟨row, inside, later⟩ := sound.keyed entry member
    exact ⟨edit row, into inside, by rw [created]; exact later⟩
  · intro row member id isId
    obtain ⟨old, inside, rfl⟩ := of member
    exact (ids old inside id isId).elim (sound.recorded old inside id) fun known => known
  · intro row member isFailed
    obtain ⟨old, inside, rfl⟩ := of member
    exact (failed old inside isFailed).elim (sound.failed old inside) fun known => known

omit sound in
theorem refundState_failed {status : StripeRefundStatus} {failureReason : Option Text}
    (failed : (refundState (some status) failureReason).1 = .failed) : status = .failed ∨ status = .canceled := by
  cases status with
  | failed => exact .inl rfl
  | canceled => exact .inr rfl
  | pending | requiresAction | succeeded => cases failed

omit sound in
theorem Shows.refused (shows : Shows exchange.refunds answer)
    (failed : (refundState (some answer.status) answer.failureReason).1 = .failed) : exchange.refused := by
  obtain ⟨refund, inside, -, named, status⟩ := shows
  exact .inr ⟨refund, inside, named, answer.status, status, refundState_failed failed⟩

theorem Sound.outcome {input : RecordRefundOutcomeInput}
    (ids : ∀ id ∈ input.providerRefundId, ∃ refund ∈ exchange.refunds, refund.id = id ∧ refund.named = true)
    (failed : input.status = .failed → exchange.refused) : Sound (exchange.recordOutcome input) := by
  apply sound.written
  · intro row
    simp only [RefundRequestRow.recordRefundOutcome]
    split <;> rfl
  · intro row inside id isId
    simp only [RefundRequestRow.recordRefundOutcome] at isId
    split at isId
    · rw [Option.mem_def, Option.orElse_eq_some] at isId
      rcases isId with given | ⟨-, kept⟩
      · exact .inr (ids id given)
      · exact .inl kept
    · exact .inl isId
  · intro row inside isFailed
    simp only [RefundRequestRow.recordRefundOutcome] at isFailed
    split at isFailed
    · exact .inr (failed isFailed)
    · exact .inl isFailed

theorem Sound.answered (shows : Shows exchange.refunds answer) :
    Sound (exchange.recordOutcome (outcomeOf answer)) := by
  apply sound.outcome
  · intro id isId
    obtain rfl := Option.some.inj isId
    obtain ⟨refund, inside, same, named, -⟩ := shows
    exact ⟨refund, inside, same, named⟩
  · exact shows.refused

theorem Sound.execute : Sound exchange.execute := by
  simp only [Exchange.execute]
  have staged {stage : ExecutionStage} (claims : ∀ answer, stage ≠ .found (some answer)) :
      ∀ answer, .found (some answer) ∈ exchange.executions ++ [stage] → Shows exchange.refunds answer := by
    intro answer member
    rcases List.mem_append.mp member with old | new
    · exact sound.found answer old
    · exact absurd (List.mem_singleton.mp new).symm (claims answer)
  split
  · next unclaimed =>
    have nobody {row : RefundRequestRow} (member : row ∈ exchange.request) : False := by
      rw [unclaimed] at member
      cases member
    refine ⟨sound.ids, ?_, ?_, ?_, sound.named, sound.kept, sound.answers, sound.errors, staged (fun _ => ExecutionStage.noConfusion), ?_, ?_⟩
    · rintro row ⟨⟩
      exact le_rfl
    · intro call member
      obtain ⟨row, inside, -⟩ := sound.calls call member
      exact (nobody inside).elim
    · intro entry member
      obtain ⟨row, inside, -⟩ := sound.keyed entry member
      exact (nobody inside).elim
    · rintro row ⟨⟩ id ⟨⟩
    · rintro row ⟨⟩ ⟨⟩
  · exact ⟨sound.ids, sound.begun, sound.calls, sound.keyed, sound.named, sound.kept, sound.answers, sound.errors,
      staged (fun _ => ExecutionStage.noConfusion), sound.recorded, sound.failed⟩

theorem Sound.advance (index : Nat) : Sound (exchange.advance index) := by
  simp only [Exchange.advance]
  split
  · next row _ isRow =>
    split
    · exact sound.staged index fun _ none => nomatch none
    · next early =>
      have staged : Sound (exchange.setStage index (.sending exchange.calls.length)) := sound.staged index fun _ none => nomatch none
      have either {call : CreateCall} (member : call ∈ exchange.calls ++ [⟨exchange.clock, none⟩]) :
          call ∈ exchange.calls ∨ call = ⟨exchange.clock, none⟩ := by
        rwa [List.mem_append, List.mem_singleton] at member
      refine ⟨staged.ids, staged.begun, ?_, staged.keyed, staged.named, staged.kept, ?_, ?_, staged.found, staged.recorded, staged.failed⟩
      · intro call member
        rcases either member with old | rfl
        · exact sound.calls call old
        · exact ⟨row, isRow, by dsimp only; omega⟩
      · intro call member answer reply
        rcases either member with old | rfl
        · exact sound.answers call old answer reply
        · cases reply
      · intro call member error reply
        rcases either member with old | rfl
        · exact sound.errors call old error reply
        · cases reply
  · exact sound.staged index fun _ none => nomatch none
  · exact sound

omit sound in
/-- The calls after one of them is answered. -/
theorem mem_reply {call : Nat} {changed : CreateCall} (member : changed ∈ (exchange.reply call reply).calls) :
    changed ∈ exchange.calls ∨ ∃ old ∈ exchange.calls, changed = { old with reply := some reply } := by
  obtain ⟨index, found⟩ := List.mem_iff_getElem?.mp member
  simp only [Exchange.reply, List.getElem?_modify] at found
  cases there : exchange.calls[index]? with
  | none =>
    rw [there] at found
    cases found
  | some old =>
    rw [there] at found
    have inside := List.mem_of_getElem? there
    rw [← Option.some.inj found]
    simp only
    split
    · exact .inr ⟨old, inside, rfl⟩
    · exact .inl inside

theorem Sound.replied (call : Nat) (shows : ∀ answer, reply = .refund answer → Shows exchange.refunds answer)
    (keeps : ∀ error, reply = .error error → ∃ usedAt, exchange.key = some (usedAt, .error error)) : Sound (exchange.reply call reply) := by
  refine ⟨sound.ids, sound.begun, ?_, sound.keyed, sound.named, sound.kept, ?_, ?_, sound.found, sound.recorded, sound.failed⟩
  · intro changed member
    rcases mem_reply member with old | ⟨old, inside, rfl⟩
    · exact sound.calls changed old
    · exact sound.calls old inside
  · intro changed member answer given
    rcases mem_reply member with old | ⟨old, inside, rfl⟩
    · exact sound.answers changed old answer given
    · exact shows answer (Option.some.inj given)
  · intro changed member error given
    rcases mem_reply member with old | ⟨old, inside, rfl⟩
    · exact sound.errors changed old error given
    · exact keeps error (Option.some.inj given)

omit sound in
theorem Shows.grows {before after : List StripeRefund} (shows : Shows before answer)
    (kept : ∀ refund ∈ before, ∃ later ∈ after, later.id = refund.id ∧ later.named = refund.named ∧ refund.statuses ⊆ later.statuses) :
    Shows after answer := by
  obtain ⟨refund, inside, same, named, status⟩ := shows
  obtain ⟨later, there, laterId, laterNamed, statuses⟩ := kept refund inside
  exact ⟨later, there, laterId.trans same, laterNamed.trans named, statuses status⟩

theorem Sound.grown {refunds : List StripeRefund}
    (ids : refunds.map StripeRefund.id = List.range refunds.length)
    (named : ∀ refund ∈ refunds, refund.named = true → ∃ old ∈ exchange.refunds, old.id = refund.id ∧ old.named = true)
    (kept : ∀ refund ∈ exchange.refunds, ∃ later ∈ refunds, later.id = refund.id ∧ later.named = refund.named ∧
      refund.statuses ⊆ later.statuses) : Sound { exchange with refunds := refunds } := by
  have stands {id : Nat} (known : ∃ refund ∈ exchange.refunds, refund.id = id ∧ refund.named = true) :
      ∃ refund ∈ refunds, refund.id = id ∧ refund.named = true := by
    obtain ⟨refund, inside, same, isNamed⟩ := known
    obtain ⟨later, there, laterId, laterNamed, -⟩ := kept refund inside
    exact ⟨later, there, laterId.trans same, laterNamed.trans isNamed⟩
  refine ⟨ids, sound.begun, sound.calls, sound.keyed, ?_, ?_, ?_, sound.errors, ?_, ?_, ?_⟩
  · intro refund inside isNamed
    obtain ⟨old, there, same, oldNamed⟩ := named refund inside isNamed
    rw [← same]
    exact sound.named old there oldNamed
  · exact fun entry member id isRefund => stands (sound.kept entry member id isRefund)
  · exact fun call member answer reply => (sound.answers call member answer reply).grows kept
  · exact fun answer member => (sound.found answer member).grows kept
  · exact fun row member id isId => stands (sound.recorded row member id isId)
  · intro row member failed
    rcases sound.failed row member failed with key | ⟨refund, inside, isNamed, status, shown, reported⟩
    · exact .inl key
    · obtain ⟨later, there, -, laterNamed, statuses⟩ := kept refund inside
      exact .inr ⟨later, there, laterNamed.trans isNamed, status, statuses shown, reported⟩

theorem Sound.elsewhere (status : StripeRefundStatus) :
    Sound { exchange with refunds := exchange.refunds ++ [⟨exchange.refunds.length, false, [status]⟩] } := by
  apply sound.grown
  · rw [List.map_append, sound.ids, List.length_append, List.length_singleton, List.range_succ]
    rfl
  · intro refund member named
    rcases List.mem_append.mp member with old | new
    · exact ⟨refund, old, rfl, named⟩
    · rw [List.mem_singleton.mp new] at named
      cases named
  · exact fun refund member => ⟨refund, List.mem_append_left _ member, rfl, rfl, fun _ shown => shown⟩

omit sound in
theorem report_cases (exchange : Exchange) (refund : Nat) (status : StripeRefundStatus) (index : Nat) : (exchange.report refund status).refunds[index]? =
    exchange.refunds[index]?.map fun old => if refund = index then { old with statuses := old.statuses ++ [status] } else old := by
  simp only [Exchange.report, List.getElem?_modify]
  cases exchange.refunds[index]? with
  | none => rfl
  | some old => rfl

theorem Sound.report (refund : Nat) (status : StripeRefundStatus) : Sound (exchange.report refund status) := by
  apply sound.grown
  · have same : (exchange.refunds.modify refund fun refund => { refund with statuses := refund.statuses ++ [status] }).map StripeRefund.id =
        exchange.refunds.map StripeRefund.id := by
      apply List.ext_getElem?
      intro index
      rw [List.getElem?_map, List.getElem?_map]
      have cases_ := report_cases exchange refund status index
      simp only [Exchange.report] at cases_
      rw [cases_]
      cases exchange.refunds[index]? with
      | none => rfl
      | some old =>
        simp only [Option.map_some]
        split <;> rfl
    rw [same, List.length_modify]
    exact sound.ids
  · intro changed member named
    obtain ⟨index, found⟩ := List.mem_iff_getElem?.mp member
    have cases_ := report_cases exchange refund status index
    simp only [Exchange.report] at cases_
    rw [cases_, Option.map_eq_some_iff] at found
    obtain ⟨old, there, rfl⟩ := found
    refine ⟨old, List.mem_of_getElem? there, ?_⟩
    split at named <;> split <;> exact ⟨rfl, named⟩
  · intro old member
    obtain ⟨index, found⟩ := List.mem_iff_getElem?.mp member
    have cases_ := report_cases exchange refund status index
    simp only [Exchange.report] at cases_
    rw [found, Option.map_some] at cases_
    refine ⟨_, List.mem_of_getElem? cases_, ?_⟩
    split
    · exact ⟨rfl, rfl, List.subset_append_left _ _⟩
    · exact ⟨rfl, rfl, fun _ shown => shown⟩

theorem Sound.place {index : Nat} {refund : StripeRefund} (found : exchange.refunds[index]? = some refund) :
    refund.id = index := by
  have ids : (exchange.refunds.map StripeRefund.id)[index]? = some refund.id := by rw [List.getElem?_map, found, Option.map_some]
  rw [sound.ids, List.getElem?_range (List.getElem?_eq_some_iff.mp found).1] at ids
  exact (Option.some.inj ids).symm

/-- Every call is applied while Stripe still keeps the key, once it was used. -/
theorem Sound.remembers {call : CreateCall} (member : call ∈ exchange.calls)
    (applied : exchange.clock ≤ call.startedAt + callWindow) (forgotten : exchange.remembered = none) : exchange.key = none := by
  cases key : exchange.key with
  | none => rfl
  | some entry =>
    obtain ⟨row, isRow, early⟩ := sound.calls call member
    obtain ⟨other, isOther, later⟩ := sound.keyed entry key
    have same : row = other := Option.mem_unique isRow isOther
    subst same
    simp only [Exchange.remembered, key] at forgotten
    split at forgotten
    · cases forgotten
    · next old =>
      simp only [resendWindow, callWindow, keyWindow] at *
      omega

omit sound in
theorem remembered_key {answer : KeyAnswer} (remembered : exchange.remembered = some answer) :
    ∃ usedAt, exchange.key = some (usedAt, answer) := by
  simp only [Exchange.remembered] at remembered
  split at remembered
  · next usedAt kept key =>
    split at remembered
    · cases remembered
      exact ⟨usedAt, key⟩
    · cases remembered
  · cases remembered

theorem Sound.unused (unused : exchange.key = none) : ∀ refund ∈ exchange.refunds, refund.named = false := by
  intro refund inside
  apply Bool.eq_false_iff.mpr
  intro named
  obtain ⟨_, key⟩ := sound.named refund inside named
  rw [unused] at key
  cases key

theorem Sound.creates (call : Nat) {sent : CreateCall} (member : sent ∈ exchange.calls) (unused : exchange.key = none)
    (status : StripeRefundStatus) (failureReason : Option Text) :
    Sound { exchange.reply call (.refund ⟨exchange.refunds.length, status, failureReason⟩) with
      refunds := exchange.refunds ++ [⟨exchange.refunds.length, true, [status]⟩]
      key := some (exchange.clock, .refund exchange.refunds.length) } := by
  have none := sound.unused unused
  obtain ⟨row, isRow, -⟩ := sound.calls sent member
  have created : (⟨exchange.refunds.length, true, [status]⟩ : StripeRefund) ∈
      exchange.refunds ++ [⟨exchange.refunds.length, true, [status]⟩] := List.mem_append_right _ (List.mem_singleton_self _)
  have nobody {answer : StripeRefundAnswer} (shows : Shows exchange.refunds answer) : False := by
    obtain ⟨refund, inside, -, named, -⟩ := shows
    rw [none refund inside] at named
    cases named
  refine ⟨?_, sound.begun, ?_, ?_, ?_, ?_, ?_, ?_, ?_, ?_, ?_⟩
  · rw [List.map_append, sound.ids, List.length_append, List.length_singleton, List.range_succ]
    rfl
  · intro changed inside
    rcases mem_reply inside with old | ⟨old, there, rfl⟩
    · exact sound.calls changed old
    · exact sound.calls old there
  · rintro entry ⟨⟩
    exact ⟨row, isRow, sound.begun row isRow⟩
  · intro refund inside named
    rcases List.mem_append.mp inside with old | new
    · rw [none refund old] at named
      cases named
    · rw [List.mem_singleton.mp new]
      exact ⟨exchange.clock, rfl⟩
  · rintro entry ⟨⟩ id ⟨⟩
    exact ⟨_, created, rfl, rfl⟩
  · intro changed inside answer given
    rcases mem_reply inside with old | ⟨old, there, rfl⟩
    · exact (nobody (sound.answers changed old answer given)).elim
    · cases given
      exact ⟨_, created, rfl, rfl, List.mem_singleton_self _⟩
  · intro changed inside error given
    rcases mem_reply inside with old | ⟨old, there, rfl⟩
    · obtain ⟨_, key⟩ := sound.errors changed old error given
      rw [unused] at key
      cases key
    · cases given
  · exact fun answer inside => (nobody (sound.found answer inside)).elim
  · intro other isOther id isId
    obtain ⟨refund, inside, -, named⟩ := sound.recorded other isOther id isId
    rw [none refund inside] at named
    cases named
  · intro other isOther failed
    rcases sound.failed other isOther failed with ⟨_, _, key⟩ | ⟨refund, inside, named, -⟩
    · rw [unused] at key
      cases key
    · rw [none refund inside] at named
      cases named

/-- The first call under the key is answered by an error, which the key then stands for. -/
theorem Sound.refuses (call : Nat) {sent : CreateCall} (member : sent ∈ exchange.calls) (unused : exchange.key = none)
    (error : StripeError) : Sound { exchange.reply call (.error error) with key := some (exchange.clock, .error error) } := by
  have none := sound.unused unused
  obtain ⟨row, isRow, -⟩ := sound.calls sent member
  refine ⟨sound.ids, sound.begun, ?_, ?_, ?_, ?_, ?_, ?_, sound.found, sound.recorded, ?_⟩
  · intro changed inside
    rcases mem_reply inside with old | ⟨old, there, rfl⟩
    · exact sound.calls changed old
    · exact sound.calls old there
  · rintro entry ⟨⟩
    exact ⟨row, isRow, sound.begun row isRow⟩
  · intro refund inside named
    rw [none refund inside] at named
    cases named
  · rintro entry ⟨⟩ id ⟨⟩
  · intro changed inside answer given
    rcases mem_reply inside with old | ⟨old, there, rfl⟩
    · exact sound.answers changed old answer given
    · cases given
  · intro changed inside other given
    rcases mem_reply inside with old | ⟨old, there, rfl⟩
    · obtain ⟨_, key⟩ := sound.errors changed old other given
      rw [unused] at key
      cases key
    · cases given
      exact ⟨exchange.clock, rfl⟩
  · exact fun other isOther failed => .inl ⟨exchange.clock, error, rfl⟩

theorem Sound.apply (call : Nat) (first : StripeRefundStatus ⊕ StripeError) (shown : Nat)
    (failureReason : Option Text) : Sound (exchange.apply call first shown failureReason) := by
  simp only [Exchange.apply]
  split
  · exact sound
  · next sent found =>
    have member := List.mem_of_getElem? found
    split
    · exact sound
    · next applied =>
      split
      · next id remembered =>
        split
        · exact sound
        · next refund there =>
          split
          · exact sound
          · next status isShown =>
            refine sound.replied call ?_ fun _ none => nomatch none
            rintro answer ⟨⟩
            obtain ⟨usedAt, key⟩ := remembered_key remembered
            obtain ⟨named, inside, same, isNamed⟩ := sound.kept _ key id rfl
            have place := sound.place there
            have equal := sound.sameRefund inside (List.mem_of_getElem? there) (same.trans place.symm)
            exact ⟨named, inside, same, isNamed, equal ▸ List.mem_of_getElem? isShown⟩
      · next error remembered =>
        refine sound.replied call (fun _ none => nomatch none) ?_
        rintro other ⟨⟩
        exact remembered_key remembered
      · next status forgotten =>
        have unused := sound.remembers member (not_lt.mp applied) forgotten
        exact sound.creates call member unused status failureReason
      · next error forgotten =>
        have unused := sound.remembers member (not_lt.mp applied) forgotten
        exact sound.refuses call member unused error

omit sound in
theorem reply_inv {call : Nat} (given : exchange.calls[call]?.bind CreateCall.reply = some reply) :
    ∃ sent ∈ exchange.calls, sent.reply = some reply := by
  rw [Option.bind_eq_some_iff] at given
  obtain ⟨sent, found, same⟩ := given
  exact ⟨sent, List.mem_of_getElem? found, same⟩

theorem Sound.receive (index : Nat) : Sound (exchange.receive index) := by
  simp only [Exchange.receive]
  split
  · next call sending =>
    split
    · exact sound
    · next answer given =>
      obtain ⟨sent, member, reply⟩ := reply_inv given
      exact (sound.answered (sound.answers sent member answer reply)).staged index fun _ none => nomatch none
    · next error given =>
      obtain ⟨sent, member, reply⟩ := reply_inv given
      split
      · exact sound.staged index fun _ none => nomatch none
      · next refusal _ =>
        obtain ⟨usedAt, key⟩ := sound.errors sent member error reply
        have outcome : Sound (exchange.recordOutcome ⟨.failed, none, some refusal⟩) :=
          sound.outcome (fun _ none => nomatch none) fun _ => .inl ⟨usedAt, error, key⟩
        exact outcome.staged index fun _ none => nomatch none
  · exact sound

theorem Sound.look (index : Nat) (failureReason : Option Text) : Sound (exchange.look index failureReason) := by
  simp only [Exchange.look]
  split
  · apply sound.staged index
    intro answer same
    have found := ExecutionStage.found.inj same
    rw [Option.bind_eq_some_iff] at found
    obtain ⟨refund, isRefund, shown⟩ := found
    rw [Option.map_eq_some_iff] at shown
    obtain ⟨status, last, rfl⟩ := shown
    exact ⟨refund, List.mem_of_find?_eq_some isRefund, rfl, List.find?_some isRefund, List.mem_of_getLast? last⟩
  · exact sound

theorem Sound.record (index : Nat) : Sound (exchange.record index) := by
  simp only [Exchange.record]
  split
  · have outcome : Sound (exchange.recordOutcome unconfirmed) := sound.outcome (fun _ none => nomatch none) fun none => nomatch none
    exact outcome.staged index fun _ none => nomatch none
  · next answer found =>
    exact (sound.answered (sound.found answer (List.mem_of_getElem? found))).staged index fun _ none => nomatch none
  · exact sound

/-- A refund event moves the request of its own refund only. -/
theorem Sound.event (refund shown : Nat) (failureReason : Option Text) :
    Sound (exchange.event refund shown failureReason) := by
  simp only [Exchange.event]
  split
  · exact sound
  · next target found =>
    have inside := List.mem_of_getElem? found
    split
    · exact sound
    · next status isShown =>
      have named {row : RefundRequestRow} (isRow : row ∈ exchange.request)
          (mine : row.providerRefundId = some target.id ∨ target.named = true ∧ row.providerRefundId = none) : target.named = true := by
        rcases mine with recorded | ⟨named, -⟩
        · obtain ⟨other, there, same, isNamed⟩ := sound.recorded row isRow target.id recorded
          rw [sound.sameRefund inside there same.symm]
          exact isNamed
        · exact named
      apply sound.written
      · intro row
        simp only [RefundRequestRow.applyProviderRefundState]
        split <;> rfl
      · intro row isRow id isId
        simp only [RefundRequestRow.applyProviderRefundState] at isId
        split at isId
        · next moved =>
          rw [Option.mem_def, Option.orElse_eq_some] at isId
          rcases isId with kept | ⟨-, given⟩
          · exact .inl kept
          · exact .inr ⟨target, inside, Option.some.inj given, named isRow moved.1⟩
        · exact .inl isId
      · intro row isRow failed
        simp only [RefundRequestRow.applyProviderRefundState] at failed
        split at failed
        · next moved =>
          exact .inr (.inr ⟨target, inside, named isRow moved.1, status, List.mem_of_getElem? isShown, refundState_failed failed⟩)
        · exact .inl failed

theorem Sound.wait (elapsed : Nat) : Sound { exchange with clock := exchange.clock + elapsed } := by
  refine ⟨sound.ids, ?_, sound.calls, sound.keyed, sound.named, sound.kept, sound.answers, sound.errors, sound.found, sound.recorded,
    sound.failed⟩
  intro row isRow
  exact (sound.begun row isRow).trans (Int.le_add_of_nonneg_right (Int.natCast_nonneg elapsed))

theorem Sound.perform (step : ExchangeStep) : Sound (step.perform exchange) := by
  cases step with
  | wait elapsed => exact sound.wait elapsed
  | execute => exact sound.execute
  | advance index => exact sound.advance index
  | apply call first shown failureReason => exact sound.apply call first shown failureReason
  | receive index => exact sound.receive index
  | look index failureReason => exact sound.look index failureReason
  | record index => exact sound.record index
  | crash index => exact sound.staged index fun _ none => nomatch none
  | refundElsewhere status => exact sound.elsewhere status
  | report refund status => exact sound.report refund status
  | event refund shown failureReason => exact sound.event refund shown failureReason

end

theorem runExchange_sound (steps : List ExchangeStep) (sound : Sound exchange) : Sound (runExchange exchange steps) := by
  induction steps generalizing exchange with
  | nil => exact sound
  | cons step steps more => exact more (sound.perform step)

theorem unexecuted_sound (clock : Int) : Sound (unexecuted clock) := by
  refine ⟨rfl, ?_, ?_, ?_, ?_, ?_, ?_, ?_, ?_, ?_, ?_⟩ <;> simp [unexecuted]

theorem perform_settled (recorded : exchange.request = some row) (settled : row.status.isOpen = false)
    (step : ExchangeStep) : (step.perform exchange).request = some row := by
  have outcome (input : RecordRefundOutcomeInput) : (exchange.recordOutcome input).request = some row := by
    simp only [Exchange.recordOutcome, recorded, Option.map_some, recordRefundOutcome_settled settled]
  cases step with
  | wait elapsed => exact recorded
  | execute => simp only [ExchangeStep.perform, Exchange.execute, recorded]
  | advance index =>
    simp only [ExchangeStep.perform, Exchange.advance]
    split
    · split <;> exact recorded
    · exact recorded
    · exact recorded
  | apply call first shown failureReason =>
    simp only [ExchangeStep.perform, Exchange.apply]
    split
    · exact recorded
    · split
      · exact recorded
      · split
        · split
          · exact recorded
          · split <;> exact recorded
        · exact recorded
        · exact recorded
        · exact recorded
  | receive index =>
    simp only [ExchangeStep.perform, Exchange.receive]
    split
    · split
      · exact recorded
      · exact outcome _
      · split
        · exact recorded
        · exact outcome _
    · exact recorded
  | look index failureReason =>
    simp only [ExchangeStep.perform, Exchange.look]
    split <;> exact recorded
  | record index =>
    simp only [ExchangeStep.perform, Exchange.record]
    split
    · exact outcome _
    · exact outcome _
    · exact recorded
  | crash index => exact recorded
  | refundElsewhere status => exact recorded
  | report refund status => exact recorded
  | event refund shown failureReason =>
    simp only [ExchangeStep.perform, Exchange.event]
    split
    · exact recorded
    · split
      · exact recorded
      · simp only [recorded, Option.map_some, applyProviderRefundState_settled settled]

theorem runExchange_settled (steps : List ExchangeStep) (recorded : exchange.request = some row)
    (settled : row.status.isOpen = false) : (runExchange exchange steps).request = some row := by
  induction steps generalizing exchange with
  | nil => exact recorded
  | cons step steps more => exact more (perform_settled recorded settled step)

/-- An event of another refund than the recorded one moves nothing. -/
theorem event_other (sound : Sound exchange) (isRow : exchange.request = some row) {recorded refund : Nat}
    (has : row.providerRefundId = some recorded) (other : recorded ≠ refund) (shown : Nat) (failureReason : Option Text) :
    exchange.event refund shown failureReason = exchange := by
  simp only [Exchange.event]
  split
  · rfl
  · next target found =>
    split
    · rfl
    · have apart : recorded ≠ target.id := by
        rw [sound.place found]
        exact other
      rw [isRow, Option.map_some, applyProviderRefundState_other has _ apart, ← isRow]

/-- In any order of executions, crashes, retries and refund events of one preview, one refund at most carries the request's id. A settled
request never changes, a request is recorded as failed only when Stripe has no refund of it or reported it as failed or canceled, and
an event of another refund than the recorded one moves nothing. -/
theorem refund_created_once (clock : Int) (steps : List ExchangeStep) :
    (runExchange (unexecuted clock) steps).CreatedOnce ∧
    (∀ earlier later, steps = earlier ++ later → ∀ row ∈ (runExchange (unexecuted clock) earlier).request, row.status.isOpen = false →
      (runExchange (unexecuted clock) steps).request = some row) ∧
    ∀ row ∈ (runExchange (unexecuted clock) steps).request, ∀ recorded ∈ row.providerRefundId, ∀ refund shown failureReason, recorded ≠ refund →
      runExchange (unexecuted clock) (steps ++ [.event refund shown failureReason]) = runExchange (unexecuted clock) steps := by
  have sound := runExchange_sound steps (unexecuted_sound clock)
  refine ⟨sound.createdOnce, ?_, ?_⟩
  · rintro earlier later rfl row isRow settled
    have split : runExchange (unexecuted clock) (earlier ++ later) = runExchange (runExchange (unexecuted clock) earlier) later :=
      List.foldl_append
    rw [split]
    exact runExchange_settled later isRow settled
  · intro row isRow recorded isRecorded refund shown failureReason other
    have next : runExchange (unexecuted clock) (steps ++ [.event refund shown failureReason]) =
        (runExchange (unexecuted clock) steps).event refund shown failureReason := by
      simp only [runExchange, List.foldl_append, List.foldl_cons, List.foldl_nil, ExchangeStep.perform]
    rw [next]
    exact event_other sound isRow isRecorded other shown failureReason

end Exchanges

end Quotum.RefundExchange
