import LabourBaba.Payments.Refunds
import LabourBaba.Store.Journal

/-!
# Failed refunds

What `refundPayment` records when the refund call fails. The provider adapter turns whatever
the SDK raises into an error of its own, with the status code 502; step 6 of the service reads
that code. A request the provider has definitely rejected is therefore recorded as unknown.
-/
namespace LabourBaba.Payments

open Store
open Market (Id)

/-! ### The adapter -/

/-- What the SDK raises: the status code is that of the provider's answer, and missing for a
network error or a timeout. -/
structure SdkError where
  statusCode : Option Nat := none
  description : Option String := none
  message : Option String := none
deriving DecidableEq, Repr

/-- `sdkErr?.error?.description ?? sdkErr?.message ?? ...`. -/
def SdkError.safeDesc (sdkErr : SdkError) : String :=
  (sdkErr.description.or sdkErr.message).getD "Refund provider failure"

/-- How `razorpay.payments.refund` ends. -/
inductive SdkAnswer where
  | raised (sdkErr : SdkError)
  | returned (refund : RefundAnswer)
deriving DecidableEq, Repr

/-- `createRefund` from the SDK's answer on. -/
def createRefund (amountPaise : Option Int) : SdkAnswer → Except Failure RazorpayRefundResult
  | .raised sdkErr => .error (refundProviderFailed sdkErr.safeDesc)
  | .returned refund =>
    match refund.refundId with
    | none => .error (.provider "Payment provider returned an invalid refund ID."
        "REFUND_PROVIDER_RESPONSE_INVALID" 502)
    | some refundId =>
      .ok { razorpayRefundId := refundId
            amount := (amountOr (some refund.amount) amountPaise).getD 0
            status := refund.status.getD "processed" }

/-- The answer that an attempt's state at the provider leads to. -/
def sdkAnswer (cfg : Config) : Option AttemptState → SdkAnswer
  | some (.accepted refund) => .returned refund
  | some (.rejected description) =>
    .raised { statusCode := some 400, description := some description }
  | _ => .raised { message := some cfg.networkError }

theorem refundResult_eq (cfg : Config) (amountPaise : Option Int) (state : Option AttemptState) :
    refundResult cfg amountPaise state = createRefund amountPaise (sdkAnswer cfg state) := by
  cases state with
  | none => rfl
  | some state =>
    cases state with
    | claimed | inFlight | accepted answer | rejected description => rfl

/-! ### The service -/

/-- Steps 4 to 6 from the SDK's answer on; `recorded` says whether the UPDATE of step 6 reaches
the database. -/
def concludeRefund (p : Payment) (customerId : Id) (n : Nat) (amountPaise : Option Int)
    (answer : SdkAnswer) (recorded : Bool) : Service RefundResponse := do
  let result ← Call.attempt (do
    let refund ← (match createRefund amountPaise answer with
      | .ok refund => pure refund
      | .error e => throw e)
    settleRefund p customerId n refund
    pure refund)
  match result with
  | .ok refund =>
    pure { message := "Refund processed successfully with payment provider."
           refundId := some refund.razorpayRefundId }
  | .error err => do
    let message := err.message
    if recorded then recordFailure p.id n err else throw .database
    throw (.payment s!"Payment refund failed: {message}"
      (if failureStatus err = .REFUND_UNKNOWN then "REFUND_UNKNOWN" else "REFUND_FAILED") 502)

/-- A claimed refund sends its request, and goes on with the answer. -/
theorem refundClaimed_eq (cfg : Config) (p : Payment) (customerId : Id) (n : Nat)
    (amount : Option RequestedAmount) (valid : amount.all RequestedAmount.valid = true)
    (configured : cfg.configured = true) :
    refundClaimed cfg p customerId n amount = (do
      Call.send (.refundSent p.id) fun _ => ([⟨.sendRefund n, rfl⟩], ())
      let delivered ← Call.choose
      let attempt ← query fun d => d.attempt n
      concludeRefund p customerId n (requestedPaise amount)
        (sdkAnswer cfg (if delivered then attempt.map RefundAttempt.state else none)) true) := by
  simp only [refundClaimed, executeRefund, razorpayCreateRefund, valid, configured, refundResult_eq]
  rfl

/-! ### The record of a failure -/

/-- The provider has definitely rejected the request. -/
def SdkAnswer.rejected : SdkAnswer → Bool
  | .raised sdkErr => sdkErr.statusCode.any fun statusCode =>
      decide (400 ≤ statusCode ∧ statusCode < 500)
  | .returned _ => false

/-- The status that says what the provider may have done. -/
def SdkAnswer.failure (answer : SdkAnswer) : PaymentStatus :=
  if answer.rejected then .REFUND_FAILED else .REFUND_UNKNOWN

/-- The record of step 6 leaves the payment in the given status. -/
def Leaves (p : Payment) (status : PaymentStatus) (ℓ : Label) (_ : List (Label × Db)) (d : Db)
    (ws : List Write) : Prop :=
  ∀ recorded, ℓ = .refundFailed p.id recorded →
    ∀ row, (applyAll ws d).payment p.id = some row → row.status = status

/-- A call that fails has recorded its failure last. -/
def RecordsLast (p : Payment) (r : Except Failure RefundResponse) (seen : List (Label × Db)) : Prop :=
  r.isOk = false → ∃ before status d, seen = before ++ [(.refundFailed p.id status, d)]

/-- Whatever others commit meanwhile, and payments are never deleted: a refund call that fails
after the SDK's answer leaves the payment in the status the answer calls for. -/
def Classifies (p : Payment) (customerId : Id) (n : Nat) (amountPaise : Option Int)
    (answer : SdkAnswer) (recorded : Bool) : Prop :=
  Call.Issues (fun _ d => (d.payment p.id).isSome) (Leaves p answer.failure) []
    (concludeRefund p customerId n amountPaise answer recorded) (RecordsLast p)

/-- If the call fails, then with an error that has a status code from 500 on. -/
def Ambiguous {α : Type} : Except Failure α → Prop
  | .ok _ => True
  | .error err => 500 ≤ err.statusCode

theorem failureStatus_of_ambiguous {α : Type} {err : Failure}
    (ambiguous : Ambiguous (.error err : Except Failure α)) :
    failureStatus err = .REFUND_UNKNOWN := by
  have server : 500 ≤ err.statusCode := ambiguous
  rw [failureStatus, if_neg (by omega)]

/-- The adapter has no other errors. -/
theorem createRefund_ambiguous (amountPaise : Option Int) (answer : SdkAnswer) :
    Ambiguous (createRefund amountPaise answer) := by
  cases answer with
  | raised sdkErr => simp [createRefund, Ambiguous, refundProviderFailed, Failure.statusCode]
  | returned refund =>
    simp only [createRefund]
    split <;> simp [Ambiguous, Failure.statusCode]

section Issued

variable {G : List (Label × Db) → Db → Prop} {A : Label → List (Label × Db) → Db → List Write → Prop}
  (silent : ∀ ℓ seen d ws, (∀ id status, ℓ ≠ .refundFailed id status) → A ℓ seen d ws)

include silent

/-- Nor has the write that settles a refund: the errors of the database have no status code. -/
theorem settleRefund_ambiguous (p : Payment) (customerId : Id) (n : Nat)
    (refund : RazorpayRefundResult) (seen : List (Label × Db)) :
    Call.Issues G A seen (settleRefund p customerId n refund) fun r _ => Ambiguous r := by
  rw [settleRefund]
  refine Call.Issues.bind (Q := fun r _ => ∃ reachable, r = .ok reachable)
    (.choose fun reachable => ⟨reachable, rfl⟩) (fun reachable seen _ => ?_) (by simp)
  cases reachable with
  | false => exact .throw (by simp [Ambiguous, Failure.statusCode])
  | true =>
    refine Call.Issues.transaction ?_
    rw [Call.traced_bind]
    refine Call.traced_stmt fun d _ => ⟨silent _ _ _ _ (by simp), ?_⟩
    simp only [setRefunded]
    split
    next => simp [Except.map, Call.tracedThen, Call.tracedEnd, Ambiguous, Failure.statusCode]
    next =>
      split
      next => simp [Except.map, Call.tracedThen, Call.tracedEnd, Ambiguous, Failure.statusCode]
      next =>
        refine Call.traced_stmt fun d' _ => ⟨silent _ _ _ _ (by simp), fun d'' _ => ⟨?_, ?_⟩⟩
        · exact silent _ _ _ _ (by simp)
        · trivial

theorem chargeRefund_ambiguous (p : Payment) (customerId : Id) (n : Nat) (amountPaise : Option Int)
    (answer : SdkAnswer) (seen : List (Label × Db)) :
    Call.Issues G A seen (do
      let refund ← (match createRefund amountPaise answer with
        | .ok refund => pure refund
        | .error e => throw e)
      settleRefund p customerId n refund
      pure refund) fun r _ => Ambiguous r := by
  have adapter := createRefund_ambiguous amountPaise answer
  refine Call.Issues.bind (Q := fun r _ => Ambiguous r) ?_ (fun refund seen' _ => ?_)
    fun _ _ ended => ended
  · cases made : createRefund amountPaise answer with
    | error err => exact .throw (made ▸ adapter)
    | ok refund => exact .pure trivial
  · exact (settleRefund_ambiguous silent p customerId n refund seen').bind
      (fun _ _ _ => .pure trivial) fun _ _ ended => ended

end Issued

theorem payment_recorded {p : Payment} {d : Db} (found : d.payment p.id = some p)
    (data : PaymentData) (n : Nat) :
    (applyAll [.updatePayment p.id data, .recordRefund n] d).payment p.id = some (p.update data) :=
  payment_updated found rfl

theorem recordFailure_leaves (p : Payment) (n : Nat) (err : Failure) {status : PaymentStatus}
    (classified : failureStatus err = status) (seen : List (Label × Db)) :
    Call.Issues (fun _ d => (d.payment p.id).isSome) (Leaves p status) seen (recordFailure p.id n err)
      fun _ seen' => ∃ before status d, seen' = before ++ [(.refundFailed p.id status, d)] := by
  rw [recordFailure]
  refine Call.Issues.stmt fun d present => ⟨?_, seen, _, d, rfl⟩
  intro recorded _ row found
  obtain ⟨stored, kept⟩ := Option.isSome_iff_exists.mp present
  have named : stored.id = p.id := Table.find_key kept
  simp only [kept, Option.isNone_some, Bool.false_eq_true, if_false, Call.written] at found
  rw [← named] at kept found
  rw [payment_recorded kept] at found
  cases found
  exact classified

/-- What step 6 records is always that the outcome is unknown. -/
theorem concludeRefund_records (p : Payment) (customerId : Id) (n : Nat) (amountPaise : Option Int)
    (answer : SdkAnswer) :
    Call.Issues (fun _ d => (d.payment p.id).isSome) (Leaves p .REFUND_UNKNOWN) []
      (concludeRefund p customerId n amountPaise answer true) (RecordsLast p) := by
  have silent : ∀ ℓ seen d ws, (∀ id status, ℓ ≠ .refundFailed id status) →
      Leaves p .REFUND_UNKNOWN ℓ seen d ws :=
    fun ℓ seen d ws other recorded same => absurd same (other _ _)
  rw [concludeRefund]
  refine Call.Issues.bind (Q := fun r _ => ∃ result, r = .ok result ∧ Ambiguous result)
    (.attempt (.mono (chargeRefund_ambiguous silent p customerId n amountPaise answer [])
      fun r _ ended => ⟨r, rfl, ended⟩)) (fun result seen ended => ?_) nofun
  obtain ⟨_, same, ended⟩ := ended
  obtain rfl := Except.ok.inj same
  cases result with
  | ok refund => exact .pure nofun
  | error err =>
    refine (recordFailure_leaves p n err (failureStatus_of_ambiguous ended) seen).bind
      (fun _ seen' last => .throw fun _ => last) fun _ seen' last _ => last

/-- Without the UPDATE of step 6, a call can fail that has recorded nothing. -/
theorem unrecorded_unclassified (p : Payment) (customerId : Id) (n : Nat) (amountPaise : Option Int)
    (answer : SdkAnswer) : ¬ Classifies p customerId n amountPaise answer false := by
  intro classifies
  simp only [Classifies, concludeRefund] at classifies
  cases made : createRefund amountPaise answer with
  | error err =>
    rw [made] at classifies
    obtain ⟨before, status, d, split⟩ := classifies.2 rfl
    simp at split
  | ok refund =>
    rw [made] at classifies
    obtain ⟨before, status, d, split⟩ := (classifies false).2 rfl
    simp at split

/-- A request that the provider has definitely rejected is recorded as unknown. -/
theorem rejected_unclassified (p : Payment) (customerId : Id) (n : Nat) (amountPaise : Option Int)
    {answer : SdkAnswer} (rejected : answer.rejected = true) :
    ¬ Classifies p customerId n amountPaise answer true := by
  intro classifies
  cases answer with
  | returned refund => cases rejected
  | raised sdkErr =>
    have stored : Db.payment { payments := [p] } p.id = some p := by simp [Db.payment, Table.find]
    simp only [Classifies, concludeRefund, createRefund] at classifies
    obtain ⟨leaves, -⟩ := classifies { payments := [p] } (by simp [stored])
    have left := leaves _ rfl
    simp only [Tx.immediate, Tx.view_none, stored, Option.isNone_some, Bool.false_eq_true,
      if_false] at left
    have failed : failureStatus (refundProviderFailed sdkErr.safeDesc) = .REFUND_FAILED := by
      simpa [SdkAnswer.failure, rejected, Payment.update] using left _ (payment_recorded stored _ n)
    simp [failureStatus, refundProviderFailed, Failure.statusCode] at failed

/-- The payment is left in the right status exactly if the provider has not definitely rejected
the request, and the UPDATE that records the failure goes through. -/
theorem refund_failure_classified_iff (p : Payment) (customerId : Id) (n : Nat)
    (amountPaise : Option Int) (answer : SdkAnswer) (recorded : Bool) :
    Classifies p customerId n amountPaise answer recorded ↔
      answer.rejected = false ∧ recorded = true := by
  constructor
  · intro classifies
    cases recorded with
    | false => exact absurd classifies (unrecorded_unclassified p customerId n amountPaise answer)
    | true =>
      refine ⟨?_, rfl⟩
      by_contra rejected
      exact rejected_unclassified p customerId n amountPaise (by simpa using rejected) classifies
  · rintro ⟨accepted, rfl⟩
    have unknown : answer.failure = .REFUND_UNKNOWN := by simp [SdkAnswer.failure, accepted]
    rw [Classifies, unknown]
    exact concludeRefund_records p customerId n amountPaise answer

/-- The provider answers a refund request with 400. -/
def rejectedRefund : List (Pool.Move Op) :=
  paid ++ sendsRefund 4 200 ++
    [.event (.spawn (.rejectRefund 0 "The amount is invalid")), .drive 5 true, .drive 4 true]

theorem rejected_refund_unknown :
    (∃ p, Reachable {} p ∧ p.db.attempts.map RefundAttempt.state = [.rejected "The amount is invalid"] ∧
      p.db.payments.map Payment.status = [.REFUND_UNKNOWN]) ∧
    ¬ ∀ p customerId n amountPaise answer, Classifies p customerId n amountPaise answer true := by
  refine ⟨⟨played (fun _ _ => True) rejectedRefund, runs_played _ rejectedRefund, by decide +kernel,
    by decide +kernel⟩, fun classifies => ?_⟩
  let p : Payment :=
    { id := 1, bookingId := 1, razorpayPaymentId := some 9, status := .REFUND_PENDING
      amount := some 500, currency := "INR".toList, createdAt := 0 }
  have rejected : (SdkAnswer.raised { statusCode := some 400 }).rejected = true := rfl
  exact rejected_unclassified p 7 0 (some 200) rejected (classifies p 7 0 (some 200) _)

end LabourBaba.Payments
