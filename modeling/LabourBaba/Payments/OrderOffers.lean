import LabourBaba.Payments.Conformance
import LabourBaba.Store.Journal

/-!
# What order creation offers

A `createOrder` call that does not create an order itself returns one that it has read, in
one of three places: before the claim, after a lost claim, and while it polls. Each place
looks at other statuses of the row. `createOrder_offers_due` says in which stores the call
offers an order only while payment is due, whatever else happens between its statements.
-/
namespace LabourBaba.Payments

open Store
open Market (Id Text)

/-- The statuses of a payment that has been captured. -/
def PaymentStatus.paid : PaymentStatus → Bool
  | .COMPLETED | .REFUND_PENDING | .REFUND_UNKNOWN | .REFUND_FAILED | .REFUNDED => true
  | .PENDING | .FAILED => false

def alreadyCompleted : Failure :=
  .payment "A payment has already been completed for this booking." "PAYMENT_ALREADY_COMPLETED" 409

/-- The stores that a call may meet next: well-formed ones, later than those it has met. -/
def comesNext (seen : List (Label × Db)) (d : Db) : Prop := Wf d ∧ ∀ e ∈ seen, Later e.2 d

theorem comesNext_of_records {cfg : Config}
    {ok : PaymentPool → List (Entry Label Db Op) → Event Op → Prop} {p : PaymentPool}
    {journal : List (Entry Label Db Op)} (i : Nat)
    (records : Pool.Records (system cfg) ok start p journal) :
    comesNext (ownTrace journal i) p.db := by
  have reachable : Reachable cfg p := records.reaches fun _ _ _ _ _ _ _ _ _ => trivial
  refine ⟨wf_of_runs reachable, fun e member => ?_⟩
  obtain ⟨op, member⟩ := mem_ownTrace.mp member
  obtain ⟨ws, after⟩ := records.stores _ member
  rw [after]
  exact .applyAll ws _

/-- The row of a booking keeps its id. -/
theorem payment_of_later {d d' : Db} {bookingId : Id} {p : Payment} (wf : Wf d) (wf' : Wf d')
    (later : Later d d') (found : d.paymentOfBooking bookingId = some p) :
    d'.payment p.id = d'.paymentOfBooking bookingId := by
  obtain ⟨row, stored, booked⟩ := holds_of_later later (holds_of_booking wf found)
  rw [stored, Db.paymentOfBooking, ← booked]
  exact (Table.find_of_mem wf'.bookings (Table.mem_of_find stored)).symm

/-! ### What a call has seen -/

section Seen

variable (bookingId : Id) (issued : List (Label × Db)) (r : Outcome)

/-- The stores in which a call of `createOrder` has read the payment. Its first statement
reads the booking, and all its further queries read the payment. -/
def paymentReads : List Db := ((issued.drop 1).filter fun e => e.1 = .step).map Prod.snd

/-- The store of the last statement, if it was a query of the payment. -/
def lastRead : Option Db :=
  match (issued.drop 1).getLast? with
  | some (.step, d) => some d
  | _ => none

/-- The statement makes its call the claimant. -/
def Label.claims : Label → Db → Bool
  | .intended paymentId bookingId, d =>
    (d.payment paymentId).isNone && (d.paymentOfBooking bookingId).isNone
  | .reclaimed paymentId, d => (d.payment paymentId).any fun row => row.status = .FAILED
  | _, _ => false

@[simp] theorem claims_step (d : Db) : Label.claims .step d = false := rfl

/-- A call whose last statement was a query and that returned an order found this order in the
row it read, which was PENDING, so not FAILED; and one that read a payment in a status that
follows a capture failed for this reason. -/
structure OffersDue : Prop where
  pending : ∀ response d, r = .ok (.order response) → lastRead issued = some d →
    ∃ row, d.paymentOfBooking bookingId = some row ∧
      row.razorpayOrderId = some response.razorpayOrderId ∧ row.status = .PENDING
  completed : ∀ d ∈ paymentReads issued, ∀ row, d.paymentOfBooking bookingId = some row →
    row.status.paid = true → r = .error alreadyCompleted

/-- The first query of the payment finds no refund begun, a later one finds nothing paid, and
the last, unless the call is the claimant, no failed payment that still names an order. -/
structure MeetsDue : Prop where
  first : ∀ d, (paymentReads issued).head? = some d → ∀ row,
    d.paymentOfBooking bookingId = some row →
      row.status ∉ [.REFUND_PENDING, .REFUND_UNKNOWN, .REFUND_FAILED]
  later : ∀ d ∈ (paymentReads issued).tail, ∀ row, d.paymentOfBooking bookingId = some row →
    row.status.paid = false
  last : (issued.any fun e => e.1.claims e.2) = true ∨ ∀ d, lastRead issued = some d → ∀ row,
    d.paymentOfBooking bookingId = some row → row.status = .FAILED → row.razorpayOrderId = none

end Seen

section Reads

variable {bookingId : Id} {issued more : List (Label × Db)} {d : Db}

theorem paymentReads_append (begun : issued ≠ []) :
    paymentReads (issued ++ more) =
      paymentReads issued ++ (more.filter fun e => e.1 = .step).map Prod.snd := by
  cases issued with
  | nil => exact absurd rfl begun
  | cons e rest => simp [paymentReads]

theorem paymentReads_concat (begun : issued ≠ []) :
    paymentReads (issued ++ [(.step, d)]) = paymentReads issued ++ [d] := by
  rw [paymentReads_append begun]
  rfl

theorem lastRead_concat (begun : issued ≠ []) : lastRead (issued ++ [(.step, d)]) = some d := by
  cases issued with
  | nil => exact absurd rfl begun
  | cons e rest => simp [lastRead]

theorem lastRead_concat_of_ne {ℓ : Label} (other : ℓ ≠ .step) :
    lastRead (issued ++ [(ℓ, d)]) = none := by
  cases issued with
  | nil => rfl
  | cons e rest =>
    rw [lastRead, List.cons_append, List.drop_one, List.tail_cons, List.getLast?_concat]
    cases ℓ with
    | step => exact absurd rfl other
    | _ => rfl

theorem mem_paymentReads_of_lastRead (last : lastRead issued = some d) :
    d ∈ paymentReads issued := by
  rw [lastRead] at last
  split at last
  next d' found =>
    obtain rfl := Option.some.inj last
    exact List.mem_map.mpr ⟨_, List.mem_filter.mpr ⟨List.mem_of_getLast? found, by simp⟩, rfl⟩
  next => cases last

/-- A call that goes on after its first query of the payment: if it finds nothing paid, the
two sides differ at most in what they say of its last query. -/
theorem offersDue_iff {r : Outcome} {first : Db} {rest : List Db}
    (reads : paymentReads issued = first :: rest)
    (undecided : ∀ row, first.paymentOfBooking bookingId = some row →
      row.status ≠ .COMPLETED ∧ row.status ≠ .REFUNDED)
    (other : r ≠ .error alreadyCompleted)
    (final : (∀ d ∈ paymentReads issued, ∀ row, d.paymentOfBooking bookingId = some row →
        row.status.paid = false) →
      ((∀ response d, r = .ok (.order response) → lastRead issued = some d →
          ∃ row, d.paymentOfBooking bookingId = some row ∧
            row.razorpayOrderId = some response.razorpayOrderId ∧ row.status = .PENDING) ↔
        ((issued.any fun e => e.1.claims e.2) = true ∨ ∀ d, lastRead issued = some d → ∀ row,
          d.paymentOfBooking bookingId = some row → row.status = .FAILED →
            row.razorpayOrderId = none))) :
    OffersDue bookingId issued r ↔ MeetsDue bookingId issued := by
  constructor
  · intro due
    -- had a query found it paid, the reply would be the error that says so
    have unpaid : ∀ d ∈ paymentReads issued, ∀ row, d.paymentOfBooking bookingId = some row →
        row.status.paid = false := fun d member row found =>
      Bool.eq_false_iff.mpr fun paid => other (due.completed d member row found paid)
    refine ⟨fun d head row found => ?_, fun d member => unpaid d ?_, (final unpaid).mp due.pending⟩
    · rw [reads] at head
      obtain rfl := Option.some.inj head
      have quiet := unpaid first (reads ▸ List.mem_cons_self) row found
      cases status : row.status <;> simp_all [PaymentStatus.paid]
    · rw [reads] at member ⊢
      exact List.mem_cons_of_mem _ member
  · intro meets
    have unpaid : ∀ d ∈ paymentReads issued, ∀ row, d.paymentOfBooking bookingId = some row →
        row.status.paid = false := by
      intro d member row found
      rw [reads] at member
      rcases List.mem_cons.mp member with rfl | member
      · have unrefunded := meets.first d (by rw [reads]; rfl) row found
        obtain ⟨open', unrefunded'⟩ := undecided row found
        cases status : row.status <;> simp_all [PaymentStatus.paid]
      · exact meets.later d (by rw [reads]; exact member) row found
    refine ⟨(final unpaid).mpr meets.last, fun d member row found paid => ?_⟩
    rw [unpaid d member row found] at paid
    exact nomatch paid

end Reads

/-! ### The claimant -/

/-- The call has read nothing since. -/
def Unread (before issued : List (Label × Db)) : Prop :=
  ∃ more, issued = before ++ more ∧ ∀ e ∈ more, e.1 ≠ .step

namespace Unread

variable {before issued : List (Label × Db)}

theorem refl (issued : List (Label × Db)) : Unread issued issued := ⟨[], by simp, by simp⟩

theorem concat (unread : Unread before issued) {ℓ : Label} (other : ℓ ≠ .step) (d : Db) :
    Unread before (issued ++ [(ℓ, d)]) := by
  obtain ⟨more, rfl, none⟩ := unread
  refine ⟨more ++ [(ℓ, d)], List.append_assoc _ _ _, fun e member => ?_⟩
  rcases List.mem_append.mp member with member | member
  · exact none e member
  · rw [List.mem_singleton.mp member]
    exact other

theorem reads (unread : Unread before issued) (begun : before ≠ []) :
    paymentReads issued = paymentReads before := by
  obtain ⟨more, rfl, none⟩ := unread
  rw [paymentReads_append begun, List.filter_eq_nil_iff.mpr, List.map_nil, List.append_nil]
  exact fun e member => by simpa using none e member

theorem claims (unread : Unread before issued)
    (claimed : (before.any fun e => e.1.claims e.2) = true) :
    (issued.any fun e => e.1.claims e.2) = true := by
  obtain ⟨more, rfl, -⟩ := unread
  rw [List.any_append, claimed, Bool.true_or]

end Unread

/-- What the call may still do after it has issued `seen`. -/
abbrev Issues {α : Type} (seen : List (Label × Db)) (c : Service α)
    (Q : Except Failure α → List (Label × Db) → Prop) : Prop :=
  Call.Issues comesNext (fun _ _ _ _ => True) seen c Q

theorem razorpayCreateOrder_unread {before seen : List (Label × Db)} (unread : Unread before seen)
    (cfg : Config) (amountPaise : Int) (currency : Text) (bookingId : Id) (answer : OrdersCreate) :
    Issues seen (razorpayCreateOrder cfg amountPaise currency bookingId answer)
      fun r seen => Unread before seen ∧ r ≠ .error alreadyCompleted := by
  have sent : Issues seen (sendOrder bookingId amountPaise currency) fun r seen =>
      Unread before seen ∧ r ≠ .error alreadyCompleted :=
    .send fun d _ => ⟨trivial, unread.concat (by simp) d, by rintro ⟨⟩⟩
  have fails : ∀ (e : Failure) (seen : List (Label × Db)),
      Unread before seen ∧ (.error e : Except Failure Id) ≠ .error alreadyCompleted →
      Unread before seen ∧ (.error e : Except Failure RazorpayOrderResult) ≠
        .error alreadyCompleted := by
    rintro e seen ⟨unread, other⟩
    refine ⟨unread, ?_⟩
    rintro ⟨⟩
    exact other rfl
  simp only [razorpayCreateOrder]
  split
  · exact .throw ⟨unread, by rintro ⟨⟩⟩
  split
  · exact .throw ⟨unread, by rintro ⟨⟩⟩
  split
  · exact .throw ⟨unread, by rintro ⟨⟩⟩
  cases answer with
  | refused => exact .throw ⟨unread, by rintro ⟨⟩⟩
  | lost => exact sent.bind (fun _ _ sent => .throw ⟨sent.1, by rintro ⟨⟩⟩) fails
  | replied idPresent returnedAmount returnedCurrency =>
    refine sent.bind (fun orderId seen sent => ?_) fails
    split
    next order checked => exact .pure ⟨sent.1, by rintro ⟨⟩⟩
    next e failed =>
      refine .throw ⟨sent.1, ?_⟩
      rintro ⟨⟩
      simp only [checkOrder] at failed
      (repeat' split at failed) <;> cases failed

theorem executeOrder_unread {before seen : List (Label × Db)} (unread : Unread before seen)
    (cfg : Config) (bookingId : Id) (amountPaise : Int) (currency : Text) (record : Payment)
    (answer : OrdersCreate) :
    Issues seen (executeOrder cfg bookingId amountPaise currency record answer)
      fun r seen => Unread before seen ∧ r ≠ .error alreadyCompleted ∧
        ∀ a, r = .ok a → lastRead seen = none := by
  refine .bind (Q := fun r seen => ∃ order, r = .ok order ∧ Unread before seen ∧
      order ≠ .error alreadyCompleted) ?_ ?_ (by rintro e seen ⟨order, ⟨⟩, -⟩)
  · exact .attempt ((razorpayCreateOrder_unread unread cfg amountPaise currency bookingId answer).mono
      fun r seen holds => ⟨r, rfl, holds⟩)
  rintro _ seen ⟨providerErr | order, ⟨⟩, unread, other⟩
  · -- the provider's error is passed on, and is not that of a completed payment
    have passed : (.error providerErr : Except Failure PaymentOrderResponse) ≠
        .error alreadyCompleted := by
      rintro ⟨⟩
      exact other rfl
    refine .bind (Q := fun r seen => r.isOk = true ∧ Unread before seen)
      (.choose fun _ => ⟨rfl, unread⟩) ?_ (by rintro _ _ ⟨⟨⟩, -⟩)
    rintro reachable seen ⟨-, unread⟩
    cases reachable with
    | false => exact .throw ⟨unread, passed, by simp⟩
    | true =>
      refine .bind (Q := fun r seen => Unread before seen ∧ r ≠ .error alreadyCompleted)
        (.stmt fun d _ => ⟨trivial, unread.concat (by simp) d, ?_⟩) ?_ ?_
      · simp only [setPaymentWhere]
        (repeat' split) <;> rintro ⟨⟩
      · exact fun _ seen failed => .throw ⟨failed.1, passed, by simp⟩
      · rintro e seen ⟨unread, other⟩
        refine ⟨unread, ?_, by simp⟩
        rintro ⟨⟩
        exact other rfl
  · refine .bind (Q := fun r seen => ∃ saved, r = .ok saved ∧ Unread before seen ∧
      ∀ a, saved = .ok a → lastRead seen = none) (.attempt ?_) ?_ (by rintro e seen ⟨saved, ⟨⟩, -⟩)
    · refine .bind (Q := fun r seen => r.isOk = true ∧ Unread before seen)
        (.choose fun _ => ⟨rfl, unread⟩) ?_ (by rintro _ _ ⟨⟨⟩, -⟩)
      rintro reachable seen ⟨-, unread⟩
      cases reachable with
      | false => exact .throw ⟨.error .database, rfl, unread, by simp⟩
      | true =>
        refine .stmt fun d _ => ⟨trivial, _, rfl, unread.concat (by simp) d, fun _ _ => ?_⟩
        exact lastRead_concat_of_ne (by simp)
    · rintro _ seen ⟨e | updated, ⟨⟩, unread, last⟩
      · exact .throw ⟨unread, by simp [alreadyCompleted], by simp⟩
      · exact .pure ⟨unread, by simp, fun _ _ => last updated rfl⟩

/-! ### The contenders -/

/-- The result is the answer to the row that was read: its order, or an error if it has none. -/
def Answers (r : Except Failure PaymentOrderResponse) (found : Option Payment) : Prop :=
  (∃ row orderId response, found = some row ∧ row.razorpayOrderId = some orderId ∧
      r = .ok response ∧ response.razorpayOrderId = orderId) ∨
    ∃ e, r = .error e ∧ e ≠ alreadyCompleted ∧ ∀ row, found = some row → row.razorpayOrderId = none

/-- The call has only read the payment since, and answers to the last row. -/
def Resolves (bookingId : Id) (before : List (Label × Db)) (r : Except Failure PaymentOrderResponse)
    (issued : List (Label × Db)) : Prop :=
  (∃ polls : List Db, issued = before ++ polls.map fun d => (.step, d)) ∧
    ∃ d, lastRead issued = some d ∧ Answers r (d.paymentOfBooking bookingId)

theorem Resolves.of_read {bookingId : Id} {before issued : List (Label × Db)} {d : Db}
    {r : Except Failure PaymentOrderResponse}
    (resolves : Resolves bookingId (before ++ [(.step, d)]) r issued) :
    Resolves bookingId before r issued := by
  obtain ⟨⟨polls, rfl⟩, answered⟩ := resolves
  exact ⟨⟨d :: polls, by simp⟩, answered⟩

/-- The last query has found no order. -/
def Unplaced (bookingId : Id) (issued : List (Label × Db)) : Prop :=
  ∃ d, lastRead issued = some d ∧ ∀ row, d.paymentOfBooking bookingId = some row →
    row.razorpayOrderId = none

theorem Unplaced.fails {bookingId : Id} {issued : List (Label × Db)}
    (unplaced : Unplaced bookingId issued) {e : Failure} (other : e ≠ alreadyCompleted) :
    Resolves bookingId issued (.error e) issued := by
  obtain ⟨d, last, none⟩ := unplaced
  exact ⟨⟨[], by simp⟩, d, last, Or.inr ⟨e, rfl, other, none⟩⟩

theorem pollOrder_resolves (bookingId : Id) (amountPaise : Int) (attempts : Nat)
    {seen : List (Label × Db)} (begun : seen ≠ []) (unplaced : Unplaced bookingId seen) :
    Issues seen (pollOrder bookingId amountPaise attempts) (Resolves bookingId seen) := by
  induction attempts generalizing seen with
  | zero => exact .throw (unplaced.fails (by simp [alreadyCompleted]))
  | succ attempts ih =>
    refine .bind (Q := fun r seen' => ∃ d, r = .ok (d.paymentOfBooking bookingId) ∧
      seen' = seen ++ [(.step, d)]) (.read fun d _ => ⟨trivial, d, rfl, rfl⟩) ?_ ?_
    · rintro _ _ ⟨d, ⟨⟩, rfl⟩
      have begun' : seen ++ [(.step, d)] ≠ [] := by simp
      have last : lastRead (seen ++ [(.step, d)]) = some d := lastRead_concat begun
      cases found : d.paymentOfBooking bookingId with
      | none =>
        refine (ih begun' ⟨d, last, ?_⟩).mono fun _ _ => Resolves.of_read
        simp [found]
      | some row =>
        dsimp only
        cases placed : row.razorpayOrderId with
        | some orderId =>
          exact .pure ⟨⟨[d], rfl⟩, d, last, Or.inl ⟨row, orderId, _, found, placed, rfl, rfl⟩⟩
        | none =>
          have unplaced' : Unplaced bookingId (seen ++ [(.step, d)]) :=
            ⟨d, last, fun other same => by rwa [← Option.some.inj (found.symm.trans same)]⟩
          dsimp only
          split
          · exact .throw (unplaced'.fails (by simp [alreadyCompleted])).of_read
          · exact (ih begun' unplaced').mono fun _ _ => Resolves.of_read
    · rintro e seen' ⟨d, ⟨⟩, -⟩

theorem awaitOrder_resolves {bookingId : Id} (amountPaise : Int) {d : Db} {record : Option Payment}
    {seen : List (Label × Db)} (begun : seen ≠ []) (last : lastRead seen = some d)
    (found : d.paymentOfBooking bookingId = record) :
    Issues seen (awaitOrder bookingId amountPaise record) (Resolves bookingId seen) := by
  cases record with
  | none => exact pollOrder_resolves _ _ _ begun ⟨d, last, by simp [found]⟩
  | some row =>
    simp only [awaitOrder]
    cases placed : row.razorpayOrderId with
    | some orderId =>
      exact .pure ⟨⟨[], by simp⟩, d, last, Or.inl ⟨row, orderId, _, found, placed, rfl, rfl⟩⟩
    | none =>
      refine pollOrder_resolves _ _ _ begun ⟨d, last, fun other same => ?_⟩
      rwa [← Option.some.inj (found.symm.trans same)]

/-! ### The whole call -/

/-- The result is as it should be exactly in the stores in which it should be. -/
def DueExactly (bookingId : Id) (r : Except Failure PaymentOrderResponse)
    (issued : List (Label × Db)) : Prop :=
  OffersDue bookingId issued (r.map .order) ↔ MeetsDue bookingId issued

section Whole

variable {bookingId : Id} {seen issued : List (Label × Db)} {first : Db} {rest : List Db}
  {r : Except Failure PaymentOrderResponse}

theorem map_ne_alreadyCompleted (other : r ≠ .error alreadyCompleted) :
    (r.map .order : Outcome) ≠ .error alreadyCompleted := by
  cases r with
  | ok response => exact nofun
  | error e =>
    rintro ⟨⟩
    exact other rfl

theorem dueExactly_of_unread (begun : seen ≠ []) (reads : paymentReads seen = first :: rest)
    (undecided : ∀ row, first.paymentOfBooking bookingId = some row →
      row.status ≠ .COMPLETED ∧ row.status ≠ .REFUNDED)
    (claimed : (seen.any fun e => e.1.claims e.2) = true) (unread : Unread seen issued)
    (other : r ≠ .error alreadyCompleted) (last : ∀ a, r = .ok a → lastRead issued = none) :
    DueExactly bookingId r issued := by
  refine offersDue_iff ((unread.reads begun).trans reads) undecided
    (map_ne_alreadyCompleted other) fun _ => ⟨fun _ => Or.inl (unread.claims claimed), ?_⟩
  intro _ response d same found
  cases r with
  | error e => cases same
  | ok a =>
    rw [last a rfl] at found
    cases found

theorem dueExactly_of_resolves (begun : seen ≠ []) (reads : paymentReads seen = first :: rest)
    (undecided : ∀ row, first.paymentOfBooking bookingId = some row →
      row.status ≠ .COMPLETED ∧ row.status ≠ .REFUNDED)
    (unclaimed : (seen.any fun e => e.1.claims e.2) = false)
    (resolves : Resolves bookingId seen r issued) : DueExactly bookingId r issued := by
  obtain ⟨⟨polls, rfl⟩, d, last, answers⟩ := resolves
  have reads' : paymentReads (seen ++ polls.map fun d => ((.step : Label), d)) =
      first :: (rest ++ polls) := by
    have own : ((polls.map fun d => ((.step : Label), d)).filter fun e => e.1 = .step).map Prod.snd =
        polls := by
      rw [List.filter_eq_self.mpr (by simp), List.map_map]
      exact List.map_id polls
    rw [paymentReads_append begun, reads, own, List.cons_append]
  have unclaimed' : ((seen ++ polls.map fun d => ((.step : Label), d)).any
      fun e => e.1.claims e.2) = false := by
    rw [List.any_append, unclaimed, Bool.false_or, List.any_map, List.any_eq_false]
    exact fun _ _ => Bool.false_ne_true
  have other : r ≠ .error alreadyCompleted := by
    rcases answers with ⟨row, orderId, response, -, -, rfl, -⟩ | ⟨e, rfl, other, -⟩
    · exact nofun
    · rintro ⟨⟩
      exact other rfl
  refine offersDue_iff reads' undecided (map_ne_alreadyCompleted other) fun unpaid => ?_
  rw [unclaimed']
  rcases answers with ⟨row, orderId, response, found, placed, rfl, same⟩ | ⟨e, rfl, -, none⟩
  · constructor
    · intro pending
      refine Or.inr fun d' last' row' found' failed => ?_
      obtain rfl := Option.some.inj (last.symm.trans last')
      obtain ⟨row'', found'', -, status⟩ := pending response d rfl last
      obtain rfl := Option.some.inj (found'.symm.trans found'')
      rw [failed] at status
      cases status
    · rintro (claimed | unfailed) response' d' ⟨⟩ last'
      · cases claimed
      · obtain rfl := Option.some.inj (last.symm.trans last')
        refine ⟨row, found, placed.trans (congrArg some same.symm), ?_⟩
        -- what is neither paid nor failed is pending
        have quiet := unpaid d (mem_paymentReads_of_lastRead last) row found
        have unfailed' := unfailed d last row found
        cases status : row.status with
        | PENDING => rfl
        | FAILED =>
          rw [unfailed' status] at placed
          cases placed
        | _ => simp [status, PaymentStatus.paid] at quiet
  · refine ⟨fun _ => Or.inr fun d' last' row found _ => ?_, fun _ response d same => nomatch same⟩
    obtain rfl := Option.some.inj (last.symm.trans last')
    exact none row found

/-- How a call stands after its claim, of which `first` is the store of its first query: it has
won, or it has lost and the record is the row it read last. -/
inductive ClaimEnds (bookingId : Id) (first : Db) :
    Except Failure (Option Payment × Bool) → List (Label × Db) → Prop
  | won (record : Payment) {seen : List (Label × Db)} {rest : List Db} (begun : seen ≠ [])
      (reads : paymentReads seen = first :: rest)
      (claimed : (seen.any fun e => e.1.claims e.2) = true) :
    ClaimEnds bookingId first (.ok (some record, true)) seen
  | lost (record : Option Payment) (d : Db) {seen : List (Label × Db)} {rest : List Db}
      (begun : seen ≠ []) (reads : paymentReads seen = first :: rest)
      (unclaimed : (seen.any fun e => e.1.claims e.2) = false) (last : lastRead seen = some d)
      (found : d.paymentOfBooking bookingId = record) :
    ClaimEnds bookingId first (.ok (record, false)) seen

/-- An INSERT succeeds exactly when it is a claim. -/
theorem clash_newIntent (newId : Id) (amountPaise : Int) (currency : Text) (d : Db) :
    d.payments.any (newIntent bookingId newId amountPaise currency d.now).clash =
      !Label.claims (.intended newId bookingId) d := by
  rw [Label.claims, Bool.eq_iff_iff, Bool.not_eq_true', Bool.and_eq_false_iff, List.any_eq_true]
  constructor
  · rintro ⟨old, member, clash⟩
    rw [Payment.clash, Bool.or_eq_true] at clash
    rcases clash with same | same
    · obtain ⟨row, found⟩ : ∃ row, d.payment old.id = some row := Table.find_isSome_of_mem member
      have stored : d.payment newId = some row := by
        rw [show newId = old.id from of_decide_eq_true same]
        exact found
      simp [stored]
    · obtain ⟨row, found⟩ : ∃ row, d.paymentOfBooking old.bookingId = some row :=
        Table.find_isSome_of_mem member
      have stored : d.paymentOfBooking bookingId = some row := by
        rw [show bookingId = old.bookingId from of_decide_eq_true same]
        exact found
      simp [stored]
  · rintro (stored | stored)
    · obtain ⟨row, found⟩ := Option.isSome_iff_exists.mp (by simpa using stored)
      refine ⟨row, Table.mem_of_find found, ?_⟩
      have named : row.id = newId := Table.find_key found
      simp [Payment.clash, newIntent, named]
    · obtain ⟨row, found⟩ := Option.isSome_iff_exists.mp (by simpa using stored)
      refine ⟨row, Table.mem_of_find found, ?_⟩
      have booked : row.bookingId = bookingId := Table.find_key found
      simp [Payment.clash, newIntent, booked]

theorem claimOrder_ends {d₀ : Db} (newId : Id) (amountPaise : Int) (currency : Text) (wf : Wf first) :
    Issues [(.step, d₀), (.step, first)]
      (claimOrder bookingId newId amountPaise currency (first.paymentOfBooking bookingId))
      (ClaimEnds bookingId first) := by
  cases existing : first.paymentOfBooking bookingId with
  | none =>
    refine .bind (Q := fun r seen => ∃ d, seen = [(.step, d₀), (.step, first),
        (.intended newId bookingId, d)] ∧
      if Label.claims (.intended newId bookingId) d then ∃ payment, r = .ok (.ok payment)
      else r = .ok (.error .uniqueViolation)) (.attempt (.stmt fun d _ => ⟨trivial, d, rfl, ?_⟩)) ?_ ?_
    · rw [clash_newIntent]
      cases Label.claims (.intended newId bookingId) d with
      | true => exact ⟨_, rfl⟩
      | false => rfl
    · rintro created seen ⟨d, rfl, result⟩
      split at result
      next claims =>
        obtain ⟨payment, ⟨⟩⟩ := result
        exact .pure (.won payment (by simp) rfl (by simp [claims]))
      next lost =>
        -- another call has inserted the record, which is read again
        cases result
        refine .bind (Q := fun r seen => ∃ d', r = .ok (d'.paymentOfBooking bookingId) ∧
            seen = [(.step, d₀), (.step, first), (.intended newId bookingId, d), (.step, d')])
          (.read fun d' _ => ⟨trivial, d', rfl, rfl⟩) ?_ ?_
        · rintro _ _ ⟨d', ⟨⟩, rfl⟩
          refine .pure (.lost _ d' (by simp) rfl ?_ rfl rfl)
          simp [Bool.eq_false_iff.mpr lost]
        · rintro e seen ⟨d', ⟨⟩, -⟩
    · rintro e seen ⟨d, -, result⟩
      split at result
      · obtain ⟨payment, ⟨⟩⟩ := result
      · cases result
  | some row =>
    simp only [claimOrder]
    split
    · refine .bind (Q := fun r seen => ∃ d, r = .ok (Label.claims (.reclaimed row.id) d) ∧
          seen = [(.step, d₀), (.step, first), (.reclaimed row.id, d)])
        (.stmt fun d _ => ⟨trivial, d, ?_, rfl⟩) ?_ ?_
      · simp only [setPaymentWhere, Label.claims]
        cases d.payment row.id with
        | none => rfl
        | some stored =>
          dsimp only
          split
          next failed =>
            rw [Option.any_some, failed]
            rfl
          next unfailed =>
            rw [Option.any_some, Bool.eq_false_iff.mpr unfailed]
            rfl
      · rintro _ _ ⟨d, ⟨⟩, rfl⟩
        refine .bind (Q := fun r seen => ∃ d', r = .ok (d'.payment row.id) ∧
            d'.payment row.id = d'.paymentOfBooking bookingId ∧ (d'.payment row.id).isSome ∧
            seen = [(.step, d₀), (.step, first), (.reclaimed row.id, d), (.step, d')])
          (.read fun d' next => ⟨trivial, d', rfl, ?_, ?_, rfl⟩) ?_ ?_
        · -- the record stays that of its booking, under its id and under the booking alike
          exact payment_of_later wf next.1 (next.2 (.step, first) (by simp)) existing
        · obtain ⟨row', stored, -⟩ := holds_of_later (next.2 (.step, first) (by simp))
            (holds_of_booking wf existing)
          rw [stored]
          rfl
        · rintro _ _ ⟨d', ⟨⟩, same, stored, rfl⟩
          refine .pure ?_
          cases claims : Label.claims (.reclaimed row.id) d with
          | true =>
            obtain ⟨record, found⟩ := Option.isSome_iff_exists.mp stored
            rw [found]
            exact .won record (by simp) rfl (by simp [claims])
          | false =>
            refine .lost _ d' (by simp) rfl ?_ rfl same.symm
            simp [claims]
        · rintro e seen ⟨d', ⟨⟩, -⟩
      · rintro e seen ⟨d, ⟨⟩, -⟩
    · exact .pure (.lost _ first (by simp) rfl rfl rfl existing)

/-- What step 4 answers is as it should be: nothing more is read. -/
theorem dueExactly_of_existing {d₀ : Db} {amountPaise : Int}
    (decided : existingOrder bookingId amountPaise (first.paymentOfBooking bookingId) = some r) :
    DueExactly bookingId r [(.step, d₀), (.step, first)] := by
  cases existing : first.paymentOfBooking bookingId with
  | none =>
    rw [existing] at decided
    cases decided
  | some row =>
    rw [existing] at decided
    simp only [existingOrder] at decided
    have meets : row.status ∉ [.REFUND_PENDING, .REFUND_UNKNOWN, .REFUND_FAILED, .FAILED] →
        MeetsDue bookingId [(.step, d₀), (.step, first)] := by
      intro settled
      refine ⟨fun d head other found => ?_, fun d member => absurd member List.not_mem_nil,
        Or.inr fun d last other found failed => ?_⟩
      · obtain rfl := Option.some.inj head
        obtain rfl := Option.some.inj (existing.symm.trans found)
        exact fun refunding => settled (List.mem_append_left [PaymentStatus.FAILED] refunding)
      · obtain rfl := Option.some.inj last
        obtain rfl := Option.some.inj (existing.symm.trans found)
        exact absurd (by simp [failed]) settled
    split at decided
    next done =>
      obtain rfl := Option.some.inj decided
      refine ⟨fun _ => meets ?_, fun _ => ⟨nofun, fun _ _ _ _ _ => rfl⟩⟩
      rcases done with done | done <;> simp [done]
    split at decided
    next pending =>
      obtain ⟨orderId, placed, rfl⟩ := Option.map_eq_some_iff.mp decided
      refine ⟨fun _ => meets (by simp [pending]), fun _ => ⟨fun response d same last => ?_,
        fun d member other found paid => ?_⟩⟩
      · obtain rfl := Option.some.inj last
        cases same
        exact ⟨row, existing, placed, pending⟩
      · obtain rfl := List.mem_singleton.mp member
        obtain rfl := Option.some.inj (existing.symm.trans found)
        simp [pending, PaymentStatus.paid] at paid
    next => cases decided

theorem orderFor_due {d₀ : Db} (cfg : Config) (bookingId newId : Id) (amountPaise : Int)
    (answer : OrdersCreate) :
    Issues [(.step, d₀)] (orderFor cfg bookingId newId amountPaise answer)
      (DueExactly bookingId) := by
  refine .bind (Q := fun r seen => ∃ d, r = .ok (d.paymentOfBooking bookingId) ∧ Wf d ∧
      seen = [(.step, d₀), (.step, d)]) (.read fun d next => ⟨trivial, d, rfl, next.1, rfl⟩) ?_ ?_
  · rintro _ _ ⟨first, ⟨⟩, wf, rfl⟩
    cases decided : existingOrder bookingId amountPaise (first.paymentOfBooking bookingId) with
    | some r =>
      cases r with
      | ok response => exact .pure (dueExactly_of_existing decided)
      | error e => exact .throw (dueExactly_of_existing decided)
    | none =>
      have undecided : ∀ row, first.paymentOfBooking bookingId = some row →
          row.status ≠ .COMPLETED ∧ row.status ≠ .REFUNDED := by
        intro row found
        rw [found] at decided
        simp only [existingOrder] at decided
        split at decided
        · cases decided
        next open' => exact not_or.mp open'
      refine (claimOrder_ends newId amountPaise cfg.currency wf).bind ?_ ?_
      · intro claim seen ends
        cases ends with
        | won record begun reads claimed =>
          -- the claimant asks the provider and does not query the payment again
          refine (executeOrder_unread (.refl seen) _ _ _ _ _ _).mono fun r issued unread => ?_
          exact dueExactly_of_unread begun reads undecided claimed unread.1 unread.2.1 unread.2.2
        | lost record d begun reads unclaimed last found =>
          -- the others wait for the order of the claimant, with a query in each round
          have awaits := awaitOrder_resolves amountPaise begun last found
          cases record <;> exact awaits.mono fun r issued resolves =>
            dueExactly_of_resolves begun reads undecided unclaimed resolves
      · rintro e seen ⟨⟩
  · rintro e seen ⟨d, ⟨⟩, -⟩

/-- A call that never reads the payment. -/
theorem dueExactly_of_booking {d₀ : Db} {e : Failure} :
    DueExactly bookingId (.error e) [(.step, d₀)] :=
  ⟨fun _ => ⟨nofun, nofun, Or.inr nofun⟩, fun _ => ⟨nofun, nofun⟩⟩

theorem createOrder_due (cfg : Config) (bookingId customerId newId : Id) (answer : OrdersCreate) :
    Issues [] (createOrder cfg bookingId customerId newId answer) (DueExactly bookingId) := by
  refine .bind (Q := fun r seen => r.isOk = true ∧ ∃ d, seen = [(.step, d)])
    (.read fun d _ => ⟨trivial, rfl, d, rfl⟩) ?_ nofun
  · rintro booking _ ⟨-, d, rfl⟩
    cases booking with
    | none => exact .throw dueExactly_of_booking
    | some booking =>
      dsimp only
      split
      · split
        · exact .throw dueExactly_of_booking
        · split
          · exact .throw dueExactly_of_booking
          · exact orderFor_due _ _ _ _ _
      · exact .throw dueExactly_of_booking

end Whole

/-! ### In a run -/

/-- A run with its journal, whose events meet a condition on the run so far. -/
abbrev Journaled (cfg : Config) (ok : PaymentPool → List (Entry Label Db Op) → Event Op → Prop) :
    PaymentPool → List (Entry Label Db Op) → Prop :=
  Pool.Records (system cfg) ok start

/-- What a call of `createOrder` is to achieve, of the booking it is for. -/
def orderDue (op : Op) (r : Outcome) (issued : List (Label × Db)) : Prop :=
  ∀ bookingId customerId newId answer, op = .createOrder bookingId customerId newId answer →
    (OffersDue bookingId issued r ↔ MeetsDue bookingId issued)

theorem system_due (cfg : Config) (me : Nat) (op : Op) :
    (system cfg me op).traced comesNext (fun _ _ _ _ => True) (fun r _ => orderDue op r) none [] := by
  cases op with
  | createOrder bookingId customerId newId answer =>
    have due : Issues [] (replying .order (createOrder cfg bookingId customerId newId answer))
        fun r issued => OffersDue bookingId issued r ↔ MeetsDue bookingId issued :=
      (createOrder_due cfg bookingId customerId newId answer).bind
        (fun _ _ due => .pure due) fun _ _ due => due
    refine Prog.traced_mono ?_ _ _ _ due
    rintro r tx issued ⟨-, due⟩ _ _ _ _ ⟨⟩
    exact due
  | _ => exact Prog.traced_any (fun _ _ _ _ => trivial) (fun _ _ _ _ _ _ _ same => nomatch same) _ _ _

/-- In every run and whatever happens between its statements, a call of `createOrder` that
returns has offered an order only while payment is due, exactly if it has read the payment in
stores in which `MeetsDue` holds. -/
theorem createOrder_offers_due {cfg : Config} {p : PaymentPool} {journal : List (Entry Label Db Op)}
    (records : Journaled cfg (fun _ _ _ => True) p journal) {i : Nat}
    {th : PaymentThread} (found : p.threads[i]? = some th) {bookingId customerId newId : Id}
    {answer : OrdersCreate} (op : th.op = .createOrder bookingId customerId newId answer)
    {r : Outcome} (returned : th.prog.returned = some r) :
    OffersDue bookingId (ownTrace journal i) r ↔ MeetsDue bookingId (ownTrace journal i) := by
  have follows := records.follows (A := fun _ _ _ _ _ => True) rfl
    (fun p journal i => comesNext_of_records i) (system_due cfg)
  exact follows.returned found returned bookingId customerId newId answer op

/-- The run of a schedule, with its journal. -/
def journaled (moves : List (Pool.Move Op)) : PaymentPool × List (Entry Label Db Op) :=
  Pool.record (system {}) (fun _ _ _ => True) 60 (start, []) moves

theorem journaled_records (moves : List (Pool.Move Op)) :
    Journaled {} (fun _ _ _ => True) (journaled moves).1 (journaled moves).2 :=
  Pool.Records.record (r := (start, [])) .refl 60 moves

theorem call_of_returned {p : PaymentPool} {i : Nat} {op : Op} {r : Outcome}
    (call : p.threads[i]?.map (fun th => (th.op, th.prog.returned)) = some (op, some r)) :
    ∃ th, p.threads[i]? = some th ∧ th.op = op ∧ th.prog.returned = some r := by
  obtain ⟨th, found, same⟩ := Option.map_eq_some_iff.mp call
  exact ⟨th, found, congrArg Prod.fst same, congrArg Prod.snd same⟩

/-- The call that created the order of booking 1. -/
theorem createOrder_offers_due_sample :
    OffersDue 1 (ownTrace (journaled paid).2 1) (.ok (.order
        { paymentId := 1, razorpayOrderId := 0, amount := 500, currency := "INR".toList
          status := .PENDING, bookingId := 1 })) ↔
      MeetsDue 1 (ownTrace (journaled paid).2 1) := by
  have call : (journaled paid).1.threads[1]?.map (fun th => (th.op, th.prog.returned)) =
      some (.createOrder 1 7 1 (.replied true 500 "INR".toList), some (.ok (.order
        { paymentId := 1, razorpayOrderId := 0, amount := 500, currency := "INR".toList
          status := .PENDING, bookingId := 1 }))) := by decide +kernel
  obtain ⟨th, found, op, returned⟩ := call_of_returned call
  exact createOrder_offers_due (journaled_records paid) found op returned

/-- The refund of a paid booking is being sent when its customer asks for an order again: the
call returns the order that was paid. -/
theorem order_offered_while_refunding :
    ∃ p journal th r, Journaled {} (fun _ _ _ => True) p journal ∧ p.threads[5]? = some th ∧
      th.op = .createOrder 1 7 2 .refused ∧ th.prog.returned = some r ∧
      ¬ OffersDue 1 (ownTrace journal 5) r := by
  let moves := paid ++ sendsRefund 4 500 ++
    [.event (.spawn (.createOrder 1 7 2 .refused)), .drive 5 true]
  let response : PaymentOrderResponse :=
    { paymentId := 1, razorpayOrderId := 0, amount := 500, currency := "INR".toList
      status := .REFUND_PENDING, bookingId := 1 }
  have call : (journaled moves).1.threads[5]?.map (fun th => (th.op, th.prog.returned)) =
      some (.createOrder 1 7 2 .refused, some (.ok (.order response))) := by decide +kernel
  obtain ⟨th, found, op, returned⟩ := call_of_returned call
  refine ⟨_, _, th, _, journaled_records moves, found, op, returned, fun due => ?_⟩
  have status : ((lastRead (ownTrace (journaled moves).2 5)).bind fun d => d.paymentOfBooking 1).map
      Payment.status = some .REFUND_PENDING := by decide +kernel
  obtain ⟨row, found, refunding⟩ := Option.map_eq_some_iff.mp status
  obtain ⟨d, last, found⟩ := Option.bind_eq_some_iff.mp found
  obtain ⟨row', found', -, pending⟩ := due.pending response d rfl last
  obtain rfl := Option.some.inj (found.symm.trans found')
  rw [refunding] at pending
  cases pending

end LabourBaba.Payments
