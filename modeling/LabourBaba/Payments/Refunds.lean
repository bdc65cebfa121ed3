import LabourBaba.Payments.Conformance

/-!
# Refund requests

A refund attempt is open from its claim on, as long as its call may still send the request
or the provider may still accept it. The claim of a COMPLETED or REFUND_FAILED payment
excludes every other open attempt, because an open attempt keeps the payment in the refund
states. The claim that retries a REFUND_PENDING or REFUND_UNKNOWN payment does not: it finds
the same statuses while another call's request is in flight. As long as the retries, and the
late writes of `createOrder`, find no open attempt, a payment has one open attempt at most.
-/
namespace LabourBaba.Payments

open Store
open Market (Id)

/-- The call may still send the request, or the provider may still accept it. -/
def RefundAttempt.isOpen (alive : Nat → Bool) (a : RefundAttempt) : Bool :=
  match a.state with
  | .claimed => !a.recorded && alive a.call
  | .rejected _ => !a.known
  | _ => true

/-- The request was sent, and it is not recorded that the provider has rejected it. -/
def RefundAttempt.outstanding (a : RefundAttempt) : Bool :=
  match a.state with
  | .claimed => false
  | .rejected _ => !a.known
  | _ => true

def RefundAttempt.isAccepted (a : RefundAttempt) : Bool :=
  match a.state with
  | .accepted _ => true
  | _ => false

theorem RefundAttempt.isOpen_of_outstanding {a : RefundAttempt} (alive : Nat → Bool)
    (outstanding : a.outstanding = true) : a.isOpen alive = true := by
  simp only [RefundAttempt.outstanding] at outstanding
  simp only [RefundAttempt.isOpen]
  split <;> simp_all

theorem RefundAttempt.outstanding_of_isAccepted {a : RefundAttempt}
    (accepted : a.isAccepted = true) : a.outstanding = true := by
  simp only [RefundAttempt.isAccepted] at accepted
  split at accepted
  next state => simp [RefundAttempt.outstanding, state]
  next => cases accepted

theorem RefundAttempt.isOpen_mono {alive alive' : Nat → Bool} {a : RefundAttempt}
    (fewer : alive' a.call = true → alive a.call = true) (opened : a.isOpen alive' = true) :
    a.isOpen alive = true := by
  simp only [RefundAttempt.isOpen] at opened ⊢
  split
  next state => simp_all
  next state => simpa [state] using opened
  next => rfl

/-- The statuses of a payment with an open attempt. -/
def refundStates : List PaymentStatus := [.REFUND_PENDING, .REFUND_UNKNOWN, .REFUNDED]

/-! ### One open attempt -/

structure OneOpen (alive : Nat → Bool) (d : Db) : Prop where
  once : ∀ n m a b, d.attempt n = some a → d.attempt m = some b → a.paymentId = b.paymentId →
    a.isOpen alive = true → b.isOpen alive = true → n = m
  claimed : ∀ n a, d.attempt n = some a → a.isOpen alive = true →
    ∃ row, d.payment a.paymentId = some row ∧ row.status ∈ refundStates

/-- Whether a payment has no open attempt. -/
def Db.closed (d : Db) (alive : Nat → Bool) (id : Id) : Bool :=
  d.attempts.all fun a => !(decide (a.paymentId = id) && a.isOpen alive)

theorem not_open_of_closed {d : Db} {alive : Nat → Bool} {n : Nat} {a : RefundAttempt}
    (closed : d.closed alive a.paymentId = true) (found : d.attempt n = some a)
    (opened : a.isOpen alive = true) : False := by
  have all := List.all_eq_true.mp closed a (List.mem_of_getElem? found)
  simp [opened] at all

/-- The claims and the writes that find no open attempt of the payment they are about. -/
def claimsClosed (alive : Nat → Bool) (ℓ : Label) (d : Db) : Bool :=
  match ℓ with
  | .refundReclaimed id | .orderSaved id _ | .orderFailed id => d.closed alive id
  | _ => true

section Steps

variable {alive : Nat → Bool} {d d' : Db}

/-- A step after which the open attempts are among those before it. -/
theorem OneOpen.of_fewer (one : OneOpen alive d)
    (fewer : ∀ n a', d'.attempt n = some a' → a'.isOpen alive = true →
      ∃ a, d.attempt n = some a ∧ a.isOpen alive = true ∧ a.paymentId = a'.paymentId)
    (rows : ∀ n a row, d.attempt n = some a → a.isOpen alive = true →
      (∃ a', d'.attempt n = some a' ∧ a'.isOpen alive = true) → row.status ∈ refundStates →
      d.payment a.paymentId = some row →
        ∃ row', d'.payment a.paymentId = some row' ∧ row'.status ∈ refundStates) :
    OneOpen alive d' := by
  constructor
  · intro n m a' b' foundA foundB same openA openB
    obtain ⟨a, wasA, wasOpenA, namedA⟩ := fewer n a' foundA openA
    obtain ⟨b, wasB, wasOpenB, namedB⟩ := fewer m b' foundB openB
    exact one.once n m a b wasA wasB (by rw [namedA, namedB, same]) wasOpenA wasOpenB
  · intro n a' found opened
    obtain ⟨a, was, wasOpen, named⟩ := fewer n a' found opened
    obtain ⟨row, stored, status⟩ := one.claimed n a was wasOpen
    rw [← named]
    exact rows n a row was wasOpen ⟨a', found, opened⟩ status stored

/-- A step that touches no attempt. -/
theorem OneOpen.of_same (one : OneOpen alive d) (same : d'.attempts = d.attempts)
    (rows : ∀ n a row, d.attempt n = some a → a.isOpen alive = true → row.status ∈ refundStates →
      d.payment a.paymentId = some row →
        ∃ row', d'.payment a.paymentId = some row' ∧ row'.status ∈ refundStates) :
    OneOpen alive d' := by
  refine one.of_fewer (fun n a found opened => ⟨a, ?_, opened, rfl⟩)
    fun n a row found opened _ => rows n a row found opened
  rwa [Db.attempt, same] at found

/-- A step that changes one attempt, which stays as open as it was or less. -/
theorem OneOpen.of_modify (one : OneOpen alive d) {n : Nat} {f : RefundAttempt → RefundAttempt}
    (after : d'.attempts = d.attempts.modify n f)
    (fewer : ∀ a, d.attempt n = some a → (f a).isOpen alive = true →
      a.isOpen alive = true ∧ a.paymentId = (f a).paymentId)
    (rows : ∀ m a row, d.attempt m = some a → a.isOpen alive = true →
      (∃ a', d'.attempt m = some a' ∧ a'.isOpen alive = true) → row.status ∈ refundStates →
      d.payment a.paymentId = some row →
        ∃ row', d'.payment a.paymentId = some row' ∧ row'.status ∈ refundStates) :
    OneOpen alive d' := by
  refine one.of_fewer (fun m a' found opened => ?_) rows
  rw [Db.attempt, after, List.getElem?_modify] at found
  cases stored : d.attempts[m]? with
  | none => simp [stored] at found
  | some a =>
    rw [stored] at found
    obtain rfl := Option.some.inj found
    dsimp only at opened ⊢
    by_cases hit : n = m
    · subst hit
      rw [if_pos rfl] at opened ⊢
      obtain ⟨wasOpen, named⟩ := fewer a stored opened
      exact ⟨a, stored, wasOpen, named⟩
    · rw [if_neg hit] at opened ⊢
      exact ⟨a, stored, opened, rfl⟩

theorem isOpen_decide {state : AttemptState} {a : RefundAttempt}
    (opened : (a.decide state).isOpen alive = true) :
    a.isOpen alive = true ∧ a.paymentId = (a.decide state).paymentId := by
  simp only [RefundAttempt.decide] at opened ⊢
  split at opened
  next flying => exact ⟨by simp [RefundAttempt.isOpen, flying], by split <;> rfl⟩
  next decided => exact ⟨opened, by split <;> rfl⟩

theorem isOpen_record {a : RefundAttempt} (opened : a.record.isOpen alive = true) :
    a.isOpen alive = true ∧ a.state ≠ .claimed := by
  cases state : a.state with
  | claimed | rejected => simp [RefundAttempt.isOpen, RefundAttempt.record, state] at opened
  | inFlight | accepted => simp [RefundAttempt.isOpen, state]

/-- What an update leaves of a payment with an open attempt. -/
theorem refundStates_update {ℓ : Label} {p : Payment} {data : PaymentData} (move : Move d ℓ p data)
    (status : p.status ∈ refundStates) (opened : d.closed alive p.id = false)
    (closed : claimsClosed alive ℓ d = true) : (p.update data).status ∈ refundStates := by
  have started : p.status ≠ .PENDING ∧ p.status ≠ .FAILED := by
    simp only [refundStates, List.mem_cons, List.not_mem_nil, or_false] at status
    rcases status with status | status | status <;> simp [status]
  cases move with
  | reclaimed failed => exact absurd failed started.2
  | orderFailed | orderSaved =>
    simp only [claimsClosed, opened] at closed
    cases closed
  | captured pending => exact absurd pending started.1
  | failed pending => exact absurd pending started.1
  | reconciled pending => exact absurd pending started.1
  | mismatched | enriched | quarantined => exact status
  | refunded | refundReconciled => simp [Payment.update, refundStates]

theorem payment_updated {p : Payment} {data : PaymentData} (found : d.payment p.id = some p)
    (after : d'.payments = Table.modify Payment.id d.payments [p.id] (Payment.update data)) :
    d'.payment p.id = some (p.update data) := by
  have first : Table.find Payment.id d.payments p.id = some p := found
  rw [Db.payment, after, Table.find_modify _ _ (Payment.update data) _ fun _ => rfl, first]
  simp

/-- The row of an open attempt after an update of the payments. -/
theorem row_after {p : Payment} {data : PaymentData} {id : Id} {row : Payment}
    (found : d.payment p.id = some p)
    (after : d'.payments = Table.modify Payment.id d.payments [p.id] (Payment.update data))
    (stored : d.payment id = some row) (status : row.status ∈ refundStates)
    (updated : id = p.id → (p.update data).status ∈ refundStates) :
    ∃ row', d'.payment id = some row' ∧ row'.status ∈ refundStates := by
  by_cases named : id = p.id
  · subst named
    exact ⟨p.update data, payment_updated found after, updated rfl⟩
  · refine ⟨row, ?_, status⟩
    rw [Db.payment, after,
      Table.find_modify_of_notMem _ _ (Payment.update data) _ (fun _ => rfl) (by simpa using named)]
    exact stored

theorem open_of_attempt {n : Nat} {a : RefundAttempt} (found : d.attempt n = some a)
    (opened : a.isOpen alive = true) : d.closed alive a.paymentId = false := by
  by_contra closed
  exact not_open_of_closed (by simpa using closed) found opened

/-- A claim finds no open attempt of its payment. -/
theorem closed_of_claiming {ℓ : Label} {p : Payment} {data : PaymentData} (one : OneOpen alive d)
    (found : d.payment p.id = some p) (claiming : Claiming ℓ p data)
    (closed : claimsClosed alive ℓ d = true) : d.closed alive p.id = true := by
  cases claiming with
  | retry => exact closed
  | normal source =>
    refine List.all_eq_true.mpr fun a member => ?_
    obtain ⟨n, stored⟩ := List.mem_iff_getElem?.mp member
    by_contra openHere
    obtain ⟨named, opened⟩ : a.paymentId = p.id ∧ a.isOpen alive = true := by
      simpa using openHere
    obtain ⟨row, stored', status⟩ := one.claimed n a stored opened
    rw [named, found] at stored'
    obtain rfl := Option.some.inj stored'
    simp only [refundStates, List.mem_cons, List.not_mem_nil, or_false] at source status
    rcases source with source | source <;> simp [source] at status

theorem claiming_status {ℓ : Label} {p : Payment} {data : PaymentData}
    (claiming : Claiming ℓ p data) : (p.update data).status = .REFUND_PENDING := by
  cases claiming <;> rfl

/-- A new attempt on a payment without an open one. -/
theorem OneOpen.of_claim {p : Payment} {data : PaymentData} {a : RefundAttempt}
    (one : OneOpen alive d) (found : d.payment p.id = some p)
    (alone : d.closed alive p.id = true) (status : (p.update data).status ∈ refundStates)
    (named : a.paymentId = p.id) (attempts : d'.attempts = d.attempts ++ [a])
    (payments : d'.payments = Table.modify Payment.id d.payments [p.id] (Payment.update data)) :
    OneOpen alive d' := by
  have old : ∀ n b, d'.attempt n = some b → d.attempt n = some b ∨ n = d.attempts.length ∧ b = a := by
    intro n b stored
    rw [Db.attempt, attempts] at stored
    exact Pool.getElem?_concat stored
  have other : ∀ n b, d.attempt n = some b → b.isOpen alive = true → b.paymentId ≠ p.id :=
    fun n b stored opened same => not_open_of_closed (same ▸ alone) stored opened
  constructor
  · intro n m b c foundB foundC same openB openC
    rcases old n b foundB with wasB | ⟨rfl, rfl⟩ <;> rcases old m c foundC with wasC | ⟨rfl, rfl⟩
    · exact one.once n m b c wasB wasC same openB openC
    · exact absurd (same.trans named) (other n b wasB openB)
    · exact absurd (same.symm.trans named) (other m c wasC openC)
    · rfl
  · intro n b stored opened
    rcases old n b stored with was | ⟨rfl, rfl⟩
    · obtain ⟨row, stored', status'⟩ := one.claimed n b was opened
      exact row_after found payments stored' status' fun _ => status
    · rw [named]
      exact ⟨_, payment_updated found payments, status⟩

/-- The commits of a live call keep one open attempt for each payment. -/
theorem Commit.keepsOneOpen {i : Nat} {ℓ : Label} {ws : List Write} (commit : Commit i d ℓ ws)
    (one : OneOpen alive d) (running : alive i = true) (closed : claimsClosed alive ℓ d = true) :
    OneOpen alive (applyAll ws d) := by
  cases commit with
  | plain still =>
    obtain ⟨payments, attempts⟩ := plain_applyAll still d
    refine one.of_same attempts fun n a row _ _ status stored => ⟨row, ?_, status⟩
    rwa [Db.payment, payments]
  | @inserted p pending unplaced fresh =>
    refine one.of_same rfl fun n a row _ _ status stored => ⟨row, ?_, status⟩
    exact Table.find_insert_of_some stored
  | @moved _ p data before after found move still =>
    obtain ⟨payments, attempts⟩ := moved_applyAll still d
    refine one.of_same attempts fun n a row stored opened status found' => ?_
    refine row_after found payments found' status fun named => ?_
    rw [named, found] at found'
    obtain rfl := Option.some.inj found'
    exact refundStates_update move status (named ▸ open_of_attempt stored opened) closed
  | @claimed _ p data a found claiming mine named fresh =>
    have alone := closed_of_claiming one found claiming closed
    exact one.of_claim found alone (by rw [claiming_status claiming]; decide) named rfl rfl
  | @sent n a attempt mine fresh =>
    refine one.of_modify rfl (fun b found opened => ?_) fun m b row _ _ _ status stored =>
      ⟨row, stored, status⟩
    obtain rfl := Option.some.inj (attempt.symm.trans found)
    exact ⟨by simp [RefundAttempt.isOpen, fresh, mine, running], rfl⟩
  | @accepted n answer =>
    exact one.of_modify rfl (fun a _ opened => isOpen_decide opened)
      fun m a row _ _ _ status stored => ⟨row, stored, status⟩
  | @rejected n description =>
    exact one.of_modify rfl (fun a _ opened => isOpen_decide opened)
      fun m a row _ _ _ status stored => ⟨row, stored, status⟩
  | @recorded _ p data n a after found attempt mine named unrecorded recording still =>
    obtain ⟨payments, attempts⟩ := recorded_applyAll still d
    refine one.of_modify attempts (fun b _ opened => ⟨(isOpen_record opened).1, rfl⟩) ?_
    intro m b row stored opened remains status found'
    refine row_after found payments found' status fun sameRow => ?_
    cases recording with
    | settled => simp [Payment.update, refundStates]
    | failed outcome =>
      rcases outcome with rfl | ⟨rfl, unsent⟩
      · simp [Payment.update, refundStates]
      · -- the failed attempt was the open one, and it is recorded now
        have mineOpen : a.isOpen alive = true := by
          simp [RefundAttempt.isOpen, unsent, unrecorded, mine, running]
        obtain rfl := one.once n m a b attempt stored (named.trans sameRow.symm) mineOpen opened
        obtain ⟨a', found'', opened'⟩ := remains
        have stored' : d.attempts[n]? = some b := stored
        rw [Db.attempt, attempts, List.getElem?_modify, stored'] at found''
        obtain rfl : b.record = a' := by simpa using found''
        obtain rfl := Option.some.inj (attempt.symm.trans stored)
        exact absurd unsent (isOpen_record opened').2

end Steps

/-! ### Every run -/

/-- No two requests for one payment are outstanding together. -/
def SentOnce (d : Db) : Prop :=
  ∀ n m a b, d.attempt n = some a → d.attempt m = some b → a.paymentId = b.paymentId →
    a.outstanding = true → b.outstanding = true → n = m

/-- The provider accepts one refund of a payment at most. -/
def AcceptedOnce (d : Db) : Prop :=
  ∀ n m a b, d.attempt n = some a → d.attempt m = some b → a.paymentId = b.paymentId →
    a.isAccepted = true → b.isAccepted = true → n = m

/-- The schedules in which the retries and the late writes find no open attempt. -/
def claimsAlone (p : PaymentPool) (e : Event Op) : Bool :=
  match labelOf p e with
  | some ℓ => claimsClosed p.alive ℓ p.db
  | none => true

theorem OneOpen.step {cfg : Config} {p q : PaymentPool} {e : Event Op} (one : OneOpen p.alive p.db)
    (sound : Pool.Sound protocol (fun _ => promised) p) (allowed : claimsAlone p e = true)
    (stepped : p.step (system cfg) e = some q) : OneOpen q.alive q.db := by
  have kept : OneOpen p.alive q.db := by
    rcases commit_of_event sound stepped with same | ⟨i, answer, ℓ, ws, rfl, labelled, after, commit⟩
    · rw [same]
      exact one
    · rw [after]
      refine commit.keepsOneOpen one (Pool.alive_of_run stepped) ?_
      simpa [claimsAlone, labelOf, labelled] using allowed
  -- a step only takes liveness away, and with it openness
  have opens : ∀ a : RefundAttempt, a.isOpen q.alive = true → a.isOpen p.alive = true :=
    fun a opened => RefundAttempt.isOpen_mono (Pool.alive_of_step stepped) opened
  exact ⟨fun n m a b foundA foundB same openA openB =>
      kept.once n m a b foundA foundB same (opens a openA) (opens b openB),
    fun n a found opened => kept.claimed n a found (opens a opened)⟩

/-- In every run whose retries and late writes find no open attempt, a payment has one
outstanding request at most, and the provider accepts one refund of it at most. -/
theorem refund_sent_once (cfg : Config) {p : PaymentPool}
    (run : Pool.Reaches (system cfg) (fun p e => claimsAlone p e = true) start p) :
    SentOnce p.db ∧ AcceptedOnce p.db := by
  have one : OneOpen p.alive p.db := by
    induction run with
    | refl => exact ⟨by simp [start, Db.attempt], by simp [start, Db.attempt]⟩
    | step e before allowed stepped ih =>
      have reached : Reachable cfg _ := before.mono fun _ _ _ _ _ _ _ _ => trivial
      exact ih.step (sound_of_runs reached) allowed stepped
  have sentOnce : SentOnce p.db := fun n m a b foundA foundB same sentA sentB =>
    one.once n m a b foundA foundB same (RefundAttempt.isOpen_of_outstanding _ sentA)
      (RefundAttempt.isOpen_of_outstanding _ sentB)
  refine ⟨sentOnce, fun n m a b foundA foundB same acceptedA acceptedB => ?_⟩
  exact sentOnce n m a b foundA foundB same (RefundAttempt.outstanding_of_isAccepted acceptedA)
    (RefundAttempt.outstanding_of_isAccepted acceptedB)

/-- A call crashes between its claim and its request, and a second call retries. -/
def retriedAfterCrash : List (Pool.Move Op) :=
  paid ++ (sendsRefund 4 200).take 4 ++ [.event (.crash 4),
    .event (.spawn (.refundPayment 1 ⟨7, .CUSTOMER⟩ (some (.integer 200)) none)),
    .event (.run 5 true), .event (.run 5 true), .event (.run 5 true), .event (.run 5 true),
    .event (.run 5 true), .event (.run 5 true),
    .event (.spawn (.acceptRefund 1 ⟨some 3, 200, none⟩)), .drive 6 true, .drive 5 true]

def retried : PaymentPool :=
  start.after (system {}) (fun p e => claimsAlone p e = true) 60 retriedAfterCrash

/-- The run of the retry is one of them. -/
theorem refund_sent_once_retried :
    retried.db.attempts.map (fun a => (a.paymentId, a.state)) =
        [(1, .claimed), (1, .accepted ⟨some 3, 200, none⟩)] ∧
      retried.db.payments.map Payment.status = [.REFUNDED] ∧
      SentOnce retried.db ∧ AcceptedOnce retried.db :=
  ⟨by decide +kernel, by decide +kernel,
    refund_sent_once {} (Pool.Reaches.refl.after 60 retriedAfterCrash)⟩

/-- The second call finds REFUND_PENDING while the first one's request is in flight, asks the
provider, which has refunded nothing yet, and claims the payment again. -/
def sentWhileInFlight : List (Pool.Move Op) :=
  paid ++ sendsRefund 4 200 ++
    [.event (.spawn (.refundPayment 1 ⟨7, .CUSTOMER⟩ (some (.integer 200)) none)), .drive 5 true,
     .event (.spawn (.acceptRefund 0 ⟨some 3, 200, none⟩)), .drive 6 true,
     .event (.spawn (.acceptRefund 1 ⟨some 4, 200, none⟩)), .drive 7 true]

theorem refund_sent_twice : ∃ p, Reachable {} p ∧ ¬ SentOnce p.db ∧ ¬ AcceptedOnce p.db := by
  refine ⟨played (fun _ _ => True) sentWhileInFlight, runs_played _ sentWhileInFlight, ?_⟩
  have both : ∃ a b, (played (fun _ _ => True) sentWhileInFlight).db.attempt 0 = some a ∧
      (played (fun _ _ => True) sentWhileInFlight).db.attempt 1 = some b ∧
      a.paymentId = b.paymentId ∧ a.isAccepted = true ∧ b.isAccepted = true :=
    ⟨_, _, rfl, rfl, by decide +kernel, by decide +kernel, by decide +kernel⟩
  obtain ⟨a, b, foundA, foundB, same, acceptedA, acceptedB⟩ := both
  refine ⟨fun once => ?_, fun once => ?_⟩
  · have first := once 0 1 a b foundA foundB same
      (RefundAttempt.outstanding_of_isAccepted acceptedA)
      (RefundAttempt.outstanding_of_isAccepted acceptedB)
    cases first
  · have first := once 0 1 a b foundA foundB same acceptedA acceptedB
    cases first

end LabourBaba.Payments
