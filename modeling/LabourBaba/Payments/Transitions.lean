import LabourBaba.Payments.Conformance

/-!
# Changes of the payment status

Only some writers compare the status before they set it. The others (the two writes of
`createOrder` after the provider's call, the refund webhook, and the writes of
`refundPayment` after its claim) set it on whatever they find. As long as they find a
status their call may move, every committed change follows `legalPaymentTransitions`, but
for the refund webhook, which also settles a COMPLETED or REFUND_FAILED payment.
-/
namespace LabourBaba.Payments

open Store
open Market (Id)

/-- A legal change, or the settlement by a refund webhook. -/
def LegalMove (ℓ : Option Label) (source target : PaymentStatus) : Prop :=
  target ∈ legalPaymentTransitions source ∨
    source ∈ [.COMPLETED, .REFUND_FAILED] ∧ target = .REFUNDED ∧
      ∃ captureId paymentId, ℓ = some (.refundEvent captureId (.moved paymentId))

/-- Every change of a status follows `LegalMove`. -/
def MovesLegally (ℓ : Option Label) (d d' : Db) : Prop :=
  ∀ row ∈ d.payments, ∀ row' ∈ d'.payments, row'.id = row.id → row'.status ≠ row.status →
    LegalMove ℓ row.status row'.status

/-- The payment, if it is stored, has one of the statuses. -/
def Db.statusIn (d : Db) (id : Id) (statuses : List PaymentStatus) : Bool :=
  (d.payment id).all fun p => decide (p.status ∈ statuses)

/-- The writes that do not compare the status find one that their call may move. -/
def findsUnfinished (ℓ : Label) (d : Db) : Bool :=
  match ℓ with
  | .orderFailed id =>
    (d.payment id).all fun p => p.razorpayOrderId.isSome || decide (p.status ∈ [.PENDING, .FAILED])
  | .orderSaved id _ => d.statusIn id [.PENDING, .FAILED]
  | .refundReconciled id | .refundSettled id =>
    d.statusIn id [.REFUND_PENDING, .REFUND_UNKNOWN, .REFUNDED]
  | .refundFailed id .REFUND_FAILED =>
    d.statusIn id [.REFUND_PENDING, .REFUND_UNKNOWN, .REFUND_FAILED]
  | .refundFailed id _ => d.statusIn id [.REFUND_PENDING, .REFUND_UNKNOWN]
  | .refundEvent _ (.moved id) => d.statusIn id (.REFUNDED :: refundableByWebhook)
  | _ => true

theorem status_of_statusIn {d : Db} {p : Payment} {statuses : List PaymentStatus}
    (found : d.payment p.id = some p) (within : d.statusIn p.id statuses = true) :
    p.status ∈ statuses := by
  simpa [Db.statusIn, found] using within

private theorem moves_to (target : PaymentStatus) {ℓ : Option Label} {source status : PaymentStatus}
    {p : Payment} (found : p.status = source) (set : status = target)
    (listed : target ∈ legalPaymentTransitions source) :
    status = p.status ∨ LegalMove ℓ p.status status :=
  Or.inr (Or.inl (by rwa [found, set]))

/-- What an update does to the status of the row it finds. -/
theorem status_update {d : Db} {ℓ : Label} {p : Payment} {data : PaymentData}
    (kind : Move d ℓ p data ∨ Claiming ℓ p data ∨ ∃ a, Recording a ℓ p data)
    (found : d.payment p.id = some p) (unfinished : findsUnfinished ℓ d = true) :
    (p.update data).status = p.status ∨ LegalMove (some ℓ) p.status (p.update data).status := by
  rcases kind with move | claiming | ⟨a, recording⟩
  · cases move with
    | reclaimed failed => exact moves_to .PENDING failed rfl (by decide)
    | orderFailed unsaved =>
      have within : p.status ∈ [.PENDING, .FAILED] := by
        simpa [findsUnfinished, found, unsaved] using unfinished
      simp only [List.mem_cons, List.not_mem_nil, or_false] at within
      rcases within with status | status
      · exact moves_to .FAILED status rfl (by decide)
      · exact Or.inl status.symm
    | orderSaved placed =>
      have within := status_of_statusIn found unfinished
      simp only [List.mem_cons, List.not_mem_nil, or_false] at within
      rcases within with status | status
      · exact Or.inl status.symm
      · exact moves_to .PENDING status rfl (by decide)
    | captured pending => exact moves_to .COMPLETED pending rfl (by decide)
    | mismatched => exact Or.inl rfl
    | failed pending => exact moves_to .FAILED pending rfl (by decide)
    | @refunded _ captureId =>
      have within := status_of_statusIn found unfinished
      simp only [refundableByWebhook, List.mem_cons, List.not_mem_nil, or_false] at within
      rcases within with status | status | status | status | status
      · exact Or.inl status.symm
      · exact Or.inr (Or.inr ⟨by rw [status]; decide, rfl, captureId, p.id, rfl⟩)
      · exact moves_to .REFUNDED status rfl (by decide)
      · exact Or.inr (Or.inr ⟨by rw [status]; decide, rfl, captureId, p.id, rfl⟩)
      · exact moves_to .REFUNDED status rfl (by decide)
    | enriched => exact Or.inl rfl
    | quarantined => exact Or.inl rfl
    | reconciled pending outcome =>
      rcases outcome with rfl | rfl
      · exact moves_to .COMPLETED pending rfl (by decide)
      · exact moves_to .FAILED pending rfl (by decide)
    | refundReconciled =>
      have within := status_of_statusIn found unfinished
      simp only [List.mem_cons, List.not_mem_nil, or_false] at within
      rcases within with status | status | status
      · exact moves_to .REFUNDED status rfl (by decide)
      · exact moves_to .REFUNDED status rfl (by decide)
      · exact Or.inl status.symm
  · cases claiming with
    | normal source =>
      simp only [List.mem_cons, List.not_mem_nil, or_false] at source
      rcases source with status | status
      · exact moves_to .REFUND_PENDING status rfl (by decide)
      · exact moves_to .REFUND_PENDING status rfl (by decide)
    | retry source =>
      simp only [List.mem_cons, List.not_mem_nil, or_false] at source
      rcases source with status | status
      · exact moves_to .REFUND_PENDING status rfl (by decide)
      · exact Or.inl status.symm
  · cases recording with
    | settled =>
      have within := status_of_statusIn found unfinished
      simp only [List.mem_cons, List.not_mem_nil, or_false] at within
      rcases within with status | status | status
      · exact moves_to .REFUNDED status rfl (by decide)
      · exact moves_to .REFUNDED status rfl (by decide)
      · exact Or.inl status.symm
    | failed outcome =>
      rcases outcome with rfl | ⟨rfl, -⟩
      · have within := status_of_statusIn found unfinished
        simp only [List.mem_cons, List.not_mem_nil, or_false] at within
        rcases within with status | status
        · exact moves_to .REFUND_UNKNOWN status rfl (by decide)
        · exact Or.inl status.symm
      · have within := status_of_statusIn found unfinished
        simp only [List.mem_cons, List.not_mem_nil, or_false] at within
        rcases within with status | status | status
        · exact moves_to .REFUND_FAILED status rfl (by decide)
        · exact moves_to .REFUND_FAILED status rfl (by decide)
        · exact Or.inl status.symm

/-- A commit whose write finds an unfinished row moves statuses legally. -/
theorem Commit.movesLegally {i : Nat} {d : Db} {ℓ : Label} {ws : List Write} (wf : Wf d)
    (commit : Commit i d ℓ ws) (unfinished : findsUnfinished ℓ d = true) :
    MovesLegally (some ℓ) d (applyAll ws d) := by
  intro row member row' member' same changed
  have unique : ∀ old ∈ d.payments, old.id = row.id → old = row := fun old stored named =>
    Table.eq_of_find wf.ids (Table.find_of_mem wf.ids member) stored named
  cases commit.payments with
  | same same' =>
    rw [same'] at member'
    exact absurd (congrArg Payment.status (unique row' member' same)) changed
  | inserted p pending unplaced fresh after =>
    rw [after] at member'
    rcases List.mem_append.mp member' with member' | member'
    · exact absurd (congrArg Payment.status (unique row' member' same)) changed
    · rw [List.mem_singleton.mp member'] at same
      have clash := fresh row member
      simp [Payment.clash, same] at clash
  | updated p data found kind after =>
    rw [after] at member'
    obtain ⟨old, stored, rfl⟩ := Table.mem_modify.mp member'
    by_cases named : old.id ∈ [p.id]
    · rw [if_pos named] at same changed ⊢
      obtain rfl := unique old stored same
      obtain rfl := Table.eq_of_find wf.ids found stored (List.mem_singleton.mp named)
      exact (status_update kind found unfinished).resolve_left changed
    · rw [if_neg named] at same changed
      exact absurd (congrArg Payment.status (unique old stored same)) changed

/-- The payment is stored, and REFUNDED. -/
def Settled (id : Id) (d : Db) : Prop :=
  ∃ row ∈ d.payments, row.id = id ∧ row.status = .REFUNDED

theorem Commit.keepsSettled {i : Nat} {d : Db} {ℓ : Label} {ws : List Write} {id : Id} (wf : Wf d)
    (commit : Commit i d ℓ ws) (unfinished : findsUnfinished ℓ d = true) (settled : Settled id d) :
    Settled id (applyAll ws d) := by
  obtain ⟨row, member, named, refunded⟩ := settled
  obtain ⟨row', member', same⟩ := (Later.applyAll ws d).payments.mem member
  have sameId : row'.id = row.id := congrArg Prod.fst same
  refine ⟨row', member', sameId.trans named, ?_⟩
  by_contra left
  have moved := commit.movesLegally wf unfinished row member row' member' sameId
    (by rwa [refunded])
  rw [refunded] at moved
  rcases moved with legal | ⟨source, -⟩
  · cases legal
  · simp at source

/-- A full refund of a paid booking, accepted while the call waits. -/
def refundedInTime : List (Pool.Move Op) :=
  paid ++ sendsRefund 4 500 ++
    [.event (.spawn (.acceptRefund 0 ⟨some 1, 500, none⟩)), .drive 5 true, .drive 4 true]

/-- Every change of a status, in every run, is listed. -/
def StatusesLegal (cfg : Config) : Prop :=
  ∀ p e q, Reachable cfg p → p.step (system cfg) e = some q →
    ∀ row ∈ p.db.payments, ∀ row' ∈ q.db.payments, row'.id = row.id → row'.status ≠ row.status →
      row'.status ∈ legalPaymentTransitions row.status

/-- No run leaves REFUNDED. -/
def RefundedStays (cfg : Config) : Prop :=
  ∀ p q id, Reachable cfg p → Pool.Reaches (system cfg) (fun _ _ => True) p q →
    Settled id p.db → Settled id q.db

/-- The refund webhook up to its commit. -/
def refundReportedAtOnce : List (Pool.Move Op) :=
  paid ++ .event (.spawn refundReported) :: List.replicate 7 (.event (.run 4 true))

/-- The webhook settles the payment while the call that asked for the refund still waits. -/
def refundReportedFirst : List (Pool.Move Op) :=
  paid ++ sendsRefund 4 500 ++ [.event (.spawn refundReported), .drive 5 true]

end LabourBaba.Payments
