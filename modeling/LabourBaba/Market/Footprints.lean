import LabourBaba.Market.BookingConformance
import LabourBaba.Market.System
import LabourBaba.Store.Guards

/-!
# Footprints of the services

Two groups of columns are each the business of a few calls: the OTP state of a booking,
which only `verifyOtp` moves, and the waves, offers and queues, which only dispatch moves.
For every other call it is read off its statements that it spares the group, and which
labels it commits under.
-/
namespace LabourBaba.Market

open Store

/-- The write neither guesses an OTP nor touches the columns a guess is checked against. A new
booking has its OTP unused, and no booking goes back to CONFIRMED. -/
def Write.sparesOtp : Write → Bool
  | .bookingOtpAttempts _ _ _ | .bookingOtpConsumed _ _ | .guessed _ => false
  | .bookingStatus _ s => decide (s ≠ .CONFIRMED ∧ s ≠ .IN_PROGRESS)
  | .insertBooking b => decide (b.status = .CONFIRMED ∧ b.otpAttempts = 0 ∧ b.otpLockedAt = none)
  | _ => true

/-- The write adds no wave, no offer and no queue entry, ends no wave and reopens no offer. -/
def Write.sparesDispatch : Write → Bool
  | .insertWave _ | .exhaustWave _ _ | .insertDispatch _ | .addDispatchJob _
  | .addTimeoutJob _ => false
  | .dispatchStatus _ s => decide (s ≠ .pending)
  | _ => true

def Write.routine (w : Write) : Bool := w.sparesOtp && w.sparesDispatch

/-- The write changes no stored offer and counts no decline; a new offer is pending. -/
def Write.sparesOffers : Write → Bool
  | .dispatchStatus _ _ | .declineCount _ => false
  | .insertDispatch x => decide (x.status = .pending)
  | _ => true

/-- The offers under these keys are pending or accepted, and are closed otherwise than by a
decline. -/
structure Db.ClosesOpen (d : Db) (offers : List (Id × Id)) (status : DispatchStatus) : Prop where
  closes : status ≠ .pending
  declines : status ≠ .declined
  found : ∀ o ∈ offers, ∃ x ∈ d.dispatches, x.key = o ∧
    (x.status = .pending ∨ x.status = .accepted)

/-- The labels under which declines, the wave processors and the scan commit and enqueue. -/
def Label.ofDispatch : Label → Bool
  | .offerDeclined _ _ | .waveExhausted _ _ | .noWorkers _ _ | .waveRequirement _ _
  | .waveLookup _ _ | .waveCommitted _ _ | .offersTimedOut _ _ | .reconciled _ _
  | .enqueued => true
  | _ => false

section Footprints

variable {ok : Write → Prop} {named : Label → Prop}
  (wide : ∀ w, w.routine = true → w.sparesOffers = true → ok w)
  (known : ∀ ℓ : Label, ℓ.ofDispatch = false → named ℓ)

include wide

/-! ### Job and requirement services -/

omit wide in
theorem assertPolicy_plain (decision : Except Failure Unit) :
    Call.Plain ok (assertPolicy decision) := by
  cases decision with
  | ok _ => exact .pure _
  | error e => exact .throw e

omit wide in
theorem assertPolicy_emits {inTx : Bool} (decision : Except Failure Unit) :
    Call.Emits ok named inTx (assertPolicy decision) := by
  cases decision with
  | ok _ => exact .pure _
  | error e => exact .throw e

omit wide in
theorem lockJob_plain (jobId : Id) : Call.Plain ok (lockJob jobId) := by
  refine .bind (.lock _ _ _) fun row => ?_
  cases row with
  | some job => exact .pure _
  | none => exact .read _ _

theorem jobTransition_plain (jobId : Id) (action : JobAction) (actor : TransitionActor) :
    Call.Plain ok (jobTransition jobId action actor) := by
  refine .bind (lockJob_plain jobId) fun row => ?_
  cases row with
  | none => exact .throw _
  | some job =>
    simp only
    cases jobCanTransition job.status action actor job.customerId with
    | error e => exact .throw e
    | ok rule =>
      refine .bind (.stmt ?_) fun updated => ?_
      · intro d ws a result
        have sets : ∀ w ∈ ws, w = .jobStatus jobId rule.targetStatus := by
          split at result
          · split at result <;> cases result <;> simp
          · cases result
            simp
        exact fun w member => wide w (by rw [sets w member]; rfl) (by rw [sets w member]; rfl)
      · cases updated with
        | false => exact .throw _
        | true =>
          refine .bind (.read _ _) fun _ => .bind (.stmt ?_) fun _ => .pure _
          rintro d ws a ⟨⟩
          simpa using wide _ rfl rfl

omit wide in
theorem unlessInvalidFrom_plain {α : Type} (ignored : List JobStatus) {body : Service α}
    (plain : Call.Plain ok body) : Call.Plain ok (unlessInvalidFrom ignored body) := by
  refine .bind plain.attempt fun result => ?_
  cases result with
  | ok a => exact .pure _
  | error e =>
    cases e with
    | jobInvalidTransition s a m =>
      simp only
      split
      · exact .pure _
      · exact .throw _
    | _ => exact .throw _

omit wide in
/-- The same around a call that has its own transactions. -/
theorem unlessInvalidFrom_emits {α : Type} (ignored : List JobStatus) {body : Service α}
    {inTx : Bool} (emits : Call.Emits ok named inTx body) :
    Call.Emits ok named inTx (unlessInvalidFrom ignored body) := by
  refine .bind emits.attempt fun result => ?_
  cases result with
  | ok a => exact .pure _
  | error e =>
    cases e with
    | jobInvalidTransition s a m =>
      simp only
      split
      · exact .pure _
      · exact .throw _
    | _ => exact .throw _

theorem insertRequirement_writes {jobId : Id} {r : NewRequirement} {d : Db} {ws : List Write}
    {a : Unit} (inserted : insertRequirement jobId r d = .ok (ws, a)) : ∀ w ∈ ws, ok w := by
  simp only [insertRequirement] at inserted
  iterate 3 (split at inserted; · cases inserted)
  cases inserted
  simpa using wide _ rfl rfl

theorem insertJob_plain (job : Job) (requirements : List NewRequirement) :
    Call.Plain ok (insertJob job requirements) := by
  refine .bind (.stmt fun d ws a inserted => ?_) fun _ => .bind (.stmt ?_) fun _ => .each fun r => ?_
  · split at inserted <;> cases inserted
    simpa using wide _ rfl rfl
  · rintro d ws a ⟨⟩
    simpa using wide _ rfl rfl
  · exact .stmt fun d ws a inserted => insertRequirement_writes wide inserted

theorem startDispatch_plain (jobId : Id) : Call.Plain ok (startDispatch jobId) := by
  refine .bind (jobTransition_plain wide jobId .START_DISPATCH _) fun _ => .stmt ?_
  rintro d ws a ⟨⟩
  simpa using wide _ rfl rfl

include known in
theorem createJobReq_emits (jobId : Id) (payload : NewRequirement)
    (actor : Option AuthenticatedUser) : Call.Emits ok named false (createJobReq jobId payload actor) := by
  cases actor with
  | none => exact .throw _
  | some actor =>
    refine .bind (.read _ _) fun job => ?_
    cases job with
    | none => exact .throw _
    | some job =>
      refine .bind (assertPolicy_emits _) fun _ => ?_
      split
      · exact .throw _
      · exact .stmt (.inr (known _ rfl)) fun d ws a inserted => insertRequirement_writes wide inserted

include known in
theorem updateRequirementDemand_emits (jobId requirementId : Id) (needed : Int)
    (actor : Option AuthenticatedUser) :
    Call.Emits ok named false (updateRequirementDemand jobId requirementId needed actor) := by
  cases actor with
  | none => exact .throw _
  | some actor =>
    refine .transaction (fun _ => known _ rfl) (.bind (.read _ _) fun found => ?_)
    cases found with
    | none => exact .throw _
    | some customerId =>
      refine .bind (assertPolicy_emits _) fun _ => ?_
      rw [updateDemand]
      split
      · exact .throw _
      · refine .bind (.read _ _) fun found => ?_
        split
        · exact .throw _
        · iterate 3 (split; · exact .throw _)
          refine .bind (.stmt (.inl rfl) fun d ws a set => ?_) fun _ => .pure _
          simp only [setDemand] at set
          split at set
          · cases set
          · split at set <;> cases set
            simpa using ⟨wide _ rfl rfl, wide _ rfl rfl⟩

/-! ### Booking services -/

omit wide in
theorem lockOrReadBooking_plain (id : Id) (inScope : Booking → Bool) :
    Call.Plain ok (lockOrReadBooking id inScope) := by
  refine .bind (.lock _ _ _) fun row => ?_
  cases row with
  | some booking => exact .pure _
  | none => exact .read _ _

theorem bookingTransition_plain (id : Id) (action : BookingAction) (actor : TransitionActor)
    (reason : Text) (moves : ∀ now, ∀ w ∈ bookingMove id action.target now, ok w) :
    Call.Plain ok (bookingTransition id action actor reason) := by
  refine .bind (lockOrReadBooking_plain id _) fun row => ?_
  cases row with
  | none => exact .throw _
  | some booking =>
    simp only
    split
    · split
      · exact .throw _
      · exact .pure _
    · split
      · split
        · exact .throw _
        · exact .pure _
      · cases allowed : bookingCanTransition booking.status action actor booking.customerId
            booking.workerId with
        | error e => exact .throw e
        | ok target =>
          obtain ⟨-, rfl, -⟩ := bookingCanTransition_ok allowed
          simp only
          split
          · exact .throw _
          · refine .bind (.read _ _) fun now => .bind (.stmt ?_) fun _ => .bind (.stmt ?_) fun _ => .pure _
            · intro d ws a set
              rw [setBookingStatus_ok set]
              exact moves now
            · rintro d ws a ⟨⟩
              simpa using wide _ rfl rfl

/-- The transitions other than starting work. -/
theorem bookingTransition_routine (id : Id) {action : BookingAction} (actor : TransitionActor)
    (reason : Text) (ends : action.target ≠ .CONFIRMED ∧ action.target ≠ .IN_PROGRESS) :
    Call.Plain ok (bookingTransition id action actor reason) := by
  refine bookingTransition_plain wide id action actor reason fun now => ?_
  simp only [bookingMove, ends.2, if_false, List.mem_singleton, forall_eq]
  exact wide _ (by simp [Write.routine, Write.sparesOtp, Write.sparesDispatch, ends]) rfl

theorem createReview_plain (review : Review) : Call.Plain ok (createReview review) := by
  refine .stmt fun d ws a created => ?_
  split at created <;> cases created
  simpa using wide _ rfl rfl

theorem createOutbox_plain (key : OutboxKey) : Call.Plain ok (createOutbox key) := by
  refine .stmt fun d ws a created => ?_
  split at created <;> cases created
  simpa using wide _ rfl rfl

omit wide in
theorem onlyIf_plain (condition : Bool) {body : Service Unit} (plain : Call.Plain ok body) :
    Call.Plain ok (onlyIf condition body) := by
  rw [onlyIf]
  split
  · exact plain
  · exact .pure _

include known in
theorem completeBooking_emits (id workerId : Id) (actor : Option AuthenticatedUser) :
    Call.Emits ok named false (completeBooking id workerId actor) := by
  refine .transaction (fun _ => known _ rfl) (.bind (.read _ _) fun found => ?_)
  cases found with
  | none => exact .throw _
  | some booking =>
    refine .bind (assertPolicy_emits _) fun _ => ?_
    refine .bind (bookingTransition_routine wide id _ _ (by simp [BookingAction.target])).emits fun _ => ?_
    exact .pure _

theorem completeJobIfDone_plain (jobId : Id) (actor : TransitionActor) :
    Call.Plain ok (completeJobIfDone jobId actor) := by
  refine .bind (.read _ _) fun uncompleted => ?_
  split
  · exact unlessInvalidFrom_plain _ (jobTransition_plain wide jobId .COMPLETE actor)
  · exact .pure _

include known in
theorem confirmComplete_emits (id customerId : Id) (rating : Option Nat)
    (actor : Option AuthenticatedUser) : Call.Emits ok named false (confirmComplete id customerId rating actor) := by
  refine .bind (.transaction (fun _ => known _ rfl) (Call.Plain.emits (.bind (.read _ _) fun found => ?_))) fun _ => .pure _
  cases found with
  | none => exact .throw _
  | some booking =>
    refine .bind (assertPolicy_plain _) fun _ => ?_
    split
    · exact .throw _
    · refine .bind (bookingTransition_routine wide id _ _ (by simp [BookingAction.target])) fun _ => ?_
      refine .bind (onlyIf_plain _ (createReview_plain wide _)) fun _ => ?_
      refine .bind (completeJobIfDone_plain wide _ _) fun _ => ?_
      exact .bind (onlyIf_plain _ (createOutbox_plain wide _)) fun _ => .pure _

theorem reconcileCapacity_plain (requirementId : Id) :
    Call.Plain ok (reconcileCapacity requirementId) := by
  refine .bind (.lock _ _ _) fun _ => .bind (.read _ _) fun found => ?_
  cases found with
  | none => exact .throw _
  | some req =>
    refine .bind (.read _ _) fun active => ?_
    split
    · exact .throw _
    · refine .bind (.stmt fun d ws a set => ?_) fun _ => .pure _
      simp only [setCapacity] at set
      split at set
      · cases set
      · split at set <;> cases set
        simpa using ⟨wide _ rfl rfl, wide _ rfl rfl⟩

theorem reopenJobIfEmpty_plain (jobId : Id) : Call.Plain ok (reopenJobIfEmpty jobId) := by
  refine .bind (.read _ _) fun active => ?_
  split
  · exact unlessInvalidFrom_plain _ (jobTransition_plain wide jobId .REOPEN_DISPATCH _)
  · exact .pure _

/-! ### Acceptance -/

theorem checkJobComplete_plain (jobId : Id) : Call.Plain ok (checkJobComplete jobId) := by
  refine .bind (.read _ _) fun unfilled => ?_
  split
  · refine .bind (unlessInvalidFrom_plain _ (jobTransition_plain wide jobId .MARK_BOOKED _)) fun _ => ?_
    refine .bind (.stmt fun d ws a marked => ?_) fun _ => .pure _
    split at marked <;> cases marked
    simpa using wide _ rfl rfl
  · exact .pure _

end Footprints

/-! ### Services that close offers -/

section Offers

variable {inv : Db → Prop} {ok : Db → Write → Prop} {named : Label → Prop} {kind : Write → Prop}
  (wide : ∀ w, w.routine = true → w.sparesOffers = true → kind w)
  (permitted : ∀ d w, kind w → ok d w)
  (offers : ∀ d keys status, inv d → d.ClosesOpen keys status → ok d (.dispatchStatus keys status))
  (known : ∀ ℓ : Label, ℓ.ofDispatch = false → named ℓ)

include offers

omit wide permitted in
theorem setOffers_guards (select : Dispatch → Bool) {status : DispatchStatus}
    (closes : status ≠ .pending) (declines : status ≠ .declined)
    (selects : ∀ x, select x = true → x.status = .pending ∨ x.status = .accepted) :
    Call.Guards inv ok named true (setOffers select status) := by
  rw [setOffers, step]
  refine .stmt (.inl rfl) ?_
  rintro d ws a holds ⟨⟩
  suffices closed : d.ClosesOpen ((d.dispatches.filter select).map (·.key)) status by
    simpa using offers d _ status holds closed
  refine ⟨closes, declines, fun o member => ?_⟩
  obtain ⟨x, selected, rfl⟩ := List.mem_map.mp member
  obtain ⟨stored, chosen⟩ := List.mem_filter.mp selected
  exact ⟨x, stored, rfl, selects x chosen⟩

include wide permitted

include known in
theorem cancelJob_guards (jobId : Id) (actor : TransitionActor) :
    Call.Guards inv ok named false (cancelJob jobId actor) := by
  refine .transaction (fun _ => known _ rfl) ?_
  refine .bind ((jobTransition_plain wide jobId .CANCEL actor).guards permitted) fun _ => ?_
  refine .bind (.stmt (.inl rfl) ?_) fun _ => .bind (.read _ _) fun reqs => ?_
  · rintro d ws a _ ⟨⟩
    simpa using permitted d _ (wide _ rfl rfl)
  · refine .bind (.each fun r => ?_) fun _ => .pure _
    refine .bind (setOffers_guards offers _ (by simp) (by simp) fun x chosen => ?_) fun _ => .pure _
    exact Or.inl (of_decide_eq_true chosen).2

include known in
theorem cancelBooking_guards (id userId : Id) (reason : Text) (actor : Option AuthenticatedUser) :
    Call.Guards inv ok named false (cancelBooking id userId reason actor) := by
  refine .bind (.transaction (fun _ => known _ rfl)
    (.bind ((lockOrReadBooking_plain id _).guards permitted) fun found => ?_)) fun _ => .pure _
  cases found with
  | none => exact .throw _
  | some booking =>
    refine .bind ((assertPolicy_plain _).guards permitted) fun _ => ?_
    split
    · exact .throw _
    · refine .bind ((bookingTransition_routine wide id _ _
        (by simp [BookingAction.target])).guards permitted) fun result => ?_
      split
      · exact .pure _
      · refine .bind ((reconcileCapacity_plain wide _).guards permitted) fun _ => ?_
        refine .bind (setOffers_guards offers _ (by simp) (by simp) fun x chosen => ?_) fun _ => ?_
        · exact (of_decide_eq_true chosen).2.2.symm
        · refine .bind ((reopenJobIfEmpty_plain wide _).guards permitted) fun _ => ?_
          exact .bind ((createOutbox_plain wide _).guards permitted) fun _ => .pure _

theorem closeFilled_guards (nowFilled : Bool) (requirementId jobId : Id) :
    Call.Guards inv ok named true (closeFilled nowFilled requirementId jobId) := by
  rw [closeFilled]
  split
  · refine .bind (.read _ _) fun _ => ?_
    refine .bind (setOffers_guards offers _ (by simp) (by simp) fun x chosen => ?_) fun _ => ?_
    · exact Or.inl (of_decide_eq_true chosen).2
    · exact .bind ((checkJobComplete_plain wide jobId).guards permitted) fun _ => .pure _
  · exact .pure _

theorem acceptTx_guards (cfg : Config) (requirementId workerId : Id) (new : NewBooking) :
    Call.Guards inv ok named true (acceptTx cfg requirementId workerId new) := by
  refine .bind (.lock _ _ _) fun _ => .bind (.read _ _) fun found => ?_
  split
  · exact .throw _
  · exact .throw _
  · refine .bind ((assertPolicy_plain _).guards permitted) fun _ => .bind (.read _ _) fun existing => ?_
    split
    · exact .throw _
    · refine .bind (.read _ _) fun now => .bind (.stmt (.inl rfl) fun d ws a holds taken => ?_)
        fun count => ?_
      · simp only [acceptOffer] at taken
        split at taken
        next x stored =>
          split at taken <;> cases taken
          next claimable =>
            -- the conditional UPDATE matches the worker's own pending offer
            have closed : d.ClosesOpen [(requirementId, workerId)] .accepted := by
              refine ⟨by simp, by simp, fun o member => ?_⟩
              obtain rfl := List.mem_singleton.mp member
              exact ⟨x, Table.mem_of_find stored, Table.find_key stored, Or.inl claimable.1⟩
            simpa using offers d _ _ holds closed
          next => simp
        next =>
          cases taken
          simp
      · split
        · exact .bind (.read _ _) fun _ => .throw _
        · refine .bind (.stmt (.inl rfl) fun d ws a _ reserved => ?_) fun _ =>
            .bind (.read _ _) fun issuedAt => ?_
          · simp only [reserveSlot] at reserved
            split at reserved
            · cases reserved
            · split at reserved <;> cases reserved
              simpa using ⟨permitted d _ (wide _ rfl rfl), permitted d _ (wide _ rfl rfl)⟩
          · refine .bind (.stmt (.inl rfl) fun d ws a _ inserted => ?_) fun _ =>
              .bind (.stmt (.inl rfl) fun d ws a _ noticed => ?_) fun _ => ?_
            · -- the new booking is CONFIRMED, with no attempt counted
              simp only [insertBooking] at inserted
              split at inserted
              · cases inserted
              · split at inserted <;> cases inserted
                simpa using permitted d _
                  (wide _ (by simp [Write.routine, Write.sparesOtp, Write.sparesDispatch]) rfl)
            · simp only [insertOutbox] at noticed
              split at noticed <;> cases noticed
              simpa using permitted d _ (wide _ rfl rfl)
            · exact .bind (closeFilled_guards wide permitted offers _ _ _) fun _ => .pure _

include known in
theorem acceptDispatch_guards (cfg : Config) (requirementId workerId : Id) (new : NewBooking) :
    Call.Guards inv ok named false (acceptDispatch cfg requirementId workerId new) := by
  refine .bind (.read _ _) fun _ => .bind (.read _ _) fun _ => .bind (.read _ _) fun _ => ?_
  refine .bind ((assertPolicy_emits _).guards permitted) fun _ => ?_
  refine .bind ((assertPolicy_emits _).guards permitted) fun _ => ?_
  refine .bind (.attempt (.transaction (fun _ => known _ rfl)
    (acceptTx_guards wide permitted offers _ _ _ _))) fun result => ?_
  cases result with
  | ok acceptance => exact .pure _
  | error e => exact .throw _

end Offers

section OfferFootprints

variable {ok : Write → Prop} {named : Label → Prop}
  (wide : ∀ w, w.routine = true → w.sparesOffers = true → ok w)
  (offers : ∀ keys status, status ≠ .pending → ok (.dispatchStatus keys status))
  (known : ∀ ℓ : Label, ℓ.ofDispatch = false → named ℓ)

include offers

omit wide in
theorem setOffers_plain (select : Dispatch → Bool) {status : DispatchStatus}
    (closes : status ≠ .pending) : Call.Plain ok (setOffers select status) := by
  rw [setOffers, step]
  refine .stmt ?_
  rintro d ws a ⟨⟩
  simpa using offers _ status closes

include wide known

theorem cancelJob_emits (jobId : Id) (actor : TransitionActor) :
    Call.Emits ok named false (cancelJob jobId actor) :=
  (cancelJob_guards wide (fun _ _ kind => kind)
    (fun _ keys status _ closed => offers keys status closed.closes) known jobId actor).emits

theorem cancelBooking_emits (id userId : Id) (reason : Text) (actor : Option AuthenticatedUser) :
    Call.Emits ok named false (cancelBooking id userId reason actor) :=
  (cancelBooking_guards wide (fun _ _ kind => kind)
    (fun _ keys status _ closed => offers keys status closed.closes) known id userId reason
    actor).emits

theorem acceptDispatch_emits (cfg : Config) (requirementId workerId : Id) (new : NewBooking) :
    Call.Emits ok named false (acceptDispatch cfg requirementId workerId new) :=
  (acceptDispatch_guards wide (fun _ _ kind => kind)
    (fun _ keys status _ closed => offers keys status closed.closes) known cfg requirementId
    workerId new).emits

end OfferFootprints

theorem replying_emits {α : Type} {ok : Write → Prop} {named : Label → Prop} {reply : α → Reply}
    {body : Service α} (emits : Call.Emits ok named false body) :
    Call.Emits ok named false (replying reply body) :=
  emits.bind fun _ => .pure _

/-! ### The two groups -/

section Otp

variable {ok : Write → Prop} {named : Label → Prop}
  (wide : ∀ w, w.sparesDispatch = true → w.sparesOffers = true → ok w)
  (known : ∀ ℓ : Label, ℓ.ofDispatch = false → named ℓ)

include wide

/-- What `verifyOtp` does inside its transaction leaves dispatch alone. -/
theorem verifyOtpTx_plain (cfg : Config) (id workerId : Id) (otp : Nat)
    (actor : Option AuthenticatedUser) : Call.Plain ok (verifyOtpTx cfg id workerId otp actor) := by
  have routine : ∀ w : Write, w.routine = true → w.sparesOffers = true → ok w :=
    fun w both => wide w (Bool.and_eq_true_iff.mp both).2
  have found : Call.Plain ok (bookingForOtp id workerId actor) := by
    refine .bind (lockOrReadBooking_plain id _) fun assigned => ?_
    cases assigned with
    | some booking => exact .pure _
    | none =>
      refine .bind (.read _ _) fun candidate => ?_
      cases candidate with
      | none => exact .pure _
      | some booking => exact .bind (assertPolicy_plain _) fun _ => .pure _
  refine .bind found fun booking => ?_
  cases booking with
  | none => exact .throw _
  | some booking =>
    refine .bind (assertPolicy_plain _) fun _ => .bind (.read _ _) fun now => ?_
    iterate 4 (split; · exact .throw _)
    have compared : Call.Plain ok (compareOtp cfg booking otp now) := by
      rw [compareOtp, step]
      refine .stmt ?_
      rintro d ws a ⟨⟩
      simpa using wide _ rfl rfl
    refine .bind compared fun isValid => ?_
    cases isValid with
    | true =>
      refine .bind (bookingTransition_plain routine id .START_WORK _ _ fun now => ?_) fun _ => ?_
      · simpa [bookingMove, BookingAction.target] using ⟨wide _ rfl rfl, wide _ rfl rfl⟩
      · exact .bind (unlessInvalidFrom_plain _ (jobTransition_plain routine _ .START_WORK _))
          fun _ => .pure _
    | false =>
      refine .bind (.stmt fun d ws a counted => ?_) fun _ => .pure _
      simp only [countOtpAttempt] at counted
      split at counted <;> cases counted
      simpa using wide _ rfl rfl

include known in
theorem verifyOtp_emits (cfg : Config) (id workerId : Id) (otp : Nat)
    (actor : Option AuthenticatedUser) : Call.Emits ok named false (verifyOtp cfg id workerId otp actor) := by
  have label : ∀ result, named (OtpResult.label id result) := by
    intro result
    cases result <;> exact known _ rfl
  refine .bind (.transaction label (verifyOtpTx_plain wide cfg id workerId otp actor).emits)
    fun result => ?_
  match result with
  | .verified _ _ => exact .pure _
  | .rejected true => exact .throw _
  | .rejected false => exact .throw _

end Otp

section Dispatch

variable {ok : Write → Prop} (wide : ∀ w, w.sparesOtp = true → w.sparesOffers = true → ok w)

include wide

theorem addDispatchJob_emits {inTx : Bool} (data : DispatchJobData) : Call.Emits ok (fun _ => True) inTx (addDispatchJob data) := by
  refine .bind .choose fun reachable => ?_
  split
  · exact .send trivial fun d => by simpa using wide _ rfl rfl
  · exact .throw _

theorem addTimeoutJob_emits {inTx : Bool} (data : TimeoutJobData) : Call.Emits ok (fun _ => True) inTx (addTimeoutJob data) := by
  refine .bind .choose fun reachable => ?_
  split
  · exact .send trivial fun d => by simpa using wide _ rfl rfl
  · exact .throw _

theorem createJob_emits (jobId customerId : Id) (payload : CreateJobReq) :
    Call.Emits ok (fun _ => True) false (createJob jobId customerId payload) := by
  have routine : ∀ w : Write, w.routine = true → w.sparesOffers = true → ok w :=
    fun w both => wide w (Bool.and_eq_true_iff.mp both).1
  rw [createJob]
  split
  · exact .throw _
  · refine .bind (.transaction (fun _ => trivial) (insertJob_plain routine _ _).emits) fun _ => ?_
    refine .bind (.read _ _) fun created => ?_
    refine .bind (unlessInvalidFrom_emits _ (.transaction (fun _ => trivial)
      (startDispatch_plain routine _).emits)) fun _ => ?_
    exact .each fun r => .bind (addDispatchJob_emits wide _).attempt fun _ => .pure _

theorem noWorkers_emits {inTx : Bool} (ℓ : Label) (requirementId : Id) :
    Call.Emits ok (fun _ => True) inTx (Call.stmt ℓ (noWorkers requirementId) : Service Unit) := by
  refine .stmt (.inr trivial) fun d ws a set => ?_
  simp only [noWorkers] at set
  split at set <;> cases set
  simpa using wide _ rfl rfl

theorem exhaustWave_emits (requirementId : Id) (waveNumber : Nat) :
    Call.Emits ok (fun _ => True) false (exhaustWave requirementId waveNumber) := by
  refine .stmt (.inr trivial) ?_
  rintro d ws a ⟨⟩
  simpa using wide _ rfl rfl

theorem executeWrites_emits (requirementId : Id) (waveNumber waveSize : Nat) (workers : List Id)
    (expiresAt : Nat) :
    Call.Emits ok (fun _ => True) true (executeWrites requirementId waveNumber waveSize workers expiresAt) := by
  refine .bind (.read _ _) fun now => .bind (.stmt (.inr trivial) fun d ws a inserted => ?_) fun _ =>
    .bind (.stmt (.inr trivial) ?_) fun _ => .stmt (.inr trivial) ?_
  · simp only [insertWave] at inserted
    split at inserted
    · cases inserted
    · split at inserted <;> cases inserted
      simpa using wide _ rfl rfl
  · rintro d ws a ⟨⟩ w member
    obtain ⟨pair, -, rfl⟩ := List.mem_map.mp member
    exact wide _ rfl rfl
  · rintro d ws a ⟨⟩ w member
    obtain ⟨worker, -, rfl⟩ := List.mem_map.mp member
    exact wide _ rfl rfl

theorem processDispatchJob_emits (cfg : Config) (data : DispatchJobData) (matching : List Id) :
    Call.Emits ok (fun _ => True) false (processDispatchJob cfg data matching) := by
  have again : ∀ existing, Call.Emits ok (fun _ => True) false
      (alreadyProcessed data.requirementId data.waveNumber existing) :=
    fun _ => .bind (.read _ _) fun _ => .pure _
  have gives : Call.Emits ok (fun _ => True) false (giveUp data.requirementId data.waveNumber) :=
    .bind (noWorkers_emits wide _ _) fun _ => .pure _
  refine .bind (.read _ _) fun found => ?_
  cases found with
  | none => exact .pure _
  | some pair =>
    simp only
    split
    · exact .pure _
    · refine .bind (.read _ _) fun existing => ?_
      cases existing with
      | some wave => exact again _
      | none =>
        simp only
        split
        · exact gives
        · split
          · exact .throw _
          · split
            · exact .pure _
            · refine .bind (.read _ _) fun workers => ?_
              split
              · exact gives
              · refine .bind (.read _ _) fun now => ?_
                refine .bind (.attempt (.transaction (fun _ => trivial) (executeWrites_emits wide _ _ _ _ _))) fun persisted => ?_
                split
                · exact .bind (.read _ _) fun existing => again existing
                · exact .throw _
                · exact .bind (addTimeoutJob_emits wide _) fun _ => .pure _

/-- A decline is its transaction, and then statements that touch no offer. -/
theorem declineDispatch_split (cfg : Config) (requirementId workerId : Id) :
    ∃ rest : Unit → Service Unit,
      declineDispatch cfg requirementId workerId =
        Call.transaction (fun _ => .offerDeclined requirementId workerId) (do
          let _ ← setOffers (fun x => x.requirementId = requirementId ∧ x.workerId = workerId ∧
            x.status = .pending) .declined
          step fun _ => .ok ([.declineCount workerId], ())) >>= rest ∧
      ∀ u, Call.Emits ok (fun _ => True) false (rest u) := by
  refine ⟨_, rfl, fun _ => .bind (.read _ _) fun offer => ?_⟩
  cases offer with
  | none => exact .pure _
  | some x =>
    refine .bind (.read _ _) fun pending => ?_
    split
    · refine .bind (.read _ _) fun found => ?_
      cases found with
      | none => exact .pure _
      | some req =>
        refine .bind (exhaustWave_emits wide _ _) fun _ => ?_
        dsimp only
        split
        · exact .bind (addDispatchJob_emits wide _).attempt fun _ => .pure _
        · exact noWorkers_emits wide _ _
    · exact .pure _

end Dispatch

section DispatchOffers

variable {inv : Db → Prop} {ok : Db → Write → Prop} {kind : Write → Prop}
  (wide : ∀ w, w.sparesOtp = true → w.sparesOffers = true → kind w)
  (permitted : ∀ d w, kind w → ok d w)
  (offers : ∀ d keys status, inv d → d.ClosesOpen keys status → ok d (.dispatchStatus keys status))

include wide permitted

include offers

theorem processTimeoutJob_guards (cfg : Config) (data : TimeoutJobData) :
    Call.Guards inv ok (fun _ => True) false (processTimeoutJob cfg data) := by
  refine .bind (.read _ _) fun found => ?_
  cases found with
  | none => exact .pure _
  | some req =>
    simp only
    split
    · exact .pure _
    · refine .bind (.stmt (.inr trivial) ?_) fun _ =>
        .bind ((exhaustWave_emits wide _ _).guards permitted) fun _ => ?_
      · rintro d ws a holds ⟨⟩
        simp only [List.mem_singleton, forall_eq]
        refine offers d _ .timeout holds ⟨by simp, by simp, fun o member => ?_⟩
        obtain ⟨x, selected, rfl⟩ := List.mem_map.mp member
        obtain ⟨stored, chosen⟩ := List.mem_filter.mp selected
        exact ⟨x, stored, rfl, Or.inl (of_decide_eq_true chosen).2.2⟩
      · split
        · exact (noWorkers_emits wide _ _).guards permitted
        · exact (addDispatchJob_emits wide _).guards permitted

theorem repairTx_guards (cfg : Config) (now : Nat) (req : Requirement) (scanned : Option Wave) :
    Call.Guards inv ok (fun _ => True) true (repairTx cfg now req scanned) := by
  have schedules : ∀ latest closed,
      Call.Guards inv ok (fun _ => True) true (scheduleNext cfg req latest closed) := by
    intro latest closed
    rw [scheduleNext]
    split
    · exact .bind ((addDispatchJob_emits wide _).guards permitted) fun _ => .pure _
    · exact .bind ((noWorkers_emits wide _ _).guards permitted) fun _ => .pure _
  refine .bind (.skipLocked _ _) fun canProcess => ?_
  split
  · exact .pure _
  · refine .bind (.read _ _) fun current => ?_
    split
    · refine .bind ?_ fun _ => .bind ((addDispatchJob_emits wide _).guards permitted) fun _ => .pure _
      refine (onlyIf_plain _ (.stmt fun d ws a set => ?_)).guards permitted
      split at set <;> cases set
      simpa using wide _ rfl rfl
    next latest _ =>
      split
      · split
        · refine .bind (setOffers_guards offers _ (by simp) (by simp) fun x chosen => ?_) fun _ =>
            .bind (.stmt (.inl rfl) ?_) fun _ => schedules _ _
          · exact Or.inl (of_decide_eq_true chosen).2.2
          · rintro d ws a _ ⟨⟩
            simpa using permitted d _ (wide _ rfl rfl)
        · exact .bind ((addTimeoutJob_emits wide _).guards permitted) fun _ => .pure _
      · exact schedules _ _

theorem reconcileDispatchState_guards (cfg : Config) :
    Call.Guards inv ok (fun _ => True) false (reconcileDispatchState cfg) := by
  refine .bind (.read _ _) fun candidates => .bind (.read _ _) fun now => ?_
  generalize ({ scannedRequirements := candidates.length } : ReconciliationReport) = report
  induction candidates generalizing report with
  | nil => exact .pure _
  | cons pair rest ih =>
    rw [repairAll]
    split
    · exact ih report
    · refine .bind (.bind (.attempt (.transaction (fun _ => trivial)
        (repairTx_guards wide permitted offers _ _ _ _))) fun result => ?_) fun repaired => ih _
      cases result with
      | ok r => exact .pure _
      | error e => exact .pure _

end DispatchOffers

section DispatchFootprints

variable {ok : Write → Prop} (wide : ∀ w, w.sparesOtp = true → w.sparesOffers = true → ok w)
  (offers : ∀ keys status, status ≠ .pending → ok (.dispatchStatus keys status))

include wide offers

theorem declineDispatch_emits (counts : ∀ worker, ok (.declineCount worker)) (cfg : Config)
    (requirementId workerId : Id) :
    Call.Emits ok (fun _ => True) false (declineDispatch cfg requirementId workerId) := by
  obtain ⟨rest, split, after⟩ := declineDispatch_split wide cfg requirementId workerId
  rw [split]
  refine .bind (.transaction (fun _ => trivial) (.bind (setOffers_plain offers _ (by simp)).emits
    fun _ => .stmt (.inr trivial) ?_)) after
  rintro d ws a ⟨⟩
  simpa using counts workerId

theorem processTimeoutJob_emits (cfg : Config) (data : TimeoutJobData) :
    Call.Emits ok (fun _ => True) false (processTimeoutJob cfg data) :=
  (processTimeoutJob_guards wide (fun _ _ kind => kind)
    (fun _ keys status _ closed => offers keys status closed.closes) cfg data).emits

theorem reconcileDispatchState_emits (cfg : Config) :
    Call.Emits ok (fun _ => True) false (reconcileDispatchState cfg) :=
  (reconcileDispatchState_guards wide (fun _ _ kind => kind)
    (fun _ keys status _ closed => offers keys status closed.closes) cfg).emits

end DispatchFootprints

end LabourBaba.Market
