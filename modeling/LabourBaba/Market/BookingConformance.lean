import LabourBaba.Market.JobConformance

/-!
# Booking services keep to the protocol

A booking is locked before its status is read for a transition, and its requirement
before the slots are recounted: these are the facts that hold when the transaction
commits.
-/
namespace LabourBaba.Market

open Store

/-! ### The booking state machine -/

def BookingAction.sources : BookingAction → List BookingStatus
  | .CREATE => []
  | .START_WORK => [.CONFIRMED]
  | .REQUEST_COMPLETION => [.IN_PROGRESS]
  | .CONFIRM_COMPLETION => [.AWAITING_CONFIRMATION]
  | .CANCEL => [.CONFIRMED, .IN_PROGRESS, .AWAITING_CONFIRMATION]

def BookingAction.target : BookingAction → BookingStatus
  | .CREATE => .CONFIRMED
  | .START_WORK => .IN_PROGRESS
  | .REQUEST_COMPLETION => .AWAITING_CONFIRMATION
  | .CONFIRM_COMPLETION => .COMPLETED
  | .CANCEL => .CANCELLED

theorem bookingCanTransition_ok {status target : BookingStatus} {action : BookingAction}
    {actor : TransitionActor} {customerId workerId : Id}
    (allowed : bookingCanTransition status action actor customerId workerId = .ok target) :
    status ∈ action.sources ∧ target = action.target ∧
      (bookingTransitionTable status action).map (·.targetStatus) = some target := by
  simp only [bookingCanTransition] at allowed
  split at allowed
  · cases allowed
  next rule found =>
    have known : status ∈ action.sources ∧ rule.targetStatus = action.target := by
      cases status <;> cases action <;>
        simp only [bookingTransitionTable, reduceCtorEq, Option.some.injEq] at found <;>
        subst found <;> exact ⟨by decide, rfl⟩
    split at allowed
    · cases allowed
    · split at allowed
      · cases allowed
      · split at allowed
        · cases allowed
        · obtain rfl := Except.ok.inj allowed
          exact ⟨known.1, known.2, by rw [found, Option.map_some]⟩

/-- The writes of a booking transition before its audit record. -/
def bookingMove (id : Id) (target : BookingStatus) (now : Nat) : List Write :=
  if target = .IN_PROGRESS then [.bookingStatus id target, .bookingOtpConsumed id now]
  else [.bookingStatus id target]

theorem setBookingStatus_ok {id : Id} {target : BookingStatus} {now : Nat} {d : Db}
    {ws : List Write} (set : setBookingStatus id target now d = .ok (ws, ())) :
    ws = bookingMove id target now := by
  simp only [setBookingStatus] at set
  split at set
  · cases set
  · simp only [bookingMove]
    split at set
    next working => simpa [working] using set.symm
    next other => simpa [other] using set.symm

section BookingTransitions

variable {P : Protocol Label Db} [Ages P] {me : Nat} {t : MarketTx} {d : Db} {id : Id}
  (untouched : ∀ w ∈ t.writes, .booking id ∉ w.keys)

include untouched

theorem wp_lockOrReadBooking {inScope : Booking → Bool}
    {Q : Except Failure (Option Booking) → Option MarketTx → Db → Prop}
    (inCore : ∀ b c : Booking, b.core = c.core → inScope b = inScope c)
    (done : ∀ d' t', P.Rely me t.locks d d' → Tx.Grows t t' [] →
      ((d'.booking id).all inScope = true → .booking id ∈ t'.locks) →
      Q (.ok ((d'.booking id).filter inScope)) (some t') d') :
    Call.wp P me Q (lockOrReadBooking id inScope) (some t) d := by
  rw [lockOrReadBooking, lockBooking, Call.wp_bind]
  refine Call.lock_inTx fun d₁ t₁ rely₁ _ grows₁ locks₁ => ?_
  rw [booking_applyAll untouched] at locks₁ ⊢
  rw [Call.andThen_ok]
  cases found : (d₁.booking id).filter inScope with
  | some b =>
    rw [Call.wp_pure, ← found]
    exact done d₁ t₁ rely₁ grows₁ fun inside => locks₁ _ (by simp [inside])
  | none =>
    simp only [query, Call.wp_read, Tx.view_some, Tx.held_some]
    intro d₂ rely₂ _
    rw [grows₁.same, booking_applyAll untouched]
    refine done d₂ t₁ (grows₁.rely rely₁ rely₂) grows₁ fun inside => ?_
    cases stored : d₁.booking id with
    | none => exact locks₁ _ (by simp [stored])
    | some b₁ =>
      -- a row out of scope stays so: its scope is decided by columns that never change
      obtain ⟨b, now, core⟩ := (later_of_rely rely₂).booking stored
      rw [now, Option.all_some, inCore b b₁ core] at inside
      simp [stored, Option.filter_some, inside] at found

theorem wp_bookingTransition {action : BookingAction} {actor : TransitionActor} {reason : Text}
    {Q : Except Failure BookingTransitionResult → Option MarketTx → Db → Prop}
    (drops : Call.Drops Q)
    (repeats : ∀ d' t' row result, P.Rely me t.locks d d' → Tx.Grows t t' [] →
      .booking id ∈ t'.locks → d'.booking id = some row → result.isIdempotent = true →
      (action = .CONFIRM_COMPLETION ∧ row.status = .COMPLETED ∨
        action = .REQUEST_COMPLETION ∧ row.status = .AWAITING_CONFIRMATION) →
      Q (.ok result) (some t') d')
    (moves : ∀ d' t' row record now result, P.Rely me t.locks d d' →
      Tx.Grows t t' (bookingMove id action.target now ++ [.bookingTransition record]) →
      .booking id ∈ t'.locks → d'.booking id = some row → result.isIdempotent = false →
      row.status ∈ action.sources → record.Follows id row.status action.target →
      Q (.ok result) (some t') d') :
    Call.wp P me Q (bookingTransition id action actor reason) (some t) d := by
  rw [bookingTransition, Call.wp_bind]
  refine wp_lockOrReadBooking untouched (fun _ _ _ => rfl) fun d₁ t₁ rely₁ grows₁ locked => ?_
  rw [Call.andThen_ok]
  cases found : d₁.booking id with
  | none => exact drops _ _ _
  | some row =>
    have held : .booking id ∈ t₁.locks := locked (by simp [found])
    simp only [Option.filter_some, if_true]
    split
    next again =>
      split
      · exact drops _ _ _
      · exact repeats d₁ t₁ row _ rely₁ grows₁ held found rfl (Or.inl again)
    · split
      next again =>
        split
        · exact drops _ _ _
        · exact repeats d₁ t₁ row _ rely₁ grows₁ held found rfl (Or.inr again)
      · cases allowed : bookingCanTransition row.status action actor row.customerId row.workerId with
        | error e => exact drops _ _ _
        | ok target =>
          obtain ⟨source, rfl, listed⟩ := bookingCanTransition_ok allowed
          simp only
          split
          · exact drops _ _ _
          · simp only [query, step, Call.wp_bind, Call.wp_read, Tx.held_some]
            intro d₂ rely₂ _
            rw [Call.andThen_ok, Call.wp_bind]
            refine Call.stmt_inTx (fun d₃ t₃ ws _ rely₃ _ result grows₃ _ => ?_)
              fun _ _ _ _ _ => drops _ _ _
            obtain rfl := setBookingStatus_ok result
            rw [Call.andThen_ok, Call.wp_bind]
            refine Call.stmt_inTx (fun d₄ t₄ ws _ rely₄ _ result grows₄ _ => ?_)
              fun _ _ _ _ _ => drops _ _ _
            cases result
            have rely := grows₃.rely (rely₂.trans rely₃) rely₄
            refine moves d₄ t₄ row _ _ _ (grows₁.rely rely₁ rely)
              (grows₁.trans (grows₃.trans grows₄)) (grows₄.kept _ (grows₃.kept _ held)) ?_ rfl source
              ⟨rfl, rfl, rfl, listed⟩
            exact (booking_of_rely rely held).trans found

end BookingTransitions

/-- The job-level step of a booking transaction: attempted under a condition on what the
transaction reads. -/
theorem wp_jobStep {me : Nat} {t : MarketTx} {d : Db} {jobId : Id} {ignored : List JobStatus}
    {action : JobAction} {actor : TransitionActor} {count : Db → Nat}
    {Q : Except Failure Bool → Option MarketTx → Db → Prop} (drops : Call.Drops Q)
    (untouched : ∀ w ∈ t.writes, .job jobId ∉ w.keys)
    (done : ∀ d' t' moved ws, protocol.Rely me t.locks d d' → Tx.Grows t t' ws →
      (∀ d'', protocol.Rely me t'.locks d' d'' →
        JobStep d'' jobId action.sources action.target moved ws) → Q (.ok moved) (some t') d') :
    Call.wp protocol me Q (do
      let n ← query count
      if n = 0 then unlessInvalidFrom ignored (jobTransition jobId action actor)
      else pure false) (some t) d := by
  simp only [query, Call.wp_bind, Call.wp_read, Tx.view_some, Tx.held_some]
  intro d₁ rely₁ _
  rw [Call.andThen_ok]
  split
  · refine wp_unlessInvalidFrom untouched drops (fun d₂ t₂ rely₂ grows₂ _ => ?_)
      fun d₂ t₂ record rely₂ grows₂ held jobIn follows => ?_
    · exact done d₂ t₂ false [] (rely₁.trans rely₂) grows₂ fun _ _ => .kept
    · exact done d₂ t₂ true _ (rely₁.trans rely₂) grows₂ fun d₃ rely₃ =>
        .moved record (jobIn_of_rely rely₃ held jobIn) (follows_of_rely rely₃ held follows)
  · exact done d₁ t false [] rely₁ (.refl t) fun _ _ => .kept

theorem wp_onlyIf {P : Protocol Label Db} {me : Nat} {condition : Bool} {body : Service Unit}
    {tx : Option MarketTx} {d : Db} {Q : Except Failure Unit → Option MarketTx → Db → Prop}
    (run : condition = true → Call.wp P me Q body tx d)
    (skip : condition = false → Q (.ok ()) tx d) :
    Call.wp P me Q (onlyIf condition body) tx d := by
  cases condition with
  | true => exact run rfl
  | false => exact skip rfl

/-! ### Starting work -/

section Services

variable {me : Nat} {t : MarketTx} {d : Db}

/-- Who is not in the scope of the locking query is refused by the policy. -/
theorem otpPolicy_outside {actor : Option AuthenticatedUser} {workerId : Id} {b : Booking}
    (outside : (isRole actor .ADMIN || decide (b.workerId = effectiveId actor .WORKER workerId)) =
      false) : ∃ e, otpPolicy actor (effectiveId actor .WORKER workerId) b = .error e := by
  simp only [Bool.or_eq_false_iff, decide_eq_false_iff_not] at outside
  cases actor with
  | none => exact ⟨_, if_pos outside.2⟩
  | some actor =>
    have notAdmin : actor.role ≠ .ADMIN := by simpa [isRole] using outside.1
    simp only [otpPolicy, canVerifyOtp, notAdmin, if_false]
    split
    · exact ⟨_, rfl⟩
    next worker =>
      have other : b.workerId ≠ actor.id := by simpa [effectiveId, not_not.mp worker] using outside.2
      exact ⟨_, if_pos other⟩

/-- The booking that `verifyOtp` checks is locked. -/
theorem wp_bookingForOtp {P : Protocol Label Db} [Ages P] {id workerId : Id}
    {actor : Option AuthenticatedUser}
    {Q : Except Failure (Option Booking) → Option MarketTx → Db → Prop} (fresh : t.writes = [])
    (fails : ∀ e d' t', Tx.Grows t t' [] → Q (.error e) (some t') d')
    (done : ∀ d' t' found, P.Rely me t.locks d d' → Tx.Grows t t' [] →
      (∀ b, found = some b → d'.booking id = some b ∧ .booking id ∈ t'.locks) →
      Q (.ok found) (some t') d') :
    Call.wp P me Q (bookingForOtp id workerId actor) (some t) d := by
  simp only [bookingForOtp, Call.wp_bind]
  refine wp_lockOrReadBooking (by simp [fresh]) (fun b c same => ?_) fun d₁ t₁ rely₁ grows₁ locked => ?_
  · rw [Booking.workerId_of_core same]
  rw [Call.andThen_ok]
  cases selected : (d₁.booking id).filter fun b =>
      isRole actor .ADMIN || decide (b.workerId = effectiveId actor .WORKER workerId) with
  | some b =>
    obtain ⟨stored, inside⟩ := Option.filter_eq_some_iff.mp selected
    refine done d₁ t₁ _ rely₁ grows₁ ?_
    rintro _ ⟨⟩
    exact ⟨stored, locked (by rw [stored]; exact inside)⟩
  | none =>
    simp only [query, Call.wp_bind, Call.wp_read, Tx.view_some, Tx.held_some, grows₁.same, fresh,
      applyAll_nil]
    intro d₂ rely₂ _
    rw [Call.andThen_ok]
    cases found : d₂.booking id with
    | none => exact done d₂ t₁ none (grows₁.rely rely₁ rely₂) grows₁ (by simp)
    | some b =>
      simp only [Call.wp_bind]
      -- the candidate was there before, out of scope, or else its identifier is locked
      have outside : (isRole actor .ADMIN ||
          decide (b.workerId = effectiveId actor .WORKER workerId)) = false := by
        cases stored : d₁.booking id with
        | none =>
          have same := booking_of_rely rely₂ (locked (by simp [stored]))
          rw [found, stored] at same
          cases same
        | some b₁ =>
          obtain ⟨b', now, core⟩ := (later_of_rely rely₂).booking stored
          obtain rfl := Option.some.inj (now.symm.trans found)
          rw [Booking.workerId_of_core core]
          simpa [stored, Option.filter_some] using selected
      obtain ⟨e, refused⟩ := otpPolicy_outside outside
      rw [refused]
      exact fails e d₂ t₁ grows₁

theorem countOtpAttempt_ok {id : Id} {attempts now : Nat} {isNowLocked : Bool} {d : Db}
    {ws : List Write} (counted : countOtpAttempt id attempts isNowLocked now d = .ok (ws, ())) :
    ∀ w ∈ ws, w.quiet = true := by
  simp only [countOtpAttempt] at counted
  split at counted
  · cases counted
  · simp only [Except.ok.injEq, Prod.mk.injEq, and_true] at counted
    simp [← counted, Write.quiet]

/-- The transitions of a verified OTP, on a booking the transaction has read. -/
theorem startWork_commits {id : Id} {b : Booking} {guess : OtpGuess} {worker actor : TransitionActor}
    (compared : t.writes = [.guessed guess]) (stored : d.booking id = some b) :
    Call.wp protocol me (Call.inTx (Ends me (OtpResult.label id))) (do
      let _ ← bookingTransition id .START_WORK worker []
      let jobStarted ← unlessInvalidFrom [.IN_PROGRESS] (jobTransition b.jobId .START_WORK actor)
      pure (.verified b.jobId jobStarted)) (some t) d := by
  simp only [Call.wp_bind]
  refine wp_bookingTransition (by simp [compared, Write.keys]) (by simp)
    (fun _ _ _ _ _ _ _ _ _ again => by simp at again)
    fun d₁ t₁ row record now _ rely₁ grows₁ held₁ found₁ _ source recorded => ?_
  obtain ⟨row', found', core⟩ := (later_of_rely rely₁).booking stored
  obtain rfl := Option.some.inj (found'.symm.trans found₁)
  have confirmed : row'.status = .CONFIRMED := List.mem_singleton.mp source
  have writes₁ : t₁.writes = [.guessed guess, .bookingStatus id .IN_PROGRESS,
      .bookingOtpConsumed id now, .bookingTransition record] := by
    rw [grows₁.writes, compared]
    rfl
  rw [Call.andThen_ok]
  have commit : ∀ d₂ t₂ started ws, protocol.Rely me t₁.locks d₁ d₂ → Tx.Grows t₁ t₂ ws →
      (∀ d₃, protocol.Rely me t₂.locks d₂ d₃ →
        JobStep d₃ b.jobId [.DISPATCHING, .BOOKED] .IN_PROGRESS started ws) →
      ∀ d₃, protocol.Rely me t₂.locks d₂ d₃ →
        protocol.Does me (.workStarted id b.jobId started) d₃ (applyAll t₂.writes d₃) := by
    intro d₂ t₂ started ws rely₂ grows₂ job d₃ rely₃
    have found₃ := (booking_of_rely (grows₂.rely rely₂ rely₃) held₁).trans found₁
    rw [grows₂.writes, writes₁]
    exact does_of_commit (.workStarted found₃ confirmed (Booking.jobId_of_core core) recorded
      (job d₃ rely₃))
  simp only [Call.wp_bind]
  refine wp_unlessInvalidFrom (by simp [writes₁, Write.keys]) (by simp)
    (fun d₂ t₂ rely₂ grows₂ _ => ?_) fun d₂ t₂ record' rely₂ grows₂ held₂ jobIn follows => ?_
  · exact commit d₂ t₂ false [] rely₂ grows₂ fun _ _ => .kept
  · exact commit d₂ t₂ true _ rely₂ grows₂ fun d₃ rely₃ =>
      .moved record' (jobIn_of_rely rely₃ held₂ jobIn) (follows_of_rely rely₃ held₂ follows)

theorem verifyOtp_conforms (cfg : Config) (id workerId : Id) (otp : Nat)
    (actor : Option AuthenticatedUser) : Conforms me (verifyOtp cfg id workerId otp actor) := by
  refine Call.Safe.bind (Conforms.transaction fun d => ?_) fun result => ?_
  · rw [verifyOtpTx, Call.wp_bind]
    refine wp_bookingForOtp rfl (fun _ _ _ _ => trivial) fun d₁ t₁ found rely₁ grows₁ read => ?_
    rw [Call.andThen_ok]
    cases found with
    | none => trivial
    | some b =>
      simp only [Call.wp_bind]
      refine wp_assertPolicy (by simp) fun _ => ?_
      simp only [query, Call.andThen_ok, Call.wp_bind, Call.wp_read, Tx.held_some]
      intro d₂ rely₂ _
      -- a booking in another status, and a used, locked or expired OTP
      iterate 4 (split; · trivial)
      rw [Call.wp_bind, compareOtp, step]
      refine Call.stmt_inTx (fun d₃ t₃ ws isValid rely₃ _ result grows₃ _ => ?_)
        fun _ _ _ _ _ => trivial
      cases result
      have compared := grows₃.writes
      rw [grows₁.same, List.nil_append] at compared
      rw [Call.andThen_ok]
      split
      · obtain ⟨b₃, stored₃, core⟩ :=
          (later_of_rely (rely₂.trans rely₃)).booking (read b rfl).1
        have sameJob : b₃.jobId = b.jobId := Booking.jobId_of_core core
        rw [← sameJob]
        exact startWork_commits compared stored₃
      · simp only [Call.wp_bind]
        refine Call.stmt_inTx (fun d₄ t₄ ws _ rely₄ _ result grows₄ _ => ?_) fun _ _ _ _ _ => trivial
        intro d₅ _
        refine does_of_commit (.quiet ?_)
        rw [grows₄.writes, compared]
        exact List.forall_mem_cons.mpr ⟨rfl, countOtpAttempt_ok result⟩
  · cases result with
    | verified _ _ => exact .pure _
    | rejected locked => cases locked <;> exact .throw _

/-! ### Completion -/

theorem completeBooking_conforms (id workerId : Id) (actor : Option AuthenticatedUser) :
    Conforms me (completeBooking id workerId actor) := by
  refine Conforms.transaction fun d => ?_
  simp only [query, Call.wp_bind, Call.wp_read, Tx.view_some, Tx.held_some, applyAll_nil]
  intro d₁ rely₁ _
  rw [Call.andThen_ok]
  split
  · trivial
  next b found =>
    have stored := (Option.filter_eq_some_iff.mp found).1
    simp only [Call.wp_bind]
    refine wp_assertPolicy (by simp) fun _ => ?_
    rw [Call.andThen_ok, Call.wp_bind]
    refine wp_bookingTransition (by simp) (by simp)
      (fun d₂ t₂ row _ rely₂ grows₂ _ _ _ _ => ?_)
      fun d₂ t₂ row record now _ rely₂ grows₂ held₂ found₂ _ source recorded => ?_
    · intro d₃ _
      rw [grows₂.same]
      exact Or.inl rfl
    · intro d₃ rely₃
      rw [grows₂.writes]
      exact does_of_commit (.completionRequested ((booking_of_rely rely₃ held₂).trans found₂)
        (List.mem_singleton.mp source) recorded)

theorem wp_createReview {review : Review} {Q : Except Failure Unit → Option MarketTx → Db → Prop}
    (drops : Call.Drops Q)
    (done : ∀ d' t', protocol.Rely me t.locks d d' → Tx.Grows t t' [.review review] →
      Q (.ok ()) (some t') d') :
    Call.wp protocol me Q (createReview review) (some t) d := by
  rw [createReview, step]
  refine Call.stmt_inTx (fun d' t' ws _ rely _ result grows _ => ?_) fun _ _ _ _ _ => drops _ _ _
  split at result <;> cases result
  exact done d' t' rely grows

theorem wp_createOutbox {key : OutboxKey} {Q : Except Failure Unit → Option MarketTx → Db → Prop}
    (drops : Call.Drops Q)
    (done : ∀ d' t', protocol.Rely me t.locks d d' → Tx.Grows t t' [.outbox key] →
      Q (.ok ()) (some t') d') :
    Call.wp protocol me Q (createOutbox key) (some t) d := by
  rw [createOutbox, step]
  refine Call.stmt_inTx (fun d' t' ws _ rely _ result grows _ => ?_) fun _ _ _ _ _ => drops _ _ _
  split at result <;> cases result
  exact done d' t' rely grows

/-- The statements of a confirmation after the booking's own transition. -/
theorem confirmed_commits {id jobId : Id} {row : Booking} {own : List Write} {rated repeated : Bool}
    {review : Review} {workerId : Id} {actor : TransitionActor} (consistent : Consistent d)
    (held : .booking id ∈ t.locks) (found : d.booking id = some row) (owned : row.jobId = jobId)
    (writes : t.writes = own) (confirming : Confirming id row.status own) :
    Call.wp protocol me (Call.inTx
        (Ends me fun r : Id × Bool => .completionConfirmed id r.1 r.2)) (do
      onlyIf rated (createReview review)
      let jobCompleted ← completeJobIfDone jobId actor
      onlyIf (!repeated) (createOutbox (.bookingCompleted id workerId))
      pure (jobId, jobCompleted)) (some t) d := by
  have quiet : ∀ w ∈ own, .job jobId ∉ w.keys := by
    generalize row.status = status at confirming
    cases confirming <;> simp [Write.keys]
  -- the transaction after the review, then after the job's step, then after the notice
  have noticed : ∀ d₂ t₂ reviews job completed notices, protocol.Rely me t.locks d d₂ →
      Tx.Grows t t₂ (reviews ++ job ++ notices) → (∀ w ∈ reviews, w.quiet = true) →
      (∀ d₃, protocol.Rely me t₂.locks d₂ d₃ →
        JobStep d₃ jobId [.BOOKED, .IN_PROGRESS] .COMPLETED completed job) →
      (∀ w ∈ notices, ∃ worker, w = .outbox (.bookingCompleted id worker)) →
      Ends me (fun r : Id × Bool => .completionConfirmed id r.1 r.2) (jobId, completed) t₂ d₂ := by
    intro d₂ t₂ reviews job completed notices rely₂ grows₂ still step notice d₃ rely₃
    have found₃ := (booking_of_rely (grows₂.rely rely₂ rely₃) held).trans found
    rw [grows₂.writes, writes, ← List.append_assoc, ← List.append_assoc]
    exact does_of_commit (.completionConfirmed found₃ owned confirming still (step d₃ rely₃) notice)
  have moved : ∀ d₁ t₁ reviews, protocol.Rely me t.locks d d₁ → Tx.Grows t t₁ reviews →
      (∀ w ∈ reviews, ∃ r, w = .review r) →
      Call.wp protocol me (Call.inTx
          (Ends me fun r : Id × Bool => .completionConfirmed id r.1 r.2)) (do
        let jobCompleted ← completeJobIfDone jobId actor
        onlyIf (!repeated) (createOutbox (.bookingCompleted id workerId))
        pure (jobId, jobCompleted)) (some t₁) d₁ := by
    intro d₁ t₁ reviews rely₁ grows₁ still
    have untouched : ∀ w ∈ t₁.writes, .job jobId ∉ w.keys := by
      rw [grows₁.writes, writes]
      intro w member
      rcases List.mem_append.mp member with member | member
      · exact quiet w member
      · obtain ⟨r, rfl⟩ := still w member
        simp [Write.keys]
    have reviewed : ∀ w ∈ reviews, w.quiet = true := by
      intro w member
      obtain ⟨r, rfl⟩ := still w member
      rfl
    rw [Call.wp_bind, completeJobIfDone]
    refine wp_jobStep (by simp) untouched fun d₂ t₂ completed job rely₂ grows₂ step => ?_
    simp only [Call.andThen_ok, Call.wp_bind]
    have rely := grows₁.rely rely₁ rely₂
    refine wp_onlyIf (fun _ => ?_) fun _ => ?_
    · refine wp_createOutbox (by simp) fun d₃ t₃ rely₃ grows₃ => ?_
      refine noticed d₃ t₃ reviews job completed _ ((grows₁.trans grows₂).rely rely rely₃)
        ((grows₁.trans grows₂).trans grows₃) reviewed
        (fun d₄ rely₄ => step d₄ (grows₃.rely rely₃ rely₄)) (by simp)
    · refine noticed d₂ t₂ reviews job completed [] rely ?_ reviewed step (by simp)
      simpa using grows₁.trans grows₂
  rw [Call.wp_bind]
  refine wp_onlyIf (fun _ => ?_) fun _ => ?_
  · exact wp_createReview (by simp) fun d₁ t₁ rely₁ grows₁ => moved d₁ t₁ _ rely₁ grows₁ (by simp)
  · exact moved d t [] (.refl consistent) (.refl t) (by simp)

theorem confirmComplete_conforms (id customerId : Id) (rating : Option Nat)
    (actor : Option AuthenticatedUser) : Conforms me (confirmComplete id customerId rating actor) := by
  refine Call.Safe.bind (Conforms.transaction fun d => ?_) fun _ => .pure _
  simp only [confirmCompleteTx, query, Call.wp_bind, Call.wp_read, Tx.view_some, Tx.held_some,
    applyAll_nil]
  intro d₁ rely₁ _
  rw [Call.andThen_ok]
  split
  · trivial
  next b found =>
    have stored := (Option.filter_eq_some_iff.mp found).1
    rw [Call.wp_bind]
    refine wp_assertPolicy (by simp) fun _ => ?_
    rw [Call.andThen_ok]
    split
    · trivial
    · rw [Call.wp_bind]
      refine wp_bookingTransition (by simp) (by simp)
        (fun d₂ t₂ row _ rely₂ grows₂ held₂ found₂ again finished => ?_)
        fun d₂ t₂ row record now _ rely₂ grows₂ held₂ found₂ once source recorded => ?_ <;>
        obtain ⟨row', found', core⟩ := (later_of_rely rely₂).booking stored <;>
        obtain rfl := Option.some.inj (found'.symm.trans found₂) <;>
        have owned : row'.jobId = b.jobId := Booking.jobId_of_core core
      · have confirmed : row'.status = .COMPLETED := by simpa using finished
        refine confirmed_commits (consistent_of_rely rely₂) held₂ found₂ owned grows₂.same ?_
        rw [confirmed]
        exact .repeated
      · have awaiting : row'.status = .AWAITING_CONFIRMATION := List.mem_singleton.mp source
        refine confirmed_commits (consistent_of_rely rely₂) held₂ found₂ owned grows₂.writes ?_
        rw [awaiting] at recorded ⊢
        exact .confirmed record recorded

/-! ### Cancellation -/

theorem setCapacity_ok {id : Id} {filled : Nat} {status : RequirementStatus} {d : Db}
    {ws : List Write} (set : setCapacity id filled status d = .ok (ws, ())) :
    ws = [.requirementFilled id filled, .requirementStatus [id] status] := by
  simp only [setCapacity] at set
  split at set
  · cases set
  · split at set
    · cases set
    · simpa using set.symm

/-- The recount under the requirement's lock: what the transaction sees of the requirement's
bookings is one less than the counter, while the lock is held. -/
theorem wp_reconcileCapacity {id : Id}
    {Q : Except Failure RequirementCapacity → Option MarketTx → Db → Prop} (drops : Call.Drops Q)
    (untouched : ∀ w ∈ t.writes, .requirement id ∉ w.keys) (stored : (d.requirement id).isSome)
    (recounts : ∀ d' row, protocol.Rely me t.locks d d' → d'.requirement id = some row →
      row.workerCountFilled = (applyAll t.writes d').activeBookings id + 1)
    (done : ∀ d' t' row filled capacity, protocol.Rely me t.locks d d' →
      Tx.Grows t t' [.requirementFilled id filled,
        .requirementStatus [id] (reconciledStatus row.status ⟨row.workerCountNeeded, filled⟩)] →
      .requirement id ∈ t'.locks → d'.requirement id = some row →
      row.workerCountFilled = filled + 1 → Q (.ok capacity) (some t') d') :
    Call.wp protocol me Q (reconcileCapacity id) (some t) d := by
  rw [reconcileCapacity, lockRequirement, Call.wp_bind]
  refine Call.lock_inTx fun d₁ t₁ rely₁ _ grows₁ locks₁ => ?_
  obtain ⟨old, was⟩ := Option.isSome_iff_exists.mp stored
  obtain ⟨row, found₁, -⟩ := (later_of_rely rely₁).requirement was
  have held : .requirement id ∈ t₁.locks := locks₁ _ List.mem_cons_self
  simp only [query, Call.andThen_ok, Call.wp_bind, Call.wp_read, Tx.view_some, Tx.held_some,
    grows₁.same]
  intro d₂ rely₂ _
  have found₂ := (requirement_of_rely rely₂ held).trans found₁
  rw [requirement_applyAll untouched, found₂]
  simp only [Call.wp_bind, Call.wp_read, Tx.view_some, Tx.held_some, grows₁.same]
  intro d₃ rely₃ _
  have found₃ := (requirement_of_rely rely₃ held).trans found₂
  have left := recounts d₃ row (grows₁.rely (grows₁.rely rely₁ rely₂) rely₃) found₃
  rw [Call.andThen_ok]
  split
  · exact drops _ _ _
  · rw [Call.wp_bind, step]
    refine Call.stmt_inTx (fun d₄ t₄ ws _ rely₄ _ result grows₄ _ => ?_)
      fun _ _ _ _ _ => drops _ _ _
    obtain rfl := setCapacity_ok result
    refine done d₄ t₄ row _ _ (grows₁.rely rely₁ (rely₂.trans (rely₃.trans rely₄)))
      (grows₁.trans grows₄) (grows₄.kept _ held) ((requirement_of_rely rely₄ held).trans found₃) left

theorem isTerminal_of_source {status : BookingStatus} (source : status ∈ BookingAction.CANCEL.sources) :
    status.isTerminal = false := by
  cases status <;> first | rfl | simp [BookingAction.sources] at source

/-- The number of slots a transaction sees after it has cancelled a booking it has locked. -/
theorem activeBookings_cancelled {id : Id} {b row : Booking} {req : Requirement}
    {record : BookingTransition} (consistent : Consistent d) (found : d.booking id = some row)
    (core : row.core = b.core) (source : row.status ∈ BookingAction.CANCEL.sources)
    (requirement : d.requirement b.requirementId = some req) :
    req.workerCountFilled = (applyAll [.bookingStatus id .CANCELLED, .bookingTransition record]
      d).activeBookings b.requirementId + 1 := by
  have named : row.id = id := Table.find_key found
  have mine : row.requirementId = b.requirementId := Booking.requirementId_of_core core
  have active := BookingStatus.isActive_of_running (isTerminal_of_source source)
  have moved := activeBookings_status consistent.wf .CANCELLED b.requirementId (named.symm ▸ found)
  have released : BookingStatus.CANCELLED.isActive = false := rfl
  simp only [active, mine, named, released, and_true, Bool.false_eq_true, and_false, if_false,
    if_true, Nat.add_zero] at moved
  rw [(consistent.ledger.filled requirement).1, ← moved]
  rfl

/-- The statements of a cancellation after the booking's own transition. -/
theorem released_commits {b row : Booking} {record : BookingTransition} {key : OutboxKey}
    {select : Dispatch → Bool} {type : Role} {recipient : Id} (consistent : Consistent d)
    (held : .booking b.id ∈ t.locks) (found : d.booking b.id = some row) (core : row.core = b.core)
    (source : row.status ∈ BookingAction.CANCEL.sources)
    (recorded : record.Follows b.id row.status .CANCELLED)
    (writes : t.writes = [.bookingStatus b.id .CANCELLED, .bookingTransition record])
    (notice : key = .bookingCancelled b.id type recipient) :
    Call.wp protocol me (Call.inTx
        (Ends me fun r : Booking × Bool => .bookingCancelled r.1 r.2)) (do
      let _ ← reconcileCapacity b.requirementId
      let _ ← setOffers select .cancelled
      let jobReopened ← reopenJobIfEmpty b.jobId
      createOutbox key
      pure (b, jobReopened)) (some t) d := by
  have sameRequirement : row.requirementId = b.requirementId := Booking.requirementId_of_core core
  obtain ⟨old, present, named, -⟩ := consistent.wf.bookingRequirement row (Table.mem_of_find found)
  have stored : (d.requirement b.requirementId).isSome := by
    have lookup := Table.find_of_mem consistent.wf.requirementIds present
    rw [named, sameRequirement] at lookup
    exact Option.isSome_iff_exists.mpr ⟨old, lookup⟩
  simp only [Call.wp_bind]
  refine wp_reconcileCapacity (by simp) (by simp [writes, Write.keys]) stored
    (fun d₁ req rely₁ requirement => ?_)
    fun d₁ t₁ req filled _ rely₁ grows₁ held₁ requirement left => ?_
  · rw [writes]
    exact activeBookings_cancelled (consistent_of_rely rely₁)
      ((booking_of_rely rely₁ held).trans found) core source requirement
  · simp only [Call.andThen_ok, Call.wp_bind]
    refine wp_setOffers fun d₂ t₂ offers _ rely₂ grows₂ => ?_
    rw [Call.andThen_ok, Call.wp_bind, reopenJobIfEmpty]
    have untouched : ∀ w ∈ t₂.writes, .job b.jobId ∉ w.keys := by
      simp [grows₂.writes, grows₁.writes, writes, Write.keys]
    refine wp_jobStep (by simp) untouched fun d₃ t₃ reopened job rely₃ grows₃ step => ?_
    rw [Call.andThen_ok, Call.wp_bind]
    refine wp_createOutbox (by simp) fun d₄ t₄ rely₄ grows₄ => ?_
    intro d₅ rely₅
    have rely := grows₂.rely rely₂ (grows₃.rely rely₃ (grows₄.rely rely₄ rely₅))
    have found₅ := (booking_of_rely (grows₁.rely rely₁ rely) held).trans found
    have requirement₅ := (requirement_of_rely rely held₁).trans requirement
    rw [grows₄.writes, grows₃.writes, grows₂.writes, grows₁.writes, writes, notice]
    simp only [List.cons_append, List.nil_append]
    exact does_of_commit (.bookingCancelled found₅ core (isTerminal_of_source source) requirement₅ left
      (step d₅ (grows₄.rely rely₄ rely₅)) recorded)

theorem cancelScope_of_core {role : Role} {actorId : Id} (b c : Booking) (same : b.core = c.core) :
    cancelScope role actorId b = cancelScope role actorId c := by
  have worker := Booking.workerId_of_core same
  have customer : b.customerId = c.customerId := congrArg (·.2.2.2.2.1) same
  cases role <;> simp only [cancelScope, worker, customer]

theorem cancelBooking_conforms (id userId : Id) (reason : Text) (actor : Option AuthenticatedUser) :
    Conforms me (cancelBooking id userId reason actor) := by
  refine Call.Safe.bind (Conforms.transaction fun d => ?_) fun _ => .pure _
  simp only [cancelBookingTx, Call.wp_bind]
  refine wp_lockOrReadBooking (by simp) cancelScope_of_core fun d₁ t₁ rely₁ grows₁ _ => ?_
  rw [Call.andThen_ok]
  split
  · trivial
  next b found =>
    have stored := (Option.filter_eq_some_iff.mp found).1
    have named : b.id = id := Table.find_key stored
    rw [Call.wp_bind]
    refine wp_assertPolicy (by simp) fun _ => ?_
    rw [Call.andThen_ok]
    split
    · trivial
    · rw [Call.wp_bind]
      refine wp_bookingTransition (by simp [grows₁.same]) (by simp)
        (fun _ _ _ _ _ _ _ _ _ again => by simp at again)
        fun d₂ t₂ row record now _ rely₂ grows₂ held₂ found₂ once source recorded => ?_
      obtain ⟨row', found', core⟩ := (later_of_rely rely₂).booking stored
      obtain rfl := Option.some.inj (found'.symm.trans found₂)
      have writes₂ : t₂.writes = [.bookingStatus id .CANCELLED, .bookingTransition record] := by
        rw [grows₂.writes, grows₁.same]
        rfl
      subst named
      rw [Call.andThen_ok, once]
      simp only [Bool.false_eq_true, if_false]
      split
      · exact released_commits (consistent_of_rely rely₂) held₂ found₂ core source recorded writes₂ rfl
      · exact released_commits (consistent_of_rely rely₂) held₂ found₂ core source recorded writes₂ rfl

end Services

end LabourBaba.Market
