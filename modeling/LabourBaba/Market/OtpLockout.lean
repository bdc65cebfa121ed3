import LabourBaba.Market.Footprints
import LabourBaba.Market.Capacity

/-!
# The lockout of booking OTPs

A call of `verifyOtp` holds the lock on its booking from the first read to its commit, so
the counter it increments is the one it compared with the limit, and no other call can
compare a guess in between. A wrong guess commits the counter; a right guess commits the
start of work. Every other rejection rolls the transaction back.

`OtpCommit` says what a commit may do to the OTP state: nothing, or one of these two. From
it follows the ledger: the counter of a booking is the number of wrong guesses that were
compared, it stays within the limit, and at most one right guess is ever compared.
-/
namespace LabourBaba.Market

open Store

def Db.wrongGuesses (d : Db) (bookingId : Id) : Nat :=
  d.guesses.countP fun g => decide (g.bookingId = bookingId) && !g.matched

def Db.rightGuesses (d : Db) (bookingId : Id) : Nat :=
  d.guesses.countP fun g => decide (g.bookingId = bookingId) && g.matched

/-- The guess was compared with the hash of a booking that was open to it. -/
structure Compared (cfg : Config) (row : Booking) (guess : OtpGuess) : Prop where
  about : guess.bookingId = row.id
  confirmed : row.status = .CONFIRMED
  unused : row.otpConsumedAt = none ∧ row.otpVerified = false
  unlocked : row.otpLockedAt = none ∧ row.otpAttempts < cfg.bookingOtpMaxAttempts
  unexpired : guess.at_ ≤ row.otpExpiresAt
  outcome : guess.matched = cfg.comparePassword guess.otp row.otpHash

inductive OtpCommit (cfg : Config) : Label → Db → List Write → Prop
  | spared {ℓ : Label} {d : Db} {ws : List Write} (others : ∀ w ∈ ws, w.sparesOtp = true) :
    OtpCommit cfg ℓ d ws
  | started {d : Db} {jobId : Id} {jobStarted : Bool} {row : Booking} {guess : OtpGuess} {now : Nat}
      {record : BookingTransition} {ws : List Write} (booking : d.booking row.id = some row)
      (compared : Compared cfg row guess) (right : guess.matched = true)
      (others : ∀ w ∈ ws, w.sparesOtp = true) :
    OtpCommit cfg (.workStarted row.id jobId jobStarted) d
      (.guessed guess :: .bookingStatus row.id .IN_PROGRESS :: .bookingOtpConsumed row.id now ::
        .bookingTransition record :: ws)
  | rejected {d : Db} {row : Booking} {guess : OtpGuess} {lockedAt : Option Nat}
      (booking : d.booking row.id = some row) (compared : Compared cfg row guess)
      (wrong : guess.matched = false) :
    OtpCommit cfg (.otpRejected row.id) d
      [.guessed guess, .bookingOtpAttempts row.id (row.otpAttempts + 1) lockedAt]

/-! ### The ledger of guesses -/

structure OtpLedger (cfg : Config) (d : Db) : Prop where
  ids : Table.Unique Booking.id d.bookings
  counted : ∀ b ∈ d.bookings, b.otpAttempts = d.wrongGuesses b.id
  bounded : ∀ b ∈ d.bookings, b.otpAttempts ≤ cfg.bookingOtpMaxAttempts
  once : ∀ b ∈ d.bookings, d.rightGuesses b.id ≤ 1 ∧ (b.status = .CONFIRMED → d.rightGuesses b.id = 0)
  stored : ∀ g ∈ d.guesses, ∃ b ∈ d.bookings, b.id = g.bookingId

theorem OtpLedger.empty (cfg : Config) : OtpLedger cfg {} := by
  constructor <;> simp [Table.Unique]

section Ledger

variable {cfg : Config} {d : Db}

/-- The columns of a row that a sparing write leaves. -/
theorem onBooking_spared {w : Write} (spares : w.sparesOtp = true) (b : Booking) :
    (w.onBooking b).otpAttempts = b.otpAttempts ∧
      ((w.onBooking b).status = .CONFIRMED → b.status = .CONFIRMED) := by
  cases w with
  | bookingStatus id s =>
    simp only [Write.sparesOtp, decide_eq_true_eq] at spares
    simp only [Write.onBooking]
    split
    · exact ⟨rfl, fun confirmed => absurd confirmed spares.1⟩
    · exact ⟨rfl, fun same => same⟩
  | bookingOtpAttempts _ _ _ | bookingOtpConsumed _ _ => cases spares
  | _ => exact ⟨rfl, fun same => same⟩

theorem guesses_spared {w : Write} (spares : w.sparesOtp = true) (d : Db) :
    (w.apply d).guesses = d.guesses := by
  cases w <;> first | rfl | cases spares

theorem guesses_sparedAll {ws : List Write} (others : ∀ w ∈ ws, w.sparesOtp = true) (d : Db) :
    (applyAll ws d).guesses = d.guesses := by
  induction ws generalizing d with
  | nil => rfl
  | cons w ws ih =>
    rw [applyAll_cons, ih fun v member => others v (List.mem_cons_of_mem _ member)]
    exact guesses_spared (others w List.mem_cons_self) d

/-- Sparing writes start no work and move no OTP column. -/
theorem onAll_spared {ws : List Write} (others : ∀ w ∈ ws, w.sparesOtp = true) (b : Booking) :
    ((onAll Write.onBooking ws b).status = .IN_PROGRESS → b.status = .IN_PROGRESS) ∧
      (onAll Write.onBooking ws b).otpAttempts = b.otpAttempts ∧
      (onAll Write.onBooking ws b).otpLockedAt = b.otpLockedAt := by
  induction ws generalizing b with
  | nil => exact ⟨fun running => running, rfl, rfl⟩
  | cons w ws ih =>
    have rest := ih (fun v member => others v (List.mem_cons_of_mem _ member)) (w.onBooking b)
    have spares := others w List.mem_cons_self
    rw [onAll_cons]
    cases w with
    | bookingStatus id s =>
      simp only [Write.sparesOtp, decide_eq_true_eq] at spares
      refine ⟨fun running => ?_, rest.2.1.trans ?_, rest.2.2.trans ?_⟩
      · have before := rest.1 running
        simp only [Write.onBooking] at before
        split at before
        · exact absurd before spares.2
        · exact before
      · simp only [Write.onBooking]
        split <;> rfl
      · simp only [Write.onBooking]
        split <;> rfl
    | bookingOtpAttempts _ _ _ | bookingOtpConsumed _ _ => cases spares
    | _ => exact rest

theorem OtpLedger.write (ledger : OtpLedger cfg d) {w : Write} (spares : w.sparesOtp = true) :
    OtpLedger cfg (w.apply d) := by
  have guesses := guesses_spared spares d
  have wrong : ∀ id, (w.apply d).wrongGuesses id = d.wrongGuesses id := fun id => by
    rw [Db.wrongGuesses, guesses, Db.wrongGuesses]
  have right : ∀ id, (w.apply d).rightGuesses id = d.rightGuesses id := fun id => by
    rw [Db.rightGuesses, guesses, Db.rightGuesses]
  -- a booking after the write is an old one, or new and never guessed at
  have cases_of : ∀ b' ∈ (w.apply d).bookings, (∃ b ∈ d.bookings, b' = w.onBooking b) ∨
      b'.otpAttempts = 0 ∧ d.wrongGuesses b'.id = 0 ∧ d.rightGuesses b'.id = 0 := by
    intro b' member
    rcases bookingEffects.source w d b' member with old | rfl
    · exact Or.inl old
    · rcases Table.mem_insert_free member with old | ⟨-, free⟩
      · exact Or.inl ⟨b', old, rfl⟩
      · have unguessed : ∀ g ∈ d.guesses, g.bookingId ≠ b'.id := by
          intro g guessed same
          obtain ⟨b, present, about⟩ := ledger.stored g guessed
          have clash := free b present
          simp [Booking.clash, about, same] at clash
        simp only [Write.sparesOtp, decide_eq_true_eq] at spares
        refine Or.inr ⟨spares.2.1, ?_, ?_⟩
        · exact List.countP_eq_zero.mpr fun g guessed => by simp [unguessed g guessed]
        · exact List.countP_eq_zero.mpr fun g guessed => by simp [unguessed g guessed]
  have sameId : ∀ b, (w.onBooking b).id = b.id := fun b => congrArg Prod.fst (onBooking_core w b)
  constructor
  · exact bookingIds_unique_write w ledger.ids
  · intro b' member
    rw [wrong]
    rcases cases_of b' member with ⟨b, old, rfl⟩ | ⟨zero, none, -⟩
    · rw [(onBooking_spared spares b).1, sameId]
      exact ledger.counted b old
    · rw [zero, none]
  · intro b' member
    rcases cases_of b' member with ⟨b, old, rfl⟩ | ⟨zero, -, -⟩
    · rw [(onBooking_spared spares b).1]
      exact ledger.bounded b old
    · omega
  · intro b' member
    rw [right]
    rcases cases_of b' member with ⟨b, old, rfl⟩ | ⟨-, -, none⟩
    · rw [sameId]
      refine ⟨(ledger.once b old).1, fun confirmed => (ledger.once b old).2 ?_⟩
      exact (onBooking_spared spares b).2 confirmed
    · rw [none]
      exact ⟨Nat.zero_le 1, fun _ => rfl⟩
  · intro g guessed
    rw [guesses] at guessed
    obtain ⟨b, present, about⟩ := ledger.stored g guessed
    exact ⟨_, bookingEffects.keeps w d b present, (sameId b).trans about⟩

theorem OtpLedger.spared (ledger : OtpLedger cfg d) {ws : List Write}
    (others : ∀ w ∈ ws, w.sparesOtp = true) : OtpLedger cfg (applyAll ws d) := by
  induction ws generalizing d with
  | nil => exact ledger
  | cons w ws ih =>
    rw [applyAll_cons]
    exact ih (ledger.write (others w List.mem_cons_self)) fun v member =>
      others v (List.mem_cons_of_mem _ member)

/-- One more guess is recorded. -/
theorem wrongGuesses_recorded {d d' : Db} {guess : OtpGuess}
    (recorded : d'.guesses = d.guesses ++ [guess]) (id : Id) :
    d'.wrongGuesses id =
      d.wrongGuesses id + if guess.bookingId = id ∧ guess.matched = false then 1 else 0 := by
  rw [Db.wrongGuesses, recorded, List.countP_append, List.countP_singleton, Db.wrongGuesses]
  simp

theorem rightGuesses_recorded {d d' : Db} {guess : OtpGuess}
    (recorded : d'.guesses = d.guesses ++ [guess]) (id : Id) :
    d'.rightGuesses id =
      d.rightGuesses id + if guess.bookingId = id ∧ guess.matched = true then 1 else 0 := by
  rw [Db.rightGuesses, recorded, List.countP_append, List.countP_singleton, Db.rightGuesses]
  simp

/-- A commit that records one guess at a booking open to it: a wrong one is counted, and after
a right one the booking is not CONFIRMED any more. -/
theorem OtpLedger.compare (ledger : OtpLedger cfg d) {ws : List Write} {row : Booking}
    {guess : OtpGuess} (booking : d.booking row.id = some row) (compared : Compared cfg row guess)
    (recorded : (applyAll ws d).guesses = d.guesses ++ [guess])
    (updates : ∀ b, .insertBooking b ∉ ws)
    (attempts : ∀ b, (onAll Write.onBooking ws b).otpAttempts =
      if b.id = row.id ∧ guess.matched = false then row.otpAttempts + 1 else b.otpAttempts)
    (status : ∀ b, (onAll Write.onBooking ws b).status = .CONFIRMED →
      b.status = .CONFIRMED ∧ ¬ (b.id = row.id ∧ guess.matched = true)) :
    OtpLedger cfg (applyAll ws d) := by
  -- the commit inserts no booking, so every booking afterwards was there before
  have rows : ∀ b' ∈ (applyAll ws d).bookings, ∃ b ∈ d.bookings, b' = onAll Write.onBooking ws b := by
    intro b' member
    rcases bookingEffects.of_mem_applyAll member with old | ⟨before, w, rest, b, split, rfl, rfl⟩
    · exact old
    · exact absurd (by simp [split]) (updates b)
  have sameId : ∀ b, (onAll Write.onBooking ws b).id = b.id :=
    fun b => congrArg Prod.fst (onAll_booking_core ws b)
  have mine : ∀ b ∈ d.bookings, b.id = row.id → b = row :=
    fun b member same => Table.eq_of_find ledger.ids booking member same
  constructor
  · exact bookingIds_unique_applyAll ws ledger.ids
  · intro b' member
    obtain ⟨b, old, rfl⟩ := rows b' member
    rw [sameId, attempts, wrongGuesses_recorded recorded, compared.about, ← ledger.counted b old]
    by_cases hit : b.id = row.id
    · obtain rfl := mine b old hit
      split <;> simp_all
    · simp [hit, Ne.symm hit]
  · intro b' member
    obtain ⟨b, old, rfl⟩ := rows b' member
    rw [attempts]
    split
    · exact compared.unlocked.2
    · exact ledger.bounded b old
  · intro b' member
    obtain ⟨b, old, rfl⟩ := rows b' member
    rw [sameId, rightGuesses_recorded recorded, compared.about]
    by_cases hit : b.id = row.id
    · obtain rfl := mine b old hit
      -- a booking that is still CONFIRMED has had no right guess before this one
      have none := (ledger.once b old).2 compared.confirmed
      rw [none]
      constructor
      · split <;> simp
      · intro confirmed
        have wrong := (status b confirmed).2
        simp_all
    · simp only [Ne.symm hit, false_and, if_false, Nat.add_zero]
      exact ⟨(ledger.once b old).1, fun confirmed => (ledger.once b old).2 (status b confirmed).1⟩
  · intro g guessed
    rw [recorded] at guessed
    have before : ∃ b ∈ d.bookings, b.id = g.bookingId := by
      rcases List.mem_append.mp guessed with old | new
      · exact ledger.stored g old
      · obtain rfl := List.mem_singleton.mp new
        exact ⟨row, Table.mem_of_find booking, compared.about.symm⟩
    obtain ⟨b, old, about⟩ := before
    exact ⟨_, bookingEffects.mem_applyAll old ws, (sameId b).trans about⟩

theorem OtpCommit.keepsLedger {ℓ : Label} {ws : List Write} (ledger : OtpLedger cfg d)
    (commit : OtpCommit cfg ℓ d ws) : OtpLedger cfg (applyAll ws d) := by
  cases commit with
  | spared others => exact ledger.spared others
  | @started _ jobId jobStarted row guess now record ws booking compared right others =>
    have first : OtpLedger cfg (applyAll [.guessed guess, .bookingStatus row.id .IN_PROGRESS,
        .bookingOtpConsumed row.id now, .bookingTransition record] d) := by
      refine ledger.compare booking compared rfl (by simp) (fun b => ?_) fun b confirmed => ?_
      · simp only [onAll_cons, onAll_nil, Write.onBooking, right, List.mem_singleton]
        split <;> simp
      · simp only [onAll_cons, onAll_nil, Write.onBooking, List.mem_singleton] at confirmed
        split at confirmed
        · simp at confirmed
        next other => exact ⟨by simpa [other] using confirmed, fun hit => other hit.1⟩
    exact first.spared others
  | rejected booking compared wrong =>
    refine ledger.compare booking compared rfl (by simp) (fun b => ?_) fun b confirmed => ?_
    · simp only [onAll_cons, onAll_nil, Write.onBooking, wrong, List.mem_singleton, and_true]
      split <;> rfl
    · simp only [onAll_cons, onAll_nil, Write.onBooking, wrong, List.mem_singleton] at confirmed ⊢
      split at confirmed <;> exact ⟨confirmed, by simp⟩

end Ledger

/-! ### Verification -/

def otpProtocol (cfg : Config) : Protocol Label Db where
  inv := OtpLedger cfg
  pre _ _ := True
  guar _ ℓ d d' := ∃ ws, d' = applyAll ws d ∧ OtpCommit cfg ℓ d ws
  evo _ := Later
  evo_refl _ := Later.refl
  evo_trans _ _ _ _ := Later.trans
  guar_inv := by
    rintro _ ℓ d _ ledger ⟨ws, rfl, commit⟩
    exact commit.keepsLedger ledger
  guar_evo := by
    rintro _ _ ℓ d _ _ _ ⟨ws, rfl, _⟩
    exact Later.applyAll ws d

instance (cfg : Config) : Ages (otpProtocol cfg) := ⟨fun _ _ _ later => later⟩

instance (cfg : Config) : (otpProtocol cfg).Lax := ⟨fun _ _ _ => trivial⟩

section Verification

variable {cfg : Config} {me : Nat}

theorem does_of_otpCommit {ℓ : Label} {d : Db} {ws : List Write} (commit : OtpCommit cfg ℓ d ws) :
    (otpProtocol cfg).Does me ℓ d (applyAll ws d) :=
  Or.inr ⟨ws, rfl, commit⟩

/-- Calls that leave the OTP columns alone. -/
theorem verified_of_spares {α : Type} {c : Service α}
    (emits : Call.Emits (fun w => w.sparesOtp = true) (fun _ => True) false c) (d : Db) :
    wp (otpProtocol cfg) me (fun _ _ _ => True) c.run none d :=
  wp_mono (fun _ _ _ _ => trivial) _ _ _
    (emits.safe (fun _ _ _ _ _ _ others => does_of_otpCommit (.spared others)) d)

theorem countOtpAttempt_counts {id : Id} {attempts now : Nat} {isNowLocked : Bool} {d : Db}
    {ws : List Write} (counted : countOtpAttempt id attempts isNowLocked now d = .ok (ws, ())) :
    ∃ lockedAt, ws = [.bookingOtpAttempts id attempts lockedAt] := by
  simp only [countOtpAttempt] at counted
  split at counted <;> cases counted
  exact ⟨_, rfl⟩

/-- After a right guess: the booking's transition, then the job's. -/
theorem startWork_otpCommits {t : MarketTx} {d : Db} {row : Booking} {guess : OtpGuess}
    {worker actor : TransitionActor} (wrote : t.writes = [.guessed guess])
    (held : .booking row.id ∈ t.locks) (stored : d.booking row.id = some row)
    (compared : Compared cfg row guess) (right : guess.matched = true) :
    Call.wp (otpProtocol cfg) me (Call.inTx fun r t d => ∀ d', (otpProtocol cfg).Rely me t.locks d d' →
        True → (otpProtocol cfg).Does me (OtpResult.label row.id r) d' (applyAll t.writes d')) (do
      let _ ← bookingTransition row.id .START_WORK worker []
      let jobStarted ← unlessInvalidFrom [.IN_PROGRESS] (jobTransition row.jobId .START_WORK actor)
      pure (.verified row.jobId jobStarted)) (some t) d := by
  simp only [Call.wp_bind]
  refine wp_bookingTransition (by simp [wrote, Write.keys]) (by simp)
    (fun _ _ _ _ _ _ _ _ _ again => by simp at again)
    fun d₁ t₁ row₁ record now _ rely₁ grows₁ held₁ found₁ _ _ _ => ?_
  rw [Call.andThen_ok, Call.wp_bind]
  have plain : Call.Plain (fun w => w.sparesOtp = true)
      (unlessInvalidFrom [.IN_PROGRESS] (jobTransition row.jobId .START_WORK actor)) :=
    unlessInvalidFrom_plain _ (jobTransition_plain
      (fun w both _ => (Bool.and_eq_true_iff.mp both).1) row.jobId .START_WORK actor)
  refine plain.inTx rely₁.inv fun r d₂ t₂ ws rely₂ grows₂ others => ?_
  cases r with
  | error e => trivial
  | ok jobStarted =>
    intro d₃ rely₃ _
    -- the row was locked before the guess was compared
    have stored₃ : d₃.booking row.id = some row :=
      (booking_of_rely (grows₁.rely rely₁ (grows₂.rely rely₂ rely₃)) held).trans stored
    rw [grows₂.writes, grows₁.writes, wrote]
    exact does_of_otpCommit (.started stored₃ compared right others)

theorem verifyOtpTx_otpCommits (id workerId : Id) (otp : Nat) (actor : Option AuthenticatedUser)
    (d : Db) :
    Call.wp (otpProtocol cfg) me (Call.inTx fun r t d => ∀ d', (otpProtocol cfg).Rely me t.locks d d' →
        True → (otpProtocol cfg).Does me (OtpResult.label id r) d' (applyAll t.writes d'))
      (verifyOtpTx cfg id workerId otp actor) (some {}) d := by
  rw [verifyOtpTx, Call.wp_bind]
  refine wp_bookingForOtp rfl (fun _ _ _ _ => trivial) fun d₁ t₁ found rely₁ grows₁ read => ?_
  rw [Call.andThen_ok]
  cases found with
  | none => trivial
  | some b =>
    obtain ⟨stored₁, held⟩ := read b rfl
    obtain rfl : b.id = id := Table.find_key stored₁
    simp only [Call.wp_bind]
    refine wp_assertPolicy (by simp) fun _ => ?_
    simp only [query, Call.andThen_ok, Call.wp_bind, Call.wp_read, Tx.held_some]
    intro d₂ rely₂ _
    split
    · trivial
    next confirmed =>
      split
      · trivial
      next unused =>
        split
        · trivial
        next unlocked =>
          split
          · trivial
          next unexpired =>
            rw [Call.wp_bind, compareOtp, step]
            refine Call.stmt_inTx (fun d₃ t₃ ws isValid rely₃ _ result grows₃ _ => ?_)
              fun _ _ _ _ _ => trivial
            cases result
            have wrote := grows₃.writes
            rw [grows₁.same, List.nil_append] at wrote
            have held₃ := grows₃.kept _ held
            -- the booking is locked since it was read, so the guess is compared with what is stored
            have stored₃ := (booking_of_rely (rely₂.trans rely₃) held).trans stored₁
            simp only [not_or, Bool.not_eq_true, Option.isSome_eq_false_iff, Option.isNone_iff_eq_none]
              at unused unlocked
            have compared : ∀ now, now ≤ b.otpExpiresAt → Compared cfg b
                { bookingId := b.id, otp, at_ := now, matched := cfg.comparePassword otp b.otpHash } :=
              fun now fresh => ⟨rfl, not_not.mp confirmed, unused, ⟨unlocked.1, not_le.mp unlocked.2⟩,
                fresh, rfl⟩
            rw [Call.andThen_ok]
            split
            next right =>
              exact startWork_otpCommits wrote held₃ stored₃ (compared _ (not_lt.mp unexpired)) right
            next wrong =>
              simp only [Call.wp_bind]
              refine Call.stmt_inTx (fun d₄ t₄ ws _ rely₄ _ result grows₄ _ => ?_)
                fun _ _ _ _ _ => trivial
              -- a wrong guess is counted in the transaction that compared it
              obtain ⟨lockedAt, rfl⟩ := countOtpAttempt_counts result
              intro d₅ rely₅ _
              have stored₅ := (booking_of_rely (grows₄.rely rely₄ rely₅) held₃).trans stored₃
              rw [grows₄.writes, wrote]
              exact does_of_otpCommit (.rejected stored₅ (compared _ (not_lt.mp unexpired))
                (by simpa using wrong))

theorem verifyOtp_verified (id workerId : Id) (otp : Nat) (actor : Option AuthenticatedUser) (d : Db) :
    Call.wp (otpProtocol cfg) me (fun _ tx _ => tx = none) (verifyOtp cfg id workerId otp actor) none
      d := by
  refine Call.Safe.bind (Call.Safe.transaction fun d => verifyOtpTx_otpCommits id workerId otp actor d)
    (fun result => ?_) d
  match result with
  | .verified _ _ => exact .pure _
  | .rejected true => exact .throw _
  | .rejected false => exact .throw _

end Verification

theorem otpVerified (cfg : Config) :
    Pool.Verified (otpProtocol cfg) (fun _ _ _ _ => True) (system cfg) := by
  have routine : ∀ w : Write, w.routine = true → w.sparesOffers = true → w.sparesOtp = true :=
    fun w both _ => (Bool.and_eq_true_iff.mp both).1
  have spares : ∀ w : Write, w.sparesOtp = true → w.sparesOffers = true → w.sparesOtp = true :=
    fun _ same _ => same
  have offers : ∀ keys status, status ≠ .pending →
    (Write.dispatchStatus keys status).sparesOtp = true := fun _ _ _ => rfl
  have known : ∀ ℓ : Label, ℓ.ofDispatch = false → True := fun _ _ => trivial
  intro me op d
  cases op with
  | createJob jobId customerId payload =>
    exact verified_of_spares (replying_emits (createJob_emits spares _ _ _)) d
  | createJobReq jobId payload actor =>
    exact verified_of_spares (replying_emits (createJobReq_emits routine known _ _ _)) d
  | updateRequirementDemand jobId requirementId needed actor =>
    exact verified_of_spares (replying_emits (updateRequirementDemand_emits routine known _ _ _ _)) d
  | cancelJob jobId actor =>
    exact verified_of_spares (replying_emits (cancelJob_emits routine offers known _ _)) d
  | acceptDispatch requirementId workerId new =>
    exact verified_of_spares (replying_emits (acceptDispatch_emits routine offers known _ _ _ _)) d
  | declineDispatch requirementId workerId =>
    exact verified_of_spares (replying_emits (declineDispatch_emits spares offers (fun _ => rfl) _ _ _)) d
  | verifyOtp bookingId workerId otp actor =>
    have verified : Call.Safe (otpProtocol cfg) me (replying (fun _ => Reply.done)
        (verifyOtp cfg bookingId workerId otp actor)) :=
      Call.Safe.bind (verifyOtp_verified _ _ _ _) fun _ => .pure _
    exact wp_mono (fun _ _ _ _ => trivial) _ _ _ (verified d)
  | completeBooking bookingId workerId actor =>
    exact verified_of_spares (replying_emits (completeBooking_emits routine known _ _ _)) d
  | confirmComplete bookingId customerId rating actor =>
    exact verified_of_spares (replying_emits (confirmComplete_emits routine known _ _ _ _)) d
  | cancelBooking bookingId userId reason actor =>
    exact verified_of_spares (replying_emits (cancelBooking_emits routine offers known _ _ _ _)) d
  | processDispatchJob data matching =>
    exact verified_of_spares (replying_emits (processDispatchJob_emits spares _ _ _)) d
  | processTimeoutJob data =>
    exact verified_of_spares (replying_emits (processTimeoutJob_emits spares offers _ _)) d
  | reconcileDispatchState =>
    exact verified_of_spares (replying_emits (reconcileDispatchState_emits spares offers _)) d
  | tick => exact verified_of_spares (.send trivial fun _ => by simp [Write.sparesOtp]) d

/-! ### Rollbacks -/

/-- A write that records no wrong guess. -/
def Write.countsNothing : Write → Bool
  | .guessed guess => guess.matched
  | _ => true

/-- A transaction of `verifyOtp` that throws has not compared a wrong guess: after one, only
the counter is left to write, and its row is there. -/
theorem rollback_without_wrong_guess (cfg : Config) (me : Nat) (id workerId : Id) (otp : Nat)
    (actor : Option AuthenticatedUser) (d : Db) :
    Call.wp (otpProtocol cfg) me (fun r tx _ => ∀ e, r = .error e → ∀ t : MarketTx, tx = some t →
        ∀ guess, .guessed guess ∈ t.writes → guess.matched = true)
      (verifyOtpTx cfg id workerId otp actor) (some {}) d := by
  have wide : ∀ w : Write, w.sparesOtp = true → w.countsNothing = true := by
    intro w spares
    cases w <;> first | rfl | cases spares
  have routine : ∀ w : Write, w.routine = true → w.sparesOffers = true → w.countsNothing = true :=
    fun w both _ => wide w (Bool.and_eq_true_iff.mp both).1
  -- what was thrown before the comparison
  have early : ∀ (r : Except Failure OtpResult) {t : MarketTx}, t.writes = [] → ∀ e, r = .error e →
      ∀ t' : MarketTx, some t = some t' → ∀ guess, .guessed guess ∈ t'.writes → guess.matched = true := by
    rintro r t empty e thrown _ ⟨⟩ guess recorded
    rw [empty] at recorded
    cases recorded
  rw [verifyOtpTx, Call.wp_bind]
  refine wp_bookingForOtp rfl (fun e _ t' grows => early (.error e) grows.same)
    fun d₁ t₁ found rely₁ grows₁ read => ?_
  have empty : t₁.writes = [] := grows₁.same
  rw [Call.andThen_ok]
  cases found with
  | none => exact early _ empty
  | some b =>
    obtain ⟨stored₁, held⟩ := read b rfl
    obtain rfl : b.id = id := Table.find_key stored₁
    simp only [Call.wp_bind]
    cases policy : otpPolicy actor workerId b with
    | error e => exact early _ empty
    | ok _ =>
      simp only [assertPolicy, query, Call.wp_pure, Call.andThen_ok, Call.wp_bind, Call.wp_read,
        Tx.held_some]
      intro d₂ rely₂ _
      iterate 4 (split; · exact early _ empty)
      rw [Call.wp_bind, compareOtp, step]
      refine Call.stmt_inTx (fun d₃ t₃ ws isValid rely₃ _ result grows₃ _ => ?_)
        fun d₃ e _ _ refused => by cases refused
      cases result
      have wrote := grows₃.writes
      rw [empty, List.nil_append] at wrote
      rw [Call.andThen_ok]
      split
      next right =>
        have plain : Call.Plain (fun w => w.countsNothing = true) (do
            let _ ← bookingTransition b.id .START_WORK
              { id := some (effectiveId actor .WORKER workerId), role := roleOr actor .WORKER } []
            let jobStarted ← unlessInvalidFrom [.IN_PROGRESS] (jobTransition b.jobId .START_WORK
              { id := some (effectiveId actor .WORKER workerId), role := .WORKER })
            pure (OtpResult.verified b.jobId jobStarted)) := by
          refine .bind (bookingTransition_plain routine _ _ _ _ fun now => ?_) fun _ => ?_
          · simp [bookingMove, BookingAction.target, Write.countsNothing]
          · exact .bind (unlessInvalidFrom_plain _ (jobTransition_plain routine _ _ _)) fun _ => .pure _
        refine plain.inTx rely₃.inv fun r d₄ t₄ ws _ grows₄ others => ?_
        rintro e - _ ⟨⟩ guess recorded
        rw [grows₄.writes, wrote] at recorded
        rcases List.mem_append.mp recorded with own | later
        · simp only [List.mem_singleton, Write.guessed.injEq] at own
          rw [own]
          exact right
        · exact others _ later
      next wrong =>
        simp only [Call.wp_bind]
        refine Call.stmt_inTx (fun d₄ t₄ ws _ _ _ _ _ _ => ?_) fun d₄ e rely₄ _ refused => ?_
        · intro e thrown
          cases thrown
        · -- the row is locked, so the counter's UPDATE finds it
          have stored₄ := (booking_of_rely (rely₂.trans (grows₃.rely rely₃ rely₄)) held).trans stored₁
          have seen : (applyAll t₃.writes d₄).booking b.id = some b := by
            rw [wrote]
            exact stored₄
          simp [countOtpAttempt, seen] at refused

/-! ### Runs -/

section Runs

variable {cfg : Config} {p q : MarketPool}

theorem otpSound_of_reachable (reached : Reachable cfg p) :
    Pool.Sound (otpProtocol cfg) (fun _ _ _ _ => True) p :=
  reached.sound (otpVerified cfg) (fun _ _ _ _ _ _ _ _ => trivial) (.empty (OtpLedger.empty cfg))

theorem otpCommit_of_step {e : Event Op} (reached : Reachable cfg p)
    (stepped : p.step (system cfg) e = some q) :
    q.db = p.db ∨ ∃ i answer ℓ ws, e = .run i answer ∧ p.next i = some ℓ ∧
      q.db = applyAll ws p.db ∧ OtpCommit cfg ℓ p.db ws := by
  have result := (otpSound_of_reachable reached).step (otpVerified cfg) (fun _ _ _ _ _ => trivial) stepped
  rcases result.does with same | ⟨i, answer, ℓ, event, labelled, ws, after, commit⟩
  · exact Or.inl same
  · exact Or.inr ⟨i, answer, ℓ, ws, event, labelled, after, commit⟩

def Db.guessesAbout (d : Db) (bookingId : Id) : List OtpGuess :=
  d.guesses.filter fun g => decide (g.bookingId = bookingId)

/-- A commit compares no guess at a booking whose limit is reached. -/
theorem OtpCommit.refuses {ℓ : Label} {d : Db} {ws : List Write} {id : Id}
    (commit : OtpCommit cfg ℓ d ws) (ledger : OtpLedger cfg d)
    (full : d.wrongGuesses id = cfg.bookingOtpMaxAttempts) :
    (applyAll ws d).guesses.filter (fun g => decide (g.bookingId = id)) = d.guessesAbout id := by
  -- the guess that a commit records is at a booking below the limit
  have other : ∀ {row guess}, d.booking row.id = some row → Compared cfg row guess →
      guess.bookingId ≠ id := by
    rintro row guess booking compared rfl
    have counted := ledger.counted row (Table.mem_of_find booking)
    have below := compared.unlocked.2
    rw [compared.about] at full
    omega
  have unseen : ∀ {guess : OtpGuess}, guess.bookingId ≠ id →
      (d.guesses ++ [guess]).filter (fun g => decide (g.bookingId = id)) = d.guessesAbout id := by
    intro guess differs
    simp [Db.guessesAbout, differs]
  cases commit with
  | spared others =>
    rw [guesses_sparedAll others]
    rfl
  | started booking compared _ others =>
    iterate 4 rw [applyAll_cons]
    rw [guesses_sparedAll others]
    exact unseen (other booking compared)
  | rejected booking compared _ => exact unseen (other booking compared)

theorem locked_for_good (reached : Reachable cfg p) {b : Booking}
    (full : p.db.wrongGuesses b.id = cfg.bookingOtpMaxAttempts)
    (later : Pool.Reaches (system cfg) (Pool.Meets fun _ _ => True) p q) :
    q.db.guessesAbout b.id = p.db.guessesAbout b.id := by
  have wrong : ∀ d : Db, d.wrongGuesses b.id = (d.guessesAbout b.id).countP fun g => !g.matched := by
    intro d
    rw [Db.wrongGuesses, Db.guessesAbout, List.countP_filter]
    simp only [Bool.and_comm]
  refine Pool.Reaches.invariant (otpVerified cfg) (fun _ _ => trivial)
    (fun d => d.guessesAbout b.id = p.db.guessesAbout b.id) (otpSound_of_reachable reached) rfl ?_ later
  rintro _ ℓ d _ ledger same _ ⟨ws, rfl, commit⟩
  have still : d.wrongGuesses b.id = cfg.bookingOtpMaxAttempts := by
    rw [wrong, same, ← wrong, full]
  exact (commit.refuses ledger still).trans same

/-- A booking enters IN_PROGRESS by a right guess that it was open to. -/
theorem OtpCommit.starts {ℓ : Label} {d : Db} {ws : List Write} {b b' : Booking}
    (commit : OtpCommit cfg ℓ d ws) (ledger : OtpLedger cfg d) (member : b ∈ d.bookings)
    (present : b' ∈ (applyAll ws d).bookings) (same : b'.id = b.id) (waits : b.status ≠ .IN_PROGRESS)
    (running : b'.status = .IN_PROGRESS) :
    ∃ guess, Compared cfg b guess ∧ guess.matched = true ∧
      (applyAll ws d).guesses = d.guesses ++ [guess] := by
  have ids := bookingIds_unique_applyAll ws ledger.ids
  have kept : onAll Write.onBooking ws b ∈ (applyAll ws d).bookings :=
    bookingEffects.mem_applyAll member ws
  have sameId : (onAll Write.onBooking ws b).id = b.id := congrArg Prod.fst (onAll_booking_core ws b)
  obtain rfl := Table.eq_of_find ids (Table.find_of_mem ids kept) present (same.trans sameId.symm)
  cases commit with
  | spared others => exact absurd ((onAll_spared others b).1 running) waits
  | @started _ jobId jobStarted row guess now record ws booking compared right others =>
    by_cases hit : b.id = row.id
    · obtain rfl := Table.eq_of_find ledger.ids booking member hit
      refine ⟨guess, compared, right, ?_⟩
      iterate 4 rw [applyAll_cons]
      rw [guesses_sparedAll others]
      rfl
    · -- another booking: its status is moved by none of the writes
      iterate 4 rw [onAll_cons] at running
      have before := (onAll_spared others _).1 running
      simp only [Write.onBooking, List.mem_singleton, hit, if_false] at before
      exact absurd before waits
  | @rejected _ row _ _ booking compared _ =>
    simp only [onAll_cons, onAll_nil, Write.onBooking] at running
    split at running <;> exact absurd running waits

/-! ### Calls -/

/-- A call of `verifyOtp` returns right after its commit: without an error when it has
started the work, and with one when it has counted a wrong guess. -/
def otpReply (bookingId : Id) (ℓ : Label) (r : Outcome) : Prop :=
  (∃ jobId jobStarted, ℓ = .workStarted bookingId jobId jobStarted ∧ r = .ok .done) ∨
    ℓ = .otpRejected bookingId ∧ ∃ e, r = .error e

theorem verifyOtp_ends (bookingId workerId : Id) (otp : Nat) (actor : Option AuthenticatedUser)
    (me : Nat) :
    (system cfg me (.verifyOtp bookingId workerId otp actor)).EndsWith (otpReply bookingId) false := by
  have plain : Call.Plain (fun _ => True) (verifyOtpTx cfg bookingId workerId otp actor) :=
    verifyOtpTx_plain (fun _ _ _ => trivial) cfg bookingId workerId otp actor
  refine (congrArg (Prog.EndsWith _ false) (Prog.bind_assoc _ _ _)).mpr ?_
  refine Call.endsWith_transaction plain (.any _) (fun result _ => ?_) fun e => ⟨_, rfl⟩
  match result with
  | .verified jobId jobStarted => exact ⟨_, rfl, Or.inl ⟨jobId, jobStarted, rfl, rfl⟩⟩
  | .rejected true => exact ⟨_, rfl, Or.inr ⟨rfl, _, rfl⟩⟩
  | .rejected false => exact ⟨_, rfl, Or.inr ⟨rfl, _, rfl⟩⟩

/-- A booking without the columns that a wrong guess sets. -/
def Booking.uncounted (b : Booking) : Booking := { b with otpAttempts := 0, otpLockedAt := none }

theorem eq_of_uncounted {b c : Booking} (same : b.uncounted = c.uncounted)
    (attempts : b.otpAttempts = c.otpAttempts) (locked : b.otpLockedAt = c.otpLockedAt) : b = c := by
  cases b
  cases c
  simp_all [Booking.uncounted]

theorem onAll_quiet_uncounted {ws : List Write} (still : ∀ w ∈ ws, w.quiet = true) (b : Booking) :
    (onAll Write.onBooking ws b).uncounted = b.uncounted := by
  refine onAll_same Booking.uncounted (fun w member b => ?_) b
  have quiet := still w member
  cases w with
  | bookingOtpAttempts id n locked =>
    simp only [Write.onBooking]
    split <;> rfl
  | bookingStatus _ _ | bookingOtpConsumed _ _ => cases quiet
  | _ => rfl

/-- A rejection that counts no guess leaves every booking as it is. -/
theorem unchanged_of_rejection {d : Db} {ws vs : List Write} (ids : Table.Unique Booking.id d.bookings)
    (others : ∀ w ∈ ws, w.sparesOtp = true) (still : ∀ w ∈ vs, w.quiet = true)
    (same : applyAll ws d = applyAll vs d) {b : Booking} (member : b ∈ d.bookings) :
    b ∈ (applyAll ws d).bookings := by
  have unique := bookingIds_unique_applyAll ws ids
  have one := bookingEffects.mem_applyAll member ws
  have two : onAll Write.onBooking vs b ∈ (applyAll ws d).bookings :=
    same ▸ bookingEffects.mem_applyAll member vs
  have sameId : (onAll Write.onBooking vs b).id = (onAll Write.onBooking ws b).id :=
    congrArg Prod.fst ((onAll_booking_core vs b).trans (onAll_booking_core ws b).symm)
  -- the row is both: the one that spares the counter, and the one that spares all the rest
  have both := Table.eq_of_find unique (Table.find_of_mem unique one) two sameId
  have kept : onAll Write.onBooking ws b = b :=
    eq_of_uncounted (both ▸ onAll_quiet_uncounted still b) (onAll_spared others b).2.1
      (onAll_spared others b).2.2
  exact kept ▸ one

theorem verifyOtp_step {i : Nat} {answer : Bool} {th : Thread Label Db Write Key Op Outcome}
    {bookingId workerId : Id} {otp : Nat} {actor : Option AuthenticatedUser}
    (reached : Reachable cfg p) (found : p.threads[i]? = some th)
    (call : th.op = .verifyOtp bookingId workerId otp actor)
    (stepped : p.step (system cfg) (.run i answer) = some q) :
    (∀ b ∈ p.db.bookings, b ∈ q.db.bookings) ∨
    (∃ th', q.threads[i]? = some th' ∧ th'.prog.returned = some (.ok .done)) ∨
    ∃ th' e row guess lockedAt, q.threads[i]? = some th' ∧ th'.prog.returned = some (.error e) ∧
      p.db.booking bookingId = some row ∧ Compared cfg row guess ∧ guess.matched = false ∧
      q.db = applyAll [.guessed guess, .bookingOtpAttempts bookingId (row.otpAttempts + 1) lockedAt]
        p.db := by
  have live : th.live = true := by
    have alive := Pool.alive_of_run stepped
    simpa [Pool.alive, found] using alive
  have ends := reached.endsWith (verifyOtp_ends bookingId workerId otp actor) (by simp [start])
    th (List.mem_of_getElem? found) call live
  rcases Pool.step_endsWith found ends stepped with same | ⟨ℓ, th', r, labelled, found', returned, reply⟩
  · exact Or.inl fun b member => same ▸ member
  · rcases reply with ⟨jobId, jobStarted, rfl, rfl⟩ | ⟨rfl, e, rfl⟩
    · exact Or.inr (Or.inl ⟨th', found', returned⟩)
    · rcases otpCommit_of_step reached stepped with same | ⟨j, answer', ℓ, ws, event, labelled', after, commit⟩
      · exact Or.inl fun b member => same ▸ member
      · cases event
        obtain rfl := Option.some.inj (labelled.symm.trans labelled')
        obtain ⟨vs, after', quiet⟩ := commit_of_step reached labelled stepped
        cases commit with
        | spared others =>
          cases quiet with
          | quiet still =>
            refine Or.inl fun b member => ?_
            rw [after]
            exact unchanged_of_rejection (otpSound_of_reachable reached).inv.ids others still
              (after.symm.trans after') member
        | @rejected _ row guess lockedAt booking compared wrong =>
          exact Or.inr (Or.inr ⟨th', e, row, guess, lockedAt, found', returned, booking, compared, wrong,
            after⟩)

theorem otp_lockout (cfg : Config) {p : MarketPool} (reached : Reachable cfg p) :
    (∀ b ∈ p.db.bookings, b.otpAttempts = p.db.wrongGuesses b.id ∧
      p.db.wrongGuesses b.id ≤ cfg.bookingOtpMaxAttempts ∧ p.db.rightGuesses b.id ≤ 1) ∧
    (∀ b ∈ p.db.bookings, p.db.wrongGuesses b.id = cfg.bookingOtpMaxAttempts →
      ∀ q, Pool.Reaches (system cfg) (Pool.Meets fun _ _ => True) p q →
        q.db.guessesAbout b.id = p.db.guessesAbout b.id) ∧
    (∀ e q, p.step (system cfg) e = some q → ∀ b ∈ p.db.bookings, ∀ b' ∈ q.db.bookings, b'.id = b.id →
      b.status ≠ .IN_PROGRESS → b'.status = .IN_PROGRESS →
      ∃ guess, Compared cfg b guess ∧ guess.matched = true ∧
        q.db.guesses = p.db.guesses ++ [guess]) ∧
    (∀ i answer th bookingId workerId otp actor q, p.threads[i]? = some th →
      th.op = .verifyOtp bookingId workerId otp actor →
      p.step (system cfg) (.run i answer) = some q →
      (∀ b ∈ p.db.bookings, b ∈ q.db.bookings) ∨
      (∃ th', q.threads[i]? = some th' ∧ th'.prog.returned = some (.ok .done)) ∨
      ∃ th' e row guess lockedAt, q.threads[i]? = some th' ∧ th'.prog.returned = some (.error e) ∧
        p.db.booking bookingId = some row ∧ Compared cfg row guess ∧ guess.matched = false ∧
        q.db = applyAll
          [.guessed guess, .bookingOtpAttempts bookingId (row.otpAttempts + 1) lockedAt] p.db) ∧
    ∀ me id workerId otp actor d, Call.wp (otpProtocol cfg) me (fun r tx _ => ∀ e, r = .error e →
        ∀ t : MarketTx, tx = some t → ∀ guess, .guessed guess ∈ t.writes → guess.matched = true)
      (verifyOtpTx cfg id workerId otp actor) (some {}) d := by
  have ledger := (otpSound_of_reachable reached).inv
  refine ⟨fun b member => ?_, fun b _ full q later => locked_for_good reached full later, ?_, ?_,
    rollback_without_wrong_guess cfg⟩
  · have counted := ledger.counted b member
    exact ⟨counted, counted ▸ ledger.bounded b member, (ledger.once b member).1⟩
  · intro e q stepped b member b' present same waits running
    rcases otpCommit_of_step reached stepped with unmoved | ⟨i, answer, ℓ, ws, -, -, after, commit⟩
    · -- nothing was committed, so the row is still the one that was waiting
      rw [unmoved] at present
      obtain rfl := Table.eq_of_find ledger.ids (Table.find_of_mem ledger.ids member) present same
      exact absurd running waits
    · rw [after] at present ⊢
      exact commit.starts ledger member present same waits running
  · intro i answer th bookingId workerId otp actor q found call stepped
    exact verifyOtp_step reached found call stepped

end Runs

/-- Worker 10 mistypes the OTP once, and then starts the work. -/
def secondGuess : List (Pool.Move Op) :=
  firstAccepts ++
  [.event (.spawn (.verifyOtp 1 10 6 (some ⟨10, .WORKER⟩))),
   .drive 3 true,
   .event (.spawn (.verifyOtp 1 10 5 (some ⟨10, .WORKER⟩))),
   .drive 4 true]

theorem otp_lockout_second_guess :
    (∃ b ∈ (played (fun _ _ => True) secondGuess).db.bookings, b.status = .IN_PROGRESS ∧
      b.otpAttempts = 1) ∧
    ∀ b ∈ (played (fun _ _ => True) secondGuess).db.bookings,
      b.otpAttempts = (played (fun _ _ => True) secondGuess).db.wrongGuesses b.id ∧
      (played (fun _ _ => True) secondGuess).db.wrongGuesses b.id ≤ plainConfig.bookingOtpMaxAttempts ∧
      (played (fun _ _ => True) secondGuess).db.rightGuesses b.id ≤ 1 :=
  ⟨by decide +kernel, (otp_lockout plainConfig (runs_played _ secondGuess)).1⟩

end LabourBaba.Market
