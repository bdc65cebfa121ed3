import LabourBaba.Auth.Schema
import LabourBaba.Store.Calls

/-!
# OTP services

`authService.sendOtp` and `authService.verifyOtp`, statement by statement. Generated values
(identifiers, the hash of the OTP, the session secret) are arguments of the calls.

`updateMany` is two statements: PostgreSQL selects the rows from the snapshot of its start,
then locks each of them and updates those that still match. A row that another transaction
inserts in between is not among them, which is what the unique index is for.
-/
namespace LabourBaba.Auth

open Store

/-! ### Errors and configuration -/

inductive Failure where
  /-- An error with a message and a code. -/
  | coded (message code : String)
  | resendCooldown (waitSeconds : Nat)
  | uniqueViolation (constraint : String)
  | recordNotFound
  /-- An error with the status of its response. -/
  | http (status : Nat) (message : String) (code : Option String)
deriving DecidableEq, Repr

/-- `authConfig`, the bcrypt comparisons of a password or OTP and of a session secret,
`parsePhoneNumber` with its E.164 form, and what the legacy refresh token says at an
instant, if it verifies. -/
structure Config where
  otpTtlSeconds : Nat := 300
  otpMaxAttempts : Nat := 5
  otpResendCooldownSeconds : Nat := 60
  refreshSessionTtlDays : Nat := 30
  comparePassword : Nat → Nat → Bool
  compareSecret : Text → Nat → Bool
  parsePhoneNumber : Text → Option Text
  verifyRefreshToken : Nat → Text → Option (Id × UserRole)

def otpInvalid : Failure := .coded "Invalid or expired OTP" "OTP_INVALID"

def otpAlreadyUsed : Failure := .coded "Invalid or expired OTP" "OTP_ALREADY_USED"

def otpMaxAttempts : Failure :=
  .coded "Maximum verification attempts exceeded. Please request a new OTP." "OTP_MAX_ATTEMPTS"

/-- The characters that `String.prototype.trim` strips. -/
def isTrimmed (c : Char) : Bool :=
  c.toNat ∈ [9, 10, 11, 12, 13, 32, 160, 5760, 8192, 8193, 8194, 8195, 8196, 8197, 8198, 8199,
    8200, 8201, 8202, 8232, 8233, 8239, 8287, 12288, 65279]

def Text.trim (text : Text) : Text :=
  ((text.dropWhile isTrimmed).reverse.dropWhile isTrimmed).reverse

def normalizePhoneToE164 (cfg : Config) (phone : Text) : Except Failure Text :=
  if phone = [] then .error (.coded "Phone number is required." "INVALID_PHONE_NUMBER")
  else if Text.trim phone = [] then
    .error (.coded "Phone number cannot be blank." "INVALID_PHONE_NUMBER")
  else match cfg.parsePhoneNumber (Text.trim phone) with
    | some canonical => .ok canonical
    | none => .error (.coded "Invalid phone number format. Please provide a valid number with country code (e.g., +919876543210)." "INVALID_PHONE_NUMBER")

/-! ### Statements -/

/-- The statements that a property has to tell apart, with what their call has read. -/
inductive Label where
  | step
  /-- The commit of a new challenge; `since` is the instant the cooldown was reckoned from. -/
  | issued (challenge : Challenge) (since : Nat)
  | deliveryFailed (id : Id)
  /-- A guess is compared; `seen` is the attempt count its call was admitted with. -/
  | compared (id : Id) (seen : Nat)
  | counted (id : Id)
  | locked (id : Id)
  | claimed (id : Id) (seen : Nat)
  /-- A login opens a session, in a family of its own. -/
  | loggedIn (session : Session)
  /-- The commit of a rotation, with the session that takes over. -/
  | rotated (successor : Session)
  | ticked
deriving DecidableEq, Repr

abbrev Service := Call Label Db Write Key Failure

def query {α : Type} (f : Db → α) : Service α := Call.read .step f

def step {α : Type} (f : Db → Except Failure (List Write × α)) : Service α := Call.stmt .step f

/-- `Date.now()`. -/
def now : Service Nat := query fun d => d.now

def orThrow {α : Type} (result : Except Failure α) : Service α :=
  match result with
  | .ok a => pure a
  | .error e => throw e

/-- `findFirst` ordered by descending creation time. -/
def latest (challenges : List Challenge) : Option Challenge :=
  challenges.foldl (fun best c =>
    match best with
    | none => some c
    | some b => if b.createdAt < c.createdAt then some c else some b) none

/-- `otp_challenge.update` by primary key. -/
def endChallenge (ℓ : Label) (id : Id) (status : OtpStatus) : Service Unit := do
  let consumedAt ← now
  Call.stmt ℓ fun d =>
    if (d.challenge id).isNone then .error .recordNotFound
    else .ok ([.endChallenges [id] status consumedAt], ())

/-! ### Issuing a challenge -/

/-- The values drawn for a new challenge. -/
structure NewChallenge where
  id : Id
  otpHash : Nat
deriving DecidableEq, Repr

/-- The ACTIVE challenges of a phone and purpose among some identifiers. -/
def Db.activeAmong (d : Db) (ids : List Id) (subject : Text × Purpose) : List Id :=
  ids.filter fun id => (d.challenge id).any fun c =>
    decide (c.subject = subject ∧ c.status = .ACTIVE)

/-- The INSERT, under the primary key and the partial unique index. -/
def insertChallenge (c : Challenge) (d : Db) : Except Failure (List Write × Challenge) :=
  if (d.challenge c.id).isSome then .error (.uniqueViolation "otp_challenge_pkey")
  else if d.challenges.any fun old => decide (old.subject = c.subject ∧ old.status = .ACTIVE) then
    .error (.uniqueViolation "uniq_active_otp_phone_purpose")
  else .ok ([.insertChallenge c], c)

/-- The transaction of `sendOtp`. -/
def issueChallenge (cfg : Config) (phone : Text) (purpose : Purpose) (new : NewChallenge)
    (expiresAt since : Nat) : Service Challenge := do
  -- created_at after the threshold, which lies one cooldown before `since`
  let recentChallenge ← query fun d => latest (d.challenges.filter fun c =>
    decide (c.subject = (phone, purpose) ∧
      since < c.createdAt + cfg.otpResendCooldownSeconds * 1000))
  match recentChallenge with
  | some recent => do
    let t ← now
    let elapsedSeconds := (t - recent.createdAt) / 1000
    throw (.resendCooldown (max 1 (cfg.otpResendCooldownSeconds - elapsedSeconds)))
  | none => do
    let consumedAt ← now
    let selected ← query fun d => d.activeAmong (d.entries (phone, purpose)) (phone, purpose)
    step fun d => .ok
      ([.endChallenges (d.activeAmong selected (phone, purpose)) .EXPIRED consumedAt], ())
    -- the client fills in the default of created_at
    let createdAt ← now
    step (insertChallenge { id := new.id, phone, purpose, otpHash := new.otpHash, expiresAt
                            createdAt })

def sendOtp (cfg : Config) (rawPhone : Text) (purpose : Purpose) (new : NewChallenge) :
    Service Unit := do
  let phone ← orThrow (normalizePhoneToE164 cfg rawPhone)
  let issuedAt ← now
  let expiresAt := issuedAt + cfg.otpTtlSeconds * 1000
  let since ← now
  let challenge ← Call.transaction (fun c => .issued c since)
    (issueChallenge cfg phone purpose new expiresAt since)
  let delivered ← Call.choose
  if delivered then pure ()
  else do
    endChallenge (.deliveryFailed challenge.id) challenge.id .EXPIRED
    throw (.coded "Failed to deliver verification code. Please try again later."
      "SMS_DELIVERY_FAILED")

/-! ### Verifying a guess -/

/-- The challenge that `verifyOtp` selects: ACTIVE, not expired and not consumed. -/
def Db.selectChallenge (d : Db) (phone : Text) (purpose : Option Purpose) (at_ : Nat) :
    Option Challenge :=
  latest (d.challenges.filter fun c =>
    decide (c.phone = phone ∧ c.status = .ACTIVE ∧ at_ < c.expiresAt ∧ c.consumedAt = none) &&
      purpose.all fun p => decide (c.purpose = p))

/-- The comparison with the hash, which no statement of the database covers. -/
def compareGuess (cfg : Config) (otp : Nat) (challenge : Challenge) : Service Bool :=
  Call.send (.compared challenge.id challenge.attemptCount) fun _ =>
    ([⟨.guessed challenge.id (cfg.comparePassword otp challenge.otpHash), rfl⟩],
      cfg.comparePassword otp challenge.otpHash)

/-- `attempt_count: { increment: 1 }`, with the count of the updated row. -/
def countAttempt (id : Id) : Service Nat :=
  Call.stmt (.counted id) fun d =>
    match d.challenge id with
    | none => .error .recordNotFound
    | some row => .ok ([.countAttempt id], row.attemptCount + 1)

/-- The conditional UPDATE that claims a challenge, with the number of rows it changed. -/
def claimChallenge (challenge : Challenge) : Service Nat := do
  let consumedAt ← now
  Call.stmt (.claimed challenge.id challenge.attemptCount) fun d =>
    match d.challenge challenge.id with
    | none => .ok ([], 0)
    | some row =>
      if row.status = .ACTIVE ∧ row.consumedAt = none then
        .ok ([.endChallenges [challenge.id] .CONSUMED consumedAt, .claimed challenge.id], 1)
      else .ok ([], 0)

/-- Steps 1 to 4 of `verifyOtp`: the challenge that the guess has claimed. -/
def verifyChallenge (cfg : Config) (phone : Text) (otp : Nat) (purpose : Option Purpose) :
    Service Challenge := do
  let t ← now
  let found ← query fun d => d.selectChallenge phone purpose t
  match found with
  | none => throw otpInvalid
  | some challenge =>
    if cfg.otpMaxAttempts ≤ challenge.attemptCount ∨ challenge.status = .LOCKED then
      if challenge.status ≠ .LOCKED then do
        endChallenge (.locked challenge.id) challenge.id .LOCKED
        throw otpMaxAttempts
      else throw otpMaxAttempts
    else do
      let isMatch ← compareGuess cfg otp challenge
      if isMatch then do
        let count ← claimChallenge challenge
        if count = 0 then throw otpAlreadyUsed else pure challenge
      else do
        let attemptCount ← countAttempt challenge.id
        if cfg.otpMaxAttempts ≤ attemptCount then do
          endChallenge (.locked challenge.id) challenge.id .LOCKED
          throw otpMaxAttempts
        else throw otpInvalid

/-- What a verified phone gets: leave to register, or the credentials of its account. -/
inductive Verified where
  | phone (phone : Text)
  | account (userId : Id) (role : UserRole) (session : Session)
deriving DecidableEq, Repr

/-- The values drawn for a new session. -/
structure NewSession where
  id : Id
  familyId : Id
  tokenHash : Nat
deriving DecidableEq, Repr

/-- The INSERT, under the primary key. -/
def insertSession (s : Session) (d : Db) : Except Failure (List Write × Session) :=
  if (d.session s.id).isSome then .error (.uniqueViolation "refresh_session_pkey")
  else .ok ([.insertSession s], s)

/-- `sessionService.createSession`. -/
def createSession (cfg : Config) (userId : Id) (userRole : UserRole) (new : NewSession) :
    Service Session := do
  let t ← now
  let session : Session :=
    { id := new.id, userId, userRole, tokenHash := new.tokenHash, familyId := new.familyId
      status := .ACTIVE, expiresAt := t + cfg.refreshSessionTtlDays * 24 * 60 * 60 * 1000 }
  Call.stmt (.loggedIn session) (insertSession session)

/-- Steps 5 to 7 of `verifyOtp`: the account of the phone, if it may log in. -/
def login (cfg : Config) (phone : Text) (purpose : Option Purpose) (challenge : Challenge)
    (new : NewSession) : Service Verified := do
  let customer ← query fun d => d.customers.find? fun c => decide (c.phone = phone)
  match customer with
  | some customer =>
    if customer.deletedAt.isSome then
      throw (.coded "Account is inactive or has been deactivated" "ACCOUNT_INACTIVE")
    else do
      let session ← createSession cfg customer.id .CUSTOMER new
      pure (.account customer.id .CUSTOMER session)
  | none => do
    let worker ← query fun d => d.workers.find? fun w => decide (w.phone = phone)
    match worker with
    | some worker =>
      if worker.deletedAt.isSome ∨ worker.suspended = true then
        throw (.coded "Account has been suspended or deactivated" "ACCOUNT_SUSPENDED")
      else do
        let session ← createSession cfg worker.id .WORKER new
        pure (.account worker.id .WORKER session)
    | none =>
      if purpose = some .register ∨ challenge.purpose = .register then pure (.phone phone)
      else throw (.coded "User not found" "USER_NOT_FOUND")

def verifyOtp (cfg : Config) (rawPhone : Text) (otp : Nat) (purpose : Option Purpose)
    (new : NewSession) : Service Verified := do
  let phone ← orThrow (normalizePhoneToE164 cfg rawPhone)
  let challenge ← verifyChallenge cfg phone otp purpose
  login cfg phone purpose challenge new

end LabourBaba.Auth
