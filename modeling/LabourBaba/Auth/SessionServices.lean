import LabourBaba.Auth.OtpServices

/-!
# Session services

`sessionService` with the calls that mint credentials from it (`authService.refreshToken`,
`loginWorker`) and those that revoke sessions, statement by statement.

An UPDATE of all sessions of a family or of a user is two statements: PostgreSQL selects the
rows from the snapshot of its start, then locks each of them and updates those that still
match. A session that another transaction inserts in between is not among them. The mark
`Key.snapshot` is held from the one to the commit of the other, and nobody waits for it.
-/
namespace LabourBaba.Auth

open Store

/-! ### Raw tokens -/

/-- `length` of a string, in UTF-16 code units. -/
def Text.units (text : Text) : Nat :=
  (text.map fun c => if c.toNat < 0x10000 then 1 else 2).sum

/-- The value of a character that the class `[0-9a-f]` matches without regard to case. -/
def hexValue (c : Char) : Option Nat :=
  if '0' ≤ c ∧ c ≤ '9' then some (c.toNat - '0'.toNat)
  else if 'a' ≤ c ∧ c ≤ 'f' then some (c.toNat - 'a'.toNat + 10)
  else if 'A' ≤ c ∧ c ≤ 'F' then some (c.toNat - 'A'.toNat + 10)
  else none

/-- The lengths of the groups that `UUID_RE` asks for, between hyphens. -/
def uuidGroups : List Nat := [8, 4, 4, 4, 12]

/-- `UUID_RE`, with the number that the digits denote. -/
def parseUuid (groups : List Text) : Option Id :=
  if groups.map List.length = uuidGroups then
    groups.flatten.foldlM (fun value c => (hexValue c).map (value * 16 + ·)) 0
  else none

def refreshSecretBytes : Nat := 32

def parseRawToken (rawToken : Text) : Option (Id × Text) :=
  match rawToken.span (· ≠ '.') with
  | (_, []) => none
  | (sessionId, _ :: secret) =>
    if sessionId = [] ∨ secret = [] ∨ Text.units secret ≠ refreshSecretBytes * 2 then none
    else (parseUuid (sessionId.splitOn '-')).map fun id => (id, secret)

/-! ### Errors -/

/-- `err.code`, of which the client library sets its own for a failed statement. -/
def Failure.code : Failure → Option String
  | .coded _ code => some code
  | .http _ _ code => code
  | .uniqueViolation _ => some "P2002"
  | .recordNotFound => some "P2025"
  | .resendCooldown _ => some "OTP_RESEND_COOLDOWN"

def invalidTokenFormat : Failure := .coded "Invalid refresh token format" "INVALID_REFRESH_TOKEN"

def sessionNotFound : Failure := .coded "Refresh session not found" "INVALID_REFRESH_TOKEN"

def secretMismatch : Failure := .coded "Invalid refresh token" "INVALID_REFRESH_TOKEN"

def tokenReuse : Failure := .coded
  "Refresh token already used — potential token theft detected. Please log in again."
  "REFRESH_TOKEN_REUSE"

def sessionExpired : Failure := .coded "Refresh session has expired" "REFRESH_SESSION_EXPIRED"

def accountSuspended : Failure :=
  .coded "Account has been suspended or deactivated" "ACCOUNT_SUSPENDED"

def accountInactive : Failure :=
  .coded "Account is inactive or has been deactivated" "ACCOUNT_INACTIVE"

def concurrentRefresh : Failure := .http 401
  "Concurrent refresh detected — please retry with your latest active session."
  (some "CONCURRENT_REFRESH_CONFLICT")

/-- The codes that `refreshToken` passes on at once. -/
def securityCodes : List String :=
  ["REFRESH_TOKEN_REUSE", "REFRESH_SESSION_EXPIRED", "ACCOUNT_SUSPENDED", "ACCOUNT_INACTIVE",
    "CONCURRENT_REFRESH_CONFLICT"]

/-! ### Revoking sessions -/

/-- The session is one of the family, or of the user. -/
def Scope.covers (scope : Scope) (s : Session) : Bool :=
  match scope with
  | .family familyId => decide (s.familyId = familyId)
  | .user userId => decide (s.userId = userId)

/-- The statuses that the UPDATE takes: a user's EXPIRED sessions are left alone. -/
def Scope.takes (scope : Scope) (status : SessionStatus) : Bool :=
  match scope with
  | .family _ => decide (status ≠ .REVOKED)
  | .user _ => decide (status = .ACTIVE ∨ status = .ROTATED)

def Scope.selects (scope : Scope) (s : Session) : Bool := scope.covers s && scope.takes s.status

/-- The rows that the condition of the UPDATE matches. -/
def Db.inScope (d : Db) (scope : Scope) : List Id := (d.sessions.filter scope.selects).map (·.id)

/-- `updateMany` over a family or a user, with the number of rows it changed. -/
def revokeWhere (me : Nat) (scope : Scope) (reason : RevokeReason) (revokedAt : Nat) :
    Service Nat := do
  let selected ← Call.lock .step (fun _ => [.snapshot me scope]) fun d => d.inScope scope
  step fun d =>
    let ids := selected.filter fun id => (d.session id).any scope.selects
    .ok ([.revokeSessions ids reason revokedAt, .revocation scope], ids.length)

def revokeAllUserSessions (me : Nat) (userId : Id) (reason : RevokeReason) : Service Nat := do
  let revokedAt ← now
  Call.transaction (fun _ => .step) (revokeWhere me (.user userId) reason revokedAt)

def revokeFamilyByFamilyId (me : Nat) (familyId : Id) (reason : RevokeReason) : Service Nat := do
  let revokedAt ← now
  Call.transaction (fun _ => .step) (revokeWhere me (.family familyId) reason revokedAt)

def revokeSession (sessionId userId : Id) (reason : RevokeReason) : Service Nat := do
  let revokedAt ← now
  step fun d =>
    match d.session sessionId with
    | none => .ok ([], 0)
    | some s =>
      if s.userId = userId ∧ (s.status = .ACTIVE ∨ s.status = .ROTATED) then
        .ok ([.revokeSessions [sessionId] reason revokedAt], 1)
      else .ok ([], 0)

def revokeByRawToken (rawToken : Text) (userId : Id) : Service Nat :=
  match parseRawToken rawToken with
  | none => pure 0
  | some (sessionId, _) => revokeSession sessionId userId .LOGOUT

/-- `adminService.suspendWorker`: the worker and all its sessions in one transaction. -/
def suspendWorker (me : Nat) (workerId : Id) : Service Unit := do
  let existing ← query fun d => d.worker workerId
  match existing with
  | none => throw (.http 404 "Worker not found" (some "WORKER_NOT_FOUND"))
  | some _ => do
    let suspensionTime ← now
    Call.transaction (fun _ => .step) do
      step fun d =>
        if (d.worker workerId).isNone then .error .recordNotFound
        else .ok ([.suspendWorker workerId suspensionTime], ())
      let _ ← revokeWhere me (.user workerId) .SUSPENDED suspensionTime
      pure ()

/-- `adminService.verifyWorkerDocument`; the documents are not modelled, so whether some are
pending is up to the environment. -/
def verifyWorkerDocument (workerId : Id) : Service Unit := do
  let pending ← Call.choose
  if pending then
    step fun d =>
      if (d.worker workerId).isNone then .error .recordNotFound
      else .ok ([.reviewWorker workerId], ())
  else throw (.http 500 "No pending documents for this worker" none)

/-! ### Rotating a session -/

/-- The values drawn for the session that takes over. -/
structure NewSuccessor where
  id : Id
  tokenHash : Nat
deriving DecidableEq, Repr

/-- Step 4.5 of `rotateSession`: the account behind the session, which is read by its role. -/
def checkAccount (me : Nat) (session : Session) : Service Unit :=
  match session.userRole with
  | .WORKER => do
    let worker ← query fun d => d.worker session.userId
    if worker.all fun w => w.deletedAt.isSome || w.suspended then do
      let _ ← revokeFamilyByFamilyId me session.familyId .SUSPENDED
      throw accountSuspended
    else pure ()
  | .CUSTOMER => do
    let customer ← query fun d => d.customer session.userId
    if customer.all fun c => c.deletedAt.isSome then do
      let _ ← revokeFamilyByFamilyId me session.familyId .SUSPENDED
      throw accountInactive
    else pure ()
  | .ADMIN => pure ()

/-- The conditional UPDATE of step 5, with the number of rows it changed; `rotated_to_id` is
under a unique index. -/
def retireSession (sessionId newId : Id) : Service Nat := do
  let rotatedAt ← now
  step fun d =>
    match d.session sessionId with
    | none => .ok ([], 0)
    | some row =>
      if row.status = .ACTIVE then
        if d.sessions.any fun s => decide (s.rotatedToId = some newId) then
          .error (.uniqueViolation "uniq_refresh_session_rotated_to")
        else .ok ([.rotateSession sessionId newId rotatedAt], 1)
      else .ok ([], 0)

/-- The row of the session that takes over: of the same user, in the same family. -/
def Session.successor (session : Session) (new : NewSuccessor) (expiresAt lastUsedAt : Nat) :
    Session where
  id := new.id
  userId := session.userId
  userRole := session.userRole
  tokenHash := new.tokenHash
  familyId := session.familyId
  status := .ACTIVE
  expiresAt := expiresAt
  lastUsedAt := some lastUsedAt

/-- The transaction of step 5: the successor, or nothing when another call was faster. -/
def replaceSession (session : Session) (new : NewSuccessor) (expiresAt : Nat) :
    Service (Option Session) := do
  let count ← retireSession session.id new.id
  if count = 0 then pure none
  else do
    let lastUsedAt ← now
    let newSession ← step (insertSession (session.successor new expiresAt lastUsedAt))
    pure (some newSession)

/-- Steps 1 to 4.5: the session that a token names, if it may be rotated. -/
def admitToken (cfg : Config) (me : Nat) (rawToken : Text) : Service Session :=
  match parseRawToken rawToken with
  | none => throw invalidTokenFormat
  | some (sessionId, secret) => do
    let found ← query fun d => d.session sessionId
    match found with
    | none => throw sessionNotFound
    | some session =>
      if session.status = .ROTATED ∨ session.status = .REVOKED then do
        let _ ← revokeFamilyByFamilyId me session.familyId .REUSE
        throw tokenReuse
      else do
        let t ← now
        if session.expiresAt < t then throw sessionExpired
        else if cfg.compareSecret secret session.tokenHash then do
          checkAccount me session
          pure session
        else throw secretMismatch

/-- The label of the commit of a rotation. -/
abbrev rotationLabel (newSession : Option Session) : Label := newSession.elim .step .rotated

def rotateSession (cfg : Config) (me : Nat) (rawToken : Text) (new : NewSuccessor) :
    Service Session := do
  let session ← admitToken cfg me rawToken
  let t ← now
  let newSession ← Call.transaction rotationLabel
    (replaceSession session new (t + cfg.refreshSessionTtlDays * 24 * 60 * 60 * 1000))
  match newSession with
  | none => throw concurrentRefresh
  | some newSession => pure newSession

/-! ### Calls that mint credentials -/

/-- What a refresh answers with. The access token is issued to the user of the session behind
the new refresh token. -/
inductive Refresh where
  | rotated (session : Session)
  /-- A legacy refresh token was traded for a session. -/
  | upgraded (session : Session)
deriving DecidableEq, Repr

def Refresh.session : Refresh → Session
  | .rotated s | .upgraded s => s

/-- `authService.refreshToken`. -/
def refreshToken (cfg : Config) (me : Nat) (rawToken : Text) (successor : NewSuccessor)
    (upgrade : NewSession) : Service Refresh := do
  let rotated ← Call.attempt (rotateSession cfg me rawToken successor)
  match rotated with
  | .ok session => pure (.rotated session)
  | .error sessionErr =>
    if sessionErr.code.any fun code => decide (code ∈ securityCodes) then throw sessionErr
    else do
      let t ← now
      match cfg.verifyRefreshToken t rawToken with
      | some (userId, userRole) => do
        let session ← createSession cfg userId userRole upgrade
        pure (.upgraded session)
      | none => throw sessionErr

def invalidLogin : Failure := .http 401 "Invalid phone number or password" none

def loginWorker (cfg : Config) (rawPhone : Text) (password : Nat) (new : NewSession) :
    Service Session := do
  let phone ← orThrow (normalizePhoneToE164 cfg rawPhone)
  let worker ← query fun d => d.workers.find? fun w => decide (w.phone = phone)
  match worker with
  | none => throw invalidLogin
  | some worker =>
    if worker.deletedAt.isSome ∨ worker.suspended = true then throw invalidLogin
    else if cfg.comparePassword password worker.password then
      createSession cfg worker.id .WORKER new
    else throw invalidLogin

end LabourBaba.Auth
