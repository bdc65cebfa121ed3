import LabourBaba.Store.Table
import LabourBaba.Store.Prog

/-!
# The authentication schema

OTP challenges, the accounts a verified phone logs in to, and the refresh sessions that
a login opens. A challenge is refused on its primary key, and an ACTIVE one on the partial
unique index over (phone, purpose). The sessions that replace one another share a family.

Three histories stand beside the tables, which no statement reads: every comparison of a
guess with a challenge's hash, every claim of a challenge that went through, and every
revocation of a family's or a user's sessions.
-/
namespace LabourBaba.Auth

open Store

abbrev Id := Nat

/-- A text as its characters; a phone number is kept in E.164 form. -/
abbrev Text := List Char

inductive Purpose where
  | login | register
deriving DecidableEq, Repr

/-- `OTP_STATUS`, the values of `chk_otp_challenge_status`. -/
inductive OtpStatus where
  | ACTIVE | CONSUMED | EXPIRED | LOCKED
deriving DecidableEq, Repr

inductive UserRole where
  | CUSTOMER | WORKER | ADMIN
deriving DecidableEq, Repr

/-- `SESSION_STATUS`, the values of `chk_refresh_session_status`. -/
inductive SessionStatus where
  | ACTIVE | ROTATED | REVOKED | EXPIRED
deriving DecidableEq, Repr

inductive RevokeReason where
  | LOGOUT | REUSE | ADMIN | SUSPENDED | SECURITY_INCIDENT
deriving DecidableEq, Repr

/-- The sessions that a revocation is about. -/
inductive Scope where
  | family (familyId : Id)
  | user (userId : Id)
deriving DecidableEq, Repr

/-! ### Rows -/

structure Challenge where
  id : Id
  phone : Text
  purpose : Purpose
  otpHash : Nat
  expiresAt : Nat
  attemptCount : Nat := 0
  status : OtpStatus := .ACTIVE
  consumedAt : Option Nat := none
  createdAt : Nat
deriving DecidableEq, Repr

/-- What the partial unique index is over. -/
def Challenge.subject (c : Challenge) : Text × Purpose := (c.phone, c.purpose)

structure Customer where
  id : Id
  phone : Text
  deletedAt : Option Nat := none
deriving DecidableEq, Repr

structure Worker where
  id : Id
  phone : Text
  deletedAt : Option Nat := none
  /-- `verification_status` is 'suspended'. -/
  suspended : Bool := false
  password : Nat := 0
deriving DecidableEq, Repr

structure Session where
  id : Id
  userId : Id
  userRole : UserRole
  tokenHash : Nat
  familyId : Id
  status : SessionStatus
  expiresAt : Nat
  lastUsedAt : Option Nat := none
  rotatedAt : Option Nat := none
  rotatedToId : Option Id := none
  revokedAt : Option Nat := none
  revokedReason : Option RevokeReason := none
deriving DecidableEq, Repr

structure Db where
  now : Nat := 0
  challenges : List Challenge := []
  customers : List Customer := []
  workers : List Worker := []
  sessions : List Session := []
  /-- The comparisons made so far: the challenge, and whether the guess matched. -/
  guesses : List (Id × Bool) := []
  /-- The challenges claimed so far, once for each call that claimed one. -/
  claims : List Id := []
  /-- The families and users whose sessions have been revoked so far. -/
  revocations : List Scope := []
deriving DecidableEq, Repr

namespace Db

def challenge (d : Db) (id : Id) : Option Challenge := Table.find Challenge.id d.challenges id

def session (d : Db) (id : Id) : Option Session := Table.find Session.id d.sessions id

def worker (d : Db) (id : Id) : Option Worker := Table.find Worker.id d.workers id

def customer (d : Db) (id : Id) : Option Customer := Table.find Customer.id d.customers id

/-- The entries of the index over (phone, purpose): a challenge is entered when it is
inserted, and its columns phone and purpose are never updated. -/
def entries (d : Db) (subject : Text × Purpose) : List Id :=
  (d.challenges.filter fun c => decide (c.subject = subject)).map (·.id)

/-- How often a wrong guess was compared with the challenge's hash. -/
def wrongGuesses (d : Db) (id : Id) : Nat := d.guesses.count (id, false)

end Db

/-! ### Writes -/

inductive Write where
  | insertChallenge (challenge : Challenge)
  | countAttempt (id : Id)
  | endChallenges (ids : List Id) (status : OtpStatus) (at_ : Nat)
  | insertSession (session : Session)
  | rotateSession (id newId : Id) (at_ : Nat)
  | revokeSessions (ids : List Id) (reason : RevokeReason) (at_ : Nat)
  | suspendWorker (id : Id) (at_ : Nat)
  | reviewWorker (id : Id)
  | guessed (id : Id) (matched : Bool)
  | claimed (id : Id)
  | revocation (scope : Scope)
  | tick (ms : Nat)
deriving DecidableEq, Repr

def Challenge.clash (new old : Challenge) : Bool := decide (new.id = old.id)

def Session.clash (new old : Session) : Bool := decide (new.id = old.id)

def Challenge.counted (c : Challenge) : Challenge :=
  { c with attemptCount := c.attemptCount + 1 }

/-- An UPDATE that takes a challenge out of use. -/
def Challenge.ended (status : OtpStatus) (at_ : Nat) (c : Challenge) : Challenge :=
  { c with status, consumedAt := some at_ }

def Session.rotated (newId : Id) (at_ : Nat) (s : Session) : Session :=
  { s with status := .ROTATED, rotatedAt := some at_, rotatedToId := some newId }

def Session.revoked (reason : RevokeReason) (at_ : Nat) (s : Session) : Session :=
  { s with status := .REVOKED, revokedAt := some at_, revokedReason := some reason }

/-- `verification_status` 'suspended', with `deleted_at`. -/
def Worker.suspend (at_ : Nat) (w : Worker) : Worker :=
  { w with suspended := true, deletedAt := some at_ }

/-- `verification_status` 'verified' or 'rejected'; `deleted_at` stays. -/
def Worker.review (w : Worker) : Worker := { w with suspended := false }

def Write.apply (w : Write) (d : Db) : Db :=
  match w with
  | .insertChallenge c => { d with challenges := Table.insert Challenge.clash d.challenges c }
  | .countAttempt id =>
    { d with challenges := Table.modify Challenge.id d.challenges [id] Challenge.counted }
  | .endChallenges ids status t =>
    { d with challenges := Table.modify Challenge.id d.challenges ids (Challenge.ended status t) }
  | .insertSession s => { d with sessions := Table.insert Session.clash d.sessions s }
  | .rotateSession id newId t =>
    { d with sessions := Table.modify Session.id d.sessions [id] (Session.rotated newId t) }
  | .revokeSessions ids reason t =>
    { d with sessions := Table.modify Session.id d.sessions ids (Session.revoked reason t) }
  | .suspendWorker id t =>
    { d with workers := Table.modify Worker.id d.workers [id] (Worker.suspend t) }
  | .reviewWorker id => { d with workers := Table.modify Worker.id d.workers [id] Worker.review }
  | .guessed id matched => { d with guesses := d.guesses ++ [(id, matched)] }
  | .claimed id => { d with claims := d.claims ++ [id] }
  | .revocation scope => { d with revocations := d.revocations ++ [scope] }
  | .tick ms => { d with now := d.now + ms }

/-! ### Row locks -/

inductive Key where
  | challenge (id : Id)
  /-- The index entry that an ACTIVE challenge takes. -/
  | active (subject : Text × Purpose)
  | session (id : Id)
  | worker (id : Id)
  /-- No row: the mark of a call whose UPDATE of a user's or a family's sessions has taken its
  snapshot. No other call ever waits for it. -/
  | snapshot (call : Nat) (scope : Scope)
deriving DecidableEq, Repr

def Write.keys : Write → List Key
  | .insertChallenge c => [.challenge c.id, .active c.subject]
  | .countAttempt id => [.challenge id]
  | .endChallenges ids _ _ => ids.map .challenge
  | .insertSession s => [.session s.id]
  | .rotateSession id _ _ => [.session id]
  | .revokeSessions ids _ _ => ids.map .session
  | .suspendWorker id _ | .reviewWorker id => [.worker id]
  | .guessed _ _ | .claimed _ | .revocation _ | .tick _ => []

abbrev Key.Row : Key → Type
  | .challenge _ => Option Challenge
  | .active _ => List Id
  | .session _ => Option Session
  | .worker _ => Option Worker
  | .snapshot _ _ => Unit

def Db.row (d : Db) : (k : Key) → k.Row
  | .challenge id => d.challenge id
  | .active subject => d.entries subject
  | .session id => d.session id
  | .worker id => d.worker id
  | .snapshot _ _ => ()

private theorem entries_modify (rows : List Challenge) (ids : List Id) (f : Challenge → Challenge)
    (sameId : ∀ c, (f c).id = c.id) (sameSubject : ∀ c, (f c).subject = c.subject)
    (subject : Text × Purpose) :
    ((Table.modify Challenge.id rows ids f).filter fun c => decide (c.subject = subject)).map
        (·.id) =
      (rows.filter fun c => decide (c.subject = subject)).map (·.id) := by
  induction rows with
  | nil => rfl
  | cons c rows ih =>
    simp only [Table.modify] at ih
    simp only [Table.modify, List.map_cons, List.filter_cons]
    -- the head keeps its subject and its id, whether or not it is updated
    by_cases hit : c.id ∈ ids
    · by_cases mine : c.subject = subject
      · simp [hit, mine, sameSubject, sameId, ih]
      · simp [hit, mine, sameSubject, ih]
    · by_cases mine : c.subject = subject
      · simp [hit, mine, ih]
      · simp [hit, mine, ih]

theorem Write.row_apply (w : Write) (d : Db) (k : Key) (untouched : k ∉ w.keys) :
    (w.apply d).row k = d.row k := by
  cases k with
  | challenge id =>
    cases w with
    | insertChallenge c =>
      have other : c.id ≠ id := fun same => untouched (by simp [Write.keys, same])
      simp only [Db.row, Db.challenge, Write.apply, Table.find_insert_of_ne other]
    | countAttempt i =>
      exact Table.find_modify_of_notMem _ _ Challenge.counted _ (fun _ => rfl)
        (by simpa [Write.keys] using untouched)
    | endChallenges ids status t =>
      refine Table.find_modify_of_notMem _ _ (Challenge.ended status t) _ (fun _ => rfl) ?_
      simpa [Write.keys] using untouched
    | _ => rfl
  | active subject =>
    cases w with
    | insertChallenge c =>
      have other : c.subject ≠ subject := fun same => untouched (by simp [Write.keys, same])
      simp only [Db.row, Db.entries, Write.apply, Table.insert]
      split
      · rfl
      · simp [List.filter_append, other]
    | countAttempt i =>
      exact entries_modify _ _ Challenge.counted (fun _ => rfl) (fun _ => rfl) _
    | endChallenges ids status t =>
      exact entries_modify _ _ (Challenge.ended status t) (fun _ => rfl) (fun _ => rfl) _
    | _ => rfl
  | session id =>
    cases w with
    | insertSession s =>
      have other : s.id ≠ id := fun same => untouched (by simp [Write.keys, same])
      simp only [Db.row, Db.session, Write.apply, Table.find_insert_of_ne other]
    | rotateSession i newId t =>
      exact Table.find_modify_of_notMem _ _ (Session.rotated newId t) _ (fun _ => rfl)
        (by simpa [Write.keys] using untouched)
    | revokeSessions ids reason t =>
      exact Table.find_modify_of_notMem _ _ (Session.revoked reason t) _ (fun _ => rfl)
        (by simpa [Write.keys] using untouched)
    | _ => rfl
  | worker id =>
    cases w with
    | suspendWorker i t =>
      exact Table.find_modify_of_notMem _ _ (Worker.suspend t) _ (fun _ => rfl)
        (by simpa [Write.keys] using untouched)
    | reviewWorker i =>
      exact Table.find_modify_of_notMem _ _ Worker.review _ (fun _ => rfl)
        (by simpa [Write.keys] using untouched)
    | _ => rfl
  | snapshot call scope => rfl

instance : RowStore Db Write Key where
  Row := Key.Row
  row := Db.row
  write := Write.apply
  keys := Write.keys
  row_write := Write.row_apply

@[simp] theorem write_eq_apply (w : Write) (d : Db) : write w d = w.apply d := rfl

@[simp] theorem keys_eq (w : Write) : keys Db w = w.keys := rfl

end LabourBaba.Auth
