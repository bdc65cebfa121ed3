import LabourBaba.Auth.SessionServices

/-!
# The authentication system

Any number of calls, each known by its number, run against the store of accounts, challenges
and sessions. A run starts with some accounts; what it draws at random comes with the calls.
-/
namespace LabourBaba.Auth

open Store

inductive Op where
  | sendOtp (rawPhone : Text) (purpose : Purpose) (new : NewChallenge)
  | verifyOtp (rawPhone : Text) (otp : Nat) (purpose : Option Purpose) (new : NewSession)
  | loginWorker (rawPhone : Text) (password : Nat) (new : NewSession)
  | createSession (userId : Id) (userRole : UserRole) (new : NewSession)
  | rotateSession (rawToken : Text) (new : NewSuccessor)
  | refreshToken (rawToken : Text) (successor : NewSuccessor) (upgrade : NewSession)
  | revokeSession (sessionId userId : Id) (reason : RevokeReason)
  | revokeByRawToken (rawToken : Text) (userId : Id)
  | revokeAllUserSessions (userId : Id) (reason : RevokeReason)
  | revokeFamilyByFamilyId (familyId : Id) (reason : RevokeReason)
  | suspendWorker (workerId : Id)
  | verifyWorkerDocument (workerId : Id)
  /-- Time passes. -/
  | tick (ms : Nat)
deriving DecidableEq, Repr

inductive Reply where
  | done
  | verified (result : Verified)
  | session (session : Session)
  | refreshed (result : Refresh)
  | revoked (count : Nat)
deriving DecidableEq, Repr

abbrev Outcome := Except Failure Reply

def serviceOf (cfg : Config) (me : Nat) : Op → Service Reply
  | .sendOtp rawPhone purpose new => do
    sendOtp cfg rawPhone purpose new
    pure .done
  | .verifyOtp rawPhone otp purpose new => do
    let result ← verifyOtp cfg rawPhone otp purpose new
    pure (.verified result)
  | .loginWorker rawPhone password new => do
    let session ← loginWorker cfg rawPhone password new
    pure (.session session)
  | .createSession userId userRole new => do
    let session ← createSession cfg userId userRole new
    pure (.session session)
  | .rotateSession rawToken new => do
    let session ← rotateSession cfg me rawToken new
    pure (.refreshed (.rotated session))
  | .refreshToken rawToken successor upgrade => do
    let result ← refreshToken cfg me rawToken successor upgrade
    pure (.refreshed result)
  | .revokeSession sessionId userId reason => do
    let count ← revokeSession sessionId userId reason
    pure (.revoked count)
  | .revokeByRawToken rawToken userId => do
    let count ← revokeByRawToken rawToken userId
    pure (.revoked count)
  | .revokeAllUserSessions userId reason => do
    let count ← revokeAllUserSessions me userId reason
    pure (.revoked count)
  | .revokeFamilyByFamilyId familyId reason => do
    let count ← revokeFamilyByFamilyId me familyId reason
    pure (.revoked count)
  | .suspendWorker workerId => do
    suspendWorker me workerId
    pure .done
  | .verifyWorkerDocument workerId => do
    verifyWorkerDocument workerId
    pure .done
  | .tick ms => Call.send .ticked fun _ => ([⟨.tick ms, rfl⟩], .done)

def system (cfg : Config) (me : Nat) (op : Op) : Prog Label Db Write Key Outcome :=
  (serviceOf cfg me op).run

/-- Passwords compared as they are, phones taken as they come, a secret hashed to its first
character, and no legacy tokens. -/
def plainConfig : Config where
  comparePassword otp hash := decide (otp = hash)
  compareSecret secret hash := decide (secret.head?.map Char.toNat = some hash)
  parsePhoneNumber phone := some phone
  verifyRefreshToken _ _ := none

abbrev AuthPool := Pool Label Db Write Key Op Outcome

abbrev AuthThread := Thread Label Db Write Key Op Outcome

/-- Some accounts, and no challenge yet. -/
def start (customers : List Customer) (workers : List Worker) : AuthPool :=
  { db := { customers, workers } }

/-- A run whose statements all meet a condition on the store, from some accounts. -/
def Runs (cfg : Config) (cond : Label → Db → Prop) (p : AuthPool) : Prop :=
  ∃ customers workers,
    Pool.Reaches (system cfg) (Pool.Meets cond) (start customers workers) p

abbrev Reachable (cfg : Config) : AuthPool → Prop := Runs cfg fun _ _ => True

/-- The store after a schedule of events that all meet a condition, without accounts. -/
def played (cond : Label → Db → Prop) [∀ ℓ d, Decidable (cond ℓ d)] (moves : List (Pool.Move Op)) :
    AuthPool :=
  (start [] []).after (system plainConfig) (Pool.Meets cond) 40 moves

theorem runs_played (cond : Label → Db → Prop) [∀ ℓ d, Decidable (cond ℓ d)]
    (moves : List (Pool.Move Op)) : Runs plainConfig cond (played cond moves) :=
  ⟨[], [], Pool.Reaches.refl.after 40 moves⟩

/-- The same with some accounts. -/
def playedWith (cfg : Config) (workers : List Worker) (moves : List (Pool.Move Op)) : AuthPool :=
  (start [] workers).after (system cfg) (Pool.Meets fun _ _ => True) 40 moves

theorem reachable_playedWith (cfg : Config) (workers : List Worker) (moves : List (Pool.Move Op)) :
    Reachable cfg (playedWith cfg workers moves) :=
  ⟨[], workers, Pool.Reaches.refl.after 40 moves⟩

end LabourBaba.Auth
