import LabourBaba.Auth.System
import LabourBaba.Store.Footprint

/-!
# What the authentication services write

The services write to two groups of tables that have nothing to do with each other: OTP
challenges with their histories, and sessions with the accounts behind them. What is proved
about the one group needs only the footprint of the services of the other.
-/
namespace LabourBaba.Auth

open Store

def Write.ofChallenges : Write → Bool
  | .insertChallenge _ | .countAttempt _ | .endChallenges _ _ _ | .guessed _ _ | .claimed _ => true
  | _ => false

def Write.ofSessions : Write → Bool
  | .insertSession _ | .rotateSession _ _ _ | .revokeSessions _ _ _ | .suspendWorker _ _
  | .reviewWorker _ | .revocation _ => true
  | _ => false

/-- The writes are about challenges, under any label. -/
abbrev OnChallenges {α : Type} (c : Service α) : Prop :=
  Call.Emits (fun w => w.ofChallenges = true) (fun _ => True) false c

/-- The writes are about sessions and accounts, under any label. -/
abbrev OnSessions {α : Type} (c : Service α) : Prop :=
  Call.Emits (fun w => w.ofSessions = true) (fun _ => True) false c

theorem orThrow_emits {α : Type} {ok : Write → Prop} {named : Label → Prop}
    (result : Except Failure α) : Call.Emits ok named false (orThrow result) := by
  cases result with
  | ok a => exact .pure a
  | error e => exact .throw e

/-! ### Challenges -/

theorem endChallenge_onChallenges (ℓ : Label) (id : Id) (status : OtpStatus) :
    OnChallenges (endChallenge ℓ id status) := by
  refine Call.Emits.bind (.read _ _) fun t => .stmt (Or.inr trivial) fun d ws _ result => ?_
  split at result
  · cases result
  · cases result
    simp [Write.ofChallenges]

theorem issueChallenge_plain (cfg : Config) (phone : Text) (purpose : Purpose) (new : NewChallenge)
    (expiresAt since : Nat) :
    Call.Plain (fun w => w.ofChallenges = true)
      (issueChallenge cfg phone purpose new expiresAt since) := by
  refine Call.Plain.bind (.read _ _) fun recent => ?_
  cases recent with
  | some recent => exact Call.Plain.bind (.read _ _) fun _ => .throw _
  | none =>
    refine Call.Plain.bind (.read _ _) fun _ => Call.Plain.bind (.read _ _) fun _ => ?_
    refine Call.Plain.bind (.stmt fun d ws _ result => ?_) fun _ =>
      Call.Plain.bind (.read _ _) fun _ => .stmt fun d ws _ result => ?_
    · cases result
      simp [Write.ofChallenges]
    · simp only [insertChallenge] at result
      split at result
      · cases result
      · split at result <;> cases result
        simp [Write.ofChallenges]

theorem sendOtp_onChallenges (cfg : Config) (rawPhone : Text) (purpose : Purpose)
    (new : NewChallenge) : OnChallenges (sendOtp cfg rawPhone purpose new) := by
  refine (orThrow_emits _).bind fun phone => Call.Emits.bind (.read _ _) fun _ => ?_
  refine Call.Emits.bind (.read _ _) fun since => ?_
  refine Call.Emits.bind
    (.transaction (fun _ => trivial) (issueChallenge_plain _ _ _ _ _ _).emits) fun c => ?_
  refine Call.Emits.bind .choose fun delivered => ?_
  split
  · exact .pure _
  · exact (endChallenge_onChallenges _ _ _).bind fun _ => .throw _

theorem verifyChallenge_onChallenges (cfg : Config) (phone : Text) (otp : Nat)
    (purpose : Option Purpose) : OnChallenges (verifyChallenge cfg phone otp purpose) := by
  refine Call.Emits.bind (.read _ _) fun t => Call.Emits.bind (.read _ _) fun found => ?_
  cases found with
  | none => exact .throw _
  | some c =>
    simp only
    split
    · split
      · exact (endChallenge_onChallenges _ _ _).bind fun _ => .throw _
      · exact .throw _
    · refine Call.Emits.bind (.send trivial fun _ => by simp [Write.ofChallenges]) fun isMatch => ?_
      split
      · -- the guess matched: the claim
        refine Call.Emits.bind ?_ fun count => ?_
        · refine Call.Emits.bind (.read _ _) fun _ => .stmt (Or.inr trivial) fun d ws _ result => ?_
          split at result
          · cases result
            simp
          · split at result <;> cases result <;> simp [Write.ofChallenges]
        · split
          · exact .throw _
          · exact .pure _
      · -- it did not: the count of attempts, and the lock
        refine Call.Emits.bind (.stmt (Or.inr trivial) fun d ws _ result => ?_) fun count => ?_
        · split at result <;> cases result
          simp [Write.ofChallenges]
        · split
          · exact (endChallenge_onChallenges _ _ _).bind fun _ => .throw _
          · exact .throw _

/-! ### Sessions -/

theorem insertSession_ok {s a : Session} {d : Db} {ws : List Write}
    (inserted : insertSession s d = .ok (ws, a)) :
    d.session s.id = none ∧ ws = [.insertSession s] ∧ a = s := by
  simp only [insertSession] at inserted
  split at inserted
  · cases inserted
  next fresh =>
    simp only [Except.ok.injEq, Prod.mk.injEq] at inserted
    exact ⟨by simpa using fresh, inserted.1.symm, inserted.2.symm⟩

/-- A login inserts one session, of the user that it is for. -/
theorem createSession_emits {ok : Write → Prop} (cfg : Config) {userId : Id} {role : UserRole}
    (new : NewSession)
    (inserts : ∀ s : Session, s.userId = userId → s.userRole = role → ok (.insertSession s)) :
    Call.Emits ok (fun _ => True) false (createSession cfg userId role new) := by
  refine Call.Emits.bind (.read _ _) fun t => .stmt (Or.inr trivial) fun d ws _ result w member => ?_
  obtain ⟨-, rfl, -⟩ := insertSession_ok result
  obtain rfl := List.mem_singleton.mp member
  exact inserts _ rfl rfl

theorem createSession_gives (cfg : Config) (userId : Id) (role : UserRole) (new : NewSession) :
    Call.Gives (fun s => s.userId = userId ∧ s.userRole = role)
      (createSession cfg userId role new) := by
  refine Call.Gives.bind (.any _) fun t _ => .stmt fun d ws s result => ?_
  obtain ⟨-, -, rfl⟩ := insertSession_ok result
  exact ⟨rfl, rfl⟩

theorem createSession_onSessions (cfg : Config) (userId : Id) (role : UserRole) (new : NewSession) :
    OnSessions (createSession cfg userId role new) :=
  createSession_emits cfg new fun _ _ _ => rfl

section Revoking

-- a revocation of a family or a user writes nothing but itself and its record
variable {ok : Write → Prop}
  (revokes : ∀ ids reason t scope, ok (.revokeSessions ids reason t) ∧ ok (.revocation scope))

include revokes

theorem revokeWhere_plain (me : Nat) (scope : Scope) (reason : RevokeReason) (t : Nat) :
    Call.Plain ok (revokeWhere me scope reason t) := by
  refine Call.Plain.bind (.lock _ _ _) fun selected => .stmt fun d ws _ result => ?_
  cases result
  intro w member
  rcases List.mem_cons.mp member with rfl | member
  · exact (revokes _ _ _ scope).1
  · obtain rfl := List.mem_singleton.mp member
    exact (revokes [] .LOGOUT 0 scope).2

theorem revokeFamily_emits (me : Nat) (familyId : Id) (reason : RevokeReason) :
    Call.Emits ok (fun _ => True) false (revokeFamilyByFamilyId me familyId reason) :=
  Call.Emits.bind (.read _ _) fun _ =>
    .transaction (fun _ => trivial) (revokeWhere_plain revokes _ _ _ _).emits

theorem revokeAll_emits (me : Nat) (userId : Id) (reason : RevokeReason) :
    Call.Emits ok (fun _ => True) false (revokeAllUserSessions me userId reason) :=
  Call.Emits.bind (.read _ _) fun _ =>
    .transaction (fun _ => trivial) (revokeWhere_plain revokes _ _ _ _).emits

theorem checkAccount_emits (me : Nat) (session : Session) :
    Call.Emits ok (fun _ => True) false (checkAccount me session) := by
  simp only [checkAccount]
  split
  · refine Call.Emits.bind (.read _ _) fun worker => ?_
    split
    · exact (revokeFamily_emits revokes _ _ _).bind fun _ => .throw _
    · exact .pure _
  · refine Call.Emits.bind (.read _ _) fun customer => ?_
    split
    · exact (revokeFamily_emits revokes _ _ _).bind fun _ => .throw _
    · exact .pure _
  · exact .pure _

theorem admitToken_emits (cfg : Config) (me : Nat) (rawToken : Text) :
    Call.Emits ok (fun _ => True) false (admitToken cfg me rawToken) := by
  simp only [admitToken]
  split
  · exact .throw _
  · refine Call.Emits.bind (.read _ _) fun found => ?_
    cases found with
    | none => exact .throw _
    | some session =>
      simp only
      split
      · exact (revokeFamily_emits revokes _ _ _).bind fun _ => .throw _
      · refine Call.Emits.bind (.read _ _) fun t => ?_
        split
        · exact .throw _
        · split
          · exact (checkAccount_emits revokes _ _).bind fun _ => .pure _
          · exact .throw _

end Revoking

theorem revokes_ofSessions (ids : List Id) (reason : RevokeReason) (t : Nat) (scope : Scope) :
    (Write.revokeSessions ids reason t).ofSessions = true ∧
      (Write.revocation scope).ofSessions = true :=
  ⟨rfl, rfl⟩

theorem revokeSession_onSessions (sessionId userId : Id) (reason : RevokeReason) :
    OnSessions (revokeSession sessionId userId reason) := by
  refine Call.Emits.bind (.read _ _) fun t => .stmt (Or.inr trivial) fun d ws _ result => ?_
  split at result
  · cases result
    simp
  · split at result <;> cases result <;> simp [Write.ofSessions]

theorem revokeByRawToken_onSessions (rawToken : Text) (userId : Id) :
    OnSessions (revokeByRawToken rawToken userId) := by
  simp only [revokeByRawToken]
  split
  · exact .pure _
  · exact revokeSession_onSessions _ _ _

theorem suspendWorker_onSessions (me : Nat) (workerId : Id) :
    OnSessions (suspendWorker me workerId) := by
  refine Call.Emits.bind (.read _ _) fun existing => ?_
  cases existing with
  | none => exact .throw _
  | some _ =>
    refine Call.Emits.bind (.read _ _) fun t => .transaction (fun _ => trivial) ?_
    refine Call.Emits.bind (.stmt (Or.inl rfl) fun d ws _ result => ?_) fun _ =>
      (revokeWhere_plain revokes_ofSessions _ _ _ _).emits.bind fun _ => .pure _
    split at result <;> cases result
    simp [Write.ofSessions]

theorem verifyWorkerDocument_onSessions (workerId : Id) :
    OnSessions (verifyWorkerDocument workerId) := by
  refine Call.Emits.bind .choose fun pending => ?_
  split
  · refine .stmt (Or.inr trivial) fun d ws _ result => ?_
    split at result <;> cases result
    simp [Write.ofSessions]
  · exact .throw _

/-- A rotation retires one session and inserts one of the same user. -/
theorem replaceSession_plain {ok : Write → Prop} {session : Session} (new : NewSuccessor)
    (expiresAt : Nat) (retires : ∀ t, ok (.rotateSession session.id new.id t))
    (inserts : ∀ s : Session, s.userId = session.userId → s.userRole = session.userRole →
      ok (.insertSession s)) :
    Call.Plain ok (replaceSession session new expiresAt) := by
  refine Call.Plain.bind ?_ fun count => ?_
  · refine Call.Plain.bind (.read _ _) fun t => .stmt fun d ws _ result w member => ?_
    split at result
    · cases result
      cases member
    · split at result
      · split at result <;> cases result
        obtain rfl := List.mem_singleton.mp member
        exact retires t
      · cases result
        cases member
  · split
    · exact .pure _
    · refine Call.Plain.bind (.read _ _) fun t =>
        Call.Plain.bind (.stmt fun d ws _ result w member => ?_) fun _ => .pure _
      obtain ⟨-, rfl, -⟩ := insertSession_ok result
      obtain rfl := List.mem_singleton.mp member
      exact inserts _ rfl rfl

theorem replaceSession_gives (session : Session) (new : NewSuccessor) (expiresAt : Nat) :
    Call.Gives (fun r => ∀ s, r = some s → s.userId = session.userId ∧ s.userRole = session.userRole)
      (replaceSession session new expiresAt) := by
  refine Call.Gives.bind (.any _) fun count _ => ?_
  split
  · exact .pure (by simp)
  · refine Call.Gives.bind (.any _) fun t _ => ?_
    have inserted : Call.Gives (fun s => s = session.successor new expiresAt t)
        (step (insertSession (session.successor new expiresAt t))) :=
      .stmt fun d ws s result => (insertSession_ok result).2.2
    refine inserted.bind fun s same => .pure fun s' named => ?_
    obtain rfl := Option.some.inj named
    rw [same]
    exact ⟨rfl, rfl⟩

theorem rotateSession_onSessions (cfg : Config) (me : Nat) (rawToken : Text) (new : NewSuccessor) :
    OnSessions (rotateSession cfg me rawToken new) := by
  refine (admitToken_emits revokes_ofSessions cfg me rawToken).bind fun session => ?_
  refine Call.Emits.bind (.read _ _) fun t => Call.Emits.bind
    (.transaction (fun _ => trivial) (replaceSession_plain _ _ (fun _ => rfl) fun _ _ _ => rfl).emits) fun newSession => ?_
  cases newSession with
  | none => exact .throw _
  | some s => exact .pure _

theorem refreshToken_onSessions (cfg : Config) (me : Nat) (rawToken : Text)
    (successor : NewSuccessor) (upgrade : NewSession) :
    OnSessions (refreshToken cfg me rawToken successor upgrade) := by
  refine (rotateSession_onSessions cfg me rawToken successor).attempt.bind fun rotated => ?_
  cases rotated with
  | ok session => exact .pure _
  | error e =>
    simp only
    split
    · exact .throw _
    · refine Call.Emits.bind (.read _ _) fun t => ?_
      split
      · exact (createSession_onSessions _ _ _ _).bind fun _ => .pure _
      · exact .throw _

theorem loginWorker_onSessions (cfg : Config) (rawPhone : Text) (password : Nat)
    (new : NewSession) : OnSessions (loginWorker cfg rawPhone password new) := by
  refine (orThrow_emits _).bind fun phone => Call.Emits.bind (.read _ _) fun worker => ?_
  cases worker with
  | none => exact .throw _
  | some worker =>
    simp only
    split
    · exact .throw _
    · split
      · exact createSession_onSessions _ _ _ _
      · exact .throw _

/-- A login after its challenge has been claimed. -/
theorem login_onSessions (cfg : Config) (phone : Text) (purpose : Option Purpose)
    (challenge : Challenge) (new : NewSession) :
    OnSessions (login cfg phone purpose challenge new) := by
  refine Call.Emits.bind (.read _ _) fun customer => ?_
  cases customer with
  | some customer =>
    simp only
    split
    · exact .throw _
    · exact (createSession_onSessions _ _ _ _).bind fun _ => .pure _
  | none =>
    refine Call.Emits.bind (.read _ _) fun worker => ?_
    cases worker with
    | some worker =>
      simp only
      split
      · exact .throw _
      · exact (createSession_onSessions _ _ _ _).bind fun _ => .pure _
    | none =>
      simp only
      split
      · exact .pure _
      · exact .throw _

end LabourBaba.Auth
