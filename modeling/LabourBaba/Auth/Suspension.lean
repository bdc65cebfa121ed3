import LabourBaba.Auth.OtpConformance
import LabourBaba.Store.Effects
import LabourBaba.Store.Alone

/-!
# Suspended workers

A call is watched from its start, in a pool in which everybody else may do anything: a
worker whose account is closed stays closed, since no statement clears `deleted_at`, and the
watched call reads that before it opens a session. `verifyOtp`, `loginWorker` and the
rotation of a session look the account up; the legacy refresh token is traded for a session
without a look at the account.
-/
namespace LabourBaba.Auth

open Store

/-! ### Closed accounts -/

/-- The worker's account is closed: a suspension sets `deleted_at` with the status. -/
def Closed (workerId : Id) (d : Db) : Prop :=
  ∀ w ∈ d.workers, w.id = workerId → w.deletedAt.isSome = true

instance (workerId : Id) (d : Db) : Decidable (Closed workerId d) :=
  inferInstanceAs (Decidable (∀ w ∈ d.workers, _))

theorem closed_of_suspension (workerId : Id) (t : Nat) (d : Db) :
    Closed workerId ((Write.suspendWorker workerId t).apply d) := by
  intro w member mine
  obtain ⟨old, stored, rfl⟩ := Table.mem_modify.mp member
  split at mine
  next hit => simp [hit, Worker.suspend]
  next miss => exact absurd (by simpa using mine) miss

theorem Closed.apply {workerId : Id} {d : Db} (closed : Closed workerId d) (w : Write) :
    Closed workerId (w.apply d) := by
  cases w with
  | suspendWorker id t =>
    intro x member mine
    obtain ⟨old, stored, rfl⟩ := Table.mem_modify.mp member
    split at mine
    next hit => simp [hit, Worker.suspend]
    next miss =>
      rw [if_neg miss]
      exact closed old stored mine
  | reviewWorker id =>
    -- a review may lift the status, but not `deleted_at`
    intro x member mine
    obtain ⟨old, stored, rfl⟩ := Table.mem_modify.mp member
    split at mine
    next hit =>
      rw [if_pos hit]
      exact closed old stored mine
    next miss =>
      rw [if_neg miss]
      exact closed old stored mine
  | _ => exact closed

theorem Closed.applyAll {workerId : Id} {d : Db} (closed : Closed workerId d) (ws : List Write) :
    Closed workerId (applyAll ws d) := by
  induction ws generalizing d with
  | nil => exact closed
  | cons w ws ih => exact ih (closed.apply w)

/-! ### Sessions that are opened -/

/-- The session is one of the worker's. -/
def Session.ofWorker (workerId : Id) (s : Session) : Bool :=
  decide (s.userId = workerId ∧ s.userRole = .WORKER)

/-- The step from one store to the next creates an ACTIVE session for the worker. -/
def Opens (workerId : Id) (d d' : Db) : Prop :=
  ∃ s ∈ d'.sessions, s.ofWorker workerId = true ∧ s.status = .ACTIVE ∧
    ∀ x ∈ d.sessions, x.id ≠ s.id

/-- The write inserts no session for the worker. -/
def Write.spares (workerId : Id) : Write → Bool
  | .insertSession s => !s.ofWorker workerId
  | _ => true

def Write.onSession : Write → Session → Session
  | .rotateSession id newId t, s => if s.id ∈ [id] then s.rotated newId t else s
  | .revokeSessions ids reason t, s => if s.id ∈ ids then s.revoked reason t else s
  | _, s => s

theorem sessionEffects :
    Effects Db.sessions Write.onSession (fun w s => w = .insertSession s) where
  keeps w d s member := by
    cases w with
    | insertSession _ => exact Table.mem_insert_of_mem member
    | rotateSession _ _ _ | revokeSessions _ _ _ => exact Table.mem_modify.mpr ⟨s, member, rfl⟩
    | _ => exact member
  source w d s' member := by
    cases w with
    | insertSession s =>
      exact (Table.mem_insert member).imp (fun old => ⟨s', old, rfl⟩) (congrArg _ ·.symm)
    | rotateSession _ _ _ | revokeSessions _ _ _ => exact Or.inl (Table.mem_modify.mp member)
    | _ => exact Or.inl ⟨s', member, rfl⟩

/-- The columns that say whose session it is. -/
def Session.identity (s : Session) : Id × Id × UserRole := (s.id, s.userId, s.userRole)

theorem identity_onAll (ws : List Write) (s : Session) :
    (onAll Write.onSession ws s).identity = s.identity := by
  refine onAll_same Session.identity (fun w _ s => ?_) s
  cases w with
  | rotateSession _ _ _ | revokeSessions _ _ _ =>
    simp only [Write.onSession]
    split <;> rfl
  | _ => rfl

theorem not_opens_of_spares {workerId : Id} {ws : List Write}
    (spares : ∀ w ∈ ws, w.spares workerId = true) (d : Db) : ¬ Opens workerId d (applyAll ws d) := by
  rintro ⟨s', member, mine, -, fresh⟩
  rcases sessionEffects.of_mem_applyAll member with
    ⟨s, old, rfl⟩ | ⟨before, w, rest, s, split, rfl, rfl⟩
  · have same := congrArg Prod.fst (identity_onAll ws s)
    exact fresh s old same.symm
  · have spared := spares (.insertSession s) (by simp [split])
    have identity := identity_onAll rest s
    simp only [Session.identity, Prod.mk.injEq] at identity
    simp only [Session.ofWorker, identity, decide_eq_true_eq] at mine
    simp [Write.spares, Session.ofWorker, mine] at spared

/-! ### The watched call -/

/-- The worker's account is closed, and the watched call opens no session for it. Everybody
else may write anything. -/
def watching (workerId : Id) (watched : Nat) : Protocol Label Db where
  inv := Closed workerId
  pre _ _ := True
  guar i _ d d' := (∃ ws : List Write, d' = applyAll ws d) ∧ (i = watched → ¬ Opens workerId d d')
  evo _ _ _ := True
  evo_refl _ _ := trivial
  evo_trans _ _ _ _ _ _ := trivial
  guar_inv := by
    rintro _ _ d _ closed ⟨⟨ws, rfl⟩, -⟩
    exact closed.applyAll ws
  guar_evo _ _ _ _ _ _ _ _ := trivial

instance (workerId : Id) (watched : Nat) : (watching workerId watched).Lax := ⟨fun _ _ _ => trivial⟩

/-- The user and the role that the credentials in a reply are for. -/
def Outcome.grants : Outcome → Option (Id × UserRole)
  | .ok (.verified (.account userId role _)) => some (userId, role)
  | .ok (.session s) => some (s.userId, s.userRole)
  | .ok (.refreshed r) => some (r.session.userId, r.session.userRole)
  | _ => none

section Watched

variable {workerId : Id} {me : Nat} {α : Type}

/-- The call keeps to its part when it is watched, and what it returns has the property. -/
def Watched (workerId : Id) (me : Nat) (R : α → Prop) (c : Service α) : Prop :=
  ∀ d, Call.wp (watching workerId me) me (fun r tx _ => tx = none ∧ ∀ a, r = .ok a → R a) c none d

theorem does_of_spares {ws : List Write} (spares : ∀ w ∈ ws, w.spares workerId = true) (ℓ : Label)
    (d : Db) : (watching workerId me).Does me ℓ d (applyAll ws d) :=
  Or.inr ⟨⟨ws, rfl⟩, fun _ => not_opens_of_spares spares d⟩

/-- A call whose writes spare the worker in any store. -/
theorem watched_of_emits {ok : Write → Prop} {R : α → Prop} {c : Service α}
    (emits : Call.Emits ok (fun _ => True) false c) (spares : ∀ w, ok w → w.spares workerId = true)
    (gives : Call.Gives R c) : Watched workerId me R c := by
  intro d
  have safe : Call.Safe (watching workerId me) me c :=
    emits.safe fun ℓ d ws _ _ _ writes => does_of_spares (fun w member => spares w (writes w member)) ℓ d
  refine Call.wp_mono ?_ (wp_of_gives gives (safe d))
  rintro r tx d ⟨closed, holds⟩
  exact ⟨closed, holds⟩

theorem Watched.bind {β : Type} {R : α → Prop} {S : β → Prop} {c : Service α} {f : α → Service β}
    (first : Watched workerId me R c) (next : ∀ a, R a → Watched workerId me S (f a)) :
    Watched workerId me S (c >>= f) := by
  intro d
  rw [Call.wp_bind]
  refine Call.wp_mono ?_ (first d)
  rintro r tx d' ⟨rfl, holds⟩
  cases r with
  | ok a => exact next a (holds a rfl) d'
  | error e => exact ⟨rfl, by simp⟩

theorem Watched.mono {R S : α → Prop} {c : Service α} (watched : Watched workerId me R c)
    (weaker : ∀ a, R a → S a) : Watched workerId me S c := by
  intro d
  refine Call.wp_mono ?_ (watched d)
  rintro r tx d' ⟨closed, holds⟩
  exact ⟨closed, fun a same => weaker a (holds a same)⟩

theorem Watched.pure {R : α → Prop} {a : α} (holds : R a) :
    Watched workerId me R (Pure.pure a : Service α) :=
  fun _ => ⟨rfl, fun _ same => Except.ok.inj same ▸ holds⟩

theorem Watched.throw {R : α → Prop} (e : Failure) :
    Watched workerId me R (MonadExcept.throw e : Service α) :=
  fun _ => ⟨rfl, fun _ failed => by cases failed⟩

/-- A read of a store in which the worker's account is closed. -/
theorem Watched.query {f : Db → α} {R : α → Prop} (holds : ∀ d, Closed workerId d → R (f d)) :
    Watched workerId me R (query f) := by
  intro d d' rely _
  exact ⟨rfl, fun _ same => Except.ok.inj same ▸ holds d' rely.inv⟩

/-- Not the worker's. -/
def Other (workerId : Id) (user : Id × UserRole) : Prop := user ≠ (workerId, .WORKER)

theorem spares_insert {s : Session} {userId : Id} {role : UserRole}
    (other : Other workerId (userId, role)) (user : s.userId = userId) (sameRole : s.userRole = role) :
    (Write.insertSession s).spares workerId = true := by
  simp only [Write.spares, Session.ofWorker, user, sameRole, Bool.not_eq_true', decide_eq_false_iff_not]
  rintro ⟨rfl, rfl⟩
  exact other rfl

theorem createSession_watched (cfg : Config) {userId : Id} {role : UserRole} (new : NewSession)
    (other : Other workerId (userId, role)) :
    Watched workerId me (fun s => Other workerId (s.userId, s.userRole))
      (createSession cfg userId role new) := by
  have issued : Watched workerId me (fun s => s.userId = userId ∧ s.userRole = role)
      (createSession cfg userId role new) :=
    watched_of_emits (createSession_emits cfg new fun s => spares_insert other)
      (fun _ spares => spares) (createSession_gives cfg userId role new)
  refine issued.mono fun s mine => ?_
  rw [mine.1, mine.2]
  exact other

/-! ### Logins -/

theorem orThrow_watched (result : Except Failure α) :
    Watched workerId me (fun _ => True) (orThrow result) := by
  cases result with
  | ok a => exact .pure trivial
  | error e => exact .throw e

theorem now_watched : Watched workerId me (fun _ => True) now := .query fun _ _ => trivial

/-- An account that is open is not the worker's. -/
theorem other_of_open {w : Worker} {d : Db} (closed : Closed workerId d) (stored : w ∈ d.workers)
    (opened : w.deletedAt.isSome = false) : Other workerId (w.id, .WORKER) := by
  intro same
  have mine : w.id = workerId := (Prod.mk.inj same).1
  rw [closed w stored mine] at opened
  cases opened

/-- The look-up of a worker by phone finds nobody, or a row that says if it is closed. -/
theorem findWorker_watched (phone : Text) :
    Watched workerId me (fun found => ∀ w, found = some w → w.deletedAt.isSome = false →
        Other workerId (w.id, .WORKER))
      (query fun d => d.workers.find? fun w => decide (w.phone = phone)) :=
  .query fun _ closed _ found opened => other_of_open closed (List.mem_of_find?_eq_some found) opened

theorem loginWorker_watched (cfg : Config) (rawPhone : Text) (password : Nat) (new : NewSession) :
    Watched workerId me (fun s => Other workerId (s.userId, s.userRole))
      (loginWorker cfg rawPhone password new) := by
  refine (orThrow_watched _).bind fun phone _ => (findWorker_watched phone).bind fun found known => ?_
  cases found with
  | none => exact .throw _
  | some worker =>
    simp only
    split
    · exact .throw _
    next opened =>
      split
      · exact createSession_watched cfg new (known worker rfl (by simpa using (not_or.mp opened).1))
      · exact .throw _

/-- What `verifyOtp` grants. -/
def Verified.Spares (workerId : Id) : Verified → Prop
  | .account userId role _ => Other workerId (userId, role)
  | .phone _ => True

theorem login_watched (cfg : Config) (phone : Text) (purpose : Option Purpose)
    (challenge : Challenge) (new : NewSession) :
    Watched workerId me (Verified.Spares workerId) (login cfg phone purpose challenge new) := by
  refine Watched.bind (R := fun _ => True) (.query fun _ _ => trivial) fun customer _ => ?_
  cases customer with
  | some customer =>
    have other : Other workerId (customer.id, .CUSTOMER) := fun same => by
      cases (Prod.mk.inj same).2
    simp only
    split
    · exact .throw _
    · exact (createSession_watched cfg new other).bind fun _ _ => .pure other
  | none =>
    refine (findWorker_watched phone).bind fun found known => ?_
    cases found with
    | some worker =>
      simp only
      split
      · exact .throw _
      next opened =>
        have other := known worker rfl (by simpa using (not_or.mp opened).1)
        exact (createSession_watched cfg new other).bind fun _ _ => .pure other
    | none =>
      simp only
      split
      · exact .pure trivial
      · exact .throw _

theorem verifyOtp_watched (cfg : Config) (rawPhone : Text) (otp : Nat) (purpose : Option Purpose)
    (new : NewSession) :
    Watched workerId me (Verified.Spares workerId) (verifyOtp cfg rawPhone otp purpose new) := by
  refine (orThrow_watched _).bind fun phone _ => ?_
  have claims : Watched workerId me (fun _ => True) (verifyChallenge cfg phone otp purpose) := by
    refine watched_of_emits (verifyChallenge_onChallenges cfg phone otp purpose) ?_ (.any _)
    intro w about
    cases w <;> first | rfl | cases about
  exact claims.bind fun challenge _ => login_watched cfg phone purpose challenge new

/-! ### Refreshes -/

theorem revokes_spare (ids : List Id) (reason : RevokeReason) (t : Nat) (scope : Scope) :
    (Write.revokeSessions ids reason t).spares workerId = true ∧
      (Write.revocation scope).spares workerId = true :=
  ⟨rfl, rfl⟩

/-- A session whose account passes the check is not the worker's. -/
theorem checkAccount_watched (session : Session) :
    Watched workerId me (fun _ => Other workerId (session.userId, session.userRole))
      (checkAccount me session) := by
  have revoked : Watched workerId me (fun _ => True)
      (revokeFamilyByFamilyId me session.familyId .SUSPENDED) :=
    watched_of_emits (revokeFamily_emits revokes_spare _ _ _) (fun _ spares => spares) (.any _)
  have notWorker : session.userRole ≠ .WORKER →
      Other workerId (session.userId, session.userRole) :=
    fun role same => role (Prod.mk.inj same).2
  simp only [checkAccount]
  split
  next role =>
    -- the row of the account is the worker's only if the session is
    have looked : Watched workerId me (fun found : Option Worker => ∀ w, found = some w →
        w.deletedAt.isSome = false → Other workerId (session.userId, session.userRole))
        (query fun d => d.worker session.userId) := by
      refine .query fun d closed w found opened => ?_
      have named : w.id = session.userId := Table.find_key found
      rw [role, ← named]
      exact other_of_open closed (Table.mem_of_find found) opened
    refine looked.bind fun found known => ?_
    split
    · exact revoked.bind fun _ _ => .throw _
    next passed =>
      cases found with
      | none => simp at passed
      | some w => exact .pure (known w rfl (by simp_all))
  next role =>
    refine Watched.bind (R := fun _ => True) (.query fun _ _ => trivial) fun found _ => ?_
    split
    · exact revoked.bind fun _ _ => .throw _
    · exact .pure (notWorker (by rw [role]; decide))
  next role => exact .pure (notWorker (by rw [role]; decide))

theorem admitToken_watched (cfg : Config) (rawToken : Text) :
    Watched workerId me (fun s => Other workerId (s.userId, s.userRole))
      (admitToken cfg me rawToken) := by
  have revoked : ∀ familyId, Watched workerId me (fun _ => True)
      (revokeFamilyByFamilyId me familyId .REUSE) := fun familyId =>
    watched_of_emits (revokeFamily_emits revokes_spare _ _ _) (fun _ spares => spares) (.any _)
  simp only [admitToken]
  split
  · exact .throw _
  · refine Watched.bind (R := fun _ => True) (.query fun _ _ => trivial) fun found _ => ?_
    cases found with
    | none => exact .throw _
    | some session =>
      simp only
      split
      · exact (revoked session.familyId).bind fun _ _ => .throw _
      · refine now_watched.bind fun t _ => ?_
        split
        · exact .throw _
        · split
          · exact (checkAccount_watched session).bind fun _ other => .pure other
          · exact .throw _

theorem rotateSession_watched (cfg : Config) (rawToken : Text) (new : NewSuccessor) :
    Watched workerId me (fun s => Other workerId (s.userId, s.userRole))
      (rotateSession cfg me rawToken new) := by
  refine (admitToken_watched cfg rawToken).bind fun session other => now_watched.bind fun t _ => ?_
  have replaced : ∀ expiresAt, Watched workerId me
      (fun r => ∀ s, r = some s → s.userId = session.userId ∧ s.userRole = session.userRole)
      (Call.transaction rotationLabel (replaceSession session new expiresAt)) := fun expiresAt =>
    watched_of_emits
      (.transaction (fun _ => trivial) (replaceSession_plain new expiresAt (fun _ => rfl)
        fun s => spares_insert other).emits)
      (fun _ spares => spares) (.transaction (replaceSession_gives session new expiresAt))
  refine (replaced _).bind fun r user => ?_
  cases r with
  | none => exact .throw _
  | some s =>
    refine .pure ?_
    rw [(user s rfl).1, (user s rfl).2]
    exact other

/-- The call presents a legacy refresh token of the worker. -/
def Op.presentsLegacy (cfg : Config) (workerId : Id) : Op → Prop
  | .refreshToken rawToken _ _ => ∃ t, cfg.verifyRefreshToken t rawToken = some (workerId, .WORKER)
  | _ => False

theorem refreshToken_watched (cfg : Config) (rawToken : Text) (new : NewSuccessor)
    (upgrade : NewSession)
    (legacy : ∀ t, cfg.verifyRefreshToken t rawToken ≠ some (workerId, .WORKER)) :
    Watched workerId me (fun r => Other workerId (r.session.userId, r.session.userRole))
      (refreshToken cfg me rawToken new upgrade) := by
  have attempted : Watched workerId me (fun r => ∀ s, r = .ok s →
      Other workerId (s.userId, s.userRole)) (Call.attempt (rotateSession cfg me rawToken new)) := by
    intro d
    rw [Call.wp_attempt]
    refine Call.wp_mono ?_ (rotateSession_watched cfg rawToken new d)
    rintro r tx d' ⟨closed, holds⟩
    exact ⟨closed, fun a same => Except.ok.inj same ▸ holds⟩
  refine attempted.bind fun r known => ?_
  cases r with
  | ok s => exact .pure (known s rfl)
  | error e =>
    simp only
    split
    · exact .throw _
    · refine now_watched.bind fun t _ => ?_
      split
      next userId role verified =>
        have other : Other workerId (userId, role) := fun same => legacy t (same ▸ verified)
        exact (createSession_watched cfg upgrade other).bind fun s mine => .pure mine
      · exact .throw _

end Watched

/-! ### Calls that start after the suspension -/

/-- The calls that answer with credentials. -/
def Op.mints : Op → Bool
  | .verifyOtp _ _ _ _ | .loginWorker _ _ _ | .refreshToken _ _ _ => true
  | _ => false

theorem mints_watched (cfg : Config) {workerId : Id} {me : Nat} {op : Op} (mints : op.mints = true)
    (legacy : ¬ op.presentsLegacy cfg workerId) (d : Db) :
    Store.wp (watching workerId me) me (fun outcome _ _ => outcome.grants ≠ some (workerId, .WORKER))
      (system cfg me op) none d := by
  have replies : Watched workerId me
      (fun reply => Outcome.grants (.ok reply) ≠ some (workerId, .WORKER)) (serviceOf cfg me op) := by
    -- what a call grants is what its service has returned
    have grants : ∀ user, Other workerId user → some user ≠ some (workerId, UserRole.WORKER) :=
      fun user other same => other (Option.some.inj same)
    cases op with
    | verifyOtp rawPhone otp purpose new =>
      refine (verifyOtp_watched cfg rawPhone otp purpose new).bind fun result spares => ?_
      cases result with
      | phone phone => exact .pure (by simp [Outcome.grants])
      | account userId role session => exact .pure (grants _ spares)
    | loginWorker rawPhone password new =>
      exact (loginWorker_watched cfg rawPhone password new).bind fun s other =>
        .pure (grants _ other)
    | refreshToken rawToken new upgrade =>
      have unknown : ∀ t, cfg.verifyRefreshToken t rawToken ≠ some (workerId, .WORKER) :=
        fun t verified => legacy ⟨t, verified⟩
      exact (refreshToken_watched cfg rawToken new upgrade unknown).bind fun r other =>
        .pure (grants _ other)
    | _ => cases mints
  refine Store.wp_mono ?_ _ _ _ (replies d)
  rintro outcome tx d' ⟨-, holds⟩
  cases outcome with
  | error e => simp [Outcome.grants]
  | ok reply => exact holds reply rfl

/-- What the watched call may answer; nothing is asked of the others. -/
def grantsOther (workerId : Id) (watched i : Nat) (_ : Op) (outcome : Outcome) (_ : Db) : Prop :=
  i = watched → outcome.grants ≠ some (workerId, .WORKER)

section Runs

variable {cfg : Config} {p q r : AuthPool} {workerId : Id} {op : Op}

/-- Everybody else may do anything. -/
theorem bystander_verified {watched i : Nat} (other : i ≠ watched) (op : Op)
    (prog : Prog Label Db Write Key Outcome) (tx : Option (Tx Key Write)) (d : Db) :
    Store.wp (watching workerId watched) i
      (fun a _ d => grantsOther workerId watched i op a d) prog tx d := by
  have free : ∀ ℓ (ws : List Write) d, (watching workerId watched).inv d →
      (watching workerId watched).Does i ℓ d (applyAll ws d) :=
    fun _ ws _ _ => Or.inr ⟨⟨ws, rfl⟩, fun same => absurd same other⟩
  exact wp_any (fun _ _ _ same => absurd same other) free prog tx d

/-- The watched call keeps to its part, and so, trivially, does everybody else. -/
theorem watching_verified {watched : Nat} {ops : Nat → Option Op} (cast : ops watched = some op)
    (mints : op.mints = true) (legacy : ¬ op.presentsLegacy cfg workerId) :
    Pool.VerifiedAs (watching workerId watched) (grantsOther workerId watched) (system cfg) ops := by
  intro me op' mine d
  by_cases same : me = watched
  · subst same
    obtain rfl : op = op' := Option.some.inj (cast.symm.trans mine)
    exact Store.wp_mono (fun _ _ _ holds _ => holds) _ _ _ (mints_watched cfg mints legacy d)
  · exact bystander_verified same op' _ none d

/-- The calls that were already running when the watched call starts. -/
theorem watching_before (run : Reachable cfg p) (closed : Closed workerId p.db) :
    Pool.Sound (watching workerId p.threads.length) (grantsOther workerId p.threads.length) p := by
  refine (sound_of_runs run).heldTo closed fun i th found => ?_
  have below := (List.getElem?_eq_some_iff.mp found).1
  exact bystander_verified (Nat.ne_of_lt below) th.op th.prog th.tx p.db

/-- In every run, a call that starts when the worker's account is closed neither answers with
credentials for the worker nor creates an ACTIVE session for it, unless it presents a legacy
refresh token of the worker. -/
theorem suspended_worker_gets_nothing (run : Reachable cfg p) (closed : Closed workerId p.db)
    (mints : op.mints = true) (legacy : ¬ op.presentsLegacy cfg workerId)
    (later : Pool.Reaches (system cfg) (fun _ _ => True) (p.spawned (system cfg) op) q) :
    (∀ th outcome, q.threads[p.threads.length]? = some th →
        th.prog.returned = some outcome → outcome.grants ≠ some (workerId, .WORKER)) ∧
      ∀ answer r, q.step (system cfg) (.run p.threads.length answer) = some r →
        ¬ Opens workerId q.db r.db := by
  have spawns : p.step (system cfg) (.spawn op) = some (p.spawned (system cfg) op) := rfl
  have started := Pool.getElem?_spawned (system cfg) p op
  -- the run of the watched call, from the pool before it
  have reached : Pool.Reaches (system cfg) (fun _ _ => True) p q :=
    (Pool.Reaches.refl.step _ trivial spawns).trans later
  have before := watching_before run closed
  have unconditional : ∀ (p : AuthPool) (e : Event Op), True →
      Pool.Meets (watching workerId p.threads.length).pre p e := fun _ _ _ _ _ _ _ _ => trivial
  constructor
  · intro th outcome found returned
    obtain ⟨th₀, found₀, sameOp⟩ := later.op started
    have cast : q.ops p.threads.length = some op := by simp [Pool.ops, found₀, sameOp]
    refine reached.returnedAs (watching_verified cast mints legacy) unconditional before ?_ ?_
      q.casts_ops p.threads.length th outcome found returned rfl
    · exact fun _ _ _ _ _ _ _ _ promised _ => promised
    · intro i th a here _ same
      have below := (List.getElem?_eq_some_iff.mp here).1
      omega
  · intro answer r stepped opens
    obtain ⟨th₀, found₀, sameOp⟩ := (later.step _ trivial stepped).op started
    have cast : r.ops p.threads.length = some op := by simp [Pool.ops, found₀, sameOp]
    have verified := watching_verified cast mints legacy
    have sound := reached.soundAs verified unconditional (fun p e _ => .of_lax p e) before
      (r.casts_ops.of_step stepped)
    have next := sound.stepAs verified r.casts_ops (unconditional q _ trivial) (.of_lax q _) stepped
    rcases next.does with same | ⟨i, answer', ℓ, event, -, guar⟩
    · -- nothing was committed
      rw [same] at opens
      obtain ⟨s, member, -, -, fresh⟩ := opens
      exact fresh s member rfl
    · have mine : p.threads.length = i := (Event.run.inj event).1
      exact guar.2 mine.symm opens

end Runs

/-- A worker logs in and is suspended. -/
def suspending : List (Pool.Move Op) :=
  [.event (.spawn (.createSession 7 .WORKER ⟨1, 9, 97⟩)), .drive 0 true,
    .event (.spawn (.suspendWorker 7)), .drive 1 true]

theorem suspended_worker_cannot_login :
    let p := playedWith plainConfig [{ id := 7, phone := ['7'], password := 5 }] suspending
    let q := (p.spawned (system plainConfig) (.loginWorker ['7'] 5 ⟨2, 8, 97⟩)).after
      (system plainConfig) (fun _ _ => True) 40 [.drive 2 true]
    p.db.workers.map (·.suspended) = [true] ∧
      ∀ th outcome, q.threads[p.threads.length]? = some th → th.prog.returned = some outcome →
        outcome.grants ≠ some (7, .WORKER) := by
  intro p q
  refine ⟨by decide +kernel, (suspended_worker_gets_nothing (reachable_playedWith _ _ _) ?_ ?_ ?_
    (.after .refl 40 [.drive 2 true])).1⟩
  · decide +kernel
  · rfl
  · exact fun legacy => legacy

/-- A refresh token of the worker 7 from before the sessions. -/
def legacyConfig : Config :=
  { plainConfig with
    verifyRefreshToken := fun _ rawToken => if rawToken = ['j', 'w', 't'] then some (7, .WORKER) else none }

def suspendedPool : AuthPool :=
  playedWith legacyConfig [{ id := 7, phone := ['7'], password := 5 }] suspending

private theorem legacy_granted :
    (((suspendedPool.spawned (system legacyConfig)
        (.refreshToken ['j', 'w', 't'] ⟨2, 97⟩ ⟨3, 8, 97⟩)).after (system legacyConfig)
        (fun _ _ => True) 40 [.drive 2 true]).threads[suspendedPool.threads.length]?.any fun th =>
      th.prog.returned.any fun outcome => decide (outcome.grants = some (7, .WORKER))) = true := by
  decide +kernel

/-- A suspended worker trades a legacy refresh token for new credentials. -/
theorem legacy_token_readmits_worker :
    ¬ ∀ (p q : AuthPool) (workerId : Id) (op : Op), Reachable legacyConfig p →
      (p.db.worker workerId).any (fun w => w.suspended && w.deletedAt.isSome) = true →
      op.mints = true →
      Pool.Reaches (system legacyConfig) (fun _ _ => True) (p.spawned (system legacyConfig) op) q →
      ∀ th outcome, q.threads[p.threads.length]? = some th →
        th.prog.returned = some outcome → outcome.grants ≠ some (workerId, .WORKER) := by
  intro never
  obtain ⟨th, found, granted⟩ := (Option.any_eq_true _ _).mp legacy_granted
  obtain ⟨outcome, returned, grants⟩ := (Option.any_eq_true _ _).mp granted
  refine never suspendedPool _ 7 (.refreshToken ['j', 'w', 't'] ⟨2, 97⟩ ⟨3, 8, 97⟩)
    (reachable_playedWith _ _ _) ?_ rfl (.after .refl 40 [.drive 2 true]) th outcome found returned
    (of_decide_eq_true grants)
  decide +kernel

end LabourBaba.Auth
