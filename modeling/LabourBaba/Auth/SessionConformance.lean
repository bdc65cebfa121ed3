import LabourBaba.Auth.SessionCommits

/-!
# Session services keep to the protocol

`sessionProtocol` lets a call move the sessions as `SessionMove` describes and count on
`SessionsLater` in between. The transaction of a rotation holds both its rows from its
statements to the commit, so the session that it retires is still ACTIVE there. A revocation
holds the rows that it has selected, but not those that it has not seen: what its mark stands
for (`Key.keeps`) is up to the schedule.
-/
namespace LabourBaba.Auth

open Store

/-- A login draws a family that no stored session has. -/
def Fresh : Label → Db → Prop
  | .loggedIn s, d => ∀ x ∈ d.sessions, x.familyId ≠ s.familyId
  | _, _ => True

instance : ∀ ℓ d, Decidable (Fresh ℓ d)
  | .loggedIn s, d => inferInstanceAs (Decidable (∀ x ∈ d.sessions, x.familyId ≠ s.familyId))
  | .step, _ | .issued _ _, _ | .deliveryFailed _, _ | .compared _ _, _ | .counted _, _
  | .locked _, _ | .claimed _ _, _ | .rotated _, _ | .ticked, _ => .isTrue trivial

theorem covers_of_core {s s' : Session} (core : s'.core = s.core) (scope : Scope) :
    scope.covers s' = scope.covers s := by
  simp only [Session.core, Prod.mk.injEq] at core
  cases scope <;> simp [Scope.covers, core]

/-- What the mark of a revocation stands for: nobody opens a session of its scope. -/
def Key.keeps (strict : Prop) : Key → Db → Db → Prop
  | .snapshot _ scope, d, d' => strict → ∀ s' ∈ d'.sessions, scope.covers s' = true →
      ∃ s ∈ d.sessions, s'.core = s.core
  | _, _, _ => True

def sessionProtocol (strict : Prop) : Protocol Label Db where
  inv := Families
  pre := Fresh
  guar _ := SessionMove strict
  evo _ := SessionsLater
  evo_refl _ := SessionsLater.refl
  evo_trans _ _ _ _ := SessionsLater.trans
  guar_inv _ _ _ _ families move := families.moved move
  guar_evo _ _ _ _ _ _ families move := move.later families
  keeps := Key.keeps strict
  keeps_refl k d := by
    cases k with
    | snapshot call scope => exact fun _ s member _ => ⟨s, member, rfl⟩
    | _ => trivial
  keeps_trans k d d' d'' first second := by
    cases k with
    | snapshot call scope =>
      intro promised s'' member covered
      obtain ⟨s', member', core'⟩ := second promised s'' member covered
      obtain ⟨s, old, core⟩ :=
        first promised s' member' ((covers_of_core core' scope).symm.trans covered)
      exact ⟨s, old, core'.trans core⟩
    | _ => trivial

instance : (sessionProtocol False).Lax where
  keeps k d d' := by
    cases k with
    | snapshot call scope => exact False.elim
    | _ => trivial

abbrev KeepsFamilies {α : Type} (strict : Prop) (me : Nat) (c : Service α) : Prop :=
  Call.Safe (sessionProtocol strict) me c

section Services

variable {strict : Prop} {me : Nat} {d : Db}

theorem does_of_move {ℓ : Label} {d' : Db} (move : SessionMove strict ℓ d d') :
    (sessionProtocol strict).Does me ℓ d d' :=
  Or.inr move

theorem still_applyAll {ws : List Write} (about : ∀ w ∈ ws, w.ofChallenges = true) (d : Db) :
    (applyAll ws d).sessions = d.sessions ∧ (applyAll ws d).revocations = d.revocations := by
  induction ws generalizing d with
  | nil => exact ⟨rfl, rfl⟩
  | cons w ws ih =>
    have rest := ih (fun v member => about v (List.mem_cons_of_mem _ member)) (w.apply d)
    have first := about w List.mem_cons_self
    rw [applyAll_cons]
    cases w <;> first | exact rest | cases first

/-- The services of challenges leave the sessions as they are. -/
theorem onChallenges_keepsFamilies {α : Type} {c : Service α} (onChallenges : OnChallenges c) :
    KeepsFamilies strict me c := by
  refine Call.Emits.safe (fun ℓ d ws _ _ _ about => ?_) onChallenges
  obtain ⟨sessions, revocations⟩ := still_applyAll about d
  exact does_of_move (.still sessions revocations)

theorem orThrow_keepsFamilies {α : Type} (result : Except Failure α) :
    KeepsFamilies strict me (orThrow result) := by
  cases result with
  | ok a => exact .pure a
  | error e => exact .throw e

theorem sessions_insert {s : Session} (fresh : d.session s.id = none) :
    (Write.apply (.insertSession s) d).sessions = d.sessions ++ [s] := by
  refine Table.insert_of_free fun old member => decide_eq_false fun same => ?_
  exact Table.find_none_iff.mp fresh old member same.symm

theorem createSession_keepsFamilies (cfg : Config) (userId : Id) (role : UserRole)
    (new : NewSession) : KeepsFamilies strict me (createSession cfg userId role new) := by
  refine Call.Safe.bind (.read _ _) fun t => .stmt fun d ws s _ alone result => ?_
  obtain ⟨fresh, rfl, rfl⟩ := insertSession_ok result
  exact does_of_move (.loggedIn (sessions_insert fresh) rfl fresh alone rfl)

theorem revokeSession_keepsFamilies (sessionId userId : Id) (reason : RevokeReason) :
    KeepsFamilies strict me (revokeSession sessionId userId reason) := by
  refine Call.Safe.bind (.read _ _) fun t => .stmt fun d ws n _ _ result => ?_
  split at result
  · cases result
    exact Or.inl rfl
  · split at result
    · cases result
      exact does_of_move (.ended rfl rfl)
    · cases result
      exact Or.inl rfl

theorem revokeByRawToken_keepsFamilies (rawToken : Text) (userId : Id) :
    KeepsFamilies strict me (revokeByRawToken rawToken userId) := by
  simp only [revokeByRawToken]
  split
  · exact .pure _
  · exact revokeSession_keepsFamilies _ _ _

/-! ### Revocations -/

/-- Of the sessions in scope, those that were ACTIVE at the commit were so at the snapshot and
at the update, which has taken them. -/
theorem taken_of_active {scope : Scope} {d₁ d₂ d₃ : Db} {call : Nat}
    (families₂ : Families d₂) (families₃ : Families d₃)
    (kept : Key.keeps strict (.snapshot call scope) d₁ d₃) (later₁ : SessionsLater d₁ d₂)
    (later₂ : SessionsLater d₂ d₃) (promised : strict) {s : Session} (member : s ∈ d₃.sessions)
    (covered : scope.covers s = true) (active : s.status = .ACTIVE) :
    s.id ∈ (d₁.inScope scope).filter fun id => (d₂.session id).any scope.selects := by
  obtain ⟨s₁, stored₁, core⟩ := kept promised s member covered
  obtain ⟨s₂, stored₂, ages₁⟩ := later₁ s₁ stored₁
  obtain ⟨s₃, stored₃, ages₂⟩ := later₂ s₂ stored₂
  have sameId : s.id = s₁.id := congrArg Prod.fst core
  obtain rfl : s = s₃ :=
    families₃.eq_of_id member stored₃ (by rw [ages₂.id_eq, ages₁.id_eq, sameId])
  have takes : ∀ x : Session, x.status = .ACTIVE → scope.takes x.status = true := by
    intro x still
    cases scope <;> simp [Scope.takes, still]
  have active₂ := ages₂.status active
  have active₁ := ages₁.status active₂
  have covered₂ : scope.covers s₂ = true := (ages₂.covers_eq scope).symm.trans covered
  have covered₁ : scope.covers s₁ = true := (ages₁.covers_eq scope).symm.trans covered₂
  have found₂ : d₂.session s.id = some s₂ := by
    rw [← ages₂.id_eq.symm]
    exact Table.find_of_mem families₂.ids stored₂
  refine List.mem_filter.mpr ⟨?_, ?_⟩
  · refine List.mem_map.mpr ⟨s₁, List.mem_filter.mpr ⟨stored₁, ?_⟩, sameId.symm⟩
    simp [Scope.selects, covered₁, takes s₁ active₁]
  · simp [found₂, Scope.selects, covered₂, takes s₂ active₂]

/-- A revocation in a transaction that has not touched the sessions before: from then on the
transaction may commit. -/
theorem revokeWhere_inTx {Q : Except Failure Nat → Option (Tx Key Write) → Db → Prop}
    {t : Tx Key Write} {scope : Scope} {reason : RevokeReason} {revokedAt : Nat}
    (before : ∀ d : Db, (applyAll t.writes d).sessions = d.sessions ∧
      (applyAll t.writes d).revocations = d.revocations)
    (done : ∀ n t' d₁, (∀ ℓ d', (sessionProtocol strict).Rely me t'.locks d₁ d' →
      (sessionProtocol strict).Does me ℓ d' (applyAll t'.writes d')) → Q (.ok n) (some t') d₁) :
    Call.wp (sessionProtocol strict) me Q (revokeWhere me scope reason revokedAt) (some t) d := by
  simp only [revokeWhere, step, Call.wp_bind]
  refine Call.lock_inTx fun d₁ t₁ rely₁ _ grows₁ held => ?_
  rw [Call.andThen_ok]
  refine Call.stmt_inTx (fun d₂ t₂ ws n rely₂ _ result grows₂ _ => ?_) fun _ _ _ _ result => by
    cases result
  cases result
  refine done _ _ _ fun ℓ d₃ rely₃ => ?_
  have marked := held (.snapshot me scope) List.mem_cons_self
  have view₁ : (applyAll t.writes d₁).inScope scope = d₁.inScope scope := by
    simp only [Db.inScope, (before d₁).1]
  have view₂ : ∀ id, (applyAll t₁.writes d₂).session id = d₂.session id := by
    intro id
    simp only [Db.session, grows₁.same, (before d₂).1]
  rw [grows₂.writes, grows₁.same, applyAll_append]
  have revoked : ∀ ids, (applyAll [.revokeSessions ids reason revokedAt, .revocation scope]
      (applyAll t.writes d₃)).sessions = revokedRows d₃.sessions ids reason revokedAt :=
    fun ids => congrArg (revokedRows · ids reason revokedAt) (before d₃).1
  have recorded : ∀ ids, (applyAll [.revokeSessions ids reason revokedAt, .revocation scope]
      (applyAll t.writes d₃)).revocations = d₃.revocations ++ [scope] :=
    fun _ => congrArg (· ++ [scope]) (before d₃).2
  refine does_of_move (.revoked (revoked _) (recorded _) fun promised s member covered active => ?_)
  have kept : Key.keeps strict (.snapshot me scope) d₁ d₃ :=
    (sessionProtocol strict).keeps_trans _ _ _ _ (rely₂.kept _ marked)
      (rely₃.kept _ (grows₂.kept _ marked))
  have taken := taken_of_active rely₂.inv rely₃.inv kept rely₂.evo rely₃.evo promised
    member covered active
  rw [grows₁.same] at view₂
  simpa only [view₁, view₂] using taken

theorem revokeTransaction_keepsFamilies (scope : Scope) (reason : RevokeReason) :
    KeepsFamilies strict me (do
      let revokedAt ← now
      Call.transaction (fun _ => .step) (revokeWhere me scope reason revokedAt)) := by
  refine Call.Safe.bind (.read _ _) fun t => .transaction fun d => ?_
  refine revokeWhere_inTx (fun _ => ⟨rfl, rfl⟩) fun n t' d₁ commits => ?_
  exact fun d' rely _ => commits .step d' rely

theorem revokeFamily_keepsFamilies (familyId : Id) (reason : RevokeReason) :
    KeepsFamilies strict me (revokeFamilyByFamilyId me familyId reason) :=
  revokeTransaction_keepsFamilies (.family familyId) reason

theorem revokeAll_keepsFamilies (userId : Id) (reason : RevokeReason) :
    KeepsFamilies strict me (revokeAllUserSessions me userId reason) :=
  revokeTransaction_keepsFamilies (.user userId) reason

theorem suspendWorker_keepsFamilies (workerId : Id) :
    KeepsFamilies strict me (suspendWorker me workerId) := by
  refine Call.Safe.bind (.read _ _) fun existing => ?_
  cases existing with
  | none => exact .throw _
  | some _ =>
    refine Call.Safe.bind (.read _ _) fun t => .transaction fun d => ?_
    rw [Call.wp_bind]
    refine Call.stmt_inTx (fun d₁ t₁ ws _ _ _ result grows₁ _ => ?_) fun _ _ _ _ _ => trivial
    rw [Call.andThen_ok, Call.wp_bind]
    have written : t₁.writes = [.suspendWorker workerId t] := by
      rw [grows₁.writes]
      split at result <;> cases result
      rfl
    refine revokeWhere_inTx (fun d => ?_) fun n t' d₂ commits => ?_
    · rw [written]
      exact ⟨rfl, rfl⟩
    · exact fun d' rely _ => commits .step d' rely

theorem verifyWorkerDocument_keepsFamilies (workerId : Id) :
    KeepsFamilies strict me (verifyWorkerDocument workerId) := by
  refine Call.Safe.bind .choose fun pending => ?_
  split
  · refine .stmt fun d ws _ _ _ result => ?_
    split at result <;> cases result
    exact does_of_move (.still rfl rfl)
  · exact .throw _

/-! ### Rotations -/

theorem checkAccount_keepsFamilies (session : Session) :
    KeepsFamilies strict me (checkAccount me session) := by
  simp only [checkAccount]
  split
  · refine Call.Safe.bind (.read _ _) fun worker => ?_
    split
    · exact (revokeFamily_keepsFamilies _ _).bind fun _ => .throw _
    · exact .pure _
  · refine Call.Safe.bind (.read _ _) fun customer => ?_
    split
    · exact (revokeFamily_keepsFamilies _ _).bind fun _ => .throw _
    · exact .pure _
  · exact .pure _

/-- The session is one that has been read, or a later version of it is stored now. -/
def Known (s : Session) (d : Db) : Prop := ∃ x ∈ d.sessions, s.Ages x

theorem Known.later {s : Session} {d' : Db} (known : Known s d) (later : SessionsLater d d') :
    Known s d' := by
  obtain ⟨x, member, ages⟩ := known
  obtain ⟨x', member', ages'⟩ := later x member
  exact ⟨x', member', ages.trans ages'⟩

theorem knowing {α : Type} {c : Service α} (s : Session) (safe : KeepsFamilies strict me c) :
    Call.SafeUnder (sessionProtocol strict) me (Known s) c :=
  .of_safe (fun _ _ _ rely known => known.later rely.evo)
    (fun _ _ _ families move known => known.later (move.later families)) safe

/-- The token names a session, which `admitToken` has found. -/
theorem admitToken_known (cfg : Config) (rawToken : Text) (d : Db) :
    Call.wp (sessionProtocol strict) me (fun r tx d => tx = none ∧ ∀ s, r = .ok s →
        Known s d ∧ ∃ secret, parseRawToken rawToken = some (s.id, secret))
      (admitToken cfg me rawToken) none d := by
  simp only [admitToken]
  split
  · exact ⟨rfl, by simp⟩
  next sessionId secret parsed =>
    simp only [query, now, Call.wp_bind, Call.wp_read, Tx.view_none, Tx.held_none]
    intro d₁ rely₁ _
    rw [Call.andThen_ok]
    cases found : d₁.session sessionId with
    | none => exact ⟨rfl, by simp⟩
    | some session =>
      have known : Known session d₁ := ⟨session, Table.mem_of_find found, .refl _⟩
      have named : session.id = sessionId := Table.find_key found
      simp only
      split
      · -- a reused token: the family is revoked and nothing is admitted
        rw [Call.wp_bind]
        refine Call.wp_mono ?_ (revokeFamily_keepsFamilies session.familyId .REUSE d₁)
        rintro r tx d₂ rfl
        cases r <;> exact ⟨rfl, by simp⟩
      · simp only [Call.wp_bind, Call.wp_read, Tx.held_none, Tx.view_none]
        intro d₂ rely₂ _
        rw [Call.andThen_ok]
        split
        · exact ⟨rfl, by simp⟩
        · split
          · rw [Call.wp_bind]
            have checked : Call.SafeUnder (sessionProtocol strict) me (Known session) _ :=
              knowing session (checkAccount_keepsFamilies session)
            refine Call.wp_mono ?_ (checked d₂ (known.later rely₂.evo))
            rintro r tx d₃ ⟨rfl, still⟩
            cases r with
            | error e => exact ⟨rfl, by simp⟩
            | ok _ =>
              refine ⟨rfl, fun s same => ?_⟩
              obtain rfl : session = s := Except.ok.inj same
              exact ⟨still, secret, by rw [parsed, named]⟩
          · exact ⟨rfl, by simp⟩

/-- A session that has been rotated to another one. -/
def Replaced (id newId : Id) (d : Db) : Prop :=
  ∃ x ∈ d.sessions, x.id = id ∧ x.rotatedToId = some newId

theorem Replaced.later {id newId : Id} {d' : Db} (replaced : Replaced id newId d)
    (later : SessionsLater d d') : Replaced id newId d' := by
  obtain ⟨x, member, mine, named⟩ := replaced
  obtain ⟨x', member', ages⟩ := later x member
  exact ⟨x', member', ages.id_eq.trans mine, ages.successor newId named⟩

/-- A rotation changes no identifier. -/
theorem session_rotate_none {id newId other : Id} {t : Nat} :
    ((Write.rotateSession id newId t).apply d).session other = none ↔ d.session other = none := by
  have rewritten : ((Write.rotateSession id newId t).apply d).session other =
      (d.session other).map fun s => if other ∈ [id] then s.rotated newId t else s :=
    Table.find_modify _ _ (Session.rotated newId t) _ fun _ => rfl
  rw [rewritten, Option.map_eq_none_iff]

/-- The move that the transaction of a rotation commits: the row that it has retired is still
the one that it found, and its own is new. -/
theorem rotation_move {session row : Session} {new : NewSuccessor} {expiresAt lastUsedAt t : Nat}
    (found : d.session session.id = some row) (active : row.status = .ACTIVE)
    (ages : session.Ages row) (fresh : d.session new.id = none) {d' : Db}
    (committed : d' = applyAll [.rotateSession session.id new.id t,
      .insertSession (session.successor new expiresAt lastUsedAt)] d) :
    SessionMove strict (.rotated (session.successor new expiresAt lastUsedAt)) d d' ∧
      Replaced session.id new.id d' := by
  have mine : row.id = session.id := Table.find_key found
  have stored := Table.mem_of_find found
  have sessions : d'.sessions = Table.modify Session.id d.sessions [row.id]
      (Session.rotated new.id t) ++ [session.successor new expiresAt lastUsedAt] := by
    rw [committed, mine]
    exact sessions_insert (session_rotate_none.mpr fresh)
  constructor
  · have owner : session.userId = row.userId ∧ session.userRole = row.userRole :=
      ⟨ages.user_eq.symm, ages.role_eq.symm⟩
    exact .rotated sessions (committed ▸ rfl) stored active fresh owner ages.family_eq.symm rfl
  · refine ⟨row.rotated new.id t, ?_, mine, rfl⟩
    rw [sessions]
    exact List.mem_append_left _ (Table.mem_modify.mpr ⟨row, stored, by simp⟩)

theorem replaceSession_inTx (session : Session) (new : NewSuccessor) (expiresAt : Nat)
    (known : Known session d) :
    Call.wp (sessionProtocol strict) me (Call.inTx fun r t d => ∀ d',
        (sessionProtocol strict).Rely me t.locks d d' →
        (sessionProtocol strict).pre (rotationLabel r) d' →
        (sessionProtocol strict).Does me (rotationLabel r) d' (applyAll t.writes d') ∧
          (r.isSome = true → Replaced session.id new.id (applyAll t.writes d')))
      (replaceSession session new expiresAt) (some {}) d := by
  simp only [replaceSession, retireSession, now, query, step, Call.wp_bind, Call.wp_read,
    Tx.view_some, Tx.held_some]
  intro d₁ rely₁ _
  rw [Call.andThen_ok]
  refine Call.stmt_inTx (fun d₂ t₂ ws n rely₂ _ result grows₂ locks₂ => ?_) fun _ _ _ _ _ => trivial
  rw [applyAll_nil] at result
  -- nothing was ACTIVE under the identifier: the transaction commits nothing
  have conflict : ∀ {t : Tx Key Write} {d₃ : Db}, t.writes = [] →
      Call.inTx (E := Failure) (fun (r : Option Session) t d => ∀ d',
        (sessionProtocol strict).Rely me t.locks d d' →
        (sessionProtocol strict).pre (rotationLabel r) d' →
        (sessionProtocol strict).Does me (rotationLabel r) d' (applyAll t.writes d') ∧
          (r.isSome = true → Replaced session.id new.id (applyAll t.writes d')))
        (.ok none) (some t) d₃ := by
    intro t d₃ empty d' _ _
    rw [empty]
    exact ⟨Or.inl rfl, fun some => by cases some⟩
  cases found : d₂.session session.id with
  | none =>
    simp only [found] at result
    cases result
    exact conflict grows₂.same
  | some row =>
    simp only [found] at result
    split at result
    next active =>
      split at result
      · cases result
      · cases result
        simp only [Call.andThen_ok, Nat.one_ne_zero, if_false, Call.wp_bind, Call.wp_read,
          Tx.held_some]
        intro d₃ rely₃ _
        refine Call.stmt_inTx (fun d₄ t₄ ws s rely₄ _ result grows₄ locks₄ => ?_)
          fun _ _ _ _ _ => trivial
        obtain ⟨fresh, rfl, rfl⟩ := insertSession_ok result
        rw [Call.andThen_ok, Call.wp_pure]
        intro d₅ rely₅ _
        rw [grows₄.writes, grows₂.writes]
        -- both rows are locked until the commit
        have heldOld := locks₂ _ List.mem_cons_self (.session session.id) (by simp [Write.keys])
        have heldNew := locks₄ _ List.mem_cons_self (.session new.id)
          (by simp [Write.keys, Session.successor])
        have found₅ : d₅.session session.id = some row := by
          have same₃ : d₃.session session.id = d₂.session session.id := rely₃.rows _ heldOld
          have same₄ : d₄.session session.id = d₃.session session.id := rely₄.rows _ heldOld
          have same₅ : d₅.session session.id = d₄.session session.id :=
            rely₅.rows _ (grows₄.kept _ heldOld)
          rw [same₅, same₄, same₃, found]
        have fresh₅ : d₅.session new.id = none := by
          have same : d₅.session new.id = d₄.session new.id := rely₅.rows _ heldNew
          rw [grows₂.writes] at fresh
          exact same.trans (session_rotate_none.mp fresh)
        have ages : session.Ages row := by
          obtain ⟨x, member, ages⟩ := (known.later rely₁.evo).later rely₂.evo
          rwa [← Table.eq_of_find rely₂.inv.ids found member ages.id_eq]
        obtain ⟨move, replaced⟩ := rotation_move found₅ active ages fresh₅ rfl
        exact ⟨does_of_move move, fun _ => replaced⟩
    next =>
      cases result
      exact conflict grows₂.same

theorem rotateSession_replaces (cfg : Config) (rawToken : Text) (new : NewSuccessor) (d : Db) :
    Call.wp (sessionProtocol strict) me (fun r tx d => tx = none ∧ ∀ s, r = .ok s →
        ∀ id secret, parseRawToken rawToken = some (id, secret) → Replaced id new.id d)
      (rotateSession cfg me rawToken new) none d := by
  simp only [rotateSession, Call.wp_bind]
  refine Call.wp_mono ?_ (admitToken_known cfg rawToken d)
  rintro r tx d₁ ⟨rfl, admitted⟩
  cases r with
  | error e => exact ⟨rfl, by simp⟩
  | ok session =>
    obtain ⟨known, secret, parsed⟩ := admitted session rfl
    simp only [Call.andThen_ok, now, query, Call.wp_bind, Call.wp_read, Tx.held_none]
    intro d₂ rely₂ _
    refine Call.transaction_ends (fun d₃ rely₃ => ?_) fun _ _ => ⟨rfl, by simp⟩
    refine Call.wp_mono ?_ (replaceSession_inTx session new _
      ((known.later rely₂.evo).later rely₃.evo))
    intro r tx d₄ ended
    cases r with
    | error e => trivial
    | ok successor =>
      cases tx with
      | none => cases ended
      | some t =>
        intro d₅ rely₅ pre
        obtain ⟨does, replaced⟩ := ended d₅ rely₅ pre
        refine ⟨does, ?_⟩
        cases successor with
        | none => exact ⟨rfl, by simp⟩
        | some s =>
          refine ⟨rfl, fun _ _ id other same => ?_⟩
          rw [parsed] at same
          obtain ⟨rfl, -⟩ := Prod.mk.inj (Option.some.inj same)
          exact replaced rfl

theorem refreshToken_replaces (cfg : Config) (rawToken : Text) (new : NewSuccessor)
    (upgrade : NewSession) (d : Db) :
    Call.wp (sessionProtocol strict) me (fun r tx d => tx = none ∧ ∀ s, r = .ok (.rotated s) →
        ∀ id secret, parseRawToken rawToken = some (id, secret) → Replaced id new.id d)
      (refreshToken cfg me rawToken new upgrade) none d := by
  simp only [refreshToken, Call.wp_bind, Call.wp_attempt]
  refine Call.wp_mono ?_ (rotateSession_replaces cfg rawToken new d)
  rintro r tx d₁ ⟨rfl, replaced⟩
  rw [Call.andThen_ok]
  cases r with
  | ok session => exact ⟨rfl, fun s _ => replaced session rfl⟩
  | error e =>
    simp only
    split
    · exact ⟨rfl, by simp⟩
    · simp only [now, query, Call.wp_bind, Call.wp_read, Tx.held_none]
      intro d₂ rely₂ _
      rw [Call.andThen_ok]
      split
      · rw [Call.wp_bind]
        refine Call.wp_mono ?_ (createSession_keepsFamilies cfg _ _ upgrade d₂)
        rintro r tx d₃ rfl
        cases r <;> exact ⟨rfl, by simp⟩
      · exact ⟨rfl, by simp⟩

/-! ### Logins -/

theorem loginWorker_keepsFamilies (cfg : Config) (rawPhone : Text) (password : Nat)
    (new : NewSession) : KeepsFamilies strict me (loginWorker cfg rawPhone password new) := by
  refine (orThrow_keepsFamilies _).bind fun phone => Call.Safe.bind (.read _ _) fun worker => ?_
  cases worker with
  | none => exact .throw _
  | some worker =>
    simp only
    split
    · exact .throw _
    · split
      · exact createSession_keepsFamilies _ _ _ _
      · exact .throw _

theorem login_keepsFamilies (cfg : Config) (phone : Text) (purpose : Option Purpose)
    (challenge : Challenge) (new : NewSession) :
    KeepsFamilies strict me (login cfg phone purpose challenge new) := by
  refine Call.Safe.bind (.read _ _) fun customer => ?_
  cases customer with
  | some customer =>
    simp only
    split
    · exact .throw _
    · exact (createSession_keepsFamilies _ _ _ _).bind fun _ => .pure _
  | none =>
    refine Call.Safe.bind (.read _ _) fun worker => ?_
    cases worker with
    | some worker =>
      simp only
      split
      · exact .throw _
      · exact (createSession_keepsFamilies _ _ _ _).bind fun _ => .pure _
    | none =>
      simp only
      split
      · exact .pure _
      · exact .throw _

theorem verifyOtp_keepsFamilies (cfg : Config) (rawPhone : Text) (otp : Nat)
    (purpose : Option Purpose) (new : NewSession) :
    KeepsFamilies strict me (verifyOtp cfg rawPhone otp purpose new) :=
  (orThrow_keepsFamilies _).bind fun _ =>
    (onChallenges_keepsFamilies (verifyChallenge_onChallenges _ _ _ _)).bind fun _ =>
      login_keepsFamilies _ _ _ _ _

end Services

/-! ### The system -/

/-- The session that a call is to rotate, with the one that is to take over. -/
def Op.rotates : Op → Option (Id × Id)
  | .rotateSession rawToken new | .refreshToken rawToken new _ =>
    (parseRawToken rawToken).map fun token => (token.1, new.id)
  | _ => none

/-- The call has rotated the session. -/
def Outcome.rotated : Outcome → Bool
  | .ok (.refreshed (.rotated _)) => true
  | _ => false

/-- What a call that has returned says about the store. -/
def rotationPromised (op : Op) (outcome : Outcome) (d : Db) : Prop :=
  ∀ id newId, op.rotates = some (id, newId) → outcome.rotated = true → Replaced id newId d

theorem promised_of_replaced {op : Op} {rawToken : Text} {new : NewSuccessor} {outcome : Outcome}
    {d : Db} (rotates : op.rotates = (parseRawToken rawToken).map fun token => (token.1, new.id))
    (replaced : outcome.rotated = true →
      ∀ id secret, parseRawToken rawToken = some (id, secret) → Replaced id new.id d) :
    rotationPromised op outcome d := by
  intro id newId named done
  rw [rotates] at named
  obtain ⟨⟨id', secret⟩, parsed, same⟩ := Option.map_eq_some_iff.mp named
  obtain ⟨rfl, rfl⟩ := Prod.mk.inj same
  exact replaced done id' secret parsed

theorem sessions_verified (cfg : Config) (strict : Prop) :
    Pool.Verified (sessionProtocol strict) (fun _ => rotationPromised) (system cfg) := by
  intro me op d
  -- what is promised of a call that rotates nothing
  have idle : op.rotates = none → ∀ {α : Type} {c : Service α} {reply : α → Reply},
      KeepsFamilies strict me c → Store.wp (sessionProtocol strict) me
        (fun outcome _ d => rotationPromised op outcome d)
        (do let a ← c; pure (reply a) : Service Reply).run none d := by
    intro none α c reply safe
    refine Store.wp_mono (fun _ _ _ _ id newId named => ?_) _ _ _ (safe.bind (fun _ => .pure _) d)
    rw [none] at named
    cases named
  cases op with
  | sendOtp rawPhone purpose new =>
    exact idle rfl (onChallenges_keepsFamilies (sendOtp_onChallenges _ _ _ _))
  | verifyOtp rawPhone otp purpose new => exact idle rfl (verifyOtp_keepsFamilies _ _ _ _ _)
  | loginWorker rawPhone password new => exact idle rfl (loginWorker_keepsFamilies _ _ _ _)
  | createSession userId role new => exact idle rfl (createSession_keepsFamilies _ _ _ _)
  | rotateSession rawToken new =>
    change Call.wp _ me _ (rotateSession cfg me rawToken new >>= _) none d
    rw [Call.wp_bind]
    refine Call.wp_mono ?_ (rotateSession_replaces cfg rawToken new d)
    rintro r tx d₁ ⟨-, replaced⟩
    cases r with
    | error e => exact fun _ _ _ failed => by cases failed
    | ok s => exact promised_of_replaced rfl fun _ => replaced s rfl
  | refreshToken rawToken new upgrade =>
    change Call.wp _ me _ (refreshToken cfg me rawToken new upgrade >>= _) none d
    rw [Call.wp_bind]
    refine Call.wp_mono ?_ (refreshToken_replaces cfg rawToken new upgrade d)
    rintro r tx d₁ ⟨-, replaced⟩
    cases r with
    | error e => exact fun _ _ _ failed => by cases failed
    | ok result =>
      cases result with
      | rotated s => exact promised_of_replaced rfl fun _ => replaced s rfl
      | upgraded s => exact fun _ _ _ failed => by cases failed
  | revokeSession sessionId userId reason => exact idle rfl (revokeSession_keepsFamilies _ _ _)
  | revokeByRawToken rawToken userId => exact idle rfl (revokeByRawToken_keepsFamilies _ _)
  | revokeAllUserSessions userId reason => exact idle rfl (revokeAll_keepsFamilies _ _)
  | revokeFamilyByFamilyId familyId reason => exact idle rfl (revokeFamily_keepsFamilies _ _)
  | suspendWorker workerId => exact idle rfl (suspendWorker_keepsFamilies _)
  | verifyWorkerDocument workerId => exact idle rfl (verifyWorkerDocument_keepsFamilies _)
  | tick ms =>
    exact fun d₁ _ _ => ⟨does_of_move (.still rfl rfl), fun _ _ named => by cases named⟩

end LabourBaba.Auth
