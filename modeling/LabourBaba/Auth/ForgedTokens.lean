import LabourBaba.Auth.OtpConformance
import LabourBaba.Auth.SessionFamilies
import LabourBaba.Store.Alone

/-!
# Tokens with a wrong secret

`rotateSession` looks at the status of the session that a token names before it compares the
secret: a token that names a ROTATED or REVOKED session makes it revoke the family, whatever
secret it carries. A call that runs alone is computed to its end, and the sessions that it
leaves are compared with those that it found.
-/
namespace LabourBaba.Auth

open Store

/-! ### Session identifiers -/

theorem uniqueSessions_apply {d : Db} (unique : Table.Unique Session.id d.sessions) (w : Write) :
    Table.Unique Session.id (w.apply d).sessions := by
  cases w with
  | insertSession s => exact Table.unique_insert s (fun old same => decide_eq_true same) unique
  | rotateSession id newId t =>
    exact Table.unique_modify [id] (Session.rotated newId t) (fun _ => rfl) unique
  | revokeSessions ids reason t =>
    exact Table.unique_modify ids (Session.revoked reason t) (fun _ => rfl) unique
  | _ => exact unique

theorem uniqueSessions_applyAll {d : Db} (unique : Table.Unique Session.id d.sessions)
    (ws : List Write) : Table.Unique Session.id (applyAll ws d).sessions := by
  induction ws generalizing d with
  | nil => exact unique
  | cons w ws ih => exact ih (uniqueSessions_apply unique w)

/-- The primary key, in every committed state of every run. -/
theorem uniqueSessions_of_runs {cfg : Config} {cond : Label → Db → Prop} {p : AuthPool}
    (run : Runs cfg cond p) : Table.Unique Session.id p.db.sessions :=
  invariant_of_runs (fun d => Table.Unique Session.id d.sessions) (fun _ _ => List.nodup_nil)
    (fun _ _ ws _ unique _ _ => uniqueSessions_applyAll unique ws) run

/-! ### What a wrong secret does -/

/-- A property of the secret of a token and of the session that it names, if it names one. -/
def OfNamed (rawToken : Text) (d : Db) (P : Text → Session → Prop) : Prop :=
  ∀ id secret s, parseRawToken rawToken = some (id, secret) → d.session id = some s → P secret s

section OfNamed

variable {rawToken secret : Text} {d : Db} {P : Text → Session → Prop} {id : Id} {s : Session}

theorem ofNamed_of_unparsed (parsed : parseRawToken rawToken = none) : OfNamed rawToken d P := by
  intro id secret s named
  rw [parsed] at named
  cases named

theorem ofNamed_of_absent (parsed : parseRawToken rawToken = some (id, secret))
    (absent : d.session id = none) : OfNamed rawToken d P := by
  intro id' secret' s named found
  rw [parsed] at named
  obtain ⟨rfl, rfl⟩ := Prod.mk.inj (Option.some.inj named)
  rw [absent] at found
  cases found

theorem ofNamed_iff (parsed : parseRawToken rawToken = some (id, secret))
    (found : d.session id = some s) : OfNamed rawToken d P ↔ P secret s := by
  constructor
  · exact fun holds => holds id secret s parsed found
  · intro holds id' secret' s' named found'
    rw [parsed] at named
    obtain ⟨rfl, rfl⟩ := Prod.mk.inj (Option.some.inj named)
    obtain rfl := Option.some.inj (found.symm.trans found')
    exact holds

instance [∀ secret s, Decidable (P secret s)] : Decidable (OfNamed rawToken d P) :=
  match parsed : parseRawToken rawToken with
  | none => .isTrue (ofNamed_of_unparsed parsed)
  | some (id, secret) =>
    match found : d.session id with
    | none => .isTrue (ofNamed_of_absent parsed found)
    | some s => decidable_of_iff (P secret s) (ofNamed_iff parsed found).symm

end OfNamed

/-- The secret of the token is not that of the session that it names. -/
abbrev WrongSecret (cfg : Config) (rawToken : Text) (d : Db) : Prop :=
  OfNamed rawToken d fun secret s => cfg.compareSecret secret s.tokenHash = false

/-- If the token names a session that is no longer in use, its whole family is revoked. -/
abbrev NamesNoLiveFamily (rawToken : Text) (d : Db) : Prop :=
  OfNamed rawToken d fun _ s => s.status = .ROTATED ∨ s.status = .REVOKED →
    ∀ x ∈ d.sessions, x.familyId = s.familyId → x.status = .REVOKED

section Alone

variable {d : Db} {answer : Bool} {me : Nat}

/-- The sessions that the revocation of a family takes. -/
def takenIds (d : Db) (scope : Scope) : List Id :=
  (d.inScope scope).filter fun id => (d.session id).any scope.selects

theorem mem_takenIds (unique : Table.Unique Session.id d.sessions) {scope : Scope} {s : Session}
    (member : s ∈ d.sessions) : s.id ∈ takenIds d scope ↔ scope.selects s = true := by
  have found : d.session s.id = some s := Table.find_of_mem unique member
  simp only [takenIds, List.mem_filter, found, Option.any_some]
  constructor
  · exact fun taken => taken.2
  · exact fun selected => ⟨List.mem_map.mpr ⟨s, List.mem_filter.mpr ⟨member, selected⟩, rfl⟩, selected⟩

/-- A revocation that runs alone. -/
theorem revokeFamily_result {Q : Except Failure Nat → Option (Tx Key Write) → Db → Prop}
    {familyId : Id} {reason : RevokeReason} :
    Call.result answer Q (revokeFamilyByFamilyId me familyId reason) none d =
      Q (.ok (takenIds d (.family familyId)).length) none
        (applyAll [.revokeSessions (takenIds d (.family familyId)) reason d.now,
          .revocation (.family familyId)] d) := by
  simp only [revokeFamilyByFamilyId, revokeWhere, now, query, step, Call.result_bind,
    Call.result_read, Call.resultThen_ok, Call.result_transaction, Call.result_lock,
    Call.result_stmt, Call.afterStmt_ok, Call.resultEnd, Tx.view_none, Tx.view_some, applyAll_nil,
    Tx.add_writes, List.nil_append]
  rfl

/-- Revoking a family leaves the sessions as they are just if they are all revoked already. -/
theorem revokedRows_eq_self (unique : Table.Unique Session.id d.sessions) (familyId : Id)
    (reason : RevokeReason) (t : Nat) :
    revokedRows d.sessions (takenIds d (.family familyId)) reason t = d.sessions ↔
      ∀ x ∈ d.sessions, x.familyId = familyId → x.status = .REVOKED := by
  have selects : ∀ x : Session, (Scope.family familyId).selects x = true ↔
      x.familyId = familyId ∧ x.status ≠ .REVOKED := by
    intro x
    simp [Scope.selects, Scope.covers, Scope.takes]
  constructor
  · intro same x member mine
    by_contra live
    -- the session is taken, so its row changes
    have taken := (mem_takenIds unique member).mpr ((selects x).mpr ⟨mine, live⟩)
    have unchanged : ∀ y ∈ d.sessions, (if y.id ∈ takenIds d (.family familyId) then
        y.revoked reason t else y) = y := by
      have rows : d.sessions.map (fun y => if y.id ∈ takenIds d (.family familyId) then
          y.revoked reason t else y) = d.sessions.map id := by
        rw [List.map_id]
        exact same
      exact List.map_inj_left.mp rows
    have row := unchanged x member
    rw [if_pos taken] at row
    exact live (congrArg Session.status row).symm
  · intro revoked
    refine (List.map_congr_left fun x member => ?_).trans (List.map_id _)
    rw [if_neg, id]
    intro taken
    obtain ⟨mine, live⟩ := (selects x).mp ((mem_takenIds unique member).mp taken)
    exact live (revoked x member mine)

/-- A rotation with a wrong secret that runs alone throws, and leaves the sessions as they were
just if it names no live family. -/
theorem rotateSession_result (cfg : Config) {rawToken : Text} (new : NewSuccessor)
    (unique : Table.Unique Session.id d.sessions) (wrong : WrongSecret cfg rawToken d) :
    Call.result answer (fun r _ d' => (∃ e, r = .error e) ∧ d'.sessions = d.sessions)
      (rotateSession cfg me rawToken new) none d ↔ NamesNoLiveFamily rawToken d := by
  simp only [rotateSession, admitToken, Call.result_bind]
  cases parsed : parseRawToken rawToken with
  | none =>
    simp only [Call.result_throw, Call.resultThen_error]
    exact iff_of_true ⟨⟨_, rfl⟩, trivial⟩ (ofNamed_of_unparsed parsed)
  | some token =>
    obtain ⟨sessionId, secret⟩ := token
    simp only [query, now, Call.result_bind, Call.result_read, Call.resultThen_ok, Tx.view_none]
    cases found : d.session sessionId with
    | none =>
      simp only [Call.result_throw, Call.resultThen_error]
      exact iff_of_true ⟨⟨_, rfl⟩, trivial⟩ (ofNamed_of_absent parsed found)
    | some session =>
      rw [NamesNoLiveFamily, ofNamed_iff parsed found]
      simp only
      split
      next ended =>
        -- a session that has ended is reused: its family is revoked, whatever the secret
        simp only [Call.result_bind, revokeFamily_result, Call.resultThen_ok, Call.result_throw,
          Call.resultThen_error, forall_const, ended]
        have rows := revokedRows_eq_self unique session.familyId .REUSE d.now
        exact ⟨fun left => rows.mp left.2, fun revoked => ⟨⟨_, rfl⟩, rows.mpr revoked⟩⟩
      next live =>
        -- a live session is refused for its secret alone
        have vacuous : session.status = .ROTATED ∨ session.status = .REVOKED →
            ∀ x ∈ d.sessions, x.familyId = session.familyId → x.status = .REVOKED :=
          fun ended => absurd ended live
        have mismatch : cfg.compareSecret secret session.tokenHash = false :=
          wrong sessionId secret session parsed found
        simp only [Call.result_bind, Call.result_read, Call.resultThen_ok, Tx.view_none, mismatch]
        split
        · exact iff_of_true ⟨⟨_, rfl⟩, rfl⟩ vacuous
        · exact iff_of_true ⟨⟨_, rfl⟩, rfl⟩ vacuous

end Alone

/-- The call of the system fails just if the rotation does, with the same store. -/
theorem rotateOp_result (cfg : Config) (me : Nat) (rawToken : Text) (new : NewSuccessor)
    (answer : Bool) (d : Db) :
    Call.result answer (fun r _ d' => (∃ e, r = .error e) ∧ d'.sessions = d.sessions)
        (serviceOf cfg me (.rotateSession rawToken new)) none d ↔
      Call.result answer (fun r _ d' => (∃ e, r = .error e) ∧ d'.sessions = d.sessions)
        (rotateSession cfg me rawToken new) none d := by
  simp only [serviceOf, Call.result_bind]
  simp only [Call.result]
  cases ((rotateSession cfg me rawToken new).run.alone answer none d).1 with
  | error e => simp [Call.resultThen]
  | ok s => simp [Call.resultThen]

/-- A rotation with a wrong secret that runs alone, in any reachable state, throws and leaves
every session as it was exactly when the token does not name a ROTATED or REVOKED session of a
family that is still in use. -/
theorem wrong_secret_changes_nothing {cfg : Config} {p : AuthPool} (run : Reachable cfg p)
    (idle : p.Idle) {rawToken : Text} (wrong : WrongSecret cfg rawToken p.db) (new : NewSuccessor)
    (answer : Bool) :
    (∃ e d, p.Leaves (system cfg) answer (.rotateSession rawToken new) (.error e) d ∧
      d.sessions = p.db.sessions) ↔ NamesNoLiveFamily rawToken p.db := by
  refine Iff.trans ?_ ((rotateOp_result cfg p.threads.length rawToken new answer p.db).trans
    (rotateSession_result cfg new (uniqueSessions_of_runs run) wrong))
  simp only [Pool.leaves_iff idle]
  constructor
  · rintro ⟨e, d, ⟨failed, rfl⟩, same⟩
    exact ⟨⟨e, failed.symm⟩, same⟩
  · rintro ⟨⟨e, failed⟩, same⟩
    exact ⟨e, _, ⟨failed.symm, rfl⟩, same⟩

/-- A session and its rotation; the client keeps the second token. -/
def rotatedOnce : List (Pool.Move Op) :=
  [.event (.spawn (.createSession 5 .ADMIN ⟨1, 9, 97⟩)), .drive 0 true,
    .event (.spawn (.rotateSession (rawToken '1' 'a') ⟨2, 97⟩)), .drive 1 true]

private theorem rotatedOnce_idle : (playedWith plainConfig [] rotatedOnce).Idle := by
  unfold Pool.Idle
  decide +kernel

/-- A wrong secret for the session in use changes nothing. -/
theorem wrong_secret_session_in_use :
    let p := playedWith plainConfig [] rotatedOnce
    ∃ e d, p.Leaves (system plainConfig) true (.rotateSession (rawToken '2' 'b') ⟨3, 97⟩)
      (.error e) d ∧ d.sessions = p.db.sessions :=
  (wrong_secret_changes_nothing (reachable_playedWith _ _ _) rotatedOnce_idle
    (by decide +kernel) _ _).mpr (by decide +kernel)

/-- A wrong secret for the session that was rotated revokes the session in use. -/
theorem wrong_secret_revokes_family :
    ¬ ∀ (p : AuthPool) (rawToken : Text) (new : NewSuccessor) (answer : Bool),
      Reachable plainConfig p → p.Idle → WrongSecret plainConfig rawToken p.db →
      ∃ e d, p.Leaves (system plainConfig) answer (.rotateSession rawToken new) (.error e) d ∧
        d.sessions = p.db.sessions := by
  intro unchanged
  obtain ⟨e, d, left, same⟩ := unchanged _ (rawToken '1' 'b') ⟨3, 97⟩ true
    (reachable_playedWith plainConfig [] rotatedOnce) rotatedOnce_idle (by decide +kernel)
  obtain ⟨-, rfl⟩ := (Pool.leaves_iff rotatedOnce_idle _ _ _).mp left
  revert same
  decide +kernel

end LabourBaba.Auth
