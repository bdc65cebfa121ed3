import LabourBaba.Auth.SessionFamilies

/-!
# Revocations

A revocation has ended every ACTIVE session of its scope when it commits, unless a session
was opened there after its snapshot: the UPDATE of a family's or a user's sessions does not
see the row that a rotation or a login inserts meanwhile. In the runs without such a race a
revocation is final: a session of the scope is not opened again but by a login, which starts
a family of its own.
-/
namespace LabourBaba.Auth

open Store

/-- The session that a statement opens, if it commits. -/
def Label.opens : Label → Option Session
  | .loggedIn s | .rotated s => some s
  | _ => none

/-- The key is the mark of a revocation that the session belongs to. -/
def Key.marks : Key → Session → Bool
  | .snapshot _ scope, s => scope.covers s
  | _, _ => false

/-- A login draws a family that is not in use, and no session is opened in the scope of a
revocation that has taken its snapshot and not committed yet. -/
def Unraced (ℓ : Label) (locked : List Key) (d : Db) : Prop :=
  Fresh ℓ d ∧ (ℓ.opens.all fun s => locked.all fun k => !k.marks s) = true

instance (ℓ : Label) (locked : List Key) (d : Db) : Decidable (Unraced ℓ locked d) :=
  inferInstanceAs (Decidable (_ ∧ _))

/-- The runs of the system without such a race. -/
abbrev UnracedReaches (cfg : Config) : AuthPool → AuthPool → Prop :=
  Pool.Reaches (system cfg) (Pool.MeetsLocked Unraced)

theorem meets_of_unraced {p : AuthPool} {e : Event Op} (allowed : Pool.MeetsLocked Unraced p e) :
    Pool.Meets Fresh p e :=
  fun i answer ℓ run label => (allowed i answer ℓ run label).1

theorem respects_of_unraced {p : AuthPool} {e : Event Op}
    (allowed : Pool.MeetsLocked Unraced p e) : Pool.Respects (sessionProtocol True) p e := by
  intro i answer ℓ d' run label move k locked
  cases k with
  | snapshot call scope =>
    intro _ s' member covered
    rcases SessionMove.source move member with ⟨s, old, core, -⟩ | opening
    · exact ⟨s, old, core⟩
    · -- the session is opened under the mark of another call
      have unmarked := (allowed i answer ℓ run label).2
      have opened : ℓ.opens = some s' := by
        rcases opening with ⟨rfl, -⟩ | ⟨rfl, -⟩ <;> rfl
      rw [opened, Option.all_some, List.all_eq_true] at unmarked
      have clear := unmarked _ locked
      simp [Key.marks, covered] at clear
  | _ => trivial

section Runs

variable {cfg : Config} {customers : List Customer} {workers : List Worker} {p q r : AuthPool}

theorem unraced_sound (run : UnracedReaches cfg (start customers workers) p) :
    Pool.Sound (sessionProtocol True) (fun _ => rotationPromised) p :=
  run.soundRespecting (sessions_verified cfg True) (fun _ _ => meets_of_unraced)
    (fun _ _ => respects_of_unraced) (.empty (Families.initial rfl))

/-- No session of the scope is ACTIVE, but in a family that a later login has started. -/
def Ended (scope : Scope) (families : List Id) (d : Db) : Prop :=
  ∀ s ∈ d.sessions, scope.covers s = true → s.familyId ∈ families → s.status ≠ .ACTIVE

instance (scope : Scope) (families : List Id) (d : Db) : Decidable (Ended scope families d) :=
  inferInstanceAs (Decidable (∀ s ∈ d.sessions, _))

/-- The commit of a revocation leaves nothing ACTIVE in its scope. -/
theorem ended_of_revocation {ℓ : Label} {d d' : Db} {scope : Scope} (families : List Id)
    (move : SessionMove True ℓ d d') (committed : d'.revocations = d.revocations ++ [scope]) :
    Ended scope families d' := by
  have unrecorded : d'.revocations ≠ d.revocations := by
    rw [committed]
    exact fun same => by simp at same
  cases move with
  | still _ same | loggedIn _ same | rotated _ same | ended _ same => exact absurd same unrecorded
  | @revoked _ _ _ ids reason t scope' sessions recorded all =>
    obtain rfl : scope = scope' := by
      rw [committed] at recorded
      simpa using recorded
    intro s' member covered _ active
    rw [sessions] at member
    obtain ⟨s, stored, rfl⟩ := mem_revokedRows.mp member
    have ages := revoked_ages ids reason t s
    have taken := all trivial s stored ((ages.covers_eq scope).symm.trans covered)
      (ages.status active)
    simp [taken, Session.revoked] at active

/-- What has been ended stays so: only an ACTIVE session is rotated, and a login starts a
family that was not there. -/
theorem Ended.moved {strict : Prop} {ℓ : Label} {d d' : Db} {scope : Scope} {known : List Id}
    (stored : ∀ f ∈ known, ∃ x ∈ d.sessions, x.familyId = f) (ended : Ended scope known d)
    (move : SessionMove strict ℓ d d') : Ended scope known d' := by
  intro s' member covered inKnown active
  rcases move.source member with
    ⟨s, old, core, was⟩ | ⟨-, alone⟩ | ⟨-, old, here, wasActive, user, family⟩
  · have sameFamily : s'.familyId = s.familyId := congrArg (·.2.2.2) core
    exact ended s old ((covers_of_core core scope).symm.trans covered) (sameFamily ▸ inKnown)
      (was active)
  · obtain ⟨x, here, same⟩ := stored _ inKnown
    exact alone x here same
  · refine ended old here ?_ (family ▸ inKnown) wasActive
    cases scope with
    | family f => simpa [Scope.covers, family] using covered
    | user u => simpa [Scope.covers, user] using covered

/-- The families of the stored sessions. -/
def Db.families (d : Db) : List Id := d.sessions.map (·.familyId)

/-- In every run without a race, a revocation that commits is final: in every later committed
state no session of the family or of the user is ACTIVE, other than one of a family that a
later login has started. -/
theorem revocation_final {e : Event Op} {scope : Scope}
    (run : UnracedReaches cfg (start customers workers) p)
    (allowed : Pool.MeetsLocked Unraced p e) (stepped : p.step (system cfg) e = some q)
    (committed : q.db.revocations = p.db.revocations ++ [scope])
    (later : UnracedReaches cfg q r) : Ended scope q.db.families r.db := by
  have sound := unraced_sound run
  have next := sound.stepRespecting (sessions_verified cfg True) (meets_of_unraced allowed)
    (respects_of_unraced allowed) stepped
  have first : Ended scope q.db.families q.db := by
    rcases next.does with same | ⟨i, answer, ℓ, -, -, move⟩
    · rw [same] at committed
      simp at committed
    · exact ended_of_revocation _ move committed
  -- the families of `q` stay in the store, so no login draws one of them again
  have kept : Ended scope q.db.families r.db ∧
      ∀ f ∈ q.db.families, ∃ x ∈ r.db.sessions, x.familyId = f := by
    refine Pool.Reaches.invariantRespecting (sessions_verified cfg True)
      (fun _ _ => meets_of_unraced) (fun _ _ => respects_of_unraced)
      (fun d => Ended scope q.db.families d ∧ ∀ f ∈ q.db.families, ∃ x ∈ d.sessions, x.familyId = f)
      next.sound ⟨first, fun f member => List.mem_map.mp member⟩ ?_ later
    rintro i ℓ d d' families ⟨ended, stored⟩ move
    refine ⟨ended.moved stored move, fun f member => ?_⟩
    obtain ⟨x, here, same⟩ := stored f member
    obtain ⟨x', here', ages⟩ := SessionMove.later move families x here
    exact ⟨x', here', ages.family_eq.trans same⟩
  exact kept.1

end Runs

/-- A login and the revocation of its family, up to the commit. -/
def revoking : List (Pool.Move Op) :=
  [.event (.spawn (.createSession 5 .ADMIN ⟨1, 9, 97⟩)), .drive 0 true,
    .event (.spawn (.revokeFamilyByFamilyId 9 .REUSE)),
    .event (.run 1 true), .event (.run 1 true), .event (.run 1 true), .event (.run 1 true)]

private theorem revoking_commits :
    ((((start [] []).after (system plainConfig) (Pool.MeetsLocked Unraced) 40 revoking).step
      (system plainConfig) (.run 1 true)).any fun q =>
        decide (q.db.revocations = [.family 9] ∧ q.db.sessions.map (·.status) = [.REVOKED])) =
      true := by
  decide +kernel

private theorem revoking_before :
    ((start [] []).after (system plainConfig) (Pool.MeetsLocked Unraced) 40 revoking).db.revocations
      = [] := by
  decide +kernel

theorem revocation_final_alone : ∃ q : AuthPool,
    q.db.sessions.map (·.status) = [.REVOKED] ∧ Ended (.family 9) q.db.families q.db := by
  obtain ⟨q, stepped, facts⟩ := (Option.any_eq_true _ _).mp revoking_commits
  obtain ⟨recorded, statuses⟩ := of_decide_eq_true facts
  refine ⟨q, statuses, revocation_final (.after .refl 40 revoking) ?_ stepped ?_ .refl⟩
  · decide +kernel
  · rw [recorded, revoking_before, List.nil_append]

/-- A login, a rotation of its session up to the commit, and a revocation of the family that
takes its snapshot, waits for the rotation and updates the sessions that it has seen. -/
def rotationRevoked : List (Pool.Move Op) :=
  [.event (.spawn (.createSession 5 .ADMIN ⟨1, 9, 97⟩)), .drive 0 true,
    .event (.spawn (.rotateSession (rawToken '1' 'a') ⟨2, 97⟩)),
    .event (.run 1 true), .event (.run 1 true), .event (.run 1 true), .event (.run 1 true),
    .event (.run 1 true), .event (.run 1 true), .event (.run 1 true), .event (.run 1 true),
    .event (.spawn (.revokeFamilyByFamilyId 9 .REUSE)),
    .event (.run 2 true), .event (.run 2 true), .event (.run 2 true),
    .event (.run 1 true), .event (.run 2 true)]

private theorem rotationRevoked_commits :
    (((played Fresh rotationRevoked).step (system plainConfig) (.run 2 true)).any fun q =>
      decide (q.db.revocations = [.family 9] ∧ ¬ Ended (.family 9) q.db.families q.db)) = true := by
  decide +kernel

private theorem rotationRevoked_before : (played Fresh rotationRevoked).db.revocations = [] := by
  decide +kernel

/-- The successor of a session whose rotation was in flight stays ACTIVE. -/
theorem successor_survives_revocation :
    ¬ ∀ (p q r : AuthPool) (e : Event Op) (scope : Scope), Runs plainConfig Fresh p →
      p.step (system plainConfig) e = some q →
      q.db.revocations = p.db.revocations ++ [scope] →
      Pool.Reaches (system plainConfig) (Pool.Meets Fresh) q r →
      Ended scope q.db.families r.db := by
  intro final
  obtain ⟨q, stepped, facts⟩ := (Option.any_eq_true _ _).mp rotationRevoked_commits
  obtain ⟨recorded, survives⟩ := of_decide_eq_true facts
  refine survives (final _ q q (.run 2 true) (.family 9) (runs_played Fresh rotationRevoked)
    stepped ?_ .refl)
  rw [recorded, rotationRevoked_before, List.nil_append]

end LabourBaba.Auth
