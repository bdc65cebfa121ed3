import LabourBaba.Auth.Footprints
import LabourBaba.Store.Linked

/-!
# What the session statements may commit

One constructor of `SessionMove` for each way in which a commit may leave the sessions. A
login opens a session in a family of its own, a rotation replaces the ACTIVE session at the
end of its family, and a revocation ends sessions wherever they stand. `Families.moved` is
the step lemma: the sessions of each family stay linked by `rotated_to_id` in the order of
their creation, and only the last of them may be ACTIVE.

A revocation is known to have reached every ACTIVE session of its scope only if nobody has
opened one since its snapshot. `strict` says whether the schedule promises that.
-/
namespace LabourBaba.Auth

open Store

/-! ### Growth -/

/-- The columns that no UPDATE sets. -/
def Session.core (s : Session) : Id × Id × UserRole × Id :=
  (s.id, s.userId, s.userRole, s.familyId)

/-- A later version of a session. -/
structure Session.Ages (s s' : Session) : Prop where
  core : s'.core = s.core
  status : s'.status = .ACTIVE → s.status = .ACTIVE
  successor : ∀ id, s.rotatedToId = some id → s'.rotatedToId = some id

namespace Session.Ages

variable {s s' s'' : Session}

theorem refl (s : Session) : s.Ages s := ⟨rfl, fun active => active, fun _ named => named⟩

theorem trans (first : s.Ages s') (second : s'.Ages s'') : s.Ages s'' where
  core := second.core.trans first.core
  status active := first.status (second.status active)
  successor id named := second.successor id (first.successor id named)

theorem id_eq (ages : s.Ages s') : s'.id = s.id := congrArg Prod.fst ages.core

theorem user_eq (ages : s.Ages s') : s'.userId = s.userId := congrArg (·.2.1) ages.core

theorem role_eq (ages : s.Ages s') : s'.userRole = s.userRole := congrArg (·.2.2.1) ages.core

theorem family_eq (ages : s.Ages s') : s'.familyId = s.familyId := congrArg (·.2.2.2) ages.core

theorem covers_eq (ages : s.Ages s') (scope : Scope) : scope.covers s' = scope.covers s := by
  cases scope with
  | family f => simp [Scope.covers, ages.family_eq]
  | user u => simp [Scope.covers, ages.user_eq]

end Session.Ages

def SessionsLater (d d' : Db) : Prop := ∀ s ∈ d.sessions, ∃ s' ∈ d'.sessions, s.Ages s'

theorem SessionsLater.refl (d : Db) : SessionsLater d d := fun s member => ⟨s, member, .refl s⟩

theorem SessionsLater.trans {d d' d'' : Db} (first : SessionsLater d d')
    (second : SessionsLater d' d'') : SessionsLater d d'' := by
  intro s member
  obtain ⟨s', member', ages⟩ := first s member
  obtain ⟨s'', member'', ages'⟩ := second s' member'
  exact ⟨s'', member'', ages.trans ages'⟩

/-! ### Moves -/

/-- The stored sessions with the ones of some identifiers revoked. -/
def revokedRows (sessions : List Session) (ids : List Id) (reason : RevokeReason) (t : Nat) :
    List Session :=
  Table.modify Session.id sessions ids (Session.revoked reason t)

theorem mem_revokedRows {sessions : List Session} {ids : List Id} {reason : RevokeReason} {t : Nat}
    {s' : Session} : s' ∈ revokedRows sessions ids reason t ↔
      ∃ s ∈ sessions, s' = if s.id ∈ ids then s.revoked reason t else s :=
  Table.mem_modify

inductive SessionMove (strict : Prop) : Label → Db → Db → Prop
  | still {ℓ : Label} {d d' : Db} (sessions : d'.sessions = d.sessions)
      (revocations : d'.revocations = d.revocations) : SessionMove strict ℓ d d'
  | loggedIn {d d' : Db} {s : Session} (sessions : d'.sessions = d.sessions ++ [s])
      (revocations : d'.revocations = d.revocations) (fresh : d.session s.id = none)
      (alone : ∀ x ∈ d.sessions, x.familyId ≠ s.familyId) (last : s.rotatedToId = none) :
    SessionMove strict (.loggedIn s) d d'
  | rotated {d d' : Db} {old s : Session} {t : Nat}
      (sessions : d'.sessions =
        Table.modify Session.id d.sessions [old.id] (Session.rotated s.id t) ++ [s])
      (revocations : d'.revocations = d.revocations) (stored : old ∈ d.sessions)
      (active : old.status = .ACTIVE) (fresh : d.session s.id = none)
      (owner : s.userId = old.userId ∧ s.userRole = old.userRole) (family : s.familyId = old.familyId)
      (last : s.rotatedToId = none) :
    SessionMove strict (.rotated s) d d'
  /-- `revokeSession`. -/
  | ended {ℓ : Label} {d d' : Db} {ids : List Id} {reason : RevokeReason} {t : Nat}
      (sessions : d'.sessions = revokedRows d.sessions ids reason t)
      (revocations : d'.revocations = d.revocations) : SessionMove strict ℓ d d'
  | revoked {ℓ : Label} {d d' : Db} {ids : List Id} {reason : RevokeReason} {t : Nat}
      {scope : Scope} (sessions : d'.sessions = revokedRows d.sessions ids reason t)
      (revocations : d'.revocations = d.revocations ++ [scope])
      (all : strict → ∀ s ∈ d.sessions, scope.covers s = true → s.status = .ACTIVE → s.id ∈ ids) :
    SessionMove strict ℓ d d'

/-! ### The invariant of the sessions -/

/-- The sessions of a family, in the order of their creation. -/
def Db.family (d : Db) (familyId : Id) : List Session :=
  d.sessions.filter fun s => decide (s.familyId = familyId)

structure Families (d : Db) : Prop where
  ids : Table.Unique Session.id d.sessions
  owner : ∀ a ∈ d.sessions, ∀ b ∈ d.sessions, a.familyId = b.familyId →
    a.userId = b.userId ∧ a.userRole = b.userRole
  linked : ∀ familyId, Linked Session.id Session.rotatedToId (d.family familyId)
  active : ∀ s ∈ d.sessions, s.status = .ACTIVE → s.rotatedToId = none

theorem Families.initial {d : Db} (empty : d.sessions = []) : Families d where
  ids := by simp [Table.Unique, empty]
  owner := by simp [empty]
  linked familyId := by simpa [Db.family, empty] using Linked.nil
  active := by simp [empty]

namespace Families

variable {d d' : Db} (families : Families d)

include families

theorem eq_of_id {a b : Session} (here : a ∈ d.sessions) (there : b ∈ d.sessions)
    (same : a.id = b.id) : a = b :=
  Table.eq_of_find families.ids (Table.find_of_mem families.ids there) here same

/-- Rewriting sessions in place keeps the families, if it only takes sessions out of use. -/
theorem rewritten {f : Session → Session} (sessions : d'.sessions = d.sessions.map f)
    (ages : ∀ s : Session, s.Ages (f s)) (successor : ∀ s, (f s).rotatedToId = s.rotatedToId) :
    Families d' where
  ids := by
    have keys : Session.id ∘ f = Session.id := funext fun s => (ages s).id_eq
    simpa [Table.Unique, sessions, keys] using families.ids
  owner := by
    rw [sessions]
    simp only [List.mem_map]
    rintro _ ⟨a, here, rfl⟩ _ ⟨b, there, rfl⟩ same
    rw [(ages a).family_eq, (ages b).family_eq] at same
    rw [(ages a).user_eq, (ages b).user_eq, (ages a).role_eq, (ages b).role_eq]
    exact families.owner a here b there same
  linked familyId := by
    have selected : d'.family familyId = (d.family familyId).map f := by
      simp only [Db.family, sessions, List.filter_map]
      congr 2
      funext s
      simp [(ages s).family_eq]
    rw [selected]
    exact (families.linked familyId).map (fun s => (ages s).id_eq) successor
  active := by
    rw [sessions]
    simp only [List.mem_map]
    rintro _ ⟨s, member, rfl⟩ active
    rw [successor]
    exact families.active s member ((ages s).status active)

theorem unique_concat {sessions : List Session} {s : Session}
    (keys : sessions.map Session.id = d.sessions.map Session.id) (fresh : d.session s.id = none) :
    Table.Unique Session.id (sessions ++ [s]) := by
  have absent := Table.find_none_iff.mp fresh
  have distinct : (d.sessions.map Session.id).Nodup := families.ids
  simp only [Table.Unique, List.map_append, List.map_cons, List.map_nil, keys]
  refine List.nodup_append.mpr ⟨distinct, by simp, ?_⟩
  intro other stored new single same
  obtain ⟨x, member, rfl⟩ := List.mem_map.mp stored
  exact absent x member (same.trans (List.mem_singleton.mp single))

/-- A login starts a family. -/
theorem opened {s : Session} (sessions : d'.sessions = d.sessions ++ [s])
    (fresh : d.session s.id = none) (alone : ∀ x ∈ d.sessions, x.familyId ≠ s.familyId)
    (last : s.rotatedToId = none) : Families d' where
  ids := by
    rw [sessions]
    exact families.unique_concat rfl fresh
  owner := by
    rw [sessions]
    simp only [List.mem_append, List.mem_singleton]
    rintro a (here | rfl) b (there | rfl) same
    · exact families.owner a here b there same
    · exact absurd same (alone a here)
    · exact absurd same.symm (alone b there)
    · exact ⟨rfl, rfl⟩
  linked familyId := by
    by_cases mine : s.familyId = familyId
    · -- nobody else is in the family
      have before : d.family familyId = [] :=
        List.filter_eq_nil_iff.mpr fun x member => by simpa [← mine] using alone x member
      have after : d'.family familyId = [s] := by
        simp only [Db.family] at before
        simp [Db.family, sessions, List.filter_append, before, mine]
      rw [after]
      exact .singleton last
    · have after : d'.family familyId = d.family familyId := by
        simp [Db.family, sessions, List.filter_append, mine]
      rw [after]
      exact families.linked familyId
  active := by
    rw [sessions]
    simp only [List.mem_append, List.mem_singleton]
    rintro x (here | rfl) active
    · exact families.active x here active
    · exact last

/-- A rotation replaces the end of a family. -/
theorem replaced {old s : Session} {t : Nat}
    (sessions : d'.sessions =
      Table.modify Session.id d.sessions [old.id] (Session.rotated s.id t) ++ [s])
    (stored : old ∈ d.sessions) (active : old.status = .ACTIVE) (fresh : d.session s.id = none)
    (owner : s.userId = old.userId ∧ s.userRole = old.userRole) (family : s.familyId = old.familyId)
    (last : s.rotatedToId = none) : Families d' := by
  -- only the old session is rewritten, and it keeps its owner and its family
  have source : ∀ x ∈ Table.modify Session.id d.sessions [old.id] (Session.rotated s.id t),
      ∃ y ∈ d.sessions, x.userId = y.userId ∧ x.userRole = y.userRole ∧ x.familyId = y.familyId ∧
        (x.status = .ACTIVE → x = y) := by
    intro x member
    obtain ⟨y, here, rfl⟩ := Table.mem_modify.mp member
    refine ⟨y, here, ?_⟩
    split
    · exact ⟨rfl, rfl, rfl, fun rotated => by simp [Session.rotated] at rotated⟩
    · exact ⟨rfl, rfl, rfl, fun _ => rfl⟩
  refine ⟨?_, ?_, fun familyId => ?_, ?_⟩
  · rw [sessions]
    refine families.unique_concat ?_ fresh
    exact Table.map_modify Session.id d.sessions [old.id] (Session.rotated s.id t) fun _ => rfl
  · rw [sessions]
    simp only [List.mem_append, List.mem_singleton]
    have asOld : ∀ x ∈ Table.modify Session.id d.sessions [old.id] (Session.rotated s.id t),
        x.familyId = s.familyId → x.userId = s.userId ∧ x.userRole = s.userRole := by
      intro x member same
      obtain ⟨y, here, user, role, sameFamily, -⟩ := source x member
      have mine := families.owner y here old stored (by rw [← sameFamily, same, family])
      rw [user, role, owner.1, owner.2]
      exact mine
    rintro a (here | rfl) b (there | rfl) same
    · obtain ⟨x, stored₁, user₁, role₁, family₁, -⟩ := source a here
      obtain ⟨y, stored₂, user₂, role₂, family₂, -⟩ := source b there
      rw [family₁, family₂] at same
      rw [user₁, user₂, role₁, role₂]
      exact families.owner x stored₁ y stored₂ same
    · exact asOld a here same
    · exact (asOld b there same.symm).imp Eq.symm Eq.symm
    · exact ⟨rfl, rfl⟩
  · have selected : d'.family familyId =
        (d.family familyId).map (fun x => if x.id ∈ [old.id] then x.rotated s.id t else x) ++
          [s].filter fun x => decide (x.familyId = familyId) := by
      simp only [Db.family, sessions, List.filter_append, Table.modify, List.filter_map]
      congr 3
      funext x
      simp only [Function.comp]
      split <;> rfl
    -- in a list without the old session nothing is rewritten
    have untouched : ∀ rows : List Session, (∀ x ∈ rows, x.id ≠ old.id) →
        rows.map (fun x => if x.id ∈ [old.id] then x.rotated s.id t else x) = rows := by
      intro rows other
      refine (List.map_congr_left fun x member => ?_).trans (List.map_id rows)
      simp [other x member]
    by_cases mine : old.familyId = familyId
    · have member : old ∈ d.family familyId :=
        List.mem_filter.mpr ⟨stored, by simpa using mine⟩
      obtain ⟨front, split⟩ :=
        (families.linked familyId).last_of_none member (families.active old stored active)
      have distinct : ((front ++ [old]).map Session.id).Nodup :=
        split ▸ (List.filter_sublist.map Session.id).nodup families.ids
      have others : ∀ x ∈ front, x.id ≠ old.id := by
        intro x inFront same
        simp only [List.map_append, List.nodup_append] at distinct
        exact distinct.2.2 x.id (List.mem_map_of_mem inFront) old.id (by simp) same
      have after : d'.family familyId = front ++ [old.rotated s.id t, s] := by
        rw [selected, split, List.map_append, untouched front others]
        simp [family, mine]
      rw [after]
      exact (split ▸ families.linked familyId).concat rfl rfl last
    · have others : ∀ x ∈ d.family familyId, x.id ≠ old.id := by
        intro x member same
        obtain ⟨here, inFamily⟩ := List.mem_filter.mp member
        exact mine (families.eq_of_id here stored same ▸ by simpa using inFamily)
      have after : d'.family familyId = d.family familyId := by
        rw [selected, untouched _ others]
        simp [family, mine]
      rw [after]
      exact families.linked familyId
  · rw [sessions]
    simp only [List.mem_append, List.mem_singleton]
    rintro x (here | rfl) stillActive
    · obtain ⟨y, stored', -, -, -, same⟩ := source x here
      obtain rfl := same stillActive
      exact families.active x stored' stillActive
    · exact last

end Families

/-! ### What a move keeps -/

theorem revoked_ages (ids : List Id) (reason : RevokeReason) (t : Nat) (s : Session) :
    s.Ages (if s.id ∈ ids then s.revoked reason t else s) := by
  split
  · exact ⟨rfl, fun active => by simp [Session.revoked] at active, fun _ named => named⟩
  · exact .refl s

theorem revoked_successor (ids : List Id) (reason : RevokeReason) (t : Nat) (s : Session) :
    (if s.id ∈ ids then s.revoked reason t else s).rotatedToId = s.rotatedToId := by
  split <;> rfl

section Moves

variable {strict : Prop} {ℓ : Label} {d d' : Db} (move : SessionMove strict ℓ d d')
  (families : Families d)

include move families

theorem Families.moved : Families d' := by
  cases move with
  | still sessions => exact families.rewritten (sessions.trans (List.map_id _).symm) .refl fun _ => rfl
  | loggedIn sessions _ fresh alone last => exact families.opened sessions fresh alone last
  | rotated sessions _ stored active fresh owner family last =>
    exact families.replaced sessions stored active fresh owner family last
  | ended sessions | revoked sessions =>
    exact families.rewritten sessions (revoked_ages _ _ _) (revoked_successor _ _ _)

theorem SessionMove.later : SessionsLater d d' := by
  intro s member
  cases move with
  | still sessions => exact ⟨s, sessions ▸ member, .refl s⟩
  | loggedIn sessions =>
    exact ⟨s, sessions ▸ List.mem_append_left _ member, .refl s⟩
  | @rotated _ _ old new t sessions _ stored active =>
    refine ⟨_, sessions ▸ List.mem_append_left _ (Table.mem_modify.mpr ⟨s, member, rfl⟩), ?_⟩
    split
    next mine =>
      -- the session that is rotated has not been before
      obtain rfl := families.eq_of_id member stored (by simpa using mine)
      have unrotated := families.active s member active
      exact ⟨rfl, fun _ => active, fun id named => by rw [unrotated] at named; cases named⟩
    next => exact .refl s
  | ended sessions | revoked sessions =>
    exact ⟨_, sessions ▸ mem_revokedRows.mpr ⟨s, member, rfl⟩, revoked_ages _ _ _ s⟩

end Moves

/-- A session after a move was there before, or a login has opened it in a family of its own,
or it takes over from an ACTIVE one. -/
theorem SessionMove.source {strict : Prop} {ℓ : Label} {d d' : Db} {s' : Session}
    (move : SessionMove strict ℓ d d') (member : s' ∈ d'.sessions) :
    (∃ s ∈ d.sessions, s'.core = s.core ∧ (s'.status = .ACTIVE → s.status = .ACTIVE)) ∨
      (ℓ = .loggedIn s' ∧ ∀ x ∈ d.sessions, x.familyId ≠ s'.familyId) ∨
      (ℓ = .rotated s' ∧ ∃ old ∈ d.sessions, old.status = .ACTIVE ∧ s'.userId = old.userId ∧
        s'.familyId = old.familyId) := by
  cases move with
  | still sessions => exact Or.inl ⟨s', sessions ▸ member, rfl, id⟩
  | loggedIn sessions _ _ alone =>
    rw [sessions, List.mem_append, List.mem_singleton] at member
    rcases member with old | rfl
    · exact Or.inl ⟨s', old, rfl, id⟩
    · exact Or.inr (Or.inl ⟨rfl, alone⟩)
  | rotated sessions _ stored active _ owner family =>
    rw [sessions, List.mem_append, List.mem_singleton] at member
    rcases member with rewritten | rfl
    · obtain ⟨s, old, rfl⟩ := Table.mem_modify.mp rewritten
      refine Or.inl ⟨s, old, ?_⟩
      split
      · exact ⟨rfl, fun active => by simp [Session.rotated] at active⟩
      · exact ⟨rfl, id⟩
    · exact Or.inr (Or.inr ⟨rfl, _, stored, active, owner.1, family⟩)
  | ended sessions | revoked sessions =>
    rw [sessions] at member
    obtain ⟨s, old, rfl⟩ := mem_revokedRows.mp member
    exact Or.inl ⟨s, old, (revoked_ages _ _ _ s).core, (revoked_ages _ _ _ s).status⟩

end LabourBaba.Auth
