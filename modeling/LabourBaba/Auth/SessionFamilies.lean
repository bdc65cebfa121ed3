import LabourBaba.Auth.SessionConformance

/-!
# The families of sessions

In every run in which logins draw families that are not in use, the sessions of a family
belong to one user and form one chain: each names the session that took over from it, and
only the last may be ACTIVE. Two calls that have rotated the same session have both left
their successor's identifier in its row, so they are one call.
-/
namespace LabourBaba.Auth

open Store

section Runs

variable {cfg : Config} {p : AuthPool}

theorem sessions_sound (run : Runs cfg Fresh p) :
    Pool.Sound (sessionProtocol False) (fun _ => rotationPromised) p := by
  obtain ⟨customers, workers, reached⟩ := run
  exact reached.sound (sessions_verified cfg False) (fun _ _ meets => meets)
    (.empty (Families.initial rfl))

/-- A rotation that a call has reported stays in the store. -/
theorem replaced_of_rotated (run : Runs cfg Fresh p) {th : AuthThread}
    {i : Nat} {outcome : Outcome} {id newId : Id} (found : p.threads[i]? = some th)
    (rotates : th.op.rotates = some (id, newId)) (returned : th.prog.returned = some outcome)
    (done : outcome.rotated = true) : Replaced id newId p.db := by
  obtain ⟨customers, workers, reached⟩ := run
  refine Pool.Reaches.returned (sessions_verified cfg False) (fun _ _ meets => meets)
    (.empty (Families.initial rfl)) ?_ (by simp [start]) reached i th outcome found returned id newId
    rotates done
  intro i op outcome j ℓ d d' families promised move id newId rotates done
  exact (promised id newId rotates done).later (move.later families)

end Runs

/-- What holds of the sessions of each family. -/
structure FamilyStructure (d : Db) : Prop where
  ids : (d.sessions.map (·.id)).Nodup
  owner : ∀ a ∈ d.sessions, ∀ b ∈ d.sessions, a.familyId = b.familyId →
    a.userId = b.userId ∧ a.userRole = b.userRole
  /-- Each session's `rotated_to_id` is the identifier of the next one, if there is one. -/
  chain : ∀ familyId, Linked Session.id Session.rotatedToId (d.family familyId)
  /-- No session is reached from two others. -/
  unbranched : ∀ a ∈ d.sessions, ∀ b ∈ d.sessions, ∀ id,
    a.rotatedToId = some id → b.rotatedToId = some id → a = b
  /-- The first session of a family is reached from none. -/
  first : ∀ familyId s, (d.family familyId).head? = some s →
    ∀ a ∈ d.sessions, a.rotatedToId ≠ some s.id
  active : ∀ s ∈ d.sessions, s.status = .ACTIVE → (d.family s.familyId).getLast? = some s
  single : ∀ a ∈ d.sessions, ∀ b ∈ d.sessions, a.familyId = b.familyId → a.status = .ACTIVE →
    b.status = .ACTIVE → a = b

namespace Families

variable {d : Db} (families : Families d)

include families

theorem distinct (familyId : Id) : ((d.family familyId).map Session.id).Nodup :=
  (List.filter_sublist.map Session.id).nodup families.ids

/-- A session that is named is stored, in the family of the one that names it. -/
theorem named {a : Session} {id : Id} (member : a ∈ d.sessions) (names : a.rotatedToId = some id) :
    ∃ s ∈ d.sessions, s.id = id ∧ s.familyId = a.familyId := by
  have here : a ∈ d.family a.familyId := List.mem_filter.mpr ⟨member, by simp⟩
  obtain ⟨s, inFamily, named⟩ := (families.linked a.familyId).exists_next here names
  obtain ⟨stored, same⟩ := List.mem_filter.mp inFamily
  exact ⟨s, stored, named, by simpa using same⟩

theorem last_of_active {s : Session} (member : s ∈ d.sessions) (active : s.status = .ACTIVE) :
    (d.family s.familyId).getLast? = some s := by
  have here : s ∈ d.family s.familyId := List.mem_filter.mpr ⟨member, by simp⟩
  obtain ⟨front, split⟩ :=
    (families.linked s.familyId).last_of_none here (families.active s member active)
  rw [split, List.getLast?_concat]

theorem structured : FamilyStructure d where
  ids := families.ids
  owner := families.owner
  chain := families.linked
  unbranched a here b there id names also := by
    obtain ⟨s, stored, named, family⟩ := families.named here names
    obtain ⟨s', stored', named', family'⟩ := families.named there also
    obtain rfl := families.eq_of_id stored stored' (named.trans named'.symm)
    have inFamily : a ∈ d.family s.familyId := List.mem_filter.mpr ⟨here, by simp [family]⟩
    have inFamily' : b ∈ d.family s.familyId := List.mem_filter.mpr ⟨there, by simp [family']⟩
    exact (families.linked s.familyId).next_inj (families.distinct _) inFamily inFamily' names also
  first familyId s head a member names := by
    have inFamily : s ∈ d.family familyId := List.mem_of_head? head
    obtain ⟨stored, mine⟩ := List.mem_filter.mp inFamily
    obtain ⟨s', stored', named, family⟩ := families.named member names
    obtain rfl := families.eq_of_id stored stored' named.symm
    have here : a ∈ d.family familyId := by
      refine List.mem_filter.mpr ⟨member, ?_⟩
      rwa [family] at mine
    -- the session after one of the family is not its first
    obtain ⟨i, found⟩ := List.mem_iff_getElem?.mp here
    have next := families.linked familyId i a found
    rw [names] at next
    obtain ⟨x, behind, same⟩ := Option.map_eq_some_iff.mp next.symm
    have place := Linked.place_eq (families.distinct familyId) behind
      (List.head?_eq_getElem?.symm.trans head) same
    omega
  active s member active := families.last_of_active member active
  single a here b there same active active' := by
    have last := families.last_of_active here active
    rw [same, families.last_of_active there active'] at last
    exact (Option.some.inj last).symm

end Families

/-- Call `i` was to rotate the session and has reported that it did. -/
def HasRotated (p : AuthPool) (i : Nat) (id : Id) : Prop :=
  ∃ th outcome newId, p.threads[i]? = some th ∧ th.op.rotates = some (id, newId) ∧
    th.prog.returned = some outcome ∧ outcome.rotated = true

/-- The identifiers that the calls have drawn for their successors. -/
def successorIds (p : AuthPool) : List Id :=
  p.threads.filterMap fun th => th.op.rotates.map (·.2)

private theorem place_of_nodup {α β : Type} {f : α → Option β} {xs : List α}
    (distinct : (xs.filterMap f).Nodup) {i j : Nat} {a b : α} {c : β} (here : xs[i]? = some a)
    (there : xs[j]? = some b) (drawn : f a = some c) (also : f b = some c) : i = j := by
  induction xs generalizing i j with
  | nil => simp at here
  | cons x xs ih =>
    -- what the head has drawn is drawn by none of the rest
    have alone : ∀ {k : Nat} {y : α}, f x = some c → xs[k]? = some y → f y = some c → False := by
      intro k y mine found same
      rw [List.filterMap_cons_some mine] at distinct
      exact (List.nodup_cons.mp distinct).1
        (List.mem_filterMap.mpr ⟨y, List.mem_of_getElem? found, same⟩)
    have rest : (xs.filterMap f).Nodup :=
      (List.Sublist.filterMap f (List.sublist_cons_self x xs)).nodup distinct
    cases i with
    | zero =>
      obtain rfl : x = a := by simpa using here
      cases j with
      | zero => rfl
      | succ j => exact (alone drawn (by simpa using there) also).elim
    | succ i =>
      cases j with
      | zero =>
        obtain rfl : x = b := by simpa using there
        exact (alone also (by simpa using here) drawn).elim
      | succ j =>
        exact congrArg _ (ih rest (by simpa using here) (by simpa using there))

/-- The structure of every family in every committed state, and that of the calls which
rotate one session at most one succeeds. Fresh identifiers are distinct: a login's family is
that of no stored session, and no two rotations draw the same successor. -/
theorem session_families {cfg : Config} {p : AuthPool} (run : Runs cfg Fresh p)
    (distinct : (successorIds p).Nodup) :
    FamilyStructure p.db ∧ ∀ i j id, HasRotated p i id → HasRotated p j id → i = j := by
  have families := (sessions_sound run).inv
  refine ⟨families.structured, ?_⟩
  rintro i j id ⟨th, outcome, newId, found, rotates, returned, done⟩
    ⟨th', outcome', newId', found', rotates', returned', done'⟩
  -- both calls have left their successor in the same row
  obtain ⟨x, stored, mine, named⟩ :=
    replaced_of_rotated run found rotates returned done
  obtain ⟨x', stored', mine', named'⟩ :=
    replaced_of_rotated run found' rotates' returned' done'
  obtain rfl := families.eq_of_id stored stored' (mine.trans mine'.symm)
  rw [named] at named'
  obtain rfl := Option.some.inj named'
  have drawn : th.op.rotates.map (·.2) = some newId := by rw [rotates, Option.map_some]
  have drawn' : th'.op.rotates.map (·.2) = some newId := by rw [rotates', Option.map_some]
  exact place_of_nodup distinct found found' drawn drawn'

/-- A raw token of the session with a number of one digit. -/
def rawToken (digit secret : Char) : Text :=
  List.replicate 8 '0' ++ '-' :: List.replicate 4 '0' ++ '-' :: List.replicate 4 '0' ++
    '-' :: List.replicate 4 '0' ++ '-' :: List.replicate 11 '0' ++ [digit, '.'] ++
    List.replicate 64 secret

/-- A login, and two rotations of its session of which the second is overtaken. -/
def rotationRace : List (Pool.Move Op) :=
  [.event (.spawn (.createSession 5 .ADMIN ⟨1, 9, 97⟩)), .drive 0 true,
    .event (.spawn (.rotateSession (rawToken '1' 'a') ⟨2, 97⟩)),
    .event (.spawn (.rotateSession (rawToken '1' 'a') ⟨3, 97⟩)),
    .event (.run 1 true), .event (.run 1 true), .event (.run 1 true),
    .drive 2 true, .drive 1 true]

theorem session_families_race :
    let p := played Fresh rotationRace
    (p.db.sessions.map fun s => (s.id, s.status)) = [(1, .ROTATED), (3, .ACTIVE)] ∧
      FamilyStructure p.db ∧ ∀ i j id, HasRotated p i id → HasRotated p j id → i = j :=
  ⟨by decide +kernel, session_families (runs_played Fresh rotationRace) (by decide +kernel)⟩

end LabourBaba.Auth
