import LabourBaba.Auth.System
import LabourBaba.Store.Effects

/-!
# What the OTP statements may commit

One constructor of `Commit` for each statement that changes a challenge or a history, with
what holds of the committed store at that instant. `Later` is what a call may count on
while others commit: challenges stay, with the columns they were created with, no challenge
becomes ACTIVE again and no attempt is uncounted. `Commit.keepsConsistent` is the step lemma
of the store's invariant.
-/
namespace LabourBaba.Auth

open Store

/-! ### Growth -/

/-- The columns that no UPDATE sets. -/
def Challenge.core (c : Challenge) : Id × (Text × Purpose) × Nat × Nat × Nat :=
  (c.id, c.subject, c.otpHash, c.expiresAt, c.createdAt)

/-- A later version of a challenge. -/
structure Challenge.Ages (c c' : Challenge) : Prop where
  core : c'.core = c.core
  status : c'.status = .ACTIVE → c.status = .ACTIVE
  attempts : c.attemptCount ≤ c'.attemptCount

namespace Challenge.Ages

theorem refl (c : Challenge) : c.Ages c := ⟨rfl, fun active => active, Nat.le_refl _⟩

theorem trans {a b c : Challenge} (first : a.Ages b) (second : b.Ages c) : a.Ages c where
  core := second.core.trans first.core
  status active := first.status (second.status active)
  attempts := Nat.le_trans first.attempts second.attempts

theorem id_eq {c c' : Challenge} (ages : c.Ages c') : c'.id = c.id := congrArg Prod.fst ages.core

theorem subject_eq {c c' : Challenge} (ages : c.Ages c') : c'.subject = c.subject :=
  congrArg (·.2.1) ages.core

end Challenge.Ages

structure Later (d d' : Db) : Prop where
  clock : d.now ≤ d'.now
  challenges : ∀ id c, d.challenge id = some c → ∃ c', d'.challenge id = some c' ∧ c.Ages c'

theorem Later.refl (d : Db) : Later d d :=
  ⟨Nat.le_refl _, fun _ c found => ⟨c, found, .refl c⟩⟩

theorem Later.trans {d d' d'' : Db} (first : Later d d') (second : Later d' d'') :
    Later d d'' := by
  refine ⟨Nat.le_trans first.clock second.clock, fun id c found => ?_⟩
  obtain ⟨c', found', ages'⟩ := first.challenges id c found
  obtain ⟨c'', found'', ages''⟩ := second.challenges id c' found'
  exact ⟨c'', found'', ages'.trans ages''⟩

/-- Writes that revive no challenge. -/
def Write.ages : Write → Bool
  | .endChallenges _ status _ => decide (status ≠ .ACTIVE)
  | _ => true

theorem Later.write {w : Write} (ages : w.ages = true) (d : Db) : Later d (w.apply d) := by
  -- a row that an UPDATE rewrites ages, the others stay as they are
  have modified : ∀ (ids : List Id) (f : Challenge → Challenge), (∀ c : Challenge, c.Ages (f c)) →
      ∀ id c, d.challenge id = some c → ∃ c',
        Table.find Challenge.id (Table.modify Challenge.id d.challenges ids f) id = some c' ∧
          c.Ages c' := by
    intro ids f older id c found
    have found' : Table.find Challenge.id d.challenges id = some c := found
    rw [Table.find_modify _ _ f _ (fun c => (older c).id_eq), found', Option.map_some]
    by_cases hit : id ∈ ids
    · exact ⟨f c, by simp [hit], older c⟩
    · exact ⟨c, by simp [hit], .refl c⟩
  cases w with
  | insertChallenge new =>
    exact ⟨Nat.le_refl _, fun id c found => ⟨c, Table.find_insert_of_some found, .refl c⟩⟩
  | countAttempt i =>
    exact ⟨Nat.le_refl _, modified [i] Challenge.counted fun c => ⟨rfl, id, Nat.le_succ _⟩⟩
  | endChallenges ids status t =>
    have ended : status ≠ .ACTIVE := by simpa [Write.ages] using ages
    refine ⟨Nat.le_refl _, modified ids (Challenge.ended status t) fun c => ?_⟩
    exact ⟨rfl, fun active => absurd active ended, Nat.le_refl _⟩
  | tick ms => exact ⟨Nat.le_add_right _ _, fun _ c found => ⟨c, found, .refl c⟩⟩
  | _ => exact ⟨Nat.le_refl _, fun _ c found => ⟨c, found, .refl c⟩⟩

theorem Later.applyAll {ws : List Write} (ages : ∀ w ∈ ws, w.ages = true) (d : Db) :
    Later d (applyAll ws d) := by
  induction ws generalizing d with
  | nil => exact .refl d
  | cons w ws ih =>
    have first := Later.write (ages w List.mem_cons_self) d
    exact first.trans (ih (fun v member => ages v (List.mem_cons_of_mem _ member)) _)

/-! ### Commits -/

/-- Writes to tables that say nothing about challenges. -/
def Write.quiet : Write → Bool
  | .insertSession _ | .rotateSession _ _ _ | .revokeSessions _ _ _ | .suspendWorker _ _
  | .reviewWorker _ | .revocation _ | .tick _ => true
  | _ => false

inductive Commit (cfg : Config) : Label → Db → List Write → Prop
  | quiet {ℓ : Label} {d : Db} {ws : List Write} (still : ∀ w ∈ ws, w.quiet = true) :
    Commit cfg ℓ d ws
  /-- The transaction of `sendOtp`: what was ACTIVE for the phone and purpose is expired. -/
  | issued {d : Db} {c : Challenge} {since t : Nat} {ids : List Id}
      (fresh : d.challenge c.id = none)
      (opened : c.status = .ACTIVE ∧ c.consumedAt = none ∧ c.attemptCount = 0)
      (reckoned : since ≤ c.createdAt)
      (superseded : ∀ x ∈ d.challenges, x.subject = c.subject → x.status = .ACTIVE → x.id ∈ ids) :
    Commit cfg (.issued c since) d [.endChallenges ids .EXPIRED t, .insertChallenge c]
  /-- The updates that look at nothing: a lock, or a failed delivery. -/
  | ended {ℓ : Label} {d : Db} {id : Id} {status : OtpStatus} {t : Nat}
      (closed : status = .LOCKED ∨ status = .EXPIRED) :
    Commit cfg ℓ d [.endChallenges [id] status t]
  | compared {d : Db} {id : Id} {seen : Nat} {matched : Bool} (below : seen < cfg.otpMaxAttempts) :
    Commit cfg (.compared id seen) d [.guessed id matched]
  | counted {d : Db} {id : Id} : Commit cfg (.counted id) d [.countAttempt id]
  | claimed {d : Db} {id : Id} {seen t : Nat} {row : Challenge} (found : d.challenge id = some row)
      (active : row.status = .ACTIVE) (below : seen < cfg.otpMaxAttempts) :
    Commit cfg (.claimed id seen) d [.endChallenges [id] .CONSUMED t, .claimed id]

theorem Commit.ages {cfg : Config} {ℓ : Label} {d : Db} {ws : List Write}
    (commit : Commit cfg ℓ d ws) : ∀ w ∈ ws, w.ages = true := by
  cases commit with
  | quiet still =>
    intro w member
    have quiet := still w member
    cases w <;> first | rfl | cases quiet
  | ended closed => rcases closed with rfl | rfl <;> simp [Write.ages]
  | _ => simp [Write.ages]

/-! ### Writes, row by row -/

def Write.onChallenge : Write → Challenge → Challenge
  | .countAttempt id, c => if c.id ∈ [id] then c.counted else c
  | .endChallenges ids status t, c => if c.id ∈ ids then c.ended status t else c
  | _, c => c

theorem challengeEffects :
    Effects Db.challenges Write.onChallenge (fun w c => w = .insertChallenge c) where
  keeps w d c member := by
    cases w with
    | insertChallenge _ => exact Table.mem_insert_of_mem member
    | countAttempt _ | endChallenges _ _ _ => exact Table.mem_modify.mpr ⟨c, member, rfl⟩
    | _ => exact member
  source w d c' member := by
    cases w with
    | insertChallenge c =>
      exact (Table.mem_insert member).imp (fun old => ⟨c', old, rfl⟩) (congrArg _ ·.symm)
    | countAttempt _ | endChallenges _ _ _ => exact Or.inl (Table.mem_modify.mp member)
    | _ => exact Or.inl ⟨c', member, rfl⟩

theorem onChallenge_ages {w : Write} (ages : w.ages = true) (c : Challenge) :
    c.Ages (w.onChallenge c) := by
  cases w with
  | countAttempt i =>
    simp only [Write.onChallenge]
    split
    · exact ⟨rfl, id, Nat.le_succ _⟩
    · exact .refl c
  | endChallenges ids status t =>
    simp only [Write.onChallenge]
    split
    · refine ⟨rfl, fun active => ?_, Nat.le_refl _⟩
      have ended : status ≠ .ACTIVE := by simpa [Write.ages] using ages
      exact absurd active ended
    · exact .refl c
  | _ => exact .refl c

theorem onAll_ages {ws : List Write} (ages : ∀ w ∈ ws, w.ages = true) (c : Challenge) :
    c.Ages (onAll Write.onChallenge ws c) := by
  induction ws generalizing c with
  | nil => exact .refl c
  | cons w ws ih =>
    have first := onChallenge_ages (ages w List.mem_cons_self) c
    exact first.trans (ih (fun v member => ages v (List.mem_cons_of_mem _ member)) _)

/-- A challenge that a commit inserts. -/
structure Issue (ℓ : Label) (d : Db) (ws : List Write) (c : Challenge) : Prop where
  label : ∃ since, ℓ = .issued c since ∧ since ≤ c.createdAt
  fresh : d.challenge c.id = none
  /-- No other challenge of its phone and purpose stays ACTIVE. -/
  alone : ∀ x ∈ d.challenges, x.subject = c.subject →
    (onAll Write.onChallenge ws x).status ≠ .ACTIVE

/-- A challenge after a commit was there before, or is the one just issued. -/
theorem Commit.challenges {cfg : Config} {ℓ : Label} {d : Db} {ws : List Write} {c' : Challenge}
    (commit : Commit cfg ℓ d ws) (member : c' ∈ (applyAll ws d).challenges) :
    (∃ c ∈ d.challenges, c' = onAll Write.onChallenge ws c) ∨ Issue ℓ d ws c' := by
  rcases challengeEffects.of_mem_applyAll member with
    old | ⟨before, w, rest, c, split, rfl, rfl⟩
  · exact Or.inl old
  · have inserted : Write.insertChallenge c ∈ ws := by simp [split]
    have ages := commit.ages
    cases commit with
    | quiet still => cases still _ inserted
    | @issued _ new since t ids fresh _ reckoned superseded =>
      -- the insertion is the last write of the transaction
      have last : c = new ∧ rest = [] := by
        cases before with
        | nil => simp at split
        | cons v before =>
          cases before with
          | nil => exact ⟨by simpa [eq_comm] using (List.cons.inj (List.cons.inj split).2).1,
              (List.cons.inj (List.cons.inj split).2).2.symm⟩
          | cons u before => simp at split
      obtain ⟨rfl, rfl⟩ := last
      refine Or.inr ⟨⟨since, rfl, reckoned⟩, fresh, fun x stored same active => ?_⟩
      by_cases was : x.status = .ACTIVE
      · have expired := superseded x stored same was
        simp [Write.onChallenge, expired, Challenge.ended] at active
      · exact was ((onAll_ages ages x).status active)
    | _ => simp at inserted

/-! ### The invariant of the store -/

structure Consistent (d : Db) : Prop where
  ids : Table.Unique Challenge.id d.challenges
  /-- What the partial unique index promises. -/
  single : ∀ c ∈ d.challenges, ∀ c' ∈ d.challenges, c.subject = c'.subject →
    c.status = .ACTIVE → c'.status = .ACTIVE → c.id = c'.id
  stored : ∀ id ∈ d.claims, ∃ c, d.challenge id = some c
  unclaimed : ∀ c ∈ d.challenges, c.status = .ACTIVE → c.id ∉ d.claims
  once : d.claims.Nodup

theorem Consistent.initial (customers : List Customer) (workers : List Worker) :
    Consistent { customers, workers } where
  ids := List.nodup_nil
  single := by simp
  stored := by simp
  unclaimed := by simp
  once := List.nodup_nil

theorem unique_apply {w : Write} {d : Db} (unique : Table.Unique Challenge.id d.challenges) :
    Table.Unique Challenge.id (w.apply d).challenges := by
  cases w with
  | insertChallenge c => exact Table.unique_insert c (fun old same => decide_eq_true same) unique
  | countAttempt i => exact Table.unique_modify [i] Challenge.counted (fun _ => rfl) unique
  | endChallenges ids status t =>
    exact Table.unique_modify ids (Challenge.ended status t) (fun _ => rfl) unique
  | _ => exact unique

theorem unique_applyAll (ws : List Write) {d : Db}
    (unique : Table.Unique Challenge.id d.challenges) :
    Table.Unique Challenge.id (applyAll ws d).challenges := by
  induction ws generalizing d with
  | nil => exact unique
  | cons w ws ih => exact ih (unique_apply unique)

def Write.claims : Write → List Id
  | .claimed id => [id]
  | _ => []

theorem claims_applyAll (ws : List Write) (d : Db) :
    (applyAll ws d).claims = d.claims ++ ws.flatMap Write.claims := by
  induction ws generalizing d with
  | nil => simp
  | cons w ws ih =>
    rw [applyAll_cons, ih]
    cases w <;> simp [Write.apply, Write.claims]

/-- A challenge enters the history of claims when it is ACTIVE, and leaves ACTIVE with it. -/
theorem Commit.claims {cfg : Config} {ℓ : Label} {d : Db} {ws : List Write}
    (commit : Commit cfg ℓ d ws) :
    (applyAll ws d).claims = d.claims ∨
      ∃ id row, d.challenge id = some row ∧ row.status = .ACTIVE ∧
        (applyAll ws d).claims = d.claims ++ [id] ∧
        ∀ c, c.id = id → (onAll Write.onChallenge ws c).status ≠ .ACTIVE := by
  rw [claims_applyAll]
  cases commit with
  | quiet still =>
    have none : ws.flatMap Write.claims = [] := by
      refine List.flatMap_eq_nil_iff.mpr fun w member => ?_
      have quiet := still w member
      cases w <;> first | rfl | cases quiet
    exact Or.inl (by rw [none, List.append_nil])
  | @claimed _ id _ _ row found active _ =>
    refine Or.inr ⟨id, row, found, active, by simp [Write.claims], fun c mine => ?_⟩
    simp [Write.onChallenge, mine, Challenge.ended]
  | _ => exact Or.inl (by simp [Write.claims])

section KeepsConsistent

variable {cfg : Config} {ℓ : Label} {d : Db} {ws : List Write} (commit : Commit cfg ℓ d ws)
  (consistent : Consistent d)

include commit consistent

/-- Of two ACTIVE challenges after a commit at most one is new, and a new one has expired
the others. -/
theorem Commit.keepsSingle {c c' : Challenge} (here : c ∈ (applyAll ws d).challenges)
    (here' : c' ∈ (applyAll ws d).challenges) (same : c.subject = c'.subject)
    (active : c.status = .ACTIVE) (active' : c'.status = .ACTIVE) : c.id = c'.id := by
  rcases commit.challenges here with ⟨x, old, rfl⟩ | issue
  · have ages := onAll_ages commit.ages x
    rcases commit.challenges here' with ⟨x', old', rfl⟩ | issue'
    · have ages' := onAll_ages commit.ages x'
      rw [ages.subject_eq, ages'.subject_eq] at same
      rw [ages.id_eq, ages'.id_eq]
      exact consistent.single x old x' old' same (ages.status active) (ages'.status active')
    · exact absurd active (issue'.alone x old (ages.subject_eq.symm.trans same))
  · rcases commit.challenges here' with ⟨x', old', rfl⟩ | issue'
    · have ages' := onAll_ages commit.ages x'
      exact absurd active' (issue.alone x' old' (ages'.subject_eq.symm.trans same.symm))
    · obtain ⟨since, label, -⟩ := issue.label
      obtain ⟨since', label', -⟩ := issue'.label
      rw [label] at label'
      injection label' with sameChallenge
      rw [sameChallenge]

theorem Commit.keepsUnclaimed {c : Challenge} (here : c ∈ (applyAll ws d).challenges)
    (active : c.status = .ACTIVE) : c.id ∉ (applyAll ws d).claims := by
  -- before the commit no ACTIVE challenge was claimed, and a new one is not known yet
  have before : c.id ∉ d.claims := by
    rcases commit.challenges here with ⟨x, old, rfl⟩ | issue
    · have ages := onAll_ages commit.ages x
      rw [ages.id_eq]
      exact consistent.unclaimed x old (ages.status active)
    · intro claimed
      obtain ⟨row, found⟩ := consistent.stored c.id claimed
      rw [issue.fresh] at found
      cases found
  rcases commit.claims with same | ⟨id, row, found, -, claims, closed⟩
  · rwa [same]
  · rw [claims]
    simp only [List.mem_append, List.mem_singleton, not_or]
    refine ⟨before, fun mine => ?_⟩
    rcases commit.challenges here with ⟨x, old, rfl⟩ | issue
    · have ages := onAll_ages commit.ages x
      exact closed x (ages.id_eq.symm.trans mine) active
    · rw [← mine, issue.fresh] at found
      cases found

theorem Commit.keepsConsistent : Consistent (applyAll ws d) where
  ids := unique_applyAll ws consistent.ids
  single _ here _ here' same active active' :=
    commit.keepsSingle consistent here here' same active active'
  stored id claimed := by
    have later := Later.applyAll commit.ages d
    have stored : ∃ c, d.challenge id = some c := by
      rcases commit.claims with same | ⟨id', row, found, -, claims, -⟩
      · rw [same] at claimed
        exact consistent.stored id claimed
      · rw [claims, List.mem_append, List.mem_singleton] at claimed
        rcases claimed with old | rfl
        · exact consistent.stored id old
        · exact ⟨row, found⟩
    obtain ⟨c, found⟩ := stored
    obtain ⟨c', found', -⟩ := later.challenges id c found
    exact ⟨c', found'⟩
  unclaimed _ here active := commit.keepsUnclaimed consistent here active
  once := by
    rcases commit.claims with same | ⟨id, row, found, active, claims, -⟩
    · rw [same]
      exact consistent.once
    · have named : row.id = id := Table.find_key found
      have fresh := consistent.unclaimed row (Table.mem_of_find found) active
      rw [named] at fresh
      rw [claims]
      exact List.nodup_append.mpr ⟨consistent.once, by simp, by
        intro other claimed one single same
        exact fresh (List.mem_singleton.mp single ▸ same ▸ claimed)⟩

end KeepsConsistent

end LabourBaba.Auth
