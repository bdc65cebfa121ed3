import LabourBaba.Auth.OtpCommits
import LabourBaba.Auth.Footprints

/-!
# OTP services keep to the protocol

`protocol` lets a call commit what `Commit` describes and count on `Later` in between. The
one transaction is that of `sendOtp`: it holds the index entry of its phone and purpose
from the insertion to the commit, so no challenge is inserted there in between, and those
that were not ACTIVE at the insertion are not ACTIVE at the commit.
-/
namespace LabourBaba.Auth

open Store

def protocol (cfg : Config) : Protocol Label Db where
  inv := Consistent
  pre _ _ := True
  guar _ ℓ d d' := ∃ ws, d' = applyAll ws d ∧ Commit cfg ℓ d ws
  evo _ := Later
  evo_refl _ := Later.refl
  evo_trans _ _ _ _ := Later.trans
  guar_inv := by
    rintro _ ℓ d _ consistent ⟨ws, rfl, commit⟩
    exact commit.keepsConsistent consistent
  guar_evo := by
    rintro _ _ ℓ d _ _ _ ⟨ws, rfl, commit⟩
    exact Later.applyAll commit.ages d

instance (cfg : Config) : (protocol cfg).Lax := ⟨fun _ _ _ => trivial⟩

abbrev Conforms {α : Type} (cfg : Config) (me : Nat) (c : Service α) : Prop :=
  Call.Safe (protocol cfg) me c

section Services

variable {cfg : Config} {me : Nat} {d : Db}

theorem does_of_commit {ℓ : Label} {ws : List Write} (commit : Commit cfg ℓ d ws) :
    (protocol cfg).Does me ℓ d (applyAll ws d) :=
  Or.inr ⟨ws, rfl, commit⟩

theorem orThrow_conforms {α : Type} (result : Except Failure α) :
    Conforms cfg me (orThrow result) := by
  cases result with
  | ok a => exact .pure a
  | error e => exact .throw e

theorem endChallenge_conforms (ℓ : Label) (id : Id) {status : OtpStatus}
    (closed : status = .LOCKED ∨ status = .EXPIRED) :
    Conforms cfg me (endChallenge ℓ id status) := by
  refine Call.Safe.bind (.read _ _) fun t => .stmt fun d ws _ _ _ result => ?_
  split at result
  · cases result
  · obtain rfl : [.endChallenges [id] status t] = ws := by simpa using result
    exact does_of_commit (.ended closed)

/-! ### Issuing a challenge -/

theorem insertChallenge_ok {c a : Challenge} {ws : List Write}
    (inserted : insertChallenge c d = .ok (ws, a)) :
    d.challenge c.id = none ∧ ws = [.insertChallenge c] ∧ a = c ∧
      ∀ old ∈ d.challenges, old.subject = c.subject → old.status ≠ .ACTIVE := by
  simp only [insertChallenge] at inserted
  split at inserted
  · cases inserted
  next fresh =>
    split at inserted
    · cases inserted
    next free =>
      simp only [Except.ok.injEq, Prod.mk.injEq] at inserted
      refine ⟨by simpa using fresh, inserted.1.symm, inserted.2.symm, ?_⟩
      intro old member same active
      exact free (List.any_eq_true.mpr ⟨old, member, by simp [same, active]⟩)

/-- While the index entry of a phone and purpose is held, an ACTIVE challenge found at the
commit was one at the insertion, where only those that the transaction expires were left. -/
theorem superseded_of_insert {d' : Db} {subject : Text × Purpose} {ids : List Id} {t : Nat}
    (consistent : Consistent d) (consistent' : Consistent d') (later : Later d d')
    (held : d'.entries subject = d.entries subject)
    (free : ∀ old ∈ (applyAll [.endChallenges ids .EXPIRED t] d).challenges,
      old.subject = subject → old.status ≠ .ACTIVE) :
    ∀ x ∈ d'.challenges, x.subject = subject → x.status = .ACTIVE → x.id ∈ ids := by
  intro x member same active
  have entered : x.id ∈ d.entries subject := by
    rw [← held]
    exact List.mem_map.mpr ⟨x, List.mem_filter.mpr ⟨member, by simpa using same⟩, rfl⟩
  obtain ⟨y, selected, sameId⟩ := List.mem_map.mp entered
  obtain ⟨old, mine⟩ := List.mem_filter.mp selected
  -- the row of the commit is the row of the insertion, grown older
  obtain ⟨y', found', ages⟩ := later.challenges y.id y (Table.find_of_mem consistent.ids old)
  obtain rfl := Table.eq_of_find consistent'.ids found' member sameId.symm
  have was := ages.status active
  by_cases expired : x.id ∈ ids
  · exact expired
  · have untouched : y ∈ (applyAll [.endChallenges ids .EXPIRED t] d).challenges := by
      refine Table.mem_modify.mpr ⟨y, old, ?_⟩
      rw [sameId, if_neg expired]
    exact absurd was (free y untouched (by simpa using mine))

/-- The transaction's own update changes no identifier. -/
theorem absent_before {ids : List Id} {status : OtpStatus} {t : Nat} {id : Id}
    (absent : (applyAll [.endChallenges ids status t] d).challenge id = none) :
    d.challenge id = none := by
  have modified : Table.find Challenge.id (Table.modify Challenge.id d.challenges ids
      (Challenge.ended status t)) id = none := absent
  rw [Table.find_modify _ _ (Challenge.ended status t) _ (fun _ => rfl)] at modified
  exact Option.map_eq_none_iff.mp modified

theorem issueChallenge_commits (phone : Text) (purpose : Purpose) (new : NewChallenge)
    (expiresAt : Nat) {since : Nat} (reckoned : since ≤ d.now) :
    Call.wp (protocol cfg) me (Call.inTx fun c t d => ∀ d', (protocol cfg).Rely me t.locks d d' →
        (protocol cfg).pre (.issued c since) d' →
        (protocol cfg).Does me (.issued c since) d' (applyAll t.writes d'))
      (issueChallenge cfg phone purpose new expiresAt since) (some {}) d := by
  simp only [issueChallenge, now, query, step, Call.wp_bind, Call.wp_read, Tx.view_some, Tx.held_some,
    applyAll_nil]
  intro d₁ rely₁ _
  rw [Call.andThen_ok]
  split
  · -- the cooldown is not over: nothing is committed
    simp only [Call.wp_bind, Call.wp_read]
    exact fun _ _ _ => trivial
  · simp only [Call.wp_bind, Call.wp_read, Tx.view_some, Tx.held_some, applyAll_nil]
    intro d₂ rely₂ _
    simp only [Call.andThen_ok, Call.wp_bind, Call.wp_read, Tx.view_some, Tx.held_some, applyAll_nil]
    intro d₃ rely₃ _
    refine Call.stmt_inTx (fun d₄ t₄ ws _ rely₄ _ result grows₄ _ => ?_) fun _ _ _ _ result => by
      cases result
    cases result
    simp only [Call.andThen_ok, Call.wp_bind, Call.wp_read, Tx.held_some]
    intro d₅ rely₅ _
    refine Call.stmt_inTx (fun d₆ t₆ ws c rely₆ _ result grows₆ locks₆ => ?_)
      fun _ _ _ _ _ => trivial
    obtain ⟨fresh, rfl, rfl, free⟩ := insertChallenge_ok result
    intro d₇ rely₇ _
    have heldId := locks₆ _ List.mem_cons_self (.challenge new.id) (by simp [Write.keys])
    have heldEntry := locks₆ _ List.mem_cons_self (.active (phone, purpose))
      (by simp [Write.keys, Challenge.subject])
    have clock : since ≤ (Tx.view (some t₄) d₅).now := by
      have later := rely₁.evo.trans (rely₂.evo.trans (rely₃.evo.trans (rely₄.evo.trans rely₅.evo)))
      have view : (Tx.view (some t₄) d₅).now = d₅.now := by
        rw [Tx.view_some, grows₄.writes]
        rfl
      rw [view]
      exact Nat.le_trans reckoned later.clock
    have absent : d₇.challenge new.id = none := by
      have unchanged : d₇.challenge new.id = d₆.challenge new.id :=
        rely₇.rows (.challenge new.id) heldId
      rw [unchanged]
      rw [grows₄.writes] at fresh
      exact absent_before fresh
    rw [grows₆.writes, grows₄.writes]
    refine does_of_commit (.issued absent ⟨rfl, rfl, rfl⟩ clock ?_)
    rw [grows₄.writes] at free
    exact superseded_of_insert rely₆.inv rely₇.inv rely₇.evo
      (rely₇.rows (.active (phone, purpose)) heldEntry) free

theorem sendOtp_conforms (rawPhone : Text) (purpose : Purpose) (new : NewChallenge) :
    Conforms cfg me (sendOtp cfg rawPhone purpose new) := by
  refine (orThrow_conforms _).bind fun phone => Call.Safe.bind (.read _ _) fun issuedAt => ?_
  intro d
  simp only [now, query, Call.wp_bind, Call.wp_read, Tx.view_none, Tx.held_none]
  intro d₁ _ _
  rw [Call.andThen_ok, Call.wp_bind]
  refine Call.transaction_commits (fun d₂ rely₂ => ?_) (fun challenge d₂ => ?_) fun _ _ => rfl
  · exact issueChallenge_commits phone purpose new _ rely₂.evo.clock
  · rw [Call.andThen_ok]
    refine Call.Safe.bind .choose (fun delivered => ?_) d₂
    split
    · exact .pure _
    · exact (endChallenge_conforms _ _ (Or.inr rfl)).bind fun _ => .throw _

/-! ### Verifying a guess -/

theorem compareGuess_conforms (otp : Nat) (challenge : Challenge)
    (below : challenge.attemptCount < cfg.otpMaxAttempts) :
    Conforms cfg me (compareGuess cfg otp challenge) :=
  .send fun _ _ _ => does_of_commit (.compared below)

theorem countAttempt_conforms (id : Id) : Conforms cfg me (countAttempt id) := by
  refine .stmt fun d ws n _ _ result => ?_
  split at result
  · cases result
  · obtain rfl : [.countAttempt id] = ws := by
      simp only [Except.ok.injEq, Prod.mk.injEq] at result
      exact result.1
    exact does_of_commit .counted

theorem claimChallenge_conforms (challenge : Challenge)
    (below : challenge.attemptCount < cfg.otpMaxAttempts) :
    Conforms cfg me (claimChallenge challenge) := by
  refine Call.Safe.bind (.read _ _) fun t => .stmt fun d ws n _ _ result => ?_
  split at result
  · cases result
    exact Or.inl rfl
  next row found =>
    split at result
    next matching =>
      cases result
      exact does_of_commit (.claimed found matching.1 below)
    next =>
      cases result
      exact Or.inl rfl

theorem verifyChallenge_conforms (phone : Text) (otp : Nat) (purpose : Option Purpose) :
    Conforms cfg me (verifyChallenge cfg phone otp purpose) := by
  refine Call.Safe.bind (.read _ _) fun t => Call.Safe.bind (.read _ _) fun found => ?_
  cases found with
  | none => exact .throw _
  | some challenge =>
    simp only
    split
    · split
      · exact (endChallenge_conforms _ _ (Or.inl rfl)).bind fun _ => .throw _
      · exact .throw _
    next admitted =>
      have below : challenge.attemptCount < cfg.otpMaxAttempts := by
        simp only [not_or] at admitted
        omega
      refine (compareGuess_conforms otp challenge below).bind fun isMatch => ?_
      split
      · refine (claimChallenge_conforms challenge below).bind fun count => ?_
        split
        · exact .throw _
        · exact .pure _
      · refine (countAttempt_conforms _).bind fun attemptCount => ?_
        split
        · exact (endChallenge_conforms _ _ (Or.inl rfl)).bind fun _ => .throw _
        · exact .throw _

/-- The services of sessions say nothing about challenges. -/
theorem onSessions_conforms {α : Type} {c : Service α} (onSessions : OnSessions c) :
    Conforms cfg me c := by
  refine Call.Emits.safe (fun ℓ d ws _ _ _ writes => ?_) onSessions
  refine does_of_commit (.quiet fun w member => ?_)
  have about := writes w member
  cases w <;> first | rfl | cases about

theorem verifyOtp_conforms (rawPhone : Text) (otp : Nat) (purpose : Option Purpose)
    (new : NewSession) : Conforms cfg me (verifyOtp cfg rawPhone otp purpose new) :=
  (orThrow_conforms _).bind fun phone =>
    (verifyChallenge_conforms phone otp purpose).bind fun challenge =>
      onSessions_conforms (login_onSessions cfg phone purpose challenge new)

end Services

/-! ### The system -/

theorem conforms (cfg : Config) (me : Nat) (op : Op) : Conforms cfg me (serviceOf cfg me op) := by
  cases op with
  | sendOtp rawPhone purpose new =>
    exact (sendOtp_conforms rawPhone purpose new).bind fun _ => .pure _
  | verifyOtp rawPhone otp purpose new =>
    exact (verifyOtp_conforms rawPhone otp purpose new).bind fun _ => .pure _
  | tick ms =>
    have quiet : ∀ w ∈ [Write.tick ms], w.quiet = true := by simp [Write.quiet]
    exact .send fun _ _ _ => does_of_commit (.quiet quiet)
  | loginWorker rawPhone password new =>
    exact (onSessions_conforms (loginWorker_onSessions _ _ _ _)).bind fun _ => .pure _
  | createSession userId userRole new =>
    exact (onSessions_conforms (createSession_onSessions _ _ _ _)).bind fun _ => .pure _
  | rotateSession rawToken new =>
    exact (onSessions_conforms (rotateSession_onSessions _ _ _ _)).bind fun _ => .pure _
  | refreshToken rawToken successor upgrade =>
    exact (onSessions_conforms (refreshToken_onSessions _ _ _ _ _)).bind fun _ => .pure _
  | revokeSession sessionId userId reason =>
    exact (onSessions_conforms (revokeSession_onSessions _ _ _)).bind fun _ => .pure _
  | revokeByRawToken rawToken userId =>
    exact (onSessions_conforms (revokeByRawToken_onSessions _ _)).bind fun _ => .pure _
  | revokeAllUserSessions userId reason =>
    exact (onSessions_conforms (revokeAll_emits revokes_ofSessions _ _ _)).bind fun _ => .pure _
  | revokeFamilyByFamilyId familyId reason =>
    exact (onSessions_conforms (revokeFamily_emits revokes_ofSessions _ _ _)).bind fun _ => .pure _
  | suspendWorker workerId =>
    exact (onSessions_conforms (suspendWorker_onSessions _ _)).bind fun _ => .pure _
  | verifyWorkerDocument workerId =>
    exact (onSessions_conforms (verifyWorkerDocument_onSessions _)).bind fun _ => .pure _

theorem verified (cfg : Config) :
    Pool.Verified (protocol cfg) (fun _ _ _ _ => True) (system cfg) := by
  intro me op d
  exact Store.wp_mono (fun _ _ _ _ => trivial) _ _ _ (conforms cfg me op d)

section Runs

variable {cfg : Config} {cond : Label → Db → Prop} {p q : AuthPool}

theorem sound_of_runs (run : Runs cfg cond p) :
    Pool.Sound (protocol cfg) (fun _ _ _ _ => True) p := by
  obtain ⟨customers, workers, reached⟩ := run
  exact reached.sound (verified cfg) (fun _ _ _ _ _ _ _ _ => trivial)
    (.empty (Consistent.initial customers workers))

/-- A property of the store that every commit keeps, under a condition on the store just
before it, holds from there on in every run that meets the condition. -/
theorem invariant_from (I : Db → Prop)
    (keeps : ∀ ℓ d ws, Consistent d → I d → cond ℓ d → Commit cfg ℓ d ws → I (applyAll ws d))
    (run : Runs cfg cond p) (first : I p.db)
    (more : Pool.Reaches (system cfg) (Pool.Meets cond) p q) : I q.db := by
  refine Pool.Reaches.invariant (verified cfg) (fun _ _ => trivial) I (sound_of_runs run) first ?_ more
  rintro _ ℓ d _ consistent holds meets ⟨ws, rfl, commit⟩
  exact keeps ℓ d ws consistent holds meets commit

theorem invariant_of_runs (I : Db → Prop) (first : ∀ customers workers, I { customers, workers })
    (keeps : ∀ ℓ d ws, Consistent d → I d → cond ℓ d → Commit cfg ℓ d ws → I (applyAll ws d))
    (run : Runs cfg cond p) : I p.db := by
  obtain ⟨customers, workers, reached⟩ := run
  exact invariant_from I keeps ⟨customers, workers, .refl⟩ (first customers workers) reached

end Runs

end LabourBaba.Auth
