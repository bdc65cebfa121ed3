import LabourBaba.RateLimit.Middlewares
import LabourBaba.RateLimit.Windows
import Mathlib

/-!
# What the limiters let through

A script of a request is placed in a window of its key, and the request passes only if every check
that fails closed was placed below the limit. Within the length of a window at most one new window
of a key is opened, so at most twice the limit pass in any such time.
-/
namespace LabourBaba.RateLimit.Middlewares

open Store

/-! ### Keys -/

section Keys

variable {cfg : Config}

/-- No bucket's keys begin like those of another. -/
theorem keyStarts_apart (cfg : Config) : (buckets cfg).Pairwise fun b b' =>
    ¬ b.keyStart <+: b'.keyStart ∧ ¬ b'.keyStart <+: b.keyStart := by
  have starts : (buckets cfg).map Bucket.keyStart =
      (["otp:req", "otp:verify"].flatMap fun limiter =>
        [.ip, .phone, .device].map (keyStart limiter)) ++
      (["auth", "dispatch_action", "chat_msg", "worker_location", "payment_order",
        "payment_refund"].flatMap fun limiter =>
          [.ip, .user, .worker].map (keyStart limiter)) := rfl
  have closed : ((buckets cfg).map Bucket.keyStart).Pairwise
      fun s s' => ¬ s <+: s' ∧ ¬ s' <+: s := by
    rw [starts]
    decide +kernel
  exact List.pairwise_map.mp closed

theorem optionsOf_key {b : Bucket} (member : b ∈ buckets cfg) (rest : Text) :
    optionsOf cfg (b.keyStart ++ rest) = b.options := by
  rw [optionsOf]
  cases found : (buckets cfg).find? fun b' => b'.keyStart.isPrefixOf (b.keyStart ++ rest) with
  | none =>
    have missed := List.find?_eq_none.mp found b member
    exact absurd (List.isPrefixOf_iff_prefix.mpr (List.prefix_append _ _)) missed
  | some b' =>
    have first : b'.keyStart <+: b.keyStart ++ rest := by
      simpa using List.find?_some found
    by_cases same : b = b'
    · subst same
      rfl
    · have : Std.Symm fun b b' : Bucket =>
          ¬ b.keyStart <+: b'.keyStart ∧ ¬ b'.keyStart <+: b.keyStart :=
        ⟨fun _ _ apart => ⟨apart.2, apart.1⟩⟩
      have apart := (keyStarts_apart cfg).forall member (List.mem_of_find?_eq_some found) same
      rcases List.prefix_or_prefix_of_prefix (List.prefix_append b.keyStart rest) first with le | le
      · exact absurd le apart.1
      · exact absurd le apart.2

theorem Op.bucket_mem {op : Op} {check : Check} (member : check ∈ op.checks cfg) :
    check.bucket ∈ buckets cfg := by
  have routed : ∀ (route : Route) (dimension : Dimension),
      dimension = .ip ∨ dimension = .user ∨ dimension = .worker →
      route.options.bucket dimension ∈ buckets cfg := by
    rintro route dimension listed
    refine List.mem_append_right _ (List.mem_flatMap.mpr ⟨route, ?_, ?_⟩)
    · cases route <;> simp
    · rcases listed with rfl | rfl | rfl <;> simp
  cases op with
  | otpRequest r =>
    simp only [Op.checks, otpRequestRateLimiter, List.mem_append, List.mem_cons,
      List.mem_map] at member
    rcases member with (rfl | ⟨phone, -, rfl⟩) | ⟨device, -, rfl⟩ <;> simp [buckets]
  | otpVerify r =>
    simp only [Op.checks, otpVerifyRateLimiter, List.mem_append, List.mem_cons,
      List.mem_map] at member
    rcases member with (rfl | ⟨phone, -, rfl⟩) | ⟨device, -, rfl⟩ <;> simp [buckets]
  | route at_ r =>
    simp only [Op.checks, createRateLimiter] at member
    split at member
    · split at member <;> obtain rfl := List.mem_singleton.mp member <;> exact routed _ _ (by simp)
    · split at member <;> obtain rfl := List.mem_singleton.mp member <;> exact routed _ _ (by simp)
    · obtain rfl := List.mem_singleton.mp member
      exact routed _ _ (by simp)
  | persist key | tick => cases member

theorem optionsOf_check {op : Op} {check : Check} (member : check ∈ op.checks cfg) :
    optionsOf cfg (check.key cfg) = check.bucket.options :=
  optionsOf_key (Op.bucket_mem member) _

theorem windowSeconds_positive (positive : 1 ≤ cfg.otpRateLimitWindowSeconds) (key : Text) :
    1 ≤ (optionsOf cfg key).windowSeconds := by
  have all : ∀ b ∈ buckets cfg, 1 ≤ b.options.windowSeconds := by
    simp [buckets, requestIp, requestPhone, requestDevice, verifyIp, verifyPhone, verifyDevice,
      otpBucket, RouteOptions.bucket, Route.options, authEndpointRateLimiter,
      dispatchActionRateLimiter, chatMessageRateLimiter, workerLocationRateLimiter,
      paymentOrderRateLimiter, paymentRefundRateLimiter, positive]
  rw [optionsOf]
  cases found : (buckets cfg).find? fun b => b.keyStart.isPrefixOf key with
  | none => exact Int.le_refl 1
  | some b => exact all b (List.mem_of_find?_eq_some found)

end Keys

/-! ### Answers -/

section Answers

variable {cfg : Config} {me : Nat} {d d' : Redis}

/-- The place of a call's script in a window of the key. -/
def PlacedAt (key : Text) (call n : Nat) (d : Redis) : Prop :=
  ∃ calls ∈ d.windows key, calls[n]? = some call

theorem PlacedAt.kept {key : Text} {call n : Nat} (placed : PlacedAt key call n d)
    (kept : Kept key d d') : PlacedAt key call n d' := by
  obtain ⟨calls, member, place⟩ := placed
  obtain ⟨calls', member', later, rfl⟩ := kept calls member
  have below := (List.getElem?_eq_some_iff.mp place).1
  exact ⟨_, member', (List.getElem?_append_left below).trans place⟩

/-- The check has let its request through. -/
def Check.Admits (cfg : Config) (check : Check) (call : Nat) (d : Redis) : Prop :=
  check.bucket.failPolicy = .fail_open ∨
    ∃ n, PlacedAt (check.key cfg) call n d ∧ (n : Int) < check.bucket.options.maxLimit

/-- The check has refused its request. -/
def Check.Refuses (cfg : Config) (check : Check) (call : Nat) (d : Redis) : Response → Prop
  | .next => False
  | .rateLimited code message retryAfter =>
    code = check.bucket.code ∧ message = check.bucket.message ∧
      1 ≤ retryAfter ∧ retryAfter ≤ check.bucket.options.windowSeconds ∧
      ∃ n : Nat, PlacedAt (check.key cfg) call n d ∧ check.bucket.options.maxLimit ≤ n
  | .unavailable retryAfter => check.bucket.failPolicy = .fail_closed ∧
      retryAfter = check.bucket.options.windowSeconds

/-- What a response tells about the checks from the `n`-th on: those before the refusing one have
let the request through, and none after it has been counted. -/
inductive Answers (cfg : Config) (me : Nat) (d : Redis) : Nat → List Check → Response → Prop
  | next {n : Nat} : Answers cfg me d n [] .next
  | admits {n : Nat} {check : Check} {checks : List Check} {response : Response}
    (admits : check.Admits cfg (Nat.pair me n) d)
    (rest : Answers cfg me d (n + 1) checks response) :
    Answers cfg me d n (check :: checks) response
  | refuses {n : Nat} {check : Check} {checks : List Check} {response : Response}
    (refuses : check.Refuses cfg (Nat.pair me n) d response)
    (untouched : ∀ m, n < m → Fresh (Nat.pair me m) d) :
    Answers cfg me d n (check :: checks) response

theorem Check.Admits.kept {check : Check} {call : Nat} (admits : check.Admits cfg call d)
    (kept : ∀ key, Kept key d d') : check.Admits cfg call d' := by
  rcases admits with lenient | ⟨n, placed, below⟩
  · exact Or.inl lenient
  · exact Or.inr ⟨n, placed.kept (kept _), below⟩

theorem Check.Refuses.kept {check : Check} {call : Nat} {response : Response}
    (refuses : check.Refuses cfg call d response) (kept : ∀ key, Kept key d d') :
    check.Refuses cfg call d' response := by
  cases response with
  | next => exact refuses
  | unavailable retryAfter => exact refuses
  | rateLimited code message retryAfter =>
    obtain ⟨same, same', least, most, n, placed, above⟩ := refuses
    exact ⟨same, same', least, most, n, placed.kept (kept _), above⟩

theorem Answers.kept {n : Nat} {checks : List Check} {response : Response}
    (answers : Answers cfg me d n checks response) (kept : ∀ key, Kept key d d')
    (fresh : ∀ m, Fresh (Nat.pair me m) d → Fresh (Nat.pair me m) d') :
    Answers cfg me d' n checks response := by
  induction answers with
  | next => exact .next
  | admits admits _ ih => exact .admits (admits.kept kept) ih
  | refuses refuses untouched =>
    exact .refuses (refuses.kept kept) fun m above => fresh m (untouched m above)

/-- A request that has passed was placed below the limit of every check that fails closed. -/
theorem Answers.placed {n : Nat} {checks : List Check} {response : Response}
    (answers : Answers cfg me d n checks response) (passed : response = .next) {check : Check}
    (member : check ∈ checks) (closed : check.bucket.failPolicy = .fail_closed) :
    ∃ m k, PlacedAt (check.key cfg) (Nat.pair me m) k d ∧
      (k : Int) < check.bucket.options.maxLimit := by
  induction answers with
  | next => cases member
  | refuses refuses _ =>
    subst passed
    exact refuses.elim
  | @admits n first checks response admits _ ih =>
    rcases List.mem_cons.mp member with rfl | later
    · rcases admits with lenient | ⟨k, placed, below⟩
      · exact absurd (closed.symm.trans lenient) (by simp)
      · exact ⟨n, k, placed, below⟩
    · exact ih passed later

end Answers

/-! ### Commits -/

section Commits

variable {cfg : Config} {d : Redis}

/-- A script never tells more than a whole window. -/
theorem rateLimitScript_ttl {options : Text → RateLimitOptions} {key : Text}
    (positive : ∀ key, 1 ≤ (options key).windowSeconds) (recorded : Recorded options d) :
    (rateLimitScript key (options key).windowSeconds d).2.ttl ≤ (options key).windowSeconds := by
  have final := rateLimitScript_counter (positive key) (counting recorded key)
  have told :
      (rateLimitScript key (options key).windowSeconds d).2.ttl = (options key).windowSeconds ∨
      (rateLimitScript key (options key).windowSeconds d).2.ttl =
        (rateLimitScript key (options key).windowSeconds d).1.ttl key := by
    simp only [rateLimitScript]
    split <;> split <;> simp
  rcases told with whole | left
  · exact whole.le
  · rw [left, final]
    have bound := @nextDeadline_bounded options d key recorded
    have least := positive key
    simp only [Redis.ttl, get_set, Option.filter_some]
    split
    · omega
    next eq =>
      split at eq <;> simp at eq
    next t eq =>
      split at eq
      · obtain rfl : t = d.nextDeadline key (options key).windowSeconds := by
          simpa using (congrArg Counter.deadline (Option.some.inj eq)).symm
        simp only [Redis.set]
        omega
      · cases eq

end Commits

/-! ### The calls keep to it -/

section Calls

variable {cfg : Config} (positive : 1 ≤ cfg.otpRateLimitWindowSeconds)

/-- The scripts of one request have numbers that no other request uses. -/
def protocol : Protocol Label Redis where
  inv := Recorded (optionsOf cfg)
  pre _ _ := True
  guar i ℓ d d' := ∃ w n, d' = w.apply d ∧ Commit (optionsOf cfg) (Nat.pair i n) ℓ d w
  evo me d d' := (∀ n, Fresh (Nat.pair me n) d → Fresh (Nat.pair me n) d') ∧ ∀ key, Kept key d d'
  evo_refl _ d := ⟨fun _ => id, fun key => .refl key d⟩
  evo_trans _ _ _ _ first second :=
    ⟨fun n => second.1 n ∘ first.1 n, fun key => (first.2 key).trans (second.2 key)⟩
  guar_inv := by
    rintro i ℓ d _ recorded ⟨w, n, rfl, commit⟩
    exact commit.keepsRecorded (windowSeconds_positive positive) recorded
  guar_evo := by
    rintro i j ℓ d _ differ recorded ⟨w, n, rfl, commit⟩
    refine ⟨fun m => commit.fresh recorded fun same => differ ?_, commit.kept recorded⟩
    exact (Nat.pair_eq_pair.mp same).1

instance : Protocol.Lax (protocol positive) := ⟨fun _ _ _ => trivial⟩

/-- What a check leaves behind, with its place among the checks of its request. -/
structure Checked (cfg : Config) (me n : Nat) (check : Check) (a : Answer) (d d' : Redis) :
    Prop where
  admits : a.result.allowed = true → check.Admits cfg (Nat.pair me n) d'
  refuses : a.result.allowed = false → check.Refuses cfg (Nat.pair me n) d' (check.refusal a.result)
  kept : ∀ key, Kept key d d'
  untouched : ∀ m, n < m → Fresh (Nat.pair me m) d'

/-- Redis does not answer. -/
theorem checked_degraded {me n : Nat} (check : Check) {d d' : Redis} (kept : ∀ key, Kept key d d')
    (untouched : ∀ m, n < m → Fresh (Nat.pair me m) d') :
    Checked cfg me n check
      { saw := .error .redis, result := degrade check.bucket.options check.bucket.failPolicy }
      d d' := by
  cases policy : check.bucket.failPolicy with
  | fail_closed =>
    refine ⟨fun allowed => ?_, fun _ => ⟨policy, rfl⟩, kept, untouched⟩
    cases allowed
  | fail_open =>
    refine ⟨fun _ => Or.inl policy, fun refused => ?_, kept, untouched⟩
    cases refused

/-- Redis answers what the script of the check has counted. -/
theorem checked_replied {me n k : Nat} {check : Check} {reply : ScriptReply} {d d' : Redis}
    (least : 1 ≤ check.bucket.options.windowSeconds)
    (placed : PlacedAt (check.key cfg) (Nat.pair me n) k d') (current : reply.current = k + 1)
    (left : reply.ttl ≤ check.bucket.options.windowSeconds) (kept : ∀ key, Kept key d d')
    (untouched : ∀ m, n < m → Fresh (Nat.pair me m) d') :
    Checked cfg me n check
      { saw := .ok reply, result := decideLimit check.bucket.options reply } d d' := by
  have allowed_iff := decideLimit_allowed check.bucket.options current
  refine ⟨fun allowed => Or.inr ⟨k, placed, allowed_iff.mp allowed⟩, fun refused => ?_, kept,
    untouched⟩
  have above : check.bucket.options.maxLimit ≤ k := by
    by_contra below
    rw [allowed_iff.mpr (by omega)] at refused
    cases refused
  have exceeds : check.bucket.options.maxLimit < reply.current := by
    rw [current]
    push_cast
    omega
  simp only [decideLimit, if_pos exceeds, Check.refusal]
  refine ⟨rfl, rfl, ?_, ?_, k, placed, above⟩
  · split
    · exact least
    · split <;> omega
  · split
    · exact Int.le_refl _
    · split <;> omega

/-- The script of a check, which leaves the numbers of the later checks unused. -/
def Check.script (cfg : Config) (check : Check) (call : Nat) : Write :=
  .script call (check.key cfg) check.bucket.options.windowSeconds

omit positive in
theorem commit_of_check {me n : Nat} {check : Check} {d : Redis}
    (listed : optionsOf cfg (check.key cfg) = check.bucket.options)
    (recorded : Recorded (optionsOf cfg) d) (unused : ∀ m, n ≤ m → Fresh (Nat.pair me m) d) :
    Commit (optionsOf cfg) (Nat.pair me n) (.script (check.key cfg)) d
        (check.script cfg (Nat.pair me n)) ∧
      ∀ m, n < m → Fresh (Nat.pair me m) ((check.script cfg (Nat.pair me n)).apply d) := by
  have commit : Commit (optionsOf cfg) (Nat.pair me n) (.script (check.key cfg)) d
      (check.script cfg (Nat.pair me n)) := by
    rw [Check.script, ← listed]
    exact .script (check.key cfg) (unused n (Nat.le_refl n))
  refine ⟨commit, fun m above => ?_⟩
  have differ : Nat.pair me n ≠ Nat.pair me m := fun same => above.ne (Nat.pair_eq_pair.mp same).2
  exact commit.fresh recorded differ (unused m above.le)

theorem check_checked (me n : Nat) {check : Check} {d : Redis}
    (listed : optionsOf cfg (check.key cfg) = check.bucket.options)
    (unused : ∀ m, n ≤ m → Fresh (Nat.pair me m) d) :
    Call.wp (protocol positive) me
      (fun r tx d' => tx = none ∧ ∀ a, r = .ok a → Checked cfg me n check a d d')
      (incrementRateLimit (Nat.pair me n) (check.key cfg) check.bucket.options
        check.bucket.failPolicy) none d := by
  simp only [incrementRateLimit, Call.wp_bind, Call.wp_attempt, evalScript, Call.wp_choose]
  intro d₁ rely₁ reached
  have unused₁ : ∀ m, n ≤ m → Fresh (Nat.pair me m) d₁ :=
    fun m above => rely₁.evo.1 m (unused m above)
  cases reached with
  | false =>
    -- Redis was not reached, and nothing was counted
    refine ⟨rfl, ?_⟩
    rintro a ⟨⟩
    exact checked_degraded check rely₁.evo.2 fun m above => unused₁ m above.le
  | true =>
    simp only [Call.andThen_ok, if_true, Call.wp_bind, Call.wp_stmt_alone]
    intro d₂ rely₂ _
    have unused₂ : ∀ m, n ≤ m → Fresh (Nat.pair me m) d₂ :=
      fun m above => rely₂.evo.1 m (unused₁ m above)
    obtain ⟨commit, untouched⟩ := commit_of_check listed rely₂.inv unused₂
    refine ⟨Or.inr ⟨_, n, rfl, commit⟩, ?_⟩
    have kept : ∀ key, Kept key d ((check.script cfg (Nat.pair me n)).apply d₂) := fun key =>
      ((rely₁.evo.2 key).trans (rely₂.evo.2 key)).trans (commit.kept rely₂.inv key)
    simp only [Call.andThen_ok, Call.wp_bind, Call.wp_choose]
    intro d₃ rely₃ answered
    have kept₃ : ∀ key, Kept key d d₃ := fun key => (kept key).trans (rely₃.evo.2 key)
    have untouched₃ : ∀ m, n < m → Fresh (Nat.pair me m) d₃ :=
      fun m above => rely₃.evo.1 m (untouched m above)
    cases answered with
    | false =>
      -- the answer was lost: the script has counted the call, but the policy decides
      refine ⟨rfl, ?_⟩
      rintro a ⟨⟩
      exact checked_degraded check kept₃ untouched₃
    | true =>
      refine ⟨rfl, ?_⟩
      rintro a ⟨⟩
      obtain ⟨calls, member, k, place, current⟩ := place_of_script rely₂.inv (Nat.pair me n)
        (check.key cfg) check.bucket.options.windowSeconds
      have least := windowSeconds_positive positive (check.key cfg)
      have left := @rateLimitScript_ttl d₂ _ (check.key cfg) (windowSeconds_positive positive)
        rely₂.inv
      rw [listed] at least left
      exact checked_replied least (PlacedAt.kept ⟨calls, member, place⟩ (rely₃.evo.2 _)) current
        left kept₃ untouched₃

/-- By induction on the checks that are left. -/
theorem limit_answers (me : Nat) {checks : List Check} {n : Nat} {d : Redis}
    (listed : ∀ check ∈ checks, optionsOf cfg (check.key cfg) = check.bucket.options)
    (unused : ∀ m, n ≤ m → Fresh (Nat.pair me m) d) :
    Call.wp (protocol positive) me (fun r _ d' => ∀ response, r = .ok response →
        Answers cfg me d' n checks response ∧ ∀ key, Kept key d d')
      (limit cfg me n checks) none d := by
  induction checks generalizing n d with
  | nil =>
    rintro response ⟨⟩
    exact ⟨.next, fun key => .refl key d⟩
  | cons check checks ih =>
    rw [limit, Call.wp_bind]
    refine Call.wp_mono ?_ (check_checked positive me n (listed check List.mem_cons_self) unused)
    rintro (e | a) tx d' ⟨rfl, checked⟩
    · rintro response ⟨⟩
    · obtain ⟨admits, refuses, kept, untouched⟩ := checked a rfl
      simp only [Call.andThen_ok]
      by_cases allowed : a.result.allowed = true
      · rw [if_pos allowed]
        -- the checks that follow have numbers above this one
        have rest := ih (fun check later => listed check (List.mem_cons_of_mem _ later))
          (n := n + 1) (d := d') fun m above => untouched m above
        refine Call.wp_mono (fun r _ d'' answered response returned => ?_) rest
        obtain ⟨answers, later⟩ := answered response returned
        exact ⟨.admits ((admits allowed).kept later) answers,
          fun key => (kept key).trans (later key)⟩
      · rw [if_neg allowed]
        rintro response ⟨⟩
        exact ⟨.refuses (refuses (Bool.not_eq_true _ ▸ allowed)) untouched, kept⟩

theorem verified : Pool.VerifiedFresh (protocol positive)
    (fun me op outcome d => ∀ response, outcome = .ok response →
      Answers cfg me d 0 (op.checks cfg) response)
    (system cfg) (fun me d => ∀ m, Fresh (Nat.pair me m) d) := by
  intro me op d fresh
  have limited : ∀ checks : List Check,
      (∀ check ∈ checks, optionsOf cfg (check.key cfg) = check.bucket.options) →
      Call.wp (protocol positive) me (fun r _ d' => ∀ response, r = .ok response →
        Answers cfg me d' 0 checks response) (limit cfg me 0 checks) none d := fun checks listed =>
    Call.wp_mono (fun _ _ _ answered response returned => (answered response returned).1)
      (limit_answers positive me listed fun m _ => fresh m)
  cases op with
  | otpRequest r => exact limited _ fun check => @optionsOf_check cfg (.otpRequest r) check
  | otpVerify r => exact limited _ fun check => @optionsOf_check cfg (.otpVerify r) check
  | route at_ r => exact limited _ fun check => @optionsOf_check cfg (.route at_ r) check
  | persist key =>
    show Call.wp (protocol positive) me (fun r _ d => ∀ response, r = .ok response →
        Answers cfg me d 0 [] response)
      (Call.stmt (.persisted key) fun _ => .ok ([.persist key], .next)) none d
    rw [Call.wp_stmt_alone]
    refine fun d' _ _ => ⟨Or.inr ⟨_, 0, rfl, .persisted key⟩, ?_⟩
    rintro response ⟨⟩
    exact .next
  | tick =>
    show Call.wp (protocol positive) me (fun r _ d => ∀ response, r = .ok response →
        Answers cfg me d 0 [] response) (Call.stmt .ticked fun _ => .ok ([.tick], .next)) none d
    rw [Call.wp_stmt_alone]
    refine fun d' _ _ => ⟨Or.inr ⟨_, 0, rfl, .ticked⟩, ?_⟩
    rintro response ⟨⟩
    exact .next

variable {p q : RequestPool}

include positive

theorem sound_of_run (run : Runs cfg start p) :
    Pool.Sound (protocol positive) (fun me op outcome d => ∀ response, outcome = .ok response →
      Answers cfg me d 0 (op.checks cfg) response) p ∧
      ∀ me, p.threads.length ≤ me → ∀ m, Fresh (Nat.pair me m) p.db :=
  run.soundFresh (verified positive) (fun _ _ _ evo fresh m => evo.1 m (fresh m))
    (fun _ _ _ _ _ _ _ _ => trivial) (.empty recorded_start) fun _ _ _ => fresh_start _

theorem answers_of_run (run : Runs cfg start p) {i : Nat}
    {th : Thread Label Redis Write Empty Op Outcome} {response : Response}
    (found : p.threads[i]? = some th) (returned : th.prog.returned = some (.ok response)) :
    Answers cfg i p.db 0 (th.op.checks cfg) response := by
  refine run.returnedAmongOthers (verified positive) (fun _ _ _ evo fresh m => evo.1 m (fresh m))
    (fun _ _ _ _ _ _ _ _ => trivial) (.empty recorded_start) (fun _ _ _ => fresh_start _) ?_ ?_
    i th _ found returned response rfl
  · intro i op a j ℓ d d' apart recorded answered guar response returned
    have evo := (protocol positive).guar_evo j i ℓ d d' apart.symm recorded guar
    exact (answered response returned).kept evo.2 evo.1
  · rintro j th a ⟨⟩

theorem commit_of_step (run : Runs cfg start p) {e : Event Op}
    (stepped : p.step (system cfg) e = some q) :
    q.db = p.db ∨ ∃ call ℓ w, q.db = w.apply p.db ∧ Commit (optionsOf cfg) call ℓ p.db w := by
  have sound := sound_of_run positive run
  have next := sound.1.stepFresh (verified positive)
    (fun _ _ _ evo fresh m => evo.1 m (fresh m)) sound.2 (fun _ _ _ _ _ => trivial) (.of_lax p e)
    stepped
  rcases next.1.does with same | ⟨i, answer, ℓ, event, labelled, w, n, after, commit⟩
  · exact Or.inl same
  · exact Or.inr ⟨_, ℓ, w, after, commit⟩

end Calls

/-! ### A window's length of time -/

section Stretch

variable {cfg : Config} {key : Text} {windows : List (List Nat)} {till : Nat} {d : Redis}

/-- What has become of a key's windows by a time: at most its newest window has grown and one was
opened, which then lasts until that time. -/
def Stretched (key : Text) (windows : List (List Nat)) (till : Nat) (d : Redis) : Prop :=
  ∃ front, d.windows key = front ++ windows.tail ∧
    (front.length = min 1 windows.length ∨ (front ≠ [] ∧ front.length ≤ 2 ∧
      ∃ c, d.counters key = some c ∧ ∀ t, c.deadline = some t → till ≤ t))

theorem Stretched.refl (d : Redis) : Stretched key (d.windows key) till d :=
  ⟨(d.windows key).take 1, by rw [← List.drop_one, List.take_append_drop],
    Or.inl (List.length_take ..)⟩

theorem Stretched.same {d' : Redis} (stretched : Stretched key windows till d)
    (same : d'.windows key = d.windows key) (counters : d'.counters key = d.counters key) :
    Stretched key windows till d' := by
  rw [Stretched, same, counters]
  exact stretched

/-- As long as a time lies ahead, a counter that lasts until then is there. -/
theorem get_of_lasting {c : Counter} (stored : d.counters key = some c)
    (lasting : ∀ t, c.deadline = some t → till ≤ t) (soon : d.now ≤ till) : d.get key = some c := by
  refine Option.filter_eq_some_iff.mpr ⟨stored, ?_⟩
  cases deadline : c.deadline with
  | none => rfl
  | some t => simpa using soon.trans (lasting t deadline)

theorem Stretched.script {call : Nat} (positive : ∀ key, 1 ≤ (optionsOf cfg key).windowSeconds)
    (stretched : Stretched key windows till d) (recorded : Recorded (optionsOf cfg) d)
    (ahead : till ≤ d.now + (optionsOf cfg key).windowSeconds.toNat * 1000) (soon : d.now ≤ till) :
    Stretched key windows till
      ((Write.script call key (optionsOf cfg key).windowSeconds).apply d) := by
  obtain ⟨front, split, length⟩ := stretched
  have counters := congrFun (@counters_script _ call d key positive recorded) key
  rw [Function.update_self] at counters
  have lasting : ∀ t, some (d.nextDeadline key (optionsOf cfg key).windowSeconds) = some t →
      (∀ c, d.get key = some c → ∀ t, c.deadline = some t → till ≤ t) → till ≤ t := by
    rintro t ⟨⟩ old
    rw [Redis.nextDeadline]
    cases found : d.get key with
    | none => exact ahead
    | some c =>
      cases deadline : c.deadline with
      | none => simpa [deadline] using ahead
      | some t => simpa [deadline] using old c found t deadline
  rw [Stretched, windows_script, Function.update_self, counters]
  rcases record_eq recorded call key with ⟨found, record⟩ | ⟨c, calls, older, found, old, -, record⟩
  · -- the script opens a window, and the one before had not been opened in this time
    refine ⟨[call] :: front, by rw [record, split]; rfl,
      Or.inr ⟨List.cons_ne_nil _ _, ?_, _, rfl, ?_⟩⟩
    · rcases length with first | ⟨-, -, c, stored, lasts⟩
      · rw [List.length_cons, first]
        omega
      · rw [get_of_lasting stored lasts soon] at found
        cases found
    · exact fun t due => lasting t due fun c stored => absurd (found.symm.trans stored) (by simp)
  · -- the newest window grows
    have grown : ∃ rest, front = calls :: rest := by
      cases front with
      | cons first rest =>
        rw [old, List.cons_append] at split
        exact ⟨rest, by rw [(List.cons.inj split).1]⟩
      | nil =>
        rcases length with first | ⟨opened, -⟩
        · have empty : windows = [] :=
            List.eq_nil_of_length_eq_zero (by rw [List.length_nil] at first; omega)
          rw [old, empty] at split
          cases split
        · exact absurd rfl opened
    obtain ⟨rest, rfl⟩ := grown
    rw [old, List.cons_append] at split
    refine ⟨(calls ++ [call]) :: rest, by rw [record, (List.cons.inj split).2]; rfl, ?_⟩
    rcases length with first | ⟨-, two, c', stored, lasts⟩
    · exact Or.inl (by simpa using first)
    · refine Or.inr ⟨List.cons_ne_nil _ _, by simpa using two, _, rfl, fun t due => ?_⟩
      refine lasting t due fun c₁ found₁ t₁ deadline => ?_
      obtain rfl := Option.some.inj (stored.symm.trans (get_some d key found₁).1)
      exact lasts t₁ deadline

theorem Stretched.commit {call : Nat} {ℓ : Label} {w : Write}
    (positive : ∀ key, 1 ≤ (optionsOf cfg key).windowSeconds)
    (stretched : Stretched key windows till d) (recorded : Recorded (optionsOf cfg) d)
    (commit : Commit (optionsOf cfg) call ℓ d w)
    (ahead : till ≤ d.now + (optionsOf cfg key).windowSeconds.toNat * 1000) (soon : d.now ≤ till) :
    Stretched key windows till (w.apply d) := by
  cases commit with
  | ticked => exact stretched.same rfl rfl
  | script key' fresh =>
    by_cases same : key = key'
    · subst same
      exact stretched.script positive recorded ahead soon
    · have only := rateLimitScript_only d key' (optionsOf cfg key').windowSeconds
      exact stretched.same (by rw [windows_script, Function.update_of_ne same])
        (only.others key same)
  | persisted key' =>
    by_cases same : key = key'
    · subst same
      obtain ⟨front, split, length⟩ := stretched
      refine ⟨front, split, ?_⟩
      rcases length with first | ⟨opened, two, c, stored, lasts⟩
      · exact Or.inl first
      refine Or.inr ⟨opened, two, { c with deadline := none }, ?_, by simp⟩
      have counters : ((Write.persist key).apply d).counters key =
          (d.get key).map fun c => { c with deadline := none } := Function.update_self ..
      rw [counters, get_of_lasting stored lasts soon]
      rfl
    · exact stretched.same rfl (Function.update_of_ne same _ _)

theorem now_of_commit {call : Nat} {ℓ : Label} {w : Write}
    (commit : Commit (optionsOf cfg) call ℓ d w) : d.now ≤ (w.apply d).now := by
  cases commit with
  | script key fresh => exact now_script.ge
  | persisted key => exact Nat.le_refl _
  | ticked => exact Nat.le_succ _

variable {p q : RequestPool}

theorem stretched_of_run (positive : 1 ≤ cfg.otpRateLimitWindowSeconds) (run : Runs cfg start p)
    (later : Runs cfg p q)
    (short : q.db.now ≤ p.db.now + (optionsOf cfg key).windowSeconds.toNat * 1000) :
    p.db.now ≤ q.db.now ∧ Stretched key (p.db.windows key)
      (p.db.now + (optionsOf cfg key).windowSeconds.toNat * 1000) q.db := by
  induction later with
  | refl => exact ⟨Nat.le_refl _, .refl _⟩
  | @step q q' e before allowed stepped ih =>
    have reached := run.trans before
    rcases commit_of_step positive reached stepped with same | ⟨call, ℓ, w, after, commit⟩
    · rw [same] at short ⊢
      exact ih short
    · have passes := now_of_commit commit
      rw [← after] at passes
      obtain ⟨began, stretched⟩ := ih (passes.trans short)
      refine ⟨began.trans passes, ?_⟩
      rw [after]
      exact stretched.commit (windowSeconds_positive positive) (sound_of_run positive reached).1.inv
        commit (Nat.add_le_add_right began _) (passes.trans short)

end Stretch

/-! ### Results -/

section Results

variable {cfg : Config} {p q : RequestPool}

/-- The request of a call, if it has passed a check. -/
def passed (cfg : Config) (check : Check) (p : RequestPool) (i : Nat) : Bool :=
  p.threads[i]?.any fun th =>
    decide (check ∈ th.op.checks cfg ∧ th.prog.returned = some (.ok .next))

/-- The places below a limit in a few windows. -/
theorem length_places_le {windows : List (List Nat)} {n limit : Nat} (few : windows.length ≤ n) :
    (windows.flatMap fun calls => calls.take limit).length ≤ n * limit := by
  have each : ∀ length ∈ windows.map fun calls => (calls.take limit).length, length ≤ limit := by
    intro length member
    obtain ⟨calls, -, rfl⟩ := List.mem_map.mp member
    exact List.length_take_le _ _
  calc (windows.flatMap fun calls => calls.take limit).length
      = (windows.map fun calls => (calls.take limit).length).sum := List.length_flatMap
    _ ≤ (windows.map fun calls => (calls.take limit).length).length • limit :=
      List.sum_le_card_nsmul _ _ each
    _ = windows.length * limit := by rw [List.length_map, smul_eq_mul]
    _ ≤ n * limit := Nat.mul_le_mul_right _ few

/-- A request that has come in since a state and passed stands below the limit in a window, at a
place that was not taken then. -/
theorem placed_of_passed (positive : 1 ≤ cfg.otpRateLimitWindowSeconds) (run : Runs cfg start p)
    (later : Runs cfg p q) {check : Check} (closed : check.bucket.failPolicy = .fail_closed)
    {i : Nat} (since : p.threads.length ≤ i) (passes : passed cfg check q i = true) :
    ∃ m, Nat.pair i m ∉ p.db.ran (check.key cfg) ∧ ∃ calls ∈ q.db.windows (check.key cfg),
      Nat.pair i m ∈ calls.take check.bucket.options.maxLimit.toNat := by
  obtain ⟨th, found, hit⟩ := (Option.any_eq_true _ _).mp passes
  obtain ⟨asks, returned⟩ := of_decide_eq_true hit
  obtain ⟨m, k, ⟨calls, window, place⟩, below⟩ :=
    (answers_of_run positive (run.trans later) found returned).placed rfl asks closed
  have new := (sound_of_run positive run).2 i since m (check.key cfg)
  have short : k < check.bucket.options.maxLimit.toNat := by omega
  exact ⟨m, new, calls, window,
    List.mem_of_getElem? ((List.getElem?_take_of_lt short).trans place)⟩

/-- Of the requests that come in within a window's length of time, at most twice the limit pass a
check that fails closed, however they overlap, whatever requests or replies are lost, and even when
the key loses its deadline. -/
theorem requests_bounded (positive : 1 ≤ cfg.otpRateLimitWindowSeconds) (run : Runs cfg start p)
    (later : Runs cfg p q) {check : Check} (listed : check.bucket ∈ buckets cfg)
    (closed : check.bucket.failPolicy = .fail_closed)
    (short : q.db.now ≤ p.db.now + check.bucket.options.windowSeconds.toNat * 1000) :
    (List.range' p.threads.length (q.threads.length - p.threads.length)).countP
      (passed cfg check q) ≤ 2 * check.bucket.options.maxLimit.toNat := by
  have options : optionsOf cfg (check.key cfg) = check.bucket.options := optionsOf_key listed _
  rw [← options] at short
  obtain ⟨-, front, split, length⟩ := stretched_of_run positive run later short
  have two : front.length ≤ 2 := by
    rcases length with first | ⟨-, two, -⟩
    · omega
    · exact two
  -- each has a place of its own below the limit in a window that has grown or was opened
  have placed : (List.range' p.threads.length (q.threads.length - p.threads.length)).filter
        (passed cfg check q) ⊆
      (front.flatMap fun calls => calls.take check.bucket.options.maxLimit.toNat).map
        fun call => (Nat.unpair call).1 := by
    intro i member
    obtain ⟨inside, passes⟩ := List.mem_filter.mp member
    obtain ⟨m, new, calls, window, place⟩ :=
      placed_of_passed positive run later closed (List.mem_range'_1.mp inside).1 passes
    rw [split] at window
    rcases List.mem_append.mp window with grown | old
    · exact List.mem_map.mpr ⟨Nat.pair i m, List.mem_flatMap.mpr ⟨calls, grown, place⟩, by simp⟩
    · exact absurd (List.mem_flatten.mpr ⟨calls, List.mem_of_mem_tail old,
        List.mem_of_mem_take place⟩) new
  have nodup := (List.nodup_range' (s := p.threads.length)
    (n := q.threads.length - p.threads.length)).filter (passed cfg check q)
  rw [List.countP_eq_length_filter]
  calc _ ≤ _ := (nodup.subperm placed).length_le
    _ = _ := List.length_map _
    _ ≤ _ := length_places_le two

/-- The checks that have let a request through, and the one that has refused it, if any. -/
theorem Answers.parts {me n : Nat} {checks : List Check} {response : Response} {d : Redis}
    (answers : Answers cfg me d n checks response) :
    ∃ before after, checks = before ++ after ∧
      (∀ (k : Nat) (check : Check), before[k]? = some check →
        check.Admits cfg (Nat.pair me (n + k)) d) ∧
      ((after = [] ∧ response = .next) ∨ ∃ check later, after = check :: later ∧
        check.Refuses cfg (Nat.pair me (n + before.length)) d response ∧
        ∀ m, n + before.length < m → Fresh (Nat.pair me m) d) := by
  induction answers with
  | next => exact ⟨[], [], rfl, by simp, Or.inl ⟨rfl, rfl⟩⟩
  | @refuses n check checks response refuses untouched =>
    exact ⟨[], check :: checks, rfl, by simp, Or.inr ⟨check, checks, rfl, refuses, untouched⟩⟩
  | @admits n check checks response admits rest ih =>
    obtain ⟨before, after, split, all, ending⟩ := ih
    have shift : ∀ k, n + 1 + k = n + (k + 1) := by omega
    refine ⟨check :: before, after, by rw [split]; rfl, fun k first found => ?_, ?_⟩
    · cases k with
      | zero =>
        obtain rfl := Option.some.inj found
        exact admits
      | succ k =>
        rw [← shift]
        exact all k first found
    · rw [List.length_cons, ← shift]
      exact ending

/-- A response tells at which check the request was refused: every check before has placed it below
the limit, unless it fails open; a refusal for too many requests comes from a script that was placed
at the limit or above and names a time within the window; a refusal because Redis does not answer
only comes from a check that fails closed; and no check after it has counted the request. -/
theorem responses_explained (positive : 1 ≤ cfg.otpRateLimitWindowSeconds) (run : Runs cfg start p)
    {i : Nat} {th : Thread Label Redis Write Empty Op Outcome} {response : Response}
    (found : p.threads[i]? = some th) (returned : th.prog.returned = some (.ok response)) :
    ∃ before after, th.op.checks cfg = before ++ after ∧
      (∀ (k : Nat) (check : Check), before[k]? = some check →
        check.Admits cfg (Nat.pair i k) p.db) ∧
      ((after = [] ∧ response = .next) ∨ ∃ check later, after = check :: later ∧
        check.Refuses cfg (Nat.pair i before.length) p.db response ∧
        ∀ m key, before.length < m → Nat.pair i m ∉ p.db.ran key) := by
  obtain ⟨before, after, split, all, ending⟩ := (answers_of_run positive run found returned).parts
  simp only [Nat.zero_add] at all ending
  refine ⟨before, after, split, all, ending.imp_right ?_⟩
  rintro ⟨check, later, same, refuses, untouched⟩
  exact ⟨check, later, same, refuses, fun m key above => untouched m above key⟩

end Results

/-! ### A run -/

/-- One verification for each address in the time of a window, and identifiers as they are. -/
def oneVerification : Config where
  otpMaxVerifyAttemptsPerIp := 1
  hashIdentifier := id
  auth := { comparePassword := fun _ _ => false, compareSecret := fun _ _ => false
            parsePhoneNumber := some, verifyRefreshToken := fun _ _ => none }

/-- The first check of a verification from an unknown address. -/
def unknownAddress : Check := ⟨verifyIp oneVerification, "unknown_ip".toList⟩

/-- Two verifications from an unknown address, one after the other. -/
def verifiedTwice : RequestPool :=
  start.after (system oneVerification) (Pool.Meets fun _ _ => True) 10
    [.event (.spawn (.otpVerify {})), .drive 0 true, .event (.spawn (.otpVerify {})), .drive 1 true]

theorem runs_verifiedTwice : Runs oneVerification start verifiedTwice :=
  Pool.Reaches.refl.after 10 _

theorem requests_bounded_verified : ∃ q : RequestPool,
    passed oneVerification unknownAddress q 0 = true ∧
      (List.range' 0 2).countP (passed oneVerification unknownAddress q) ≤ 2 :=
  ⟨verifiedTwice, by decide +kernel,
    requests_bounded (p := start) (q := verifiedTwice) (by decide) .refl runs_verifiedTwice
      (show unknownAddress.bucket ∈ buckets oneVerification by simp [unknownAddress, buckets]) rfl
      (by decide +kernel)⟩

theorem responses_explained_refused : ∃ before after, [unknownAddress] = before ++ after ∧
    (∀ (k : Nat) (check : Check), before[k]? = some check →
      check.Admits oneVerification (Nat.pair 1 k) verifiedTwice.db) ∧
    ((after = [] ∧ Response.rateLimited "OTP_RATE_LIMITED"
          "Too many verification attempts from this IP. Please try again later." 900 = .next) ∨
      ∃ check later, after = check :: later ∧
        check.Refuses oneVerification (Nat.pair 1 before.length) verifiedTwice.db
          (.rateLimited "OTP_RATE_LIMITED"
            "Too many verification attempts from this IP. Please try again later." 900) ∧
        ∀ m key, before.length < m → Nat.pair 1 m ∉ verifiedTwice.db.ran key) :=
  responses_explained (p := verifiedTwice) (i := 1) (by decide) runs_verifiedTwice
    (show verifiedTwice.threads[1]? = some _ from rfl) (by rfl)

end LabourBaba.RateLimit.Middlewares
