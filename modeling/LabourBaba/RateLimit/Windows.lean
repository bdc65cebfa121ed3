import LabourBaba.RateLimit.Limiter
import Mathlib

/-!
# Windows of the rate limiter

Between two expiries of a key its counter is the number of scripts that have run on it, so
a call that has seen the reply of its script knows its place in the window. The script
leaves no key without a deadline, and none further away than the window is long.
-/
namespace LabourBaba.RateLimit

open Store

/-! ### What the script does -/

section Script

variable (d : Redis) (key : Text) (windowSeconds : Int)

theorem get_set (c : Option Counter) :
    (d.set key c).get key = c.filter fun c => c.deadline.all fun t => decide (d.now ≤ t) := by
  simp only [Redis.get, Redis.set, Function.update_self]
  rfl

theorem get_some {c : Counter} (found : d.get key = some c) :
    d.counters key = some c ∧ ∀ t, c.deadline = some t → d.now ≤ t := by
  obtain ⟨stored, alive⟩ := Option.filter_eq_some_iff.mp found
  refine ⟨stored, fun t deadline => ?_⟩
  simpa [deadline] using alive

/-- A command leaves the clock, the record and the other keys alone. -/
structure Only (key : Text) (d d' : Redis) : Prop where
  now : d'.now = d.now
  windows : d'.windows = d.windows
  others : ∀ other, other ≠ key → d'.counters other = d.counters other

theorem Only.refl (key : Text) (d : Redis) : Only key d d := ⟨rfl, rfl, fun _ _ => rfl⟩

theorem Only.trans {key : Text} {d d' d'' : Redis} (first : Only key d d')
    (second : Only key d' d'') : Only key d d'' where
  now := second.now.trans first.now
  windows := second.windows.trans first.windows
  others other differ := (second.others other differ).trans (first.others other differ)

theorem Only.set (c : Option Counter) : Only key d (d.set key c) :=
  ⟨rfl, rfl, fun _ differ => Function.update_of_ne differ _ _⟩

theorem Only.expire : Only key d (d.expire key windowSeconds) := by
  rw [Redis.expire]
  split
  · exact .refl key d
  · split
    · exact .set d key _
    · exact .set d key _

theorem rateLimitScript_only : Only key d (rateLimitScript key windowSeconds d).1 := by
  have first : Only key d (d.incr key).1 := .set d key _
  simp only [rateLimitScript]
  split
  · split
    · exact (first.trans (.expire _ _ _)).trans (.expire _ _ _)
    · exact first.trans (.expire _ _ _)
  · split
    · exact first.trans (.expire _ _ _)
    · exact first

/-- The count of the key as commands see it. -/
def Redis.count (d : Redis) (key : Text) : Nat := ((d.get key).map Counter.count).getD 0

theorem rateLimitScript_current :
    (rateLimitScript key windowSeconds d).2.current = d.count key + 1 := by
  have incremented : (d.incr key).2 = d.count key + 1 := by
    simp only [Redis.incr, Redis.count]
    cases d.get key <;> rfl
  simp only [rateLimitScript]
  split
  · split <;> exact incremented
  · split <;> exact incremented

/-- The deadline that a script leaves: the one it finds, or else a whole window. -/
def Redis.nextDeadline (d : Redis) (key : Text) (windowSeconds : Int) : Nat :=
  ((d.get key).bind Counter.deadline).getD (d.now + windowSeconds.toNat * 1000)

variable {d key windowSeconds}

theorem get_of_due {c : Counter} {t : Nat} (deadline : c.deadline = some t) (due : d.now ≤ t) :
    (d.set key (some c)).get key = some c := by
  rw [get_set]
  exact Option.filter_eq_some_iff.mpr ⟨rfl, by simp [deadline, due]⟩

theorem get_of_immortal {c : Counter} (deadline : c.deadline = none) :
    (d.set key (some c)).get key = some c := by
  rw [get_set]
  exact Option.filter_eq_some_iff.mpr ⟨rfl, by simp [deadline]⟩

theorem expire_of_get {c : Counter} (positive : 1 ≤ windowSeconds) (found : d.get key = some c) :
    d.expire key windowSeconds =
      d.set key (some { c with deadline := some (d.now + windowSeconds.toNat * 1000) }) := by
  have ahead : ¬ windowSeconds ≤ 0 := by omega
  simp only [Redis.expire, found, if_neg ahead]

theorem set_set (c c' : Option Counter) : (d.set key c).set key c' = d.set key c' := by
  simp [Redis.set]

theorem ttl_of_immortal {c : Counter} (found : d.get key = some c) (immortal : c.deadline = none) :
    d.ttl key = -1 := by
  obtain ⟨count, deadline⟩ := c
  obtain rfl : deadline = none := immortal
  simp [Redis.ttl, found]

theorem ttl_of_deadline {c : Counter} {t : Nat} (found : d.get key = some c)
    (deadline : c.deadline = some t) : d.ttl key ≠ -1 := by
  obtain ⟨count, _⟩ := c
  obtain rfl := deadline
  simp only [Redis.ttl, found]
  omega

/-- A key that already counts keeps its deadline; one without a deadline, or a new one, gets
a whole window. -/
theorem rateLimitScript_counter (positive : 1 ≤ windowSeconds)
    (counting : ∀ c, d.get key = some c → 0 < c.count) :
    (rateLimitScript key windowSeconds d).1 =
      d.set key (some { count := d.count key + 1
                        deadline := some (d.nextDeadline key windowSeconds) }) := by
  have window : d.now ≤ d.now + windowSeconds.toNat * 1000 := Nat.le_add_right _ _
  cases found : d.get key with
  | none =>
    -- a new key counts 1, so that its deadline is set at once
    have created : (d.set key (some { count := 1 })).get key = some { count := 1 } :=
      get_of_immortal rfl
    have expiring : (d.set key (some { count := 1 })).expire key windowSeconds =
        d.set key (some { count := 1, deadline := some (d.now + windowSeconds.toNat * 1000) }) := by
      rw [expire_of_get positive created, set_set]
      rfl
    have live := @get_of_due d key
      { count := 1, deadline := some (d.now + windowSeconds.toNat * 1000) } _ rfl window
    simp only [rateLimitScript, Redis.incr, found, Option.getD_none, Nat.zero_add, if_true]
    rw [expiring, if_neg (ttl_of_deadline live rfl)]
    simp [Redis.count, Redis.nextDeadline, found, Redis.set]
  | some c =>
    obtain ⟨count, deadline⟩ := c
    have later : count + 1 ≠ 1 := by
      have := counting _ found
      simp only at this
      omega
    simp only [rateLimitScript, Redis.incr, found, Option.getD_some, if_neg later]
    cases deadline with
    | none =>
      -- the script repairs a key that it finds without a deadline
      have immortal : (d.set key (some { count := count + 1 })).get key =
          some { count := count + 1 } := get_of_immortal rfl
      have expiring : (d.set key (some { count := count + 1 })).expire key windowSeconds =
          d.set key (some { count := count + 1
                            deadline := some (d.now + windowSeconds.toNat * 1000) }) := by
        rw [expire_of_get positive immortal, set_set]
        rfl
      rw [if_pos (ttl_of_immortal immortal rfl), expiring]
      simp [Redis.count, Redis.nextDeadline, found, Redis.set]
    | some t =>
      have due := (get_some d key found).2 t rfl
      have live := @get_of_due d key { count := count + 1, deadline := some t } t rfl due
      rw [if_neg (ttl_of_deadline live rfl)]
      simp [Redis.count, Redis.nextDeadline, found]

end Script

/-! ### What a command commits -/

/-- The calls whose script has run on the key. -/
def Redis.ran (d : Redis) (key : Text) : List Nat := (d.windows key).flatten

/-- No script of the call has run. -/
def Fresh (call : Nat) (d : Redis) : Prop := ∀ key, call ∉ d.ran key

/-- A window only takes calls at its end. -/
def Kept (key : Text) (d d' : Redis) : Prop :=
  ∀ calls ∈ d.windows key, ∃ calls' ∈ d'.windows key, calls <+: calls'

theorem Kept.refl (key : Text) (d : Redis) : Kept key d d :=
  fun calls member => ⟨calls, member, List.prefix_refl calls⟩

theorem Kept.trans {key : Text} {d d' d'' : Redis} (first : Kept key d d')
    (second : Kept key d' d'') : Kept key d d'' := by
  intro calls member
  obtain ⟨calls', member', shorter⟩ := first calls member
  obtain ⟨calls'', member'', shorter'⟩ := second calls' member'
  exact ⟨calls'', member'', shorter.trans shorter'⟩

/-- The counter of a key and the record of its scripts. -/
structure Counted (options : RateLimitOptions) (key : Text) (d : Redis) : Prop where
  counts : ∀ c, d.counters key = some c → 0 < c.count ∧
    ∃ older calls, d.windows key = calls :: older ∧ calls.length = c.count
  bounded : ∀ c t, d.counters key = some c → c.deadline = some t →
    t ≤ d.now + options.windowSeconds.toNat * 1000
  once : (d.ran key).Nodup

structure Recorded (options : Text → RateLimitOptions) (d : Redis) : Prop where
  counted : ∀ key, Counted (options key) key d
  apart : ∀ key key' call, call ∈ d.ran key → call ∈ d.ran key' → key = key'

inductive Commit (options : Text → RateLimitOptions) (call : Nat) : Label → Redis → Write → Prop
  | script {d : Redis} (key : Text) (fresh : Fresh call d) :
    Commit options call (.script key) d (.script call key (options key).windowSeconds)
  | persisted {d : Redis} (key : Text) : Commit options call (.persisted key) d (.persist key)
  | ticked {d : Redis} : Commit options call .ticked d .tick

section Commits

variable {options : Text → RateLimitOptions} {call : Nat} {ℓ : Label} {d : Redis} {w : Write}
  {key : Text}

theorem counting (recorded : Recorded options d) (key : Text) :
    ∀ c, d.get key = some c → 0 < c.count := fun c found =>
  ((recorded.counted key).counts c (get_some d key found).1).1

/-- The windows of a key after a script on it. -/
theorem record_eq (recorded : Recorded options d) (call : Nat) (key : Text) :
    (d.get key = none ∧ d.record call key = [call] :: d.windows key) ∨
      ∃ c calls older, d.get key = some c ∧ d.windows key = calls :: older ∧
        calls.length = c.count ∧ d.record call key = (calls ++ [call]) :: older := by
  cases found : d.get key with
  | none => exact Or.inl ⟨rfl, by simp [Redis.record, found]⟩
  | some c =>
    obtain ⟨older, calls, same, long⟩ :=
      ((recorded.counted key).counts c (get_some d key found).1).2
    exact Or.inr ⟨c, calls, older, rfl, same, long, by simp [Redis.record, found, same]⟩

theorem windows_script (call : Nat) (key : Text) (windowSeconds : Int) (d : Redis) :
    ((Write.script call key windowSeconds).apply d).windows =
      Function.update d.windows key (d.record call key) := rfl

theorem mem_record (recorded : Recorded options d) {i : Nat} :
    i ∈ (d.record call key).flatten ↔ i ∈ d.ran key ∨ i = call := by
  rcases record_eq recorded call key with ⟨-, same⟩ | ⟨c, calls, older, -, windows, -, same⟩
  · rw [same, Redis.ran]
    simp [or_comm]
  · rw [same, Redis.ran, windows]
    simp [or_comm, or_left_comm]

/-- The calls recorded for any key after a script. -/
theorem mem_ran_script (recorded : Recorded options d) {windowSeconds : Int} {other : Text}
    {i : Nat} : i ∈ ((Write.script call key windowSeconds).apply d).ran other ↔
      i ∈ d.ran other ∨ (i = call ∧ other = key) := by
  by_cases same : other = key
  · subst same
    rw [Redis.ran, windows_script, Function.update_self, mem_record recorded]
    simp
  · rw [Redis.ran, windows_script, Function.update_of_ne same]
    simp [same, Redis.ran]

variable (positive : ∀ key, 1 ≤ (options key).windowSeconds)

include positive

theorem counters_script (recorded : Recorded options d) :
    ((Write.script call key (options key).windowSeconds).apply d).counters =
      Function.update d.counters key (some
        { count := d.count key + 1
          deadline := some (d.nextDeadline key (options key).windowSeconds) }) := by
  have script := rateLimitScript_counter (positive key) (counting recorded key)
  exact congrArg Redis.counters script

omit positive in
theorem now_script {windowSeconds : Int} :
    ((Write.script call key windowSeconds).apply d).now = d.now :=
  (rateLimitScript_only d key windowSeconds).now

omit positive in
theorem nextDeadline_bounded (recorded : Recorded options d) :
    d.nextDeadline key (options key).windowSeconds ≤
      d.now + (options key).windowSeconds.toNat * 1000 := by
  rw [Redis.nextDeadline]
  cases found : d.get key with
  | none => exact Nat.le_refl _
  | some c =>
    rw [Option.bind_some]
    cases deadline : c.deadline with
    | none => exact Nat.le_refl _
    | some t =>
      exact (recorded.counted key).bounded c t (get_some d key found).1 deadline

omit positive in
/-- The record of a key agrees with its counter after a script, too. -/
theorem record_counts (recorded : Recorded options d) (call : Nat) (key : Text) :
    ∃ older calls, d.record call key = calls :: older ∧ calls.length = d.count key + 1 := by
  rcases record_eq recorded call key with ⟨found, same⟩ | ⟨c, calls, older, found, -, long, same⟩
  · exact ⟨_, _, same, by simp [Redis.count, found]⟩
  · exact ⟨_, _, same, by simp [Redis.count, found, long]⟩

private theorem script_counted (recorded : Recorded options d) (fresh : Fresh call d)
    (other : Text) :
    Counted (options other) other ((Write.script call key (options key).windowSeconds).apply d) := by
  have counted := recorded.counted other
  by_cases same : other = key
  · subst same
    have counters := congrFun (@counters_script options call d other positive recorded) other
    rw [Function.update_self] at counters
    have windows := congrFun (windows_script call other (options other).windowSeconds d) other
    rw [Function.update_self] at windows
    refine ⟨?_, ?_, ?_⟩
    · intro c stored
      rw [counters] at stored
      obtain rfl := Option.some.inj stored
      obtain ⟨older, calls, record, long⟩ := record_counts recorded call other
      exact ⟨Nat.succ_pos _, older, calls, windows.trans record, long⟩
    · intro c t stored deadline
      rw [counters] at stored
      obtain rfl := Option.some.inj stored
      obtain rfl := Option.some.inj deadline
      rw [now_script]
      exact nextDeadline_bounded recorded
    · rw [Redis.ran, windows]
      rcases record_eq recorded call other with ⟨-, record⟩ | ⟨c, calls, older, -, old, -, record⟩
      · rw [record, List.flatten_cons, List.singleton_append]
        exact List.nodup_cons.mpr ⟨fresh other, counted.once⟩
      · have once := counted.once
        have new := fresh other
        rw [Redis.ran, old, List.flatten_cons] at once new
        rw [record, List.flatten_cons, List.append_assoc]
        exact (List.nodup_middle).mpr (List.nodup_cons.mpr ⟨new, once⟩)
  · -- the script leaves the other keys alone
    have only := rateLimitScript_only d key (options key).windowSeconds
    have windows : ((Write.script call key (options key).windowSeconds).apply d).windows other =
        d.windows other := by
      rw [windows_script, Function.update_of_ne same]
    refine ⟨?_, ?_, ?_⟩
    · intro c stored
      rw [windows]
      exact counted.counts c ((only.others other same).symm.trans stored)
    · intro c t stored deadline
      rw [now_script]
      exact counted.bounded c t ((only.others other same).symm.trans stored) deadline
    · rw [Redis.ran, windows]
      exact counted.once

theorem Commit.keepsRecorded (commit : Commit options call ℓ d w) (recorded : Recorded options d) :
    Recorded options (w.apply d) := by
  cases commit with
  | script key fresh =>
    refine ⟨script_counted positive recorded fresh, fun key₁ key₂ i first second => ?_⟩
    rw [mem_ran_script recorded] at first second
    rcases first with first | ⟨rfl, rfl⟩ <;> rcases second with second | ⟨same, rfl⟩
    · exact recorded.apart _ _ i first second
    · exact absurd (same ▸ first) (fresh _)
    · exact absurd second (fresh _)
    · rfl
  | persisted key =>
    refine ⟨fun other => ?_, recorded.apart⟩
    have counted := recorded.counted other
    by_cases same : other = key
    · subst same
      have counters : ((Write.persist other).apply d).counters other =
          (d.get other).map fun c => { c with deadline := none } := Function.update_self ..
      refine ⟨fun c stored => ?_, fun c t stored deadline => ?_, counted.once⟩
      · obtain ⟨c₀, found, rfl⟩ := Option.map_eq_some_iff.mp (counters.symm.trans stored)
        exact counted.counts c₀ (get_some d other found).1
      · obtain ⟨c₀, -, rfl⟩ := Option.map_eq_some_iff.mp (counters.symm.trans stored)
        cases deadline
    · have counters : ((Write.persist key).apply d).counters other = d.counters other :=
        Function.update_of_ne same ..
      exact ⟨fun c stored => counted.counts c (counters.symm.trans stored),
        fun c t stored => counted.bounded c t (counters.symm.trans stored), counted.once⟩
  | ticked =>
    refine ⟨fun key => ⟨(recorded.counted key).counts, fun c t stored deadline => ?_,
      (recorded.counted key).once⟩, recorded.apart⟩
    have before := (recorded.counted key).bounded c t stored deadline
    show t ≤ d.now + 1 + _
    omega

omit positive in
theorem Commit.kept (commit : Commit options call ℓ d w) (recorded : Recorded options d)
    (key : Text) : Kept key d (w.apply d) := by
  cases commit with
  | script key' fresh =>
    by_cases same : key = key'
    · subst same
      intro calls member
      rw [windows_script, Function.update_self]
      rcases record_eq recorded call key with ⟨-, record⟩ | ⟨c, newest, older, -, old, -, record⟩
      · rw [record]
        exact ⟨calls, List.mem_cons_of_mem _ member, List.prefix_refl _⟩
      · rw [record]
        rw [old] at member
        rcases List.mem_cons.mp member with rfl | member
        · exact ⟨_, List.mem_cons_self, List.prefix_append _ _⟩
        · exact ⟨calls, List.mem_cons_of_mem _ member, List.prefix_refl _⟩
    · intro calls member
      rw [windows_script, Function.update_of_ne same]
      exact ⟨calls, member, List.prefix_refl _⟩
  | persisted _ => exact .refl key _
  | ticked => exact .refl key _

omit positive in
theorem Commit.fresh (commit : Commit options call ℓ d w) (recorded : Recorded options d)
    {other : Nat} (differ : call ≠ other) (fresh : Fresh other d) : Fresh other (w.apply d) := by
  cases commit with
  | script key' _ =>
    intro key member
    rcases (mem_ran_script recorded).mp member with old | ⟨same, -⟩
    · exact fresh key old
    · exact differ same.symm
  | persisted _ => exact fresh
  | ticked => exact fresh

end Commits

/-! ### The calls keep to it -/

section Runs

variable {options : Text → RateLimitOptions} (positive : ∀ key, 1 ≤ (options key).windowSeconds)

def protocol : Protocol Label Redis where
  inv := Recorded options
  pre _ _ := True
  guar i ℓ d d' := ∃ w, d' = w.apply d ∧ Commit options i ℓ d w
  evo me d d' := (Fresh me d → Fresh me d') ∧ ∀ key, Kept key d d'
  evo_refl _ d := ⟨id, fun key => .refl key d⟩
  evo_trans _ _ _ _ first second :=
    ⟨second.1 ∘ first.1, fun key => (first.2 key).trans (second.2 key)⟩
  guar_inv := by
    rintro i ℓ d _ recorded ⟨w, rfl, commit⟩
    exact commit.keepsRecorded positive recorded
  guar_evo := by
    rintro i j ℓ d _ differ recorded ⟨w, rfl, commit⟩
    exact ⟨commit.fresh recorded differ, commit.kept recorded⟩

instance : Protocol.Lax (protocol positive) := ⟨fun _ _ _ => trivial⟩

/-- What a call returns: a reply tells its place in a window of the key. -/
def Placed (options : Text → RateLimitOptions) (me : Nat) (op : Op) (outcome : Outcome)
    (d : Redis) : Prop :=
  ∀ a, outcome = .ok (some a) → ∃ key failPolicy, op = .incrementRateLimit key failPolicy ∧
    match a.saw with
    | .ok reply => a.result = decideLimit (options key) reply ∧
        ∃ calls ∈ d.windows key, ∃ n, calls[n]? = some me ∧ reply.current = n + 1
    | .error _ => a.result = degrade (options key) failPolicy

theorem Placed.kept {me : Nat} {op : Op} {outcome : Outcome} {d d' : Redis}
    (placed : Placed options me op outcome d) (kept : ∀ key, Kept key d d') :
    Placed options me op outcome d' := by
  intro a returned
  obtain ⟨key, failPolicy, same, result⟩ := placed a returned
  refine ⟨key, failPolicy, same, ?_⟩
  cases saw : a.saw with
  | error e => simpa only [saw] using result
  | ok reply =>
    simp only [saw] at result ⊢
    obtain ⟨decided, calls, member, n, place, current⟩ := result
    obtain ⟨calls', member', longer⟩ := kept key calls member
    obtain ⟨later, rfl⟩ := longer
    have below := (List.getElem?_eq_some_iff.mp place).1
    exact ⟨decided, _, member', n, (List.getElem?_append_left below).trans place, current⟩

/-- Where a script puts its call. -/
theorem place_of_script {d : Redis} (recorded : Recorded options d) (call : Nat) (key : Text)
    (windowSeconds : Int) :
    ∃ calls ∈ ((Write.script call key windowSeconds).apply d).windows key, ∃ n,
      calls[n]? = some call ∧ (rateLimitScript key windowSeconds d).2.current = n + 1 := by
  rw [windows_script, Function.update_self, rateLimitScript_current]
  rcases record_eq recorded call key with ⟨found, record⟩ | ⟨c, calls, older, found, -, long, record⟩
  · exact ⟨[call], by simp [record], 0, rfl, by simp [Redis.count, found]⟩
  · refine ⟨calls ++ [call], by simp [record], c.count, ?_, by simp [Redis.count, found]⟩
    rw [← long]
    exact List.getElem?_concat_length

theorem incrementRateLimit_placed (me : Nat) (key : Text) (failPolicy : RateLimitFailPolicy)
    {d : Redis} (fresh : Fresh me d) :
    Call.wp (protocol positive) me (fun r _ d => ∀ a, r = .ok a →
      Placed options me (.incrementRateLimit key failPolicy) (.ok (some a)) d)
      (incrementRateLimit me key (options key) failPolicy) none d := by
  -- without an answer the policy decides, whether or not the script has run
  have degraded : ∀ d, Placed options me (.incrementRateLimit key failPolicy)
      (.ok (some { saw := .error .redis, result := degrade (options key) failPolicy })) d := by
    rintro d a ⟨⟩
    exact ⟨key, failPolicy, rfl, rfl⟩
  simp only [incrementRateLimit, Call.wp_bind, Call.wp_attempt, evalScript, Call.wp_choose]
  intro d₁ rely₁ reached
  cases reached with
  | false =>
    rintro a ⟨⟩
    exact degraded d₁
  | true =>
    simp only [Call.andThen_ok, if_true, Call.wp_bind, Call.wp_stmt_alone]
    intro d₂ rely₂ _
    -- no other call uses the number of this one
    have unused : Fresh me d₂ := rely₂.evo.1 (rely₁.evo.1 fresh)
    refine ⟨Or.inr ⟨_, rfl, .script key unused⟩, ?_⟩
    simp only [Call.andThen_ok, Call.wp_bind, Call.wp_choose]
    intro d₃ rely₃ answered
    cases answered with
    | false =>
      rintro a ⟨⟩
      exact degraded d₃
    | true =>
      rintro answer ⟨⟩
      refine Placed.kept ?_ rely₃.evo.2
      rintro a ⟨⟩
      exact ⟨key, failPolicy, rfl, rfl, place_of_script rely₂.inv me key _⟩

theorem verified : Pool.VerifiedFresh (protocol positive) (Placed options) (system options) Fresh := by
  intro me op d fresh
  cases op with
  | incrementRateLimit key failPolicy =>
    show Call.wp (protocol positive) me _ (do
      let answer ← incrementRateLimit me key (options key) failPolicy
      pure (some answer) : Service (Option Answer)) none d
    rw [Call.wp_bind]
    refine Call.wp_mono ?_ (incrementRateLimit_placed positive me key failPolicy fresh)
    rintro (e | answer) tx d' placed
    · rintro a ⟨⟩
    · exact placed answer rfl
  | persist key =>
    show Call.wp (protocol positive) me (fun r _ d => Placed options me (.persist key) r d)
      (Call.stmt (.persisted key) fun _ => .ok ([.persist key], none)) none d
    rw [Call.wp_stmt_alone]
    refine fun d' _ _ => ⟨Or.inr ⟨_, rfl, .persisted key⟩, ?_⟩
    rintro a ⟨⟩
  | tick =>
    show Call.wp (protocol positive) me (fun r _ d => Placed options me .tick r d)
      (Call.stmt .ticked fun _ => .ok ([.tick], none)) none d
    rw [Call.wp_stmt_alone]
    refine fun d' _ _ => ⟨Or.inr ⟨_, rfl, .ticked⟩, ?_⟩
    rintro a ⟨⟩

theorem recorded_start : Recorded options start.db := by
  refine ⟨fun key => ⟨?_, ?_, List.nodup_nil⟩, ?_⟩
  · rintro c ⟨⟩
  · rintro c t ⟨⟩
  · intro key key' call member
    cases member

theorem fresh_start (me : Nat) : Fresh me start.db := by
  intro key member
  cases member

variable {cond : Label → Redis → Prop} {p q r : LimiterPool} {key : Text}

include positive

theorem sound_of_run (run : Reachable options p) :
    Pool.Sound (protocol positive) (Placed options) p ∧
      ∀ me, p.threads.length ≤ me → Fresh me p.db :=
  run.soundFresh (verified positive) (fun _ _ _ evo => evo.1) (fun _ _ _ _ _ _ _ _ => trivial)
    (.empty recorded_start) fun me _ => fresh_start me

theorem placed_of_run (run : Reachable options p) {i : Nat}
    {th : Thread Label Redis Write Empty Op Outcome} {outcome : Outcome}
    (found : p.threads[i]? = some th) (returned : th.prog.returned = some outcome) :
    Placed options i th.op outcome p.db := by
  refine run.returnedFresh (verified positive) (fun _ _ _ evo => evo.1)
    (fun _ _ _ _ _ _ _ _ => trivial) (.empty recorded_start) (fun me _ => fresh_start me) ?_ ?_
    i th outcome found returned
  · rintro j op a k ℓ d _ recorded placed ⟨w, rfl, commit⟩
    exact placed.kept (commit.kept recorded)
  · rintro j th a ⟨⟩

/-- What one event commits, if it changes Redis. -/
theorem commit_of_step (run : Reachable options p) {e : Event Op}
    (stepped : p.step (system options) e = some q) :
    q.db = p.db ∨ ∃ i answer ℓ w, e = .run i answer ∧ p.next i = some ℓ ∧
      q.db = w.apply p.db ∧ Commit options i ℓ p.db w := by
  have sound := sound_of_run positive run
  have next := sound.1.stepFresh (verified positive) (fun _ _ _ evo => evo.1) sound.2
    (fun _ _ _ _ _ => trivial) (.of_lax p e) stepped
  rcases next.1.does with same | ⟨i, answer, ℓ, event, labelled, w, after, commit⟩
  · exact Or.inl same
  · exact Or.inr ⟨i, answer, ℓ, w, event, labelled, after, commit⟩

/-! ### The limit -/

/-- A call that has seen the reply of its script is allowed if and only if it is among the
first `maxLimit` whose script ran since the key was created. -/
def FirstAllowed (options : Text → RateLimitOptions) (key : Text) (p : LimiterPool) : Prop :=
  ∀ calls ∈ p.db.windows key, ∀ (n i : Nat) (th : Thread Label Redis Write Empty Op Outcome)
    (a : Answer) (reply : ScriptReply), calls[n]? = some i → p.threads[i]? = some th →
    th.prog.returned = some (.ok (some a)) → a.saw = .ok reply →
    (a.result.allowed = true ↔ (n : Int) < (options key).maxLimit)

omit positive in
theorem decideLimit_allowed (options : RateLimitOptions) {reply : ScriptReply} {n : Nat}
    (place : reply.current = n + 1) :
    (decideLimit options reply).allowed = true ↔ (n : Int) < options.maxLimit := by
  simp only [decideLimit, place]
  split
  next above =>
    push_cast at above
    simp only [Bool.false_eq_true, false_iff]
    omega
  next below =>
    push_cast at below
    simp only [true_iff]
    omega

omit positive in
/-- A call stands in one place of one window. -/
theorem place_unique {d : Redis} (recorded : Recorded options d) {calls calls' : List Nat}
    (member : calls ∈ d.windows key) (member' : calls' ∈ d.windows key) {n n' i : Nat}
    (place : calls[n]? = some i) (place' : calls'[n']? = some i) : n = n' := by
  have once := List.nodup_flatten.mp (recorded.counted key).once
  have here := List.mem_of_getElem? place
  have here' := List.mem_of_getElem? place'
  by_cases same : calls = calls'
  · subst same
    have below := (List.getElem?_eq_some_iff.mp place).1
    exact (List.getElem?_inj below (once.1 calls member)).mp (place.trans place'.symm)
  · have : Std.Symm (List.Disjoint (α := Nat)) := ⟨fun _ _ apart _ first second => apart second first⟩
    exact (once.2.forall member member' same here here').elim

theorem firstAllowed (run : Reachable options p) : FirstAllowed options key p := by
  intro calls member n i th a reply place found returned saw
  have recorded := (sound_of_run positive run).1.inv
  obtain ⟨key', failPolicy, -, placed⟩ := placed_of_run positive run found returned a rfl
  rw [saw] at placed
  obtain ⟨decided, calls', member', n', place', current⟩ := placed
  have ran : i ∈ p.db.ran key :=
    List.mem_flatten.mpr ⟨calls, member, List.mem_of_getElem? place⟩
  have ran' : i ∈ p.db.ran key' :=
    List.mem_flatten.mpr ⟨calls', member', List.mem_of_getElem? place'⟩
  obtain rfl := recorded.apart key key' i ran ran'
  obtain rfl := place_unique recorded member member' place place'
  rw [decided]
  exact decideLimit_allowed _ current

/-! ### The deadline -/

/-- The key has a time to live of at most that many seconds. -/
def Redis.expiresWithin (d : Redis) (key : Text) (seconds : Int) : Prop :=
  ∃ c t, d.get key = some c ∧ c.deadline = some t ∧ t ≤ d.now + seconds.toNat * 1000

/-- From then on the key has a deadline that no script moves, or a newer window. -/
def Closing (key : Text) (windows deadline : Nat) (d : Redis) : Prop :=
  windows < (d.windows key).length ∨
    (windows = (d.windows key).length ∧
      ∃ c t, d.counters key = some c ∧ c.deadline = some t ∧ t ≤ deadline)

theorem script_expires {d : Redis} (recorded : Recorded options d) (call : Nat) :
    ((Write.script call key (options key).windowSeconds).apply d).expiresWithin key
      (options key).windowSeconds := by
  have counters := congrFun (@counters_script options call d key positive recorded) key
  rw [Function.update_self] at counters
  refine ⟨{ count := d.count key + 1, deadline := _ }, d.nextDeadline key (options key).windowSeconds,
    ?_, rfl, ?_⟩
  · refine Option.filter_eq_some_iff.mpr ⟨counters, ?_⟩
    rw [now_script, Option.all_some, decide_eq_true_eq, Redis.nextDeadline]
    cases found : d.get key with
    | none => exact Nat.le_add_right _ _
    | some c =>
      rw [Option.bind_some]
      cases deadline : c.deadline with
      | none => exact Nat.le_add_right _ _
      | some t => exact (get_some d key found).2 t deadline
  · rw [now_script]
    exact nextDeadline_bounded recorded

theorem Commit.closing {call : Nat} {ℓ : Label} {d : Redis} {w : Write} {windows deadline : Nat}
    (commit : Commit options call ℓ d w) (recorded : Recorded options d)
    (lasting : ℓ ≠ .persisted key) (closing : Closing key windows deadline d) :
    Closing key windows deadline (w.apply d) := by
  cases commit with
  | script key' fresh =>
    by_cases same : key = key'
    · subst same
      have counters := congrFun (@counters_script options call d key positive recorded) key
      rw [Function.update_self] at counters
      rw [Closing, windows_script, Function.update_self, counters]
      rcases record_eq recorded call key with ⟨found, record⟩ | ⟨c, calls, older, found, old, -, record⟩
      · -- the key has expired, and the script opens a newer window
        rw [record, List.length_cons]
        rcases closing with newer | ⟨rfl, -⟩
        · exact Or.inl (Nat.lt_succ_of_lt newer)
        · exact Or.inl (Nat.lt_succ_self _)
      · have length : ((calls ++ [call]) :: older).length = (d.windows key).length := by simp [old]
        rw [record, length]
        refine closing.imp_right fun ⟨here, c', t, stored, due, bound⟩ => ⟨here, _, _, rfl, rfl, ?_⟩
        obtain rfl := Option.some.inj ((get_some d key found).1.symm.trans stored)
        simpa [Redis.nextDeadline, found, due] using bound
    · have only := rateLimitScript_only d key' (options key').windowSeconds
      rw [Closing, windows_script, Function.update_of_ne same]
      refine closing.imp_right fun ⟨here, c, t, stored, due, bound⟩ => ⟨here, c, t, ?_, due, bound⟩
      exact (only.others key same).trans stored
  | persisted key' =>
    have same : key ≠ key' := fun same => lasting (congrArg Label.persisted same.symm)
    refine closing.imp_right fun ⟨here, c, t, stored, due, bound⟩ => ⟨here, c, t, ?_, due, bound⟩
    exact (Function.update_of_ne same _ _).trans stored
  | ticked => exact closing

omit positive in
/-- Once the deadline has passed, the key is gone or counts anew. -/
theorem Closing.over {d : Redis} {windows deadline : Nat} (closing : Closing key windows deadline d)
    (past : deadline < d.now) : d.get key = none ∨ windows < (d.windows key).length := by
  rcases closing with newer | ⟨-, c, t, stored, due, bound⟩
  · exact Or.inr newer
  · refine Or.inl (Option.filter_eq_none_iff.mpr fun c' same => ?_)
    obtain rfl := Option.some.inj (stored.symm.trans same)
    simp only [due, Option.all_some, decide_eq_true_eq]
    omega

theorem closing_of_run {windows deadline : Nat} (reachable : Reachable options q)
    (closing : Closing key windows deadline q.db)
    (later : Runs options (fun ℓ _ => ℓ ≠ .persisted key) q r) :
    Closing key windows deadline r.db := by
  induction later with
  | refl => exact closing
  | @step p p' e before allowed stepped ih =>
    have reached := reachable.trans (before.mono fun _ _ _ _ _ _ _ _ => trivial)
    rcases commit_of_step positive reached stepped with same | ⟨i, answer, ℓ, w, rfl, labelled, after, commit⟩
    · rwa [same]
    · rw [after]
      exact commit.closing positive (sound_of_run positive reached).1.inv
        (allowed i answer ℓ rfl labelled) ih

/-- The record of a key only changes when a script runs on it. -/
theorem script_of_step (run : Reachable options p) {e : Event Op}
    (stepped : p.step (system options) e = some q)
    (ran : q.db.windows key ≠ p.db.windows key) :
    ∃ call, q.db = (Write.script call key (options key).windowSeconds).apply p.db := by
  rcases commit_of_step positive run stepped with same | ⟨i, answer, ℓ, w, -, -, after, commit⟩
  · exact absurd (by rw [same]) ran
  · cases commit with
    | script key' fresh =>
      by_cases same : key = key'
      · exact ⟨i, same ▸ after⟩
      · rw [after, windows_script, Function.update_of_ne same] at ran
        exact absurd rfl ran
    | persisted _ | ticked =>
      rw [after] at ran
      exact absurd rfl ran

/-- In every run, with any number of calls in flight, lost requests, lost replies and keys that
lose their deadline: a reply tells its call the place of its script in a window of the key, and
the calls that see one are allowed exactly in the first `maxLimit` places; a fail-closed call
that sees an error is refused; and every script leaves the key with at most a window to live,
so that after as long the key is gone or counts anew, unless it has lost its deadline again. -/
theorem rate_limit_enforced (run : Reachable options p) (key : Text) :
    FirstAllowed options key p ∧
    (∀ (i : Nat) (th : Thread Label Redis Write Empty Op Outcome) (a : Answer)
        (failPolicy : RateLimitFailPolicy), p.threads[i]? = some th →
      th.op = .incrementRateLimit key failPolicy → th.prog.returned = some (.ok (some a)) →
      (∀ reply, a.saw = .ok reply → i ∈ p.db.ran key) ∧
      (∀ e, a.saw = .error e → failPolicy = .fail_closed → a.result.allowed = false)) ∧
    (∀ (e : Event Op) (q : LimiterPool), p.step (system options) e = some q →
      q.db.windows key ≠ p.db.windows key →
      q.db.expiresWithin key (options key).windowSeconds ∧
      ∀ r, Runs options (fun ℓ _ => ℓ ≠ .persisted key) q r →
        q.db.now + (options key).windowSeconds.toNat * 1000 < r.db.now →
        r.db.get key = none ∨ (q.db.windows key).length < (r.db.windows key).length) := by
  refine ⟨firstAllowed positive run, ?_, ?_⟩
  · intro i th a failPolicy found op returned
    obtain ⟨key', failPolicy', op', placed⟩ := placed_of_run positive run found returned a rfl
    obtain ⟨rfl, rfl⟩ : key = key' ∧ failPolicy = failPolicy' := by simpa using op.symm.trans op'
    refine ⟨fun reply saw => ?_, fun e saw closed => ?_⟩
    · rw [saw] at placed
      obtain ⟨-, calls, member, n, place, -⟩ := placed
      exact List.mem_flatten.mpr ⟨calls, member, List.mem_of_getElem? place⟩
    · rw [saw] at placed
      rw [show a.result = degrade (options key) failPolicy from placed, closed]
      rfl
  · intro e q stepped ran
    have reached : Reachable options q := .step e run (fun _ _ _ _ _ => trivial) stepped
    obtain ⟨call, script⟩ := script_of_step positive run stepped ran
    have expires := @script_expires options positive key _ (sound_of_run positive run).1.inv call
    rw [← script] at expires
    refine ⟨expires, fun r later past => ?_⟩
    obtain ⟨c, t, found, due, bound⟩ := expires
    -- from the script on, the window of the key can only run out
    have closing : Closing key (q.db.windows key).length
        (q.db.now + (options key).windowSeconds.toNat * 1000) q.db :=
      Or.inr ⟨rfl, c, t, (get_some q.db key found).1, due, bound⟩
    exact (closing_of_run positive reached closing later).over past

end Runs

/-- Two requests a minute, on every key. -/
def twoAMinute (_ : Text) : RateLimitOptions := { maxLimit := 2, windowSeconds := 60 }

theorem twoAMinute_positive (key : Text) : 1 ≤ (twoAMinute key).windowSeconds :=
  (by decide : (1 : Int) ≤ 60)

/-- Call `i` on a key, whose reply arrives if `answered`. -/
def asks (i : Nat) (answered : Bool) : List (Pool.Move Op) :=
  [.event (.spawn (.incrementRateLimit [] .fail_closed)), .event (.run i true),
    .event (.run i true), .event (.run i answered)]

/-- The limiter after a schedule. -/
def played (moves : List (Pool.Move Op)) : LimiterPool :=
  start.after (system twoAMinute) (Pool.Meets fun _ _ => True) 10 moves

theorem reachable_played (moves : List (Pool.Move Op)) : Reachable twoAMinute (played moves) :=
  Pool.Reaches.refl.after 10 moves

theorem rate_limit_enforced_third : ∃ p : LimiterPool,
    p.db.windows [] = [[0, 1, 2]] ∧ FirstAllowed twoAMinute [] p :=
  ⟨played (asks 0 true ++ asks 1 true ++ asks 2 true), by decide +kernel,
    (rate_limit_enforced twoAMinute_positive (reachable_played _) []).1⟩

private theorem unanswered :
    (played (asks 0 false)).threads[0]?.bind (fun th => th.prog.returned) =
        some (.ok (some { saw := .error .redis, result := degrade (twoAMinute []) .fail_closed })) ∧
      (played (asks 0 false)).db.windows [] = [[0]] := by
  exact ⟨rfl, by decide +kernel⟩

/-- The first call of a window is refused if the reply to it is lost. -/
theorem lost_reply_refused :
    ¬ ∀ (options : Text → RateLimitOptions) (p : LimiterPool) (key : Text),
      (∀ key, 1 ≤ (options key).windowSeconds) → Reachable options p →
      ∀ calls ∈ p.db.windows key, ∀ (n i : Nat) (th : Thread Label Redis Write Empty Op Outcome)
        (a : Answer), calls[n]? = some i → p.threads[i]? = some th →
        th.prog.returned = some (.ok (some a)) →
        (a.result.allowed = true ↔ (n : Int) < (options key).maxLimit) := by
  intro exact
  obtain ⟨result, windows⟩ := unanswered
  obtain ⟨th, found, returned⟩ := Option.bind_eq_some_iff.mp result
  have first := (exact twoAMinute _ [] twoAMinute_positive (reachable_played (asks 0 false)) [0]
    (by simp [windows]) 0 0 th _ rfl found returned).mpr (by decide)
  cases first

end LabourBaba.RateLimit
