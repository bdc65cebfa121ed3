import LabourBaba.Store.Calls
import Mathlib

/-!
# The distributed rate limiter

`incrementRateLimit` and the Lua script it evaluates. Redis runs a script at once, so the
script is a single write; a key whose deadline has passed is not there any more. The
request may not reach Redis, or its reply may not come back, whatever the script has done.

A limiter prefixes its keys, so the limit and the window of a key are the same in every
call and every instance of the application. Beside the keys Redis is given a record of the
calls whose script has run, one list for each time the key was created anew.
-/
namespace LabourBaba.RateLimit

open Store

abbrev Text := List Char

inductive RateLimitFailPolicy where
  | fail_closed | fail_open
deriving DecidableEq, Repr

structure RateLimitOptions where
  maxLimit : Int
  windowSeconds : Int
deriving DecidableEq, Repr

inductive RateLimitStatus where
  | ok | exceeded | unavailable
deriving DecidableEq, Repr

structure RateLimitResult where
  allowed : Bool
  remaining : Int
  resetAfterSeconds : Int
  status : RateLimitStatus
deriving DecidableEq, Repr

/-! ### Redis -/

/-- A counter key. Without a deadline it never expires. Times are in milliseconds. -/
structure Counter where
  count : Nat
  deadline : Option Nat := none
deriving DecidableEq, Repr

structure Redis where
  counters : Text → Option Counter := fun _ => none
  now : Nat := 0
  /-- The calls whose script has run on the key, newest expiry first. -/
  windows : Text → List (List Nat) := fun _ => []

namespace Redis

/-- The key as commands see it. -/
def get (d : Redis) (key : Text) : Option Counter :=
  (d.counters key).filter fun c => c.deadline.all fun t => decide (d.now ≤ t)

def set (d : Redis) (key : Text) (c : Option Counter) : Redis :=
  { d with counters := Function.update d.counters key c }

/-- `INCR`: a missing key counts as 0 and gets no deadline, another keeps its own. -/
def incr (d : Redis) (key : Text) : Redis × Nat :=
  let c := (d.get key).getD { count := 0 }
  (d.set key (some { c with count := c.count + 1 }), c.count + 1)

/-- `EXPIRE`: without a positive number of seconds it deletes the key. -/
def expire (d : Redis) (key : Text) (seconds : Int) : Redis :=
  match d.get key with
  | none => d
  | some c =>
    if seconds ≤ 0 then d.set key none
    else d.set key (some { c with deadline := some (d.now + seconds.toNat * 1000) })

/-- `TTL`, rounded to seconds: -2 without the key, -1 without a deadline. -/
def ttl (d : Redis) (key : Text) : Int :=
  match d.get key with
  | none => -2
  | some { deadline := none, .. } => -1
  | some { deadline := some t, .. } => ((t - d.now + 500) / 1000 : Nat)

end Redis

structure ScriptReply where
  current : Nat
  ttl : Int
deriving DecidableEq, Repr

/-- `RATE_LIMIT_LUA_SCRIPT`. -/
def rateLimitScript (key : Text) (windowSeconds : Int) (d : Redis) : Redis × ScriptReply :=
  let (d, current) := d.incr key
  let d := if current = 1 then d.expire key windowSeconds else d
  let ttl := d.ttl key
  if ttl = -1 then (d.expire key windowSeconds, { current, ttl := windowSeconds })
  else (d, { current, ttl })

/-! ### Writes -/

inductive Write where
  | script (call : Nat) (key : Text) (windowSeconds : Int)
  /-- The key loses its deadline, as a key does that was stored without one. -/
  | persist (key : Text)
  | tick
deriving DecidableEq, Repr

/-- The record of the scripts that have run: a key that is not there starts a new list. -/
def Redis.record (d : Redis) (call : Nat) (key : Text) : List (List Nat) :=
  match d.get key, d.windows key with
  | some _, calls :: older => (calls ++ [call]) :: older
  | _, older => [call] :: older

def Write.apply (w : Write) (d : Redis) : Redis :=
  match w with
  | .script call key windowSeconds =>
    { (rateLimitScript key windowSeconds d).1 with
      windows := Function.update d.windows key (d.record call key) }
  | .persist key => d.set key ((d.get key).map fun c => { c with deadline := none })
  | .tick => { d with now := d.now + 1 }

/-- Nothing is locked beyond a command. -/
instance : RowStore Redis Write Empty where
  Row := Empty.elim
  row _ k := k.elim
  write := Write.apply
  keys _ := []
  row_write _ _ k := k.elim

@[simp] theorem write_eq_apply (w : Write) (d : Redis) : write w d = w.apply d := rfl

/-! ### The limiter -/

inductive Label where
  | step
  | script (key : Text)
  | persisted (key : Text)
  | ticked
deriving DecidableEq, Repr

/-- The error of the Redis client. -/
inductive Failure where
  | redis
deriving DecidableEq, Repr

abbrev Service := Call Label Redis Write Empty Failure

/-- `client.eval`: the request may be lost before the script runs, and the reply after it. -/
def evalScript (call : Nat) (key : Text) (windowSeconds : Int) : Service ScriptReply := do
  let reached ← Call.choose
  if reached then do
    let reply ← Call.stmt (.script key) fun d =>
      .ok ([.script call key windowSeconds], (rateLimitScript key windowSeconds d).2)
    let answered ← Call.choose
    if answered then pure reply else throw .redis
  else throw .redis

/-- What `incrementRateLimit` makes of a reply. -/
def decideLimit (options : RateLimitOptions) (reply : ScriptReply) : RateLimitResult :=
  let ttl := if 0 < reply.ttl then reply.ttl else options.windowSeconds
  if options.maxLimit < reply.current then
    { allowed := false, remaining := 0, resetAfterSeconds := ttl, status := .exceeded }
  else
    { allowed := true, remaining := max 0 (options.maxLimit - reply.current)
      resetAfterSeconds := ttl, status := .ok }

/-- What it makes of an error. -/
def degrade (options : RateLimitOptions) : RateLimitFailPolicy → RateLimitResult
  | .fail_closed =>
    { allowed := false, remaining := 0, resetAfterSeconds := options.windowSeconds
      status := .unavailable }
  | .fail_open =>
    { allowed := true, remaining := 1, resetAfterSeconds := options.windowSeconds, status := .ok }

/-- The result of a call, beside what the call has seen of Redis. -/
structure Answer where
  saw : Except Failure ScriptReply
  result : RateLimitResult
deriving DecidableEq, Repr

def incrementRateLimit (call : Nat) (key : Text) (options : RateLimitOptions)
    (failPolicy : RateLimitFailPolicy) : Service Answer := do
  let raw ← Call.attempt (evalScript call key options.windowSeconds)
  match raw with
  | .ok reply => pure { saw := raw, result := decideLimit options reply }
  | .error _ => pure { saw := raw, result := degrade options failPolicy }

/-! ### The system -/

inductive Op where
  | incrementRateLimit (key : Text) (failPolicy : RateLimitFailPolicy)
  | persist (key : Text)
  | tick
deriving DecidableEq, Repr

/-- The answer of a call of the limiter; the other events have none. -/
abbrev Outcome := Except Failure (Option Answer)

def serviceOf (options : Text → RateLimitOptions) (me : Nat) : Op → Service (Option Answer)
  | .incrementRateLimit key failPolicy => do
    let answer ← incrementRateLimit me key (options key) failPolicy
    pure (some answer)
  | .persist key => Call.stmt (.persisted key) fun _ => .ok ([.persist key], none)
  | .tick => Call.stmt .ticked fun _ => .ok ([.tick], none)

def system (options : Text → RateLimitOptions) (me : Nat) (op : Op) :
    Prog Label Redis Write Empty Outcome :=
  (serviceOf options me op).run

abbrev LimiterPool := Pool Label Redis Write Empty Op Outcome

/-- No key, and no call running. -/
def start : LimiterPool := { db := {} }

/-- A run whose commands all meet a condition on Redis. -/
abbrev Runs (options : Text → RateLimitOptions) (cond : Label → Redis → Prop) :
    LimiterPool → LimiterPool → Prop :=
  Pool.Reaches (system options) (Pool.Meets cond)

/-- Every run from an empty Redis. -/
abbrev Reachable (options : Text → RateLimitOptions) : LimiterPool → Prop :=
  Runs options (fun _ _ => True) start

end LabourBaba.RateLimit
