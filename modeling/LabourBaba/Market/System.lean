import LabourBaba.Market.DispatchServices

/-!
# The marketplace system

The operations that run against one store, each any number of times, concurrently and
in any order: API calls, queue processors (a job may be delivered late or twice), the
reconciliation scan, and the passing of time. A crash may end any of them between two
statements.
-/
namespace LabourBaba.Market

open Store

inductive Op where
  | createJob (jobId customerId : Id) (payload : CreateJobReq)
  | createJobReq (jobId : Id) (payload : NewRequirement) (actor : Option AuthenticatedUser)
  | updateRequirementDemand (jobId requirementId : Id) (newWorkerCountNeeded : Int)
      (actor : Option AuthenticatedUser)
  | cancelJob (jobId : Id) (actor : TransitionActor)
  | acceptDispatch (requirementId workerId : Id) (new : NewBooking)
  | declineDispatch (requirementId workerId : Id)
  | verifyOtp (bookingId workerId : Id) (otp : Nat) (actor : Option AuthenticatedUser)
  | completeBooking (bookingId workerId : Id) (actor : Option AuthenticatedUser)
  | confirmComplete (bookingId customerId : Id) (rating : Option Nat)
      (actor : Option AuthenticatedUser)
  | cancelBooking (bookingId userId : Id) (reason : Text) (actor : Option AuthenticatedUser)
  | processDispatchJob (data : DispatchJobData) (matching : List Id)
  | processTimeoutJob (data : TimeoutJobData)
  | reconcileDispatchState
  | tick
deriving DecidableEq, Repr

inductive Reply where
  | done
  | dispatched (result : DispatchOperationResult)
  | reconciled (report : ReconciliationReport)
deriving DecidableEq, Repr

abbrev Outcome := Except Failure Reply

def replying {α : Type} (reply : α → Reply) (body : Service α) : Service Reply := do
  let a ← body
  pure (reply a)

def serviceOf (cfg : Config) : Op → Service Reply
  | .createJob jobId customerId payload => replying (fun _ => .done) (createJob jobId customerId payload)
  | .createJobReq jobId payload actor => replying (fun _ => .done) (createJobReq jobId payload actor)
  | .updateRequirementDemand jobId requirementId needed actor =>
    replying (fun _ => .done) (updateRequirementDemand jobId requirementId needed actor)
  | .cancelJob jobId actor => replying (fun _ => .done) (cancelJob jobId actor)
  | .acceptDispatch requirementId workerId new =>
    replying (fun _ => .done) (acceptDispatch cfg requirementId workerId new)
  | .declineDispatch requirementId workerId =>
    replying (fun _ => .done) (declineDispatch cfg requirementId workerId)
  | .verifyOtp bookingId workerId otp actor =>
    replying (fun _ => .done) (verifyOtp cfg bookingId workerId otp actor)
  | .completeBooking bookingId workerId actor =>
    replying (fun _ => .done) (completeBooking bookingId workerId actor)
  | .confirmComplete bookingId customerId rating actor =>
    replying (fun _ => .done) (confirmComplete bookingId customerId rating actor)
  | .cancelBooking bookingId userId reason actor =>
    replying (fun _ => .done) (cancelBooking bookingId userId reason actor)
  | .processDispatchJob data matching => replying .dispatched (processDispatchJob cfg data matching)
  | .processTimeoutJob data => replying (fun _ => .done) (processTimeoutJob cfg data)
  | .reconcileDispatchState => replying .reconciled (reconcileDispatchState cfg)
  | .tick => Call.send .ticked fun _ => ([⟨.tick, rfl⟩], .done)

def system (cfg : Config) (_ : Nat) (op : Op) : Prog Label Db Write Key Outcome :=
  (serviceOf cfg op).run

/-- The default configuration, with passwords compared as they are. -/
def plainConfig : Config := { comparePassword := fun otp hash => decide (otp = hash) }

abbrev MarketPool := Pool Label Db Write Key Op Outcome

/-- The empty marketplace, with no call running. -/
def start : MarketPool := { db := {} }

/-- A run of the marketplace whose statements all meet a condition on the store. -/
abbrev Runs (cfg : Config) (cond : Label → Db → Prop) : MarketPool → Prop :=
  Pool.Reaches (system cfg) (Pool.Meets cond) start

/-- Every run. -/
abbrev Reachable (cfg : Config) : MarketPool → Prop := Runs cfg fun _ _ => True

/-- The marketplace after a schedule of events that all meet a condition. -/
def played (cond : Label → Db → Prop) [∀ ℓ d, Decidable (cond ℓ d)] (moves : List (Pool.Move Op)) :
    MarketPool :=
  start.after (system plainConfig) (Pool.Meets cond) 60 moves

theorem runs_played (cond : Label → Db → Prop) [∀ ℓ d, Decidable (cond ℓ d)]
    (moves : List (Pool.Move Op)) : Runs plainConfig cond (played cond moves) :=
  Pool.Reaches.refl.after 60 moves

end LabourBaba.Market
