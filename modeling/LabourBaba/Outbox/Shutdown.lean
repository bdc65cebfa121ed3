import LabourBaba.Outbox.Worker

/-!
# Draining the outbox worker

The flag `isProcessing` is set exactly while a batch is between its claim and its end, and
the promise of such a batch is tracked. A drain that finds no operation left therefore finds
no batch either, and none begins before the worker is started again; what the batches have
claimed was handed over, since the worker had not stopped yet, and has settled, since they
have ended (`worker_lifecycle`).
-/
namespace LabourBaba.Outbox.Worker

open OutboxWorker

/-! ### Deliveries -/

/-- Later deliveries: earlier ones stay, and stay settled. -/
def Grown (before after : List Delivery) : Prop :=
  ∀ (d : Nat) (call : Delivery), before[d]? = some call →
    ∃ later : Delivery, after[d]? = some later ∧ later.record = call.record ∧
      (call.settled = true → later.settled = true)

/-- What the records of a batch say is so: a batch that still claims has none, each delivery is
of its record, and those of a batch that has ended have settled. -/
structure Recorded (deliveries : List Delivery) (batch : Batch) : Prop where
  unclaimed : batch.phase = .claiming → batch.records = []
  delivered : ∀ p ∈ batch.records, ∀ d, p.2 = some d →
    ∃ call : Delivery, deliveries[d]? = some call ∧ call.record = p.1 ∧
      (batch.phase = .settled → call.settled = true)

namespace Grown

variable {before after : List Delivery}

theorem refl (deliveries : List Delivery) : Grown deliveries deliveries :=
  fun _ call found => ⟨call, found, rfl, id⟩

theorem trans {middle : List Delivery} (first : Grown before middle) (second : Grown middle after) :
    Grown before after := by
  intro d call found
  obtain ⟨later, found', record, settled⟩ := first d call found
  obtain ⟨last, found'', record', settled'⟩ := second d later found'
  exact ⟨last, found'', record'.trans record, settled' ∘ settled⟩

theorem append (deliveries more : List Delivery) : Grown deliveries (deliveries ++ more) := by
  intro d call found
  obtain ⟨inside, -⟩ := List.getElem?_eq_some_iff.mp found
  exact ⟨call, by rw [List.getElem?_append_left inside, found], rfl, id⟩

theorem settle (deliveries : List Delivery) (d : Nat) :
    Grown deliveries (deliveries.modify d fun call => { call with settled := true }) := by
  intro e call found
  refine ⟨if d = e then { call with settled := true } else call, ?_, ?_, ?_⟩
  · rw [List.getElem?_modify, found]
    rfl
  · split <;> rfl
  · intro settled
    split
    · rfl
    · exact settled

theorem recorded (grown : Grown before after) {batch : Batch} (recorded : Recorded before batch) :
    Recorded after batch := by
  refine ⟨recorded.unclaimed, fun p member d handed => ?_⟩
  obtain ⟨call, found, record, settled⟩ := recorded.delivered p member d handed
  obtain ⟨later, found', record', settled'⟩ := grown d call found
  exact ⟨later, found', record'.trans record, settled' ∘ settled⟩

end Grown

/-! ### Handing records over -/

/-- What handing the records over does: it begins one delivery for each record, unless the worker
has stopped, and changes nothing but the deliveries and the active operations. -/
structure HandedOver (w v : OutboxWorker) (handed : List (Id × Option Nat)) : Prop where
  frame : v = { w with deliveries := v.deliveries, activeOperations := v.activeOperations }
  active : ∀ operation ∈ w.activeOperations, operation ∈ v.activeOperations
  grown : Grown w.deliveries v.deliveries
  stopped : ∀ p ∈ handed, p.2 = none → w.state = .STOPPED
  delivered : ∀ p ∈ handed, ∀ d, p.2 = some d →
    ∃ call : Delivery, v.deliveries[d]? = some call ∧ call.record = p.1

theorem processRecord_handedOver (w : OutboxWorker) (record : Id) :
    HandedOver w (w.processRecord record).1 [(record, (w.processRecord record).2)] := by
  rw [processRecord]
  split
  · next stopped =>
    refine ⟨rfl, fun _ member => member, Grown.refl _, fun _ _ _ => stopped,
      fun p member d handed => ?_⟩
    rw [List.mem_singleton.mp member] at handed
    exact nomatch handed
  · refine ⟨rfl, fun _ member => List.mem_append_left _ member, Grown.append _ _,
      fun p member none => ?_, fun p member d handed => ?_⟩
    · rw [List.mem_singleton.mp member] at none
      exact nomatch none
    · rw [List.mem_singleton.mp member] at handed ⊢
      obtain rfl := Option.some.inj handed
      exact ⟨⟨record, false⟩, List.getElem?_concat_length, rfl⟩

theorem processRecords_handedOver (w : OutboxWorker) (records : List Id) :
    HandedOver w (w.processRecords records).1 (w.processRecords records).2 := by
  induction records generalizing w with
  | nil =>
    exact ⟨rfl, fun _ member => member, Grown.refl _, fun _ member => absurd member List.not_mem_nil,
      fun _ member => absurd member List.not_mem_nil⟩
  | cons record records ih =>
    have first := processRecord_handedOver w record
    have rest := ih (w.processRecord record).1
    have state : (w.processRecord record).1.state = w.state := by rw [first.frame]
    refine ⟨?_, fun operation member => rest.active operation (first.active operation member),
      first.grown.trans rest.grown, ?_, ?_⟩
    · rw [processRecords, rest.frame, first.frame]
    · intro p member none
      rcases List.mem_cons.mp member with rfl | later
      · exact first.stopped _ List.mem_cons_self none
      · exact state ▸ rest.stopped p later none
    · intro p member d handed
      rcases List.mem_cons.mp member with rfl | later
      · obtain ⟨call, found, record⟩ := first.delivered _ List.mem_cons_self d handed
        obtain ⟨call', found', record', -⟩ := rest.grown d call found
        exact ⟨call', found', record'.trans record⟩
      · exact rest.delivered p later d handed

/-- Every record of the claim is handed over, in its place. -/
theorem processRecords_records (w : OutboxWorker) (records : List Id) :
    (w.processRecords records).2.map Prod.fst = records := by
  induction records generalizing w with
  | nil => rfl
  | cons record records ih =>
    rw [processRecords, List.map_cons, ih]

/-! ### The invariant -/

/-- A batch that is between its claim and its end. -/
def InFlight (w : OutboxWorker) (b : Nat) : Prop :=
  ∃ batch, w.batches[b]? = some batch ∧ batch.phase ≠ .settled

structure Wf (w : OutboxWorker) : Prop where
  single : ∀ b c, InFlight w b → InFlight w c → b = c
  busy : ∀ b, InFlight w b → w.isProcessing = true
  tracked : ∀ b, InFlight w b → .batch b ∈ w.activeOperations
  recorded : ∀ (b : Nat) (batch : Batch), w.batches[b]? = some batch → Recorded w.deliveries batch
  handed : w.state ≠ .STOPPED → ∀ (b : Nat) (batch : Batch), w.begunBefore ≤ b →
    w.batches[b]? = some batch → ∀ p ∈ batch.records, p.2 ≠ none
  draining : w.shutdown.isSome = true ↔ w.state = .STOPPING
  emptied : w.shutdown = some .immediate ∨ w.shutdown = some .drained → ∀ b, ¬ InFlight w b
  waits : ∀ k, some k ∈ w.stops → k < w.drains ∨ k = w.drains ∧ w.shutdown.isSome = true

theorem Wf.initial : Wf initial := by
  refine ⟨?_, ?_, ?_, ?_, ?_, ?_, ?_, ?_⟩ <;> simp [Worker.initial, InFlight]

namespace Wf

variable {w v : OutboxWorker}

/-- Steps that leave the batches alone keep what is said of them. -/
theorem of_same_batches (wf : Wf w) (batches : v.batches = w.batches)
    (processing : v.isProcessing = w.isProcessing)
    (active : ∀ b, InFlight w b → .batch b ∈ v.activeOperations)
    (grown : Grown w.deliveries v.deliveries)
    (handed : v.state ≠ .STOPPED → w.state ≠ .STOPPED ∧ w.begunBefore ≤ v.begunBefore ∨
      v.batches.length ≤ v.begunBefore)
    (draining : v.shutdown.isSome = true ↔ v.state = .STOPPING)
    (emptied : v.shutdown = some .immediate ∨ v.shutdown = some .drained →
      (w.shutdown = some .immediate ∨ w.shutdown = some .drained) ∨ w.activeOperations = [])
    (waits : ∀ k, some k ∈ v.stops → k < v.drains ∨ k = v.drains ∧ v.shutdown.isSome = true) :
    Wf v := by
  have flight : ∀ b, InFlight v b ↔ InFlight w b := fun b => by rw [InFlight, InFlight, batches]
  refine ⟨fun b c first second => ?_, fun b first => ?_, fun b first => ?_,
    fun b batch found => ?_, fun alive b batch later found => ?_, draining, fun ended b first => ?_,
    waits⟩
  · exact wf.single b c ((flight b).mp first) ((flight c).mp second)
  · rw [processing]
    exact wf.busy b ((flight b).mp first)
  · exact active b ((flight b).mp first)
  · exact grown.recorded (wf.recorded b batch (batches ▸ found))
  · rcases handed alive with ⟨alive', start⟩ | started
    · exact wf.handed alive' b batch (Nat.le_trans start later) (batches ▸ found)
    · -- no batch has begun since the start
      obtain ⟨inside, -⟩ := List.getElem?_eq_some_iff.mp found
      omega
  · have here := (flight b).mp first
    rcases emptied ended with ended | none_left
    · exact wf.emptied ended b here
    · have member := wf.tracked b here
      rw [none_left] at member
      exact absurd member List.not_mem_nil

/-- A batch begins while none is in flight. -/
theorem begin (wf : Wf w) (alive : w.isOver = false) (idle : w.isProcessing = false) :
    Wf (track { w with isProcessing := true, batches := w.batches ++ [⟨.claiming, []⟩] }
      (.batch w.batches.length)) := by
  have none_left : ∀ b, ¬ InFlight w b := fun b first => by
    have busy := wf.busy b first
    rw [idle] at busy
    exact Bool.false_ne_true busy
  have cases : ∀ (b : Nat) (batch : Batch), (w.batches ++ [⟨.claiming, []⟩])[b]? = some batch →
      w.batches[b]? = some batch ∨ b = w.batches.length ∧ batch = ⟨.claiming, []⟩ := by
    intro b batch found
    rw [List.getElem?_append] at found
    split at found
    · exact Or.inl found
    · next outside =>
      obtain ⟨at_end, rfl⟩ := List.getElem?_eq_some_iff.mp found
      rw [List.length_singleton] at at_end
      exact Or.inr ⟨by omega, List.getElem_singleton _⟩
  have only : ∀ b, InFlight (track { w with
      isProcessing := true, batches := w.batches ++ [⟨.claiming, []⟩] }
      (.batch w.batches.length)) b → b = w.batches.length := by
    rintro b ⟨batch, found, flight⟩
    rcases cases b batch found with earlier | ⟨last, -⟩
    · exact absurd ⟨batch, earlier, flight⟩ (none_left b)
    · exact last
  refine ⟨fun b c first second => ?_, fun b first => rfl, fun b first => ?_,
    fun b batch found => ?_, fun _ b batch later found => ?_, wf.draining, fun ended b first => ?_,
    wf.waits⟩
  · rw [only b first, only c second]
  · rw [only b first]
    exact List.mem_append_right _ List.mem_cons_self
  · rcases cases b batch found with earlier | ⟨-, rfl⟩
    · exact wf.recorded b batch earlier
    · exact ⟨fun _ => rfl, fun p member => absurd member List.not_mem_nil⟩
  · rcases cases b batch found with earlier | ⟨-, rfl⟩
    · exact wf.handed (fun stopped => by simp [isOver, stopped] at alive) b batch later earlier
    · exact fun p member => absurd member List.not_mem_nil
  · -- a drain is over only while the worker stops
    have stopping : w.state = .STOPPING := wf.draining.mp (by
      rcases ended with ended | ended <;> simp [show w.shutdown = _ from ended])
    simp [isOver, stopping] at alive

theorem processBatch (wf : Wf w) : Wf w.processBatch := by
  rw [OutboxWorker.processBatch]
  split
  · exact wf
  · next alive =>
    split
    · exact wf
    · next idle => exact wf.begin (Bool.not_eq_true _ ▸ alive) (Bool.not_eq_true _ ▸ idle)

/-- The batch in flight ends once the deliveries of its records have settled. -/
theorem endBatch (wf : Wf w) {b : Nat} (flight : InFlight w b)
    (done : ∀ batch, w.batches[b]? = some batch → ∀ p ∈ batch.records, ∀ d, p.2 = some d →
      w.settled (.delivery d) = true) : Wf (w.endBatch b) := by
  have cases : ∀ (c : Nat) (batch : Batch), (w.endBatch b).batches[c]? = some batch →
      ∃ earlier : Batch, w.batches[c]? = some earlier ∧ batch.records = earlier.records ∧
        (b = c ∧ batch.phase = .settled ∨ b ≠ c ∧ batch = earlier) := by
    intro c batch found
    rw [OutboxWorker.endBatch, List.getElem?_modify] at found
    obtain ⟨earlier, found', rfl⟩ := Option.map_eq_some_iff.mp found
    refine ⟨earlier, found', ?_, ?_⟩
    · split <;> rfl
    · by_cases same : b = c
      · exact Or.inl ⟨same, by simp [same]⟩
      · exact Or.inr ⟨same, by simp [same]⟩
  have none_left : ∀ c, ¬ InFlight (w.endBatch b) c := by
    rintro c ⟨batch, found, open'⟩
    obtain ⟨earlier, found', -, ⟨-, settled⟩ | ⟨other, rfl⟩⟩ := cases c batch found
    · exact open' settled
    · exact other (wf.single b c flight ⟨batch, found', open'⟩)
  refine ⟨fun c _ first => absurd first (none_left c), fun c first => absurd first (none_left c),
    fun c first => absurd first (none_left c), fun c batch found => ?_,
    fun alive c batch later found => ?_, wf.draining, fun _ => none_left, wf.waits⟩
  · obtain ⟨earlier, found', records, ⟨rfl, settled⟩ | ⟨-, rfl⟩⟩ := cases c batch found
    · refine ⟨fun claiming => by simp [settled] at claiming, fun p member d handed => ?_⟩
      rw [records] at member
      obtain ⟨call, found'', record, -⟩ := (wf.recorded b earlier found').delivered p member d handed
      have ended := done earlier found' p member d handed
      rw [OutboxWorker.settled, found''] at ended
      exact ⟨call, found'', record, fun _ => ended⟩
    · exact wf.recorded c batch found'
  · obtain ⟨earlier, found', records, -⟩ := cases c batch found
    rw [records]
    exact wf.handed alive c earlier later found'

/-- What the claim of the batch in flight returned is handed over. -/
theorem deliver (wf : Wf w) {b : Nat} (flight : InFlight w b) (records : List Id) :
    Wf { (w.processRecords records).1 with
      batches := (w.processRecords records).1.batches.modify b fun _ =>
        ⟨.delivering, (w.processRecords records).2⟩ } := by
  obtain ⟨frame, active, grown, stopped, delivered⟩ := processRecords_handedOver w records
  generalize w.processRecords records = result at *
  obtain ⟨v, handed⟩ := result
  dsimp only at frame active grown stopped delivered ⊢
  have cases : ∀ (c : Nat) (batch : Batch),
      (v.batches.modify b fun _ => ⟨.delivering, handed⟩)[c]? = some batch →
      b = c ∧ batch = ⟨.delivering, handed⟩ ∨ w.batches[c]? = some batch := by
    intro c batch found
    rw [List.getElem?_modify, frame] at found
    obtain ⟨earlier, found', rfl⟩ := Option.map_eq_some_iff.mp found
    split
    · next same => exact Or.inl ⟨same, rfl⟩
    · exact Or.inr found'
  have before : ∀ c, InFlight { v with
      batches := v.batches.modify b fun _ => ⟨.delivering, handed⟩ } c → InFlight w c := by
    rintro c ⟨batch, found, open'⟩
    rcases cases c batch found with ⟨rfl, -⟩ | found'
    · exact flight
    · exact ⟨batch, found', open'⟩
  refine ⟨fun c d first second => wf.single c d (before c first) (before d second),
    fun c first => ?_, fun c first => active _ (wf.tracked c (before c first)),
    fun c batch found => ?_, fun alive c batch later found => ?_, ?_, fun ended c first => ?_, ?_⟩
  · rw [frame]
    exact wf.busy c (before c first)
  · rcases cases c batch found with ⟨-, rfl⟩ | found'
    · refine ⟨fun claiming => BatchPhase.noConfusion claiming, fun p member d here => ?_⟩
      obtain ⟨call, found', record⟩ := delivered p member d here
      exact ⟨call, found', record, fun settled => BatchPhase.noConfusion settled⟩
    · exact grown.recorded (wf.recorded c batch found')
  · rw [frame] at alive later
    rcases cases c batch found with ⟨-, rfl⟩ | found'
    · exact fun p member none => alive (stopped p member none)
    · exact wf.handed alive c batch later found'
  · rw [frame]
    exact wf.draining
  · rw [frame] at ended
    exact wf.emptied ended c (before c first)
  · rw [frame]
    exact wf.waits

theorem start (wf : Wf w) : Wf w.start := by
  rw [OutboxWorker.start]
  split
  · exact wf
  · next ended =>
    have idle : w.shutdown.isSome = false := by
      rw [Bool.eq_false_iff]
      exact fun draining => ended (Or.inr (wf.draining.mp draining))
    refine wf.of_same_batches rfl rfl wf.tracked (Grown.refl _) (fun _ => Or.inr (Nat.le_refl _)) ?_
      Or.inl wf.waits
    simp [idle]

theorem stop (wf : Wf w) : Wf w.stop := by
  rw [OutboxWorker.stop]
  split
  · next stopped =>
    refine wf.of_same_batches rfl rfl wf.tracked (Grown.refl _) (fun alive => absurd stopped alive)
      wf.draining Or.inl fun k member => wf.waits k ?_
    rcases List.mem_append.mp member with earlier | this
    · exact earlier
    · exact nomatch List.mem_singleton.mp this
  · next alive =>
    have same : ∀ k, some k ∈ w.stops ++ [some w.drains] → k < w.drains ∨ k = w.drains := by
      intro k member
      rcases List.mem_append.mp member with earlier | this
      · exact (wf.waits k earlier).imp id And.left
      · exact Or.inr (Option.some.inj (List.mem_singleton.mp this))
    split
    · next drain running =>
      refine wf.of_same_batches rfl rfl wf.tracked (Grown.refl _)
        (fun _ => Or.inl ⟨alive, Nat.le_refl _⟩) wf.draining Or.inl fun k member => ?_
      exact (same k member).imp id fun this => ⟨this, by rw [running]; rfl⟩
    · refine wf.of_same_batches rfl rfl wf.tracked (Grown.refl _)
        (fun _ => Or.inl ⟨alive, Nat.le_refl _⟩) (by simp) (fun ended => ?_) fun k member => ?_
      · -- the new drain is over at once only where nothing was active
        by_cases nothing : w.activeOperations = []
        · exact Or.inr nothing
        · simp [nothing] at ended
      · exact (same k member).imp id fun this => ⟨this, rfl⟩

end Wf

theorem inFlight_of_any {w : OutboxWorker} {b : Nat} {test : Batch → Bool}
    (holds : (w.batches[b]?.any test) = true)
    (open' : ∀ batch, test batch = true → batch.phase ≠ .settled) : InFlight w b := by
  obtain ⟨batch, found, tested⟩ := (Option.any_eq_true _ _).mp holds
  exact ⟨batch, found, open' batch tested⟩

/-- Every event keeps the invariant. -/
theorem step_keepsWf {w v : OutboxWorker} (event : Event) (wf : Wf w)
    (taken : step w event = some v) : Wf v := by
  have stays : w.state ≠ .STOPPED → w.state ≠ .STOPPED ∧ w.begunBefore ≤ w.begunBefore ∨
      w.batches.length ≤ w.begunBefore := fun alive => Or.inl ⟨alive, Nat.le_refl _⟩
  cases event with
  | start =>
    obtain rfl := Option.some.inj taken
    exact wf.start
  | tick =>
    obtain rfl := Option.some.inj taken
    split
    · exact wf.processBatch
    · exact wf
  | processBatch =>
    obtain rfl := Option.some.inj taken
    exact wf.processBatch
  | processRecord record =>
    obtain rfl := Option.some.inj taken
    obtain ⟨frame, active, grown, -, -⟩ := processRecord_handedOver w record
    refine wf.of_same_batches ?_ ?_ (fun b flight => active _ (wf.tracked b flight)) grown ?_ ?_ ?_
      ?_
    · rw [frame]
    · rw [frame]
    · rw [frame]
      exact stays
    · rw [frame]
      exact wf.draining
    · rw [frame]
      exact Or.inl
    · rw [frame]
      exact wf.waits
  | stop =>
    obtain rfl := Option.some.inj taken
    exact wf.stop
  | claimResolves b records =>
    rw [step] at taken
    split at taken
    · next claiming =>
      have flight : InFlight w b := inFlight_of_any claiming fun batch tested => by
        simp [of_decide_eq_true tested]
      split at taken
      · obtain rfl := Option.some.inj taken
        refine wf.endBatch flight fun batch found p member => ?_
        -- a batch that still claims has no records
        obtain ⟨same, found', tested⟩ := (Option.any_eq_true _ _).mp claiming
        obtain rfl := Option.some.inj (found.symm.trans found')
        rw [(wf.recorded b batch found).unclaimed (of_decide_eq_true tested)] at member
        exact absurd member List.not_mem_nil
      · obtain rfl := Option.some.inj taken
        exact wf.deliver flight records
    · exact nomatch taken
  | claimFails b =>
    rw [step] at taken
    split at taken
    · next claiming =>
      obtain rfl := Option.some.inj taken
      refine wf.endBatch (inFlight_of_any claiming fun batch tested => by
        simp [of_decide_eq_true tested]) fun batch found p member => ?_
      obtain ⟨same, found', tested⟩ := (Option.any_eq_true _ _).mp claiming
      obtain rfl := Option.some.inj (found.symm.trans found')
      rw [(wf.recorded b batch found).unclaimed (of_decide_eq_true tested)] at member
      exact absurd member List.not_mem_nil
    · exact nomatch taken
  | deliverySettles d =>
    rw [step] at taken
    split at taken
    · obtain rfl := Option.some.inj taken
      exact wf.of_same_batches rfl rfl wf.tracked (Grown.settle _ _) stays wf.draining Or.inl wf.waits
    · exact nomatch taken
  | batchEnds b =>
    rw [step] at taken
    split at taken
    · next ended =>
      obtain rfl := Option.some.inj taken
      obtain ⟨batch, found, tested⟩ := (Option.any_eq_true _ _).mp ended
      rw [Bool.and_eq_true, List.all_eq_true] at tested
      refine wf.endBatch ⟨batch, found, by simp [of_decide_eq_true tested.1]⟩
        fun same found' p member d handed => ?_
      obtain rfl := Option.some.inj (found.symm.trans found')
      have each := tested.2 p member
      rwa [handed] at each
    · exact nomatch taken
  | untracks operation =>
    rw [step] at taken
    split at taken
    · next settled =>
      obtain rfl := Option.some.inj taken
      refine wf.of_same_batches rfl rfl (fun b flight => ?_) (Grown.refl _) stays wf.draining
        Or.inl wf.waits
      refine List.mem_filter.mpr ⟨wf.tracked b flight, ?_⟩
      -- what is in flight has not settled
      obtain ⟨batch, found, open'⟩ := flight
      rw [decide_eq_true_eq]
      rintro rfl
      rw [OutboxWorker.settled, found] at settled
      exact open' (of_decide_eq_true settled)
    · exact nomatch taken
  | snapshotSettles =>
    rw [step] at taken
    split at taken
    · next snapshot waiting =>
      split at taken
      · obtain rfl := Option.some.inj taken
        refine wf.of_same_batches rfl rfl wf.tracked (Grown.refl _) stays ?_ (by simp) ?_
        · simpa [waiting] using wf.draining
        · simpa [waiting] using wf.waits
      · exact nomatch taken
    · exact nomatch taken
  | flushed =>
    rw [step] at taken
    split at taken
    · next flushing =>
      obtain rfl := Option.some.inj taken
      refine wf.of_same_batches rfl rfl wf.tracked (Grown.refl _) stays ?_ (fun ended => ?_) ?_
      · simpa [flushing] using wf.draining
      · by_cases nothing : w.activeOperations = []
        · exact Or.inr nothing
        · simp [nothing] at ended
      · simpa [flushing] using wf.waits
    · exact nomatch taken
  | drainTimesOut =>
    rw [step] at taken
    split at taken
    · next snapshot waiting =>
      obtain rfl := Option.some.inj taken
      refine wf.of_same_batches rfl rfl wf.tracked (Grown.refl _) stays ?_ (by simp) ?_
      · simpa [waiting] using wf.draining
      · simpa [waiting] using wf.waits
    · next flushing =>
      obtain rfl := Option.some.inj taken
      refine wf.of_same_batches rfl rfl wf.tracked (Grown.refl _) stays ?_ (by simp) ?_
      · simpa [flushing] using wf.draining
      · simpa [flushing] using wf.waits
    · exact nomatch taken
  | stopEnds =>
    have ends : ∀ drain, w.shutdown = some drain →
        Wf { w with state := .STOPPED, shutdown := none, drains := w.drains + 1 } := by
      intro drain running
      refine wf.of_same_batches rfl rfl wf.tracked (Grown.refl _) (fun alive => absurd rfl alive)
        (by simp) (by simp) fun k member => Or.inl ?_
      show k < w.drains + 1
      rcases wf.waits k member with earlier | ⟨this, -⟩
      · omega
      · omega
    rw [step] at taken
    split at taken
    · next running => exact Option.some.inj taken ▸ ends _ running
    · next running => exact Option.some.inj taken ▸ ends _ running
    · next running => exact Option.some.inj taken ▸ ends _ running
    · exact nomatch taken

theorem Reached.wf {w : OutboxWorker} (reached : Reached w) : Wf w := by
  obtain ⟨events, ran⟩ := reached
  exact Machine.invariant_of_run (fun _ event _ wf taken => step_keepsWf event wf taken)
    Wf.initial ran

/-! ### What a run keeps -/

/-- The call of `stop` has resolved: it found the worker stopped, or its drain is over. -/
def stopResolved (w : OutboxWorker) (i : Nat) : Bool :=
  w.stops[i]?.any fun ticket => ticket.all fun k => k < w.drains

/-- The batch has the records of its claim. -/
def Claimed (w : OutboxWorker) (b : Nat) (records : List Id) : Prop :=
  ∃ batch : Batch, w.batches[b]? = some batch ∧ batch.phase ≠ .claiming ∧
    batch.records.map Prod.fst = records

/-- What an event does to the calls of `stop`, to the batches and to the state. -/
structure Follows (w v : OutboxWorker) (event : Event) : Prop where
  stops : w.stops <+: v.stops
  drains : w.drains ≤ v.drains
  claimed : ∀ b records, Claimed w b records → Claimed v b records
  begun : w.isOver = true → v.batches.length = w.batches.length
  ended : w.isOver = true → v.isOver = true ∨ event = .start ∧ w.state = .STOPPED

namespace Follows

variable {w v : OutboxWorker} {event : Event}

theorem refl (w : OutboxWorker) (event : Event) : Follows w w event :=
  ⟨List.prefix_rfl, Nat.le_refl _, fun _ _ => id, fun _ => rfl, Or.inl⟩

theorem of_same_batches (batches : v.batches = w.batches) (stops : w.stops <+: v.stops)
    (drains : w.drains ≤ v.drains)
    (ended : w.isOver = true → v.isOver = true ∨ event = .start ∧ w.state = .STOPPED) :
    Follows w v event :=
  ⟨stops, drains, fun b records ⟨batch, found, claimed⟩ => ⟨batch, batches ▸ found, claimed⟩,
    fun _ => by rw [batches], ended⟩

theorem begin (alive : w.isOver = false) {batch : Batch} (batches : v.batches = w.batches ++ [batch])
    (stops : v.stops = w.stops) (drains : v.drains = w.drains) : Follows w v event := by
  refine ⟨stops ▸ List.prefix_rfl, drains ▸ Nat.le_refl _, fun b records ⟨earlier, found, claimed⟩ => ?_,
    fun ended => ?_, fun ended => ?_⟩
  · obtain ⟨inside, -⟩ := List.getElem?_eq_some_iff.mp found
    exact ⟨earlier, by rw [batches, List.getElem?_append_left inside, found], claimed⟩
  · rw [alive] at ended
    exact nomatch ended
  · rw [alive] at ended
    exact nomatch ended

theorem processBatch (w : OutboxWorker) (event : Event) : Follows w w.processBatch event := by
  rw [OutboxWorker.processBatch]
  split
  · exact refl w event
  · next alive =>
    split
    · exact refl w event
    · exact begin (Bool.not_eq_true _ ▸ alive) rfl rfl rfl

theorem endBatch (w : OutboxWorker) (b : Nat) (event : Event) : Follows w (w.endBatch b) event := by
  refine ⟨List.prefix_rfl, Nat.le_refl _, fun c records ⟨batch, found, delivering, same⟩ => ?_,
    fun _ => List.length_modify _ _ _, Or.inl⟩
  refine ⟨if b = c then { batch with phase := .settled } else batch, ?_, ?_, ?_⟩
  · rw [OutboxWorker.endBatch, List.getElem?_modify, found]
    rfl
  · split
    · exact nofun
    · exact delivering
  · split
    · exact same
    · exact same

/-- The claim of a batch sets the records of that batch, which had none before. -/
theorem deliver (w : OutboxWorker) (b : Nat) (records : List Id) (event : Event)
    (claiming : ∀ batch, w.batches[b]? = some batch → batch.phase = .claiming) :
    Follows w { (w.processRecords records).1 with
      batches := (w.processRecords records).1.batches.modify b fun _ =>
        ⟨.delivering, (w.processRecords records).2⟩ } event := by
  obtain ⟨frame, -, -, -, -⟩ := processRecords_handedOver w records
  generalize w.processRecords records = result at *
  obtain ⟨v, handed⟩ := result
  dsimp only at frame ⊢
  refine ⟨?_, ?_, fun c others ⟨batch, found, here⟩ => ⟨batch, ?_, here⟩, fun _ => ?_,
    fun ended => Or.inl ?_⟩
  · exact ⟨[], by rw [frame, List.append_nil]⟩
  · exact Nat.le_of_eq (by rw [frame])
  · have other : b ≠ c := by
      rintro rfl
      exact here.1 (claiming batch found)
    rw [List.getElem?_modify, frame, found]
    simp [other]
  · rw [List.length_modify, frame]
  · rw [frame]
    exact ended

end Follows

theorem step_follows {w v : OutboxWorker} {event : Event} (taken : step w event = some v) :
    Follows w v event := by
  cases event with
  | start =>
    obtain rfl := Option.some.inj taken
    rw [OutboxWorker.start]
    split
    · exact Follows.refl w _
    · next idle =>
      -- the start takes effect only if the worker was neither running nor stopping
      refine .of_same_batches rfl List.prefix_rfl (Nat.le_refl _) fun ended => Or.inr ⟨rfl, ?_⟩
      simp only [isOver, Bool.or_eq_true, decide_eq_true_eq] at ended
      exact ended.resolve_left fun stopping => idle (Or.inr stopping)
  | tick =>
    obtain rfl := Option.some.inj taken
    split
    · exact Follows.processBatch w _
    · exact Follows.refl w _
  | processBatch =>
    obtain rfl := Option.some.inj taken
    exact Follows.processBatch w _
  | processRecord record =>
    obtain rfl := Option.some.inj taken
    obtain ⟨frame, -, -, -, -⟩ := processRecord_handedOver w record
    refine .of_same_batches ?_ ?_ ?_ fun ended => Or.inl ?_
    · rw [frame]
    · exact ⟨[], by rw [frame, List.append_nil]⟩
    · exact Nat.le_of_eq (by rw [frame])
    · rw [frame]
      exact ended
  | stop =>
    obtain rfl := Option.some.inj taken
    rw [OutboxWorker.stop]
    split
    · exact .of_same_batches rfl (List.prefix_append _ _) (Nat.le_refl _) Or.inl
    · split
      · exact .of_same_batches rfl (List.prefix_append _ _) (Nat.le_refl _) Or.inl
      · exact .of_same_batches rfl (List.prefix_append _ _) (Nat.le_refl _) fun _ => Or.inl rfl
  | claimResolves b records =>
    rw [step] at taken
    split at taken
    · next claiming =>
      split at taken
      · obtain rfl := Option.some.inj taken
        exact Follows.endBatch w b _
      · obtain rfl := Option.some.inj taken
        refine Follows.deliver w b records _ fun batch found => ?_
        rw [found] at claiming
        exact of_decide_eq_true claiming
    · exact nomatch taken
  | claimFails b =>
    rw [step] at taken
    split at taken
    · obtain rfl := Option.some.inj taken
      exact Follows.endBatch w b _
    · exact nomatch taken
  | deliverySettles d =>
    rw [step] at taken
    split at taken
    · obtain rfl := Option.some.inj taken
      exact .of_same_batches rfl List.prefix_rfl (Nat.le_refl _) Or.inl
    · exact nomatch taken
  | batchEnds b =>
    rw [step] at taken
    split at taken
    · obtain rfl := Option.some.inj taken
      exact Follows.endBatch w b _
    · exact nomatch taken
  | untracks operation =>
    rw [step] at taken
    split at taken
    · obtain rfl := Option.some.inj taken
      exact .of_same_batches rfl List.prefix_rfl (Nat.le_refl _) Or.inl
    · exact nomatch taken
  | snapshotSettles =>
    rw [step] at taken
    split at taken
    · split at taken
      · obtain rfl := Option.some.inj taken
        exact .of_same_batches rfl List.prefix_rfl (Nat.le_refl _) Or.inl
      · exact nomatch taken
    · exact nomatch taken
  | flushed =>
    rw [step] at taken
    split at taken
    · obtain rfl := Option.some.inj taken
      exact .of_same_batches rfl List.prefix_rfl (Nat.le_refl _) Or.inl
    · exact nomatch taken
  | drainTimesOut =>
    rw [step] at taken
    split at taken
    · obtain rfl := Option.some.inj taken
      exact .of_same_batches rfl List.prefix_rfl (Nat.le_refl _) Or.inl
    · obtain rfl := Option.some.inj taken
      exact .of_same_batches rfl List.prefix_rfl (Nat.le_refl _) Or.inl
    · exact nomatch taken
  | stopEnds =>
    have ends : Follows w { w with state := .STOPPED, shutdown := none, drains := w.drains + 1 }
        .stopEnds :=
      .of_same_batches rfl List.prefix_rfl (Nat.le_succ _) fun _ => Or.inl rfl
    rw [step] at taken
    split at taken
    · exact Option.some.inj taken ▸ ends
    · exact Option.some.inj taken ▸ ends
    · exact Option.some.inj taken ▸ ends
    · exact nomatch taken

/-- The calls of `stop` stay in their places. -/
theorem stops_of_run {w v : OutboxWorker} {events : List Event}
    (ran : Machine.run step w events = some v) : w.stops <+: v.stops :=
  Machine.invariant_of_run (fun s _ _ (earlier : w.stops <+: s.stops) taken =>
    earlier.trans (step_follows taken).stops) List.prefix_rfl ran

theorem claimed_of_run {w v : OutboxWorker} {events : List Event} {b : Nat} {records : List Id}
    (claimed : Claimed w b records) (ran : Machine.run step w events = some v) :
    Claimed v b records :=
  Machine.invariant_of_run (fun _ _ _ claimed taken => (step_follows taken).claimed b records claimed)
    claimed ran

theorem claimed_of_claim {u v : OutboxWorker} {b : Nat} {records : List Id}
    (wf : Wf u) (claim : step u (.claimResolves b records) = some v) : Claimed v b records := by
  rw [step] at claim
  split at claim
  · next claiming =>
    obtain ⟨batch, found, tested⟩ := (Option.any_eq_true _ _).mp claiming
    split at claim
    · next nothing =>
      obtain rfl := Option.some.inj claim
      refine ⟨{ batch with phase := .settled }, ?_, nofun, ?_⟩
      · rw [OutboxWorker.endBatch, List.getElem?_modify, found]
        simp
      · rw [(wf.recorded b batch found).unclaimed (of_decide_eq_true tested), nothing]
        rfl
    · obtain rfl := Option.some.inj claim
      obtain ⟨frame, -, -, -, -⟩ := processRecords_handedOver u records
      refine ⟨⟨.delivering, (u.processRecords records).2⟩, ?_, nofun,
        processRecords_records u records⟩
      rw [List.getElem?_modify, frame, found]
      simp
  · exact nomatch claim

/-- While the worker stops or has stopped, no claim is begun, until a start that succeeds. -/
theorem claims_of_run {w v : OutboxWorker} {events : List Event} (ended : w.isOver = true)
    (ran : Machine.run step w events = some v) :
    v.batches.length = w.batches.length ∨ ∃ before after u,
      events = before ++ .start :: after ∧ Machine.run step w before = some u ∧
        u.state = .STOPPED ∧ u.batches.length = w.batches.length := by
  have keeps : ∀ s event t, (s.isOver = true ∧ s.batches.length = w.batches.length) →
      step s event = some t → (t.isOver = true ∧ t.batches.length = w.batches.length) ∨
        event = .start ∧ s.state = .STOPPED := by
    rintro s event t ⟨ended, same⟩ taken
    have follows := step_follows taken
    rcases follows.ended ended with still | started
    · exact Or.inl ⟨still, (follows.begun ended).trans same⟩
    · exact Or.inr started
  rcases Machine.run_until (Q := fun s event => event = .start ∧ s.state = .STOPPED) keeps
    ⟨ended, rfl⟩ ran with ⟨-, same⟩ | ⟨before, _, after, u, split, reached, inside, rfl, stopped⟩
  · exact Or.inl same
  · exact Or.inr ⟨before, after, u, split, reached, stopped, inside.2⟩

/-- A call that has not resolved waits for the drain that runs. -/
theorem Wf.unresolved {w : OutboxWorker} (wf : Wf w) {i : Nat} (inside : i < w.stops.length)
    (waiting : stopResolved w i = false) :
    w.stops[i]? = some (some w.drains) ∧ w.shutdown.isSome = true := by
  rw [stopResolved, List.getElem?_eq_getElem inside] at waiting
  have member : w.stops[i] ∈ w.stops := List.getElem_mem inside
  rw [List.getElem?_eq_getElem inside]
  cases ticket : w.stops[i] with
  | none =>
    rw [ticket] at waiting
    exact nomatch waiting
  | some k =>
    rw [ticket] at waiting member
    simp only [Option.any_some, Option.all_some, decide_eq_false_iff_not] at waiting
    obtain ⟨rfl, running⟩ := (wf.waits k member).resolve_left waiting
    exact ⟨rfl, running⟩

/-- A drain that has found nothing more to wait for has let every claimed record settle. -/
theorem Wf.drained {w : OutboxWorker} (wf : Wf w)
    (ended : w.shutdown = some .immediate ∨ w.shutdown = some .drained) {b : Nat} {batch : Batch}
    (later : w.begunBefore ≤ b) (found : w.batches[b]? = some batch) :
    batch.phase = .settled ∧ ∀ p ∈ batch.records, ∃ d call, p.2 = some d ∧
      w.deliveries[d]? = some call ∧ call.record = p.1 ∧ call.settled = true := by
  have alive : w.state ≠ .STOPPED := by
    have stopping : w.state = .STOPPING := wf.draining.mp (by rcases ended with ended | ended <;> simp [ended])
    simp [stopping]
  have settled : batch.phase = .settled :=
    Decidable.not_not.mp fun open' => wf.emptied ended b ⟨batch, found, open'⟩
  refine ⟨settled, fun p member => ?_⟩
  obtain ⟨d, handed⟩ := Option.ne_none_iff_exists'.mp (wf.handed alive b batch later found p member)
  obtain ⟨call, found', record, ended⟩ := (wf.recorded b batch found).delivered p member d handed
  exact ⟨d, call, handed, found', record, ended settled⟩

/-- A call that waits can always be ended: its drain is over, or its timer can fire. -/
theorem Wf.endable {w : OutboxWorker} (running : w.shutdown.isSome = true) :
    ∃ v, (Machine.run step w [.stopEnds] = some v ∨
      Machine.run step w [.drainTimesOut, .stopEnds] = some v) ∧ v.drains = w.drains + 1 := by
  obtain ⟨drain, found⟩ := Option.isSome_iff_exists.mp running
  refine ⟨{ w with state := .STOPPED, shutdown := none, drains := w.drains + 1 }, ?_, rfl⟩
  cases drain <;> simp [Machine.run, step, found]

/-! ### The life of the worker -/

/-- At most one batch is between its claim and its end; while the worker stops or has stopped no
claim begins, until a start that finds it stopped; calls of `stop` that wait at one moment resolve
together, and can be ended; and when `stop` ends by draining, every batch begun since the last
start has ended, and each record it claimed was handed to a delivery, which has settled. -/
theorem worker_lifecycle (w : OutboxWorker) (reached : Reached w) :
    (∀ b c, InFlight w b → InFlight w c → b = c) ∧
    (∀ events v, w.isOver = true → Machine.run step w events = some v →
      v.batches.length = w.batches.length ∨ ∃ before after u,
        events = before ++ .start :: after ∧ Machine.run step w before = some u ∧
          u.state = .STOPPED ∧ u.batches.length = w.batches.length) ∧
    (∀ i j events v, i < w.stops.length → j < w.stops.length →
      stopResolved w i = false → stopResolved w j = false →
      Machine.run step w events = some v → stopResolved v i = stopResolved v j) ∧
    (∀ i, i < w.stops.length → stopResolved w i = false →
      ∃ v, (Machine.run step w [.stopEnds] = some v ∨
        Machine.run step w [.drainTimesOut, .stopEnds] = some v) ∧ stopResolved v i = true) ∧
    (∀ v, w.shutdown = some .immediate ∨ w.shutdown = some .drained →
      step w .stopEnds = some v → v.state = .STOPPED ∧
        (∀ b, w.begunBefore ≤ b → ¬ InFlight v b) ∧
        ∀ b before middle after records u, w.begunBefore ≤ b →
          Machine.run step initial before = some u →
          step u (.claimResolves b records) = some middle →
          Machine.run step middle after = some w →
          ∃ batch, v.batches[b]? = some batch ∧ ∀ record ∈ records,
            ∃ d call, (record, some d) ∈ batch.records ∧ v.deliveries[d]? = some call ∧
              call.record = record ∧ call.settled = true) := by
  have wf := reached.wf
  refine ⟨wf.single, fun events v ended ran => claims_of_run ended ran, ?_, ?_, ?_⟩
  · -- calls of stop that wait share the ticket of the drain that is running
    intro i j events v first second waiting waiting' ran
    obtain ⟨more, stops⟩ := stops_of_run ran
    have same : v.stops[i]? = v.stops[j]? := by
      rw [← stops, List.getElem?_append_left first, List.getElem?_append_left second,
        (wf.unresolved first waiting).1, (wf.unresolved second waiting').1]
    rw [stopResolved, stopResolved, same]
  · -- the shutdown can end at once or by its timeout, and takes the ticket with it
    intro i inside waiting
    obtain ⟨ticket, running⟩ := wf.unresolved inside waiting
    obtain ⟨v, ends, drains⟩ := Wf.endable running
    refine ⟨v, ends, ?_⟩
    obtain ⟨more, stops⟩ : w.stops <+: v.stops := ends.elim stops_of_run stops_of_run
    rw [stopResolved, ← stops, List.getElem?_append_left inside, ticket, drains]
    simp
  · intro v settled ends
    obtain rfl : { w with state := .STOPPED, shutdown := none, drains := w.drains + 1 } = v := by
      rcases settled with settled | settled <;> simpa [step, settled] using ends
    refine ⟨rfl, fun b _ flight => wf.emptied settled b flight, ?_⟩
    intro b before middle after records u later ran claim rest
    -- the batch keeps the records that it claimed until now, when all of them are settled
    obtain ⟨batch, found, -, same⟩ := claimed_of_run
      (claimed_of_claim (Reached.wf ⟨before, ran⟩) claim) rest
    refine ⟨batch, found, fun record member => ?_⟩
    rw [← same] at member
    obtain ⟨⟨_, handed⟩, here, rfl⟩ := List.mem_map.mp member
    obtain ⟨-, each⟩ := wf.drained settled later found
    obtain ⟨d, call, rfl, found', rest⟩ := each _ here
    exact ⟨d, call, here, found', rest⟩

/-- Two records claimed before the stop are delivered before it ends, for both calls of it. -/
theorem worker_lifecycle_sample :
    ∃ w v : OutboxWorker, Machine.run step initial [.start, .tick, .stop, .tick, .stop,
        .claimResolves 0 [7, 9], .deliverySettles 1, .deliverySettles 0, .batchEnds 0,
        .untracks (.batch 0), .snapshotSettles, .untracks (.delivery 0), .untracks (.delivery 1),
        .flushed] = some w ∧ step w .stopEnds = some v ∧
      stopResolved v 0 = true ∧ stopResolved v 1 = true ∧ v.state = .STOPPED ∧
      (∀ b c, InFlight w b → InFlight w c → b = c) ∧ ∀ b, w.begunBefore ≤ b → ¬ InFlight v b := by
  obtain ⟨single, -, -, -, drained⟩ := worker_lifecycle _ ⟨[.start, .tick, .stop, .tick, .stop,
    .claimResolves 0 [7, 9], .deliverySettles 1, .deliverySettles 0, .batchEnds 0,
    .untracks (.batch 0), .snapshotSettles, .untracks (.delivery 0), .untracks (.delivery 1),
    .flushed], rfl⟩
  obtain ⟨stopped, ended, -⟩ := drained _ (Or.inr rfl) rfl
  exact ⟨_, _, rfl, rfl, rfl, rfl, stopped, single, ended⟩

end LabourBaba.Outbox.Worker
