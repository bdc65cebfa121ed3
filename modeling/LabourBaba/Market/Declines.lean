import LabourBaba.Market.Footprints
import LabourBaba.Market.WaveBook
import LabourBaba.Store.Lawful

/-!
# Declines

`worker.decline_count` is to count the offers a worker has declined. The transaction of
`declineDispatch` closes the worker's pending offer of the requirement and increments the
counter; the increment does not look at whether the UPDATE before it matched a row. Only
`declineDispatch` writes the status declined, and no other statement selects a row that has it,
so the declined rows of a worker are the rows its declines have closed.
-/
namespace LabourBaba.Market

open Store

/-- Every worker's counter is the number of the worker's offers that a decline has closed. -/
def DeclinesCounted (d : Db) : Prop :=
  ∀ w, d.declineCounts.count w =
    d.dispatches.countP fun x => decide (x.workerId = w ∧ x.status = .declined)

/-- The transaction of a decline finds a pending offer of the requirement to the worker: as
long as it has written nothing, there is one. -/
def findsPending : Op → List Write → Db → Bool
  | .declineDispatch r w, [], d => (d.dispatch r w).any fun x => decide (x.status = .pending)
  | _, _, _ => true

/-! ### The law of declines -/

def Db.declinedAt (d : Db) (offer : Id × Id) : Prop :=
  ∃ x, d.dispatch offer.1 offer.2 = some x ∧ x.status = .declined

/-- A statement closes no declined offer, and a decline closes offers that exist. -/
def OpenBefore (d : Db) : Write → Prop
  | .dispatchStatus offers s => ∀ o ∈ offers, ¬ d.declinedAt o ∧
      (s = .declined → (d.dispatch o.1 o.2).isSome)
  | _ => True

/-- The write declines nothing and counts no decline. -/
def Write.noDecline : Write → Bool
  | .dispatchStatus _ s => decide (s ≠ .declined)
  | .insertDispatch x => decide (x.status ≠ .declined)
  | .declineCount _ => false
  | _ => true

/-- The writes of a decline that has found an offer. -/
def Declined (ws : List Write) : Prop :=
  ∃ r w offers, offers ≠ [] ∧ (∀ o ∈ offers, o = (r, w)) ∧
    ws = [.dispatchStatus offers .declined, .declineCount w]

theorem openBefore_rows (d d' : Db) (w : Write) (rows : ∀ k ∈ keys Db w, row d' k = row d k)
    (before : OpenBefore d w) : OpenBefore d' w := by
  cases w with
  | dispatchStatus offers s =>
    intro o member
    have same : d'.dispatch o.1 o.2 = d.dispatch o.1 o.2 :=
      rows (.dispatch o.1 o.2) (List.mem_map_of_mem member)
    simp only [Db.declinedAt, same]
    exact before o member
  | _ => trivial

/-- A declined offer stays as it is under writes that close open offers only. -/
theorem declined_applyAll {d : Db} {ws : List Write} (before : ∀ w ∈ ws, OpenBefore d w)
    {o : Id × Id} {x : Dispatch} (declined : d.declinedAt o) {e : Db}
    (stored : e.dispatch o.1 o.2 = some x) : (applyAll ws e).dispatch o.1 o.2 = some x := by
  induction ws generalizing e with
  | nil => exact stored
  | cons w ws ih =>
    refine ih (fun v member => before v (List.mem_cons_of_mem _ member)) ?_
    cases w with
    | insertDispatch y => exact Table.find_insert_of_some stored
    | dispatchStatus offers s =>
      have spared : o ∉ offers := fun member =>
        (before _ List.mem_cons_self o member).1 declined
      have same : Table.find Dispatch.key (Table.modify Dispatch.key e.dispatches offers
          fun y => { y with status := s }) o = Table.find Dispatch.key e.dispatches o :=
        Table.find_modify_of_notMem _ _ _ _ (fun _ => rfl) spared
      exact same.trans stored
    | _ => exact stored

/-- What is open under the writes of a transaction was open below them. -/
theorem openBefore_under (d : Db) (ws : List Write) (w : Write)
    (own : ∀ v ∈ ws, v.noDecline = true ∧ OpenBefore d v) (plain : w.noDecline = true)
    (above : OpenBefore (applyAll ws d) w) : OpenBefore d w := by
  cases w with
  | dispatchStatus offers s =>
    intro o member
    refine ⟨fun declined => ?_, fun same => absurd same (of_decide_eq_true plain)⟩
    obtain ⟨x, stored, status⟩ := declined
    have still := declined_applyAll (fun v mine => (own v mine).2) ⟨x, stored, status⟩ stored
    exact (above o member).1 ⟨x, still, status⟩
  | _ => trivial

def declineLaw : Law Db where
  inv d := Table.Unique Dispatch.key d.dispatches
  each := OpenBefore
  simple w := w.noDecline = true
  whole ws := (∀ w ∈ ws, w.noDecline = true) ∨ Declined ws
  inv_write w _ unique := WaveBook.offerKeys_write w unique
  each_rows := openBefore_rows
  each_under d ws w _ := openBefore_under d ws w
  whole_of_simple _ := Or.inl

/-! ### What the law keeps -/

section Counting

variable {d e : Db} {w : Write}

/-- A write that declines nothing makes no offer declined. -/
theorem declinedAt_write (plain : w.noDecline = true) {o : Id × Id}
    (declined : (w.apply e).declinedAt o) : e.declinedAt o := by
  obtain ⟨x, stored, status⟩ := declined
  cases w with
  | insertDispatch y =>
    by_cases own : y.key = o
    · rcases Table.mem_insert (Table.mem_of_find stored) with old | rfl
      · -- the row was there before, so the insertion was refused
        have sameKey : x.key = o := Table.find_key stored
        obtain ⟨z, found⟩ : ∃ z, Table.find Dispatch.key e.dispatches o = some z :=
          sameKey ▸ Table.find_isSome_of_mem old
        have kept : ((Write.insertDispatch y).apply e).dispatch o.1 o.2 = some z :=
          Table.find_insert_of_some found
        obtain rfl := Option.some.inj (kept.symm.trans stored)
        exact ⟨z, found, status⟩
      · exact absurd status (of_decide_eq_true plain)
    · exact ⟨x, (Table.find_insert_of_ne own).symm.trans stored, status⟩
  | dispatchStatus offers s =>
    have lookup : Table.find Dispatch.key (Table.modify Dispatch.key e.dispatches offers
        fun y => { y with status := s }) o = some x := stored
    rw [Table.find_modify _ _ (fun y : Dispatch => { y with status := s }) _ fun _ => rfl,
      Option.map_eq_some_iff] at lookup
    obtain ⟨y, found, same⟩ := lookup
    split at same
    · subst same
      exact absurd status (of_decide_eq_true plain)
    · subst same
      exact ⟨y, found, status⟩
  | _ => exact ⟨x, stored, status⟩

/-- One write of a transaction that declines nothing. -/
theorem counted_write (unique : Table.Unique Dispatch.key e.dispatches)
    (earlier : ∀ o, e.declinedAt o → d.declinedAt o) (plain : w.noDecline = true)
    (before : OpenBefore d w) (counted : DeclinesCounted e) : DeclinesCounted (w.apply e) := by
  intro worker
  cases w with
  | insertDispatch y =>
    have fresh : y.status ≠ .declined := of_decide_eq_true plain
    refine (counted worker).trans ?_
    simp only [Write.apply, Table.insert]
    split
    · rfl
    · simp [fresh]
  | dispatchStatus offers s =>
    have other : s ≠ .declined := of_decide_eq_true plain
    refine (counted worker).trans (Table.countP_modify_of_same _ _ _ _ ?_).symm
    intro x stored member
    have open_ : x.status ≠ .declined := fun status =>
      (before x.key member).1 (earlier x.key ⟨x, Table.find_of_mem unique stored, status⟩)
    simp [open_, other]
  | declineCount _ => cases plain
  | _ => exact counted worker

theorem counted_simple {ws : List Write} (unique : Table.Unique Dispatch.key e.dispatches)
    (earlier : ∀ o, e.declinedAt o → d.declinedAt o)
    (plain : ∀ w ∈ ws, w.noDecline = true) (before : ∀ w ∈ ws, OpenBefore d w)
    (counted : DeclinesCounted e) : DeclinesCounted (applyAll ws e) := by
  induction ws generalizing e with
  | nil => exact counted
  | cons w ws ih =>
    have first := plain w List.mem_cons_self
    refine ih (WaveBook.offerKeys_write w unique) (fun o declined => ?_)
      (fun v member => plain v (List.mem_cons_of_mem _ member))
      (fun v member => before v (List.mem_cons_of_mem _ member)) ?_
    · exact earlier o (declinedAt_write first declined)
    · exact counted_write unique earlier first (before w List.mem_cons_self) counted

/-- A decline closes one offer of the worker, and counts one. -/
theorem counted_declined {ws : List Write} (unique : Table.Unique Dispatch.key d.dispatches)
    (declined : Declined ws) (before : ∀ w ∈ ws, OpenBefore d w) (counted : DeclinesCounted d) :
    DeclinesCounted (applyAll ws d) := by
  obtain ⟨r, w, offers, some_, all, rfl⟩ := declined
  obtain ⟨o, rest, rfl⟩ := List.exists_cons_of_ne_nil some_
  obtain rfl := all o List.mem_cons_self
  obtain ⟨open_, stored⟩ := before _ List.mem_cons_self (r, w) List.mem_cons_self
  obtain ⟨x, found⟩ := Option.isSome_iff_exists.mp (stored rfl)
  have mine : x.workerId = w := congrArg Prod.snd (Table.find_key found)
  have status : x.status ≠ .declined := fun same => open_ ⟨x, found, same⟩
  have once : Table.modify Dispatch.key d.dispatches ((r, w) :: rest)
      (fun y => { y with status := .declined }) =
      Table.modify Dispatch.key d.dispatches [(r, w)] fun y => { y with status := .declined } := by
    refine List.map_congr_left fun y _ => ?_
    have member : y.key ∈ (r, w) :: rest ↔ y.key ∈ [(r, w)] := by
      rw [List.mem_singleton]
      exact ⟨all y.key, fun same => same ▸ List.mem_cons_self⟩
    simp only [member]
  intro worker
  have moved := Table.countP_modify
    (fun y : Dispatch => decide (y.workerId = worker ∧ y.status = .declined))
    (fun y => { y with status := .declined }) unique found
  have now := counted worker
  simp only [applyAll_cons, applyAll_nil, write_eq_apply, Write.apply, once, List.count_cons]
  simp only [mine, status, and_false, decide_false, and_true, decide_eq_true_eq, Bool.false_eq_true,
    if_false, Nat.add_zero] at moved
  rw [moved, now]
  simp only [beq_iff_eq]

theorem counted_lawful (ws : List Write) (unique : Table.Unique Dispatch.key d.dispatches)
    (before : ∀ w ∈ ws, OpenBefore d w)
    (whole : (∀ w ∈ ws, w.noDecline = true) ∨ Declined ws) (counted : DeclinesCounted d) :
    DeclinesCounted (applyAll ws d) := by
  rcases whole with plain | declined
  · exact counted_simple unique (fun _ same => same) plain before counted
  · exact counted_declined unique declined before counted

end Counting

/-! ### The calls keep to the law -/

section Lawful

variable {cfg : Config}

theorem noDecline_of_sparesOffers (d : Db) (w : Write) (spares : w.sparesOffers = true) :
    w.noDecline = true ∧ OpenBefore d w := by
  cases w with
  | dispatchStatus offers s => cases spares
  | declineCount worker => cases spares
  | insertDispatch x =>
    have pending : x.status = .pending := of_decide_eq_true spares
    exact ⟨by simp [Write.noDecline, pending], trivial⟩
  | _ => exact ⟨rfl, trivial⟩

/-- Closing pending or accepted offers, otherwise than by a decline. -/
theorem noDecline_of_closesOpen (d : Db) (keys : List (Id × Id)) (status : DispatchStatus)
    (unique : Table.Unique Dispatch.key d.dispatches) (closes : d.ClosesOpen keys status) :
    (Write.dispatchStatus keys status).noDecline = true ∧
      OpenBefore d (.dispatchStatus keys status) := by
  refine ⟨decide_eq_true closes.declines, fun o member => ⟨?_, fun same => ?_⟩⟩
  · rintro ⟨x, stored, declined⟩
    obtain ⟨y, present, rfl, open_⟩ := closes.found o member
    obtain rfl := Option.some.inj ((Table.find_of_mem unique present).symm.trans stored)
    rcases open_ with pending | accepted
    · exact absurd (pending.symm.trans declined) (by decide)
    · exact absurd (accepted.symm.trans declined) (by decide)
  · exact absurd same closes.declines

/-- The services other than `declineDispatch`. -/
theorem serviceOf_guards {op : Op} (other : ∀ r w, op ≠ .declineDispatch r w) :
    Call.Guards (fun d => Table.Unique Dispatch.key d.dispatches)
      (fun d w => w.noDecline = true ∧ OpenBefore d w) (fun _ => True) false (serviceOf cfg op) := by
  have spares := noDecline_of_sparesOffers
  have routine : ∀ w : Write, w.routine = true → w.sparesOffers = true → w.sparesOffers = true :=
    fun _ _ same => same
  have free : ∀ w : Write, w.sparesOtp = true → w.sparesOffers = true → w.sparesOffers = true :=
    fun _ _ same => same
  have known : ∀ ℓ : Label, ℓ.ofDispatch = false → True := fun _ _ => trivial
  cases op with
  | createJob jobId customerId payload =>
    exact (replying_emits (createJob_emits free _ _ _)).guards spares
  | createJobReq jobId payload actor =>
    exact (replying_emits (createJobReq_emits routine known _ _ _)).guards spares
  | updateRequirementDemand jobId requirementId needed actor =>
    exact (replying_emits (updateRequirementDemand_emits routine known _ _ _ _)).guards spares
  | cancelJob jobId actor =>
    exact (cancelJob_guards routine spares noDecline_of_closesOpen known _ _).bind fun _ => .pure _
  | acceptDispatch requirementId workerId new =>
    exact (acceptDispatch_guards routine spares noDecline_of_closesOpen known _ _ _ _).bind
      fun _ => .pure _
  | declineDispatch requirementId workerId => exact absurd rfl (other requirementId workerId)
  | verifyOtp bookingId workerId otp actor =>
    exact (replying_emits (verifyOtp_emits (fun _ _ same => same) known _ _ _ _ _)).guards spares
  | completeBooking bookingId workerId actor =>
    exact (replying_emits (completeBooking_emits routine known _ _ _)).guards spares
  | confirmComplete bookingId customerId rating actor =>
    exact (replying_emits (confirmComplete_emits routine known _ _ _ _)).guards spares
  | cancelBooking bookingId userId reason actor =>
    exact (cancelBooking_guards routine spares noDecline_of_closesOpen known _ _ _ _).bind
      fun _ => .pure _
  | processDispatchJob data matching =>
    exact (replying_emits (processDispatchJob_emits free _ _ _)).guards spares
  | processTimeoutJob data =>
    exact (processTimeoutJob_guards free spares noDecline_of_closesOpen _ _).bind fun _ => .pure _
  | reconcileDispatchState =>
    exact (reconcileDispatchState_guards free spares noDecline_of_closesOpen _).bind
      fun _ => .pure _
  | tick =>
    have ticks : Call.Emits (fun w : Write => w.sparesOffers = true) (fun _ => True) false
        (serviceOf cfg .tick) := .send trivial fun _ => by simp [Write.sparesOffers]
    exact ticks.guards spares

/-- The transaction of a decline that finds a pending offer. -/
theorem declineTx_lawful (requirementId workerId : Id) :
    (Call.transaction (fun _ => Label.offerDeclined requirementId workerId) (do
        let _ ← setOffers (fun x => x.requirementId = requirementId ∧ x.workerId = workerId ∧
          x.status = .pending) .declined
        step fun _ => .ok ([.declineCount workerId], ())) : Service Unit).run.Lawful declineLaw
      (fun ws d => findsPending (.declineDispatch requirementId workerId) ws d = true)
      (fun _ tx => tx.isSome = false) none := by
  intro d unique _ found
  obtain ⟨x, stored, pending⟩ := Option.any_eq_true _ _ |>.mp found
  have own : x.key = (requirementId, workerId) := Table.find_key stored
  obtain ⟨sameReq, sameWorker⟩ := Prod.mk.inj own
  refine ⟨fun w member => ?_, fun d' unique' _ _ => ⟨fun w member => ?_, ?_, rfl⟩⟩
  · -- the UPDATE closes the worker's pending offer
    obtain rfl := List.mem_singleton.mp member
    intro o chosen
    obtain ⟨y, selected, rfl⟩ := List.mem_map.mp chosen
    obtain ⟨present, select⟩ := List.mem_filter.mp selected
    have found := Table.find_of_mem unique present
    refine ⟨?_, fun _ => Option.isSome_iff_exists.mpr ⟨y, found⟩⟩
    rintro ⟨z, stored', declined⟩
    obtain rfl := Option.some.inj (found.symm.trans stored')
    exact absurd ((of_decide_eq_true select).2.2.symm.trans declined) (by decide)
  · obtain rfl := List.mem_singleton.mp member
    trivial
  · rintro _ ⟨⟩
    refine Or.inr ⟨requirementId, workerId, _, ?_, ?_, rfl⟩
    · have present : x ∈ d.dispatches.filter fun x => decide (x.requirementId = requirementId ∧
          x.workerId = workerId ∧ x.status = .pending) :=
        List.mem_filter.mpr ⟨Table.mem_of_find stored, decide_eq_true
          ⟨sameReq, sameWorker, of_decide_eq_true pending⟩⟩
      exact List.ne_nil_of_mem (List.mem_map_of_mem present)
    · intro o chosen
      obtain ⟨y, selected, rfl⟩ := List.mem_map.mp chosen
      obtain ⟨-, select⟩ := List.mem_filter.mp selected
      obtain ⟨req, worker, -⟩ := of_decide_eq_true select
      exact Prod.ext req worker

theorem system_lawful (cfg : Config) (me : Nat) (op : Op) :
    (system cfg me op).Lawful declineLaw (fun ws d => findsPending op ws d = true)
      (fun _ tx => tx.isSome = false) none := by
  by_cases decline : ∃ r w, op = .declineDispatch r w
  · obtain ⟨r, w, rfl⟩ := decline
    obtain ⟨rest, split, after⟩ := declineDispatch_split
      (fun _ _ same => same : ∀ w : Write, w.sparesOtp = true → w.sparesOffers = true →
        w.sparesOffers = true) cfg r w
    have declined : (declineDispatch cfg r w).run.Lawful declineLaw
        (fun ws d => findsPending (.declineDispatch r w) ws d = true)
        (fun _ tx => tx.isSome = false) none := by
      rw [split]
      refine Call.lawful_bind (declineTx_lawful r w) fun u => ?_
      have guards : Call.Guards declineLaw.inv (fun d w => declineLaw.simple w ∧
          declineLaw.each d w) (fun _ => True) false (rest u) :=
        (after u).guards noDecline_of_sparesOffers
      exact Prog.Guards.lawful guards rfl (by rintro _ ⟨⟩)
    exact Call.lawful_bind declined fun _ => rfl
  · have guards : Call.Guards declineLaw.inv (fun d w => declineLaw.simple w ∧
        declineLaw.each d w) (fun _ => True) false (serviceOf cfg op) :=
      serviceOf_guards fun r w same => decline ⟨r, w, same⟩
    exact Prog.Guards.lawful guards rfl (by rintro _ ⟨⟩)

end Lawful

/-! ### Runs -/

/-- The runs in which the transaction of every decline finds a pending offer. -/
abbrev DeclineRuns (cfg : Config) : MarketPool → Prop :=
  Pool.Reaches (system cfg) (Pool.Finds fun op ws d => findsPending op ws d = true) start

/-- In every such run each worker's counter is the number of offers the worker has declined. -/
theorem declines_counted (cfg : Config) {p : MarketPool} (run : DeclineRuns cfg p) :
    DeclinesCounted p.db := by
  have empty : declineLaw.inv ({} : Db) := by
    show Table.Unique Dispatch.key []
    exact List.nodup_nil
  have keeps : ∀ (d : Db) (ws : List Write), declineLaw.inv d → (∀ w ∈ ws, declineLaw.each d w) →
      declineLaw.whole ws → DeclinesCounted d → DeclinesCounted (applyAll ws d) :=
    fun _ ws unique before whole counted => counted_lawful ws unique before whole counted
  exact Pool.Reaches.lawful (system_lawful cfg) keeps empty (fun _ => rfl) run

/-- Workers 10 and 11 are offered the same requirement; 11 declines, 10 accepts. -/
def oneDecline : List (Pool.Move Op) :=
  [.event (.spawn (.createJob 1 7 { latitude := some 0, longitude := some 0
                                    requirements := [{ id := 1, workerCountNeeded := 1 }] })),
   .drive 0 true,
   .event (.spawn (.processDispatchJob { requirementId := 1, jobId := 1 } [10, 11])),
   .drive 1 true,
   .event (.spawn (.declineDispatch 1 11)),
   .drive 2 true,
   .event (.spawn (.acceptDispatch 1 10 { id := 1, otp := 1234, otpHash := 1234 })),
   .drive 3 true]

theorem one_decline_counted :
    let p := start.after (system plainConfig)
      (Pool.Finds fun op ws d => findsPending op ws d = true) 60 oneDecline
    p.db.declineCounts = [11] ∧ p.db.dispatches.map (·.status) = [.accepted, .declined] ∧
      DeclinesCounted p.db := by
  have run : DeclineRuns plainConfig (start.after (system plainConfig)
      (Pool.Finds fun op ws d => findsPending op ws d = true) 60 oneDecline) :=
    Pool.Reaches.refl.after 60 oneDecline
  exact ⟨by decide +kernel, by decide +kernel, declines_counted plainConfig run⟩

/-- Worker 10 declines a requirement it was never offered, and is counted. -/
theorem decline_without_offer :
    ∃ p, Reachable plainConfig p ∧ p.db.dispatches = [] ∧ p.db.declineCounts = [10] ∧
      ¬ DeclinesCounted p.db := by
  refine ⟨played (fun _ _ => True) [.event (.spawn (.declineDispatch 1 10)), .drive 0 true],
    runs_played _ _, by decide +kernel, by decide +kernel, fun counted => ?_⟩
  have never := counted 10
  revert never
  decide +kernel

end LabourBaba.Market
