import LabourBaba.Store.Calls

/-!
# Calls that run alone

While no other call holds a lock or takes a step, a call is a function of the store it
starts in: `alone` computes its result. `Pool.replies_iff` connects the function with the
pool: a call started in a pool without open transactions, and scheduled until it returns,
returns what `alone` computes. `Call.result` rewrites the outcome of a call into a
condition on the store, one statement at a time.
-/
namespace Store

variable {L D W K E Op α β : Type} [RowStore D W K]

/-- The result of a call that nobody disturbs, with its transaction and the store it leaves. -/
def Prog.alone (answer : Bool) :
    Prog L D W K α → Option (Tx K W) → D → α × Option (Tx K W) × D
  | .ret a, tx, d => (a, tx, d)
  | .query _ k, tx, d => (k (Tx.view tx d)).alone answer tx d
  | .exec _ s k, none, d => (k d).alone answer none (applyAll (s d).writes d)
  | .exec _ s k, some t, d =>
    (k (applyAll t.writes d)).alone answer (some (t.add D (s (applyAll t.writes d)))) d
  | .emit _ ws k, tx, d =>
    (k (Tx.view tx d)).alone answer tx (applyAll ((ws (Tx.view tx d)).map Subtype.val) d)
  | .ask k, tx, d => (k answer).alone answer tx d
  | .tryLock _ key k, tx, d =>
    (k true).alone answer (tx.map fun t => t.add D { locks := [key] }) d
  | .start k, _, d => k.alone answer (some {}) d
  | .commit _ k, tx, d => k.alone answer none (Tx.view tx d)
  | .abort k, _, d => k.alone answer none d

namespace Prog

variable {answer : Bool}

theorem alone_bind (p : Prog L D W K α) (f : α → Prog L D W K β) (tx : Option (Tx K W)) (d : D) :
    (p.bind f).alone answer tx d =
      (f (p.alone answer tx d).1).alone answer (p.alone answer tx d).2.1 (p.alone answer tx d).2.2 := by
  induction p generalizing tx d with
  | ret a => rfl
  | exec ℓ s k ih => cases tx <;> simp only [Prog.bind, alone, ih]
  | query ℓ k ih | emit ℓ ws k ih | ask k ih | tryLock ℓ key k ih | start k ih | commit ℓ k ih
  | abort k ih => simp only [Prog.bind, alone, ih]

end Prog

/-! ### Alone in a pool -/

section Pools

variable [DecidableEq K] {answer : Bool}

/-- A statement of an undisturbed call is enabled and does not change its result. -/
theorem advance_alone (answer : Bool) (d : D) {th : Thread L D W K Op α}
    (running : th.prog.returned = none) :
    ∃ d' th', advance [] d answer th = some (d', th') ∧ th'.live = th.live ∧
      th'.prog.alone answer th'.tx d' = th.prog.alone answer th.tx d := by
  obtain ⟨op, prog, tx, live⟩ := th
  cases prog with
  | ret a => cases running
  | exec ℓ s k =>
    cases tx with
    | none =>
      have advanced : advance [] d answer ⟨op, .exec ℓ s k, none, live⟩ =
          some (applyAll (s d).writes d, ⟨op, k d, none, live⟩) := by simp [advance]
      exact ⟨_, _, advanced, rfl, rfl⟩
    | some t =>
      have advanced : advance [] d answer ⟨op, .exec ℓ s k, some t, live⟩ =
          some (d, ⟨op, k (applyAll t.writes d), some (t.add D (s (applyAll t.writes d))), live⟩) := by
        simp [advance]
      exact ⟨_, _, advanced, rfl, rfl⟩
  | tryLock ℓ key k =>
    have advanced : advance [] d answer ⟨op, .tryLock ℓ key k, tx, live⟩ =
        some (d, ⟨op, k true, tx.map fun t => t.add D { locks := [key] }, live⟩) := by
      simp [advance]
    exact ⟨_, _, advanced, rfl, rfl⟩
  | query ℓ k | emit ℓ ws k | ask k | start k | commit ℓ k | abort k =>
    exact ⟨_, _, rfl, rfl, rfl⟩

/-- What is left of a call after one statement. -/
def Prog.Next (Op : Type) (rest prog : Prog L D W K α) : Prop :=
  ∃ (others : List K) (d d' : D) (answer : Bool) (th th' : Thread L D W K Op α),
    th.prog = prog ∧ advance others d answer th = some (d', th') ∧ th'.prog = rest

/-- No call issues statements for ever. -/
theorem Prog.terminates (prog : Prog L D W K α) : Acc (Prog.Next Op) prog := by
  induction prog with
  | ret a =>
    refine ⟨_, ?_⟩
    rintro _ ⟨others, d, d', answer, ⟨op, _, tx, live⟩, th', rfl, advanced, rfl⟩
    cases advanced
  | exec ℓ s k ih =>
    refine ⟨_, ?_⟩
    rintro _ ⟨others, d, d', answer, ⟨op, _, tx, live⟩, th', rfl, advanced, rfl⟩
    simp only [advance] at advanced
    split at advanced
    · cases advanced
    · cases tx <;> cases advanced <;> exact ih _
  | tryLock ℓ key k ih =>
    refine ⟨_, ?_⟩
    rintro _ ⟨others, d, d', answer, ⟨op, _, tx, live⟩, th', rfl, advanced, rfl⟩
    simp only [advance] at advanced
    split at advanced <;> cases advanced <;> exact ih _
  | query ℓ k ih | emit ℓ ws k ih | ask k ih | start k ih | commit ℓ k ih | abort k ih =>
    refine ⟨_, ?_⟩
    rintro _ ⟨others, d, d', answer, ⟨op, _, tx, live⟩, th', rfl, advanced, rfl⟩
    cases advanced
    first | exact ih | exact ih _

namespace Pool

variable {sys : Nat → Op → Prog L D W K α}

/-- No call has a transaction open. -/
def Idle (p : Pool L D W K Op α) : Prop := ∀ th ∈ p.threads, th.tx = none

/-- The pool after a call has been started. -/
def spawned (sys : Nat → Op → Prog L D W K α) (p : Pool L D W K Op α) (op : Op) :
    Pool L D W K Op α :=
  { p with threads := p.threads ++ [{ op, prog := sys p.threads.length op }] }

/-- A call started in the pool returns `a` when it is the only one to run from then on. -/
def Replies (sys : Nat → Op → Prog L D W K α) (answer : Bool) (p : Pool L D W K Op α) (op : Op)
    (a : α) : Prop :=
  ∃ q th, Reaches sys (fun _ e => e = .run p.threads.length answer) (p.spawned sys op) q ∧
    q.threads[p.threads.length]? = some th ∧ th.prog.returned = some a

/-- The same with the store that the call leaves. -/
def Leaves (sys : Nat → Op → Prog L D W K α) (answer : Bool) (p : Pool L D W K Op α) (op : Op)
    (a : α) (d : D) : Prop :=
  ∃ q th, Reaches sys (fun _ e => e = .run p.threads.length answer) (p.spawned sys op) q ∧
    q.threads[p.threads.length]? = some th ∧ th.prog.returned = some a ∧ q.db = d

/-- Call `i` is live, nobody holds a lock against it, and alone it has the given result. -/
structure Solo (answer : Bool) (i : Nat) (result : α × Option (Tx K W) × D)
    (p : Pool L D W K Op α) : Prop where
  free : p.lockedByOthers i = []
  call : ∃ th, p.threads[i]? = some th ∧ th.live = true ∧
    th.prog.alone answer th.tx p.db = result

omit [DecidableEq K] in
theorem lockedByOthers_set {p : Pool L D W K Op α} {i : Nat} (free : p.lockedByOthers i = [])
    (th : Thread L D W K Op α) (d : D) :
    ({ db := d, threads := p.threads.set i th } : Pool L D W K Op α).lockedByOthers i = [] := by
  refine List.eq_nil_iff_forall_not_mem.mpr fun k member => ?_
  obtain ⟨j, th', differ, found, held⟩ := mem_lockedByOthers.mp member
  rcases getElem?_put found with ⟨same, -⟩ | ⟨-, found⟩
  · exact differ same
  · have taken := mem_lockedByOthers.mpr ⟨j, th', differ, found, held⟩
    simp [free] at taken

/-- A solo call that has not returned takes a step and stays solo. -/
theorem Solo.step (sys : Nat → Op → Prog L D W K α) {i : Nat} {result : α × Option (Tx K W) × D}
    {p : Pool L D W K Op α} {th : Thread L D W K Op α} (solo : Solo answer i result p)
    (found : p.threads[i]? = some th) (running : th.prog.returned = none) :
    ∃ q th', p.step sys (.run i answer) = some q ∧ Solo answer i result q ∧
      q.threads[i]? = some th' ∧ Prog.Next Op th'.prog th.prog := by
  obtain ⟨th₂, found₂, live, computed⟩ := solo.call
  obtain rfl := Option.some.inj (found.symm.trans found₂)
  obtain ⟨d', th', advanced, live', same⟩ := advance_alone answer p.db running
  have present : (p.threads.set i th')[i]? = some th' :=
    List.getElem?_set_self (List.getElem?_eq_some_iff.mp found).1
  refine ⟨{ db := d', threads := p.threads.set i th' }, th', ?_, ⟨?_, th', present, ?_, ?_⟩,
    present, [], p.db, d', answer, th, th', rfl, advanced, rfl⟩
  · simp [Pool.step, found, live, solo.free, advanced]
  · exact lockedByOthers_set solo.free th' d'
  · exact live'.trans live
  · rw [same, computed]

omit [DecidableEq K] in
theorem Solo.returned {i : Nat} {result : α × Option (Tx K W) × D} {b : α} {p : Pool L D W K Op α}
    {th : Thread L D W K Op α} (solo : Solo answer i result p) (found : p.threads[i]? = some th)
    (returned : th.prog.returned = some b) : b = result.1 ∧ p.db = result.2.2 := by
  obtain ⟨th₂, found₂, -, computed⟩ := solo.call
  obtain rfl := Option.some.inj (found.symm.trans found₂)
  cases h : th.prog with
  | ret c =>
    rw [h] at returned computed
    obtain rfl := Option.some.inj returned
    exact ⟨congrArg Prod.fst computed, congrArg (·.2.2) computed⟩
  | _ => simp [h, Prog.returned] at returned

theorem Solo.replies {i : Nat} {result : α × Option (Tx K W) × D} {prog : Prog L D W K α}
    (acc : Acc (Prog.Next Op) prog) {p : Pool L D W K Op α} {th : Thread L D W K Op α}
    (solo : Solo answer i result p) (found : p.threads[i]? = some th) (same : th.prog = prog) :
    ∃ q th', Reaches sys (fun _ e => e = .run i answer) p q ∧ q.threads[i]? = some th' ∧
      th'.prog.returned = some result.1 ∧ q.db = result.2.2 := by
  induction acc generalizing p th with
  | intro prog _ ih =>
    subst same
    cases running : th.prog.returned with
    | some b =>
      obtain ⟨sameValue, sameStore⟩ := solo.returned found running
      exact ⟨p, th, .refl, found, by rw [running, sameValue], sameStore⟩
    | none =>
      obtain ⟨p', th', stepped, solo', found', next⟩ := solo.step sys found running
      obtain ⟨q, last, reached, present, done⟩ := ih th'.prog next solo' found' rfl
      exact ⟨q, last, (Reaches.refl.step _ rfl stepped).trans reached, present, done⟩

theorem Solo.reaches {i : Nat} {result : α × Option (Tx K W) × D} {p q : Pool L D W K Op α}
    (solo : Solo answer i result p) (reached : Reaches sys (fun _ e => e = .run i answer) p q) :
    Solo answer i result q := by
  induction reached with
  | refl => exact solo
  | @step q q' e _ allowed stepped ih =>
    subst allowed
    obtain ⟨th, found, live, computed⟩ := ih.call
    cases running : th.prog.returned with
    | none =>
      obtain ⟨q₂, th', stepped₂, solo₂, -, -⟩ := ih.step sys found running
      exact Option.some.inj (stepped.symm.trans stepped₂) ▸ solo₂
    | some b =>
      obtain ⟨op, prog, tx, alive⟩ := th
      cases prog with
      | ret c => simp [Pool.step, found, advance] at stepped
      | _ => cases running

omit [DecidableEq K] in
theorem getElem?_spawned (sys : Nat → Op → Prog L D W K α) (p : Pool L D W K Op α) (op : Op) :
    (p.spawned sys op).threads[p.threads.length]? =
      some { op, prog := sys p.threads.length op } := by
  simp [spawned]

omit [DecidableEq K] in
theorem solo_spawned (sys : Nat → Op → Prog L D W K α) (answer : Bool) {p : Pool L D W K Op α}
    (idle : p.Idle) (op : Op) :
    Solo answer p.threads.length ((sys p.threads.length op).alone answer none p.db)
      (p.spawned sys op) := by
  refine ⟨?_, ⟨_, getElem?_spawned sys p op, rfl, rfl⟩⟩
  refine List.eq_nil_iff_forall_not_mem.mpr fun k member => ?_
  obtain ⟨j, th, differ, found, held⟩ := mem_lockedByOthers.mp member
  rcases getElem?_concat found with found | ⟨same, -⟩
  · rw [idle th (List.mem_of_getElem? found)] at held
    simp at held
  · exact differ same

theorem leaves_iff {p : Pool L D W K Op α} (idle : p.Idle) (op : Op) (a : α) (d : D) :
    Leaves sys answer p op a d ↔ a = ((sys p.threads.length op).alone answer none p.db).1 ∧
      d = ((sys p.threads.length op).alone answer none p.db).2.2 := by
  have solo := solo_spawned sys answer idle op
  constructor
  · rintro ⟨q, th, reached, found, returned, rfl⟩
    exact (solo.reaches reached).returned found returned
  · rintro ⟨rfl, rfl⟩
    exact solo.replies (Prog.terminates _) (getElem?_spawned sys p op) rfl

theorem replies_iff {p : Pool L D W K Op α} (idle : p.Idle) (op : Op) (a : α) :
    Replies sys answer p op a ↔ a = ((sys p.threads.length op).alone answer none p.db).1 := by
  constructor
  · rintro ⟨q, th, reached, found, returned⟩
    exact ((leaves_iff idle op a q.db).mp ⟨q, th, reached, found, returned, rfl⟩).1
  · intro same
    obtain ⟨q, th, reached, found, returned, -⟩ := (leaves_iff idle op a _).mpr ⟨same, rfl⟩
    exact ⟨q, th, reached, found, returned⟩

/-! ### One call after the other -/

/-- `q` follows `p` by a call that was started in `p` and was the only one to run until it had
returned. -/
def Ran (sys : Nat → Op → Prog L D W K α) (answer : Bool) (op : Op) (p q : Pool L D W K Op α) :
    Prop :=
  Reaches sys (fun _ e => e = .run p.threads.length answer) (p.spawned sys op) q ∧
    ∃ th, q.threads[p.threads.length]? = some th ∧ th.prog.returned.isSome = true

theorem exists_ran (sys : Nat → Op → Prog L D W K α) (answer : Bool) {p : Pool L D W K Op α}
    (idle : p.Idle) (op : Op) : ∃ q, Ran sys answer op p q := by
  have leaves : Leaves sys answer p op ((sys p.threads.length op).alone answer none p.db).1
      ((sys p.threads.length op).alone answer none p.db).2.2 :=
    (leaves_iff idle op _ _).mpr ⟨rfl, rfl⟩
  obtain ⟨q, th, reached, found, returned, -⟩ := leaves
  exact ⟨q, reached, th, found, by rw [returned]; rfl⟩

theorem Ran.db {op : Op} {p q : Pool L D W K Op α} (ran : Ran sys answer op p q) (idle : p.Idle) :
    q.db = ((sys p.threads.length op).alone answer none p.db).2.2 := by
  obtain ⟨reached, th, found, done⟩ := ran
  obtain ⟨a, returned⟩ := Option.isSome_iff_exists.mp done
  exact ((leaves_iff idle op a q.db).mp ⟨q, th, reached, found, returned, rfl⟩).2

theorem Ran.reaches {ok : Pool L D W K Op α → Event Op → Prop} {op : Op} {init p q : Pool L D W K Op α}
    (ran : Ran sys answer op p q) (all : ∀ p e, ok p e) (reached : Reaches sys ok init p) :
    Reaches sys ok init q :=
  (reached.step (.spawn op) (all p _) rfl).trans (ran.1.mono fun p e _ => all p e)

/-- The events of one call leave the others as they are. -/
theorem getElem?_of_runs {i j : Nat} {p q : Pool L D W K Op α} (other : j ≠ i)
    (reached : Reaches sys (fun _ e => e = .run i answer) p q) : q.threads[j]? = p.threads[j]? := by
  induction reached with
  | refl => rfl
  | step e _ allowed stepped ih =>
    subst allowed
    simp only [Pool.step, Option.bind_eq_bind, Option.bind_eq_some_iff] at stepped
    obtain ⟨th, -, stepped⟩ := stepped
    split at stepped
    · obtain ⟨⟨d', th'⟩, -, after⟩ := Option.bind_eq_some_iff.mp stepped
      obtain rfl := Option.some.inj after
      rw [List.getElem?_set_ne other.symm, ih]
    · cases stepped

theorem Ran.idle {op : Op} {p q : Pool L D W K Op α} (ran : Ran sys answer op p q) (idle : p.Idle)
    (closed : ∀ th ∈ q.threads, th.prog.returned.isSome = true → th.tx = none) : q.Idle := by
  obtain ⟨reached, last, present, done⟩ := ran
  intro th member
  obtain ⟨j, found⟩ := List.mem_iff_getElem?.mp member
  by_cases same : j = p.threads.length
  · subst same
    obtain rfl := Option.some.inj (present.symm.trans found)
    exact closed last member done
  · -- another call has not taken a step
    rw [getElem?_of_runs same reached] at found
    rcases getElem?_concat found with found | ⟨new, -⟩
    · exact idle th (List.mem_of_getElem? found)
    · exact absurd new same

end Pool

end Pools

/-! ### The outcome of a call -/

namespace Call

variable {answer : Bool} {t : Tx K W} {tx : Option (Tx K W)} {d : D}

/-- What holds when the call returns, if it runs alone. -/
def result (answer : Bool) (Q : Except E α → Option (Tx K W) → D → Prop) (c : Call L D W K E α)
    (tx : Option (Tx K W)) (d : D) : Prop :=
  Q (c.run.alone answer tx d).1 (c.run.alone answer tx d).2.1 (c.run.alone answer tx d).2.2

variable {Q : Except E α → Option (Tx K W) → D → Prop}

theorem result_mono {Q' : Except E α → Option (Tx K W) → D → Prop} {c : Call L D W K E α}
    (weaker : ∀ r tx d, Q r tx d → Q' r tx d) (holds : result answer Q c tx d) :
    result answer Q' c tx d :=
  weaker _ _ _ holds

/-- The first of two calls in sequence. -/
def resultThen (answer : Bool) (Q : Except E β → Option (Tx K W) → D → Prop)
    (f : α → Call L D W K E β) : Except E α → Option (Tx K W) → D → Prop
  | .ok a, tx, d => result answer Q (f a) tx d
  | .error e, tx, d => Q (.error e) tx d

@[simp] theorem result_bind {Q : Except E β → Option (Tx K W) → D → Prop} (c : Call L D W K E α)
    (f : α → Call L D W K E β) :
    result answer Q (c >>= f) tx d = result answer (resultThen answer Q f) c tx d := by
  have sequenced : (c >>= f).run = c.run.bind (ExceptT.bindCont f) := rfl
  simp only [result, sequenced, Prog.alone_bind]
  cases (c.run.alone answer tx d).1 <;> rfl

@[simp] theorem resultThen_ok {Q : Except E β → Option (Tx K W) → D → Prop}
    (f : α → Call L D W K E β) (a : α) :
    resultThen answer Q f (.ok a) tx d = result answer Q (f a) tx d := rfl

@[simp] theorem resultThen_error {Q : Except E β → Option (Tx K W) → D → Prop}
    (f : α → Call L D W K E β) (e : E) :
    resultThen answer Q f (.error e) tx d = Q (.error e) tx d := rfl

@[simp] theorem result_pure (a : α) :
    result answer Q (pure a : Call L D W K E α) tx d = Q (.ok a) tx d := rfl

@[simp] theorem result_throw (e : E) :
    result answer Q (throw e : Call L D W K E α) tx d = Q (.error e) tx d := rfl

@[simp] theorem result_read (ℓ : L) (f : D → α) :
    result answer Q (read ℓ f) tx d = Q (.ok (f (Tx.view tx d))) tx d := rfl

@[simp] theorem result_lock (ℓ : L) (ks : D → List K) (f : D → α) :
    result answer Q (lock ℓ ks f) (some t) d =
      Q (.ok (f (applyAll t.writes d))) (some (t.add D { locks := ks (applyAll t.writes d) })) d :=
  rfl

@[simp] theorem result_stmt (ℓ : L) (f : D → Except E (List W × α)) :
    result answer Q (stmt ℓ f) (some t) d = afterStmt Q t d (f (applyAll t.writes d)) := by
  simp only [result, stmt, ExceptT.run_mk, Prog.alone]
  cases f (applyAll t.writes d) with
  | error e => simp only [Prog.alone, Tx.add_nothing, afterStmt]
  | ok pair => rfl

/-- How a statement outside a transaction ends. -/
def resultCommit (Q : Except E α → Option (Tx K W) → D → Prop) (d : D) :
    Except E (List W × α) → Prop
  | .ok (ws, a) => Q (.ok a) none (applyAll ws d)
  | .error e => Q (.error e) none d

@[simp] theorem resultCommit_ok (ws : List W) (a : α) :
    resultCommit Q d (.ok (ws, a)) = Q (.ok a) none (applyAll ws d) := rfl

@[simp] theorem resultCommit_error (e : E) : resultCommit Q d (.error e) = Q (.error e) none d := rfl

@[simp] theorem result_stmt_alone (ℓ : L) (f : D → Except E (List W × α)) :
    result answer Q (stmt ℓ f) none d = resultCommit Q d (f d) := by
  simp only [result, stmt, ExceptT.run_mk, Prog.alone]
  cases f d <;> rfl

@[simp] theorem result_send (ℓ : L) (f : D → List (Unlocked D) × α) :
    result answer Q (send ℓ f) none d =
      Q (.ok (f d).2) none (applyAll ((f d).1.map Subtype.val) d) := rfl

@[simp] theorem result_send_inTx (ℓ : L) (f : D → List (Unlocked D) × α) :
    result answer Q (send ℓ f) (some t) d =
      Q (.ok (f (applyAll t.writes d)).2) (some t)
        (applyAll ((f (applyAll t.writes d)).1.map Subtype.val) d) := rfl

@[simp] theorem result_skipLocked {Q : Except E Bool → Option (Tx K W) → D → Prop} (ℓ : L) (key : K) :
    result answer Q (skipLocked ℓ key) (some t) d =
      Q (.ok true) (some (t.add D { locks := [key] })) d := rfl

@[simp] theorem result_choose {Q : Except E Bool → Option (Tx K W) → D → Prop} :
    result answer Q (choose : Call L D W K E Bool) tx d = Q (.ok answer) tx d := rfl

/-- How a transaction block ends. -/
def resultEnd (Q : Except E α → Option (Tx K W) → D → Prop) :
    Except E α → Option (Tx K W) → D → Prop
  | .ok a, tx, d => Q (.ok a) none (Tx.view tx d)
  | .error e, _, d => Q (.error e) none d

@[simp] theorem result_transaction (label : α → L) (body : Call L D W K E α) :
    result answer Q (transaction label body) tx d = result answer (resultEnd Q) body (some {}) d := by
  simp only [result, transaction, ExceptT.run_mk, Prog.alone, Prog.alone_bind]
  cases (body.run.alone answer (some {}) d).1 <;> rfl

@[simp] theorem result_attempt {Q : Except E (Except E α) → Option (Tx K W) → D → Prop}
    (body : Call L D W K E α) :
    result answer Q (attempt body) tx d =
      result answer (fun r tx d => Q (.ok r) tx d) body tx d := by
  simp only [result, attempt, ExceptT.run_mk, Prog.alone_bind]
  rfl

end Call

end Store
