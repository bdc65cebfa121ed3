import LabourBaba.Store.Prog

/-!
# Pools of concurrent calls

A pool is the committed store with the calls running against it. The scheduler
starts calls, lets any one of them issue its next statement, and crashes them. A
statement that needs a row locked by another call is not enabled; a crash drops
the open transaction with its locks. `Reaches` ranges over every schedule, so over
every interleaving; the runs of a restricted schedule are those whose events all
meet a condition on the pool before them.
-/
namespace Store

variable {L D W K Op α : Type} [RowStore D W K]

def applyAll (ws : List W) (d : D) : D := ws.foldl (fun d w => write w d) d

@[simp] theorem applyAll_nil (d : D) : applyAll ([] : List W) d = d := rfl

@[simp] theorem applyAll_cons (w : W) (ws : List W) (d : D) :
    applyAll (w :: ws) d = applyAll ws (write w d) := rfl

@[simp] theorem applyAll_append (ws vs : List W) (d : D) :
    applyAll (ws ++ vs) d = applyAll vs (applyAll ws d) :=
  List.foldl_append

theorem row_applyAll (ws : List W) (d : D) (k : K) (untouched : ∀ w ∈ ws, k ∉ keys D w) :
    row (applyAll ws d) k = row d k := by
  induction ws generalizing d with
  | nil => rfl
  | cons w ws ih =>
    rw [applyAll_cons, ih _ (fun v member => untouched v (List.mem_cons_of_mem _ member))]
    exact RowStore.row_write w d k (untouched w List.mem_cons_self)

/-- The rows a statement locks: those it selects for update and those it writes. -/
def Stmt.keys (D : Type) {W K : Type} [RowStore D W K] (s : Stmt K W) : List K :=
  s.locks ++ s.writes.flatMap (RowStore.keys D)

namespace Tx

/-- What a call sees: the committed store under the writes of its own transaction. -/
def view (tx : Option (Tx K W)) (d : D) : D :=
  match tx with
  | none => d
  | some t => applyAll t.writes d

def held (tx : Option (Tx K W)) : List K :=
  match tx with
  | none => []
  | some t => t.locks

def add (D : Type) {W K : Type} [RowStore D W K] (t : Tx K W) (s : Stmt K W) : Tx K W :=
  { locks := t.locks ++ s.keys D, writes := t.writes ++ s.writes }

@[simp] theorem view_none (d : D) : view (none : Option (Tx K W)) d = d := rfl

@[simp] theorem view_some (t : Tx K W) (d : D) : view (some t) d = applyAll t.writes d := rfl

@[simp] theorem held_none : held (none : Option (Tx K W)) = [] := rfl

@[simp] theorem held_some (t : Tx K W) : held (some t) = t.locks := rfl

end Tx

structure Thread (L D W K : Type) [RowStore D W K] (Op α : Type) where
  op : Op
  prog : Prog L D W K α
  tx : Option (Tx K W) := none
  live : Bool := true

structure Pool (L D W K : Type) [RowStore D W K] (Op α : Type) where
  db : D
  threads : List (Thread L D W K Op α) := []

inductive Event (Op : Type) where
  | spawn (op : Op)
  /-- Call `i` issues its next statement; `answer` is the environment's reply to an `ask`. -/
  | run (i : Nat) (answer : Bool)
  | crash (i : Nat)
deriving DecidableEq, Repr

section Steps

variable [DecidableEq K]

/-- One statement of a call, against the locks that other calls hold. -/
def advance (others : List K) (d : D) (answer : Bool) (th : Thread L D W K Op α) :
    Option (D × Thread L D W K Op α) :=
  match th.prog with
  | .ret _ => none
  | .query _ k => some (d, { th with prog := k (Tx.view th.tx d) })
  | .exec _ s k =>
    let v := Tx.view th.tx d
    if (s v).keys D |>.any (· ∈ others) then none
    else match th.tx with
      | none => some (applyAll (s v).writes d, { th with prog := k v })
      | some t => some (d, { th with prog := k v, tx := some (t.add D (s v)) })
  | .emit _ ws k =>
    let v := Tx.view th.tx d
    some (applyAll ((ws v).map Subtype.val) d, { th with prog := k v })
  | .ask k => some (d, { th with prog := k answer })
  | .tryLock _ key k =>
    if key ∈ others then some (d, { th with prog := k false })
    else some (d, { th with
      prog := k true, tx := th.tx.map (fun t => t.add D { locks := [key] }) })
  | .start k => some (d, { th with prog := k, tx := some {} })
  | .commit _ k => some (Tx.view th.tx d, { th with prog := k, tx := none })
  | .abort k => some (d, { th with prog := k, tx := none })

theorem advance_op {others : List K} {d d' : D} {answer : Bool}
    {th th' : Thread L D W K Op α} (advanced : advance others d answer th = some (d', th')) :
    th'.op = th.op := by
  simp only [advance] at advanced
  -- a blocked statement does not advance; every other case only moves the program along
  split at advanced
  case h_1 => cases advanced
  case h_3 =>
    split at advanced
    · cases advanced
    · split at advanced <;> cases advanced <;> rfl
  case h_6 => split at advanced <;> cases advanced <;> rfl
  all_goals cases advanced; rfl

namespace Pool

/-- The rows locked by calls other than `i`. -/
def lockedByOthers (p : Pool L D W K Op α) (i : Nat) : List K :=
  p.threads.zipIdx.flatMap fun (th, j) => if j = i then [] else Tx.held th.tx

/-- The label of the statement that call `i` issues next. -/
def next (p : Pool L D W K Op α) (i : Nat) : Option L :=
  p.threads[i]?.bind fun th => th.prog.label

/-- Call `i` has not crashed. -/
def alive (p : Pool L D W K Op α) (i : Nat) : Bool := p.threads[i]?.all Thread.live

variable (sys : Nat → Op → Prog L D W K α)

def step (p : Pool L D W K Op α) : Event Op → Option (Pool L D W K Op α)
  | .spawn op => some { p with threads := p.threads ++ [{ op, prog := sys p.threads.length op }] }
  | .run i answer => do
    let th ← p.threads[i]?
    if th.live then
      let (d, th') ← advance (p.lockedByOthers i) p.db answer th
      some { db := d, threads := p.threads.set i th' }
    else none
  | .crash i => do
    let th ← p.threads[i]?
    some { p with threads := p.threads.set i { th with live := false, tx := none } }

/-- The pools reached from `init` by events that each meet `ok` in the pool before them. -/
inductive Reaches (ok : Pool L D W K Op α → Event Op → Prop) (init : Pool L D W K Op α) :
    Pool L D W K Op α → Prop
  | refl : Reaches ok init init
  | step {p q : Pool L D W K Op α} (e : Event Op) (before : Reaches ok init p) (allowed : ok p e)
      (stepped : p.step sys e = some q) : Reaches ok init q

/-- Schedules in which each labelled statement meets a condition on the store before it. -/
def Meets (cond : L → D → Prop) (p : Pool L D W K Op α) (e : Event Op) : Prop :=
  ∀ i answer ℓ, e = .run i answer → p.next i = some ℓ → cond ℓ p.db

instance (cond : L → D → Prop) [∀ ℓ d, Decidable (cond ℓ d)] (p : Pool L D W K Op α)
    (e : Event Op) : Decidable (Meets cond p e) :=
  match e with
  | .run i _ =>
    match labelled : p.next i with
    | none => .isTrue (by rintro j b ℓ ⟨⟩ found; rw [labelled] at found; cases found)
    | some ℓ =>
      if holds : cond ℓ p.db then
        .isTrue (by rintro j b ℓ' ⟨⟩ found; rw [labelled] at found; cases found; exact holds)
      else .isFalse fun meets => holds (meets i _ ℓ rfl labelled)
  | .spawn _ => .isTrue (by rintro _ _ _ ⟨⟩)
  | .crash _ => .isTrue (by rintro _ _ _ ⟨⟩)

/-- Schedules in which the condition may also look at the rows that other calls have locked. -/
def MeetsLocked (cond : L → List K → D → Prop) (p : Pool L D W K Op α) (e : Event Op) : Prop :=
  ∀ i answer ℓ, e = .run i answer → p.next i = some ℓ → cond ℓ (p.lockedByOthers i) p.db

instance (cond : L → List K → D → Prop) [∀ ℓ ks d, Decidable (cond ℓ ks d)]
    (p : Pool L D W K Op α) (e : Event Op) : Decidable (MeetsLocked cond p e) :=
  match e with
  | .run i _ =>
    match labelled : p.next i with
    | none => .isTrue (by rintro j b ℓ ⟨⟩ found; rw [labelled] at found; cases found)
    | some ℓ =>
      if holds : cond ℓ (p.lockedByOthers i) p.db then
        .isTrue (by rintro j b ℓ' ⟨⟩ found; rw [labelled] at found; cases found; exact holds)
      else .isFalse fun meets => holds (meets i _ ℓ rfl labelled)
  | .spawn _ => .isTrue (by rintro _ _ _ ⟨⟩)
  | .crash _ => .isTrue (by rintro _ _ _ ⟨⟩)

variable {sys}

theorem alive_of_step {p q : Pool L D W K Op α} {e : Event Op} {i : Nat}
    (stepped : p.step sys e = some q) (living : q.alive i = true) : p.alive i = true := by
  simp only [alive, Option.all_eq_true] at living ⊢
  intro th found
  have below := (List.getElem?_eq_some_iff.mp found).1
  cases e with
  | spawn op =>
    obtain rfl := Option.some.inj stepped
    exact living th ((List.getElem?_append_left below).trans found)
  | run j answer =>
    simp only [Pool.step, Option.bind_eq_bind, Option.bind_eq_some_iff] at stepped
    obtain ⟨th₀, found₀, stepped⟩ := stepped
    split at stepped
    next live =>
      by_cases same : j = i
      · subst same
        obtain rfl := Option.some.inj (found₀.symm.trans found)
        exact live
      · obtain ⟨⟨d', th'⟩, -, after⟩ := Option.bind_eq_some_iff.mp stepped
        obtain rfl := Option.some.inj after
        exact living th ((List.getElem?_set_ne same).trans found)
    next => cases stepped
  | crash j =>
    simp only [Pool.step, Option.bind_eq_bind, Option.bind_eq_some_iff] at stepped
    obtain ⟨th₀, -, after⟩ := stepped
    obtain rfl := Option.some.inj after
    by_cases same : j = i
    · subst same
      exact absurd (living _ (List.getElem?_set_self below)) (by simp)
    · exact living th ((List.getElem?_set_ne same).trans found)

/-- A call stays in the pool, and stays what it was started for. -/
theorem op_of_step {p q : Pool L D W K Op α} {e : Event Op} {i : Nat} {th : Thread L D W K Op α}
    (stepped : p.step sys e = some q) (found : p.threads[i]? = some th) :
    ∃ th', q.threads[i]? = some th' ∧ th'.op = th.op := by
  have below := (List.getElem?_eq_some_iff.mp found).1
  cases e with
  | spawn op =>
    obtain rfl := Option.some.inj stepped
    exact ⟨th, (List.getElem?_append_left below).trans found, rfl⟩
  | run j answer =>
    simp only [Pool.step, Option.bind_eq_bind, Option.bind_eq_some_iff] at stepped
    obtain ⟨th₀, found₀, stepped⟩ := stepped
    split at stepped
    next live =>
      obtain ⟨⟨d', th'⟩, advanced, after⟩ := Option.bind_eq_some_iff.mp stepped
      obtain rfl := Option.some.inj after
      by_cases same : j = i
      · subst same
        obtain rfl := Option.some.inj (found₀.symm.trans found)
        exact ⟨th', List.getElem?_set_self below, advance_op advanced⟩
      · exact ⟨th, (List.getElem?_set_ne same).trans found, rfl⟩
    next => cases stepped
  | crash j =>
    simp only [Pool.step, Option.bind_eq_bind, Option.bind_eq_some_iff] at stepped
    obtain ⟨th₀, found₀, after⟩ := stepped
    obtain rfl := Option.some.inj after
    by_cases same : j = i
    · subst same
      obtain rfl := Option.some.inj (found₀.symm.trans found)
      exact ⟨_, List.getElem?_set_self below, rfl⟩
    · exact ⟨th, (List.getElem?_set_ne same).trans found, rfl⟩

/-- A call that has returned keeps its result. -/
theorem returned_of_step {p q : Pool L D W K Op α} {e : Event Op} {i : Nat}
    {th : Thread L D W K Op α} {a : α} (stepped : p.step sys e = some q)
    (found : p.threads[i]? = some th) (returned : th.prog.returned = some a) :
    ∃ th', q.threads[i]? = some th' ∧ th'.prog.returned = some a := by
  have below := (List.getElem?_eq_some_iff.mp found).1
  cases e with
  | spawn op =>
    obtain rfl := Option.some.inj stepped
    exact ⟨th, (List.getElem?_append_left below).trans found, returned⟩
  | run j answer =>
    simp only [Pool.step, Option.bind_eq_bind, Option.bind_eq_some_iff] at stepped
    obtain ⟨th₀, found₀, stepped⟩ := stepped
    split at stepped
    next live =>
      simp only [Option.bind_eq_some_iff, Option.some.injEq] at stepped
      obtain ⟨⟨d', th'⟩, advanced, rfl⟩ := stepped
      by_cases same : j = i
      · -- it has nothing left to run
        subst same
        obtain rfl := Option.some.inj (found₀.symm.trans found)
        obtain ⟨op, prog, tx, live⟩ := th₀
        cases prog with
        | ret b => cases advanced
        | _ => cases returned
      · exact ⟨th, (List.getElem?_set_ne same).trans found, returned⟩
    next => cases stepped
  | crash j =>
    simp only [Pool.step, Option.bind_eq_bind, Option.bind_eq_some_iff] at stepped
    obtain ⟨th₀, found₀, after⟩ := stepped
    obtain rfl := Option.some.inj after
    by_cases same : j = i
    · subst same
      obtain rfl := Option.some.inj (found₀.symm.trans found)
      exact ⟨_, List.getElem?_set_self below, returned⟩
    · exact ⟨th, (List.getElem?_set_ne same).trans found, returned⟩

theorem alive_of_run {p q : Pool L D W K Op α} {i : Nat} {answer : Bool}
    (stepped : p.step sys (.run i answer) = some q) : p.alive i = true := by
  simp only [Pool.step, Option.bind_eq_bind, Option.bind_eq_some_iff] at stepped
  obtain ⟨th, found, stepped⟩ := stepped
  split at stepped
  next live => simp [alive, found, live]
  next => cases stepped

theorem Reaches.mono {ok ok' : Pool L D W K Op α → Event Op → Prop} {init p : Pool L D W K Op α}
    (weaker : ∀ q e, ok q e → ok' q e) (reached : Reaches sys ok init p) :
    Reaches sys ok' init p := by
  induction reached with
  | refl => exact .refl
  | step e _ allowed stepped ih => exact .step e ih (weaker _ _ allowed) stepped

theorem Reaches.trans {ok : Pool L D W K Op α → Event Op → Prop} {init p q : Pool L D W K Op α}
    (first : Reaches sys ok init p) (second : Reaches sys ok p q) : Reaches sys ok init q := by
  induction second with
  | refl => exact first
  | step e _ allowed stepped ih => exact .step e ih allowed stepped

theorem Reaches.op {ok : Pool L D W K Op α → Event Op → Prop} {p q : Pool L D W K Op α} {i : Nat}
    {th : Thread L D W K Op α} (reached : Reaches sys ok p q) (found : p.threads[i]? = some th) :
    ∃ th', q.threads[i]? = some th' ∧ th'.op = th.op := by
  induction reached with
  | refl => exact ⟨th, found, rfl⟩
  | step e _ _ stepped ih =>
    obtain ⟨th₁, found₁, same₁⟩ := ih
    obtain ⟨th₂, found₂, same₂⟩ := op_of_step stepped found₁
    exact ⟨th₂, found₂, same₂.trans same₁⟩

/-! ### Schedules spelled out -/

/-- A single event, or a call that runs undisturbed for as long as it can. -/
inductive Move (Op : Type) where
  | event (e : Event Op)
  | drive (i : Nat) (answer : Bool)

variable (sys) (ok : Pool L D W K Op α → Event Op → Prop) [∀ p e, Decidable (ok p e)]

def tryStep (p : Pool L D W K Op α) (e : Event Op) : Option (Pool L D W K Op α) :=
  if ok p e then p.step sys e else none

/-- Call `i` alone issues up to `fuel` statements. -/
def drive (i : Nat) (answer : Bool) : Nat → Pool L D W K Op α → Pool L D W K Op α
  | 0, p => p
  | fuel + 1, p =>
    match p.tryStep sys ok (.run i answer) with
    | some q => drive i answer fuel q
    | none => p

/-- The pool after a schedule, which ends early at an event that is not allowed. -/
def after (fuel : Nat) (p : Pool L D W K Op α) : List (Move Op) → Pool L D W K Op α
  | [] => p
  | .event e :: moves =>
    match p.tryStep sys ok e with
    | some q => q.after fuel moves
    | none => p
  | .drive i answer :: moves => (drive sys ok i answer fuel p).after fuel moves

variable {sys ok}

theorem Reaches.tryStep {init p q : Pool L D W K Op α} {e : Event Op}
    (reached : Reaches sys ok init p) (stepped : p.tryStep sys ok e = some q) :
    Reaches sys ok init q := by
  simp only [Pool.tryStep] at stepped
  split at stepped
  next allowed => exact .step e reached allowed stepped
  next => cases stepped

theorem Reaches.drive {init p : Pool L D W K Op α} (reached : Reaches sys ok init p) (i : Nat)
    (answer : Bool) (fuel : Nat) : Reaches sys ok init (Pool.drive sys ok i answer fuel p) := by
  induction fuel generalizing p with
  | zero => exact reached
  | succ fuel ih =>
    simp only [Pool.drive]
    split
    next q stepped => exact ih (reached.tryStep stepped)
    next => exact reached

theorem Reaches.after {init p : Pool L D W K Op α} (reached : Reaches sys ok init p) (fuel : Nat)
    (moves : List (Move Op)) : Reaches sys ok init (p.after sys ok fuel moves) := by
  induction moves generalizing p with
  | nil => exact reached
  | cons move moves ih =>
    cases move with
    | event e =>
      simp only [Pool.after]
      split
      next q stepped => exact ih (reached.tryStep stepped)
      next => exact reached
    | drive i answer => exact ih (reached.drive i answer fuel)

end Pool

end Steps

end Store
