import LabourBaba.Store.Guards

/-!
# Lawful transactions

A law says what each write meets in the store it is committed to, and what the writes of a
transaction are together. A lawful program keeps to it statement by statement: it is told
which writes its open transaction has made, and may count on what the schedule promises of
the stores its transaction finds. Since the rows a transaction has written stay locked, what
its writes met when they were made they still meet at its commit; so every change of the
store in a run of lawful calls is a whole of the law (`Reaches.lawful`).

The condition of a schedule may also look at the writes that a statement is about to commit
(`MeetsWrites`): those of the open transaction at its commit.
-/
namespace Store

variable {L D W K Op α β : Type} [RowStore D W K]

structure Law (D : Type) {W K : Type} [RowStore D W K] where
  /-- What every write keeps. -/
  inv : D → Prop
  /-- What a write meets in the store it is committed to. -/
  each : D → W → Prop
  /-- Writes that stand for themselves. -/
  simple : W → Prop
  /-- What a transaction may write altogether. -/
  whole : List W → Prop
  inv_write : ∀ w d, inv d → inv (write w d)
  each_rows : ∀ d d' w, (∀ k ∈ keys D w, row d' k = row d k) → each d w → each d' w
  /-- What a simple write meets under the simple writes of its transaction, it meets below them. -/
  each_under : ∀ d ws w, inv d → (∀ v ∈ ws, simple v ∧ each d v) → simple w →
    each (applyAll ws d) w → each d w
  whole_of_simple : ∀ ws, (∀ w ∈ ws, simple w) → whole ws

namespace Law

variable (law : Law D)

theorem inv_applyAll (ws : List W) {d : D} (holds : law.inv d) : law.inv (applyAll ws d) := by
  induction ws generalizing d with
  | nil => exact holds
  | cons w ws ih => exact ih (law.inv_write w d holds)

/-- A change of the store by the writes of one transaction, or of one statement outside any. -/
def Does (d d' : D) : Prop :=
  d' = d ∨ ∃ ws, d' = applyAll ws d ∧ (∀ w ∈ ws, law.each d w) ∧ law.whole ws

end Law

/-- The writes of the open transaction, if one is open. -/
def Tx.written (tx : Option (Tx K W)) : Option (List W) := tx.map (·.writes)

omit [RowStore D W K] in
@[simp] theorem Tx.written_none : Tx.written (none : Option (Tx K W)) = none := rfl

omit [RowStore D W K] in
@[simp] theorem Tx.written_some (t : Tx K W) : Tx.written (some t) = some t.writes := rfl

namespace Prog

/-- Lawful from a point on at which the open transaction has made the given writes. `finds` is
what the schedule promises of the committed store under them. -/
def Lawful (law : Law D) (finds : List W → D → Prop) (R : α → Option (List W) → Prop) :
    Option (List W) → Prog L D W K α → Prop
  | written, .ret a => R a written
  | written, .query _ k => ∀ d, law.inv d → (k d).Lawful law finds R written
  | none, .exec _ s k => ∀ d, law.inv d → (∀ w ∈ (s d).writes, law.each d w) ∧
      law.whole (s d).writes ∧ (k d).Lawful law finds R none
  | some ws, .exec _ s k => ∀ d, law.inv d → (∀ w ∈ ws, law.each d w) → finds ws d →
      (∀ w ∈ (s (applyAll ws d)).writes, law.each d w) ∧
      (k (applyAll ws d)).Lawful law finds R (some (ws ++ (s (applyAll ws d)).writes))
  | written, .emit _ ws k => ∀ d, law.inv d → (∀ w ∈ ws d, ∀ d', law.each d' w.val) ∧
      law.whole ((ws d).map Subtype.val) ∧ (k d).Lawful law finds R written
  | written, .ask k => ∀ b, (k b).Lawful law finds R written
  | written, .tryLock _ _ k => ∀ b, (k b).Lawful law finds R written
  | _, .start k => k.Lawful law finds R (some [])
  | written, .commit _ k => (∀ ws, written = some ws → law.whole ws) ∧
      k.Lawful law finds R none
  | _, .abort k => k.Lawful law finds R none

variable {law : Law D} {finds : List W → D → Prop}

theorem Lawful.bind {R : α → Option (List W) → Prop} {S : β → Option (List W) → Prop}
    {p : Prog L D W K α} {f : α → Prog L D W K β} {written : Option (List W)}
    (first : p.Lawful law finds R written)
    (next : ∀ a written, R a written → (f a).Lawful law finds S written) :
    (p.bind f).Lawful law finds S written := by
  induction p generalizing written with
  | ret a => exact next a written first
  | query ℓ k ih => exact fun d holds => ih d (first d holds)
  | exec ℓ s k ih =>
    cases written with
    | none =>
      intro d holds
      obtain ⟨each, whole, rest⟩ := first d holds
      exact ⟨each, whole, ih d rest⟩
    | some ws => exact fun d holds own found => (first d holds own found).imp id (ih _)
  | emit ℓ ws k ih =>
    intro d holds
    obtain ⟨each, whole, rest⟩ := first d holds
    exact ⟨each, whole, ih d rest⟩
  | ask k ih => exact fun b => ih b (first b)
  | tryLock ℓ key k ih => exact fun b => ih b (first b)
  | start k ih => exact ih first
  | commit ℓ k ih => exact ⟨first.1, ih first.2⟩
  | abort k ih => exact ih first

/-- A program that makes simple writes only, each as the law wants it. -/
theorem Guards.lawful {named : L → Prop} {p : Prog L D W K α} {last inTx : Bool}
    {written : Option (List W)}
    (guards : p.Guards law.inv (fun d w => law.simple w ∧ law.each d w) named last inTx)
    (flag : written.isSome = inTx) (own : ∀ ws, written = some ws → ∀ w ∈ ws, law.simple w) :
    p.Lawful law finds (fun _ tx => tx.isSome = last) written := by
  induction p generalizing written inTx with
  | ret a => exact flag.trans guards
  | query ℓ k ih => exact fun d holds => ih d (guards d holds) flag own
  | exec ℓ s k ih =>
    cases written with
    | none =>
      intro d holds
      obtain ⟨writes, rest⟩ := guards.2 d holds
      refine ⟨fun w member => (writes w member).2, ?_, ih d rest flag own⟩
      exact law.whole_of_simple _ fun w member => (writes w member).1
    | some ws =>
      intro d holds earlier _
      obtain ⟨writes, rest⟩ := guards.2 (applyAll ws d) (law.inv_applyAll ws holds)
      constructor
      · intro w member
        exact law.each_under d ws w holds (fun v old => ⟨own ws rfl v old, earlier v old⟩)
          (writes w member).1 (writes w member).2
      · refine ih _ rest flag ?_
        rintro _ ⟨⟩ w member
        rcases List.mem_append.mp member with old | new
        · exact own ws rfl w old
        · exact (writes w new).1
  | emit ℓ ws k ih =>
    intro d holds
    obtain ⟨writes, rest⟩ := guards.2 d holds
    refine ⟨fun w member d' => (writes w member d').2, ?_, ih d rest flag own⟩
    refine law.whole_of_simple _ fun w member => ?_
    obtain ⟨v, sent, rfl⟩ := List.mem_map.mp member
    exact (writes v sent d).1
  | ask k ih => exact fun b => ih b (guards b) flag own
  | tryLock ℓ key k ih => exact fun b => ih b (guards b) flag own
  | start k ih => exact ih guards rfl (by rintro _ ⟨⟩ w ⟨⟩)
  | commit ℓ k ih =>
    exact ⟨fun ws same => law.whole_of_simple ws (own ws same), ih guards.2 rfl (by rintro _ ⟨⟩)⟩
  | abort k ih => exact ih guards rfl (by rintro _ ⟨⟩)

end Prog

/-- A call in two parts, each of which leaves no transaction open. -/
theorem Call.lawful_bind {E : Type} {law : Law D} {finds : List W → D → Prop}
    {c : Call L D W K E α} {f : α → Call L D W K E β}
    (first : c.run.Lawful law finds (fun _ tx => tx.isSome = false) none)
    (next : ∀ a, (f a).run.Lawful law finds (fun _ tx => tx.isSome = false) none) :
    (c >>= f).run.Lawful law finds (fun _ tx => tx.isSome = false) none := by
  refine Prog.Lawful.bind first fun r written closed => ?_
  obtain rfl := Option.isNone_iff_eq_none.mp (Option.isSome_eq_false_iff.mp closed)
  cases r with
  | ok a => exact next a
  | error e => exact rfl

/-! ### Runs -/

/-- What the open transaction has written meets the law in the committed store. -/
def Tx.Abides (law : Law D) (tx : Option (Tx K W)) (d : D) : Prop :=
  ∀ t, tx = some t → ∀ w ∈ t.writes, law.each d w

private theorem Tx.Abides.none (law : Law D) (d : D) :
    Tx.Abides law (none : Option (Tx K W)) d := by
  rintro t ⟨⟩

/-- Writes stay lawful while their rows stay. -/
theorem Tx.Abides.later {law : Law D} {tx : Option (Tx K W)} {d d' : D} (owns : Tx.Owns D tx)
    (rows : ∀ k ∈ Tx.held tx, row d' k = row d k) (abides : Tx.Abides law tx d) :
    Tx.Abides law tx d' := by
  intro t open_ w member
  refine law.each_rows d d' w (fun k inKeys => rows k ?_) (abides t open_ w member)
  subst open_
  exact owns t rfl w member k inKeys

section Runs

variable [DecidableEq K] {law : Law D} {R : α → Option (List W) → Prop}

/-- One statement of a lawful call. -/
theorem advance_lawful {finds : List W → D → Prop} {others : List K} {d d' : D} {answer : Bool}
    {th th' : Thread L D W K Op α} (holds : law.inv d)
    (lawful : th.prog.Lawful law finds R (Tx.written th.tx)) (abides : Tx.Abides law th.tx d)
    (owns : Tx.Owns D th.tx) (found : ∀ t, th.tx = some t → finds t.writes d)
    (advanced : advance others d answer th = some (d', th')) :
    th'.prog.Lawful law finds R (Tx.written th'.tx) ∧ Tx.Abides law th'.tx d' ∧ law.Does d d' := by
  obtain ⟨op, prog, tx, live⟩ := th
  have same : law.Does d d := Or.inl rfl
  cases prog with
  | ret a => cases advanced
  | query ℓ k =>
    cases advanced
    refine ⟨lawful _ ?_, abides, same⟩
    cases tx with
    | none => exact holds
    | some t => exact law.inv_applyAll t.writes holds
  | exec ℓ s k =>
    simp only [advance] at advanced
    split at advanced
    · cases advanced
    · cases tx with
      | none =>
        cases advanced
        obtain ⟨each, whole, rest⟩ := lawful d holds
        exact ⟨rest, .none law _, Or.inr ⟨_, rfl, each, whole⟩⟩
      | some t =>
        cases advanced
        obtain ⟨each, rest⟩ := lawful d holds (abides t rfl) (found t rfl)
        refine ⟨rest, ?_, same⟩
        rintro _ ⟨⟩ w member
        rcases List.mem_append.mp member with old | new
        · exact abides t rfl w old
        · exact each w new
  | emit ℓ ws k =>
    cases advanced
    have view : law.inv (Tx.view tx d) := by
      cases tx with
      | none => exact holds
      | some t => exact law.inv_applyAll t.writes holds
    obtain ⟨each, whole, rest⟩ := lawful _ view
    refine ⟨rest, abides.later owns ?_, Or.inr ⟨_, rfl, ?_, whole⟩⟩
    · -- what is sent touches no row
      intro k _
      refine row_applyAll _ _ _ fun w member => ?_
      obtain ⟨⟨w, unlocked⟩, -, rfl⟩ := List.mem_map.mp member
      simp [unlocked]
    · intro w member
      obtain ⟨v, sent, rfl⟩ := List.mem_map.mp member
      exact each v sent d
  | ask k =>
    cases advanced
    exact ⟨lawful answer, abides, same⟩
  | tryLock ℓ key k =>
    simp only [advance] at advanced
    split at advanced <;> cases advanced
    · exact ⟨lawful false, abides, same⟩
    · cases tx with
      | none => exact ⟨lawful true, .none law _, same⟩
      | some t =>
        -- the lock adds no write
        have rest : (k true).Lawful law finds R (some (t.writes ++ [])) := by
          rw [List.append_nil]
          exact lawful true
        refine ⟨rest, ?_, same⟩
        rintro _ ⟨⟩ w member
        exact abides t rfl w (by simpa using member)
  | start k =>
    cases advanced
    exact ⟨lawful, by rintro _ ⟨⟩ w ⟨⟩, same⟩
  | commit ℓ k =>
    cases advanced
    refine ⟨lawful.2, .none law _, ?_⟩
    cases tx with
    | none => exact same
    | some t => exact Or.inr ⟨t.writes, rfl, abides t rfl, lawful.1 _ rfl⟩
  | abort k =>
    cases advanced
    exact ⟨lawful, .none law _, same⟩

namespace Pool

variable {sys : Nat → Op → Prog L D W K α} {finds : Op → List W → D → Prop}

/-- A schedule that keeps a promise to each open transaction about the committed store. -/
def Finds (finds : Op → List W → D → Prop) (p : Pool L D W K Op α) (e : Event Op) : Prop :=
  ∀ i answer th t, e = .run i answer → p.threads[i]? = some th → th.tx = some t →
    finds th.op t.writes p.db

instance (finds : Op → List W → D → Prop) [∀ op ws d, Decidable (finds op ws d)]
    (p : Pool L D W K Op α) (e : Event Op) : Decidable (Finds finds p e) :=
  match e with
  | .run i _ =>
    match running : p.threads[i]? with
    | none => .isTrue (by rintro j b th t ⟨⟩ found; rw [running] at found; cases found)
    | some th =>
      match opened : th.tx with
      | none => .isTrue (by
          rintro j b th' t ⟨⟩ found open_
          rw [running] at found
          cases found
          rw [opened] at open_
          cases open_)
      | some t =>
        if holds : finds th.op t.writes p.db then
          .isTrue (by
            rintro j b th' t' ⟨⟩ found open_
            rw [running] at found
            cases found
            rw [opened] at open_
            cases open_
            exact holds)
        else .isFalse fun all => holds (all i _ th t rfl running opened)
  | .spawn _ => .isTrue (by rintro _ _ _ _ ⟨⟩)
  | .crash _ => .isTrue (by rintro _ _ _ _ ⟨⟩)

/-- Every call of the pool is lawful from where it stands, and so is what it has written. -/
structure Abiding (law : Law D) (finds : Op → List W → D → Prop) (p : Pool L D W K Op α) :
    Prop where
  inv : law.inv p.db
  calls : ∀ (i : Nat) (th : Thread L D W K Op α), p.threads[i]? = some th → th.live = true →
    th.prog.Lawful law (finds th.op) (fun _ tx => tx.isSome = false) (Tx.written th.tx)
  written : ∀ (i : Nat) (th : Thread L D W K Op α), p.threads[i]? = some th →
    Tx.Abides law th.tx p.db

theorem Abiding.step
    (starts : ∀ me op, (sys me op).Lawful law (finds op) (fun _ tx => tx.isSome = false) none)
    {p q : Pool L D W K Op α} (sound : Sound (Protocol.free fun _ _ => True) (fun _ _ _ _ => True) p)
    (abiding : Abiding law finds p) {e : Event Op} (allowed : Finds finds p e)
    (stepped : p.step sys e = some q) : Abiding law finds q ∧ law.Does p.db q.db := by
  cases e with
  | spawn op =>
    obtain rfl := Option.some.inj stepped
    refine ⟨⟨abiding.inv, fun i th found live => ?_, fun i th found => ?_⟩, Or.inl rfl⟩
    · rcases getElem?_concat found with found | ⟨-, rfl⟩
      · exact abiding.calls i th found live
      · exact starts _ op
    · rcases getElem?_concat found with found | ⟨-, rfl⟩
      · exact abiding.written i th found
      · exact .none law _
  | crash i =>
    simp only [Pool.step, Option.bind_eq_bind, Option.bind_eq_some_iff, Option.some.injEq] at stepped
    obtain ⟨th₀, found₀, rfl⟩ := stepped
    refine ⟨⟨abiding.inv, fun j th found live => ?_, fun j th found => ?_⟩, Or.inl rfl⟩
    · rcases getElem?_put found with ⟨-, rfl⟩ | ⟨-, found⟩
      · cases live
      · exact abiding.calls j th found live
    · rcases getElem?_put found with ⟨-, rfl⟩ | ⟨-, found⟩
      · exact .none law _
      · exact abiding.written j th found
  | run i answer =>
    simp only [Pool.step, Option.bind_eq_bind, Option.bind_eq_some_iff] at stepped
    obtain ⟨th, found, stepped⟩ := stepped
    split at stepped
    next live =>
      simp only [Option.bind_eq_some_iff, Option.some.injEq] at stepped
      obtain ⟨⟨d', th'⟩, advanced, rfl⟩ := stepped
      have running : th.prog.returned = none := by
        cases h : th.prog with
        | ret a => simp [advance, h] at advanced
        | _ => rfl
      have apart : ∀ k ∈ Tx.held th.tx, k ∉ p.lockedByOthers i := by
        intro k held taken
        obtain ⟨j, th₂, differ, found₂, held₂⟩ := mem_lockedByOthers.mp taken
        exact sound.apart i j th th₂ differ.symm found found₂ k held held₂
      obtain ⟨lawful', abides', does⟩ := advance_lawful abiding.inv (abiding.calls i th found live)
        (abiding.written i th found) (sound.owns i th found)
        (fun t open_ => allowed i answer th t rfl found open_) advanced
      have result := advance_sound (P := Protocol.free fun _ _ => True) trivial (fun _ _ => trivial)
        (sound.calls i th found live running) (sound.owns i th found) apart advanced
      have inv' : law.inv d' := by
        rcases does with rfl | ⟨ws, rfl, -, -⟩
        · exact abiding.inv
        · exact law.inv_applyAll ws abiding.inv
      refine ⟨⟨inv', fun j th₂ found₂ live₂ => ?_, fun j th₂ found₂ => ?_⟩, does⟩
      · rcases getElem?_put found₂ with ⟨rfl, rfl⟩ | ⟨-, found₂⟩
        · rw [advance_op advanced]
          exact lawful'
        · exact abiding.calls j th₂ found₂ live₂
      · rcases getElem?_put found₂ with ⟨rfl, rfl⟩ | ⟨mine, found₂⟩
        · exact abides'
        · -- the rows another call has written are locked by it
          refine (abiding.written j th₂ found₂).later (sound.owns j th₂ found₂) fun k held => ?_
          exact result.foreign k (mem_lockedByOthers.mpr ⟨j, th₂, mine, found₂, held⟩)
    next => cases stepped

/-- A property of the store that every whole of the law keeps holds in every run of lawful
calls whose schedule keeps its promises. -/
theorem Reaches.lawful
    (starts : ∀ me op, (sys me op).Lawful law (finds op) (fun _ tx => tx.isSome = false) none)
    {I : D → Prop} (keeps : ∀ d ws, law.inv d → (∀ w ∈ ws, law.each d w) → law.whole ws → I d →
      I (applyAll ws d))
    {d : D} (inv : law.inv d) (first : I d) {p : Pool L D W K Op α}
    (reached : Reaches sys (Finds finds) { db := d } p) : I p.db := by
  have verified : Verified (Protocol.free fun _ _ => True) (fun _ _ _ _ => True) sys :=
    fun _ _ _ => wp_free (fun _ _ _ => trivial) _ _ _
  have every : ∀ p : Pool L D W K Op α, ∀ e, Finds finds p e →
      Meets (Protocol.free (L := L) (D := D) fun _ _ => True).pre p e :=
    fun _ _ _ _ _ _ _ _ => trivial
  have start : Sound (Protocol.free fun _ _ => True) (fun _ _ _ _ => True)
      ({ db := d } : Pool L D W K Op α) := .empty trivial
  suffices both : Abiding law finds p ∧ I p.db from both.2
  induction reached with
  | refl => exact ⟨⟨inv, by simp, by simp⟩, first⟩
  | @step p q e before allowed stepped ih =>
    have sound := before.sound verified every start
    obtain ⟨abiding, does⟩ := ih.1.step starts sound allowed stepped
    refine ⟨abiding, ?_⟩
    rcases does with same | ⟨ws, same, each, whole⟩
    · exact same ▸ ih.2
    · exact same ▸ keeps p.db ws ih.1.inv each whole ih.2

end Pool

/-! ### What a statement is about to commit -/

/-- The writes with which the next statement of a call changes the store. -/
def Thread.commits (th : Thread L D W K Op α) (d : D) : List W :=
  match th.prog, th.tx with
  | .exec _ s _, none => (s d).writes
  | .emit _ ws _, tx => (ws (Tx.view tx d)).map Subtype.val
  | .commit _ _, some t => t.writes
  | _, _ => []

theorem advance_commits {others : List K} {d d' : D} {answer : Bool}
    {th th' : Thread L D W K Op α} (advanced : advance others d answer th = some (d', th')) :
    d' = applyAll (th.commits d) d := by
  obtain ⟨op, prog, tx, live⟩ := th
  cases prog with
  | ret a => cases advanced
  | exec ℓ s k =>
    simp only [advance] at advanced
    split at advanced
    · cases advanced
    · cases tx <;> cases advanced <;> rfl
  | tryLock ℓ key k =>
    simp only [advance] at advanced
    split at advanced <;> cases advanced <;> rfl
  | commit ℓ k => cases tx <;> cases advanced <;> rfl
  | _ => cases advanced; rfl

namespace Pool

/-- Schedules in which the condition may also look at what a statement is about to commit. -/
def MeetsWrites (cond : L → List W → D → Prop) (p : Pool L D W K Op α) (e : Event Op) : Prop :=
  ∀ i answer th ℓ, e = .run i answer → p.threads[i]? = some th → th.prog.label = some ℓ →
    cond ℓ (th.commits p.db) p.db

instance (cond : L → List W → D → Prop) [∀ ℓ ws d, Decidable (cond ℓ ws d)]
    (p : Pool L D W K Op α) (e : Event Op) : Decidable (MeetsWrites cond p e) :=
  match e with
  | .run i _ =>
    match running : p.threads[i]? with
    | none => .isTrue (by rintro j b th ℓ ⟨⟩ found; rw [running] at found; cases found)
    | some th =>
      match labelled : th.prog.label with
      | none => .isTrue (by
          rintro j b th' ℓ ⟨⟩ found named
          rw [running] at found
          cases found
          rw [labelled] at named
          cases named)
      | some ℓ =>
        if holds : cond ℓ (th.commits p.db) p.db then
          .isTrue (by
            rintro j b th' ℓ' ⟨⟩ found named
            rw [running] at found
            cases found
            rw [labelled] at named
            cases named
            exact holds)
        else .isFalse fun all => holds (all i _ th ℓ rfl running labelled)
  | .spawn _ => .isTrue (by rintro _ _ _ _ ⟨⟩)
  | .crash _ => .isTrue (by rintro _ _ _ _ ⟨⟩)

/-- An event leaves the store, or changes it by writes. -/
theorem writes_of_step {sys : Nat → Op → Prog L D W K α} {p q : Pool L D W K Op α} {e : Event Op}
    (stepped : p.step sys e = some q) : ∃ ws, q.db = applyAll ws p.db := by
  cases e with
  | spawn op => exact ⟨[], by obtain rfl := Option.some.inj stepped; rfl⟩
  | crash i =>
    simp only [Pool.step, Option.bind_eq_bind, Option.bind_eq_some_iff] at stepped
    obtain ⟨th, -, after⟩ := stepped
    exact ⟨[], by obtain rfl := Option.some.inj after; rfl⟩
  | run i answer =>
    simp only [Pool.step, Option.bind_eq_bind, Option.bind_eq_some_iff] at stepped
    obtain ⟨th, -, stepped⟩ := stepped
    split at stepped
    · obtain ⟨⟨d', th'⟩, advanced, after⟩ := Option.bind_eq_some_iff.mp stepped
      obtain rfl := Option.some.inj after
      exact ⟨th.commits p.db, advance_commits advanced⟩
    · cases stepped

/-- A labelled statement commits writes that the schedule has let through. -/
theorem step_commits {sys : Nat → Op → Prog L D W K α} {cond : L → List W → D → Prop}
    {p q : Pool L D W K Op α} {i : Nat} {answer : Bool} {ℓ : L}
    (allowed : MeetsWrites cond p (.run i answer)) (labelled : p.next i = some ℓ)
    (stepped : p.step sys (.run i answer) = some q) :
    ∃ ws, q.db = applyAll ws p.db ∧ cond ℓ ws p.db := by
  obtain ⟨th, found, named⟩ := Option.bind_eq_some_iff.mp labelled
  refine ⟨th.commits p.db, ?_, allowed i answer th ℓ rfl found named⟩
  simp only [Pool.step, found, Option.bind_eq_bind, Option.bind_some] at stepped
  split at stepped
  · simp only [Option.bind_eq_some_iff, Option.some.injEq] at stepped
    obtain ⟨⟨d', th'⟩, advanced, rfl⟩ := stepped
    exact advance_commits advanced
  · cases stepped

end Pool

end Runs

end Store
