import LabourBaba.Store.Journal

/-!
# Barriers

A store may reach a point, such as a closed account, that no write undoes. A call that starts
from then on finds it closed, whatever the others do, and that may keep it from writes which
a call that has looked before still makes. So from the closing on, every barred write is one
of a call that was already running (`Reaches.barred`).
-/
namespace Store

variable {L D W K Op α : Type} [RowStore D W K]

/-- A verified program is verified where it may count on more and is allowed more. -/
theorem wp_weaken {P P' : Protocol L D} {me : Nat} {Q : α → Option (Tx K W) → D → Prop}
    (rely : ∀ (locked : List K) d d', P'.Rely me locked d d' → P.Rely me locked d d')
    (pre : ∀ ℓ d, P'.pre ℓ d → P.pre ℓ d)
    (does : ∀ ℓ d d', P.Does me ℓ d d' → P'.Does me ℓ d d') {p : Prog L D W K α}
    {tx : Option (Tx K W)} {d : D} (holds : wp P me Q p tx d) : wp P' me Q p tx d := by
  induction p generalizing tx d with
  | ret a => exact holds
  | query ℓ k ih => exact fun d' later met => ih _ (holds d' (rely _ _ _ later) (pre _ _ met))
  | exec ℓ s k ih =>
    cases tx with
    | none =>
      intro d' later met
      obtain ⟨done, rest⟩ := holds d' (rely _ _ _ later) (pre _ _ met)
      exact ⟨does _ _ _ done, ih _ rest⟩
    | some t => exact fun d' later met => ih _ (holds d' (rely _ _ _ later) (pre _ _ met))
  | emit ℓ ws k ih =>
    intro d' later met
    obtain ⟨done, rest⟩ := holds d' (rely _ _ _ later) (pre _ _ met)
    exact ⟨does _ _ _ done, ih _ rest⟩
  | ask k ih => exact fun d' later b => ih b (holds d' (rely _ _ _ later) b)
  | tryLock ℓ key k ih =>
    intro d' later met
    obtain ⟨denied, granted⟩ := holds d' (rely _ _ _ later) (pre _ _ met)
    exact ⟨ih _ denied, ih _ granted⟩
  | start k ih => exact fun d' later => ih (holds d' (rely _ _ _ later))
  | commit ℓ k ih =>
    intro d' later met
    obtain ⟨done, rest⟩ := holds d' (rely _ _ _ later) (pre _ _ met)
    exact ⟨does _ _ _ done, ih rest⟩
  | abort k ih => exact fun d' later => ih (holds d' (rely _ _ _ later))

structure Barrier (D : Type) {W K : Type} [RowStore D W K] where
  closed : D → Prop
  /-- The writes that a call does not make which finds the store closed. -/
  bars : W → Prop
  closed_write : ∀ w d, closed d → closed (write w d)

namespace Barrier

theorem closed_applyAll (b : Barrier D) (ws : List W) {d : D} (closed : b.closed d) :
    b.closed (applyAll ws d) := by
  induction ws generalizing d with
  | nil => exact closed
  | cons w ws ih => exact ih (b.closed_write w d closed)

/-- Each call makes writes of its own kind, and no barred one if its number is late. -/
def protocol (b : Barrier D) (own : Nat → W → Prop) (late : Nat) : Protocol L D where
  inv := b.closed
  pre _ _ := True
  guar i _ d d' := ∃ ws, d' = applyAll ws d ∧ ∀ w ∈ ws, own i w ∧ (late ≤ i → ¬ b.bars w)
  evo _ _ _ := True
  evo_refl _ _ := trivial
  evo_trans _ _ _ _ _ _ := trivial
  guar_inv := by
    rintro _ _ d _ closed ⟨ws, rfl, -⟩
    exact b.closed_applyAll ws closed
  guar_evo _ _ _ _ _ _ _ _ := trivial

instance (b : Barrier D) (own : Nat → W → Prop) (late : Nat) :
    (b.protocol (L := L) own late).Lax := ⟨fun _ _ _ => trivial⟩

def nothing : Barrier D where
  closed _ := True
  bars _ := False
  closed_write _ _ _ := trivial

variable {b : Barrier D} {own : Nat → W → Prop} {late me : Nat}

theorem does_of_own {ws : List W} (mine : ∀ w ∈ ws, own me w)
    (spared : late ≤ me → ∀ w ∈ ws, ¬ b.bars w) (ℓ : L) (d : D) :
    (b.protocol own late).Does me ℓ d (applyAll ws d) :=
  Or.inr ⟨ws, rfl, fun w member => ⟨mine w member, fun after => spared after w member⟩⟩

/-- A program keeps to its part by its text, when that shows no barred write or the program is
not late. -/
theorem wp_of_text {ok : W → Prop} {p : Prog L D W K α} (emits : p.Emits ok (fun _ => True) false false)
    (mine : ∀ w, ok w → own me w) (spared : late ≤ me → ∀ w, ok w → ¬ b.bars w) (d : D) :
    wp (b.protocol own late) me (fun _ tx _ => tx.isSome = false) p none d := by
  have outside : p.Emits ok (fun _ => True) false (Option.none : Option (Tx K W)).isSome := emits
  refine wp_of_emits (fun ℓ d ws _ _ _ written => ?_) outside (by simp) d
  exact does_of_own (fun w member => mine w (written w member))
    (fun after w member => spared after w (written w member)) ℓ d

end Barrier

namespace Pool

/-- The call has started, and has neither returned nor crashed. -/
def Running (p : Pool L D W K Op α) (i : Nat) : Prop :=
  ∃ th, p.threads[i]? = some th ∧ th.live = true ∧ th.prog.returned = none

variable [DecidableEq K] {sys : Nat → Op → Prog L D W K α}
  {ok : Pool L D W K Op α → Event Op → Prop} {p q r : Pool L D W K Op α}

/-- Calls are only added. -/
theorem Reaches.length_le (reached : Reaches sys ok p q) : p.threads.length ≤ q.threads.length := by
  induction reached with
  | refl => exact Nat.le_refl _
  | step e _ _ stepped ih => exact Nat.le_trans ih (length_of_step stepped)

theorem Reaches.running {i : Nat} (reached : Reaches sys ok p q) (running : q.Running i) :
    p.threads.length ≤ i ∨ p.Running i := by
  induction reached with
  | refl => exact Or.inr running
  | @step q r e before allowed stepped ih =>
    obtain ⟨th, found, live, unfinished⟩ := running
    rcases running_of_step stepped found live unfinished with new | ⟨th₀, found₀, -, live₀, rest⟩
    · exact Or.inl (new ▸ before.length_le)
    · exact ih ⟨th₀, found₀, live₀, rest⟩

/-- The call whose statement an event issues is running. -/
theorem running_of_next {i : Nat} {answer : Bool} {ℓ : L}
    (labelled : p.next i = some ℓ) (stepped : p.step sys (.run i answer) = some q) :
    p.Running i := by
  obtain ⟨th, found, named⟩ := Option.bind_eq_some_iff.mp labelled
  have living := alive_of_run stepped
  simp only [alive, found, Option.all_some] at living
  refine ⟨th, found, living, ?_⟩
  cases prog : th.prog with
  | ret a =>
    rw [prog] at named
    cases named
  | _ => rfl

variable {b : Barrier D} {own : Nat → W → Prop}

/-- The text of every call shows its own writes, and a call that starts when the store is
closed keeps to its part. -/
structure Barred (b : Barrier D) (own : Nat → W → Prop) (sys : Nat → Op → Prog L D W K α) :
    Prop where
  text : ∀ me op, (sys me op).Emits (own me) (fun _ => True) false false
  kept : ∀ late me op d, late ≤ me →
    wp (b.protocol own late) me (fun _ _ _ => True) (sys me op) none d

omit [DecidableEq K] in
theorem Barred.verified (barred : Barred b own sys) (late : Nat) :
    Verified (b.protocol own late) (fun _ _ _ _ => True) sys := by
  intro me op d
  by_cases after : late ≤ me
  · exact barred.kept late me op d after
  · refine wp_mono (fun _ _ _ _ => trivial) _ _ _ (Barrier.wp_of_text (barred.text me op) ?_ ?_ d)
    · exact fun _ mine => mine
    · exact fun late => absurd late after

/-- The calls of a pool in which the store is closed are not late. -/
theorem Barred.sound (barred : Barred b own sys) {init : D} (before : Reaches sys ok { db := init } p)
    (closed : b.closed p.db) :
    Sound (b.protocol own p.threads.length) (fun _ _ _ _ => True) p := by
  have verified : Verified (Barrier.nothing.protocol own 0) (fun _ _ _ _ => True) sys :=
    fun me op d => wp_mono (fun _ _ _ _ => trivial) _ _ _
      (Barrier.wp_of_text (barred.text me op) (fun _ mine => mine) (fun _ _ _ absent => absent) d)
  have sound := before.sound verified (fun _ _ _ _ _ _ _ _ => trivial) (.empty trivial)
  refine ⟨closed, fun i th found live running => ?_, sound.owns, sound.apart⟩
  have early := (List.getElem?_eq_some_iff.mp found).1
  refine wp_weaken ?_ (fun _ _ _ => trivial) ?_ (sound.calls i th found live running)
  · exact fun _ _ _ rely => ⟨trivial, trivial, rely.rows, fun _ _ => trivial⟩
  · rintro ℓ d d' (same | ⟨ws, rfl, mine⟩)
    · exact Or.inl same
    · exact Barrier.does_of_own (fun w member => (mine w member).1)
        (fun late => absurd early (Nat.not_lt.mpr late)) ℓ d

/-- From a store that is closed on, what every write keeps of which calls that were already
running make the barred ones is kept by the run. -/
theorem Reaches.barred (barred : Barred b own sys) {init : D}
    (before : Reaches sys ok { db := init } p) (closed : b.closed p.db)
    (between : Reaches sys ok p q) (after : Reaches sys ok q r) {I : D → Prop}
    (keeps : ∀ i w d, own i w → (b.bars w → p.Running i) → I d → I (write w d))
    (first : I q.db) : I r.db := by
  have sound {q : Pool L D W K Op α} (between : Reaches sys ok p q) :=
    between.sound (barred.verified p.threads.length) (fun _ _ _ _ _ _ _ _ => trivial)
      (barred.sound before closed)
  have all : ∀ i ws d, (∀ w ∈ ws, own i w ∧ (b.bars w → p.Running i)) → I d →
      I (applyAll ws d) := by
    intro i ws
    induction ws with
    | nil => exact fun _ _ holds => holds
    | cons w ws ih =>
      intro d mine holds
      refine ih _ (fun w member => mine w (List.mem_cons_of_mem _ member)) ?_
      exact keeps i w d (mine w List.mem_cons_self).1 (mine w List.mem_cons_self).2 holds
  induction after with
  | refl => exact first
  | @step r r' e reached allowed stepped ih =>
    have here := between.trans reached
    have next := (sound here).step (barred.verified _) (fun _ _ _ _ _ => trivial) stepped
    rcases next.does with same | ⟨i, answer, ℓ, rfl, labelled, ws, same, mine⟩
    · exact same ▸ ih
    · rw [same]
      refine all i ws r.db (fun w member => ⟨(mine w member).1, fun bars => ?_⟩) ih
      -- a call that was not running has started since
      refine (here.running (running_of_next labelled stepped)).resolve_left fun late => ?_
      exact (mine w member).2 late bars

end Pool

end Store
