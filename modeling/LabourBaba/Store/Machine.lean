import Mathlib

/-!
# Event machines

A machine gives the state after an event, or nothing if the event cannot happen. `run` is
its run over a list of events. What every step keeps, every run keeps (`invariant_of_run`);
what every step keeps until some exit, a run keeps unless it takes the exit (`run_until`).
-/
namespace Machine

variable {State Event : Type} (step : State → Event → Option State)

def run (s : State) : List Event → Option State
  | [] => some s
  | e :: es => (step s e).bind fun t => run t es

variable {step}

theorem invariant_of_run {I : State → Prop} (keeps : ∀ s e t, I s → step s e = some t → I t)
    {s t : State} {es : List Event} (initial : I s) (ran : run step s es = some t) : I t := by
  induction es generalizing s with
  | nil => exact Option.some.inj ran ▸ initial
  | cons e es ih =>
    obtain ⟨u, first, rest⟩ := Option.bind_eq_some_iff.mp ran
    exact ih (keeps s e u initial first) rest

/-- Either the property is kept to the end, or the run takes the exit from a state before. -/
theorem run_until {I : State → Prop} {Q : State → Event → Prop}
    (keeps : ∀ s e t, I s → step s e = some t → I t ∨ Q s e)
    {s t : State} {es : List Event} (initial : I s) (ran : run step s es = some t) :
    I t ∨ ∃ before e after u, es = before ++ e :: after ∧ run step s before = some u ∧
      I u ∧ Q u e := by
  induction es generalizing s with
  | nil => exact Or.inl (Option.some.inj ran ▸ initial)
  | cons e es ih =>
    obtain ⟨u, first, rest⟩ := Option.bind_eq_some_iff.mp ran
    rcases keeps s e u initial first with kept | left
    · rcases ih kept rest with whole | ⟨before, f, after, v, split, reached, inside, left⟩
      · exact Or.inl whole
      · exact Or.inr ⟨e :: before, f, after, v, by rw [split]; rfl,
          Option.bind_eq_some_iff.mpr ⟨u, first, reached⟩, inside, left⟩
    · exact Or.inr ⟨[], e, es, s, rfl, rfl, initial, left⟩

end Machine
