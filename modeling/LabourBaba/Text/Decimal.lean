import Mathlib

/-!
# Decimal numbers

A finite binary floating-point number is a rational with a finite decimal expansion, so its
shortest decimal text denotes a number of this type, and these numbers are compared exactly.
-/

/-- A rational number that has a finite decimal expansion. -/
def Decimal : Type := { q : ℚ // ∃ k : ℕ, q.den ∣ 10 ^ k }

namespace Decimal

instance : LinearOrder Decimal := inferInstanceAs (LinearOrder { q : ℚ // ∃ k : ℕ, q.den ∣ 10 ^ k })

def value (x : Decimal) : ℚ := x.1

theorem value_injective : Function.Injective value := Subtype.val_injective

def ofInt (n : ℤ) : Decimal := ⟨n, 0, by simp⟩

theorem ofInt_le_ofInt {m n : ℤ} : ofInt m ≤ ofInt n ↔ m ≤ n :=
  Rat.intCast_le_intCast

end Decimal
