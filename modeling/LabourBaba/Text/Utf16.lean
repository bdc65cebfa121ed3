import Mathlib

/-!
# Strings of code units

A string is the list of its 16-bit code units, surrogates without a partner included.
`numeral` writes a whole number in decimal, `parseInt` reads the number a string starts
with; `parseInt_numeral` is the round trip, and a numeral has nothing but digits and a
sign (`mem_numeral`).
-/
namespace Utf16

abbrev CodeUnit := UInt16

abbrev Text := List CodeUnit

instance : LawfulBEq Text := inferInstance

/-- The code units of a literal, whose characters all fit one. -/
def lit (s : String) : Text := s.toList.map fun c => UInt16.ofNat c.toNat

theorem toNat_ofNat {n : Nat} (small : n < 65536) : (UInt16.ofNat n).toNat = n := by
  simpa using small

/-! ### Decimal numerals -/

def digit (n : Nat) : CodeUnit := UInt16.ofNat (48 + n)

def isDigit (c : CodeUnit) : Bool := 48 ≤ c.toNat ∧ c.toNat ≤ 57

def digitValue (c : CodeUnit) : Nat := c.toNat - 48

def natural (n : Nat) : Text :=
  if n = 0 then [digit 0] else (Nat.digits 10 n).reverse.map digit

/-- The decimal form of a whole number. -/
def numeral (n : Int) : Text :=
  if n < 0 then lit "-" ++ natural n.natAbs else natural n.natAbs

def isWhiteSpace (c : CodeUnit) : Bool :=
  c.toNat ∈ [9, 10, 11, 12, 13, 32, 0xA0, 0x1680, 0x2028, 0x2029, 0x202F, 0x205F, 0x3000, 0xFEFF] ∨
    0x2000 ≤ c.toNat ∧ c.toNat ≤ 0x200A

/-- The whole number some digits write. -/
def digitsValue (s : Text) : Nat := s.foldl (fun n c => 10 * n + digitValue c) 0

/-- The digits a string starts with, as a number. -/
def leadingNumber (s : Text) : Option Nat :=
  let digits := s.takeWhile isDigit
  if digits = [] then none else some (digitsValue digits)

/-- `parseInt(s, 10)`, where nothing is not a number. -/
def parseInt (s : Text) : Option Int :=
  let trimmed := s.dropWhile isWhiteSpace
  if trimmed.head? = (lit "-").head? then (leadingNumber trimmed.tail).map fun n : Nat => -(n : Int)
  else if trimmed.head? = (lit "+").head? then
    (leadingNumber trimmed.tail).map fun n : Nat => (n : Int)
  else (leadingNumber trimmed).map fun n : Nat => (n : Int)

theorem isDigit_digit {n : Nat} (small : n < 10) : isDigit (digit n) = true := by
  have value : (digit n).toNat = 48 + n := toNat_ofNat (by omega)
  simp only [isDigit, value, decide_eq_true_eq]
  omega

theorem digitValue_digit {n : Nat} (small : n < 10) : digitValue (digit n) = n := by
  have value : (digit n).toNat = 48 + n := toNat_ofNat (by omega)
  simp [digitValue, value]

theorem natural_ne_nil (n : Nat) : natural n ≠ [] := by
  unfold natural
  split
  · simp
  next positive => simpa [Nat.digits_ne_nil_iff_ne_zero] using positive

theorem isDigit_of_mem_natural {n : Nat} {c : CodeUnit} (member : c ∈ natural n) :
    isDigit c = true := by
  unfold natural at member
  split at member
  · rw [List.mem_singleton.mp member]
    decide
  · obtain ⟨d, among, rfl⟩ := List.mem_map.mp member
    exact isDigit_digit (Nat.digits_lt_base (by decide) (List.mem_reverse.mp among))

theorem digitsValue_natural (n : Nat) : digitsValue (natural n) = n := by
  unfold natural
  split
  next zero => rw [zero]; decide
  · -- the digits are folded from the most significant on
    have read : ∀ ds : List Nat, (∀ d ∈ ds, d < 10) →
        digitsValue (ds.reverse.map digit) = Nat.ofDigits 10 ds := by
      intro ds small
      induction ds with
      | nil => rfl
      | cons d ds ih =>
        rw [digitsValue, List.reverse_cons, List.map_append, List.foldl_append]
        change 10 * digitsValue (ds.reverse.map digit) + digitValue (digit d) = _
        rw [ih fun e member => small e (List.mem_cons_of_mem d member),
          digitValue_digit (small d List.mem_cons_self), Nat.ofDigits_cons]
        simp [Nat.add_comm]
    rw [read _ fun d member => Nat.digits_lt_base (by decide) member, Nat.ofDigits_digits]

theorem leadingNumber_natural (n : Nat) : leadingNumber (natural n) = some n := by
  have all : (natural n).takeWhile isDigit = natural n :=
    List.takeWhile_eq_self_iff.mpr fun c member => isDigit_of_mem_natural member
  rw [leadingNumber, all]
  simp [natural_ne_nil, digitsValue_natural]

theorem mem_numeral {n : Int} {c : CodeUnit} (member : c ∈ numeral n) :
    isDigit c = true ∨ [c] = lit "-" := by
  unfold numeral at member
  split at member
  · rcases List.mem_append.mp member with sign | member
    · exact Or.inr (congrArg (fun c => [c]) (List.mem_singleton.mp sign))
    · exact Or.inl (isDigit_of_mem_natural member)
  · exact Or.inl (isDigit_of_mem_natural member)

private theorem plain_of_isDigit {c : CodeUnit} (isDig : isDigit c = true) :
    isWhiteSpace c = false ∧ some c ≠ (lit "-").head? ∧ some c ≠ (lit "+").head? := by
  have bounds : 48 ≤ c.toNat ∧ c.toNat ≤ 57 := of_decide_eq_true isDig
  refine ⟨?_, ?_, ?_⟩
  · refine decide_eq_false fun white => ?_
    rcases white with member | range
    · simp only [List.mem_cons, List.not_mem_nil, or_false] at member
      omega
    · omega
  · intro same
    obtain rfl := Option.some.inj same
    exact absurd bounds (by decide)
  · intro same
    obtain rfl := Option.some.inj same
    exact absurd bounds (by decide)

theorem parseInt_numeral (n : Int) : parseInt (numeral n) = some n := by
  by_cases negative : n < 0
  · have trimmed : (numeral n).dropWhile isWhiteSpace = lit "-" ++ natural n.natAbs := by
      rw [numeral, if_pos negative]
      exact List.dropWhile_cons_of_neg (by decide)
    simp only [parseInt, trimmed]
    rw [if_pos (show (lit "-" ++ natural n.natAbs).head? = (lit "-").head? from rfl)]
    change (leadingNumber (natural n.natAbs)).map _ = _
    rw [leadingNumber_natural, Option.map_some]
    exact congrArg some (by omega)
  · cases form : natural n.natAbs with
    | nil => exact absurd form (natural_ne_nil _)
    | cons c rest =>
      obtain ⟨dark, minus, plus⟩ := plain_of_isDigit
        (isDigit_of_mem_natural (n := n.natAbs) (form ▸ List.mem_cons_self))
      have trimmed : (numeral n).dropWhile isWhiteSpace = natural n.natAbs := by
        rw [numeral, if_neg negative, form]
        exact List.dropWhile_cons_of_neg (by simp [dark])
      simp only [parseInt, trimmed, form, List.head?_cons]
      rw [if_neg minus, if_neg plus, ← form, leadingNumber_natural, Option.map_some]
      exact congrArg some (by omega)

theorem numeral_injective {m n : Int} (same : numeral m = numeral n) : m = n :=
  Option.some.inj ((parseInt_numeral m).symm.trans ((congrArg parseInt same).trans
    (parseInt_numeral n)))

end Utf16
