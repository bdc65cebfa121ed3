import LabourBaba.Text.Decimal
import LabourBaba.Text.Utf16
import Mathlib

/-!
# The texts of numbers

`numberText` writes a number the way ECMAScript does: the digits of its significand, with zeros
or a point where the number has at most 21 digits before the point or at most six zeros after it,
and with an exponent otherwise. `readNumber` reads a JSON number from the head of a text, and
reads back what was written (`readNumber_numberText`).
-/

namespace Decimal

/-- The number `m` times a power of ten. -/
def scaled (m : ℤ) (e : ℤ) : Decimal := ⟨m * 10 ^ e, by
  cases e with
  | ofNat k =>
    refine ⟨0, ?_⟩
    have whole : (m : ℚ) * 10 ^ (Int.ofNat k) = ((m * 10 ^ k : ℤ) : ℚ) := by push_cast; rfl
    rw [whole]
    exact one_dvd _
  | negSucc k =>
    refine ⟨k + 1, ?_⟩
    have quotient : (m : ℚ) * 10 ^ (Int.negSucc k) = Rat.divInt m ((10 ^ (k + 1) : ℕ) : ℤ) := by
      rw [zpow_negSucc, Rat.divInt_eq_div, div_eq_mul_inv]
      push_cast
      rfl
    rw [quotient]
    exact_mod_cast Rat.den_dvd m ((10 ^ (k + 1) : ℕ) : ℤ)⟩

/-- The number of digits after the point. -/
def places (x : Decimal) : ℕ := Nat.find x.2

/-- The absolute value without its point. -/
def unscaled (x : Decimal) : ℕ := (x.1 * 10 ^ x.places).num.natAbs

/-- The digits that are written, as a number that ten does not divide. -/
def significand (x : Decimal) : ℕ := x.unscaled.divMaxPow 10

def exponent (x : Decimal) : ℤ := padicValNat 10 x.unscaled - x.places

theorem unscaled_eq (x : Decimal) : (x.unscaled : ℚ) = |x.1| * 10 ^ x.places := by
  obtain ⟨m, whole⟩ := Nat.find_spec x.2
  have integer : (x.1 * 10 ^ x.places).den = 1 := by
    have product : x.1 * 10 ^ x.places = ((x.1.num * m : ℤ) : ℚ) := by
      have scale : (10 : ℚ) ^ x.places = x.1.den * m := by exact_mod_cast whole
      rw [scale, ← mul_assoc, Rat.mul_den_eq_num]
      push_cast
      rfl
    rw [product]
    rfl
  have value : x.1 * 10 ^ x.places = ((x.1 * 10 ^ x.places).num : ℚ) :=
    ((Rat.den_eq_one_iff _).mp integer).symm
  have magnitude : |x.1 * 10 ^ x.places| = (x.unscaled : ℚ) := by
    rw [value, unscaled, Nat.cast_natAbs, Int.cast_abs]
  rw [← magnitude, abs_mul, abs_of_pos (show (0 : ℚ) < 10 ^ x.places by positivity)]

/-- A number is its significand at its exponent. -/
theorem significand_scaled (x : Decimal) :
    (x.significand : ℚ) * 10 ^ x.exponent = |x.1| := by
  have split : (x.significand : ℚ) * 10 ^ padicValNat 10 x.unscaled = x.unscaled := by
    exact_mod_cast Nat.divMaxPow_mul_pow_padicValNat 10 x.unscaled
  rw [exponent, zpow_sub₀ (by norm_num), zpow_natCast, zpow_natCast, ← mul_div_assoc, split,
    unscaled_eq, mul_div_assoc, div_self (by positivity), mul_one]

theorem scaled_significand (x : Decimal) :
    scaled (if x.1 < 0 then -x.significand else x.significand) x.exponent = x := by
  apply Subtype.ext
  have magnitude := x.significand_scaled
  simp only [scaled]
  split
  next negative =>
    rw [abs_of_neg negative] at magnitude
    push_cast
    linear_combination -magnitude
  next positive =>
    rw [abs_of_nonneg (not_lt.mp positive)] at magnitude
    exact_mod_cast magnitude

theorem significand_pos {x : Decimal} (nonzero : x.1 ≠ 0) : x.significand ≠ 0 := by
  intro zero
  have magnitude := x.significand_scaled
  rw [zero, Nat.cast_zero, zero_mul] at magnitude
  exact nonzero (abs_eq_zero.mp magnitude.symm)

end Decimal

namespace Utf16

/-! ### Writing -/

def zeros (n : Nat) : Text := List.replicate n (digit 0)

/-- The digits before and after the point and the exponent of a number that is written with the
digits of `significand` at `exponent`. -/
def numberParts (significand : Nat) (exponent : Int) : Text × Text × Int :=
  let digits := natural significand
  let point : Int := digits.length + exponent
  if 0 ≤ exponent ∧ point ≤ 21 then (digits ++ zeros exponent.toNat, [], 0)
  else if 0 < point ∧ point ≤ 21 then (digits.take point.toNat, digits.drop point.toNat, 0)
  else if -6 < point ∧ point ≤ 0 then (zeros 1, zeros (-point).toNat ++ digits, 0)
  else (digits.take 1, digits.drop 1, point - 1)

def fractionText (fraction : Text) : Text := if fraction = [] then [] else lit "." ++ fraction

def exponentText (e : Int) : Text :=
  if e = 0 then [] else lit "e" ++ lit (if e < 0 then "-" else "+") ++ natural e.natAbs

def partsText (parts : Text × Text × Int) : Text :=
  parts.1 ++ fractionText parts.2.1 ++ exponentText parts.2.2

/-- `String(x)` and `JSON.stringify(x)` of a number. -/
def numberText (x : Decimal) : Text :=
  if x.1 = 0 then zeros 1
  else (if x.1 < 0 then lit "-" else []) ++ partsText (numberParts x.significand x.exponent)

/-! ### Reading -/

/-- The digits of a whole number: nothing is before a digit zero but the point. -/
def readWhole (s : Text) : Option (Text × Text) :=
  let digits := s.takeWhile isDigit
  if digits = [] ∨ digits.head? = some (digit 0) ∧ digits.length ≠ 1 then none
  else some (digits, s.dropWhile isDigit)

def readFraction (s : Text) : Option (Text × Text) :=
  if s.head? = (lit ".").head? then
    let digits := s.tail.takeWhile isDigit
    if digits = [] then none else some (digits, s.tail.dropWhile isDigit)
  else some ([], s)

def readExponent (s : Text) : Option (Int × Text) :=
  if s.head? = (lit "e").head? ∨ s.head? = (lit "E").head? then
    let signed := s.tail
    let unsigned :=
      if signed.head? = (lit "-").head? ∨ signed.head? = (lit "+").head? then signed.tail else signed
    let digits := unsigned.takeWhile isDigit
    if digits = [] then none
    else
      let magnitude : Int := digitsValue digits
      some (if signed.head? = (lit "-").head? then -magnitude else magnitude,
        unsigned.dropWhile isDigit)
  else some (0, s)

/-- The number a text starts with, in the grammar of JSON. -/
def readNumber (s : Text) : Option (Decimal × Text) :=
  let negative := s.head? = (lit "-").head?
  (readWhole (if negative then s.tail else s)).bind fun (whole, s) =>
    (readFraction s).bind fun (fraction, s) =>
      (readExponent s).map fun (exponent, s) =>
        let m : Int := digitsValue (whole ++ fraction)
        (.scaled (if negative then -m else m) (exponent - fraction.length), s)

/-! ### The round trip -/

/-- Nothing that would go on with a number. -/
def Ends (rest : Text) : Prop :=
  ∀ c ∈ rest.head?, isDigit c = false ∧ c ∉ lit ".eE"

section RoundTrip

variable {digits rest whole fraction : Text}

theorem span_digits (all : ∀ c ∈ digits, isDigit c = true)
    (stops : ∀ c ∈ rest.head?, isDigit c = false) :
    (digits ++ rest).takeWhile isDigit = digits ∧ (digits ++ rest).dropWhile isDigit = rest := by
  rw [List.takeWhile_append_of_pos all, List.dropWhile_append_of_pos all]
  cases rest with
  | nil => simp
  | cons c rest =>
    have stop : isDigit c = false := stops c rfl
    simp [stop]

theorem readWhole_append (all : ∀ c ∈ whole, isDigit c = true) (nonempty : whole ≠ [])
    (plain : whole.head? = some (digit 0) → whole.length = 1)
    (stops : ∀ c ∈ rest.head?, isDigit c = false) :
    readWhole (whole ++ rest) = some (whole, rest) := by
  obtain ⟨taken, dropped⟩ := span_digits all stops
  have accepted : ¬ (whole = [] ∨ whole.head? = some (digit 0) ∧ whole.length ≠ 1) := by
    rintro (empty | ⟨zero, long⟩)
    · exact nonempty empty
    · exact long (plain zero)
  rw [readWhole, taken, dropped]
  exact if_neg accepted

theorem head_exponentText {e : Int} (ends : Ends rest) :
    ∀ c ∈ (exponentText e ++ rest).head?, isDigit c = false ∧ [c] ≠ lit "." := by
  intro c member
  unfold exponentText at member
  by_cases whole : e = 0
  · rw [if_pos whole, List.nil_append] at member
    obtain ⟨stop, other⟩ := ends c member
    exact ⟨stop, fun same => other (by rw [List.head_eq_of_cons_eq same]; decide)⟩
  · rw [if_neg whole] at member
    obtain rfl : UInt16.ofNat 101 = c := by simpa [lit] using member
    decide

theorem readFraction_append (all : ∀ c ∈ fraction, isDigit c = true)
    (stops : ∀ c ∈ rest.head?, isDigit c = false ∧ [c] ≠ lit ".") :
    readFraction (fractionText fraction ++ rest) = some (fraction, rest) := by
  by_cases empty : fraction = []
  · have other : rest.head? ≠ (lit ".").head? := by
      intro same
      exact (stops (UInt16.ofNat 46) same).2 rfl
    rw [fractionText, if_pos empty, List.nil_append, readFraction, if_neg other, empty]
  · obtain ⟨taken, dropped⟩ := span_digits all fun c member => (stops c member).1
    have pointed : (lit "." ++ fraction ++ rest).head? = (lit ".").head? := rfl
    have tail : (lit "." ++ fraction ++ rest).tail = fraction ++ rest := rfl
    rw [fractionText, if_neg empty, readFraction, if_pos pointed, tail, taken, dropped]
    exact if_neg empty

theorem readExponent_append {e : Int} (ends : Ends rest) :
    readExponent (exponentText e ++ rest) = some (e, rest) := by
  unfold exponentText
  by_cases whole : e = 0
  · have other : ¬ (rest.head? = (lit "e").head? ∨ rest.head? = (lit "E").head?) := by
      rintro (same | same)
      · exact (ends _ same).2 (by decide)
      · exact (ends _ same).2 (by decide)
    rw [if_pos whole, List.nil_append, readExponent, if_neg other, whole]
  · obtain ⟨taken, dropped⟩ := span_digits (fun _ => isDigit_of_mem_natural)
      fun c (member : c ∈ rest.head?) => (ends c member).1
    have magnitude := digitsValue_natural e.natAbs
    rw [if_neg whole, readExponent]
    by_cases negative : e < 0
    · have signed : (lit "e" ++ lit "-" ++ natural e.natAbs ++ rest).tail.head? = (lit "-").head? :=
        rfl
      have tail : (lit "e" ++ lit "-" ++ natural e.natAbs ++ rest).tail.tail =
        natural e.natAbs ++ rest := rfl
      rw [if_pos negative]
      refine (if_pos (Or.inl rfl)).trans ?_
      dsimp only
      rw [if_pos (Or.inl signed), tail, taken, dropped, if_neg (natural_ne_nil _), if_pos signed,
        magnitude]
      exact congrArg (fun n => some (n, rest)) (by omega)
    · have signed : (lit "e" ++ lit "+" ++ natural e.natAbs ++ rest).tail.head? = (lit "+").head? :=
        rfl
      have tail : (lit "e" ++ lit "+" ++ natural e.natAbs ++ rest).tail.tail =
        natural e.natAbs ++ rest := rfl
      have plus : ¬ (lit "+").head? = (lit "-").head? := by decide
      rw [if_neg negative]
      refine (if_pos (Or.inl rfl)).trans ?_
      dsimp only
      rw [signed, if_pos (Or.inr rfl), tail, taken, dropped, if_neg (natural_ne_nil _), if_neg plus,
        magnitude]
      exact congrArg (fun n => some (n, rest)) (by omega)

end RoundTrip

/-! ### What is written -/

theorem isDigit_zeros {n : Nat} : ∀ c ∈ zeros n, isDigit c = true := by
  intro c member
  rw [List.eq_of_mem_replicate member]
  decide

theorem digitsValue_foldl (n : Nat) (s : Text) :
    s.foldl (fun n c => 10 * n + digitValue c) n = n * 10 ^ s.length + digitsValue s := by
  induction s using List.reverseRecOn with
  | nil => simp [digitsValue]
  | append_singleton s c ih =>
    rw [digitsValue, List.foldl_append, List.foldl_append, ih, ← digitsValue, List.length_append]
    simp only [List.foldl_cons, List.foldl_nil, List.length_singleton, pow_succ]
    ring

theorem digitsValue_append (s t : Text) :
    digitsValue (s ++ t) = digitsValue s * 10 ^ t.length + digitsValue t := by
  rw [digitsValue, List.foldl_append, digitsValue_foldl]
  rfl

theorem digitsValue_zeros (n : Nat) : digitsValue (zeros n) = 0 := by
  induction n with
  | zero => rfl
  | succ n ih =>
    rw [zeros, List.replicate_succ, ← zeros, ← List.singleton_append, digitsValue_append, ih]
    simp [digitsValue, digitValue_digit]

/-- The first digit of a number is not zero. -/
theorem head_natural {n : Nat} (nonzero : n ≠ 0) : (natural n).head? ≠ some (digit 0) := by
  rw [natural, if_neg nonzero, List.head?_map, List.head?_reverse]
  have nonempty : Nat.digits 10 n ≠ [] := Nat.digits_ne_nil_iff_ne_zero.mpr nonzero
  rw [List.getLast?_eq_getLast_of_ne_nil nonempty, Option.map_some]
  intro same
  have small : (Nat.digits 10 n).getLast nonempty < 10 :=
    Nat.digits_lt_base (by decide) (List.getLast_mem nonempty)
  have value := congrArg digitValue (Option.some.inj same)
  rw [digitValue_digit small, digitValue_digit (by decide)] at value
  exact Nat.getLast_digit_ne_zero 10 nonzero value

/-- The parts are digits in the grammar of JSON, and they denote the number. -/
structure PartsOf (m : Nat) (e : Int) (parts : Text × Text × Int) : Prop where
  whole : ∀ c ∈ parts.1, isDigit c = true
  nonempty : parts.1 ≠ []
  plain : parts.1.head? = some (digit 0) → parts.1.length = 1
  fraction : ∀ c ∈ parts.2.1, isDigit c = true
  value : (digitsValue (parts.1 ++ parts.2.1) : ℚ) * 10 ^ (parts.2.2 - parts.2.1.length) =
    m * 10 ^ e

theorem numberParts_of (m : Nat) (e : Int) (nonzero : m ≠ 0) : PartsOf m e (numberParts m e) := by
  have digits : ∀ c ∈ natural m, isDigit c = true := fun _ => isDigit_of_mem_natural
  have value : digitsValue (natural m) = m := digitsValue_natural m
  have nonempty := natural_ne_nil m
  have head := head_natural nonzero
  simp only [numberParts]
  generalize natural m = ds at digits value nonempty head
  have headed : ∀ n, (ds.take n).head? = some (digit 0) → (ds.take n).length = 1 := by
    intro n first
    cases n with
    | zero => simp at first
    | succ n =>
      rw [List.head?_take, if_neg (Nat.succ_ne_zero n)] at first
      exact absurd first head
  have positive : 0 < ds.length := List.length_pos_of_ne_nil nonempty
  split_ifs with large point small
  · refine ⟨?_, by simp [nonempty], ?_, by simp, ?_⟩
    · exact List.forall_mem_append.mpr ⟨digits, isDigit_zeros⟩
    · intro first
      rw [List.head?_append_of_ne_nil _ nonempty] at first
      exact absurd first head
    · rw [List.append_nil, digitsValue_append, digitsValue_zeros, value]
      have power : (10 : ℚ) ^ e = 10 ^ e.toNat := by
        rw [← zpow_natCast, Int.toNat_of_nonneg large.1]
      simp [zeros, power]
  · refine ⟨fun c member => digits c (List.mem_of_mem_take member), ?_, headed _,
      fun c member => digits c (List.mem_of_mem_drop member), ?_⟩
    · rw [ne_eq, List.take_eq_nil_iff]
      rintro (zero | empty)
      · omega
      · exact nonempty empty
    · rw [List.take_append_drop, value, List.length_drop]
      congr 2
      dsimp only
      omega
  · refine ⟨isDigit_zeros, by simp [zeros], fun _ => by simp [zeros],
      List.forall_mem_append.mpr ⟨isDigit_zeros, digits⟩, ?_⟩
    · rw [digitsValue_append, digitsValue_append, digitsValue_zeros, digitsValue_zeros, value,
        List.length_append]
      simp only [zeros, List.length_replicate, zero_mul, zero_add]
      congr 2
      push_cast
      omega
  · refine ⟨fun c member => digits c (List.mem_of_mem_take member), ?_, headed _,
      fun c member => digits c (List.mem_of_mem_drop member), ?_⟩
    · simpa using nonempty
    · rw [List.take_append_drop, value, List.length_drop]
      congr 2
      dsimp only
      omega

theorem head_of_parts {m : Nat} {e : Int} {parts : Text × Text × Int} (of : PartsOf m e parts)
    (rest : Text) : (partsText parts ++ rest).head? ≠ (lit "-").head? := by
  cases form : parts.1 with
  | nil => exact absurd form of.nonempty
  | cons c whole =>
    have isDig : isDigit c = true := of.whole c (form ▸ List.mem_cons_self)
    rw [partsText, form]
    intro same
    obtain rfl : c = UInt16.ofNat 45 := Option.some.inj same
    exact absurd isDig (by decide)

theorem readNumber_parts {m : Nat} {e : Int} {parts : Text × Text × Int} (of : PartsOf m e parts)
    {rest : Text} (ends : Ends rest) (negative : Bool) :
    readNumber ((if negative then lit "-" else []) ++ partsText parts ++ rest) =
      some (.scaled (if negative then -m else m) e, rest) := by
  have unsigned := head_of_parts of rest
  have head : (((if negative then lit "-" else []) ++ partsText parts ++ rest).head? =
      (lit "-").head?) ↔ negative = true := by
    cases negative with
    | false => simpa using unsigned
    | true => exact iff_of_true rfl rfl
  have tail : (if ((if negative then lit "-" else []) ++ partsText parts ++ rest).head? =
      (lit "-").head? then ((if negative then lit "-" else []) ++ partsText parts ++ rest).tail
      else (if negative then lit "-" else []) ++ partsText parts ++ rest) = partsText parts ++ rest := by
    cases negative with
    | false => exact if_neg unsigned
    | true => exact if_pos rfl
  have exponent := readExponent_append (e := parts.2.2) ends
  have fraction := readFraction_append of.fraction (head_exponentText (e := parts.2.2) ends)
  have whole : readWhole (partsText parts ++ rest) =
      some (parts.1, fractionText parts.2.1 ++ (exponentText parts.2.2 ++ rest)) := by
    rw [partsText, List.append_assoc, List.append_assoc]
    refine readWhole_append of.whole of.nonempty of.plain fun c member => ?_
    by_cases empty : parts.2.1 = []
    · rw [fractionText, if_pos empty] at member
      exact (head_exponentText ends c member).1
    · rw [fractionText, if_neg empty] at member
      obtain rfl : UInt16.ofNat 46 = c := Option.some.inj member
      decide
  rw [readNumber]
  dsimp only
  rw [tail, whole, Option.bind_some]
  dsimp only
  rw [fraction, Option.bind_some]
  dsimp only
  rw [exponent, Option.map_some]
  refine congrArg (fun x => some (x, rest)) (Subtype.ext ?_)
  have value := of.value
  simp only [Decimal.scaled, head]
  split
  · push_cast
    linear_combination -value
  · exact_mod_cast value

/-- A number that was written is read back. -/
theorem readNumber_numberText (x : Decimal) {rest : Text} (ends : Ends rest) :
    readNumber (numberText x ++ rest) = some (x, rest) := by
  by_cases zero : x.1 = 0
  · have of : PartsOf 0 0 (zeros 1, [], 0) :=
      ⟨isDigit_zeros, by simp [zeros], fun _ => rfl, by simp, by simp [digitsValue_zeros]⟩
    have read := readNumber_parts of ends false
    rw [numberText, if_pos zero]
    simp only [partsText, fractionText, exponentText, if_true, List.append_nil, Bool.false_eq_true,
      if_false, List.nil_append] at read
    rw [read]
    refine congrArg (fun y => some (y, rest)) (Subtype.ext ?_)
    simp [Decimal.scaled, zero]
  · have of := numberParts_of x.significand x.exponent (Decimal.significand_pos zero)
    have read := readNumber_parts of ends (decide (x.1 < 0))
    have whole := x.scaled_significand
    simp only [decide_eq_true_eq] at read
    rw [whole] at read
    rwa [numberText, if_neg zero]

theorem numberText_ne_nil (x : Decimal) : numberText x ≠ [] := by
  by_cases zero : x.1 = 0
  · rw [numberText, if_pos zero]
    simp [zeros]
  · have of := numberParts_of x.significand x.exponent (Decimal.significand_pos zero)
    rw [numberText, if_neg zero, partsText]
    simp [of.nonempty]

theorem mem_numberText {x : Decimal} {c : CodeUnit} (member : c ∈ numberText x) :
    isDigit c = true ∨ c ∈ lit ".e+-" := by
  by_cases zero : x.1 = 0
  · rw [numberText, if_pos zero] at member
    exact Or.inl (isDigit_zeros c member)
  · have of := numberParts_of x.significand x.exponent (Decimal.significand_pos zero)
    rw [numberText, if_neg zero, partsText, fractionText, exponentText] at member
    rcases List.mem_append.mp member with sign | member
    · split at sign
      · rw [List.mem_singleton.mp sign]
        exact Or.inr (by decide)
      · cases sign
    rcases List.mem_append.mp member with member | member
    · rcases List.mem_append.mp member with whole | member
      · exact Or.inl (of.whole c whole)
      · split at member
        · cases member
        · rcases List.mem_append.mp member with point | fraction
          · rw [List.mem_singleton.mp point]
            exact Or.inr (by decide)
          · exact Or.inl (of.fraction c fraction)
    · split at member
      · cases member
      · rcases List.mem_append.mp member with member | magnitude
        · rcases List.mem_append.mp member with letter | sign
          · rw [List.mem_singleton.mp letter]
            exact Or.inr (by decide)
          · split at sign <;> rw [List.mem_singleton.mp sign] <;> exact Or.inr (by decide)
        · exact Or.inl (isDigit_of_mem_natural magnitude)

end Utf16
