import LabourBaba.Text.Utf16

/-!
# Percent-encoding

`encodeURIComponent` writes each character that is not unreserved as the octets of its
UTF-8 form; a surrogate without a partner has none, and is refused. `decodeURIComponent`
reads a string in two steps: `items` reads the escapes, `assemble` the UTF-8 sequences
among their octets, one octet at a time with what is owed of the sequence begun. What was
encoded decodes to itself (`decode_encode`).
-/
namespace Utf16

/-! ### Code points -/

def isHigh (c : CodeUnit) : Bool := 0xD800 ≤ c.toNat ∧ c.toNat < 0xDC00

def isLow (c : CodeUnit) : Bool := 0xDC00 ≤ c.toNat ∧ c.toNat < 0xE000

/-- The code point of a surrogate pair. -/
def pair (high low : CodeUnit) : Nat :=
  (high.toNat - 0xD800) * 0x400 + (low.toNat - 0xDC00) + 0x10000

/-- The code units of a code point. -/
def units (v : Nat) : Text :=
  if v < 0x10000 then [UInt16.ofNat v]
  else [UInt16.ofNat (0xD800 + (v - 0x10000) / 0x400),
    UInt16.ofNat (0xDC00 + (v - 0x10000) % 0x400)]

/-- The octets of a code point. -/
def utf8 (v : Nat) : List Nat :=
  if v < 0x80 then [v]
  else if v < 0x800 then [0xC0 + v / 0x40, 0x80 + v % 0x40]
  else if v < 0x10000 then [0xE0 + v / 0x1000, 0x80 + v / 0x40 % 0x40, 0x80 + v % 0x40]
  else [0xF0 + v / 0x40000, 0x80 + v / 0x1000 % 0x40, 0x80 + v / 0x40 % 0x40, 0x80 + v % 0x40]

/-- The code points that UTF-8 has a form for. -/
def Scalar (v : Nat) : Prop := v < 0xD800 ∨ 0xE000 ≤ v ∧ v < 0x110000

instance (v : Nat) : Decidable (Scalar v) := inferInstanceAs (Decidable (_ ∨ _))

/-! ### Encoding -/

def isUnreserved (c : CodeUnit) : Bool :=
  c ∈ lit "ABCDEFGHIJKLMNOPQRSTUVWXYZabcdefghijklmnopqrstuvwxyz0123456789-_.!~*'()"

def hexDigit (n : Nat) : CodeUnit := UInt16.ofNat (if n < 10 then 48 + n else 55 + n)

def escape (octet : Nat) : Text := lit "%" ++ [hexDigit (octet / 16), hexDigit (octet % 16)]

def escaped (v : Nat) : Text := (utf8 v).flatMap escape

/-- `encodeURIComponent`, where nothing is an error. -/
def encodeURIComponent : Text → Option Text
  | [] => some []
  | c :: rest =>
    if isUnreserved c then (encodeURIComponent rest).map (c :: ·)
    else if isLow c then none
    else if isHigh c then
      match rest with
      | [] => none
      | d :: rest =>
        if isLow d then (encodeURIComponent rest).map (escaped (pair c d) ++ ·) else none
    else (encodeURIComponent rest).map (escaped c.toNat ++ ·)

/-! ### Decoding -/

def hexValue (c : CodeUnit) : Option Nat :=
  if 48 ≤ c.toNat ∧ c.toNat ≤ 57 then some (c.toNat - 48)
  else if 65 ≤ c.toNat ∧ c.toNat ≤ 70 then some (c.toNat - 55)
  else if 97 ≤ c.toNat ∧ c.toNat ≤ 102 then some (c.toNat - 87)
  else none

inductive Item
  | unit (c : CodeUnit)
  | octet (n : Nat)
  deriving DecidableEq, Repr

/-- The code units and the escaped octets of a string. -/
def items : Text → Option (List Item)
  | [] => some []
  | c :: rest =>
    if [c] = lit "%" then
      match rest with
      | h :: l :: rest =>
        match hexValue h, hexValue l with
        | some h, some l => (items rest).map (.octet (16 * h + l) :: ·)
        | _, _ => none
      | _ => none
    else (items rest).map (.unit c :: ·)

/-- What is left to read of a sequence of octets, the value so far, and the least code point
that needs as many octets. -/
structure Pending where
  owed : Nat
  value : Nat
  least : Nat
  deriving DecidableEq, Repr

def lead (octet : Nat) : Option Pending :=
  if 0xC0 ≤ octet ∧ octet < 0xE0 then some ⟨1, octet - 0xC0, 0x80⟩
  else if 0xE0 ≤ octet ∧ octet < 0xF0 then some ⟨2, octet - 0xE0, 0x800⟩
  else if 0xF0 ≤ octet ∧ octet < 0xF8 then some ⟨3, octet - 0xF0, 0x10000⟩
  else none

def assemble : Option Pending → List Item → Option Text
  | none, [] => some []
  | some _, [] => none
  | none, .unit c :: rest => (assemble none rest).map (c :: ·)
  | some _, .unit _ :: _ => none
  | none, .octet b :: rest =>
    if b < 0x80 then (assemble none rest).map (UInt16.ofNat b :: ·)
    else match lead b with
      | none => none
      | some pending => assemble (some pending) rest
  | some ⟨owed, value, least⟩, .octet b :: rest =>
    if 0x80 ≤ b ∧ b < 0xC0 then
      let value := value * 0x40 + (b - 0x80)
      if owed = 1 then
        if least ≤ value ∧ Scalar value then (assemble none rest).map (units value ++ ·) else none
      else assemble (some ⟨owed - 1, value, least⟩) rest
    else none

/-- `decodeURIComponent`, where nothing is an error. -/
def decodeURIComponent (s : Text) : Option Text := (items s).bind (assemble none)

/-! ### The round trip -/

theorem units_of_lt {c : CodeUnit} : units c.toNat = [c] := by
  have small := c.toNat_lt_size
  rw [units, if_pos (by simpa using small), UInt16.ofNat_toNat]

theorem units_pair {high low : CodeUnit} (h : isHigh high = true) (l : isLow low = true) :
    units (pair high low) = [high, low] := by
  have high_bounds : 0xD800 ≤ high.toNat ∧ high.toNat < 0xDC00 := of_decide_eq_true h
  have low_bounds : 0xDC00 ≤ low.toNat ∧ low.toNat < 0xE000 := of_decide_eq_true l
  have large : ¬ pair high low < 0x10000 := by unfold pair; omega
  have front : 0xD800 + (pair high low - 0x10000) / 0x400 = high.toNat := by unfold pair; omega
  have back : 0xDC00 + (pair high low - 0x10000) % 0x400 = low.toNat := by unfold pair; omega
  rw [units, if_neg large, front, back, UInt16.ofNat_toNat, UInt16.ofNat_toNat]

theorem scalar_pair {high low : CodeUnit} (h : isHigh high = true) (l : isLow low = true) :
    Scalar (pair high low) := by
  have high_bounds : 0xD800 ≤ high.toNat ∧ high.toNat < 0xDC00 := of_decide_eq_true h
  have low_bounds : 0xDC00 ≤ low.toNat ∧ low.toNat < 0xE000 := of_decide_eq_true l
  unfold Scalar pair
  omega

theorem hexValue_hexDigit {n : Nat} (small : n < 16) : hexValue (hexDigit n) = some n := by
  interval_cases n <;> decide

theorem items_escape {octet : Nat} (small : octet < 256) (rest : Text) :
    items (escape octet ++ rest) = (items rest).map (.octet octet :: ·) := by
  have whole : 16 * (octet / 16) + octet % 16 = octet := by omega
  change (if [(37 : CodeUnit)] = lit "%" then _ else _) = _
  rw [if_pos (by decide)]
  simp [hexValue_hexDigit (show octet / 16 < 16 by omega),
    hexValue_hexDigit (show octet % 16 < 16 by omega), whole]

theorem items_flatMap_escape {octets : List Nat} (small : ∀ b ∈ octets, b < 256) (rest : Text) :
    items (octets.flatMap escape ++ rest) = (items rest).map (octets.map .octet ++ ·) := by
  induction octets with
  | nil => simp
  | cons b octets ih =>
    rw [List.flatMap_cons, List.append_assoc, items_escape (small b List.mem_cons_self),
      ih fun c member => small c (List.mem_cons_of_mem b member), Option.map_map]
    rfl

theorem utf8_lt {v : Nat} (scalar : Scalar v) : ∀ b ∈ utf8 v, b < 256 := by
  unfold Scalar at scalar
  intro b member
  unfold utf8 at member
  split_ifs at member <;> simp only [List.mem_cons, List.not_mem_nil, or_false] at member <;> omega

theorem assemble_lead {b : Nat} {pending : Pending} (high : 0x80 ≤ b)
    (first : lead b = some pending) (rest : List Item) :
    assemble none (.octet b :: rest) = assemble (some pending) rest := by
  rw [assemble, if_neg (by omega), first]

theorem assemble_next {owed value least x : Nat} (more : owed ≠ 1) (small : x < 0x40)
    (rest : List Item) :
    assemble (some ⟨owed, value, least⟩) (.octet (0x80 + x) :: rest) =
      assemble (some ⟨owed - 1, value * 0x40 + x, least⟩) rest := by
  rw [assemble, if_pos (by omega), if_neg more, Nat.add_sub_cancel_left]

theorem assemble_last {value least x v : Nat} (small : x < 0x40) (whole : value * 0x40 + x = v)
    (needed : least ≤ v) (scalar : Scalar v) (rest : List Item) :
    assemble (some ⟨1, value, least⟩) (.octet (0x80 + x) :: rest) =
      (assemble none rest).map (units v ++ ·) := by
  rw [assemble, if_pos (by omega), if_pos rfl, Nat.add_sub_cancel_left, whole,
    if_pos ⟨needed, scalar⟩]

/-- The octets of a code point are read as the code point. -/
theorem assemble_utf8 {v : Nat} (scalar : Scalar v) (rest : List Item) :
    assemble none ((utf8 v).map .octet ++ rest) = (assemble none rest).map (units v ++ ·) := by
  have bound : v < 0x110000 := by unfold Scalar at scalar; omega
  have low : v % 0x40 < 0x40 := Nat.mod_lt _ (by decide)
  have middle : v / 0x40 % 0x40 < 0x40 := Nat.mod_lt _ (by decide)
  have upper : v / 0x1000 % 0x40 < 0x40 := Nat.mod_lt _ (by decide)
  unfold utf8
  split_ifs with one two three
  · have single : units v = [UInt16.ofNat v] := if_pos (by omega)
    simp [assemble, one, single]
  · have first : lead (0xC0 + v / 0x40) = some ⟨1, v / 0x40, 0x80⟩ := by
      rw [lead, if_pos (by omega), Nat.add_sub_cancel_left]
    simp only [List.map_cons, List.map_nil, List.cons_append, List.nil_append]
    rw [assemble_lead (by omega) first, assemble_last low (by omega) (by omega) scalar]
  · have first : lead (0xE0 + v / 0x1000) = some ⟨2, v / 0x1000, 0x800⟩ := by
      rw [lead, if_neg (by omega), if_pos (by omega), Nat.add_sub_cancel_left]
    simp only [List.map_cons, List.map_nil, List.cons_append, List.nil_append]
    rw [assemble_lead (by omega) first, assemble_next (by decide) middle,
      assemble_last low (by omega) (by omega) scalar]
  · have first : lead (0xF0 + v / 0x40000) = some ⟨3, v / 0x40000, 0x10000⟩ := by
      rw [lead, if_neg (by omega), if_neg (by omega), if_pos (by omega), Nat.add_sub_cancel_left]
    simp only [List.map_cons, List.map_nil, List.cons_append, List.nil_append]
    rw [assemble_lead (by omega) first, assemble_next (by decide) upper,
      assemble_next (by decide) middle, assemble_last low (by omega) (by omega) scalar]

theorem decode_escaped {v : Nat} (scalar : Scalar v) (rest : Text) :
    decodeURIComponent (escaped v ++ rest) = (decodeURIComponent rest).map (units v ++ ·) := by
  unfold decodeURIComponent escaped
  rw [items_flatMap_escape (utf8_lt scalar)]
  cases items rest with
  | none => rfl
  | some read => exact assemble_utf8 scalar read

theorem decode_cons {c : CodeUnit} (plain : [c] ≠ lit "%") (rest : Text) :
    decodeURIComponent (c :: rest) = (decodeURIComponent rest).map (c :: ·) := by
  unfold decodeURIComponent
  rw [items.eq_def]
  simp only [if_neg plain]
  cases items rest with
  | none => rfl
  | some read => rfl

theorem ne_percent {c : CodeUnit} (unreserved : isUnreserved c = true) : [c] ≠ lit "%" := by
  intro same
  obtain rfl : c = 37 := List.head_eq_of_cons_eq same
  revert unreserved
  decide

/-- What was encoded decodes to itself. -/
theorem decode_encode {s t : Text} (encoded : encodeURIComponent s = some t) :
    decodeURIComponent t = some s := by
  fun_induction encodeURIComponent s generalizing t with
  | case1 =>
    obtain rfl := Option.some.inj encoded
    rfl
  | case2 c rest unreserved ih =>
    obtain ⟨u, tail, rfl⟩ := Option.map_eq_some_iff.mp encoded
    rw [decode_cons (ne_percent unreserved), ih tail, Option.map_some]
  | case3 | case4 | case6 => cases encoded
  | case5 c _ _ high d rest low ih =>
    obtain ⟨u, tail, rfl⟩ := Option.map_eq_some_iff.mp encoded
    rw [decode_escaped (scalar_pair high low), ih tail, Option.map_some, units_pair high low]
    rfl
  | case7 c rest _ notLow notHigh ih =>
    obtain ⟨u, tail, rfl⟩ := Option.map_eq_some_iff.mp encoded
    have scalar : Scalar c.toNat := by
      -- a code unit that is no surrogate is a code point by itself
      have small : c.toNat < 65536 := c.toNat_lt_size
      simp only [isLow, isHigh, decide_eq_true_eq] at notLow notHigh
      unfold Scalar
      omega
    rw [decode_escaped scalar, ih tail, Option.map_some, units_of_lt]
    rfl

end Utf16
