import LabourBaba.Text.Percent

/-!
# Buffers

A buffer is its octets. A text becomes one in UTF-8, with U+FFFD in the place of a surrogate
without a partner, and a buffer is read as UTF-8 with U+FFFD in the place of what is ill-formed
(`ofUtf8_toUtf8` for ASCII). A buffer is written in base64url without padding; reading accepts
the alphabet of base64 too, skips what is in neither, and stops at a padding
(`ofBase64_toBase64url`).
-/
namespace Utf16

/-! ### UTF-8 -/

def replacement : Nat := 0xFFFD

/-- The code point of a code unit by itself. -/
def lone (c : CodeUnit) : Nat := if isHigh c || isLow c then replacement else c.toNat

/-- `Buffer.from(text)`. -/
def toUtf8 : Text → List Nat
  | [] => []
  | [c] => utf8 (lone c)
  | c :: d :: rest =>
    if isHigh c && isLow d then utf8 (pair c d) ++ toUtf8 rest else utf8 (lone c) ++ toUtf8 (d :: rest)

/-- What is left to read of a sequence of octets, the value so far, and the bounds of the next
octet. -/
structure Sequence where
  owed : Nat
  value : Nat
  lower : Nat
  upper : Nat

def leadOctet (b : Nat) : Option Sequence :=
  if 0xC2 ≤ b ∧ b ≤ 0xDF then some ⟨1, b - 0xC0, 0x80, 0xBF⟩
  else if 0xE0 ≤ b ∧ b ≤ 0xEF then
    some ⟨2, b - 0xE0, if b = 0xE0 then 0xA0 else 0x80, if b = 0xED then 0x9F else 0xBF⟩
  else if 0xF0 ≤ b ∧ b ≤ 0xF4 then
    some ⟨3, b - 0xF0, if b = 0xF0 then 0x90 else 0x80, if b = 0xF4 then 0x8F else 0xBF⟩
  else none

def startOctet (b : Nat) : Text × Option Sequence :=
  if b < 0x80 then ([UInt16.ofNat b], none)
  else match leadOctet b with
    | some sequence => ([], some sequence)
    | none => (units replacement, none)

def nextOctet (begun : Option Sequence) (b : Nat) : Text × Option Sequence :=
  match begun with
  | none => startOctet b
  | some ⟨owed, value, lower, upper⟩ =>
    if lower ≤ b ∧ b ≤ upper then
      let value := value * 0x40 + (b - 0x80)
      if owed = 1 then (units value, none) else ([], some ⟨owed - 1, value, 0x80, 0xBF⟩)
    else
      -- the octet that breaks off a sequence may begin another one
      (units replacement ++ (startOctet b).1, (startOctet b).2)

def ofUtf8From : Option Sequence → List Nat → Text
  | none, [] => []
  | some _, [] => units replacement
  | begun, b :: rest => (nextOctet begun b).1 ++ ofUtf8From (nextOctet begun b).2 rest

/-- `buffer.toString('utf8')`. -/
def ofUtf8 (octets : List Nat) : Text := ofUtf8From none octets

def Ascii (s : Text) : Prop := ∀ c ∈ s, c.toNat < 0x80

-- named here: with all of Mathlib in scope the search would range over every code unit
instance (s : Text) : Decidable (Ascii s) := List.decidableBAll _ s

theorem Ascii.append {s t : Text} (left : Ascii s) (right : Ascii t) : Ascii (s ++ t) := by
  intro c member
  exact (List.mem_append.mp member).elim (left c) (right c)

theorem toUtf8_of_ascii {s : Text} (ascii : Ascii s) : toUtf8 s = s.map UInt16.toNat := by
  have single : ∀ c : CodeUnit, c.toNat < 0x80 → isHigh c = false ∧ utf8 (lone c) = [c.toNat] := by
    intro c small
    have high : isHigh c = false := by
      simp only [isHigh, decide_eq_false_iff_not]
      omega
    have low : isLow c = false := by
      simp only [isLow, decide_eq_false_iff_not]
      omega
    simp [high, low, lone, utf8, small]
  fun_induction toUtf8 s with
  | case1 => rfl
  | case2 c => exact (single c (ascii c List.mem_cons_self)).2
  | case3 c d rest both =>
    simp [(single c (ascii c List.mem_cons_self)).1] at both
  | case4 c d rest _ ih =>
    rw [(single c (ascii c List.mem_cons_self)).2,
      ih fun e member => ascii e (List.mem_cons_of_mem c member)]
    rfl

theorem ofUtf8_toUtf8 {s : Text} (ascii : Ascii s) : ofUtf8 (toUtf8 s) = s := by
  rw [toUtf8_of_ascii ascii, ofUtf8]
  induction s with
  | nil => rfl
  | cons c rest ih =>
    have small := ascii c List.mem_cons_self
    rw [List.map_cons, ofUtf8From, nextOctet, startOctet, if_pos small, UInt16.ofNat_toNat,
      ih fun d member => ascii d (List.mem_cons_of_mem c member)]
    rfl

/-! ### base64url -/

def base64url : Text := lit "ABCDEFGHIJKLMNOPQRSTUVWXYZabcdefghijklmnopqrstuvwxyz0123456789-_"

def sextetUnit (n : Nat) : CodeUnit := base64url.getD n 0

def sextetValue (c : CodeUnit) : Option Nat :=
  if 65 ≤ c.toNat ∧ c.toNat ≤ 90 then some (c.toNat - 65)
  else if 97 ≤ c.toNat ∧ c.toNat ≤ 122 then some (c.toNat - 71)
  else if 48 ≤ c.toNat ∧ c.toNat ≤ 57 then some (c.toNat + 4)
  else if c ∈ lit "-+" then some 62
  else if c ∈ lit "_/" then some 63
  else none

/-- The groups of six bits of a buffer. -/
def sextets : List Nat → List Nat
  | [] => []
  | [a] => [a / 4, a % 4 * 16]
  | [a, b] => [a / 4, a % 4 * 16 + b / 16, b % 16 * 4]
  | a :: b :: c :: rest =>
    a / 4 :: (a % 4 * 16 + b / 16) :: (b % 16 * 4 + c / 64) :: c % 64 :: sextets rest

/-- The octets of groups of six bits; a group that is left over is dropped. -/
def ofSextets : List Nat → List Nat
  | p :: q :: r :: s :: rest =>
    (p * 4 + q / 16) :: (q % 16 * 16 + r / 4) :: (r % 4 * 64 + s) :: ofSextets rest
  | [p, q, r] => [p * 4 + q / 16, q % 16 * 16 + r / 4]
  | [p, q] => [p * 4 + q / 16]
  | _ => []

/-- `buffer.toString('base64url')`. -/
def toBase64url (octets : List Nat) : Text := (sextets octets).map sextetUnit

/-- `Buffer.from(text, 'base64url')`. -/
def ofBase64 (s : Text) : List Nat :=
  ofSextets ((s.takeWhile fun c => c ∉ lit "=").filterMap sextetValue)

theorem sextets_lt {octets : List Nat} (small : ∀ b ∈ octets, b < 256) :
    ∀ n ∈ sextets octets, n < 64 := by
  fun_induction sextets octets with
  | case1 => simp
  | case2 a =>
    have := small a (by simp)
    simp only [List.mem_cons, List.not_mem_nil, or_false]
    omega
  | case3 a b =>
    have := small a (by simp)
    have := small b (by simp)
    simp only [List.mem_cons, List.not_mem_nil, or_false]
    omega
  | case4 a b c rest ih =>
    have := small a (by simp)
    have := small b (by simp)
    have := small c (by simp)
    have later := ih fun d member => small d (by simp [member])
    simp only [List.mem_cons]
    rintro n (rfl | rfl | rfl | rfl | member)
    · omega
    · omega
    · omega
    · omega
    · exact later n member

theorem ofSextets_sextets {octets : List Nat} (small : ∀ b ∈ octets, b < 256) :
    ofSextets (sextets octets) = octets := by
  fun_induction sextets octets with
  | case1 => rfl
  | case2 a =>
    have := small a (by simp)
    simp only [ofSextets, List.cons.injEq, and_true]
    omega
  | case3 a b =>
    have := small a (by simp)
    have := small b (by simp)
    simp only [ofSextets, List.cons.injEq, and_true]
    omega
  | case4 a b c rest ih =>
    have := small a (by simp)
    have := small b (by simp)
    have := small c (by simp)
    simp only [ofSextets, List.cons.injEq]
    refine ⟨by omega, by omega, by omega, ih fun d member => small d (by simp [member])⟩

/-- What was written in base64url is read back. -/
theorem ofBase64_toBase64url {octets : List Nat} (small : ∀ b ∈ octets, b < 256) :
    ofBase64 (toBase64url octets) = octets := by
  have unit : ∀ n < 64, sextetUnit n ∉ lit "=" ∧ sextetValue (sextetUnit n) = some n := by
    decide +kernel
  have lt := sextets_lt small
  have whole : (toBase64url octets).takeWhile (fun c => c ∉ lit "=") = toBase64url octets := by
    refine List.takeWhile_eq_self_iff.mpr fun c member => ?_
    obtain ⟨n, stored, rfl⟩ := List.mem_map.mp member
    simpa using (unit n (lt n stored)).1
  have values : (toBase64url octets).filterMap sextetValue = sextets octets := by
    rw [toBase64url, List.filterMap_map]
    refine (List.filterMap_congr fun n stored => (unit n (lt n stored)).2).trans ?_
    exact List.filterMap_some
  rw [ofBase64, whole, values, ofSextets_sextets small]

end Utf16
