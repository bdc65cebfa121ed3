import Mathlib

/-!
# Replacing matches

A regular expression is given by its match at the head of a text. `replaceAll` is a global
replacement, from left to right and without overlaps. A match that a replaced text begins with,
and that no replacement takes part in, is one of the text itself (`spells_of_replaceAll`).
-/
namespace Replace

variable {α : Type}

/-- A match at the head of a text: how many of its symbols follow the first one, and what the
match is replaced by. -/
abbrev Pattern (α : Type) := List α → Option (ℕ × List α)

/-- `pattern.test(text)`, for a pattern that matches no empty text. -/
def found (pattern : Pattern α) : List α → Bool
  | [] => false
  | c :: rest => (pattern (c :: rest)).isSome || found pattern rest

def replaceFrom (pattern : Pattern α) : ℕ → List α → List α
  | _, [] => []
  | skip + 1, _ :: rest => replaceFrom pattern skip rest
  | 0, c :: rest =>
    match pattern (c :: rest) with
    | none => c :: replaceFrom pattern 0 rest
    | some (more, new) => new ++ replaceFrom pattern more rest

/-- `text.replace(pattern, new)` with the flag `g`. -/
def replaceAll (pattern : Pattern α) (s : List α) : List α := replaceFrom pattern 0 s

variable {pattern : Pattern α} {c : α} {rest s : List α}

theorem replaceFrom_eq (skip : ℕ) (s : List α) :
    replaceFrom pattern skip s = replaceAll pattern (s.drop skip) := by
  induction skip generalizing s with
  | zero => rfl
  | succ skip ih =>
    cases s with
    | nil => rfl
    | cons c rest => exact ih rest

theorem replaceAll_none (unmatched : pattern (c :: rest) = none) :
    replaceAll pattern (c :: rest) = c :: replaceAll pattern rest := by
  rw [replaceAll, replaceFrom, unmatched]
  rfl

theorem replaceAll_some {more : ℕ} {new : List α} (hit : pattern (c :: rest) = some (more, new)) :
    replaceAll pattern (c :: rest) = new ++ replaceAll pattern (rest.drop more) := by
  rw [replaceAll, replaceFrom, hit]
  exact congrArg (new ++ ·) (replaceFrom_eq more rest)

/-- The recursion of a replacement: after a match it goes on behind it. -/
theorem scan (pattern : Pattern α) {motive : List α → Prop} (nil : motive [])
    (unmatched : ∀ c rest, pattern (c :: rest) = none → motive rest → motive (c :: rest))
    (hit : ∀ c rest more new, pattern (c :: rest) = some (more, new) → motive (rest.drop more) →
      motive (c :: rest)) (s : List α) : motive s := by
  induction length : s.length using Nat.strongRecOn generalizing s with
  | ind n ih =>
    cases s with
    | nil => exact nil
    | cons c rest =>
      subst length
      have shorter : rest.length < (c :: rest).length := Nat.lt_succ_self _
      cases found : pattern (c :: rest) with
      | none => exact unmatched c rest found (ih _ shorter rest rfl)
      | some m =>
        refine hit c rest m.1 m.2 found (ih _ ?_ _ rfl)
        rw [List.length_drop]
        exact Nat.lt_of_le_of_lt (Nat.sub_le _ _) shorter

/-! ### Texts without a match -/

theorem found_cons : found pattern (c :: rest) = false ↔
    pattern (c :: rest) = none ∧ found pattern rest = false := by
  simp [found]

theorem found_append {before : List α} (heads : ∀ c ∈ before, ∀ rest, pattern (c :: rest) = none) :
    found pattern (before ++ s) = found pattern s := by
  induction before with
  | nil => rfl
  | cons c before ih =>
    have first : pattern (c :: (before ++ s)) = none := heads c List.mem_cons_self _
    rw [List.cons_append, found, first]
    exact ih fun d member => heads d (List.mem_cons_of_mem c member)

theorem found_drop (n : ℕ) (unfound : found pattern s = false) :
    found pattern (s.drop n) = false := by
  induction n generalizing s with
  | zero => exact unfound
  | succ n ih =>
    cases s with
    | nil => rfl
    | cons c rest => exact ih (found_cons.mp unfound).2

theorem replaceAll_eq_self (unfound : found pattern s = false) : replaceAll pattern s = s := by
  induction s with
  | nil => rfl
  | cons c rest ih =>
    obtain ⟨unmatched, later⟩ := found_cons.mp unfound
    rw [replaceAll_none unmatched, ih later]

/-- The last of several symbols, or one before it. -/
theorem suffix_concat {last : α} {after : List α} (suffix : c :: after <:+ s ++ [last]) :
    after = [] ∧ c = last ∨ c ∈ s := by
  obtain ⟨before, whole⟩ := suffix
  rcases List.eq_nil_or_concat after with rfl | ⟨middle, d, rfl⟩
  · obtain ⟨-, same⟩ := List.append_inj' whole rfl
    exact Or.inl ⟨rfl, List.head_eq_of_cons_eq same⟩
  · have split : (before ++ c :: middle) ++ [d] = s ++ [last] := by simpa using whole
    obtain ⟨rfl, -⟩ := List.append_inj' split rfl
    exact Or.inr (List.mem_append_right before List.mem_cons_self)

/-! ### Fixed beginnings -/

/-- The text begins with symbols of these kinds, one after the other. -/
def Spells : List (α → Bool) → List α → Prop
  | [], _ => True
  | _ :: _, [] => False
  | kind :: kinds, c :: rest => kind c = true ∧ Spells kinds rest

theorem spells_append {kinds more : List (α → Bool)} :
    Spells (kinds ++ more) s ↔ Spells kinds s ∧ Spells more (s.drop kinds.length) := by
  induction kinds generalizing s with
  | nil => simp [Spells]
  | cons kind kinds ih =>
    cases s with
    | nil => simp [Spells]
    | cons c rest => simp [Spells, ih, and_assoc]

theorem spells_replicate {n : ℕ} {kind : α → Bool} :
    Spells (List.replicate n kind) s ↔ n ≤ (s.takeWhile kind).length := by
  induction n generalizing s with
  | zero => simp [Spells]
  | succ n ih =>
    cases s with
    | nil => simp [List.replicate_succ, Spells]
    | cons c rest =>
      rw [List.replicate_succ, Spells, ih]
      cases holds : kind c with
      | true => simp [List.takeWhile_cons_of_pos holds]
      | false => simp [holds]

theorem spells_singleton {kind : α → Bool} : Spells [kind] s ↔ s.takeWhile kind ≠ [] := by
  cases s with
  | nil => simp [Spells]
  | cons c rest =>
    cases holds : kind c with
    | true => simp [Spells, holds]
    | false => simp [Spells, holds]

theorem spells_word {β : Type} [DecidableEq β] (f : α → β) (word : List β) :
    Spells (word.map fun l c => decide (f c = l)) s ↔ (s.take word.length).map f = word := by
  induction word generalizing s with
  | nil => simp [Spells]
  | cons l word ih =>
    cases s with
    | nil => simp [Spells]
    | cons c rest => simp [Spells, ih]

/-- A replacement adds no beginning of these kinds: where one of them takes the first symbol of a
replacement it is the last one, and takes the first symbol of the match too. -/
theorem spells_of_replaceAll {kinds : List (α → Bool)}
    (first : ∀ {c rest more new}, pattern (c :: rest) = some (more, new) →
      ∃ d tail, new = d :: tail ∧ ∀ kind after, kind :: after <:+ kinds → kind d = true →
        after = [] ∧ kind c = true)
    (spells : Spells kinds (replaceAll pattern s)) : Spells kinds s := by
  induction kinds generalizing s with
  | nil => trivial
  | cons kind kinds ih =>
    cases s with
    | nil => exact spells
    | cons c rest =>
      cases hit : pattern (c :: rest) with
      | none =>
        rw [replaceAll_none hit] at spells
        refine ⟨spells.1, ih (fun hit => ?_) spells.2⟩
        obtain ⟨d, tail, new, last⟩ := first hit
        exact ⟨d, tail, new, fun q after suffix => last q after (suffix.trans (List.suffix_cons _ _))⟩
      | some m =>
        obtain ⟨d, tail, new, last⟩ := first hit
        rw [replaceAll_some hit, new] at spells
        obtain ⟨rfl, holds⟩ := last kind kinds List.suffix_rfl spells.1
        exact ⟨holds, trivial⟩

end Replace
