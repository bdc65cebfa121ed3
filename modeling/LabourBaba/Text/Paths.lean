import Mathlib

/-!
# Paths

A path is a list of characters, its segments what `sep` separates. A text with `sep` in
front of it, or behind it, occurs in a path exactly if a segment that is not the first
starts with it, or one that is not the last ends with it (`sep_cons_infix_iff`,
`append_sep_infix_iff`). `normalize` resolves `.` and `..` segments, drops empty ones and
keeps a separator at the end. On a relative path without `..` segments it only drops
segments (`normalize_relative`); the segments of the result are known
(`splitOn_normalize`), so that it is again such a path and stays as it is
(`normalize_normalize`).
-/
namespace Path

section Segments

variable {Char : Type} {sep : Char}

theorem intercalate_append {l r : List (List Char)} (left : l ≠ []) (right : r ≠ []) :
    [sep].intercalate (l ++ r) = [sep].intercalate l ++ sep :: [sep].intercalate r := by
  induction l with
  | nil => exact absurd rfl left
  | cons s l ih =>
    cases l with
    | nil =>
      cases r with
      | nil => exact absurd rfl right
      | cons t r => simp [List.intercalate_cons_cons]
    | cons t l =>
      simp only [List.cons_append, List.intercalate_cons_cons] at ih ⊢
      simp [ih (List.cons_ne_nil _ _)]

theorem prefix_intercalate (s : List Char) (r : List (List Char)) :
    s <+: [sep].intercalate (s :: r) := by
  cases r with
  | nil => simp
  | cons t r => simp [List.intercalate_cons_cons]

theorem suffix_intercalate (l : List (List Char)) (s : List Char) :
    s <:+ [sep].intercalate (l ++ [s]) := by
  cases l with
  | nil => simp
  | cons t l =>
    rw [intercalate_append (List.cons_ne_nil t l) (List.cons_ne_nil s [])]
    exact ⟨[sep].intercalate (t :: l) ++ [sep], by simp⟩

theorem mem_intercalate {segments : List (List Char)} {c : Char}
    (member : c ∈ [sep].intercalate segments) : c = sep ∨ ∃ s ∈ segments, c ∈ s := by
  induction segments with
  | nil => simp at member
  | cons s segments ih =>
    cases segments with
    | nil => exact Or.inr ⟨s, List.mem_cons_self, by simpa using member⟩
    | cons t rest =>
      rw [List.intercalate_cons_cons, List.mem_append, List.mem_append, List.mem_singleton]
        at member
      rcases member with (member | rfl) | member
      · exact Or.inr ⟨s, List.mem_cons_self, member⟩
      · exact Or.inl rfl
      · exact (ih member).imp_right fun ⟨u, later, here⟩ => ⟨u, List.mem_cons_of_mem _ later, here⟩

/-- A text is split at its last separator in one way only. -/
theorem append_sep_inj {s t p q : List Char} (plain : sep ∉ p) (plain' : sep ∉ q)
    (same : s ++ sep :: p = t ++ sep :: q) : s = t ∧ p = q := by
  rcases List.append_eq_append_iff.mp same with ⟨between, rfl, behind⟩ | ⟨between, rfl, behind⟩
  · cases between with
    | nil => exact ⟨(List.append_nil s).symm, (List.cons.inj behind).2⟩
    | cons c between =>
      have member : sep ∈ p := by
        rw [(List.cons.inj behind).2]
        exact List.mem_append_right between List.mem_cons_self
      exact absurd member plain
  · cases between with
    | nil => exact ⟨List.append_nil t, (List.cons.inj behind).2.symm⟩
    | cons c between =>
      have member : sep ∈ q := by
        rw [(List.cons.inj behind).2]
        exact List.mem_append_right between List.mem_cons_self
      exact absurd member plain'

variable [DecidableEq Char]

theorem mem_of_mem_segment {path s : List Char} {c : Char} (segment : s ∈ path.splitOn sep)
    (member : c ∈ s) : c ∈ path := by
  obtain ⟨l, r, split⟩ := List.append_of_mem segment
  have start : s <:+: path := by
    rw [← @List.intercalate_splitOn _ path _ _ sep, split]
    cases l with
    | nil => exact (prefix_intercalate s r).isInfix
    | cons t l =>
      rw [intercalate_append (List.cons_ne_nil t l) (List.cons_ne_nil s r)]
      exact ((prefix_intercalate s r).isInfix.trans (List.suffix_cons sep _).isInfix).trans
        (List.suffix_append _ _).isInfix
  exact start.subset member

theorem not_mem_segment {path s : List Char} (segment : s ∈ path.splitOn sep) : sep ∉ s := by
  induction path generalizing s with
  | nil => simp_all
  | cons c path ih =>
    rw [List.splitOn_cons_eq_if_modifyHead] at segment
    split at segment
    · rcases List.mem_cons.mp segment with rfl | segment
      · exact List.not_mem_nil
      · exact ih segment
    next other =>
      cases split : path.splitOn sep with
      | nil => exact absurd split (List.splitOn_ne_nil sep path)
      | cons t rest =>
        rw [split] at segment ih
        rcases List.mem_cons.mp segment with rfl | segment
        · have differ : sep ≠ c := fun same => other (by simp [same])
          simpa [differ] using ih List.mem_cons_self
        · exact ih (List.mem_cons_of_mem t segment)

/-- A text without separators at the start of a path is one at the start of its first segment. -/
theorem prefix_head {p path : List Char} (plain : sep ∉ p) (start : p <+: path) :
    ∃ s rest, path.splitOn sep = s :: rest ∧ p <+: s := by
  obtain ⟨rest, rfl⟩ := start
  cases split : rest.splitOn sep with
  | nil => exact absurd split (List.splitOn_ne_nil sep rest)
  | cons s others =>
    refine ⟨p ++ s, others, ?_, List.prefix_append p s⟩
    induction p with
    | nil => exact split
    | cons c p ih =>
      have other : (c == sep) = false :=
        beq_eq_false_iff_ne.mpr fun same => plain (same ▸ List.mem_cons_self)
      rw [List.cons_append, List.splitOn_cons_eq_if_modifyHead, other,
        ih fun member => plain (List.mem_cons_of_mem c member)]
      rfl

/-- A text without separators at the end of a path is one at the end of its last segment. -/
theorem suffix_last {p path : List Char} (plain : sep ∉ p) (finish : p <:+ path) :
    ∃ rest s, path.splitOn sep = rest ++ [s] ∧ p <:+ s := by
  obtain ⟨start, rfl⟩ := finish
  have nonempty := List.splitOn_ne_nil sep start
  refine ⟨(start.splitOn sep).dropLast, (start.splitOn sep).getLast nonempty ++ p, ?_,
    List.suffix_append _ _⟩
  have last : sep ∉ (start.splitOn sep).getLast nonempty ++ p := fun member =>
    (List.mem_append.mp member).elim (not_mem_segment (List.getLast_mem nonempty)) plain
  have path : start ++ p = [sep].intercalate ((start.splitOn sep).dropLast ++
      [(start.splitOn sep).getLast nonempty ++ p]) := by
    conv_lhs => rw [← @List.intercalate_splitOn _ start _ _ sep,
      ← List.dropLast_append_getLast nonempty]
    by_cases only : (start.splitOn sep).dropLast = []
    · simp [only]
    · rw [intercalate_append only (List.cons_ne_nil _ _),
        intercalate_append only (List.cons_ne_nil _ _)]
      simp
  rw [path, List.splitOn_intercalate]
  · intro s member
    rcases List.mem_append.mp member with member | member
    · exact not_mem_segment (List.mem_of_mem_dropLast member)
    · exact List.mem_singleton.mp member ▸ last
  · simp

theorem sep_cons_infix_iff {p path : List Char} (plain : sep ∉ p) :
    sep :: p <:+: path ↔ ∃ s ∈ (path.splitOn sep).tail, p <+: s := by
  constructor
  · rintro ⟨start, finish, rfl⟩
    obtain ⟨s, rest, split, within⟩ := prefix_head plain (List.prefix_append p finish)
    refine ⟨s, ?_, within⟩
    rw [List.append_assoc, List.cons_append, List.splitOn_append_cons_self, split,
      List.tail_append_of_ne_nil (List.splitOn_ne_nil sep start)]
    simp
  · rintro ⟨s, later, within⟩
    cases split : path.splitOn sep with
    | nil => exact absurd split (List.splitOn_ne_nil sep path)
    | cons t rest =>
      rw [split] at later
      obtain ⟨l, r, rfl⟩ := List.append_of_mem later
      rw [← @List.intercalate_splitOn _ path _ _ sep, split, ← List.cons_append,
        intercalate_append (List.cons_ne_nil t l) (List.cons_ne_nil s r)]
      exact (List.prefix_cons_inj sep |>.mpr (within.trans (prefix_intercalate s r))).isInfix.trans
        (List.suffix_append _ _).isInfix

theorem append_sep_infix_iff {p path : List Char} (plain : sep ∉ p) :
    p ++ [sep] <:+: path ↔ ∃ s ∈ (path.splitOn sep).dropLast, p <:+ s := by
  constructor
  · rintro ⟨start, finish, rfl⟩
    obtain ⟨rest, s, split, within⟩ := suffix_last plain (List.suffix_append start p)
    refine ⟨s, ?_, within⟩
    have nonempty := List.splitOn_ne_nil sep finish
    rw [show start ++ (p ++ [sep]) ++ finish = start ++ p ++ sep :: finish by simp,
      List.splitOn_append_cons_self, split, List.dropLast_append_of_ne_nil nonempty]
    simp
  · rintro ⟨s, earlier, within⟩
    obtain ⟨l, r, split⟩ := List.append_of_mem earlier
    have nonempty := List.splitOn_ne_nil sep path
    have path_eq := @List.intercalate_splitOn _ path _ _ sep
    rw [← List.dropLast_append_getLast nonempty, split,
      show l ++ s :: r ++ [(path.splitOn sep).getLast nonempty] =
        (l ++ [s]) ++ (r ++ [(path.splitOn sep).getLast nonempty]) by simp,
      intercalate_append (by simp) (by simp)] at path_eq
    obtain ⟨before, whole⟩ := within.trans (@suffix_intercalate _ sep l s)
    refine ⟨before, [sep].intercalate (r ++ [(path.splitOn sep).getLast nonempty]), ?_⟩
    rw [← whole] at path_eq
    simpa using path_eq

/-- A separator at the start leaves an empty segment that is not the last. -/
theorem nil_mem_of_head {path : List Char} (absolute : path.head? = some sep) :
    [] ∈ (path.splitOn sep).dropLast := by
  obtain ⟨rest, rfl⟩ := List.head?_eq_some_iff.mp absolute
  rw [List.splitOn_cons_eq_if_modifyHead, if_pos (beq_self_eq_true sep),
    List.dropLast_cons_of_ne_nil (List.splitOn_ne_nil sep rest)]
  exact List.mem_cons_self

/-- Two separators in a row leave an empty segment between them. -/
theorem nil_mem_of_double {path : List Char} (double : [sep, sep] <:+: path) :
    [] ∈ (path.splitOn sep).dropLast := by
  obtain ⟨start, finish, rfl⟩ := double
  rw [show start ++ [sep, sep] ++ finish = start ++ sep :: sep :: finish by simp,
    List.splitOn_append_cons_self, List.splitOn_cons_eq_if_modifyHead (a := sep) sep,
    if_pos (beq_self_eq_true sep), List.dropLast_append_of_ne_nil (List.cons_ne_nil _ _),
    List.dropLast_cons_of_ne_nil (List.splitOn_ne_nil sep finish)]
  simp

/-- A separator at the end leaves an empty last segment. -/
theorem splitOn_of_trailing {path : List Char} (trailing : path.getLast? = some sep) :
    ∃ rest, path.splitOn sep = rest ++ [[]] := by
  obtain ⟨front, rfl⟩ := List.getLast?_eq_some_iff.mp trailing
  exact ⟨front.splitOn sep, by rw [List.splitOn_append_cons_self, List.splitOn_nil]⟩

end Segments

/-! ### Normalisation -/

section Normalisation

variable {Char : Type} [DecidableEq Char] (sep dot : Char)

/-- A segment after a stack of segments, the last on top; `above` keeps a `..` that has
nothing to remove. -/
def push (above : Bool) (stack : List (List Char)) (segment : List Char) : List (List Char) :=
  if segment = [] ∨ segment = [dot] then stack
  else if segment = [dot, dot] then
    match stack with
    | [] => if above then [segment] else []
    | top :: rest =>
      if top ≠ [dot, dot] then rest
      else if above then segment :: stack else stack
  else segment :: stack

def resolve (above : Bool) (segments : List (List Char)) : List (List Char) :=
  (segments.foldl (push dot above) []).reverse

def normalize (path : List Char) : List Char :=
  if path = [] then [dot]
  else
    let absolute : Bool := path.head? = some sep
    let trailing : Bool := path.getLast? = some sep
    let body := [sep].intercalate (resolve dot (!absolute) (path.splitOn sep))
    if body = [] then
      if absolute then [sep] else if trailing then [dot, sep] else [dot]
    else (if absolute then [sep] else []) ++ body ++ if trailing then [sep] else []

/-- The segments that say something. -/
def kept (path : List Char) : List (List Char) :=
  (path.splitOn sep).filter fun s => s ≠ [] ∧ s ≠ [dot]

variable {sep dot}

theorem resolve_plain {above : Bool} {segments : List (List Char)}
    (plain : [dot, dot] ∉ segments) :
    resolve dot above segments = segments.filter fun s => s ≠ [] ∧ s ≠ [dot] := by
  -- generalised over the stack the fold has reached
  have run : ∀ stack, segments.foldl (push dot above) stack =
      (segments.filter fun s => s ≠ [] ∧ s ≠ [dot]).reverse ++ stack := by
    induction segments with
    | nil => intro stack; rfl
    | cons s segments ih =>
      intro stack
      have rest := ih fun member => plain (List.mem_cons_of_mem s member)
      have other : s ≠ [dot, dot] := fun same => plain (same ▸ List.mem_cons_self)
      by_cases dropped : s = [] ∨ s = [dot]
      · rw [List.foldl_cons, push.eq_def, if_pos dropped, rest,
          List.filter_cons_of_neg (by simp; tauto)]
      · rw [List.foldl_cons, push.eq_def, if_neg dropped, if_neg other, rest,
          List.filter_cons_of_pos (by simpa [not_or] using dropped)]
        simp
  rw [resolve, run, List.append_nil, List.reverse_reverse]

theorem kept_ne_nil {path s : List Char} (member : s ∈ kept sep dot path) : s ≠ [] :=
  (of_decide_eq_true (List.mem_filter.mp member).2).1

theorem kept_subset (path : List Char) : kept sep dot path ⊆ path.splitOn sep :=
  fun _ member => (List.mem_filter.mp member).1

theorem body_eq_nil_iff {path : List Char} :
    [sep].intercalate (kept sep dot path) = [] ↔ kept sep dot path = [] := by
  constructor
  · intro empty
    cases split : kept sep dot path with
    | nil => rfl
    | cons s rest =>
      rw [split] at empty
      have member : s ∈ kept sep dot path := split ▸ List.mem_cons_self
      exact absurd (List.prefix_nil.mp (empty ▸ prefix_intercalate s rest)) (kept_ne_nil member)
  · rintro empty
    rw [empty]
    rfl

/-- A relative path without `..` loses its empty and `.` segments, and nothing else. -/
theorem normalize_relative {path : List Char} (relative : path.head? ≠ some sep)
    (plain : [dot, dot] ∉ path.splitOn sep) :
    normalize sep dot path =
      (if kept sep dot path = [] then [dot] else [sep].intercalate (kept sep dot path)) ++
        if path.getLast? = some sep then [sep] else [] := by
  by_cases empty : path = []
  · subst empty
    rfl
  · have resolved : resolve dot true (path.splitOn sep) = kept sep dot path := resolve_plain plain
    rw [normalize, if_neg empty]
    simp only [relative, decide_false, Bool.not_false, resolved]
    change (if [sep].intercalate (kept sep dot path) = [] then _ else
      _ ++ [sep].intercalate (kept sep dot path) ++ _) = _
    by_cases nothing : kept sep dot path = []
    · rw [if_pos (body_eq_nil_iff.mpr nothing), if_pos nothing]
      by_cases trailing : path.getLast? = some sep <;> simp [trailing]
    · rw [if_neg (mt body_eq_nil_iff.mp nothing), if_neg nothing]
      by_cases trailing : path.getLast? = some sep <;> simp [trailing]

/-- Normalising adds no characters of its own but the two it knows. -/
theorem mem_normalize {path : List Char} {c : Char} (relative : path.head? ≠ some sep)
    (plain : [dot, dot] ∉ path.splitOn sep) (member : c ∈ normalize sep dot path) :
    c ∈ path ∨ c = sep ∨ c = dot := by
  rw [normalize_relative relative plain] at member
  rcases List.mem_append.mp member with member | member
  · split at member
    · exact Or.inr (Or.inr (List.mem_singleton.mp member))
    · rcases mem_intercalate member with same | ⟨s, segment, here⟩
      · exact Or.inr (Or.inl same)
      · exact Or.inl (mem_of_mem_segment (kept_subset path segment) here)
  · split at member
    · exact Or.inr (Or.inl (List.mem_singleton.mp member))
    · exact absurd member List.not_mem_nil

/-- A path whose segments all say something stays as it is. -/
theorem normalize_eq_self {path : List Char}
    (telling : ∀ s ∈ path.splitOn sep, s ≠ [] ∧ s ≠ [dot] ∧ s ≠ [dot, dot]) :
    normalize sep dot path = path := by
  have all : kept sep dot path = path.splitOn sep :=
    List.filter_eq_self.mpr fun s member => by simp [telling s member]
  have relative : path.head? ≠ some sep := fun absolute =>
    (telling [] (List.mem_of_mem_dropLast (nil_mem_of_head absolute))).1 rfl
  have ends : path.getLast? ≠ some sep := by
    intro trailing
    obtain ⟨rest, last⟩ := splitOn_of_trailing trailing
    exact (telling [] (by simp [last])).1 rfl
  rw [normalize_relative relative fun member => (telling _ member).2.2 rfl, all,
    if_neg (List.splitOn_ne_nil sep path), if_neg ends, List.append_nil, List.intercalate_splitOn]

variable (distinct : sep ≠ dot)
include distinct

/-- The segments of a normalised path. -/
theorem splitOn_normalize {path : List Char} (relative : path.head? ≠ some sep)
    (plain : [dot, dot] ∉ path.splitOn sep) :
    (normalize sep dot path).splitOn sep =
      (if kept sep dot path = [] then [[dot]] else kept sep dot path) ++
        if path.getLast? = some sep then [[]] else [] := by
  have body : (if kept sep dot path = [] then [dot] else
      [sep].intercalate (kept sep dot path)).splitOn sep =
      if kept sep dot path = [] then [[dot]] else kept sep dot path := by
    split
    · exact List.splitOn_eq_singleton (by simpa using distinct)
    next something =>
      exact List.splitOn_intercalate sep
        (fun s member => not_mem_segment (kept_subset path member)) something
  rw [normalize_relative relative plain]
  by_cases trailing : path.getLast? = some sep
  · rw [if_pos trailing, if_pos trailing, List.splitOn_append_cons_self, body, List.splitOn_nil]
  · rw [if_neg trailing, if_neg trailing, List.append_nil, List.append_nil, body]

/-- Each segment of a normalised path is one of the path, or a `.` alone, or the empty one
behind a separator at the end. -/
theorem mem_splitOn_normalize {path s : List Char} (relative : path.head? ≠ some sep)
    (plain : [dot, dot] ∉ path.splitOn sep) (member : s ∈ (normalize sep dot path).splitOn sep) :
    s ∈ path.splitOn sep ∨ s = [dot] ∨ s = [] := by
  rw [splitOn_normalize distinct relative plain] at member
  rcases List.mem_append.mp member with member | member
  · split at member
    · exact Or.inr (Or.inl (List.mem_singleton.mp member))
    · exact Or.inl (kept_subset path member)
  · split at member
    · exact Or.inr (Or.inr (List.mem_singleton.mp member))
    · exact absurd member List.not_mem_nil

theorem plain_normalize {path : List Char} (relative : path.head? ≠ some sep)
    (plain : [dot, dot] ∉ path.splitOn sep) :
    [dot, dot] ∉ (normalize sep dot path).splitOn sep := by
  intro member
  rcases mem_splitOn_normalize distinct relative plain member with member | same | same
  · exact plain member
  · simp at same
  · simp at same

/-- Only the last segment of a normalised path may be empty. -/
theorem ne_nil_of_mem_dropLast {path s : List Char} (relative : path.head? ≠ some sep)
    (plain : [dot, dot] ∉ path.splitOn sep)
    (member : s ∈ ((normalize sep dot path).splitOn sep).dropLast) : s ≠ [] := by
  have front : s ∈ if kept sep dot path = [] then [[dot]] else kept sep dot path := by
    rw [splitOn_normalize distinct relative plain] at member
    by_cases trailing : path.getLast? = some sep
    · rwa [if_pos trailing, List.dropLast_concat] at member
    · rw [if_neg trailing, List.append_nil] at member
      exact List.mem_of_mem_dropLast member
  split at front
  · simp_all
  · exact kept_ne_nil front

omit distinct in
theorem normalize_ne_nil {path : List Char} (relative : path.head? ≠ some sep)
    (plain : [dot, dot] ∉ path.splitOn sep) : normalize sep dot path ≠ [] := by
  rw [normalize_relative relative plain]
  split
  · simp
  next something =>
    exact List.append_ne_nil_of_left_ne_nil (mt body_eq_nil_iff.mp something) _

theorem relative_normalize {path : List Char} (relative : path.head? ≠ some sep)
    (plain : [dot, dot] ∉ path.splitOn sep) : (normalize sep dot path).head? ≠ some sep :=
  fun absolute => ne_nil_of_mem_dropLast distinct relative plain (nil_mem_of_head absolute) rfl

/-- No two separators follow each other. -/
theorem not_sep_sep_infix {path : List Char} (relative : path.head? ≠ some sep)
    (plain : [dot, dot] ∉ path.splitOn sep) : ¬ [sep, sep] <:+: normalize sep dot path :=
  fun double => ne_nil_of_mem_dropLast distinct relative plain (nil_mem_of_double double) rfl

private theorem trailing_normalize {path : List Char} (relative : path.head? ≠ some sep)
    (plain : [dot, dot] ∉ path.splitOn sep) :
    (normalize sep dot path).getLast? = some sep ↔ path.getLast? = some sep := by
  constructor
  · intro trailing
    obtain ⟨rest, last⟩ := splitOn_of_trailing trailing
    have split := splitOn_normalize distinct relative plain
    rw [last] at split
    by_contra other
    rw [if_neg other, List.append_nil] at split
    have member : [] ∈ if kept sep dot path = [] then [[dot]] else kept sep dot path := by
      rw [← split]
      simp
    split at member
    · simp at member
    · exact kept_ne_nil member rfl
  · intro trailing
    rw [normalize_relative relative plain, if_pos trailing]
    simp

private theorem kept_normalize {path : List Char} (relative : path.head? ≠ some sep)
    (plain : [dot, dot] ∉ path.splitOn sep) :
    kept sep dot (normalize sep dot path) = kept sep dot path := by
  rw [kept, splitOn_normalize distinct relative plain, List.filter_append]
  have ends : (if path.getLast? = some sep then [([] : List Char)] else []).filter
      (fun s => s ≠ [] ∧ s ≠ [dot]) = [] := by
    split <;> simp
  rw [ends, List.append_nil]
  split
  next nothing => simp [nothing]
  · exact List.filter_eq_self.mpr fun s member => (List.mem_filter.mp member).2

/-- Normalising again changes nothing. -/
theorem normalize_normalize {path : List Char} (relative : path.head? ≠ some sep)
    (plain : [dot, dot] ∉ path.splitOn sep) :
    normalize sep dot (normalize sep dot path) = normalize sep dot path := by
  rw [normalize_relative (relative_normalize distinct relative plain)
      (plain_normalize distinct relative plain),
    kept_normalize distinct relative plain,
    if_congr (trailing_normalize distinct relative plain) rfl rfl,
    ← normalize_relative relative plain]

omit [DecidableEq Char] distinct in
private theorem tail_filter_subset (p : List Char → Bool) (segments : List (List Char)) :
    (segments.filter p).tail ⊆ segments.tail := by
  cases segments with
  | nil => exact List.Subset.refl _
  | cons s segments =>
    by_cases stays : p s
    · rw [List.filter_cons_of_pos stays]
      exact fun t member => (List.mem_filter.mp member).1
    · rw [List.filter_cons_of_neg stays]
      exact fun t member => (List.mem_filter.mp (List.mem_of_mem_tail member)).1

/-- A segment behind another in a normalised path is behind another in the path. -/
theorem mem_tail_normalize {path s : List Char} (relative : path.head? ≠ some sep)
    (plain : [dot, dot] ∉ path.splitOn sep)
    (later : s ∈ ((normalize sep dot path).splitOn sep).tail) :
    s ∈ (path.splitOn sep).tail ∨ s = [] := by
  have last : ∀ t ∈ if path.getLast? = some sep then [([] : List Char)] else [], t = [] := by
    intro t member
    split at member
    · exact List.mem_singleton.mp member
    · exact absurd member List.not_mem_nil
  rw [splitOn_normalize distinct relative plain] at later
  split at later
  · exact Or.inr (last s later)
  next something =>
    rw [List.tail_append_of_ne_nil something] at later
    rcases List.mem_append.mp later with later | later
    · exact Or.inl (tail_filter_subset _ _ later)
    · exact Or.inr (last s later)

/-- A segment before another in a normalised path is before another in the path. -/
theorem mem_dropLast_normalize {path s : List Char} (relative : path.head? ≠ some sep)
    (plain : [dot, dot] ∉ path.splitOn sep)
    (earlier : s ∈ ((normalize sep dot path).splitOn sep).dropLast) :
    s ∈ (path.splitOn sep).dropLast ∨ s = [dot] := by
  have real := ne_nil_of_mem_dropLast distinct relative plain earlier
  rw [splitOn_normalize distinct relative plain] at earlier
  by_cases trailing : path.getLast? = some sep
  · -- the empty segment at the end of the path is the only one behind
    obtain ⟨rest, last⟩ := splitOn_of_trailing trailing
    rw [if_pos trailing, List.dropLast_concat] at earlier
    split at earlier
    · exact Or.inr (List.mem_singleton.mp earlier)
    · have member := kept_subset path earlier
      rw [last] at member ⊢
      rw [List.dropLast_concat]
      exact Or.inl ((List.mem_append.mp member).resolve_right (by simpa using real))
  · rw [if_neg trailing, List.append_nil] at earlier
    split at earlier
    · simp at earlier
    · refine Or.inl (List.mem_reverse.mp ?_)
      rw [← List.tail_reverse]
      refine tail_filter_subset (fun s => s ≠ [] ∧ s ≠ [dot]) _ ?_
      rw [List.filter_reverse, List.tail_reverse]
      exact List.mem_reverse.mpr earlier

end Normalisation

end Path
