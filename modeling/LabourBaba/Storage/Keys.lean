import LabourBaba.Text.Paths
import LabourBaba.Text.Percent

/-!
# Object keys

`normalizeObjectKey` makes the key of an object out of a URL or a key: it takes the path of
a URL, strips the route, decodes it, removes NULs, turns backslashes round, strips leading
slashes and normalises what is left, refusing anything with a `..` in it. Of the URL parser
it is only known that it gives some path or fails (`pathname`).

What comes out is `Clean`, and comes out again if put in (`normalizeObjectKey_idem`): it has
no `//`, so it is not taken for a URL; normalising only drops segments, so it passes the
checks its origin passed.
-/
namespace LabourBaba.Storage

open Utf16

/-! ### The functions of the service -/

def slash : CodeUnit := 47

def dot : CodeUnit := 46

def backslash : CodeUnit := 92

def nul : CodeUnit := 0

/-- The path of a URL behind the route that serves it. -/
def withoutRoute (pathname : Text) : Text :=
  if lit "download/" <+: pathname then pathname.drop (lit "download/").length
  else if lit "upload/" <+: pathname then pathname.drop (lit "upload/").length
  else if lit "api/storage/download/" <+: pathname then
    pathname.drop (lit "api/storage/download/").length
  else if lit "api/storage/upload/" <+: pathname then
    pathname.drop (lit "api/storage/upload/").length
  else pathname

/-- NULs stripped, backslashes turned round, leading slashes stripped. -/
def sanitized (raw : Text) : Text :=
  ((raw.filter (· ≠ nul)).map fun c => if c = backslash then slash else c).dropWhile (· = slash)

/-- The check for traversal, on the text before and after normalising it. -/
def Traverses (raw normalized : Text) : Prop :=
  lit "/.." <:+: raw ∨ lit "../" <:+: raw ∨ raw = lit ".." ∨ normalized = lit ".." ∨
    lit "../" <+: normalized ∨ lit "/../" <:+: normalized

instance (raw normalized : Text) : Decidable (Traverses raw normalized) :=
  inferInstanceAs (Decidable (_ ∨ _ ∨ _ ∨ _ ∨ _ ∨ _))

section Service

variable (pathname : Text → Option Text)

/-- The key a URL names, or the text itself if it is no URL that can be read. -/
def rawKey (urlOrKey : Text) : Text :=
  if lit "http://" <+: urlOrKey ∨ lit "https://" <+: urlOrKey then
    match pathname urlOrKey with
    | none => urlOrKey
    | some path => (decodeURIComponent (withoutRoute (path.dropWhile (· = slash)))).getD urlOrKey
  else urlOrKey

def normalizeObjectKey (urlOrKey : Text) : Except String Text :=
  if urlOrKey = [] then .ok []
  else
    let raw := sanitized (rawKey pathname urlOrKey)
    let normalized := Path.normalize slash dot raw
    if Traverses raw normalized then
      .error "Directory traversal attempt detected in storage key"
    else .ok normalized

end Service

/-! ### What comes out -/

theorem slash_ne_dot : slash ≠ dot := by decide

structure Clean (key : Text) : Prop where
  noTraversal : lit ".." ∉ key.splitOn slash
  relative : key.head? ≠ some slash
  noBackslash : backslash ∉ key
  noNul : nul ∉ key

/-- A sanitised text that passed the check. -/
structure Checked (raw : Text) : Prop where
  relative : raw.head? ≠ some slash
  noBackslash : backslash ∉ raw
  noNul : nul ∉ raw
  noneAfter : ¬ lit "/.." <:+: raw
  noneBefore : ¬ lit "../" <:+: raw
  notParent : raw ≠ lit ".."

theorem relative_sanitized (raw : Text) : (sanitized raw).head? ≠ some slash := by
  intro absolute
  have kept := List.head?_dropWhile_not (fun c : CodeUnit => decide (c = slash))
    ((raw.filter (· ≠ nul)).map fun c => if c = backslash then slash else c)
  unfold sanitized at absolute
  rw [absolute] at kept
  simp at kept

theorem mem_sanitized {raw : Text} {c : CodeUnit} (member : c ∈ sanitized raw) :
    c ≠ nul ∧ c ≠ backslash := by
  obtain ⟨d, among, rfl⟩ := List.mem_map.mp ((List.dropWhile_suffix _).subset member)
  have real : d ≠ nul := by simpa using (List.mem_filter.mp among).2
  split
  · exact ⟨by decide, by decide⟩
  next other => exact ⟨real, other⟩

theorem sanitized_eq_self {raw : Text} (relative : raw.head? ≠ some slash)
    (noBackslash : backslash ∉ raw) (noNul : nul ∉ raw) : sanitized raw = raw := by
  have filtered : raw.filter (· ≠ nul) = raw := by
    refine List.filter_eq_self.mpr fun c member => decide_eq_true ?_
    rintro rfl
    exact noNul member
  have turned : raw.map (fun c => if c = backslash then slash else c) = raw := by
    refine (List.map_congr_left fun c member => if_neg ?_).trans (List.map_id' raw)
    rintro rfl
    exact noBackslash member
  rw [sanitized, filtered, turned]
  cases raw with
  | nil => rfl
  | cons c rest =>
    have other : c ≠ slash := fun same => relative (congrArg some same)
    rw [List.dropWhile_cons_of_neg (by simpa using other)]

theorem Checked.plain {raw : Text} (checked : Checked raw) :
    [dot, dot] ∉ raw.splitOn slash := by
  intro member
  have noSlash : slash ∉ [dot, dot] := by decide
  obtain ⟨l, r, split⟩ := List.append_of_mem member
  -- a `..` has a segment in front of it, or one behind it, or is the whole text
  cases l with
  | cons s l =>
    refine checked.noneAfter
      ((Path.sep_cons_infix_iff noSlash).mpr ⟨[dot, dot], ?_, List.prefix_rfl⟩)
    simp [split]
  | nil =>
    cases r with
    | cons s r =>
      refine checked.noneBefore
        ((Path.append_sep_infix_iff noSlash).mpr ⟨[dot, dot], ?_, List.suffix_rfl⟩)
      simp [split]
    | nil =>
      refine checked.notParent ?_
      rw [← @List.intercalate_splitOn _ raw _ _ slash, split]
      rfl

theorem Checked.normalized {raw : Text} (checked : Checked raw) :
    Checked (Path.normalize slash dot raw) := by
  have noSlash : slash ∉ [dot, dot] := by decide
  have known : ∀ c ∈ Path.normalize slash dot raw, c ∈ raw ∨ c = slash ∨ c = dot :=
    fun c member => Path.mem_normalize checked.relative checked.plain member
  refine ⟨Path.relative_normalize slash_ne_dot checked.relative checked.plain,
    fun member => ?_, fun member => ?_, fun found => ?_, fun found => ?_, fun parent => ?_⟩
  · rcases known _ member with member | same | same
    · exact checked.noBackslash member
    · exact absurd same (by decide)
    · exact absurd same (by decide)
  · rcases known _ member with member | same | same
    · exact checked.noNul member
    · exact absurd same (by decide)
    · exact absurd same (by decide)
  · obtain ⟨s, later, within⟩ := (Path.sep_cons_infix_iff noSlash).mp found
    rcases Path.mem_tail_normalize slash_ne_dot checked.relative checked.plain later with
      later | rfl
    · exact checked.noneAfter ((Path.sep_cons_infix_iff noSlash).mpr ⟨s, later, within⟩)
    · exact absurd within (by decide)
  · obtain ⟨s, earlier, within⟩ := (Path.append_sep_infix_iff noSlash).mp found
    rcases Path.mem_dropLast_normalize slash_ne_dot checked.relative checked.plain earlier with
      earlier | rfl
    · exact checked.noneBefore ((Path.append_sep_infix_iff noSlash).mpr ⟨s, earlier, within⟩)
    · exact absurd within (by decide)
  · refine Path.plain_normalize slash_ne_dot checked.relative checked.plain ?_
    rw [parent]
    decide

theorem Checked.not_traverses {raw : Text} (checked : Checked raw) :
    ¬ Traverses raw (Path.normalize slash dot raw) := by
  have after := checked.normalized
  rintro (found | found | parent | parent | found | found)
  · exact checked.noneAfter found
  · exact checked.noneBefore found
  · exact checked.notParent parent
  · exact after.notParent parent
  · exact after.noneBefore found.isInfix
  · exact after.noneAfter (List.IsInfix.trans ⟨[], [slash], rfl⟩ found)

theorem Checked.clean {raw : Text} (checked : Checked raw) : Clean raw :=
  ⟨checked.plain, checked.relative, checked.noBackslash, checked.noNul⟩

section Service

variable {pathname : Text → Option Text}

/-- A key that comes out is that of the empty text, or the normal form of a text that passed
the check. -/
theorem normalizeObjectKey_ok {urlOrKey key : Text}
    (normal : normalizeObjectKey pathname urlOrKey = .ok key) :
    urlOrKey = [] ∧ key = [] ∨ ∃ raw, Checked raw ∧ key = Path.normalize slash dot raw := by
  unfold normalizeObjectKey at normal
  split at normal
  next empty => exact Or.inl ⟨empty, (Except.ok.inj normal).symm⟩
  · dsimp only at normal
    split at normal
    · cases normal
    next passed =>
      simp only [Traverses, not_or] at passed
      refine Or.inr ⟨_, ⟨relative_sanitized _, fun member => ?_, fun member => ?_, passed.1,
        passed.2.1, passed.2.2.1⟩, (Except.ok.inj normal).symm⟩
      · exact (mem_sanitized member).2 rfl
      · exact (mem_sanitized member).1 rfl

theorem rawKey_eq_self {key : Text} (noDouble : ¬ [slash, slash] <:+: key) :
    rawKey pathname key = key := by
  refine if_neg fun url => noDouble ?_
  rcases url with http | https
  · exact List.IsInfix.trans ⟨lit "http:", [], by decide⟩ http.isInfix
  · exact List.IsInfix.trans ⟨lit "https:", [], by decide⟩ https.isInfix

/-- A normal form that passes the check is the key of itself. -/
theorem normalizeObjectKey_normal {raw : Text} (checked : Checked raw) :
    normalizeObjectKey pathname (Path.normalize slash dot raw) =
      .ok (Path.normalize slash dot raw) := by
  have after := checked.normalized
  have same : rawKey pathname (Path.normalize slash dot raw) = Path.normalize slash dot raw :=
    rawKey_eq_self (Path.not_sep_sep_infix slash_ne_dot checked.relative checked.plain)
  have again := Path.normalize_normalize slash_ne_dot checked.relative checked.plain
  have passed := after.not_traverses
  rw [again] at passed
  rw [normalizeObjectKey, if_neg (Path.normalize_ne_nil checked.relative checked.plain)]
  simp only [same, sanitized_eq_self after.relative after.noBackslash after.noNul, again,
    if_neg passed]

theorem normalizeObjectKey_clean {urlOrKey key : Text}
    (normal : normalizeObjectKey pathname urlOrKey = .ok key) : Clean key := by
  rcases normalizeObjectKey_ok normal with ⟨-, rfl⟩ | ⟨raw, checked, rfl⟩
  · exact ⟨by decide, by decide, List.not_mem_nil, List.not_mem_nil⟩
  · exact checked.normalized.clean

theorem normalizeObjectKey_idem {urlOrKey key : Text}
    (normal : normalizeObjectKey pathname urlOrKey = .ok key) :
    normalizeObjectKey pathname key = .ok key := by
  rcases normalizeObjectKey_ok normal with ⟨-, rfl⟩ | ⟨raw, checked, rfl⟩
  · rfl
  · exact normalizeObjectKey_normal checked

/-- A segment that the check lets through wherever it stands. -/
structure Telling (s : Text) : Prop where
  real : s ≠ []
  noSlash : slash ∉ s
  noBackslash : backslash ∉ s
  noNul : nul ∉ s
  undotted : ¬ [dot] <+: s
  notBack : ¬ [dot, dot] <:+ s

/-- A character with no meaning in a path. -/
def isPlain (c : CodeUnit) : Bool := c ≠ slash && c ≠ backslash && c ≠ nul && c ≠ dot

theorem Telling.of_plain {s : Text} (real : s ≠ []) (plain : s.all isPlain = true) : Telling s := by
  have known := List.all_eq_true.mp plain
  have noDot : dot ∉ s := fun member => absurd (known dot member) (by decide)
  exact ⟨real, fun member => absurd (known _ member) (by decide),
    fun member => absurd (known _ member) (by decide),
    fun member => absurd (known _ member) (by decide),
    fun start => noDot (start.subset List.mem_cons_self),
    fun finish => noDot (finish.subset List.mem_cons_self)⟩

/-- A key made of such segments is the key of itself. -/
theorem normalizeObjectKey_segments {segments : List Text} (some_segment : segments ≠ [])
    (telling : ∀ s ∈ segments, Telling s) :
    normalizeObjectKey pathname ([slash].intercalate segments) =
      .ok ([slash].intercalate segments) := by
  have noSlash : slash ∉ [dot, dot] := by decide
  have split : ([slash].intercalate segments).splitOn slash = segments :=
    List.splitOn_intercalate slash (fun s member => (telling s member).noSlash) some_segment
  have same : Path.normalize slash dot ([slash].intercalate segments) =
      [slash].intercalate segments := by
    refine Path.normalize_eq_self fun s member => ?_
    have tells := telling s (split ▸ member)
    refine ⟨tells.real, ?_, ?_⟩
    · rintro rfl
      exact tells.undotted List.prefix_rfl
    · rintro rfl
      exact tells.notBack List.suffix_rfl
  -- each check on the whole key is a fact about one segment
  have checked : Checked ([slash].intercalate segments) := by
    refine ⟨fun absolute => ?_, fun member => ?_, fun member => ?_, fun found => ?_,
      fun found => ?_, fun parent => ?_⟩
    · have empty := List.mem_of_mem_dropLast (Path.nil_mem_of_head absolute)
      exact (telling [] (split ▸ empty)).real rfl
    · rcases Path.mem_intercalate member with same | ⟨s, segment, here⟩
      · exact absurd same (by decide)
      · exact (telling s segment).noBackslash here
    · rcases Path.mem_intercalate member with same | ⟨s, segment, here⟩
      · exact absurd same (by decide)
      · exact (telling s segment).noNul here
    · obtain ⟨s, later, within⟩ := (Path.sep_cons_infix_iff noSlash).mp found
      rw [split] at later
      exact (telling s (List.mem_of_mem_tail later)).undotted
        (List.IsPrefix.trans ⟨[dot], rfl⟩ within)
    · obtain ⟨s, earlier, within⟩ := (Path.append_sep_infix_iff noSlash).mp found
      rw [split] at earlier
      exact (telling s (List.mem_of_mem_dropLast earlier)).notBack within
    · rw [parent] at split
      have member : lit ".." ∈ segments := by
        rw [← split]
        decide
      exact (telling _ member).notBack List.suffix_rfl
  rw [← same]
  exact normalizeObjectKey_normal checked

end Service

end LabourBaba.Storage
