import LabourBaba.Text.Replace
import LabourBaba.Text.Utf16

/-!
# Redaction of texts

What `redactSensitiveData` does to a string: bearer tokens are replaced wherever they are, and
then, in a text with a question mark, the values of sensitive query parameters. A text comes out
as it was exactly if it has none of them (`redactText_eq_self_iff`): no replacement makes a new
bearer token, so that the second one cannot undo the first.

The patterns ignore case without the flag `u`, and so match no letter outside ASCII.
-/
namespace LabourBaba.Logging

open Utf16 Replace

def REDACTED_MASK : Text := lit "[REDACTED]"

/-- A letter with its case ignored. -/
def lowerUnit (c : CodeUnit) : CodeUnit :=
  if 65 ≤ c.toNat ∧ c.toNat ≤ 90 then UInt16.ofNat (c.toNat + 32) else c

/-! ### Bearer tokens -/

/-- `[A-Za-z0-9\-._~+/]` -/
def isTokenUnit (c : CodeUnit) : Bool :=
  decide (65 ≤ c.toNat ∧ c.toNat ≤ 90 ∨ 97 ≤ c.toNat ∧ c.toNat ≤ 122) || isDigit c ||
    (lit "-._~+/").contains c

/-- `/Bearer\s+[A-Za-z0-9\-._~+/]+=*/gi`, replaced by `Bearer [REDACTED]`. -/
def bearerToken : Pattern CodeUnit := fun s =>
  let spaces := (s.drop 6).takeWhile isWhiteSpace
  let token := (s.drop (6 + spaces.length)).takeWhile isTokenUnit
  let padding := (s.drop (6 + spaces.length + token.length)).takeWhile (lit "=").contains
  if (s.take 6).map lowerUnit = lit "bearer" ∧ spaces ≠ [] ∧ token ≠ [] then
    some (5 + spaces.length + token.length + padding.length, lit "Bearer " ++ REDACTED_MASK)
  else none

/-! ### Query parameters -/

def sensitiveParameters : List String :=
  ["x-amz-signature", "signature", "sig", "access_token", "token", "secret", "key"]

/-- What follows the separator of a parameter up to the next `=`. -/
def parameterName (s : Text) : Text := (s.drop 1).takeWhile fun c => !(lit "=").contains c

/-- What follows that `=` up to the next `&`. -/
def parameterValue (s : Text) : Text :=
  (s.drop (1 + (parameterName s).length + 1)).takeWhile fun c => !(lit "&").contains c

def sensitiveParameter (s : Text) : Bool :=
  (s.take 1).any (lit "?&").contains && 1 + (parameterName s).length < s.length &&
    decide ((parameterName s).map lowerUnit ∈ sensitiveParameters.map lit)

/-- `/([?&](?:x-amz-signature|signature|sig|access_token|token|secret|key)=)[^&]*/gi`, replaced by
`$1[REDACTED]`. -/
def queryParameter : Pattern CodeUnit := fun s =>
  if sensitiveParameter s then
    some ((parameterName s).length + 1 + (parameterValue s).length,
      s.take 1 ++ parameterName s ++ lit "=" ++ REDACTED_MASK)
  else none

/-! ### Texts -/

def redactText (data : Text) : Text :=
  let result := if found bearerToken data then replaceAll bearerToken data else data
  if result.any (lit "?").contains && found queryParameter result then
    replaceAll queryParameter result
  else result

/-- A sensitive parameter whose value is not the mask. -/
def unmaskedParameter : Pattern CodeUnit := fun s =>
  if parameterValue s = REDACTED_MASK then none else queryParameter s

/-- There is something in the text that the patterns replace by something else. -/
def recognized (s : Text) : Bool :=
  found bearerToken s || s.any (lit "?").contains && found unmaskedParameter s

/-! ### Where bearer tokens are -/

def letters : List (CodeUnit → Bool) := (lit "bearer").map fun l c => decide (lowerUnit c = l)

/-- The kinds of the code units of a bearer token, up to the first one of the token. -/
def bearerKinds (spaces : ℕ) : List (CodeUnit → Bool) :=
  letters ++ (List.replicate (spaces + 1) isWhiteSpace ++ [isTokenUnit])

theorem isTokenUnit_of_isWhiteSpace {c : CodeUnit} (white : isWhiteSpace c = true) :
    isTokenUnit c = false := by
  refine Bool.eq_false_iff.mpr fun token => ?_
  have visible : 43 ≤ c.toNat ∧ c.toNat ≤ 126 := by
    simp only [isTokenUnit, Bool.or_eq_true, decide_eq_true_eq, List.contains_iff_mem] at token
    rcases token with (letter | isDig) | symbol
    · omega
    · have bounds : 48 ≤ c.toNat ∧ c.toNat ≤ 57 := of_decide_eq_true isDig
      omega
    · have symbols : (lit "-._~+/").all (fun c => decide (43 ≤ c.toNat ∧ c.toNat ≤ 126)) = true := by
        decide
      exact of_decide_eq_true (List.all_eq_true.mp symbols c symbol)
  simp only [isWhiteSpace, List.mem_cons, List.not_mem_nil, or_false, decide_eq_true_eq] at white
  omega

theorem bearerToken_isSome {s : Text} :
    (bearerToken s).isSome = true ↔ ∃ n, Spells (bearerKinds n) s := by
  have size : letters.length = 6 := rfl
  simp only [bearerKinds, spells_append, spells_replicate, spells_singleton, size,
    List.length_replicate, List.drop_drop]
  rw [letters, spells_word]
  unfold bearerToken
  simp only [Option.isSome_ite]
  constructor
  · rintro ⟨word, white, token⟩
    have one := List.length_pos_of_ne_nil white
    refine ⟨((s.drop 6).takeWhile isWhiteSpace).length - 1, word, by omega, ?_⟩
    rwa [Nat.sub_add_cancel one]
  · rintro ⟨n, word, white, token⟩
    -- a token begins with no white space, so that all of the white space comes before it
    have whole : ((s.drop 6).takeWhile isWhiteSpace).length = n + 1 := by
      refine Nat.le_antisymm (Nat.le_of_not_lt fun more => ?_) white
      have next : Spells (List.replicate (n + 1) isWhiteSpace ++ [isWhiteSpace]) (s.drop 6) := by
        rw [← List.replicate_succ']
        exact spells_replicate.mpr more
      have here := (spells_append.mp next).2
      rw [List.length_replicate, List.drop_drop] at here
      have both := spells_singleton.mpr token
      cases rest : s.drop (6 + (n + 1)) with
      | nil =>
        rw [rest] at both
        exact both
      | cons c rest' =>
        rw [rest] at both here
        have other := isTokenUnit_of_isWhiteSpace here.1
        rw [both.1] at other
        exact Bool.noConfusion other
    refine ⟨word, List.ne_nil_of_length_pos (by omega), ?_⟩
    rwa [whole]

theorem lowerUnit_bearerToken {c : CodeUnit} {rest : Text}
    (hit : (bearerToken (c :: rest)).isSome = true) : [lowerUnit c] = lit "b" := by
  obtain ⟨n, spells⟩ := bearerToken_isSome.mp hit
  have first : lowerUnit c = UInt16.ofNat 98 := of_decide_eq_true spells.1
  rw [first]
  rfl

theorem bearerToken_none {c : CodeUnit} (other : [lowerUnit c] ≠ lit "b") (rest : Text) :
    bearerToken (c :: rest) = none :=
  Option.not_isSome_iff_eq_none.mp fun hit => other (lowerUnit_bearerToken hit)

/-- What comes behind the first letter of a bearer token. -/
def laterKinds (spaces : ℕ) : List (CodeUnit → Bool) :=
  letters.tail ++ List.replicate (spaces + 1) isWhiteSpace

theorem bearerKinds_eq (n : ℕ) : bearerKinds n =
    (fun c => decide (lowerUnit c = UInt16.ofNat 98)) :: (laterKinds n ++ [isTokenUnit]) := by
  simp [bearerKinds, laterKinds, letters, lit]

/-- The letters behind the first one and the white space are none of these. -/
theorem laterKinds_reject {n : ℕ} {kind : CodeUnit → Bool} (member : kind ∈ laterKinds n) {c : CodeUnit}
    (outside : c ∈ lit "B?&") : kind c = false := by
  have rejected : (lit "B?&").all (fun c => letters.tail.all fun kind => !kind c) = true := by decide
  have dark : (lit "B?&").all (fun c => !isWhiteSpace c) = true := by decide
  rcases List.mem_append.mp member with letter | white
  · simpa using List.all_eq_true.mp (List.all_eq_true.mp rejected c outside) kind letter
  · obtain ⟨-, rfl⟩ := List.mem_replicate.mp white
    simpa using List.all_eq_true.mp dark c outside

/-- A replacement that begins with a `B`, or with a separator of parameters, makes no bearer token
of what comes before it. -/
theorem bearerToken_replaceAll {pattern : Pattern CodeUnit} {c : CodeUnit} {rest : Text}
    (first : ∀ {c rest more new}, pattern (c :: rest) = some (more, new) →
      ∃ d tail, new = d :: tail ∧ d ∈ lit "B?&" ∧ (isTokenUnit d = true → isTokenUnit c = true))
    (unmatched : bearerToken (c :: rest) = none) :
    bearerToken (c :: replaceAll pattern rest) = none := by
  refine Option.not_isSome_iff_eq_none.mp fun hit => ?_
  obtain ⟨n, spells⟩ := bearerToken_isSome.mp hit
  rw [bearerKinds_eq] at spells
  have before : Spells (laterKinds n ++ [isTokenUnit]) rest := by
    refine spells_of_replaceAll (fun hit => ?_) spells.2
    obtain ⟨d, tail, new, outside, token⟩ := first hit
    refine ⟨d, tail, new, fun kind after suffix holds => ?_⟩
    rcases suffix_concat suffix with ⟨rfl, rfl⟩ | later
    · exact ⟨rfl, token holds⟩
    · rw [laterKinds_reject later outside] at holds
      exact Bool.noConfusion holds
  have matched : (bearerToken (c :: rest)).isSome = true :=
    bearerToken_isSome.mpr ⟨n, bearerKinds_eq n ▸ ⟨spells.1, before⟩⟩
  rw [unmatched] at matched
  exact Bool.noConfusion matched

/-! ### Without bearer tokens -/

theorem mask_not_bearer (rest : Text) :
    bearerToken (lit "Bearer " ++ REDACTED_MASK ++ rest) = none := by
  refine Option.not_isSome_iff_eq_none.mp fun hit => ?_
  obtain ⟨n, spells⟩ := bearerToken_isSome.mp hit
  rw [bearerKinds, spells_append] at spells
  -- behind the space comes a bracket, which is neither a space nor part of a token
  have bracket : Spells (List.replicate (n + 1) isWhiteSpace ++ [isTokenUnit])
      (UInt16.ofNat 32 :: UInt16.ofNat 91 :: (lit "REDACTED]" ++ rest)) := spells.2
  rw [List.replicate_succ, List.cons_append] at bracket
  cases n with
  | zero => exact absurd bracket.2.1 (by decide)
  | succ n =>
    have dark : isWhiteSpace (UInt16.ofNat 91) = true := by
      have later := bracket.2
      rw [List.replicate_succ] at later
      exact later.1
    exact absurd dark (by decide)

theorem not_b {s : Text} (all : s.all (fun c => decide ([lowerUnit c] ≠ lit "b")) = true) :
    ∀ c ∈ s, ∀ rest, bearerToken (c :: rest) = none :=
  fun c member rest => bearerToken_none (of_decide_eq_true (List.all_eq_true.mp all c member)) rest

theorem bearerToken_new {s : Text} {more : ℕ} {new : Text}
    (hit : bearerToken s = some (more, new)) : new = lit "Bearer " ++ REDACTED_MASK := by
  unfold bearerToken at hit
  simp only [Option.ite_none_right_eq_some, Option.some.injEq, Prod.mk.injEq] at hit
  exact hit.2.2.symm

theorem isTokenUnit_of_b {c : CodeUnit} (small : [lowerUnit c] = lit "b") : isTokenUnit c = true := by
  unfold lowerUnit at small
  split at small
  next capital => simp [isTokenUnit, capital]
  next =>
    obtain rfl : c = UInt16.ofNat 98 := List.head_eq_of_cons_eq small
    decide

theorem bearer_replaced (s : Text) : found bearerToken (replaceAll bearerToken s) = false := by
  induction s using scan bearerToken with
  | nil => rfl
  | unmatched c rest unmatched ih =>
    rw [replaceAll_none unmatched, found_cons]
    refine ⟨bearerToken_replaceAll (fun {c rest more new} hit => ?_) unmatched, ih⟩
    exact ⟨UInt16.ofNat 66, lit "earer " ++ REDACTED_MASK, bearerToken_new hit, by decide,
      fun _ => isTokenUnit_of_b (lowerUnit_bearerToken (by rw [hit]; rfl))⟩
  | hit c rest more new hit ih =>
    have later : found bearerToken (lit "earer " ++ REDACTED_MASK ++ replaceAll bearerToken
        (rest.drop more)) = false := by
      rw [found_append (not_b (by decide))]
      exact ih
    rw [replaceAll_some hit, bearerToken_new hit]
    exact found_cons.mpr ⟨mask_not_bearer _, later⟩

/-! ### The values of parameters -/

theorem queryParameter_some {s : Text} {more : ℕ} {new : Text}
    (hit : queryParameter s = some (more, new)) :
    sensitiveParameter s = true ∧ more = (parameterName s).length + 1 + (parameterValue s).length ∧
      new = s.take 1 ++ parameterName s ++ lit "=" ++ REDACTED_MASK := by
  unfold queryParameter at hit
  simp only [Option.ite_none_right_eq_some, Option.some.injEq, Prod.mk.injEq] at hit
  exact ⟨hit.1, hit.2.1.symm, hit.2.2.symm⟩

theorem queryParameter_separator {c : CodeUnit} {rest : Text}
    (sensitive : sensitiveParameter (c :: rest) = true) : c ∈ lit "?&" := by
  simp only [sensitiveParameter, List.take_succ_cons, List.take_zero, List.any_cons, List.any_nil,
    Bool.or_false, Bool.and_eq_true, List.contains_iff_mem] at sensitive
  exact sensitive.1.1

/-- A sensitive name has none of these letters, in any case. -/
theorem parameterName_plain {s : Text} (sensitive : sensitiveParameter s = true) {c : CodeUnit}
    (member : c ∈ parameterName s) : [lowerUnit c] ≠ lit "b" ∧ c ∉ lit "?&" := by
  have among : lowerUnit c ∈ (parameterName s).map lowerUnit := List.mem_map_of_mem member
  simp only [sensitiveParameter, Bool.and_eq_true, decide_eq_true_eq] at sensitive
  obtain ⟨name, listed, same⟩ := List.mem_map.mp sensitive.2
  have plain : sensitiveParameters.all (fun name => (lit name).all fun c =>
      decide ([c] ≠ lit "b" ∧ c ∉ lit "?&")) = true := by decide
  rw [← same] at among
  have letter := of_decide_eq_true
    (List.all_eq_true.mp (List.all_eq_true.mp plain name listed) _ among)
  refine ⟨letter.1, fun separator => letter.2 ?_⟩
  -- a separator has no other case
  have fixed : (lit "?&").all (fun c => decide (lowerUnit c = c)) = true := by decide
  rwa [of_decide_eq_true (List.all_eq_true.mp fixed c separator)]

/-- A text is its first parameter and what comes behind it. -/
theorem parameter_append {c : CodeUnit} {rest : Text}
    (sensitive : sensitiveParameter (c :: rest) = true) :
    c :: rest = [c] ++ parameterName (c :: rest) ++ lit "=" ++ (parameterValue (c :: rest) ++
      rest.drop ((parameterName (c :: rest)).length + 1 + (parameterValue (c :: rest)).length)) := by
  have longer : (parameterName (c :: rest)).length < rest.length := by
    simp only [sensitiveParameter, Bool.and_eq_true, decide_eq_true_eq, List.length_cons] at sensitive
    omega
  have value : parameterValue (c :: rest) =
      (rest.drop ((parameterName (c :: rest)).length + 1)).takeWhile fun c =>
        !(lit "&").contains c := by
    rw [parameterValue, Nat.add_assoc, Nat.add_comm 1, List.drop_succ_cons]
  have halves : parameterName (c :: rest) ++ rest.dropWhile (fun c => !(lit "=").contains c) =
      rest := List.takeWhile_append_dropWhile
  have stops := List.head?_dropWhile_not (fun c => !(lit "=").contains c) rest
  generalize parameterName (c :: rest) = name at longer value halves
  rw [value]
  cases behind : rest.dropWhile fun c => !(lit "=").contains c with
  | nil =>
    rw [behind, List.append_nil] at halves
    rw [halves] at longer
    exact absurd longer (Nat.lt_irrefl _)
  | cons d tail =>
    obtain rfl : d = UInt16.ofNat 61 := by
      rw [behind] at stops
      simpa [lit] using stops
    rw [behind] at halves
    obtain rfl : name ++ UInt16.ofNat 61 :: tail = rest := halves
    have after : (name ++ UInt16.ofNat 61 :: tail).drop (name.length + 1) = tail := by simp
    have value := List.prefix_iff_eq_append.mp
      (List.takeWhile_prefix (l := tail) fun c => !(lit "&").contains c)
    rw [after, ← List.drop_drop, after, value]
    simp [lit]

theorem bearer_kept {s : Text} (unfound : found bearerToken s = false) :
    found bearerToken (replaceAll queryParameter s) = false := by
  induction s using scan queryParameter with
  | nil => rfl
  | unmatched c rest unmatched ih =>
    obtain ⟨first, later⟩ := found_cons.mp unfound
    rw [replaceAll_none unmatched, found_cons]
    refine ⟨bearerToken_replaceAll (fun {c rest more new} hit => ?_) first, ih later⟩
    obtain ⟨sensitive, -, rfl⟩ := queryParameter_some hit
    exact ⟨c, _, rfl, List.mem_cons_of_mem _ (queryParameter_separator sensitive), id⟩
  | hit c rest more new hit ih =>
    obtain ⟨sensitive, -, rfl⟩ := queryParameter_some hit
    have mask : found bearerToken (lit "=" ++ REDACTED_MASK ++ replaceAll queryParameter
        (rest.drop more)) = false := by
      rw [found_append (not_b (by decide))]
      exact ih (found_drop (more + 1) unfound)
    rw [replaceAll_some hit, List.append_assoc, List.append_assoc, List.append_assoc, found_append,
      found_append]
    · exact mask
    · exact fun d member => bearerToken_none (parameterName_plain sensitive member).1
    · have separators : (lit "?&").all (fun c => decide ([lowerUnit c] ≠ lit "b")) = true := by
        decide
      intro d member
      obtain rfl := List.mem_singleton.mp member
      exact not_b separators d (queryParameter_separator sensitive)

/-! ### Texts that stay -/

/-- What comes behind the first parameter of a text. -/
def afterParameter (s : Text) : Text :=
  s.drop ((parameterName s).length + 1 + (parameterValue s).length + 1)

/-- The value of a parameter ends where a parameter can begin. -/
theorem takeWhile_parameterValue {c : CodeUnit} {rest : Text}
    (sensitive : sensitiveParameter (c :: rest) = true) :
    (parameterValue (c :: rest) ++ afterParameter (c :: rest)).takeWhile
      (fun c => !(lit "&").contains c) = parameterValue (c :: rest) := by
  have whole := parameter_append sensitive
  have start : ([c] ++ parameterName (c :: rest) ++ lit "=").length =
      1 + (parameterName (c :: rest)).length + 1 := by simp [lit]; omega
  have behind := congrArg (List.drop (1 + (parameterName (c :: rest)).length + 1)) whole
  rw [← start, List.drop_left, start] at behind
  exact (congrArg (List.takeWhile _) behind).symm

theorem head_replaceAll (s : Text) : (replaceAll queryParameter s).head? = s.head? := by
  cases s with
  | nil => rfl
  | cons c rest =>
    cases hit : queryParameter (c :: rest) with
    | none => rw [replaceAll_none hit]; rfl
    | some m =>
      obtain ⟨more, new⟩ := m
      obtain ⟨-, -, rfl⟩ := queryParameter_some hit
      rw [replaceAll_some hit]
      rfl

theorem takeWhile_nil_of_head {α : Type} {p : α → Bool} {s t : List α} (head : s.head? = t.head?)
    (stops : t.takeWhile p = []) : s.takeWhile p = [] := by
  cases s with
  | nil => rfl
  | cons c s =>
    cases t with
    | nil => cases head
    | cons d t =>
      obtain rfl : c = d := Option.some.inj head
      cases holds : p c with
      | true => simp [holds] at stops
      | false => simp [holds]

/-- The mask takes the place of a value without a trace only if it was there before. -/
theorem masked_value {c : CodeUnit} {rest : Text} (sensitive : sensitiveParameter (c :: rest) = true) :
    REDACTED_MASK ++ replaceAll queryParameter (afterParameter (c :: rest)) =
        parameterValue (c :: rest) ++ afterParameter (c :: rest) ↔
      parameterValue (c :: rest) = REDACTED_MASK ∧
        replaceAll queryParameter (afterParameter (c :: rest)) = afterParameter (c :: rest) := by
  have own := takeWhile_parameterValue sensitive
  generalize parameterValue (c :: rest) = value at own ⊢
  generalize afterParameter (c :: rest) = after at own ⊢
  have plain : ∀ d ∈ value, (!(lit "&").contains d) = true :=
    fun d member => List.mem_takeWhile_imp (p := fun c => !(lit "&").contains c)
      (l := value ++ after) (own.symm ▸ member)
  have stops : after.takeWhile (fun c => !(lit "&").contains c) = [] := by
    rw [List.takeWhile_append_of_pos plain] at own
    simpa using own
  constructor
  · intro same
    have maskPlain : REDACTED_MASK.all (fun c => !(lit "&").contains c) = true := by decide
    have first := congrArg (List.takeWhile fun c => !(lit "&").contains c) same
    rw [own, List.takeWhile_append_of_pos (List.all_eq_true.mp maskPlain),
      takeWhile_nil_of_head (head_replaceAll after) stops, List.append_nil] at first
    subst first
    exact ⟨rfl, List.append_cancel_left same⟩
  · rintro ⟨rfl, kept⟩
    rw [kept]

theorem unmasked_none {c : CodeUnit} (plain : c ∉ lit "?&") (rest : Text) :
    unmaskedParameter (c :: rest) = none := by
  have unmatched : queryParameter (c :: rest) = none :=
    if_neg fun sensitive => plain (queryParameter_separator sensitive)
  rw [unmaskedParameter, unmatched, ite_self]

theorem unmasked_mask : ∀ c ∈ lit "=" ++ REDACTED_MASK, ∀ rest,
    unmaskedParameter (c :: rest) = none := by
  have plain : (lit "=" ++ REDACTED_MASK).all (fun c => decide (c ∉ lit "?&")) = true := by decide
  exact fun c member => unmasked_none (of_decide_eq_true (List.all_eq_true.mp plain c member))

theorem replaceAll_queryParameter_iff (s : Text) :
    replaceAll queryParameter s = s ↔ found unmaskedParameter s = false := by
  induction s using scan queryParameter with
  | nil => simp [replaceAll, replaceFrom, found]
  | unmatched c rest unmatched ih =>
    have none : unmaskedParameter (c :: rest) = none := by
      rw [unmaskedParameter, unmatched, ite_self]
    rw [replaceAll_none unmatched, found_cons, ← ih]
    simp [none]
  | hit c rest more new hit ih =>
    obtain ⟨sensitive, length, new⟩ := queryParameter_some hit
    have after : rest.drop more = afterParameter (c :: rest) := by rw [length]; rfl
    have whole := parameter_append sensitive
    rw [← length, after] at whole
    have split : replaceAll queryParameter (c :: rest) = c :: rest ↔
        REDACTED_MASK ++ replaceAll queryParameter (afterParameter (c :: rest)) =
          parameterValue (c :: rest) ++ afterParameter (c :: rest) := by
      rw [replaceAll_some hit, new, after, List.append_assoc]
      conv_lhs => rhs; rw [whole]
      exact List.append_right_inj _
    rw [split, masked_value sensitive, found_cons, ← after, ih]
    by_cases masked : parameterValue (c :: rest) = REDACTED_MASK
    · have first : unmaskedParameter (c :: rest) = none := if_pos masked
      have behind : rest = parameterName (c :: rest) ++ (lit "=" ++ REDACTED_MASK ++
          rest.drop more) := by
        have tail : rest = parameterName (c :: rest) ++ lit "=" ++
            (parameterValue (c :: rest) ++ afterParameter (c :: rest)) :=
          List.tail_eq_of_cons_eq whole
        rw [masked] at tail
        rw [after]
        simpa only [List.append_assoc] using tail
      have later : found unmaskedParameter rest = found unmaskedParameter (rest.drop more) := by
        conv_lhs => rw [behind]
        rw [found_append (fun d member => unmasked_none (parameterName_plain sensitive member).2),
          found_append unmasked_mask]
      rw [later]
      exact and_congr_left fun _ => iff_of_true masked first
    · have first : unmaskedParameter (c :: rest) ≠ none := by
        rw [unmaskedParameter, if_neg masked, hit]
        exact Option.some_ne_none _
      exact iff_of_false (fun hidden => masked hidden.1) fun unmatched => first unmatched.1

/-- A text comes out as it was if and only if the patterns recognise nothing in it but parameters
that are masked already. -/
theorem redactText_eq_self_iff (s : Text) : redactText s = s ↔ recognized s = false := by
  have parameters : ∀ t : Text, (if t.any (lit "?").contains && found queryParameter t then
      replaceAll queryParameter t else t) = t ↔
        (t.any (lit "?").contains && found unmaskedParameter t) = false := by
    intro t
    cases mark : t.any (lit "?").contains with
    | false => simp
    | true =>
      rw [Bool.true_and, Bool.true_and, ← replaceAll_queryParameter_iff]
      cases parameter : found queryParameter t with
      | false => simp [replaceAll_eq_self parameter]
      | true => rw [if_pos rfl]
  unfold redactText recognized
  cases token : found bearerToken s with
  | false =>
    rw [Bool.false_or, if_neg Bool.false_ne_true]
    exact parameters s
  | true =>
    rw [Bool.true_or, if_pos rfl]
    refine iff_of_false (fun same => ?_) (by decide)
    have without : found bearerToken s = false := by
      rw [← same]
      dsimp only
      split
      · exact bearer_kept (bearer_replaced s)
      · exact bearer_replaced s
    rw [token] at without
    cases without

end LabourBaba.Logging
