import LabourBaba.Market.Candidates
import LabourBaba.Store.Paging
import LabourBaba.Text.Buffers
import LabourBaba.Text.Json
import Mathlib

/-!
# Pages of candidates

The candidate query page by page, with the text of its keyset cursor. The cursor is the JSON text
of the last candidate's sort key in base64url, and decoding it gives the sort key back. Following
the cursors shows every eligible worker once, nearest first, then by score with the workers
without one last, then by id: the keyset predicate takes a missing score for -1, which ranks a
worker as the query does as long as no score is below zero.
-/
namespace LabourBaba.Market

open Store Store.Paging
open Utf16 (lit Json)

/-! ### Identifiers -/

/-- The last `n` of the sixteen octets of a UUID, as `uuid_out` writes them. -/
def uuidOctets : Nat → Id → Utf16.Text
  | 0, _ => []
  | n + 1, id =>
    let octet := id / 256 ^ n % 256
    [Utf16.hexLower (octet / 16), Utf16.hexLower (octet % 16)] ++
      (if n ∈ [12, 10, 8, 6] then lit "-" else []) ++ uuidOctets n id

def uuidText (id : Id) : Utf16.Text := uuidOctets 16 id

/-- `uuid_in` on the octets that are left: a hyphen may follow every second one. -/
def readUuid : Nat → Id → Utf16.Text → Option (Id × Utf16.Text)
  | 0, id, s => some (id, s)
  | n + 1, id, high :: low :: s =>
    match Utf16.hexValue high, Utf16.hexValue low with
    | some high, some low =>
      let s := if s.head? = (lit "-").head? ∧ n % 2 = 0 ∧ n ≠ 0 then s.tail else s
      readUuid n (id * 256 + (high * 16 + low)) s
    | _, _ => none
  | _ + 1, _, _ => none

/-- The cast of a text to a UUID. -/
def parseUuid (s : Utf16.Text) : Option Id :=
  if s.head? = (lit "\x7b").head? then
    match readUuid 16 0 s.tail with
    | some (id, rest) => if rest = lit "\x7d" then some id else none
    | none => none
  else
    match readUuid 16 0 s with
    | some (id, rest) => if rest = [] then some id else none
    | none => none

/-! ### Cursors -/

/-- The JSON value that a cursor is made of. -/
def cursorPayload (candidate : Worker) : Json :=
  .object [(lit "dist_m", .number candidate.distance),
    (lit "worker_score", candidate.score.elim .null .number), (lit "id", .string (uuidText candidate.id))]

def encodeCandidateCursor (candidate : Worker) : Utf16.Text :=
  Utf16.toBase64url (Utf16.toUtf8 (Utf16.stringify (cursorPayload candidate)))

/-- What a cursor is decoded to; the query casts the id. -/
structure DecodedCursor where
  distance : Decimal
  score : Option Decimal
  id : Utf16.Text

/-- A property of an object: the last member of the name. -/
def property (members : List (Utf16.Text × Json)) (name : String) : Option Json :=
  (members.reverse.find? fun m => m.1 = lit name).map (·.2)

/-- Every number is finite, and what is no object has none of the properties. -/
def decodeCandidateCursor (cursor : Utf16.Text) : Option DecodedCursor :=
  match Utf16.parse (Utf16.ofUtf8 (Utf16.ofBase64 cursor)) with
  | some (.object members) =>
    match property members "dist_m", property members "id", property members "worker_score" with
    | some (.number distance), some (.string id), some (.number score) =>
      if id = [] then none else some { distance, score := some score, id }
    | some (.number distance), some (.string id), some .null =>
      if id = [] then none else some { distance, score := none, id }
    | _, _, _ => none
  | _ => none

/-- The page at the text of a cursor. A text that cannot be decoded counts as none, and the query
fails on an id that is no UUID. -/
def getEligibleCandidatePageAt (skills : SkillLookups)
    (run : CandidateQuery → Except Failure (List Worker)) (params : CandidateEligibilityParams)
    (cursor : Option Utf16.Text) : CandidatePageResult Utf16.Text :=
  match (cursor.filter (· ≠ [])).bind decodeCandidateCursor with
  | none => getEligibleCandidatePage encodeCandidateCursor skills run { params with cursor := none }
  | some { distance, score, id } =>
    match parseUuid id with
    | some id => getEligibleCandidatePage encodeCandidateCursor skills run
        { params with cursor := some { distance, score, id } }
    | none => getEligibleCandidatePage encodeCandidateCursor skills
        (fun _ => .error (.plain "invalid input syntax for type uuid")) { params with cursor := none }

/-! ### The cursor of a candidate -/

theorem uuidOctets_pos {n : Nat} (positive : 0 < n) (id : Id) :
    (uuidOctets n id).head? ≠ (lit "-").head? := by
  obtain ⟨n, rfl⟩ := Nat.exists_eq_succ_of_ne_zero positive.ne'
  have digit : ∀ n < 16, some (Utf16.hexLower n) ≠ (lit "-").head? := by decide
  exact digit _ (by omega)

theorem readUuid_uuidOctets (n acc id : Nat) :
    readUuid n acc (uuidOctets n id) = some (acc * 256 ^ n + id % 256 ^ n, []) := by
  induction n generalizing acc with
  | zero => simp [readUuid, uuidOctets, Nat.mod_one]
  | succ n ih =>
    have octet : id / 256 ^ n % 256 / 16 * 16 + id / 256 ^ n % 256 % 16 = id / 256 ^ n % 256 := by
      omega
    have high := Utf16.hexValue_hexLower (show id / 256 ^ n % 256 / 16 < 16 by omega)
    have low := Utf16.hexValue_hexLower (show id / 256 ^ n % 256 % 16 < 16 by omega)
    have hyphen : (if ((if n ∈ [12, 10, 8, 6] then lit "-" else []) ++ uuidOctets n id).head? =
        (lit "-").head? ∧ n % 2 = 0 ∧ n ≠ 0 then
          ((if n ∈ [12, 10, 8, 6] then lit "-" else []) ++ uuidOctets n id).tail
        else (if n ∈ [12, 10, 8, 6] then lit "-" else []) ++ uuidOctets n id) = uuidOctets n id := by
      by_cases grouped : n ∈ [12, 10, 8, 6]
      · have even : n % 2 = 0 ∧ n ≠ 0 := by
          simp only [List.mem_cons, List.not_mem_nil, or_false] at grouped
          omega
        rw [if_pos grouped]
        exact if_pos ⟨rfl, even⟩
      · rw [if_neg grouped, List.nil_append]
        refine if_neg fun hyphened => ?_
        exact uuidOctets_pos (Nat.pos_of_ne_zero hyphened.2.2) id hyphened.1
    have split : id % 256 ^ (n + 1) = id / 256 ^ n % 256 * 256 ^ n + id % 256 ^ n := by
      rw [pow_succ, Nat.mod_mul, Nat.mul_comm, Nat.add_comm]
    rw [uuidOctets]
    dsimp only [List.cons_append, List.nil_append]
    rw [readUuid, high, low]
    dsimp only
    rw [hyphen, octet, ih, split, pow_succ]
    exact congrArg (fun v => some (v, [])) (by ring)

theorem parseUuid_uuidText {id : Id} (uuid : id < 2 ^ 128) : parseUuid (uuidText id) = some id := by
  have plain : (uuidText id).head? ≠ (lit "\x7b").head? := by
    have digit : ∀ n < 16, some (Utf16.hexLower n) ≠ (lit "\x7b").head? := by decide
    exact digit _ (by omega)
  have whole : readUuid 16 0 (uuidText id) = some (id, []) := by
    rw [uuidText, readUuid_uuidOctets, Nat.zero_mul, Nat.zero_add, Nat.mod_eq_of_lt (by omega)]
  rw [parseUuid, if_neg plain, whole]
  exact if_pos rfl

theorem ascii_uuidOctets (n : Nat) (id : Id) : Utf16.Ascii (uuidOctets n id) := by
  have digit : ∀ n < 16, (Utf16.hexLower n).toNat < 0x80 := by decide
  induction n with
  | zero =>
    rintro c ⟨⟩
  | succ n ih =>
    rw [uuidOctets]
    refine (Utf16.Ascii.append ?_ ?_).append ih
    · intro c member
      simp only [List.mem_cons, List.not_mem_nil, or_false] at member
      rcases member with rfl | rfl
      · exact digit _ (by omega)
      · exact digit _ (by omega)
    · split
      · decide
      · rintro c ⟨⟩

theorem ascii_cursorPayload (candidate : Worker) :
    Utf16.Ascii (Utf16.stringify (cursorPayload candidate)) := by
  have written : ∀ word ∈ ["\x7b", ":", ",", "\x7d", "null", "dist_m", "worker_score", "id"],
      Utf16.Ascii (lit word) := by
    decide
  have key : ∀ word ∈ ["dist_m", "worker_score", "id"], Utf16.Ascii (Utf16.quote (lit word)) :=
    fun word member => Utf16.ascii_quote (written word (by revert member; revert word; decide))
  have score : Utf16.Ascii (Utf16.stringify (candidate.score.elim .null .number)) := by
    cases candidate.score with
    | none => exact written "null" (by decide)
    | some score => exact Utf16.ascii_numberText score
  have id : Utf16.Ascii (Utf16.quote (uuidText candidate.id)) :=
    Utf16.ascii_quote (ascii_uuidOctets 16 candidate.id)
  simp only [cursorPayload, Utf16.stringify, Utf16.membersText]
  have colon := written ":" (by decide)
  have comma := written "," (by decide)
  have distance := Utf16.ascii_numberText candidate.distance
  have last := ((key "id" (by decide)).append colon).append id
  have middle := ((((key "worker_score" (by decide)).append colon).append score).append comma).append last
  have all := ((((key "dist_m" (by decide)).append colon).append distance).append comma).append middle
  exact ((written "\x7b" (by decide)).append all).append (written "\x7d" (by decide))

theorem parse_encodeCandidateCursor (candidate : Worker) :
    Utf16.parse (Utf16.ofUtf8 (Utf16.ofBase64 (encodeCandidateCursor candidate))) =
      some (cursorPayload candidate) := by
  have ascii := ascii_cursorPayload candidate
  have octets : ∀ b ∈ Utf16.toUtf8 (Utf16.stringify (cursorPayload candidate)), b < 256 := by
    rw [Utf16.toUtf8_of_ascii ascii]
    intro b member
    obtain ⟨c, written, rfl⟩ := List.mem_map.mp member
    exact lt_trans (ascii c written) (by decide)
  rw [encodeCandidateCursor, Utf16.ofBase64_toBase64url octets, Utf16.ofUtf8_toUtf8 ascii,
    Utf16.parse_stringify]

/-- A cursor is decoded to the sort key of its candidate. -/
theorem decode_encodeCandidateCursor (candidate : Worker) :
    decodeCandidateCursor (encodeCandidateCursor candidate) =
      some ⟨candidate.distance, candidate.score, uuidText candidate.id⟩ := by
  have nonempty : uuidText candidate.id ≠ [] := List.cons_ne_nil _ _
  rw [decodeCandidateCursor, parse_encodeCandidateCursor]
  dsimp only [cursorPayload]
  have distance : property [(lit "dist_m", .number candidate.distance),
      (lit "worker_score", candidate.score.elim .null .number),
      (lit "id", .string (uuidText candidate.id))] "dist_m" = some (.number candidate.distance) := rfl
  have score : property [(lit "dist_m", .number candidate.distance),
      (lit "worker_score", candidate.score.elim .null .number),
      (lit "id", .string (uuidText candidate.id))] "worker_score" =
        some (candidate.score.elim .null .number) := rfl
  have id : property [(lit "dist_m", .number candidate.distance),
      (lit "worker_score", candidate.score.elim .null .number),
      (lit "id", .string (uuidText candidate.id))] "id" = some (.string (uuidText candidate.id)) := rfl
  rw [distance, score, id]
  cases candidate.score with
  | none => exact if_neg nonempty
  | some score => exact if_neg nonempty

/-! ### The ranking -/

/-- Nearest first, then the higher score with the workers without one last, then the lower id. -/
def Worker.precedes (a b : Worker) : Prop :=
  a.distance < b.distance ∨ a.distance = b.distance ∧
    (scoreAhead a.score b.score ∨ a.score = b.score ∧ a.id < b.id)

/-- A missing score is below every other. -/
def ranked (score : Option Decimal) : WithBot Decimal := score.elim ⊥ fun s => s

/-- The sort key, in which the higher score is the lower one. -/
def sortKey (distance : Decimal) (score : Option Decimal) (id : Id) :
    Decimal ×ₗ (WithBot Decimal)ᵒᵈ ×ₗ ℕ :=
  toLex (distance, toLex (OrderDual.toDual (ranked score), id))

def Worker.key (w : Worker) : Decimal ×ₗ (WithBot Decimal)ᵒᵈ ×ₗ ℕ := sortKey w.distance w.score w.id

theorem ranked_lt {a b : Option Decimal} : ranked b < ranked a ↔ scoreAhead a b := by
  cases a with
  | none => exact iff_of_false not_lt_bot id
  | some a =>
    cases b with
    | none => exact iff_of_true (WithBot.bot_lt_coe a) trivial
    | some b => exact WithBot.coe_lt_coe

theorem ranked_inj {a b : Option Decimal} : ranked a = ranked b ↔ a = b := by
  cases a with
  | none =>
    cases b with
    | none => exact iff_of_true rfl rfl
    | some b => exact iff_of_false WithBot.bot_ne_coe (by simp)
  | some a =>
    cases b with
    | none => exact iff_of_false WithBot.coe_ne_bot (by simp)
    | some b => exact WithBot.coe_inj.trans Option.some_inj.symm

theorem key_lt_key {a b : Worker} : a.key < b.key ↔ a.precedes b := by
  simp only [Worker.key, sortKey, Prod.Lex.toLex_lt_toLex, OrderDual.toDual_lt_toDual, ranked_lt,
    OrderDual.toDual_inj, ranked_inj, Worker.precedes]

theorem key_le_key {a b : Worker} : a.key ≤ b.key ↔ a.ranks b = true := by
  simp only [Worker.key, sortKey, Prod.Lex.toLex_le_toLex, OrderDual.toDual_lt_toDual, ranked_lt,
    OrderDual.toDual_inj, ranked_inj, Worker.ranks, decide_eq_true_eq]

/-- No score is below zero. -/
def Worker.scored (w : Worker) : Prop := ∀ score ∈ w.score, Decimal.ofInt 0 ≤ score

theorem coalesced_lt {a b : Option Decimal} (scoredA : ∀ score ∈ a, Decimal.ofInt 0 ≤ score)
    (scoredB : ∀ score ∈ b, Decimal.ofInt 0 ≤ score) :
    coalesced a < coalesced b ↔ ranked a < ranked b := by
  have below : Decimal.ofInt (-1) < Decimal.ofInt 0 :=
    lt_of_not_ge fun above => absurd (Decimal.ofInt_le_ofInt.mp above) (by decide)
  cases a with
  | none =>
    cases b with
    | none => exact iff_of_false (lt_irrefl _) (lt_irrefl _)
    | some b => exact iff_of_true (below.trans_le (scoredB b rfl)) (WithBot.bot_lt_coe b)
  | some a =>
    cases b with
    | none => exact iff_of_false (lt_asymm (below.trans_le (scoredA a rfl))) not_lt_bot
    | some b => exact WithBot.coe_lt_coe.symm

/-- The keyset predicate is the order of the query. -/
theorem before_iff {a b : Worker} (scoredA : a.scored) (scoredB : b.scored) :
    CandidateCursorPayload.before ⟨a.distance, a.score, a.id⟩ b = true ↔ a.key < b.key := by
  have same : coalesced b.score = coalesced a.score ↔ ranked a.score = ranked b.score := by
    constructor
    · intro same
      refine le_antisymm (not_lt.mp fun lt => ?_) (not_lt.mp fun lt => ?_)
      · exact absurd ((coalesced_lt scoredB scoredA).mpr lt) (same ▸ lt_irrefl _)
      · exact absurd ((coalesced_lt scoredA scoredB).mpr lt) (same ▸ lt_irrefl _)
    · intro same
      rw [ranked_inj.mp same]
  rw [CandidateCursorPayload.before, decide_eq_true_iff, eq_comm (a := b.distance)]
  simp only [coalesced_lt scoredB scoredA, same, Worker.key, sortKey, Prod.Lex.toLex_lt_toLex,
    OrderDual.toDual_lt_toDual, OrderDual.toDual_inj]

/-! ### The pages -/

/-- The workers that the query is about, when it is asked from the start. -/
def eligibleWorkers (skills : SkillLookups) (workers : List Worker) (d : Db)
    (params : CandidateEligibilityParams) : List Worker :=
  if validateDispatchCoordinates params.latitude params.longitude ∧ params.radiusMeters ≠ 0 then
    workers.filter fun w =>
      w.fits (querySkillParam skills params.skillId params.skillType) params.radiusMeters &&
        d.free params.requirementId params.excludeDispatched w.id
  else []

/-- The pages of a database that answers. -/
def candidatePage (skills : SkillLookups) (workers : List Worker) (d : Db)
    (params : CandidateEligibilityParams) (cursor : Option Utf16.Text) :
    CandidatePageResult Utf16.Text :=
  getEligibleCandidatePageAt skills (fun q => .ok (candidateRows workers d q)) params cursor

section Pages

variable {skills : SkillLookups} {workers : List Worker} {d : Db}
  {params : CandidateEligibilityParams}

def pageSize (params : CandidateEligibilityParams) : Nat := max 1 (min params.limit 100)

theorem pageSize_pos : 0 < pageSize params := Nat.le_max_left 1 _

/-- A page has a cursor exactly if it says that there are more. -/
theorem hasMore_eq {C : Type} (encode : Worker → C)
    (run : CandidateQuery → Except Failure (List Worker)) :
    (getEligibleCandidatePage encode skills run params).hasMore =
      (getEligibleCandidatePage encode skills run params).nextCursor.isSome := by
  rw [getEligibleCandidatePage]
  split
  · rfl
  · split
    · rfl
    next rows _ =>
      dsimp only
      split
      next more =>
        rw [decide_eq_true_eq] at more
        have nonempty : rows.take (max 1 (min params.limit 100)) ≠ [] := by
          rw [ne_eq, List.take_eq_nil_iff]
          rintro (zero | empty)
          · omega
          · simp [empty] at more
        simp [List.getLast?_eq_some_getLast nonempty, more]
      next short => simpa using short

theorem hasMore_candidatePage (cursor : Option Utf16.Text) :
    (candidatePage skills workers d params cursor).hasMore =
      (candidatePage skills workers d params cursor).nextCursor.isSome := by
  rw [candidatePage, getEligibleCandidatePageAt]
  split
  · exact hasMore_eq _ _
  · split
    · exact hasMore_eq _ _
    · exact hasMore_eq _ _

/-- The eligible workers as the query ranks them. -/
def rankedWorkers (skills : SkillLookups) (workers : List Worker) (d : Db)
    (params : CandidateEligibilityParams) : List Worker :=
  if validateDispatchCoordinates params.latitude params.longitude ∧ params.radiusMeters ≠ 0 then
    (workers.mergeSort Worker.ranks).filter fun w =>
      w.fits (querySkillParam skills params.skillId params.skillType) params.radiusMeters &&
        d.free params.requirementId params.excludeDispatched w.id
  else []

variable (skills workers d params) in
theorem rankedWorkers_perm :
    (rankedWorkers skills workers d params).Perm (eligibleWorkers skills workers d params) := by
  rw [rankedWorkers, eligibleWorkers]
  split
  · exact (List.mergeSort_perm workers Worker.ranks).filter _
  · exact .refl _

variable (skills d params) in
theorem rankedWorkers_sorted (ids : Table.Unique Worker.id workers) :
    (rankedWorkers skills workers d params).Pairwise fun a b => a.key < b.key := by
  have sorted : (workers.mergeSort Worker.ranks).Pairwise fun a b => a.ranks b = true := by
    refine List.pairwise_mergeSort (fun a b c first second => ?_) (fun a b => ?_) workers
    · exact key_le_key.mp ((key_le_key.mpr first).trans (key_le_key.mpr second))
    · rw [Bool.or_eq_true]
      exact (le_total a.key b.key).imp key_le_key.mp key_le_key.mp
  have apart : (workers.mergeSort Worker.ranks).Pairwise fun a b => a.id ≠ b.id :=
    List.pairwise_map.mp (((List.mergeSort_perm workers Worker.ranks).map _).nodup_iff.mpr ids)
  have strict : (workers.mergeSort Worker.ranks).Pairwise fun a b => a.key < b.key := by
    refine (sorted.and apart).imp fun {a b} both => ?_
    refine lt_of_le_of_ne (key_le_key.mpr both.1) fun same => both.2 ?_
    simp only [Worker.key, sortKey, toLex_inj, Prod.mk.injEq] at same
    exact same.2.2
  rw [rankedWorkers]
  split
  · exact strict.filter _
  · exact .nil

variable (skills workers d) in
/-- A page of what a decoded cursor leaves. -/
theorem page_serves (fromStart : params.offset = 0) (cursor : Option CandidateCursorPayload) :
    Serves CandidatePageResult.candidates CandidatePageResult.nextCursor encodeCandidateCursor
      (pageSize params)
      (getEligibleCandidatePage encodeCandidateCursor skills
        (fun q => .ok (candidateRows workers d q)) { params with cursor })
      ((rankedWorkers skills workers d params).filter fun w => cursor.all (·.before w)) := by
  rw [getEligibleCandidatePage, rankedWorkers]
  by_cases searched : validateDispatchCoordinates params.latitude params.longitude = true ∧
      params.radiusMeters ≠ 0
  · have rows : candidateRows workers d
        { requirementId := params.requirementId
          skill := querySkillParam skills params.skillId params.skillType
          radiusMeters := params.radiusMeters, excludeDispatched := params.excludeDispatched, cursor
          limit := pageSize params + 1, offset := if cursor.isSome then 0 else params.offset } =
        (((workers.mergeSort Worker.ranks).filter fun w =>
          w.fits (querySkillParam skills params.skillId params.skillType) params.radiusMeters &&
            d.free params.requirementId params.excludeDispatched w.id).filter
              fun w => cursor.all (·.before w)).take (pageSize params + 1) := by
      rw [candidateRows, fromStart, ite_self, List.drop_zero, List.filter_filter]
      simp only [Bool.and_comm, Bool.and_assoc]
    rw [if_pos searched, if_neg (by simpa using searched)]
    dsimp only
    rw [← pageSize, rows]
    generalize List.filter _ (List.filter _ _) = remaining
    -- the page asks for one row more than it shows, to know whether there are more
    have more : (pageSize params < (remaining.take (pageSize params + 1)).length) ↔
        pageSize params < remaining.length := by
      rw [List.length_take]
      omega
    have shown : (if decide (pageSize params < (remaining.take (pageSize params + 1)).length) = true
        then (remaining.take (pageSize params + 1)).take (pageSize params)
        else remaining.take (pageSize params + 1)) = remaining.take (pageSize params) := by
      rw [List.take_take, min_eq_left (Nat.le_succ _)]
      split
      · rfl
      next short =>
        rw [decide_eq_true_eq, more] at short
        rw [List.take_of_length_le (by omega), List.take_of_length_le (by omega)]
    refine ⟨shown, ?_⟩
    dsimp only
    rw [shown]
    simp only [decide_eq_true_eq, more]
  · rw [if_neg searched, if_pos (by simpa [or_iff_not_imp_left] using searched)]
    exact ⟨by simp, by simp⟩

theorem candidatePage_none (fromStart : params.offset = 0) :
    Serves CandidatePageResult.candidates CandidatePageResult.nextCursor encodeCandidateCursor
      (pageSize params) (candidatePage skills workers d params none)
      (rankedWorkers skills workers d params) := by
  have served := page_serves skills workers d fromStart none
  simpa [candidatePage, getEligibleCandidatePageAt] using served

variable (skills workers d) in
theorem candidatePage_some (fromStart : params.offset = 0) {w : Worker} (uuid : w.id < 2 ^ 128) :
    Serves CandidatePageResult.candidates CandidatePageResult.nextCursor encodeCandidateCursor
      (pageSize params) (candidatePage skills workers d params (some (encodeCandidateCursor w)))
      ((rankedWorkers skills workers d params).filter
        (CandidateCursorPayload.before ⟨w.distance, w.score, w.id⟩)) := by
  have served := page_serves skills workers d fromStart
    (some ⟨w.distance, w.score, w.id⟩)
  have decoded := decode_encodeCandidateCursor w
  have nonempty : encodeCandidateCursor w ≠ [] := by
    intro empty
    rw [empty] at decoded
    cases decoded
  have read : ((some (encodeCandidateCursor w)).filter (· ≠ [])).bind decodeCandidateCursor =
      some ⟨w.distance, w.score, uuidText w.id⟩ := by
    simp [Option.filter, nonempty, decoded]
  rw [candidatePage, getEligibleCandidatePageAt, read]
  dsimp only
  rw [parseUuid_uuidText uuid]
  exact served

end Pages

/-- Following the cursors from the start shows every eligible worker once, in the order of the
query; the pages say that there are more exactly as long as there are, and a cursor is decoded to
the sort key of the candidate that it was made of. -/
theorem pagination_lossless (skills : SkillLookups) (workers : List Worker) (d : Db)
    (params : CandidateEligibilityParams) (fromStart : params.offset = 0)
    (ids : Table.Unique Worker.id workers) (uuids : ∀ w ∈ workers, w.id < 2 ^ 128)
    (scores : ∀ w ∈ workers, w.scored) :
    ∃ pages, Follows CandidatePageResult.nextCursor (candidatePage skills workers d params) none
        pages ∧
      (pages.flatMap (·.candidates)).Perm (eligibleWorkers skills workers d params) ∧
      (pages.flatMap (·.candidates)).Pairwise Worker.precedes ∧
      (∀ before page after, pages = before ++ page :: after → (page.hasMore = true ↔
        ∃ w ∈ eligibleWorkers skills workers d params,
          w ∉ (before ++ [page]).flatMap (·.candidates))) ∧
      ∀ w ∈ workers, ∃ id, decodeCandidateCursor (encodeCandidateCursor w) =
        some ⟨w.distance, w.score, id⟩ ∧ parseUuid id = some w.id := by
  have perm := rankedWorkers_perm skills workers d params
  have sorted := rankedWorkers_sorted skills d params ids
  have stored : ∀ w ∈ rankedWorkers skills workers d params, w ∈ workers := by
    intro w member
    have eligible := perm.mem_iff.mp member
    rw [eligibleWorkers] at eligible
    split at eligible
    · exact (List.mem_filter.mp eligible).1
    · cases eligible
  have later : ∀ x after, x :: after <:+ rankedWorkers skills workers d params →
      Serves CandidatePageResult.candidates CandidatePageResult.nextCursor encodeCandidateCursor
        (pageSize params) (candidatePage skills workers d params (some (encodeCandidateCursor x)))
        after := by
    rintro x after ⟨before, split⟩
    have inside : x ∈ workers := stored x (split ▸ by simp)
    have served := candidatePage_some skills workers d fromStart
      (uuids x inside)
    -- what a cursor leaves is what follows its candidate in the ranking
    have left := filter_keyset (split ▸ sorted) fun y member =>
      before_iff (scores x inside) (scores y (stored y (split ▸ member)))
    rwa [← split, left] at served
  obtain ⟨pages, follows, shown, more⟩ := follows_of_serves pageSize_pos later
    (candidatePage_none fromStart) List.suffix_rfl
  refine ⟨pages, follows, shown ▸ perm, ?_, fun before page after split => ?_, fun w member => ?_⟩
  · rw [shown]
    exact sorted.imp key_lt_key.mp
  · obtain ⟨cursor, rfl⟩ := follows.page_of_mem (split ▸ by simp : page ∈ pages)
    rw [hasMore_candidatePage, more before _ after split]
    have parts : (before ++ [candidatePage skills workers d params cursor]).flatMap (·.candidates) ++
        after.flatMap (·.candidates) = rankedWorkers skills workers d params := by
      rw [← shown, split, ← List.flatMap_append, List.append_assoc, List.singleton_append]
    -- the ranking is strict, so no worker is shown twice
    have once : (rankedWorkers skills workers d params).Nodup :=
      sorted.imp fun {a b} lt (same : a = b) => absurd lt (same ▸ lt_irrefl a.key)
    rw [← parts] at once
    constructor
    · intro nonempty
      obtain ⟨w, left⟩ := List.exists_mem_of_ne_nil _ nonempty
      refine ⟨w, perm.mem_iff.mp (parts ▸ List.mem_append_right _ left), fun visited => ?_⟩
      exact (List.nodup_append.mp once).2.2 w visited w left rfl
    · rintro ⟨w, eligible, unvisited⟩ empty
      have member := perm.mem_iff.mpr eligible
      rw [← parts, empty, List.append_nil] at member
      exact unvisited member
  · exact ⟨_, decode_encodeCandidateCursor w, parseUuid_uuidText (uuids w member)⟩

/-- Five workers around a job, with ties in distance and score. -/
def nearbyWorkers : List Worker :=
  [⟨4, none, .ofInt 100, [], true⟩, ⟨7, some (.ofInt 3), .ofInt 100, [], true⟩,
    ⟨2, some (.ofInt 3), .ofInt 100, [], true⟩, ⟨9, some (.ofInt 0), .ofInt 50, [], true⟩,
    ⟨1, none, .ofInt 100, [], true⟩]

theorem nearbyWorkers_paged :
    let params : CandidateEligibilityParams :=
      { requirementId := 1, latitude := some 20, longitude := some 70, radiusMeters := 200
        limit := 2 }
    let skills : SkillLookups := ⟨fun _ => .ok none, fun _ => .ok none⟩
    ∃ pages, Follows CandidatePageResult.nextCursor (candidatePage skills nearbyWorkers {} params) none
        pages ∧
      (pages.flatMap (·.candidates)).Perm (eligibleWorkers skills nearbyWorkers {} params) ∧
      (pages.flatMap (·.candidates)).Pairwise Worker.precedes ∧
      (∀ before page after, pages = before ++ page :: after → (page.hasMore = true ↔
        ∃ w ∈ eligibleWorkers skills nearbyWorkers {} params,
          w ∉ (before ++ [page]).flatMap (·.candidates))) ∧
      ∀ w ∈ nearbyWorkers, ∃ id, decodeCandidateCursor (encodeCandidateCursor w) =
        some ⟨w.distance, w.score, id⟩ ∧ parseUuid id = some w.id := by
  have scored : ∀ w ∈ nearbyWorkers, w.scored := by
    simp [nearbyWorkers, Worker.scored, Decimal.ofInt_le_ofInt]
  exact pagination_lossless _ nearbyWorkers {} _ rfl
    (show (nearbyWorkers.map Worker.id).Nodup by decide) (by decide) scored

end LabourBaba.Market
