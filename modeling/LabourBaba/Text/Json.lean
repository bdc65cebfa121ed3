import LabourBaba.Text.Buffers
import LabourBaba.Text.Numbers

/-!
# JSON

`stringify` is `JSON.stringify` without spaces, and `parse` is `JSON.parse`: any JSON text with
white space between its tokens. The fuel of the parser bounds how deep values are nested and how
many of them follow each other, so the length of the text is enough; what was written is read
back (`parse_stringify`).
-/
namespace Utf16

inductive Json
  | null
  | bool (b : Bool)
  | number (x : Decimal)
  | string (s : Text)
  | array (items : List Json)
  | object (members : List (Text × Json))

/-! ### Strings -/

def hexLower (n : Nat) : CodeUnit := UInt16.ofNat (if n < 10 then 48 + n else 87 + n)

def unicodeEscape (n : Nat) : Text :=
  lit "\\u" ++ [hexLower (n / 0x1000 % 16), hexLower (n / 0x100 % 16), hexLower (n / 0x10 % 16),
    hexLower (n % 16)]

/-- The letters of the short escapes, with what they stand for. -/
def shortEscapes : List (CodeUnit × CodeUnit) :=
  [(0x22, 0x22), (0x5C, 0x5C), (0x62, 0x08), (0x66, 0x0C), (0x6E, 0x0A), (0x72, 0x0D), (0x74, 0x09)]

def quoteUnit (c : CodeUnit) : Text :=
  match shortEscapes.find? fun escape => escape.2 = c with
  | some escape => lit "\\" ++ [escape.1]
  | none => if c.toNat < 0x20 || isHigh c || isLow c then unicodeEscape c.toNat else [c]

def quoted : Text → Text
  | [] => []
  | [c] => quoteUnit c
  | c :: d :: rest =>
    if isHigh c && isLow d then c :: d :: quoted rest else quoteUnit c ++ quoted (d :: rest)

def quote (s : Text) : Text := lit "\"" ++ quoted s ++ lit "\""

/-- What follows a backslash: the code unit it stands for, and the rest. -/
def readEscape : Text → Option (CodeUnit × Text)
  | [] => none
  | e :: rest =>
    if [e] = lit "u" then
      match rest with
      | a :: b :: c :: d :: rest =>
        match hexValue a, hexValue b, hexValue c, hexValue d with
        | some a, some b, some c, some d =>
          some (UInt16.ofNat (((a * 16 + b) * 16 + c) * 16 + d), rest)
        | _, _, _, _ => none
      | _ => none
    else if [e] = lit "/" then some (e, rest)
    else (shortEscapes.find? fun escape => escape.1 = e).map fun escape => (escape.2, rest)

/-- The string that is open at the head of a text. -/
def readString : Nat → Text → Option (Text × Text)
  | 0, _ | _ + 1, [] => none
  | fuel + 1, c :: rest =>
    if [c] = lit "\"" then some ([], rest)
    else if [c] = lit "\\" then
      (readEscape rest).bind fun (c, rest) => (readString fuel rest).map fun (s, rest) => (c :: s, rest)
    else if c.toNat < 0x20 then none
    else (readString fuel rest).map fun (s, rest) => (c :: s, rest)

/-! ### Values -/

mutual

/-- `JSON.stringify(value)`. -/
def stringify : Json → Text
  | .null => lit "null"
  | .bool b => lit (if b then "true" else "false")
  | .number x => numberText x
  | .string s => quote s
  | .array items => lit "[" ++ itemsText items ++ lit "]"
  | .object members => lit "\x7b" ++ membersText members ++ lit "\x7d"

def itemsText : List Json → Text
  | [] => []
  | [v] => stringify v
  | v :: w :: vs => stringify v ++ lit "," ++ itemsText (w :: vs)

def membersText : List (Text × Json) → Text
  | [] => []
  | [(key, v)] => quote key ++ lit ":" ++ stringify v
  | (key, v) :: m :: ms => quote key ++ lit ":" ++ stringify v ++ lit "," ++ membersText (m :: ms)

end

def isSpace (c : CodeUnit) : Bool := c.toNat ∈ [9, 10, 13, 32]

/-- The rest after a token of one character. -/
def expect (token : String) (s : Text) : Option Text :=
  match s.dropWhile isSpace with
  | [] => none
  | c :: rest => if [c] = lit token then some rest else none

/-- The rest after a word. -/
def readWord (word : String) (s : Text) : Option Text :=
  if lit word <+: s then some (s.drop (lit word).length) else none

mutual

def readValue : Nat → Text → Option (Json × Text)
  | 0, _ => none
  | fuel + 1, s =>
    match expect "\x7b" s with
    | some s =>
      match expect "\x7d" s with
      | some s => some (.object [], s)
      | none => (readMembers fuel s).map fun (members, s) => (.object members, s)
    | none =>
      match expect "[" s with
      | some s =>
        match expect "]" s with
        | some s => some (.array [], s)
        | none => (readItems fuel s).map fun (items, s) => (.array items, s)
      | none =>
        match expect "\"" s with
        | some s => (readString (s.length + 1) s).map fun (string, s) => (.string string, s)
        | none =>
          let s := s.dropWhile isSpace
          match readWord "null" s, readWord "true" s, readWord "false" s with
          | some s, _, _ => some (.null, s)
          | _, some s, _ => some (.bool true, s)
          | _, _, some s => some (.bool false, s)
          | none, none, none => (readNumber s).map fun (x, s) => (.number x, s)

def readItems : Nat → Text → Option (List Json × Text)
  | 0, _ => none
  | fuel + 1, s =>
    (readValue fuel s).bind fun (v, s) =>
      match expect "," s with
      | some s => (readItems fuel s).map fun (vs, s) => (v :: vs, s)
      | none => (expect "]" s).map fun s => ([v], s)

def readMembers : Nat → Text → Option (List (Text × Json) × Text)
  | 0, _ => none
  | fuel + 1, s =>
    (expect "\"" s).bind fun s => (readString (s.length + 1) s).bind fun (key, s) =>
      (expect ":" s).bind fun s => (readValue fuel s).bind fun (v, s) =>
        match expect "," s with
        | some s => (readMembers fuel s).map fun (ms, s) => ((key, v) :: ms, s)
        | none => (expect "\x7d" s).map fun s => ([(key, v)], s)

end

/-- `JSON.parse(text)`, where nothing is a syntax error. -/
def parse (s : Text) : Option Json :=
  match readValue (s.length + 1) s with
  | some (v, rest) => if rest.dropWhile isSpace = [] then some v else none
  | none => none

/-! ### Reading what was written -/

theorem hexValue_hexLower {n : Nat} (small : n < 16) : hexValue (hexLower n) = some n := by
  interval_cases n <;> decide

theorem readEscape_unicode (c : CodeUnit) (rest : Text) :
    readEscape ((unicodeEscape c.toNat).tail ++ rest) = some (c, rest) := by
  have small : c.toNat < 65536 := c.toNat_lt_size
  have whole : ((c.toNat / 0x1000 % 16 * 16 + c.toNat / 0x100 % 16) * 16 +
      c.toNat / 0x10 % 16) * 16 + c.toNat % 16 = c.toNat := by omega
  have digit : ∀ n, hexValue (hexLower (n % 16)) = some (n % 16) :=
    fun n => hexValue_hexLower (Nat.mod_lt n (by decide))
  have letter : (unicodeEscape c.toNat).tail ++ rest = UInt16.ofNat 0x75 ::
      hexLower (c.toNat / 0x1000 % 16) :: hexLower (c.toNat / 0x100 % 16) ::
        hexLower (c.toNat / 0x10 % 16) :: hexLower (c.toNat % 16) :: rest := rfl
  rw [letter, readEscape, if_pos (by decide)]
  simp only [digit, whole, UInt16.ofNat_toNat]

/-- Each code unit is read back in one step. -/
theorem readString_quoteUnit (fuel : Nat) (c : CodeUnit) (rest : Text) :
    readString (fuel + 1) (quoteUnit c ++ rest) =
      (readString fuel rest).map fun (s, rest) => (c :: s, rest) := by
  have backslash : ∀ {e : Text} {c : CodeUnit}, readEscape (e ++ rest) = some (c, rest) →
      readString (fuel + 1) (lit "\\" ++ e ++ rest) =
        (readString fuel rest).map fun (s, rest) => (c :: s, rest) := by
    intro e c escaped
    have first : lit "\\" ++ e ++ rest = UInt16.ofNat 0x5C :: (e ++ rest) := rfl
    rw [first, readString, if_neg (by decide), if_pos (by decide), escaped, Option.bind_some]
  unfold quoteUnit
  split
  next escape found =>
    obtain rfl : escape.2 = c := by simpa using List.find?_some found
    refine backslash (e := [escape.1]) ?_
    have member := List.mem_of_find?_eq_some found
    simp only [shortEscapes, List.mem_cons, List.not_mem_nil, or_false] at member
    rcases member with rfl | rfl | rfl | rfl | rfl | rfl | rfl <;> rfl
  next plain =>
    split
    · exact backslash (readEscape_unicode c rest)
    next visible =>
      have other : ∀ escape ∈ shortEscapes, escape.2 ≠ c := by
        simpa using List.find?_eq_none.mp plain
      have unquoted : [c] ≠ lit "\"" := fun same =>
        other (0x22, 0x22) (by decide) (List.head_eq_of_cons_eq same).symm
      have unescaped : [c] ≠ lit "\\" := fun same =>
        other (0x5C, 0x5C) (by decide) (List.head_eq_of_cons_eq same).symm
      have printable : ¬ c.toNat < 0x20 := fun control => visible (by simp [control])
      rw [List.singleton_append, readString, if_neg unquoted, if_neg unescaped, if_neg printable]

theorem readString_quoted (s rest : Text) {fuel : Nat} (enough : (quoted s).length < fuel) :
    readString fuel (quoted s ++ (lit "\"" ++ rest)) = some (s, rest) := by
  have longer : ∀ c, 0 < (quoteUnit c).length := by
    intro c
    unfold quoteUnit
    split
    · simp
    · split <;> simp [unicodeEscape]
  fun_induction quoted s generalizing fuel with
  | case1 =>
    obtain ⟨fuel, rfl⟩ := Nat.exists_eq_succ_of_ne_zero (Nat.ne_of_gt enough)
    rfl
  | case2 c =>
    have long := longer c
    obtain ⟨fuel, rfl⟩ : ∃ m, fuel = m + 2 := ⟨fuel - 2, by omega⟩
    rw [readString_quoteUnit]
    rfl
  | case3 c d rest' both ih =>
    obtain ⟨fuel, rfl⟩ : ∃ m, fuel = m + 2 := ⟨fuel - 2, by simp at enough; omega⟩
    rw [Bool.and_eq_true] at both
    have visible : ∀ c, isHigh c = true ∨ isLow c = true →
        [c] ≠ lit "\"" ∧ [c] ≠ lit "\\" ∧ ¬ c.toNat < 0x20 := by
      intro c surrogate
      have large : 0xD800 ≤ c.toNat := by
        simp only [isHigh, isLow, decide_eq_true_eq] at surrogate
        omega
      refine ⟨fun same => ?_, fun same => ?_, by omega⟩
      · rw [List.head_eq_of_cons_eq same] at large
        exact absurd large (by decide)
      · rw [List.head_eq_of_cons_eq same] at large
        exact absurd large (by decide)
    obtain ⟨high, high', high''⟩ := visible c (Or.inl both.1)
    obtain ⟨low, low', low''⟩ := visible d (Or.inr both.2)
    rw [List.cons_append, List.cons_append, readString, if_neg high, if_neg high', if_neg high'',
      readString, if_neg low, if_neg low', if_neg low'', ih (by simp at enough; omega)]
    rfl
  | case4 c d rest' apart ih =>
    have long := longer c
    rw [List.length_append] at enough
    obtain ⟨fuel, rfl⟩ : ∃ m, fuel = m + 1 := ⟨fuel - 1, by omega⟩
    rw [List.append_assoc, readString_quoteUnit, ih (by omega)]
    rfl

theorem readString_quote (s rest : Text) :
    readString ((quoted s ++ (lit "\"" ++ rest)).length + 1) (quoted s ++ (lit "\"" ++ rest)) =
      some (s, rest) :=
  readString_quoted s rest (by simp only [List.length_append]; omega)

theorem expect_cons {token : String} {c : CodeUnit} (dark : isSpace c = false) (rest : Text) :
    expect token (c :: rest) = if [c] = lit token then some rest else none := by
  rw [expect, List.dropWhile_cons_of_neg (by simp [dark])]

/-- A token that is written is the one expected, or stands in the way of it. -/
theorem expect_lit (written : String) {token : String} {c : CodeUnit} (form : lit written = [c])
    (dark : isSpace c = false) (rest : Text) :
    expect token (lit written ++ rest) = if lit written = lit token then some rest else none := by
  rw [form, List.singleton_append, expect_cons dark]

theorem expect_other {token : String} {s : Text}
    (other : ∃ c rest, s = c :: rest ∧ isSpace c = false ∧ [c] ≠ lit token) :
    expect token s = none := by
  obtain ⟨c, rest, rfl, dark, differ⟩ := other
  rw [expect_cons dark, if_neg differ]

theorem head_numberText (x : Decimal) : ∃ c rest, numberText x = c :: rest ∧
    isSpace c = false ∧ ∀ token ∈ ["]", "[", "\"", "\x7b", "n", "t", "f"], [c] ≠ lit token := by
  cases form : numberText x with
  | nil => exact absurd form (numberText_ne_nil x)
  | cons c rest =>
    have written : isDigit c = true ∨ c ∈ lit ".e+-" :=
      mem_numberText (form ▸ List.mem_cons_self)
    have among : c ∈ lit "0123456789.e+-" := by
      rcases written with isDig | symbol
      · have bounds : 48 ≤ c.toNat ∧ c.toNat ≤ 57 := of_decide_eq_true isDig
        obtain ⟨n, value⟩ : ∃ n, n = c.toNat := ⟨_, rfl⟩
        obtain rfl : UInt16.ofNat n = c := by rw [value, UInt16.ofNat_toNat]
        rw [← value] at bounds
        obtain ⟨low, high⟩ := bounds
        interval_cases n <;> decide
      · exact List.mem_append_right (lit "0123456789") symbol
    have plain : (lit "0123456789.e+-").all (fun c => decide (isSpace c = false ∧
        ∀ token ∈ ["]", "[", "\"", "\x7b", "n", "t", "f"], [c] ≠ lit token)) = true := by decide
    exact ⟨c, rest, rfl, of_decide_eq_true (List.all_eq_true.mp plain c among)⟩

/-- What a value begins with. -/
theorem head_stringify (v : Json) :
    ∃ c rest, stringify v = c :: rest ∧ isSpace c = false ∧ [c] ≠ lit "]" := by
  cases v with
  | null => exact ⟨_, _, rfl, by decide, by decide⟩
  | bool b =>
    cases b with
    | false => exact ⟨_, _, rfl, by decide, by decide⟩
    | true => exact ⟨_, _, rfl, by decide, by decide⟩
  | string => exact ⟨_, _, rfl, by decide, by decide⟩
  | array => exact ⟨_, _, rfl, by decide, by decide⟩
  | object => exact ⟨_, _, rfl, by decide, by decide⟩
  | number x =>
    obtain ⟨c, rest, form, dark, other⟩ := head_numberText x
    exact ⟨c, rest, form, dark, other "]" (by decide)⟩

theorem readWord_other {word : String} {s : Text} {c : CodeUnit}
    (head : (lit word).head? = some c) (other : ∃ d rest, s = d :: rest ∧ d ≠ c) :
    readWord word s = none := by
  obtain ⟨d, rest, rfl, differ⟩ := other
  cases form : lit word with
  | nil => rw [form] at head; cases head
  | cons e word' =>
    rw [form] at head
    obtain rfl := Option.some.inj head
    refine if_neg fun starts => differ ?_
    rw [form] at starts
    exact (List.cons_prefix_cons.mp starts).1.symm

theorem ends_lit (token : String) {c : CodeUnit} (form : lit token = [c])
    (stops : isDigit c = false ∧ c ∉ lit ".eE") (rest : Text) : Ends (lit token ++ rest) := by
  rw [form]
  rintro d ⟨⟩
  exact stops

theorem head_itemsText {items : List Json} (nonempty : items ≠ []) (rest : Text) :
    ∃ c t, itemsText items ++ rest = c :: t ∧ isSpace c = false ∧ [c] ≠ lit "]" := by
  match items, nonempty with
  | [v], _ =>
    obtain ⟨c, t, form, dark, other⟩ := head_stringify v
    exact ⟨c, t ++ rest, by rw [itemsText, form, List.cons_append], dark, other⟩
  | v :: w :: vs, _ =>
    obtain ⟨c, t, form, dark, other⟩ := head_stringify v
    refine ⟨c, t ++ (lit "," ++ (itemsText (w :: vs) ++ rest)), ?_, dark, other⟩
    simp only [itemsText, form, List.cons_append, List.append_assoc]

theorem head_membersText {members : List (Text × Json)} (nonempty : members ≠ []) (rest : Text) :
    ∃ c t, membersText members ++ rest = c :: t ∧ isSpace c = false ∧ [c] ≠ lit "\x7d" := by
  match members, nonempty with
  | [(key, v)], _ => exact ⟨_, _, rfl, by decide, by decide⟩
  | (key, v) :: m :: ms, _ => exact ⟨_, _, rfl, by decide, by decide⟩

mutual

/-- A value that was written is read back, up to what follows it. -/
theorem readValue_stringify (v : Json) (rest : Text) (ends : Ends rest) {fuel : Nat}
    (enough : (stringify v).length < fuel) : readValue fuel (stringify v ++ rest) = some (v, rest) := by
  obtain ⟨fuel, rfl⟩ : ∃ m, fuel = m + 1 := ⟨fuel - 1, by omega⟩
  rw [readValue]
  match v with
  | .null => rfl
  | .bool true => rfl
  | .bool false => rfl
  | .number x =>
    obtain ⟨c, tail, form, dark, other⟩ := head_numberText x
    have begins : stringify (.number x) ++ rest = c :: (tail ++ rest) := by
      rw [stringify, form, List.cons_append]
    have outer : ∀ token ∈ ["]", "[", "\"", "\x7b", "n", "t", "f"],
        expect token (stringify (.number x) ++ rest) = none := fun token among =>
      expect_other ⟨c, tail ++ rest, begins, dark, other token among⟩
    have word : ∀ word token d, (lit word).head? = some d → lit token = [d] →
        token ∈ ["]", "[", "\"", "\x7b", "n", "t", "f"] →
        readWord word (c :: (tail ++ rest)) = none := fun word token d head written among =>
      readWord_other head ⟨c, tail ++ rest, rfl, fun same => other token among (by rw [written, same])⟩
    rw [outer "\x7b" (by decide), outer "[" (by decide), outer "\"" (by decide)]
    dsimp only
    rw [begins, List.dropWhile_cons_of_neg (by simp [dark]), word "null" "n" _ rfl rfl (by decide),
      word "true" "t" _ rfl rfl (by decide), word "false" "f" _ rfl rfl (by decide), ← begins,
      stringify, readNumber_numberText x ends]
    rfl
  | .string s =>
    have opens : stringify (.string s) ++ rest = lit "\"" ++ (quoted s ++ (lit "\"" ++ rest)) := by
      simp only [stringify, quote, List.append_assoc]
    rw [opens, expect_lit "\"" rfl (by decide), if_neg (by decide),
      expect_lit "\"" rfl (by decide), if_neg (by decide), expect_lit "\"" rfl (by decide),
      if_pos rfl]
    dsimp only
    rw [readString_quote]
    rfl
  | .array items =>
    have opens : stringify (.array items) ++ rest = lit "[" ++ (itemsText items ++ (lit "]" ++ rest)) := by
      simp only [stringify, List.append_assoc]
    rw [opens, expect_lit "[" rfl (by decide), if_neg (by decide),
      expect_lit "[" rfl (by decide), if_pos rfl]
    dsimp only
    by_cases empty : items = []
    · rw [empty, itemsText, List.nil_append, expect_lit "]" rfl (by decide), if_pos rfl]
    · have longer : (itemsText items).length + 1 < fuel := by
        simp only [stringify, List.length_append] at enough
        have bracket : (lit "[").length = 1 ∧ (lit "]").length = 1 := ⟨rfl, rfl⟩
        omega
      rw [expect_other (head_itemsText empty _), readItems_itemsText items empty rest longer]
      rfl
  | .object members =>
    have opens : stringify (.object members) ++ rest =
        lit "\x7b" ++ (membersText members ++ (lit "\x7d" ++ rest)) := by
      simp only [stringify, List.append_assoc]
    rw [opens, expect_lit "\x7b" rfl (by decide), if_pos rfl]
    dsimp only
    by_cases empty : members = []
    · rw [empty, membersText, List.nil_append, expect_lit "\x7d" rfl (by decide), if_pos rfl]
    · have longer : (membersText members).length + 1 < fuel := by
        simp only [stringify, List.length_append] at enough
        have brace : (lit "\x7b").length = 1 ∧ (lit "\x7d").length = 1 := ⟨rfl, rfl⟩
        omega
      rw [expect_other (head_membersText empty _), readMembers_membersText members empty rest longer]
      rfl

theorem readItems_itemsText (items : List Json) (nonempty : items ≠ []) (rest : Text) {fuel : Nat}
    (enough : (itemsText items).length + 1 < fuel) :
    readItems fuel (itemsText items ++ (lit "]" ++ rest)) = some (items, rest) := by
  obtain ⟨fuel, rfl⟩ : ∃ m, fuel = m + 1 := ⟨fuel - 1, by omega⟩
  rw [readItems]
  match items, nonempty with
  | [v], _ =>
    rw [itemsText] at enough ⊢
    have ends : Ends (lit "]" ++ rest) := ends_lit "]" rfl (by decide) rest
    rw [readValue_stringify v _ ends (by omega), Option.bind_some]
    dsimp only
    rw [expect_lit "]" rfl (by decide), if_neg (by decide), expect_lit "]" rfl (by decide), if_pos rfl]
    rfl
  | v :: w :: vs, _ =>
    simp only [itemsText, List.length_append] at enough
    have comma : (lit ",").length = 1 := rfl
    have follows : itemsText (v :: w :: vs) ++ (lit "]" ++ rest) =
        stringify v ++ (lit "," ++ (itemsText (w :: vs) ++ (lit "]" ++ rest))) := by
      simp only [itemsText, List.append_assoc]
    have ends : Ends (lit "," ++ (itemsText (w :: vs) ++ (lit "]" ++ rest))) :=
      ends_lit "," rfl (by decide) _
    rw [follows, readValue_stringify v _ ends (by omega), Option.bind_some]
    dsimp only
    rw [expect_lit "," rfl (by decide), if_pos rfl]
    dsimp only
    rw [readItems_itemsText (w :: vs) (by simp) rest (by omega)]
    rfl

theorem readMembers_membersText (members : List (Text × Json)) (nonempty : members ≠ [])
    (rest : Text) {fuel : Nat} (enough : (membersText members).length + 1 < fuel) :
    readMembers fuel (membersText members ++ (lit "\x7d" ++ rest)) = some (members, rest) := by
  obtain ⟨fuel, rfl⟩ : ∃ m, fuel = m + 1 := ⟨fuel - 1, by omega⟩
  rw [readMembers]
  match members, nonempty with
  | [(key, v)], _ =>
    simp only [membersText, List.length_append] at enough
    have follows : membersText [(key, v)] ++ (lit "\x7d" ++ rest) =
        lit "\"" ++ (quoted key ++ (lit "\"" ++ (lit ":" ++ (stringify v ++ (lit "\x7d" ++ rest))))) := by
      simp only [membersText, quote, List.append_assoc]
    have ends : Ends (lit "\x7d" ++ rest) := ends_lit "\x7d" rfl (by decide) rest
    rw [follows, expect_lit "\"" rfl (by decide), if_pos rfl, Option.bind_some, readString_quote,
      Option.bind_some]
    dsimp only
    rw [expect_lit ":" rfl (by decide), if_pos rfl, Option.bind_some,
      readValue_stringify v _ ends (by omega), Option.bind_some]
    dsimp only
    rw [expect_lit "\x7d" rfl (by decide), if_neg (by decide), expect_lit "\x7d" rfl (by decide),
      if_pos rfl]
    rfl
  | (key, v) :: m :: ms, _ =>
    simp only [membersText, List.length_append] at enough
    have comma : (lit ",").length = 1 := rfl
    have follows : membersText ((key, v) :: m :: ms) ++ (lit "\x7d" ++ rest) =
        lit "\"" ++ (quoted key ++ (lit "\"" ++ (lit ":" ++ (stringify v ++
          (lit "," ++ (membersText (m :: ms) ++ (lit "\x7d" ++ rest))))))) := by
      simp only [membersText, quote, List.append_assoc]
    have ends : Ends (lit "," ++ (membersText (m :: ms) ++ (lit "\x7d" ++ rest))) :=
      ends_lit "," rfl (by decide) _
    rw [follows, expect_lit "\"" rfl (by decide), if_pos rfl, Option.bind_some, readString_quote,
      Option.bind_some]
    dsimp only
    rw [expect_lit ":" rfl (by decide), if_pos rfl, Option.bind_some,
      readValue_stringify v _ ends (by omega), Option.bind_some]
    dsimp only
    rw [expect_lit "," rfl (by decide), if_pos rfl]
    dsimp only
    rw [readMembers_membersText (m :: ms) (by simp) rest (by omega)]
    rfl

end

/-- What was written is read back. -/
theorem parse_stringify (v : Json) : parse (stringify v) = some v := by
  have nothing : Ends [] := by
    rintro c ⟨⟩
  have read := readValue_stringify v [] nothing (Nat.lt_succ_self _)
  rw [List.append_nil] at read
  rw [parse, read]
  rfl

/-! ### ASCII -/

theorem ascii_quoteUnit {c : CodeUnit} (small : c.toNat < 0x80) : Ascii (quoteUnit c) := by
  have all : (shortEscapes.all fun escape => decide (Ascii (lit "\\" ++ [escape.1]))) = true := by
    decide
  have letters : ∀ escape ∈ shortEscapes, Ascii (lit "\\" ++ [escape.1]) :=
    fun escape member => of_decide_eq_true (List.all_eq_true.mp all escape member)
  have digit : ∀ n < 16, (hexLower n).toNat < 0x80 := by decide
  unfold quoteUnit
  split
  next escape found => exact letters escape (List.mem_of_find?_eq_some found)
  · split
    · intro d member
      simp only [unicodeEscape, List.mem_append, List.mem_cons, List.not_mem_nil, or_false] at member
      rcases member with letter | rfl | rfl | rfl | rfl
      · exact (show Ascii (lit "\\u") by decide) d letter
      · exact digit _ (Nat.mod_lt _ (by decide))
      · exact digit _ (Nat.mod_lt _ (by decide))
      · exact digit _ (Nat.mod_lt _ (by decide))
      · exact digit _ (Nat.mod_lt _ (by decide))
    · intro d member
      rw [List.mem_singleton.mp member]
      exact small

theorem ascii_quote {s : Text} (ascii : Ascii s) : Ascii (quote s) := by
  have mark : Ascii (lit "\"") := by decide
  refine (mark.append ?_).append mark
  fun_induction quoted s with
  | case1 => exact ascii
  | case2 c => exact ascii_quoteUnit (ascii c List.mem_cons_self)
  | case3 c d rest both ih =>
    intro e member
    rcases List.mem_cons.mp member with rfl | member
    · exact ascii e List.mem_cons_self
    rcases List.mem_cons.mp member with rfl | member
    · exact ascii e (by simp)
    · exact ih (fun f later => ascii f (by simp [later])) e member
  | case4 c d rest _ ih =>
    exact (ascii_quoteUnit (ascii c List.mem_cons_self)).append
      (ih fun e member => ascii e (List.mem_cons_of_mem c member))

theorem ascii_numberText (x : Decimal) : Ascii (numberText x) := by
  intro c member
  rcases mem_numberText member with isDig | symbol
  · have bounds : 48 ≤ c.toNat ∧ c.toNat ≤ 57 := of_decide_eq_true isDig
    omega
  · exact (show Ascii (lit ".e+-") by decide) c symbol

end Utf16
