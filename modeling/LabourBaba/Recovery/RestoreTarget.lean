import LabourBaba.Text.Utf16

/-!
# Restore targets

`assertSafeRestoreTarget`, which decides whether a restore may write to a database. The target is
compared with the configured URLs as a text, so that another spelling of a configured URL is
refused only for its host or for its name: the guard keeps restores away from the configured
databases exactly if it would refuse each of these on its own (`keepsApart_iff`).

The URL parser is a parameter, with the serializer for the redacted URL in the messages, and so is
`toLowerCase`. The patterns are matched against any text, in either case of its ASCII letters.
-/
namespace LabourBaba.Recovery

open Utf16

/-! ### URLs -/

/-- The parts of a URL that the guard reads and writes. -/
structure Url where
  username : Text
  password : Text
  hostname : Text
  port : Text
  pathname : Text
  /-- Everything else. -/
  others : Text
deriving DecidableEq

/-- `new URL(text)`, with the message of the error, and `url.toString()`. -/
structure UrlApi where
  parse : Text → Except Text Url
  render : Url → Text

def trim (s : Text) : Text := ((s.dropWhile isWhiteSpace).reverse.dropWhile isWhiteSpace).reverse

def isUnit (c : CodeUnit) (s : String) : Bool := decide ([c] = lit s)

/-- `replace(/:\/\/([^:@]+):?[^@]*@/, "://***:***@")`. -/
def maskCredentials : Text → Text
  | [] => []
  | c :: rest =>
    if lit "://" <+: c :: rest ∧ ((c :: rest).drop 3).head?.any (fun u => !isUnit u ":" && !isUnit u "@") ∧
        ((c :: rest).drop 3).any (isUnit · "@") then
      lit "://***:***" ++ ((c :: rest).drop 3).dropWhile fun u => !isUnit u "@"
    else c :: maskCredentials rest

section Guard

variable (url : UrlApi) (toLowerCase : Text → Text)

def redactDatabaseUrl (dbUrl : Text) : Text :=
  if dbUrl = [] then lit "<empty_url>"
  else
    match url.parse dbUrl with
    | .ok parsed =>
      url.render { parsed with
        username := if parsed.username = [] then [] else lit "***"
        password := if parsed.password = [] then [] else lit "***" }
    | .error _ => maskCredentials dbUrl

/-! ### The tables -/

/-- A pattern with the text that messages show for it. -/
structure HostPattern where
  source : String
  test : Text → Bool

def asciiLower (s : Text) : Text :=
  s.map fun c => if 65 ≤ c.toNat ∧ c.toNat ≤ 90 then c + 32 else c

/-- `/…$/i` -/
def endsIn (suffix : String) (host : Text) : Bool := decide (lit suffix <:+ asciiLower host)

/-- `/(^|\.)…(\.|$)/i` -/
def hasLabel (labels : List String) (host : Text) : Bool :=
  (asciiLower host).splitOn 0x2E |>.any fun part => decide (part ∈ labels.map lit)

def prohibitedHostPatterns : List HostPattern :=
  [⟨"/supabase\\.co$/i", endsIn "supabase.co"⟩,
   ⟨"/pooler\\.supabase\\.com$/i", endsIn "pooler.supabase.com"⟩,
   ⟨"/\\.amazonaws\\.com$/i", endsIn ".amazonaws.com"⟩,
   ⟨"/\\.rds\\.amazonaws\\.com$/i", endsIn ".rds.amazonaws.com"⟩,
   ⟨"/\\.neon\\.tech$/i", endsIn ".neon.tech"⟩,
   ⟨"/\\.render\\.com$/i", endsIn ".render.com"⟩,
   ⟨"/\\.cockroachlabs\\.cloud$/i", endsIn ".cockroachlabs.cloud"⟩,
   ⟨"/\\.aivencloud\\.com$/i", endsIn ".aivencloud.com"⟩,
   ⟨"/(^|\\.)prod(uction)?(\\.|$)/i", hasLabel ["prod", "production"]⟩,
   ⟨"/(^|\\.)live(\\.|$)/i", hasLabel ["live"]⟩]

def prohibitedDbNames : List String :=
  ["postgres", "production", "prod", "main", "master", "live", "defaultdb"]

def approvedDisposableMarkers : List String :=
  ["test", "disposable", "drill", "dr", "temp", "ci", "scratch", "sandbox"]

/-! ### The guard -/

structure Environment where
  databaseUrl : Option Text := none
  directUrl : Option Text := none

structure SafeTargetVerification where
  isSafe : Bool
  host : Text
  port : Text
  databaseName : Text
  redactedUrl : Text

/-- `new Error(message)`, with the message in parts. -/
def violation {α : Type} (parts : List Text) : Except Text α :=
  .error (lit "[RESTORE_SECURITY_VIOLATION] " ++ parts.flatten)

/-- A configured URL, trimmed, unless it is empty. -/
def configured (value : Option Text) : Option Text := (value.map trim).filter (· ≠ [])

def host (parsed : Url) : Text := toLowerCase parsed.hostname

def port (parsed : Url) : Text := if parsed.port = [] then lit "5432" else parsed.port

def rawDbName (parsed : Url) : Text :=
  let path := if parsed.pathname.head?.any (isUnit · "/") then parsed.pathname.tail else parsed.pathname
  toLowerCase (trim (path.takeWhile fun c => !isUnit c "?"))

def hasDisposableMarker (name : Text) : Bool :=
  approvedDisposableMarkers.any fun marker => decide (lit marker <:+: name)

/-- Steps 3 to 5, on the parsed URL. -/
def checkParts (redacted : Text) (parsed : Url) : Except Text SafeTargetVerification :=
  let host := host toLowerCase parsed
  let name := rawDbName toLowerCase parsed
  match prohibitedHostPatterns.find? (·.test host) with
  | some pattern =>
    violation [lit "Target host '", host, lit "' matches prohibited production/cloud pattern (",
      lit pattern.source, lit "). Disaster recovery restoration is strictly prohibited ",
      lit "against cloud and production databases!"]
  | none =>
    if name = [] ∨ name ∈ prohibitedDbNames.map lit then
      violation [lit "Database name '", if name = [] then lit "<empty>" else name,
        lit "' is a reserved/prohibited name. Disaster recovery restore requires a dedicated ",
        lit "disposable database name (e.g. 'labourbaba_dr_disposable')."]
    else if !hasDisposableMarker name then
      violation [lit "Target database name '", name,
        lit "' does not contain an approved disposable marker (",
        (lit ", ").intercalate (approvedDisposableMarkers.map lit),
        lit "). Refusing to restore into potentially persistent database!"]
    else
      .ok { isSafe := true, host, port := port parsed, databaseName := name, redactedUrl := redacted }

/-- Nothing stands for a target that is not a string. -/
def assertSafeRestoreTarget (env : Environment) (targetDatabaseUrl : Option Text)
    (bypassPrimaryMatchCheck : Bool) : Except Text SafeTargetVerification :=
  match (targetDatabaseUrl.map trim).filter (· ≠ []) with
  | none =>
    violation [lit "No target database URL provided. Refusing to proceed with disaster recovery restore."]
  | some trimmedUrl =>
    let redacted := redactDatabaseUrl url trimmedUrl
    if !bypassPrimaryMatchCheck ∧ configured env.databaseUrl = some trimmedUrl then
      violation [lit "Target database matches primary application DATABASE_URL (", redacted,
        lit "). Disaster recovery restore MUST target an isolated disposable database, ",
        lit "NEVER the active application database!"]
    else if !bypassPrimaryMatchCheck ∧ configured env.directUrl = some trimmedUrl then
      violation [lit "Target database matches direct migration DIRECT_URL (", redacted,
        lit "). Disaster recovery restore MUST target an isolated disposable database, ",
        lit "NEVER the direct application database!"]
    else
      match url.parse trimmedUrl with
      | .error message =>
        violation [lit "Invalid database URL format: ", redacted, lit ". Error: ", message]
      | .ok parsed => checkParts toLowerCase redacted parsed

/-! ### What the guard accepts -/

/-- The database that a URL names: its host in small letters, its port and its name. -/
def identity (parsed : Url) : Text × Text × Text :=
  (host toLowerCase parsed, port parsed, rawDbName toLowerCase parsed)

/-- Steps 3 to 5 let a database pass. -/
structure Disposable (parsed : Url) : Prop where
  host : ∀ pattern ∈ prohibitedHostPatterns, pattern.test (host toLowerCase parsed) = false
  named : rawDbName toLowerCase parsed ≠ []
  free : rawDbName toLowerCase parsed ∉ prohibitedDbNames.map lit
  marked : hasDisposableMarker (rawDbName toLowerCase parsed) = true

variable {url toLowerCase}

theorem checkParts_ok_iff {redacted : Text} {parsed : Url} {result : SafeTargetVerification} :
    checkParts toLowerCase redacted parsed = .ok result ↔ Disposable toLowerCase parsed ∧
      result = ⟨true, host toLowerCase parsed, port parsed, rawDbName toLowerCase parsed, redacted⟩ := by
  rw [checkParts]
  split
  next pattern found =>
    -- a prohibited host is refused by the first pattern that it matches
    have hit := List.find?_some found
    refine iff_of_false (fun refused => by cases refused) fun ⟨passes, _⟩ => ?_
    rw [passes.host pattern (List.mem_of_find?_eq_some found)] at hit
    cases hit
  next none =>
    have clear : ∀ pattern ∈ prohibitedHostPatterns,
        pattern.test (host toLowerCase parsed) = false := by
      intro pattern member
      simpa using List.find?_eq_none.mp none pattern member
    split
    next bad =>
      refine iff_of_false (fun refused => by cases refused) fun ⟨passes, _⟩ => ?_
      exact bad.elim passes.named passes.free
    next good =>
      obtain ⟨named, free⟩ := not_or.mp good
      split
      next unmarked =>
        refine iff_of_false (fun refused => by cases refused) fun ⟨passes, _⟩ => ?_
        rw [passes.marked] at unmarked
        cases unmarked
      next marked =>
        have marked : hasDisposableMarker (rawDbName toLowerCase parsed) = true := by
          simpa using marked
        constructor
        · rintro ⟨⟩
          exact ⟨⟨clear, named, free, marked⟩, rfl⟩
        · rintro ⟨-, rfl⟩
          rfl

/-- An accepted target is another text than the configured URLs, and disposable. -/
theorem accepted {env : Environment} {target : Option Text} {result : SafeTargetVerification}
    (ok : assertSafeRestoreTarget url toLowerCase env target false = .ok result) :
    ∃ parsed, Disposable toLowerCase parsed ∧
      identity toLowerCase parsed = (result.host, result.port, result.databaseName) := by
  rw [assertSafeRestoreTarget] at ok
  split at ok
  · cases ok
  next trimmedUrl _ =>
    dsimp only at ok
    split at ok
    · cases ok
    · split at ok
      · cases ok
      · split at ok
        · cases ok
        next parsed _ =>
          obtain ⟨passes, rfl⟩ := checkParts_ok_iff.mp ok
          exact ⟨parsed, passes, rfl⟩

/-- A text that is not one of the configured URLs is accepted if what it names is disposable. -/
theorem accepts {env : Environment} {t : Text} {parsed : Url} (nonempty : t ≠ []) (trimmed : trim t = t)
    (other : t ∉ (configured env.databaseUrl).toList ++ (configured env.directUrl).toList)
    (parses : url.parse t = .ok parsed) (passes : Disposable toLowerCase parsed) :
    ∃ result, assertSafeRestoreTarget url toLowerCase env (some t) false = .ok result ∧
      identity toLowerCase parsed = (result.host, result.port, result.databaseName) := by
  have given : ((some t).map trim).filter (· ≠ []) = some t := by
    simp [trimmed, Option.filter, nonempty]
  have others : configured env.databaseUrl ≠ some t ∧ configured env.directUrl ≠ some t := by
    simpa [eq_comm] using other
  refine ⟨⟨true, host toLowerCase parsed, port parsed, rawDbName toLowerCase parsed,
    redactDatabaseUrl url t⟩, ?_, rfl⟩
  rw [assertSafeRestoreTarget, given]
  dsimp only
  rw [if_neg (fun both => others.1 both.2), if_neg (fun both => others.2 both.2), parses]
  exact checkParts_ok_iff.mpr ⟨passes, rfl⟩

theorem Disposable.of_identity {a b : Url} (same : identity toLowerCase a = identity toLowerCase b)
    (passes : Disposable toLowerCase a) : Disposable toLowerCase b := by
  obtain ⟨hosts, rest⟩ := Prod.mk.inj same
  obtain ⟨-, names⟩ := Prod.mk.inj rest
  exact ⟨hosts ▸ passes.host, names ▸ passes.named, names ▸ passes.free, names ▸ passes.marked⟩

variable (url toLowerCase)

/-- A URL that the application is configured with. -/
def Configures (env : Environment) (parsed : Url) : Prop :=
  ∃ t, (configured env.databaseUrl = some t ∨ configured env.directUrl = some t) ∧
    url.parse t = .ok parsed

/-- Every target that is accepted without the bypass names none of the configured databases, is on
no prohibited host and carries a marker. -/
def KeepsApart (env : Environment) : Prop :=
  ∀ target result, assertSafeRestoreTarget url toLowerCase env target false = .ok result →
    (∀ parsed, Configures url env parsed →
      identity toLowerCase parsed ≠ (result.host, result.port, result.databaseName)) ∧
    (∀ pattern ∈ prohibitedHostPatterns, pattern.test result.host = false) ∧
    hasDisposableMarker result.databaseName = true

/-- A URL has any number of spellings with the same host, port and path: with another query. -/
def UrlApi.Respells : Prop :=
  ∀ s parsed, url.parse s = .ok parsed → ∀ used : List Text, ∃ t other, t ∉ used ∧ t ≠ [] ∧
    trim t = t ∧ url.parse t = .ok other ∧ other.hostname = parsed.hostname ∧
    other.port = parsed.port ∧ other.pathname = parsed.pathname

end Guard

/-- The guard keeps its promise exactly if no configured URL names a database that it would let
pass for its host and its name. -/
theorem keepsApart_iff (url : UrlApi) (toLowerCase : Text → Text) (respells : url.Respells)
    (env : Environment) :
    KeepsApart url toLowerCase env ↔
      ∀ parsed, Configures url env parsed → ¬ Disposable toLowerCase parsed := by
  constructor
  · rintro keeps parsed ⟨t, given, parses⟩ passes
    obtain ⟨t', other, fresh, nonempty, trimmed, parses', hostname, port', pathname⟩ :=
      respells t parsed parses
        ((configured env.databaseUrl).toList ++ (configured env.directUrl).toList)
    have same : identity toLowerCase parsed = identity toLowerCase other := by
      simp only [identity, host, port, rawDbName, hostname, port', pathname]
    obtain ⟨result, ok, named⟩ := accepts nonempty trimmed fresh parses' (passes.of_identity same)
    exact (keeps _ result ok).1 parsed ⟨t, given, parses⟩ (same.trans named)
  · intro none target result ok
    obtain ⟨parsed, passes, named⟩ := accepted ok
    obtain ⟨hosts, rest⟩ := Prod.mk.inj named
    obtain ⟨-, names⟩ := Prod.mk.inj rest
    refine ⟨fun parsed' given same => ?_, hosts ▸ passes.host, names ▸ passes.marked⟩
    exact none parsed' given (passes.of_identity (named.trans same.symm))

/-! ### PostgreSQL URLs -/

def beforeQuery (c : CodeUnit) : Bool := !isUnit c "?" && !isUnit c "#"

/-- What comes before the query and the fragment. -/
def plainPart (s : Text) : Text := s.takeWhile beforeQuery

/-- The parts of a URL, from what stands between its scheme and its query. -/
def postgresParts (plain others : Text) : Url :=
  let authority := plain.takeWhile fun c => !isUnit c "/"
  let credentials :=
    if authority.any (isUnit · "@") then authority.takeWhile fun c => !isUnit c "@" else []
  let server :=
    if authority.any (isUnit · "@") then (authority.dropWhile fun c => !isUnit c "@").drop 1
    else authority
  { username := credentials.takeWhile fun c => !isUnit c ":"
    password := (credentials.dropWhile fun c => !isUnit c ":").drop 1
    hostname := server.takeWhile fun c => !isUnit c ":"
    port := (server.dropWhile fun c => !isUnit c ":").drop 1
    pathname := plain.dropWhile fun c => !isUnit c "/"
    others }

/-- What the parser makes of URLs whose parts need no escapes. -/
def postgresApi : UrlApi where
  parse s :=
    if lit "postgresql://" <+: s then
      .ok (postgresParts (plainPart (s.drop 13)) ((s.drop 13).drop (plainPart (s.drop 13)).length))
    else .error (lit "Invalid URL")
  render parsed :=
    lit "postgresql://" ++ parsed.username ++ lit ":" ++ parsed.password ++ lit "@" ++
      parsed.hostname ++ lit ":" ++ parsed.port ++ parsed.pathname ++ parsed.others

theorem trim_eq_self {s : Text} {c d : CodeUnit} {rest init : Text} (first : s = c :: rest)
    (last : s = init ++ [d]) (darkFirst : isWhiteSpace c = false)
    (darkLast : isWhiteSpace d = false) : trim s = s := by
  have front : s.dropWhile isWhiteSpace = s := by
    rw [first, List.dropWhile_cons_of_neg (by simp [darkFirst])]
  have back : s.reverse.dropWhile isWhiteSpace = s.reverse := by
    rw [last, List.reverse_concat, List.dropWhile_cons_of_neg (by simp [darkLast])]
  rw [trim, front, back, List.reverse_reverse]

/-- Appending a query does not change the part before it. -/
theorem plainPart_query (rest query : Text) :
    plainPart (plainPart rest ++ (lit "?" ++ query)) = plainPart rest := by
  have inside : ∀ c ∈ plainPart rest, beforeQuery c = true := fun c => List.mem_takeWhile_imp
  have mark : lit "?" ++ query = 0x3F :: query := rfl
  have ends : (0x3F :: query).takeWhile beforeQuery = [] :=
    List.takeWhile_cons_of_neg (by decide +kernel)
  have taken : (plainPart rest ++ (0x3F :: query)).takeWhile beforeQuery =
      plainPart rest ++ (0x3F :: query).takeWhile beforeQuery :=
    List.takeWhile_append_of_pos inside
  rw [mark, plainPart, taken, ends, List.append_nil]

theorem drop_scheme (rest : Text) : (lit "postgresql://" ++ rest).drop 13 = rest := rfl

theorem parse_scheme (rest : Text) : postgresApi.parse (lit "postgresql://" ++ rest) =
    .ok (postgresParts (plainPart rest) (rest.drop (plainPart rest).length)) := by
  have cases' : postgresApi.parse (lit "postgresql://" ++ rest) =
      if lit "postgresql://" <+: lit "postgresql://" ++ rest then
        .ok (postgresParts (plainPart rest) (rest.drop (plainPart rest).length))
      else .error (lit "Invalid URL") := rfl
  rw [cases', if_pos (List.prefix_append _ _)]

theorem postgresApi_respells : postgresApi.Respells := by
  intro s parsed parses used
  by_cases begins : lit "postgresql://" <+: s
  · obtain ⟨rest, rfl⟩ := begins
    obtain rfl := Except.ok.inj ((parse_scheme rest).symm.trans parses)
    -- the same URL with a query that is longer than every used text
    let longest := (used.map List.length).max?.getD 0
    let query := List.replicate longest (0x78 : CodeUnit) ++ [0x78]
    have scheme : lit "postgresql://" = 0x70 :: (lit "postgresql://").tail := rfl
    have parses' := parse_scheme (plainPart rest ++ (lit "?" ++ query))
    rw [plainPart_query] at parses'
    refine ⟨lit "postgresql://" ++ (plainPart rest ++ (lit "?" ++ query)), _, fun member => ?_,
      ?_, ?_, parses', rfl, rfl, rfl⟩
    · have short : _ ≤ longest := List.le_max?_getD_of_mem (List.mem_map_of_mem member)
      simp only [List.length_append, query, List.length_replicate, List.length_singleton] at short
      omega
    · rw [scheme, List.cons_append]
      exact List.cons_ne_nil _ _
    · have last : lit "postgresql://" ++ (plainPart rest ++ (lit "?" ++ query)) =
          lit "postgresql://" ++ (plainPart rest ++ (lit "?" ++ List.replicate longest 0x78)) ++
            [0x78] := by simp only [query, List.append_assoc]
      have first : lit "postgresql://" ++ (plainPart rest ++ (lit "?" ++ query)) =
          0x70 :: ((lit "postgresql://").tail ++ (plainPart rest ++ (lit "?" ++ query))) := rfl
      exact trim_eq_self first last (by decide +kernel) (by decide +kernel)
  · have refused : postgresApi.parse s = .error (lit "Invalid URL") := if_neg begins
    rw [refused] at parses
    cases parses

/-- A cloud database, and a local one for tests. -/
def cloudEnv : Environment where
  databaseUrl := some (lit "postgresql://app:pw@db.prod.example.com:5432/labourbaba_test")

def localEnv : Environment where
  databaseUrl := some (lit "postgresql://app:pw@localhost:5432/labourbaba_test")

theorem keepsApart_cloud : KeepsApart postgresApi asciiLower cloudEnv := by
  refine (keepsApart_iff postgresApi asciiLower postgresApi_respells cloudEnv).mpr ?_
  rintro parsed ⟨t, given, parses⟩ passes
  have only : configured cloudEnv.databaseUrl =
      some (lit "postgresql://app:pw@db.prod.example.com:5432/labourbaba_test") ∧
      configured cloudEnv.directUrl = none := by decide +kernel
  rw [only.1, only.2] at given
  have host : (postgresApi.parse (lit "postgresql://app:pw@db.prod.example.com:5432/labourbaba_test")).map
      Url.hostname = .ok (lit "db.prod.example.com") := by decide +kernel
  rcases given with given | given
  · rw [Option.some.inj given, parses] at host
    have cloud := passes.host ⟨"/(^|\\.)prod(uction)?(\\.|$)/i", hasLabel ["prod", "production"]⟩
      (by simp [prohibitedHostPatterns])
    rw [LabourBaba.Recovery.host, Except.ok.inj host] at cloud
    exact absurd cloud (by decide +kernel)
  · cases given

/-- The test database of the application, with a query. -/
theorem test_database_accepted : ∃ env, ¬ KeepsApart postgresApi asciiLower env := by
  refine ⟨localEnv, fun keeps => ?_⟩
  have accepted : (assertSafeRestoreTarget postgresApi asciiLower localEnv
      (some (lit "postgresql://app:pw@localhost:5432/labourbaba_test?schema=public")) false).map
        (fun r => (r.host, r.port, r.databaseName)) =
      .ok (lit "localhost", lit "5432", lit "labourbaba_test") := by decide +kernel
  have configures : (postgresApi.parse
      (lit "postgresql://app:pw@localhost:5432/labourbaba_test")).map (identity asciiLower) =
      .ok (lit "localhost", lit "5432", lit "labourbaba_test") := by decide +kernel
  have given : configured localEnv.databaseUrl =
      some (lit "postgresql://app:pw@localhost:5432/labourbaba_test") := by decide +kernel
  cases result : assertSafeRestoreTarget postgresApi asciiLower localEnv
      (some (lit "postgresql://app:pw@localhost:5432/labourbaba_test?schema=public")) false with
  | error message => rw [result] at accepted; cases accepted
  | ok r =>
    cases parses : postgresApi.parse
        (lit "postgresql://app:pw@localhost:5432/labourbaba_test") with
    | error message => rw [parses] at configures; cases configures
    | ok parsed =>
      rw [result] at accepted
      rw [parses] at configures
      exact (keeps _ r result).1 parsed ⟨_, .inl given, parses⟩
        ((Except.ok.inj configures).trans (Except.ok.inj accepted).symm)

end LabourBaba.Recovery
