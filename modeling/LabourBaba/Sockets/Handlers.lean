import LabourBaba.Sockets.Conformance

/-!
# The calls keep to the protocol

One lemma for each service, from the bottom up: what a lookup that authorizes has found, the
conversation of a booking, the message that is stored, then the handlers that write and emit
with that knowledge, and at the end the whole system (`system_verified`).
-/
namespace LabourBaba.Sockets

open Store Locations

section Services

variable {cfg : Config} {me : ℕ} {d : Db} {α : Type}

/-- The call keeps to the protocol from a store on, with what it has achieved. -/
abbrev Yields (cfg : Config) (me : ℕ) (d : Db) (c : Service α) (post : α → Db → Prop) : Prop :=
  Call.YieldsFrom (protocol cfg) me d c post

/-- A call of which nothing is to be known afterwards, from any store. -/
abbrev Conforms (cfg : Config) (me : ℕ) (c : Service α) : Prop :=
  ∀ d, Yields cfg me d c fun _ _ => True

theorem Conforms.bind {β : Type} {c : Service α} {f : α → Service β} (first : Conforms cfg me c)
    (next : ∀ a, Conforms cfg me (f a)) : Conforms cfg me (c >>= f) :=
  fun d => .bind _ (first d) fun a d _ => next a d

theorem Conforms.pure (a : α) : Conforms cfg me (Pure.pure a : Service α) :=
  fun _ => .pure trivial

theorem Conforms.throw (e : Failure) : Conforms cfg me (MonadExcept.throw e : Service α) :=
  fun _ => .throw e _

theorem Conforms.attempt {c : Service α} (conforms : Conforms cfg me c) :
    Conforms cfg me (Call.attempt c) :=
  fun d => (Call.YieldsFrom.attempt (conforms d)).mono fun _ _ _ => trivial

theorem Conforms.query (f : Db → α) : Conforms cfg me (query f) :=
  fun _ => .read fun _ _ _ => trivial

/-- What no write undoes is still known when a call has ended. -/
theorem Yields.along {c : Service α} {post : α → Db → Prop} {R : Db → Prop}
    (stable : ∀ d d', Later d d' → R d → R d') (known : R d) (yields : Yields cfg me d c post) :
    Yields cfg me d c fun a d => post a d ∧ R d := by
  have framed := wp_frame (P := protocol cfg) (R := R)
    (fun _ d d' rely => stable d d' rely.evo)
    (fun ℓ d d' inv guar => stable d d' ((protocol cfg).guar_evo me (me + 1) ℓ d d' (by omega) inv guar))
    c.run none d known yields
  refine Store.wp_mono ?_ _ _ _ framed
  rintro r tx d ⟨⟨closed, holds⟩, still⟩
  exact ⟨closed, fun a same => ⟨holds a same, still⟩⟩

theorem does_write {w : Write} (fits : Fits cfg d w) (ℓ : Label) :
    (protocol cfg).Does me ℓ d (w.apply d) :=
  Or.inr ⟨w, rfl, fits⟩

theorem yields_effect {w : Write} {unlocked : w.keys = []} {post : Unit → Db → Prop}
    (fits : ∀ d', Later d d' → Fits cfg d' w ∧ post () (w.apply d')) :
    Yields cfg me d (effect w unlocked) post :=
  .send fun d' rely _ => ⟨does_write (fits d' rely.evo).1 _, (fits d' rely.evo).2⟩

/-- A statement that writes one row, or none. -/
theorem yields_step {f : Db → Except Failure (List Write × α)} {post : α → Db → Prop}
    (writes : ∀ d' ws a, Later d d' → Wf cfg d' → f d' = .ok (ws, a) →
      ∃ w, ws = [w] ∧ Fits cfg d' w ∧ post a (w.apply d')) :
    Yields cfg me d (step f) post := by
  refine .stmt fun d' ws a rely _ result => ?_
  obtain ⟨w, rfl, fits, holds⟩ := writes d' ws a rely.evo rely.inv result
  exact ⟨does_write fits _, holds⟩

theorem Conforms.effect {w : Write} {unlocked : w.keys = []} (fits : ∀ d, Fits cfg d w) :
    Conforms cfg me (effect w unlocked) :=
  fun _ => yields_effect fun d' _ => ⟨fits d', trivial⟩

/-- A write that may be made in any store. -/
theorem Conforms.free {f : Db → Except Failure (List Write × α)}
    (fits : ∀ d ws a, f d = .ok (ws, a) → ∃ w, ws = [w] ∧ ∀ d', Fits cfg d' w) :
    Conforms cfg me (step f) := by
  intro d
  refine yields_step fun d' ws a _ _ result => ?_
  obtain ⟨w, only, free⟩ := fits d' ws a result
  exact ⟨w, only, free d', trivial⟩

theorem Conforms.parse (id : String) : Conforms cfg me (parse cfg id) := by
  intro d
  simp only [Sockets.parse]
  split
  · exact .pure trivial
  · exact .throw _ _

theorem yields_parse (id : String) :
    Yields cfg me d (parse cfg id) fun key _ => cfg.uuid id = some key := by
  simp only [parse]
  split
  next key parsed => exact .pure parsed
  next => exact .throw _ _

/-! ### Handshakes and requests -/

theorem socketAuthMiddleware_conforms (credentials : Credentials) :
    Conforms cfg me (socketAuthMiddleware cfg credentials) := by
  cases credentials with
  | missing => exact .throw _
  | rejected => exact .throw _
  | verified claims =>
    simp only [socketAuthMiddleware]
    split
    · exact .throw _
    · split
      · exact .throw _
      · exact .pure _
      · split
        · exact .throw _
        · refine Conforms.bind (.query _) fun worker => ?_
          cases worker with
          | none => exact .throw _
          | some w => exact .pure _
      · split
        · exact .throw _
        · refine Conforms.bind (.query _) fun customer => ?_
          cases customer with
          | none => exact .throw _
          | some c => exact .pure _

theorem connect_conforms (credentials : Credentials) : Conforms cfg me (connect cfg me credentials) :=
  (socketAuthMiddleware_conforms credentials).bind fun _ => .effect fun _ => rfl

theorem authenticateJWT_conforms (credentials : Credentials) :
    Conforms cfg me (authenticateJWT cfg credentials) := by
  cases credentials with
  | missing => exact .throw _
  | rejected => exact .throw _
  | verified claims =>
    simp only [authenticateJWT]
    split
    · exact .throw _
    · split
      · exact .throw _
      · exact .pure _
      · refine (Conforms.parse _).bind fun id => (Conforms.query _).bind fun worker => ?_
        split
        · exact .throw _
        · exact .pure _
      · refine (Conforms.parse _).bind fun id => (Conforms.query _).bind fun customer => ?_
        split
        · exact .throw _
        · exact .pure _

/-! ### The chat service -/

/-- The booking is stored, with the columns that never change. -/
def Stored (d : Db) (b : Booking) : Prop := ∃ b' ∈ d.bookings, b'.core = b.core

theorem Later.stored {d d' : Db} {b : Booking} (later : Later d d') (stored : Stored d b) :
    Stored d' b := by
  obtain ⟨b', member, same⟩ := stored
  obtain ⟨b'', member', same'⟩ := later.booking member
  exact ⟨b'', member', same'.trans same⟩

theorem authorizedBooking_yields (user : SocketUserData) (id : Id) :
    Yields cfg me d (authorizedBooking user id) fun b d =>
      b.id = id ∧ Stored d b ∧ b.Admits user := by
  refine .bind (fun found d => ∀ b, found = some b → b.id = id ∧ Stored d b ∧ b.Admits user)
    (.read fun d' _ _ b found => ?_) fun found d₁ known => ?_
  · -- the scoped query finds only rows that the user may read
    have passes : (scopeBooking user id).holds b.resource = true := by
      simpa using List.find?_some found
    obtain ⟨named, admits⟩ := scopeBooking_admits passes
    exact ⟨named, ⟨b, List.mem_of_find?_eq_some found, rfl⟩, admits⟩
  · cases found with
    | some b => exact .pure (known b rfl)
    | none =>
      -- the second lookup is not scoped: the policy decides, and refuses or agrees
      refine .bind (fun found d => ∀ b, found = some b → b.id = id ∧ Stored d b)
        (.read fun d' _ _ b found => ?_) fun found d₂ known => ?_
      · exact ⟨Table.find_key found, ⟨b, Table.mem_of_find found, rfl⟩⟩
      · cases found with
        | none => exact .throw _ _
        | some b =>
          dsimp only [assertPolicy]
          split
          next allowed =>
            obtain ⟨named, stored⟩ := known b rfl
            exact .pure ⟨named, stored, (canReadConversation_iff user _).mp allowed⟩
          next => exact .throw _ _

/-- The conversation is stored as that of the booking. -/
def Converses (d : Db) (bookingId : Id) (c : Conversation) : Prop :=
  c ∈ d.conversations ∧ c.bookingId = bookingId

theorem conversation_converses {bookingId : Id} {c : Conversation}
    (found : d.conversation bookingId = some c) : Converses d bookingId c :=
  ⟨Table.mem_of_find found, Table.find_key found⟩

theorem getOrCreateConversation_yields {b : Booking} (stored : Stored d b) (newId : Id) :
    Yields cfg me d (getOrCreateConversation b newId) fun c d => Converses d b.id c := by
  refine .bind (fun found d => Stored d b ∧ ∀ c, found = some c → Converses d b.id c)
    (.read fun d' rely _ => ⟨rely.evo.stored stored, fun c => conversation_converses⟩)
    fun found d₁ known => ?_
  cases found with
  | some c => exact .pure (known.2 c rfl)
  | none =>
    -- between the lookup and the insertion another call may have created it
    refine .bind (fun created d => ∀ c, created = .ok c → Converses d b.id c) (.attempt ?_)
      fun created d₂ known₂ => ?_
    · refine yields_step fun d' ws c later _ result => ?_
      split at result
      · cases result
      next free =>
        cases result
        obtain ⟨b', member, same⟩ := later.stored known.1
        obtain ⟨sameId, sameWorker, sameCustomer⟩ := Booking.columns_of_core same
        refine ⟨_, rfl, ⟨b', member, sameId, sameWorker, sameCustomer⟩, ?_, rfl⟩
        -- the row that no unique constraint has refused is the new one
        simp only [Write.apply, Table.insert, if_neg free]
        exact List.mem_append_right _ (List.mem_singleton.mpr rfl)
    · cases created with
      | ok c => exact .pure (known₂ c rfl)
      | error err =>
        -- the conversation that won is read back
        refine .bind (fun found d => ∀ c, found = some c → Converses d b.id c)
          (.read fun d' _ _ c => conversation_converses) fun found d₃ known₃ => ?_
        cases found with
        | some c => exact .pure (known₃ c rfl)
        | none => exact .throw _ _

theorem chats_of_converses {b : Booking} {c : Conversation} {user : SocketUserData}
    (stored : Stored d b) (admits : b.Admits user) (converses : Converses d b.id c) :
    Chats d c.id user := by
  obtain ⟨b', member, same⟩ := stored
  obtain ⟨sameId, -, -⟩ := Booking.columns_of_core same
  exact ⟨c, converses.1, rfl, b', member, sameId.trans converses.2.symm,
    (Booking.admits_of_core same).mpr admits⟩

/-- The message is stored, in the conversation of the booking that the spelling names. -/
def Sent (cfg : Config) (bookingId : String) (m : Message) (d : Db) : Prop :=
  m ∈ d.messages ∧ Discusses cfg d bookingId m.conversationId

theorem sendMessage_yields (bookingId : String) (content : Text) (user : SocketUserData)
    (new : NewIds) :
    Yields cfg me d (sendMessage cfg bookingId content user new) (Sent cfg bookingId) := by
  refine .bind _ (yields_parse bookingId) fun id d₁ parsed => ?_
  refine .bind _ (authorizedBooking_yields user id) fun b d₂ authorized => ?_
  obtain ⟨rfl, stored, admits⟩ := authorized
  refine .bind _ ((getOrCreateConversation_yields stored new.conversation).along
    (fun _ _ later => later.stored) stored) fun c d₃ known => ?_
  refine yields_step fun d' ws m later _ result => ?_
  -- bookings and conversations stay, so what the lookups found holds at the insertion
  have converses : Converses d' b.id c := ⟨later.conversations known.1.1, known.1.2⟩
  dsimp only at result
  split at result
  · cases result
  next free =>
    cases result
    refine ⟨_, rfl, ⟨rfl, chats_of_converses (later.stored known.2) admits converses, by simpa using free⟩,
      ?_, ?_⟩
    · simp only [Write.apply, Table.insert, if_neg free]
      exact List.mem_append_right _ (List.mem_singleton.mpr rfl)
    · exact ⟨c, converses.1, rfl, by rw [parsed, converses.2]⟩

theorem getMessages_conforms (bookingId : String) (user : SocketUserData) (newId : Id) :
    Conforms cfg me (getMessages cfg bookingId user newId) := by
  intro d
  refine .bind _ (yields_parse bookingId) fun id d₁ _ => ?_
  refine .bind _ (authorizedBooking_yields user id) fun b d₂ authorized => ?_
  refine .bind _ (getOrCreateConversation_yields authorized.2.1 newId) fun c d₃ _ => ?_
  exact .read fun _ _ _ => trivial

/-- A message that is stored may be emitted to the room that it was sent to. -/
theorem yields_emitMessage {bookingId : String} {m : Message} (sent : Sent cfg bookingId m d) :
    Yields cfg me d (emit (getBookingChatRoom bookingId) (.message m)) fun _ _ => True :=
  yields_effect fun _ later =>
    ⟨⟨.booking bookingId, rfl, later.messages sent.1, later.discusses sent.2⟩, trivial⟩

/-! ### Handlers -/

theorem joinPersonalRoom_conforms {role : UserRole} (wrongRole wrongUser joined : String)
    (socket : Socket) (claimed : Option String) :
    Conforms cfg me (joinPersonalRoom role wrongRole wrongUser joined socket claimed) := by
  simp only [joinPersonalRoom]
  split
  · exact .pure _
  next allowed =>
    split
    · exact .pure _
    · refine Conforms.bind (.effect fun d => ⟨personal role socket.user.id, name_personal _ _, ?_⟩)
        fun _ => .pure _
      -- an administrator passes the check of the role, but enters a room under its own id
      have fitting : socket.user.role = role ∨ socket.user.role = .ADMIN := by
        by_contra neither
        exact allowed (not_or.mp neither)
      cases role with
      | WORKER => exact ⟨rfl, fitting⟩
      | CUSTOMER => exact ⟨rfl, fitting⟩
      | ADMIN => exact ⟨rfl, fitting.elim id id⟩

/-- A room of rows is entered only after a row that admits the user has been found. -/
theorem joinRoom_conforms {Row : Type} {kind : Joinable Row} {readers : Row → Policies.Readers}
    (guarded : kind.Guarded readers) (room : String → Room)
    (named : ∀ spelling, (room spelling).name = kind.room spelling)
    (grants : ∀ d user spelling, kind.Reads readers cfg d user spelling →
      Entitled cfg d user (room spelling)) (socket : Socket) (asked : Option String) :
    Conforms cfg me (joinRoom kind cfg socket asked) := by
  intro d
  simp only [joinRoom]
  split
  · exact .pure trivial
  next id _ =>
    -- entering is the same after either lookup
    have enter : ∀ d, kind.Reads readers cfg d socket.user id →
        Yields cfg me d (do
          join socket (kind.room id)
          pure ({ success := true, message := some (kind.joined ++ kind.room id) } :
            SocketAckResponse)) fun _ _ => True := by
      intro d reads
      have entitled := grants d socket.user id reads
      exact .bind (fun _ _ => True) (yields_effect fun d' later =>
        ⟨⟨room id, named id, entitled.later later⟩, trivial⟩) fun _ _ _ => .pure trivial
    split
    · exact .pure trivial
    next key parsed =>
      have asked : key ≠ "" := fun empty => cfg.uuid_nonempty id (empty ▸ parsed)
      refine .bind (fun found d => ∀ row, found = some row →
          kind.Reads readers cfg d socket.user id) (.read fun d' _ _ row found => ?_)
        fun found d₁ known => ?_
      · -- the scope compares spellings, which parsing has found not to be empty
        obtain ⟨same, admits⟩ := guarded.scope _ _ _ asked (List.find?_some found)
        exact ⟨row, List.mem_of_find?_eq_some found, by rw [parsed, same], admits⟩
      · cases found with
        | some row => exact enter d₁ (known row rfl)
        | none =>
          refine .bind (fun found d => ∀ row, found = some row →
              (kind.canRead socket.user row).allowed = true →
                kind.Reads readers cfg d socket.user id) (.read fun d' _ _ row found allowed => ?_)
            fun found d₂ known => ?_
          · exact ⟨row, Table.mem_of_find found, by rw [parsed, Table.find_key found],
              guarded.check _ _ allowed⟩
          · cases found with
            | none => exact .pure trivial
            | some row =>
              dsimp only
              split
              next allowed => exact enter d₂ (known row rfl allowed)
              next => exact .pure trivial

theorem updateLocation_conforms (workerId newId : Id) (place : Place) :
    Conforms cfg me (updateLocation cfg workerId newId place) := by
  simp only [updateLocation]
  split
  · exact .throw _
  · split
    · exact .throw _
    · refine (Conforms.query _).bind fun t => Conforms.bind (.free ?_) fun updated => ?_
      · rintro d ws a ⟨⟩
        exact ⟨_, rfl, fun _ => trivial⟩
      · split
        · exact .pure _
        · refine (Conforms.query _).bind fun active => ?_
          split
          · exact .throw _
          · exact .throw _

/-- The relationship that was found is remembered by the history of statuses. -/
theorem followed_of_streams {b : Booking} {workerId customerId : Id} {spelling : String}
    (wf : Wf cfg d) (member : b ∈ d.bookings) (streams : b.streams workerId customerId = true)
    (parsed : cfg.uuid spelling = some customerId) : Followed cfg d workerId spelling := by
  simp only [Booking.streams, decide_eq_true_eq] at streams
  obtain ⟨mine, theirs, active⟩ := streams
  exact ⟨b, member, mine, by rw [parsed, theirs], b.status, active, wf.held b member⟩

theorem locationUpdate_conforms (socket : Socket) (payload : WorkerLocationPayload) (newId : Id) :
    Conforms cfg me (locationUpdate cfg socket payload newId) := by
  intro d
  simp only [locationUpdate]
  split
  · exact .pure trivial
  split
  · exact .pure trivial
  split
  · exact .pure trivial
  next customerId _ =>
    split
    · exact .pure trivial
    next place valid =>
      split
      · exact .pure trivial
      next key parsed =>
        have inRange : place.Valid := (validateCoordinatePair_ok.mp valid).2.2
        refine .bind (fun related d => related = true → Followed cfg d socket.user.id customerId)
          (.read fun d' rely _ related => ?_) fun related d₁ known => ?_
        · obtain ⟨b, member, streams⟩ := List.any_eq_true.mp related
          exact followed_of_streams rely.inv member streams parsed
        · split
          · exact .pure trivial
          next related =>
            -- storing the location may fail or take long, but it does not undo the relationship
            have followed := known (by simpa using related)
            refine .bind _ (Yields.along (fun _ _ later => later.followed) followed
              (Conforms.attempt (updateLocation_conforms _ newId place) d₁)) fun updated d₂ still => ?_
            cases updated with
            | error locErr => exact .pure trivial
            | ok _ =>
              exact .bind (fun _ _ => True) (yields_effect fun d' later =>
                ⟨⟨.customer customerId, rfl, inRange, later.followed still.2⟩, trivial⟩)
                fun _ _ _ => .pure trivial

theorem chatMessage_conforms (socket : Socket) (bookingId : Option String) (content : Option Text)
    (new : NewIds) : Conforms cfg me (chatMessage cfg socket bookingId content new) := by
  intro d
  simp only [chatMessage]
  split
  · split
    · exact .pure trivial
    · split
      · exact .pure trivial
      · refine .bind _ (Conforms.attempt (fun d => ?_) d) fun sent d₁ _ => ?_
        · refine .bind _ (sendMessage_yields _ _ _ _) fun m d₂ sent => ?_
          exact .bind _ (yields_emitMessage sent) fun _ _ _ => .pure trivial
        · cases sent with
          | ok m => exact .pure trivial
          | error err => exact .pure trivial
  · exact .pure trivial

theorem postMessage_conforms (credentials : Credentials) (bookingId : String) (content : Text)
    (new : NewIds) : Conforms cfg me (postMessage cfg credentials bookingId content new) := by
  refine (authenticateJWT_conforms credentials).bind fun user => ?_
  split
  · exact .throw _
  split
  · exact .throw _
  split
  · exact .throw _
  · intro d
    refine .bind _ (sendMessage_yields _ _ _ _) fun m d₁ sent => ?_
    exact .bind _ (yields_emitMessage sent) fun _ _ _ => .pure trivial

theorem listMessages_conforms (credentials : Credentials) (bookingId : String) (newId : Id) :
    Conforms cfg me (listMessages cfg credentials bookingId newId) := by
  refine (authenticateJWT_conforms credentials).bind fun user => ?_
  split
  · exact .throw _
  · exact getMessages_conforms _ _ _

/-! ### Accounts -/

theorem suspendWorker_conforms (workerId : String) : Conforms cfg me (suspendWorker cfg workerId) := by
  refine (Conforms.parse _).bind fun id => (Conforms.query _).bind fun existing => ?_
  split
  · exact .throw _
  · refine (Conforms.query _).bind fun t => Conforms.bind (fun d => ?_) fun _ => fun d => ?_
    · -- the account is closed in a transaction of one statement
      refine Call.transaction_ends (fun d' _ => ?_) (fun e d' => ⟨rfl, by simp⟩)
      refine Call.stmt_inTx (fun d₁ t₁ ws a _ _ result grows _ => ?_) fun _ _ _ _ _ => trivial
      split at result
      · cases result
      · cases result
        refine fun d₂ rely _ => ⟨?_, rfl, fun _ _ => trivial⟩
        have writes : t₁.writes = [.suspendWorker id t] := grows.writes
        rw [writes]
        exact does_write (w := .suspendWorker id t) trivial _
    · -- the sockets are disconnected after it, whether or not one is there
      exact .send fun d' _ _ => ⟨does_write (w := .disconnectSockets _) trivial _, trivial⟩

theorem verifyWorkerDocument_conforms (workerId : String) (verified : Bool) :
    Conforms cfg me (verifyWorkerDocument cfg workerId verified) := by
  refine (Conforms.parse _).bind fun id => Conforms.bind (fun d => .choose fun _ _ _ => trivial)
    fun pending => ?_
  split
  · refine .free fun d ws a result => ?_
    split at result
    · cases result
    · cases result
      exact ⟨_, rfl, fun _ => trivial⟩
  · exact .throw _

end Services

/-! ### The system -/

section System

variable {cfg : Config} {me : ℕ}

theorem handle_conforms (socket : Socket) (event : ClientEvent) :
    Conforms cfg me (handle cfg socket event) := by
  cases event with
  | joinWorker workerId => exact joinPersonalRoom_conforms _ _ _ socket workerId
  | joinCustomer customerId => exact joinPersonalRoom_conforms _ _ _ socket customerId
  | joinBooking bookingId =>
    exact joinRoom_conforms bookings_guarded .booking (fun _ => rfl) (fun _ _ _ reads => reads)
      socket bookingId
  | joinJob jobId =>
    exact joinRoom_conforms jobs_guarded .job (fun _ => rfl) (fun _ _ _ reads => reads) socket jobId
  | joinRequirement requirementId =>
    exact joinRoom_conforms requirements_guarded .requirement (fun _ => rfl)
      (fun _ _ _ reads => reads) socket requirementId
  | locationUpdate payload newId => exact locationUpdate_conforms socket payload newId
  | chatMessage bookingId content new => exact chatMessage_conforms socket bookingId content new

theorem change_fits (d : Db) (change : Change) : Fits cfg d change.write := by
  cases change <;> trivial

theorem serviceOf_conforms (op : Op) : Conforms cfg me (serviceOf cfg me op) := by
  cases op with
  | connect credentials => exact (connect_conforms credentials).bind fun _ => .pure _
  | event socket event =>
    refine (Conforms.query _).bind fun connected => ?_
    split
    · exact (handle_conforms socket event).bind fun _ => .pure _
    · exact .throw _
  | disconnect socket => exact Conforms.bind (.effect fun _ => trivial) fun _ => .pure _
  | postMessage credentials bookingId content new =>
    exact (postMessage_conforms credentials bookingId content new).bind fun _ => .pure _
  | getMessages credentials bookingId newId =>
    exact (listMessages_conforms credentials bookingId newId).bind fun _ => .pure _
  | notify role recipientId event =>
    refine Conforms.bind (.effect fun d => ⟨personal role recipientId, name_personal _ _, ?_⟩)
      fun _ => .pure _
    rw [addressed_notification]
    exact ⟨role, recipientId, rfl⟩
  | suspendWorker workerId => exact (suspendWorker_conforms workerId).bind fun _ => .pure _
  | verifyWorkerDocument workerId verified =>
    exact (verifyWorkerDocument_conforms workerId verified).bind fun _ => .pure _
  | change change =>
    refine Conforms.bind (.free fun d ws a result => ?_) fun _ => .pure _
    cases result
    exact ⟨_, rfl, fun d' => change_fits d' change⟩

theorem system_verified (cfg : Config) :
    Pool.Verified (protocol cfg) (fun _ _ _ _ => True) (system cfg) := by
  intro me op d
  refine Store.wp_mono (fun _ _ _ _ => trivial) _ _ _ (@serviceOf_conforms cfg me op d)

theorem wf_of_reachable {p : SocketPool} (reached : Reachable cfg p) : Wf cfg p.db :=
  (reached.sound (system_verified cfg) (fun _ _ _ _ _ _ _ _ => trivial)
    (.empty (@wf_start cfg))).inv

end System

end LabourBaba.Sockets
