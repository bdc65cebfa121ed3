import LabourBaba.Sockets.Deliveries
import LabourBaba.Store.Barriers
import LabourBaba.Store.Lawful
import Mathlib

/-!
# Suspended workers and their sockets

A suspension closes the worker's account and disconnects its room, into which every socket of
the worker was put when it connected. A handshake that starts later finds the account closed;
one that has looked it up before still connects, after the room was emptied.
-/
namespace LabourBaba.Sockets

open Store Locations

/-! ### Closed accounts -/

def Closed (workerId : Id) (d : Db) : Prop :=
  ∃ w, d.worker workerId = some w ∧ w.deletedAt.isSome = true

theorem Closed.modify {workerId : Id} {d d' : Db} (closed : Closed workerId d) {ids : List Id}
    {f : Worker → Worker} (id : ∀ w, (f w).id = w.id)
    (stays : ∀ w, w.deletedAt.isSome = true → (f w).deletedAt.isSome = true)
    (modified : d'.tracking.workers = Table.modify Worker.id d.tracking.workers ids f) :
    Closed workerId d' := by
  obtain ⟨w, found, gone⟩ := closed
  have after : d'.worker workerId = some (if workerId ∈ ids then f w else w) := by
    simp only [Db.worker, Tracking.worker] at found ⊢
    rw [modified, Table.find_modify _ _ _ _ id, found, Option.map_some]
  refine ⟨_, after, ?_⟩
  split
  · exact stays w gone
  · exact gone

/-- No write opens an account again. -/
theorem Closed.apply {workerId : Id} {d : Db} (w : Write) (closed : Closed workerId d) :
    Closed workerId (w.apply d) := by
  cases w with
  | updateLocation id newId place t =>
    simp only [Write.apply, Tracking.updateLocation]
    split
    · exact closed.modify (f := Worker.located place t) (fun _ => rfl) (fun _ gone => gone) rfl
    · exact closed
  | suspendWorker id t => exact closed.modify (f := suspended t) (fun _ => rfl) (fun _ _ => rfl) rfl
  | verificationStatus id status =>
    exact closed.modify (f := reviewed status) (fun _ => rfl) (fun _ gone => gone) rfl
  | insertWorker w =>
    obtain ⟨old, found, gone⟩ := closed
    exact ⟨old, Table.find_insert_of_some found, gone⟩
  | _ => exact closed

/-- A socket of the worker. -/
def Socket.ofWorker (workerId : Id) (s : Socket) : Prop :=
  s.user.role = .WORKER ∧ s.user.id = workerId

/-- The socket that a write connects. -/
def Write.connects : Write → Option Socket
  | .connect socket _ => some socket
  | _ => none

/-- A connection has the number of its handshake. -/
def Write.own (me : ℕ) (w : Write) : Prop := ∀ s, w.connects = some s → s.id = me

def suspension (workerId : Id) : Barrier Db where
  closed := Closed workerId
  bars w := ∃ s, w.connects = some s ∧ s.ofWorker workerId
  closed_write w _ closed := closed.apply w

/-! ### What the calls write -/

/-- Nothing but a handshake connects a socket. -/
abbrev Quiet {α : Type} (c : Service α) : Prop :=
  Call.Emits (fun w : Write => w.connects = none) (fun _ => True) false c

section Texts

variable {α : Type} {cfg : Config}

theorem quiet_query (f : Db → α) : Quiet (query f) := .read _ _

theorem quiet_step {f : Db → Except Failure (List Write × α)}
    (writes : ∀ d ws a, f d = .ok (ws, a) → ∀ w ∈ ws, w.connects = none) : Quiet (step f) :=
  .stmt (Or.inr trivial) writes

theorem quiet_effect {w : Write} (unlocked : w.keys = []) (connects : w.connects = none) :
    Quiet (effect w unlocked) :=
  .send trivial fun _ v member => by
    obtain rfl := List.mem_singleton.mp member
    exact connects

theorem quiet_parse (id : String) : Quiet (parse cfg id) := by
  simp only [parse]
  split
  · exact .pure _
  · exact .throw _

theorem authorizedBooking_quiet (user : SocketUserData) (id : Id) :
    Quiet (authorizedBooking user id) := by
  refine (quiet_query _).bind fun booking => ?_
  cases booking with
  | some b => exact .pure b
  | none =>
    refine (quiet_query _).bind fun rawBooking => ?_
    cases rawBooking with
    | none => exact .throw _
    | some b =>
      refine Call.Emits.bind ?_ fun _ => .pure b
      simp only [assertPolicy]
      split
      · exact .pure ()
      · exact .throw _

theorem getOrCreateConversation_quiet (b : Booking) (newId : Id) :
    Quiet (getOrCreateConversation b newId) := by
  refine (quiet_query _).bind fun existing => ?_
  cases existing with
  | some c => exact .pure c
  | none =>
    have created : ∀ c, Quiet (createConversation c) := fun c => quiet_step fun d ws a made => by
      split at made
      · cases made
      · cases made
        simp [Write.connects]
    refine (created _).attempt.bind fun result => ?_
    cases result with
    | ok c => exact .pure c
    | error err =>
      refine (quiet_query _).bind fun stored => ?_
      cases stored with
      | some c => exact .pure c
      | none => exact .throw err

theorem sendMessage_quiet (bookingId : String) (content : Text) (user : SocketUserData)
    (new : NewIds) : Quiet (sendMessage cfg bookingId content user new) := by
  refine (quiet_parse bookingId).bind fun id => (authorizedBooking_quiet user id).bind fun booking => ?_
  refine (getOrCreateConversation_quiet booking _).bind fun conversation => quiet_step ?_
  intro d ws a sent
  simp only at sent
  split at sent
  · cases sent
  · cases sent
    simp [Write.connects]

theorem authenticateJWT_quiet (credentials : Credentials) :
    Quiet (authenticateJWT cfg credentials) := by
  cases credentials with
  | missing | rejected => exact .throw _
  | verified claims =>
    simp only [authenticateJWT]
    split
    · exact .throw _
    · split
      · exact .throw _
      · exact .pure _
      · refine (quiet_parse _).bind fun id => (quiet_query _).bind fun worker => ?_
        split
        · exact .throw _
        · exact .pure _
      · refine (quiet_parse _).bind fun id => (quiet_query _).bind fun customer => ?_
        split
        · exact .throw _
        · exact .pure _

theorem joinPersonalRoom_quiet (role : UserRole) (wrongRole wrongUser joined : String)
    (socket : Socket) (claimed : Option String) :
    Quiet (joinPersonalRoom role wrongRole wrongUser joined socket claimed) := by
  simp only [joinPersonalRoom]
  split
  · exact .pure _
  · split
    · exact .pure _
    · exact (quiet_effect rfl rfl).bind fun _ => .pure _

theorem joinRoom_quiet {Row : Type} (kind : Joinable Row) (socket : Socket) (named : Option String) :
    Quiet (joinRoom kind cfg socket named) := by
  simp only [joinRoom]
  split
  · exact .pure _
  · split
    · exact .pure _
    · refine (quiet_query _).bind fun row => ?_
      split
      · exact (quiet_effect rfl rfl).bind fun _ => .pure _
      · refine (quiet_query _).bind fun rawRow => ?_
        split
        · exact .pure _
        · split
          · exact (quiet_effect rfl rfl).bind fun _ => .pure _
          · exact .pure _

theorem updateLocation_quiet (workerId newId : Id) (place : Place) :
    Quiet (updateLocation cfg workerId newId place) := by
  simp only [updateLocation]
  split
  · exact .throw _
  · split
    · exact .throw _
    · refine (quiet_query _).bind fun t => (quiet_step ?_).bind fun updated => ?_
      · rintro d ws a ⟨⟩
        simp [Write.connects]
      · split
        · exact .pure _
        · refine (quiet_query _).bind fun active => ?_
          split
          · exact .throw _
          · exact .throw _

theorem locationUpdate_quiet (socket : Socket) (payload : WorkerLocationPayload) (newId : Id) :
    Quiet (locationUpdate cfg socket payload newId) := by
  simp only [locationUpdate]
  split
  · exact .pure _
  · split
    · exact .pure _
    · split
      · exact .pure _
      · split
        · exact .pure _
        · split
          · exact .pure _
          · refine (quiet_query _).bind fun activeRelationship => ?_
            split
            · exact .pure _
            · refine (updateLocation_quiet _ _ _).attempt.bind fun updated => ?_
              split
              · exact .pure _
              · exact (quiet_effect rfl rfl).bind fun _ => .pure _

theorem chatMessage_quiet (socket : Socket) (bookingId : Option String) (content : Option Text)
    (new : NewIds) : Quiet (chatMessage cfg socket bookingId content new) := by
  simp only [chatMessage]
  split
  · split
    · exact .pure _
    · split
      · exact .pure _
      · refine Call.Emits.bind (.attempt ?_) fun sent => ?_
        · exact (sendMessage_quiet _ _ _ _).bind fun _ => (quiet_effect rfl rfl).bind fun _ => .pure _
        · split
          · exact .pure _
          · exact .pure _
  · exact .pure _

theorem handle_quiet (socket : Socket) (event : ClientEvent) : Quiet (handle cfg socket event) := by
  cases event with
  | joinWorker claimed | joinCustomer claimed => exact joinPersonalRoom_quiet _ _ _ _ _ _
  | joinBooking id | joinJob id | joinRequirement id => exact joinRoom_quiet _ _ _
  | locationUpdate payload newId => exact locationUpdate_quiet _ _ _
  | chatMessage bookingId content new => exact chatMessage_quiet _ _ _ _

theorem postMessage_quiet (credentials : Credentials) (bookingId : String) (content : Text)
    (new : NewIds) : Quiet (postMessage cfg credentials bookingId content new) := by
  refine (authenticateJWT_quiet credentials).bind fun user => ?_
  split
  · exact .throw _
  · split
    · exact .throw _
    · split
      · exact .throw _
      · exact (sendMessage_quiet _ _ _ _).bind fun _ => (quiet_effect rfl rfl).bind fun _ => .pure _

theorem listMessages_quiet (credentials : Credentials) (bookingId : String) (newId : Id) :
    Quiet (listMessages cfg credentials bookingId newId) := by
  refine (authenticateJWT_quiet credentials).bind fun user => ?_
  split
  · exact .throw _
  · refine (quiet_parse _).bind fun id => (authorizedBooking_quiet _ _).bind fun booking => ?_
    exact (getOrCreateConversation_quiet _ _).bind fun _ => quiet_query _

theorem suspendWorker_quiet (workerId : String) : Quiet (suspendWorker cfg workerId) := by
  refine (quiet_parse _).bind fun id => (quiet_query _).bind fun existing => ?_
  split
  · exact .throw _
  · refine (quiet_query _).bind fun t => Call.Emits.bind (.transaction (fun _ => trivial) ?_) fun _ => ?_
    · refine .stmt (Or.inl rfl) fun d ws a suspends => ?_
      split at suspends
      · cases suspends
      · cases suspends
        simp [Write.connects]
    · refine .send trivial fun d w member => ?_
      obtain rfl := List.mem_singleton.mp member
      rfl

theorem verifyWorkerDocument_quiet (workerId : String) (verified : Bool) :
    Quiet (verifyWorkerDocument cfg workerId verified) := by
  refine (quiet_parse _).bind fun id => Call.Emits.choose.bind fun pending => ?_
  split
  · refine quiet_step fun d ws a reviews => ?_
    split at reviews
    · cases reviews
    · cases reviews
      simp [Write.connects]
  · exact .throw _

theorem serviceOf_quiet {me : ℕ} {op : Op} (other : ∀ credentials, op ≠ .connect credentials) :
    Quiet (serviceOf cfg me op) := by
  cases op with
  | connect credentials => exact absurd rfl (other credentials)
  | event socket event =>
    refine (quiet_query _).bind fun connected => ?_
    split
    · exact (handle_quiet socket event).bind fun _ => .pure _
    · exact .throw _
  | disconnect socket => exact (quiet_effect rfl rfl).bind fun _ => .pure _
  | postMessage credentials bookingId content new =>
    exact (postMessage_quiet _ _ _ _).bind fun _ => .pure _
  | getMessages credentials bookingId newId =>
    exact (listMessages_quiet _ _ _).bind fun _ => .pure _
  | notify role recipientId event => exact (quiet_effect rfl rfl).bind fun _ => .pure _
  | suspendWorker workerId => exact (suspendWorker_quiet _).bind fun _ => .pure _
  | verifyWorkerDocument workerId verified =>
    exact (verifyWorkerDocument_quiet _ _).bind fun _ => .pure _
  | change change =>
    refine (quiet_step ?_).bind fun _ => .pure _
    rintro d ws a ⟨⟩ w member
    obtain rfl := List.mem_singleton.mp member
    cases change <;> rfl

theorem socketAuthMiddleware_quiet (credentials : Credentials) :
    Quiet (socketAuthMiddleware cfg credentials) := by
  cases credentials with
  | missing | rejected => exact .throw _
  | verified claims =>
    simp only [socketAuthMiddleware]
    split
    · exact .throw _
    · split
      · exact .throw _
      · exact .pure _
      · split
        · exact .throw _
        · refine (quiet_query _).bind fun worker => ?_
          split
          · exact .throw _
          · exact .pure _
      · split
        · exact .throw _
        · refine (quiet_query _).bind fun customer => ?_
          split
          · exact .throw _
          · exact .pure _

theorem serviceOf_own (me : ℕ) (op : Op) :
    Call.Emits (Write.own me) (fun _ => True) false (serviceOf cfg me op) := by
  have quiet : ∀ w : Write, w.connects = none → w.own me := fun w none s connects => by
    rw [none] at connects
    cases connects
  by_cases handshake : ∃ credentials, op = .connect credentials
  · obtain ⟨credentials, rfl⟩ := handshake
    have looks := (@socketAuthMiddleware_quiet cfg credentials).mono quiet fun _ => id
    refine Call.Emits.bind (Call.Emits.bind looks fun user => ?_) fun _ => .pure _
    refine .send trivial fun d w member s connects => ?_
    obtain rfl := List.mem_singleton.mp member
    cases connects
    rfl
  · exact (serviceOf_quiet fun credentials same => handshake ⟨credentials, same⟩).mono quiet fun _ => id

end Texts

/-! ### Late handshakes -/

section Late

variable {cfg : Config} {workerId : Id} {late me : ℕ}

/-- An account that may act is not the worker's. -/
theorem other_of_usable {d : Db} {id : Id} {w : Worker} (closed : Closed workerId d)
    (found : (d.worker id).filter usable = some w) : w.id ≠ workerId := by
  rintro rfl
  obtain ⟨stored, open_⟩ := Option.filter_eq_some_iff.mp found
  obtain ⟨w', found', gone⟩ := closed
  obtain rfl : w.id = id := Table.find_key stored
  obtain rfl := Option.some.inj (stored.symm.trans found')
  simp [usable, Option.isNone_iff_eq_none] at open_
  simp [open_.1] at gone

/-- A handshake in a closed store gives the socket to somebody else. -/
theorem socketAuthMiddleware_late (credentials : Credentials) (d : Db) :
    Call.YieldsFrom ((suspension workerId).protocol Write.own late) me d
      (socketAuthMiddleware cfg credentials)
      (fun user _ => ¬ (user.role = .WORKER ∧ user.id = workerId)) := by
  cases credentials with
  | missing | rejected => exact .throw _ _
  | verified claims =>
    simp only [socketAuthMiddleware]
    split
    · exact .throw _ _
    · split
      · exact .throw _ _
      · exact .pure (by simp)
      · split
        · exact .throw _ _
        next id _ =>
          -- the account is looked up in a store where the worker's is closed
          refine .bind (fun found _ => ∀ w, found = some w → w.id ≠ workerId)
            (.read fun d' rely _ w found => other_of_usable rely.inv found) fun found d other => ?_
          cases found with
          | none => exact .throw _ _
          | some w => exact .pure fun mine => other w rfl mine.2
      · split
        · exact .throw _ _
        · refine .bind (fun _ _ => True) (.read fun _ _ _ => trivial) fun found d _ => ?_
          cases found with
          | none => exact .throw _ _
          | some c => exact .pure (by simp)

theorem connect_late (credentials : Credentials) (d : Db) :
    Call.YieldsFrom ((suspension workerId).protocol Write.own late) me d
      (connect cfg me credentials) (fun _ _ => True) := by
  refine .bind _ (socketAuthMiddleware_late credentials d) fun user d other => ?_
  refine .send fun d' _ _ => ⟨Barrier.does_of_own ?_ ?_ _ _, trivial⟩
  · rintro w member s connects
    obtain rfl := List.mem_singleton.mp member
    cases connects
    rfl
  · rintro - w member ⟨s, connects, mine⟩
    obtain rfl := List.mem_singleton.mp member
    cases connects
    exact other mine

/-- From the closing of the account on, only handshakes that were running connect the worker. -/
theorem system_barred (cfg : Config) (workerId : Id) :
    Pool.Barred (suspension workerId) Write.own (system cfg) where
  text me op := serviceOf_own me op
  kept late me op d _ := by
    by_cases handshake : ∃ credentials, op = .connect credentials
    · obtain ⟨credentials, rfl⟩ := handshake
      have connects : Call.YieldsFrom ((suspension workerId).protocol Write.own late) me d
          (serviceOf cfg me (.connect credentials)) (fun _ _ => True) :=
        .bind (fun _ _ => True) (connect_late credentials d) fun _ _ _ => .pure trivial
      exact Store.wp_mono (fun _ _ _ _ => trivial) _ _ _ connects
    · -- every other call connects nobody
      have quiet : Quiet (serviceOf cfg me op) :=
        serviceOf_quiet fun credentials same => handshake ⟨credentials, same⟩
      refine Store.wp_mono (fun _ _ _ _ => trivial) _ _ _ (Barrier.wp_of_text quiet ?_ ?_ d)
      · intro w none s connects
        rw [none] at connects
        cases connects
      · rintro - w none ⟨s, connects, -⟩
        rw [none] at connects
        cases connects

end Late

/-! ### Suspensions -/

section Runs

variable {cfg : Config} {workerId : Id} {p q r s : SocketPool}

/-- A write keeps whose the sockets of the worker are, when it connects only such. -/
theorem ofWorker_apply {running : ℕ → Prop} {i : ℕ} {w : Write} {d : Db} (own : w.own i)
    (barred : (suspension workerId).bars w → running i)
    (known : ∀ c ∈ d.sockets, c.socket.ofWorker workerId → running c.socket.id) :
    ∀ c ∈ (w.apply d).sockets, c.socket.ofWorker workerId → running c.socket.id := by
  intro c member mine
  cases w with
  | connect socket rooms =>
    rcases List.mem_append.mp member with old | new
    · exact known c old mine
    · obtain rfl := List.mem_singleton.mp new
      obtain rfl : socket.id = i := own socket rfl
      exact barred ⟨socket, rfl, mine⟩
  | join socket room =>
    obtain ⟨old, stored, rfl⟩ := List.mem_map.mp member
    have same : (Connection.joined socket room old).socket = old.socket := by
      simp only [Connection.joined]
      split <;> rfl
    rw [same] at mine ⊢
    exact known old stored mine
  | close _ | disconnectSockets _ => exact known c (List.mem_filter.mp member).1 mine
  | _ => exact known c member mine

/-- Every socket of a worker is in the worker's room, so disconnecting the room leaves none. -/
theorem none_of_disconnected {d : Db} (wf : Wf cfg d) :
    ∀ c ∈ ((Write.disconnectSockets (getWorkerPersonalRoom workerId)).apply d).sockets,
      ¬ c.socket.ofWorker workerId := by
  rintro c member ⟨role, rfl⟩
  obtain ⟨stored, outside⟩ := List.mem_filter.mp member
  refine of_decide_eq_true outside ((wf.sockets c stored).1 ?_)
  simp [personalRooms, role]

/-- Once a worker's account is closed and the worker's room has been disconnected, every socket
that the worker still has is of a handshake that was already running when the account was
closed; later handshakes are refused, whatever else runs. -/
theorem suspended_worker_disconnected (reached : Reachable cfg p) (closed : Closed workerId p.db)
    (between : Pool.Reaches (system cfg) (Pool.Meets fun _ _ => True) p q) {i : ℕ} {answer : Bool}
    {th : SocketThread} (found : q.threads[i]? = some th)
    (disconnects : th.commits q.db = [.disconnectSockets (getWorkerPersonalRoom workerId)])
    (stepped : q.step (system cfg) (.run i answer) = some r)
    (after : Pool.Reaches (system cfg) (Pool.Meets fun _ _ => True) r s) :
    ∀ c ∈ s.db.sockets, c.socket.ofWorker workerId → p.Running c.socket.id := by
  have wf : Wf cfg q.db := wf_of_reachable (reached.trans between)
  have emptied : r.db = (Write.disconnectSockets (getWorkerPersonalRoom workerId)).apply q.db := by
    simp only [Pool.step, found, Option.bind_eq_bind, Option.bind_some] at stepped
    split at stepped
    · simp only [Option.bind_eq_some_iff, Option.some.injEq] at stepped
      obtain ⟨⟨d', th'⟩, advanced, rfl⟩ := stepped
      rw [advance_commits advanced, disconnects]
      rfl
    · cases stepped
  have soFar : Pool.Reaches (system cfg) (Pool.Meets fun _ _ => True) p r :=
    between.step _ (fun _ _ _ _ _ => trivial) stepped
  -- none is left then, and a handshake that is not running yet will find the account closed
  refine reached.barred (system_barred cfg workerId) closed soFar after
    (I := fun d => ∀ c ∈ d.sockets, c.socket.ofWorker workerId → p.Running c.socket.id)
    (fun i w d => ofWorker_apply) ?_
  intro c member mine
  rw [emptied] at member
  exact absurd mine (none_of_disconnected wf c member)

end Runs

/-- A worker connects, and a second handshake has looked up the account, when a suspension
closes it and is about to disconnect the worker. -/
def closing : List (Pool.Move Op) :=
  [.event (.spawn (.change (.worker { id := "w", phone := "1" }))), .drive 0 true,
    .event (.spawn (.connect (.verified { id := "w", role := "worker" }))), .drive 1 true,
    .event (.spawn (.connect (.verified { id := "w", role := "worker" }))), .event (.run 2 true),
    .event (.spawn (.suspendWorker "w")), .event (.run 3 true), .event (.run 3 true),
    .event (.run 3 true), .event (.run 3 true), .event (.run 3 true)]

/-- The second handshake ends after the worker is disconnected, and the worker tries again. -/
def reconnecting : List (Pool.Move Op) :=
  [.drive 2 true, .event (.spawn (.connect (.verified { id := "w", role := "worker" }))),
    .drive 4 true]

def reconnected (r : SocketPool) : SocketPool :=
  r.after (system plainConfig) (Pool.Meets fun _ _ => True) 40 reconnecting

theorem suspended_worker_disconnected_closing :
    ((played closing).step (system plainConfig) (.run 3 true)).map
        (fun r => (r.db.connected.map Socket.id, (reconnected r).db.connected.map Socket.id)) =
      some ([], [2]) ∧
    ∀ r, (played closing).step (system plainConfig) (.run 3 true) = some r →
      ∀ c ∈ (reconnected r).db.sockets, c.socket.ofWorker "w" →
        (played closing).Running c.socket.id := by
  refine ⟨by decide +kernel, fun r stepped => ?_⟩
  have closed : Closed "w" (played closing).db := by
    refine ⟨{ id := "w", phone := "1", verificationStatus := "suspended", deletedAt := some 0 }, ?_, rfl⟩
    decide +kernel
  have commits : ((played closing).threads[3]?).map (fun th => th.commits (played closing).db) =
      some [.disconnectSockets (getWorkerPersonalRoom "w")] := by
    decide +kernel
  obtain ⟨th, found, disconnects⟩ := Option.map_eq_some_iff.mp commits
  exact suspended_worker_disconnected (reachable_played closing) closed .refl found disconnects stepped
    (.after .refl 40 reconnecting)

end LabourBaba.Sockets
