import LabourBaba.Sockets.Rooms

/-!
# What every handler keeps to

`Fits` says what a write must find so that the invariant `Wf` outlives it: a socket is put
into a room only if its user is entitled to it, an emission is addressed to a room of those
it concerns, a conversation has the parties of its booking, a message comes from one of them
or from an administrator. Each call is then verified against any interference: what a query
has found is still there when the call writes.
-/
namespace LabourBaba.Sockets

open Store Locations

/-! ### Parties of a booking -/

/-- The user is a party to the booking, or an administrator. -/
def Booking.Admits (b : Booking) (user : SocketUserData) : Prop :=
  b.resource.readers.Admit user.id (some user.role)

theorem Booking.admits_of_core {b b' : Booking} {user : SocketUserData} (same : b'.core = b.core) :
    b'.Admits user ↔ b.Admits user := by
  rw [Admits, Admits, resource_of_core same]

/-- The user may chat in the conversation. -/
def Chats (d : Db) (conversationId : Id) (user : SocketUserData) : Prop :=
  ∃ c ∈ d.conversations, c.id = conversationId ∧
    ∃ b ∈ d.bookings, b.id = c.bookingId ∧ b.Admits user

/-- The conversation is the one of the booking that a spelling names. -/
def Discusses (cfg : Config) (d : Db) (spelling : String) (conversationId : Id) : Prop :=
  ∃ c ∈ d.conversations, c.id = conversationId ∧ cfg.uuid spelling = some c.bookingId

/-- The worker has a booking with the customer in which its location may have been followed. -/
def Followed (cfg : Config) (d : Db) (workerId : Id) (spelling : String) : Prop :=
  ∃ b ∈ d.bookings, b.workerId = workerId ∧ cfg.uuid spelling = some b.customerId ∧
    ∃ status ∈ activeLocationStreamingStatuses, (b.id, status) ∈ d.held

theorem Later.chats {d d' : Db} {conversationId : Id} {user : SocketUserData} (later : Later d d')
    (chats : Chats d conversationId user) : Chats d' conversationId user := by
  obtain ⟨c, stored, named, b, member, booked, admits⟩ := chats
  obtain ⟨b', member', same⟩ := later.booking member
  obtain ⟨sameId, -, -⟩ := Booking.columns_of_core same
  exact ⟨c, later.conversations stored, named, b', member', sameId.trans booked,
    (Booking.admits_of_core same).mpr admits⟩

theorem Later.discusses {cfg : Config} {d d' : Db} {spelling : String} {conversationId : Id}
    (later : Later d d') (discusses : Discusses cfg d spelling conversationId) :
    Discusses cfg d' spelling conversationId := by
  obtain ⟨c, stored, named, parsed⟩ := discusses
  exact ⟨c, later.conversations stored, named, parsed⟩

theorem Later.followed {cfg : Config} {d d' : Db} {workerId : Id} {spelling : String}
    (later : Later d d') (followed : Followed cfg d workerId spelling) :
    Followed cfg d' workerId spelling := by
  obtain ⟨b, member, mine, parsed, status, active, had⟩ := followed
  obtain ⟨b', member', same⟩ := later.booking member
  obtain ⟨sameId, sameWorker, sameCustomer⟩ := Booking.columns_of_core same
  exact ⟨b', member', sameWorker.trans mine, sameCustomer ▸ parsed, status, active,
    later.held (sameId ▸ had)⟩

/-! ### What is written -/

/-- The packet concerns those who may be in the room. -/
def Addressed (cfg : Config) (d : Db) : Room → Packet → Prop
  | .booking spelling, .message m => m ∈ d.messages ∧ Discusses cfg d spelling m.conversationId
  | .customer spelling, .location workerId place => place.Valid ∧ Followed cfg d workerId spelling
  | room, .notification _ => ∃ role id, room = personal role id
  | _, _ => False

theorem addressed_notification {cfg : Config} {d : Db} {room : Room} {event : String} :
    Addressed cfg d room (.notification event) = ∃ role id, room = personal role id := by
  cases room <;> rfl

theorem Later.addressed {cfg : Config} {d d' : Db} {room : Room} {packet : Packet}
    (later : Later d d') (addressed : Addressed cfg d room packet) :
    Addressed cfg d' room packet := by
  cases packet with
  | message m =>
    cases room with
    | booking spelling => exact ⟨later.messages addressed.1, later.discusses addressed.2⟩
    | _ => exact addressed.elim
  | location workerId place =>
    cases room with
    | customer spelling => exact ⟨addressed.1, later.followed addressed.2⟩
    | _ => exact addressed.elim
  | notification event => cases room <;> exact addressed

def Fits (cfg : Config) (d : Db) : Write → Prop
  | .connect socket rooms => rooms = personalRooms socket.user
  | .join socket name => ∃ room : Room, room.name = name ∧ Entitled cfg d socket.user room
  | .emit name packet => ∃ room : Room, room.name = name ∧ Addressed cfg d room packet
  | .insertConversation c =>
    ∃ b ∈ d.bookings, b.id = c.bookingId ∧ b.workerId = c.workerId ∧ b.customerId = c.customerId
  | .insertMessage m author =>
    m.senderId = author.id ∧ Chats d m.conversationId author ∧
      d.messages.any (sameOn Message.id m) = false
  | _ => True

structure Emission.Proper (cfg : Config) (d : Db) (e : Emission) : Prop where
  addressed : ∃ room : Room, room.name = e.room ∧ Addressed cfg d room e.packet ∧
    ∀ s ∈ e.receivers, Entitled cfg d s.user room
  present : e.receivers ⊆ e.connected
  reaches : ∀ s ∈ e.connected, e.room ∈ personalRooms s.user → s ∈ e.receivers

structure Connection.Proper (cfg : Config) (d : Db) (c : Connection) : Prop where
  personal : personalRooms c.socket.user ⊆ c.rooms
  entitled : ∀ name ∈ c.rooms, ∃ room : Room, room.name = name ∧
    Entitled cfg d c.socket.user room

structure Wf (cfg : Config) (d : Db) : Prop where
  sockets : ∀ c ∈ d.sockets, c.Proper cfg d
  emissions : ∀ e ∈ d.emissions, e.Proper cfg d
  conversations : Table.Unique Conversation.id d.conversations
  /-- One conversation for a booking. -/
  conversed : Table.Unique Conversation.bookingId d.conversations
  parties : ∀ c ∈ d.conversations, ∃ b ∈ d.bookings, b.id = c.bookingId ∧
    b.workerId = c.workerId ∧ b.customerId = c.customerId
  bookings : Table.Unique Booking.id d.bookings
  held : ∀ b ∈ d.bookings, (b.id, b.status) ∈ d.held
  messages : Table.Unique Message.id d.messages
  /-- Every message has one author. -/
  authored : d.authors.map Prod.fst = d.messages.map Message.id
  authors : ∀ m ∈ d.messages, ∀ author, (m.id, author) ∈ d.authors →
    m.senderId = author.id ∧ Chats d m.conversationId author

/-! ### The invariant -/

section Invariant

variable {cfg : Config} {d d' : Db}

theorem Connection.Proper.later {c : Connection} (later : Later d d') (proper : c.Proper cfg d) :
    c.Proper cfg d' where
  personal := proper.personal
  entitled name member := by
    obtain ⟨room, named, entitled⟩ := proper.entitled name member
    exact ⟨room, named, entitled.later later⟩

theorem Emission.Proper.later {e : Emission} (later : Later d d') (proper : e.Proper cfg d) :
    e.Proper cfg d' where
  addressed := by
    obtain ⟨room, named, addressed, entitled⟩ := proper.addressed
    exact ⟨room, named, later.addressed addressed, fun s member => (entitled s member).later later⟩
  present := proper.present
  reaches := proper.reaches

theorem joined_proper {c : Connection} {socket : Socket} {room : Room}
    (entitled : Entitled cfg d socket.user room) (proper : c.Proper cfg d) :
    (c.joined socket room.name).Proper cfg d := by
  simp only [Connection.joined]
  split
  next same =>
    -- only the socket that joins gets the room, and it is entitled to it
    refine ⟨fun name member => List.mem_append_left _ (proper.personal member), fun name member => ?_⟩
    rcases List.mem_append.mp member with old | new
    · exact proper.entitled name old
    · obtain rfl := List.mem_singleton.mp new
      exact ⟨room, rfl, same ▸ entitled⟩
  next => exact proper

theorem connected_proper (socket : Socket) :
    Connection.Proper cfg d { socket, rooms := personalRooms socket.user } where
  personal := fun _ member => member
  entitled name member := by
    obtain ⟨id, ⟨userId, role, phone⟩⟩ := socket
    cases role with
    | WORKER =>
      obtain rfl := List.mem_singleton.mp member
      exact ⟨.worker userId, rfl, rfl, Or.inl rfl⟩
    | CUSTOMER =>
      obtain rfl := List.mem_singleton.mp member
      exact ⟨.customer userId, rfl, rfl, Or.inl rfl⟩
    | ADMIN =>
      rcases List.mem_cons.mp member with rfl | member
      · exact ⟨.admin userId, rfl, rfl, rfl⟩
      · obtain rfl := List.mem_singleton.mp member
        exact ⟨.admins, rfl, rfl⟩

/-- What an emission receives is decided by the rooms that the sockets are in. -/
theorem emission_proper {room : Room} {packet : Packet} (wf : Wf cfg d)
    (addressed : Addressed cfg d room packet) : (d.emission room.name packet).Proper cfg d where
  addressed := by
    refine ⟨room, rfl, addressed, fun s member => ?_⟩
    obtain ⟨c, inside, rfl⟩ := List.mem_map.mp member
    obtain ⟨stored, joined⟩ := List.mem_filter.mp inside
    -- the socket was let into a room of this name, and a room's name says whose it is
    obtain ⟨room', named, entitled⟩ := (wf.sockets c stored).entitled _ (of_decide_eq_true joined)
    exact Room.name_injective named ▸ entitled
  present := by
    intro s member
    obtain ⟨c, inside, rfl⟩ := List.mem_map.mp member
    exact List.mem_map_of_mem (List.mem_filter.mp inside).1
  reaches s member personal := by
    obtain ⟨c, stored, rfl⟩ := List.mem_map.mp member
    refine List.mem_map_of_mem (List.mem_filter.mpr ⟨stored, decide_eq_true ?_⟩)
    exact (wf.sockets c stored).personal personal

/-- A write that leaves the tables of the chat, the sockets and the emissions alone. -/
theorem Wf.of_same (wf : Wf cfg d) (later : Later d d') (sockets : d'.sockets = d.sockets)
    (emissions : d'.emissions = d.emissions) (conversations : d'.conversations = d.conversations)
    (messages : d'.messages = d.messages) (authors : d'.authors = d.authors)
    (bookings : Table.Unique Booking.id d'.bookings)
    (held : ∀ b ∈ d'.bookings, (b.id, b.status) ∈ d'.held) : Wf cfg d' where
  sockets c member := (wf.sockets c (sockets ▸ member)).later later
  emissions e member := (wf.emissions e (emissions ▸ member)).later later
  conversations := conversations ▸ wf.conversations
  conversed := conversations ▸ wf.conversed
  parties c member := by
    obtain ⟨b, stored, booked, worker, customer⟩ := wf.parties c (conversations ▸ member)
    obtain ⟨b', stored', same⟩ := later.booking stored
    obtain ⟨sameId, sameWorker, sameCustomer⟩ := Booking.columns_of_core same
    exact ⟨b', stored', sameId.trans booked, sameWorker.trans worker, sameCustomer.trans customer⟩
  bookings := bookings
  held := held
  messages := messages ▸ wf.messages
  authored := by rw [authors, messages, wf.authored]
  authors m member author recorded := by
    obtain ⟨sender, chats⟩ := wf.authors m (messages ▸ member) author (authors ▸ recorded)
    exact ⟨sender, later.chats chats⟩

theorem Wf.insertConversation {c : Conversation} (wf : Wf cfg d)
    (fits : Fits cfg d (.insertConversation c)) : Wf cfg ((Write.insertConversation c).apply d) := by
  have later := Later.apply (.insertConversation c) d
  refine { wf with
    sockets := fun c member => (wf.sockets c member).later later
    emissions := fun e member => (wf.emissions e member).later later
    conversations := ?_, conversed := ?_, parties := fun c' member => ?_
    authors := fun m member author recorded => ?_ }
  · exact Table.unique_insert _ (fun old same => by simp [Conversation.clash, sameOn, same])
      wf.conversations
  · exact Table.unique_insert _ (fun old same => by simp [Conversation.clash, sameOn, same])
      wf.conversed
  · rcases Table.mem_insert member with old | rfl
    · exact wf.parties c' old
    · exact fits
  · obtain ⟨sender, chats⟩ := wf.authors m member author recorded
    exact ⟨sender, later.chats chats⟩

theorem Wf.insertMessage {m : Message} {author : SocketUserData} (wf : Wf cfg d)
    (fits : Fits cfg d (.insertMessage m author)) :
    Wf cfg ((Write.insertMessage m author).apply d) := by
  have later := Later.apply (.insertMessage m author) d
  obtain ⟨sender, chats, free⟩ := fits
  have apart : ∀ old ∈ d.messages, m.id ≠ old.id := by
    intro old stored
    have differ := List.any_eq_false.mp free old stored
    simpa [sameOn] using differ
  have stored : Table.insert (sameOn Message.id) d.messages m = d.messages ++ [m] :=
    Table.insert_of_free fun old member => by simpa [sameOn] using apart old member
  refine { wf with
    sockets := fun c member => (wf.sockets c member).later later
    emissions := fun e member => (wf.emissions e member).later later
    messages := ?_, authored := ?_, authors := fun m' member author' recorded => ?_ }
  · exact Table.unique_insert _ (fun old same => by simp [sameOn, same]) wf.messages
  · simp only [Write.apply, stored, List.map_append, wf.authored, List.map_cons, List.map_nil]
  · simp only [Write.apply, stored] at member recorded
    rcases List.mem_append.mp member with old | new
    · rcases List.mem_append.mp recorded with known | added
      · obtain ⟨sender', chats'⟩ := wf.authors m' old author' known
        exact ⟨sender', later.chats chats'⟩
      · have same := congrArg Prod.fst (List.mem_singleton.mp added)
        exact absurd same.symm (apart m' old)
    · obtain rfl := List.mem_singleton.mp new
      rcases List.mem_append.mp recorded with known | added
      · -- an author of an older message has another identifier
        have listed : m'.id ∈ d.messages.map Message.id := by
          rw [← wf.authored]
          exact List.mem_map_of_mem known
        obtain ⟨old, stored', same⟩ := List.mem_map.mp listed
        exact absurd same.symm (apart old stored')
      · obtain rfl := congrArg Prod.snd (List.mem_singleton.mp added)
        exact ⟨sender, later.chats chats⟩

theorem Wf.apply {w : Write} (wf : Wf cfg d) (fits : Fits cfg d w) : Wf cfg (w.apply d) := by
  have later := Later.apply w d
  have sockets : ∀ c ∈ d.sockets, c.Proper cfg (w.apply d) :=
    fun c member => (wf.sockets c member).later later
  have emissions : ∀ e ∈ d.emissions, e.Proper cfg (w.apply d) :=
    fun e member => (wf.emissions e member).later later
  cases w with
  | connect socket rooms =>
    refine { wf with sockets := fun c member => ?_, emissions }
    rcases List.mem_append.mp member with old | new
    · exact sockets c old
    · obtain rfl := List.mem_singleton.mp new
      obtain rfl : rooms = personalRooms socket.user := fits
      exact connected_proper socket
  | join socket name =>
    obtain ⟨room, rfl, entitled⟩ := fits
    refine { wf with sockets := fun c member => ?_, emissions }
    obtain ⟨old, stored, rfl⟩ := List.mem_map.mp member
    exact (joined_proper entitled (wf.sockets old stored)).later later
  | close socket =>
    -- a socket that leaves takes its rooms along
    exact { wf with
      sockets := fun c member => sockets c (List.mem_filter.mp member).1
      emissions }
  | disconnectSockets room =>
    exact { wf with
      sockets := fun c member => sockets c (List.mem_filter.mp member).1
      emissions }
  | emit name packet =>
    obtain ⟨room, rfl, addressed⟩ := fits
    refine { wf with sockets, emissions := fun e member => ?_ }
    rcases List.mem_append.mp member with old | new
    · exact emissions e old
    · obtain rfl := List.mem_singleton.mp new
      exact (emission_proper wf addressed).later later
  | insertConversation c => exact wf.insertConversation fits
  | insertMessage m author => exact wf.insertMessage fits
  | insertBooking b =>
    refine wf.of_same later rfl rfl rfl rfl rfl ?_ fun b' member => ?_
    · exact Table.unique_insert _ (fun old same => by simp [sameOn, same]) wf.bookings
    · rcases Table.mem_insert_free member with old | ⟨rfl, free⟩
      · exact later.held (wf.held b' old)
      · -- the status that a booking begins with joins the history as its first
        have new : d.bookings.any (sameOn Booking.id b') = false :=
          List.any_eq_false.mpr fun old stored => by simp [free old stored]
        simp [Write.apply, new]
  | bookingStatus id status =>
    refine wf.of_same later rfl rfl rfl rfl rfl ?_ fun b' member => ?_
    · exact Table.unique_modify _ _ (fun _ => rfl) wf.bookings
    · obtain ⟨old, stored, rfl⟩ := Table.mem_modify.mp member
      split
      next hit =>
        -- the history keeps the old status beside the new one
        obtain rfl := List.mem_singleton.mp hit
        exact List.mem_append_right _ (List.mem_singleton.mpr rfl)
      next => exact List.mem_append_left _ (wf.held old stored)
  | _ => exact wf.of_same later rfl rfl rfl rfl rfl wf.bookings wf.held

theorem wf_start : Wf cfg {} := by
  constructor <;> simp [Table.Unique]

end Invariant

/-! ### The protocol -/

def protocol (cfg : Config) : Protocol Label Db where
  inv := Wf cfg
  pre _ _ := True
  guar _ _ d d' := ∃ w : Write, d' = w.apply d ∧ Fits cfg d w
  evo _ := Later
  evo_refl _ := Later.refl
  evo_trans _ _ _ _ := Later.trans
  guar_inv := by
    rintro _ _ d _ wf ⟨w, rfl, fits⟩
    exact wf.apply fits
  guar_evo := by
    rintro _ _ _ d _ _ _ ⟨w, rfl, -⟩
    exact Later.apply w d

instance (cfg : Config) : (protocol cfg).Lax := ⟨fun _ _ _ => trivial⟩

end LabourBaba.Sockets
