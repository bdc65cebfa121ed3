import LabourBaba.Sockets.Handlers

/-!
# Who receives what

What the invariant says of every reachable server: which rooms a socket is in, who has
received a chat message, a worker's location and a notification, and what the tables of the
chat hold. A message, a location and a notification each go to a room of their own kind, so
what decides is who was entitled to that room.
-/
namespace LabourBaba.Sockets

open Store Locations

section Reached

variable {cfg : Config} {p : SocketPool}

/-! ### Rooms -/

/-- A socket is in the rooms of its principal, and in no room to which the principal is not
entitled; the name of a room tells what it is for. -/
theorem rooms_entitled (reached : Reachable cfg p) {c : Connection} (connected : c ∈ p.db.sockets) :
    personalRooms c.socket.user ⊆ c.rooms ∧
      ∀ name ∈ c.rooms, ∃ room : Room, room.name = name ∧
        (∀ other : Room, other.name = name → other = room) ∧
        Entitled cfg p.db c.socket.user room := by
  obtain ⟨personal, entitled⟩ := (wf_of_reachable reached).sockets c connected
  refine ⟨personal, fun name member => ?_⟩
  obtain ⟨room, rfl, allowed⟩ := entitled name member
  exact ⟨room, rfl, fun other same => Room.name_injective same, allowed⟩

/-! ### Emissions -/

/-- The room of an emission, with those it reached. -/
theorem emission_room (reached : Reachable cfg p) {e : Emission} (emitted : e ∈ p.db.emissions) :
    ∃ room : Room, room.name = e.room ∧ Addressed cfg p.db room e.packet ∧
      ∀ s ∈ e.receivers, Entitled cfg p.db s.user room :=
  ((wf_of_reachable reached).emissions e emitted).addressed

theorem Booking.admits_iff {b : Booking} {user : SocketUserData} :
    b.Admits user ↔ user.role = .ADMIN ∨ user.role = .CUSTOMER ∧ user.id = b.customerId ∨
      user.role = .WORKER ∧ user.id = b.workerId := by
  obtain ⟨id, role, phone⟩ := user
  cases role <;> simp [Admits, resource, Policies.BookingResource.readers]

/-- Whoever reads a booking's room is a party to the booking. -/
theorem admits_of_entitled {d : Db} {user : SocketUserData} {spelling : String} {b : Booking}
    (wf : Wf cfg d) (stored : b ∈ d.bookings) (parsed : cfg.uuid spelling = some b.id)
    (entitled : Entitled cfg d user (.booking spelling)) : b.Admits user := by
  obtain ⟨_, member, named, admits⟩ := entitled
  obtain ⟨b', stored', rfl⟩ := List.mem_map.mp member
  have sameId : b'.id = b.id := Option.some.inj (named.symm.trans parsed)
  have found := Table.find_of_mem wf.bookings stored
  rw [Table.eq_of_find wf.bookings found stored' sameId] at admits
  exact admits

/-- A chat message that is emitted is stored, and it reaches nobody but the parties of the
booking that its conversation is about, and administrators. -/
theorem messages_reach_parties (reached : Reachable cfg p) {e : Emission}
    (emitted : e ∈ p.db.emissions) {m : Message} (carries : e.packet = .message m) :
    m ∈ p.db.messages ∧ ∃ c ∈ p.db.conversations, c.id = m.conversationId ∧
      ∃ b ∈ p.db.bookings, b.id = c.bookingId ∧ b.workerId = c.workerId ∧
        b.customerId = c.customerId ∧ ∀ s ∈ e.receivers, b.Admits s.user := by
  have wf := wf_of_reachable reached
  obtain ⟨room, -, addressed, entitled⟩ := emission_room reached emitted
  rw [carries] at addressed
  cases room with
  | booking spelling =>
    obtain ⟨stored, c, conversed, named, parsed⟩ := addressed
    obtain ⟨b, member, booked, worker, customer⟩ := wf.parties c conversed
    refine ⟨stored, c, conversed, named, b, member, booked, worker, customer, fun s received => ?_⟩
    exact admits_of_entitled wf member (booked ▸ parsed) (entitled s received)
  | _ => exact addressed.elim

/-- A worker's location is a valid place. It is emitted only for a booking of the worker that
has been active, and reaches only sockets whose own identifier names the customer of that
booking, and none of a worker. -/
theorem locations_reach_customer (reached : Reachable cfg p) {e : Emission}
    (emitted : e ∈ p.db.emissions) {workerId : Id} {place : Place}
    (carries : e.packet = .location workerId place) :
    place.Valid ∧ ∃ b ∈ p.db.bookings, b.workerId = workerId ∧
      (∃ status ∈ activeLocationStreamingStatuses, (b.id, status) ∈ p.db.held) ∧
      ∀ s ∈ e.receivers, cfg.uuid s.user.id = some b.customerId ∧ s.user.role ≠ .WORKER := by
  obtain ⟨room, -, addressed, entitled⟩ := emission_room reached emitted
  rw [carries] at addressed
  cases room with
  | customer spelling =>
    obtain ⟨valid, b, member, mine, parsed, active⟩ := addressed
    refine ⟨valid, b, member, mine, active, fun s received => ?_⟩
    obtain ⟨rfl, role⟩ := entitled s received
    refine ⟨parsed, fun worker => ?_⟩
    rcases role with customer | admin
    · exact absurd (worker.symm.trans customer) (by decide)
    · exact absurd (worker.symm.trans admin) (by decide)
  | _ => exact addressed.elim

theorem personalRoom_mem (user : SocketUserData) :
    personalRoom user.role user.id ∈ personalRooms user := by
  obtain ⟨id, role, phone⟩ := user
  cases role <;> simp [personalRoom, personalRooms]

theorem entitled_personal {d : Db} {user : SocketUserData} {role : UserRole} {id : Id}
    (entitled : Entitled cfg d user (personal role id)) :
    user.id = id ∧ (user.role = role ∨ user.role = .ADMIN) := by
  cases role with
  | ADMIN => exact ⟨entitled.1, Or.inl entitled.2⟩
  | _ => exact entitled

/-- A notification reaches every socket of its recipient that was connected when it was
emitted, and besides only sockets of an administrator with the recipient's identifier. -/
theorem notifications_reach_recipient (reached : Reachable cfg p) {e : Emission}
    (emitted : e ∈ p.db.emissions) {event : String} (carries : e.packet = .notification event) :
    ∃ role id, e.room = personalRoom role id ∧
      (∀ s ∈ e.connected, s.user.role = role → s.user.id = id → s ∈ e.receivers) ∧
      ∀ s ∈ e.receivers, s ∈ e.connected ∧ s.user.id = id ∧
        (s.user.role = role ∨ s.user.role = .ADMIN) := by
  have proper := (wf_of_reachable reached).emissions e emitted
  obtain ⟨room, named, addressed, entitled⟩ := proper.addressed
  rw [carries, addressed_notification] at addressed
  obtain ⟨role, id, rfl⟩ := addressed
  rw [name_personal] at named
  refine ⟨role, id, named.symm, fun s connected sameRole sameId => ?_, fun s received => ?_⟩
  · refine proper.reaches s connected ?_
    rw [← named, ← sameRole, ← sameId]
    exact personalRoom_mem s.user
  · exact ⟨proper.present received, entitled_personal (entitled s received)⟩

/-! ### The tables of the chat -/

/-- A booking has at most one conversation, whatever calls race to create it, and it is between
the parties of the booking. Every message has exactly one author, whose identifier it carries
and who is a party of the booking it is about, or an administrator. -/
theorem chats_between_parties (reached : Reachable cfg p) :
    (∀ c ∈ p.db.conversations, ∀ c' ∈ p.db.conversations, c.bookingId = c'.bookingId → c = c') ∧
    (∀ c ∈ p.db.conversations, ∃ b ∈ p.db.bookings, b.id = c.bookingId ∧
      b.workerId = c.workerId ∧ b.customerId = c.customerId) ∧
    ∀ m ∈ p.db.messages, ∃! author, (m.id, author) ∈ p.db.authors ∧ m.senderId = author.id ∧
      ∃ c ∈ p.db.conversations, c.id = m.conversationId ∧
        ∃ b ∈ p.db.bookings, b.id = c.bookingId ∧ b.Admits author := by
  have wf := wf_of_reachable reached
  refine ⟨fun c member c' member' same => ?_, wf.parties, fun m member => ?_⟩
  · have found := Table.find_of_mem wf.conversed member'
    exact Table.eq_of_find wf.conversed found member same
  · have listed : m.id ∈ p.db.authors.map Prod.fst := by
      rw [wf.authored]
      exact List.mem_map_of_mem member
    obtain ⟨⟨id, author⟩, recorded, rfl⟩ := List.mem_map.mp listed
    refine ⟨author, ⟨recorded, wf.authors m member author recorded⟩, fun other known => ?_⟩
    have unique : Table.Unique Prod.fst p.db.authors := by
      rw [Table.Unique, wf.authored]
      exact wf.messages
    have found := Table.find_of_mem unique recorded
    exact congrArg Prod.snd (Table.eq_of_find unique found known.1 rfl)

end Reached

/-! ### A conversation on the way -/

def bookingId : String := "b0000000-0000-0000-0000-000000000001"

/-- A worker and a customer with a booking connect and enter its room. -/
def chatting : List (Pool.Move Op) :=
  [.event (.spawn (.change (.worker { id := "w", phone := "1" }))), .drive 0 true,
    .event (.spawn (.change (.customer { id := "c", phone := "2" }))), .drive 1 true,
    .event (.spawn (.change (.booking
      { id := bookingId, jobId := "j", requirementId := "r", workerId := "w", customerId := "c" }))),
    .drive 2 true,
    .event (.spawn (.connect (.verified { id := "w", role := "worker" }))), .drive 3 true,
    .event (.spawn (.connect (.verified { id := "c", role := "customer" }))), .drive 4 true,
    .event (.spawn (.event ⟨4, ⟨"c", .CUSTOMER, some "2"⟩⟩ (.joinBooking (some bookingId)))),
    .drive 5 true]

/-- The worker writes, moves and is sent an offer. -/
def working : List (Pool.Move Op) :=
  chatting ++
  [.event (.spawn (.event ⟨3, ⟨"w", .WORKER, some "1"⟩⟩
      (.chatMessage (some bookingId) (some (Utf16.lit " on my way ")) ⟨"t", "m"⟩))), .drive 6 true,
    .event (.spawn (.event ⟨3, ⟨"w", .WORKER, some "1"⟩⟩
      (.locationUpdate ⟨some "c", .number 19, .number 73, none⟩ "l"))), .drive 7 true,
    .event (.spawn (.notify .WORKER "w" "job:incoming")), .drive 8 true]

def message : Message :=
  { id := "m", conversationId := "t", senderId := "w", content := Utf16.lit "on my way", sentAt := 0 }

/-- What was emitted, and to whom. -/
def deliveries : List (Packet × List Socket) :=
  [(.message message, [⟨4, ⟨"c", .CUSTOMER, some "2"⟩⟩]),
    (.location "w" ⟨19, 73⟩, [⟨4, ⟨"c", .CUSTOMER, some "2"⟩⟩]),
    (.notification "job:incoming", [⟨3, ⟨"w", .WORKER, some "1"⟩⟩])]

theorem emissions_working :
    (played working).db.emissions.map (fun e => (e.packet, e.receivers)) = deliveries := by
  decide +kernel

theorem emitted_working {packet : Packet} {receivers : List Socket}
    (delivered : (packet, receivers) ∈ deliveries) :
    ∃ e ∈ (played working).db.emissions, e.packet = packet ∧ e.receivers = receivers := by
  rw [← emissions_working] at delivered
  obtain ⟨e, emitted, same⟩ := List.mem_map.mp delivered
  exact ⟨e, emitted, congrArg Prod.fst same, congrArg Prod.snd same⟩

theorem messages_reach_parties_working :
    ∃ e ∈ (played working).db.emissions, e.packet = .message message ∧ e.receivers ≠ [] ∧
      ∃ b ∈ (played working).db.bookings, ∀ s ∈ e.receivers, b.Admits s.user := by
  obtain ⟨e, emitted, carries, receivers⟩ :=
    emitted_working (show (Packet.message message, _) ∈ deliveries from List.mem_cons_self ..)
  obtain ⟨-, c, -, -, b, stored, -, -, -, parties⟩ :=
    messages_reach_parties (reachable_played working) emitted carries
  exact ⟨e, emitted, carries, by simp [receivers], b, stored, parties⟩

theorem locations_reach_customer_working :
    ∃ e ∈ (played working).db.emissions, e.packet = .location "w" ⟨19, 73⟩ ∧ e.receivers ≠ [] ∧
      ∃ b ∈ (played working).db.bookings, ∀ s ∈ e.receivers,
        plainConfig.uuid s.user.id = some b.customerId := by
  obtain ⟨e, emitted, carries, receivers⟩ :=
    emitted_working (show (Packet.location "w" ⟨19, 73⟩, _) ∈ deliveries from
      List.mem_cons_of_mem _ (List.mem_cons_self ..))
  obtain ⟨-, b, stored, -, -, reached⟩ :=
    locations_reach_customer (reachable_played working) emitted carries
  exact ⟨e, emitted, carries, by simp [receivers], b, stored, fun s hs => (reached s hs).1⟩

theorem notifications_reach_recipient_working :
    ∃ e ∈ (played working).db.emissions, e.packet = .notification "job:incoming" ∧
      e.receivers ≠ [] ∧ ∃ id, ∀ s ∈ e.receivers, s ∈ e.connected ∧ s.user.id = id := by
  obtain ⟨e, emitted, carries, receivers⟩ :=
    emitted_working (show (Packet.notification "job:incoming", _) ∈ deliveries from
      List.mem_cons_of_mem _ (List.mem_cons_of_mem _ (List.mem_cons_self ..)))
  obtain ⟨role, id, -, -, reached⟩ :=
    notifications_reach_recipient (reachable_played working) emitted carries
  exact ⟨e, emitted, carries, by simp [receivers], id,
    fun s hs => ⟨(reached s hs).1, (reached s hs).2.1⟩⟩

theorem working_connected :
    (played working).db.sockets.map (fun c => (c.socket.user.id, c.rooms)) =
      [("w", ["worker:w"]), ("c", ["customer:c", "booking:" ++ bookingId])] := by
  decide +kernel

theorem rooms_entitled_working :
    ∃ c ∈ (played working).db.sockets, c.rooms = ["customer:c", "booking:" ++ bookingId] ∧
      ∃ room : Room, room.name = "booking:" ++ bookingId ∧
        Entitled plainConfig (played working).db c.socket.user room := by
  have listed : ("c", ["customer:c", "booking:" ++ bookingId]) ∈
      (played working).db.sockets.map (fun c => (c.socket.user.id, c.rooms)) := by
    rw [working_connected]
    simp
  obtain ⟨c, connected, same⟩ := List.mem_map.mp listed
  have rooms := congrArg Prod.snd same
  obtain ⟨-, entitled⟩ := rooms_entitled (reachable_played working) connected
  obtain ⟨room, named, -, allowed⟩ :=
    entitled ("booking:" ++ bookingId) (by rw [show c.rooms = _ from rooms]; simp)
  exact ⟨c, connected, rooms, room, named, allowed⟩

theorem chats_between_parties_working :
    ∃ m ∈ (played working).db.messages, ∃! author, (m.id, author) ∈ (played working).db.authors ∧
      m.senderId = author.id ∧ ∃ c ∈ (played working).db.conversations, c.id = m.conversationId ∧
        ∃ b ∈ (played working).db.bookings, b.id = c.bookingId ∧ b.Admits author := by
  obtain ⟨e, emitted, carries, -⟩ :=
    emitted_working (show (Packet.message message, _) ∈ deliveries from List.mem_cons_self ..)
  have stored := (messages_reach_parties (reachable_played working) emitted carries).1
  exact ⟨message, stored, (chats_between_parties (reachable_played working)).2.2 message stored⟩

end LabourBaba.Sockets
