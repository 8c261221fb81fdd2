import ProtocolTests.ConnectionProgress
import ProtocolTests.SameLoad
import ProtocolTests.Library.Mailboxes
import Mathlib.Algebra.Order.BigOperators.Group.Finset

/-! The calls of the connecting clients as plans for their connections: each channel is opened,
served and closed once, and everything that is sent fits into one read. -/
namespace ProtocolTests.Sessions
open Library.Media Library.Mailboxes Library.CallTrace Library.CString Library.RoundRobin
open Client ClientLoad SameLoad Connections ConnectionTotals ConnectionProgress

variable {clients : Nat} {α μ ν : Type}

/-- What a call means for the connections, where `item?` says what it sends and where to. -/
def command (item? : Call → Option (Nat × α)) (call : Call) : Command α :=
  match call with
  | .connect channel => .connect channel
  | .close channel => .close channel
  | call =>
    match item? call with
    | some (channel,item) => .put channel item
    | none => .silent

def commands (item? : Call → Option (Nat × α)) (calls : List Call) : List (Command α) := calls.map (command item?)

/-- The programs open their channels, send, and close their channels. -/
structure Session (item? : Call → Option (Nat × α)) (admitted : α → Prop) (channels : Nat) (calls : List Call) :
    Prop where
  parts : ∃ body, calls = forChannels channels connected ++ body ++
      forChannels channels (fun channel => [.close channel]) ∧
    ∀ call ∈ body, ∀ channel, call ≠ .close channel ∧ call ≠ .connect channel
  items : ∀ sending ∈ calls.filterMap item?, sending.1 < channels ∧ admitted sending.2

def connect? : Call → Option Nat
  | .connect channel => some channel
  | _ => none

theorem Session.mono {item? : Call → Option (Nat × α)} {admitted weaker : α → Prop} {channels : Nat} {calls : List Call}
    (session : Session item? admitted channels calls) (weak : ∀ item, admitted item → weaker item) :
    Session item? weaker channels calls :=
  ⟨session.parts,fun sending member => ⟨(session.items sending member).1,weak _ (session.items sending member).2⟩⟩

section commands
variable {item? : Call → Option (Nat × α)} (quiet : ∀ channel, item? (.connect channel) = none ∧ item? (.close channel) = none)

theorem command_connect {call : Call} {channel : Nat} : command item? call = .connect channel ↔ call = .connect channel := by
  unfold command
  split
  next => simp
  next => simp
  next =>
    split
    next => simp_all
    next => simp_all

theorem command_close {call : Call} {channel : Nat} : command item? call = .close channel ↔ call = .close channel := by
  unfold command
  split
  next => simp
  next => simp
  next =>
    split
    next => simp_all
    next => simp_all

include quiet

theorem command_put {call : Call} {channel : Nat} {item : α} :
    command item? call = .put channel item ↔ item? call = some (channel,item) := by
  unfold command
  split
  next other => simp [(quiet other).1]
  next other => simp [(quiet other).2]
  next =>
    split
    next other sent found => simp [found]
    next found => simp [found]

theorem due_commands (medium : Medium α μ ν) (channel : Nat) (calls : List Call) :
    due medium channel (commands item? calls) =
      (((calls.filterMap item?).filter fun sending => sending.1 = channel).map fun sending => medium.size sending.2).sum := by
  induction calls with
  | nil => rfl
  | cons call calls ih =>
    rw [commands,List.map_cons,due_cons,← commands,ih,List.filterMap_cons]
    cases found : item? call with
    | none =>
      have unsent : (command item? call).bytes medium channel = 0 := by
        cases shape : command item? call with
        | put other item =>
          rw [(command_put quiet).mp shape] at found
          cases found
        | _ => rfl
      rw [unsent,Nat.zero_add]
    | some sending =>
      rw [(command_put quiet).mpr (show item? call = some (sending.1,sending.2) from found)]
      by_cases same : sending.1 = channel
      · simp [Command.bytes,same]
      · simp [Command.bytes,same]

variable {admitted : α → Prop} {channels : Nat}

omit quiet in
theorem mem_opened {channel : Nat} : .connect channel ∈ forChannels channels connected ↔ channel < channels := by
  simp [forChannels,connected]

omit quiet in
theorem mem_closed {channel : Nat} :
    .close channel ∈ forChannels channels (fun channel => [.close channel]) ↔ channel < channels := by
  simp [forChannels]

omit quiet in
theorem mem_commands {calls : List Call} {sent : Command α} :
    sent ∈ commands item? calls ↔ ∃ call ∈ calls, command item? call = sent := List.mem_map

theorem session_proper {medium : Medium α μ ν} {calls : Fin clients → List Call}
    (session : ∀ client, Session item? admitted channels (calls client))
    (small : ∀ client, ∀ channel < channels, due medium channel (commands item? (calls client)) < 2^31)
    (room : clients * channels ≤ Server.MAX_CLIENTS) :
    Proper medium admitted channels fun client => commands item? (calls client) where
  inside := by
    intro client sent member channel named
    obtain ⟨call,here,rfl⟩ := mem_commands.mp member
    obtain ⟨⟨body,whole,others⟩,items⟩ := session client
    cases shape : command item? call with
    | connect other =>
      rw [shape] at named
      obtain rfl := Option.some.inj named
      obtain rfl := command_connect.mp shape
      rw [whole,List.mem_append,List.mem_append] at here
      rcases here with (opened | sent) | closed
      · exact mem_opened.mp opened
      · exact absurd rfl (others _ sent other).2
      · simp [forChannels] at closed
    | put other item =>
      rw [shape] at named
      obtain rfl := Option.some.inj named
      exact (items _ (List.mem_filterMap.mpr ⟨call,here,(command_put quiet).mp shape⟩)).1
    | close other =>
      rw [shape] at named
      obtain rfl := Option.some.inj named
      obtain rfl := command_close.mp shape
      rw [whole,List.mem_append,List.mem_append] at here
      rcases here with (opened | sent) | closed
      · simp [forChannels,connected] at opened
      · exact absurd rfl (others _ sent other).1
      · exact mem_closed.mp closed
    | silent =>
      rw [shape] at named
      cases named
  closing := by
    intro client channel item done rest split closed put
    obtain ⟨⟨body,whole,others⟩,_⟩ := session client
    obtain ⟨first,second,calls_split,rfl,rfl⟩ := List.map_eq_append_iff.mp split
    obtain ⟨call,here,shape⟩ := mem_commands.mp closed
    obtain rfl := command_close.mp shape
    obtain ⟨call,there,shape⟩ := mem_commands.mp put
    have sends := (command_put quiet).mp shape
    rw [calls_split] at whole
    rcases List.append_eq_append_iff.mp whole with ⟨opening,front,_⟩ | ⟨closing,_,closes⟩
    · have early : .close channel ∈ forChannels channels connected ++ body := by
        rw [front]
        exact List.mem_append_left _ here
      rcases List.mem_append.mp early with opened | sent
      · simp [forChannels,connected] at opened
      · exact absurd rfl (others _ sent channel).1
    · have late : call ∈ forChannels channels (fun channel => [.close channel]) := by
        rw [closes]
        exact List.mem_append_right _ there
      obtain ⟨other,_,same⟩ := List.mem_flatMap.mp late
      obtain rfl := List.mem_singleton.mp same
      rw [(quiet other).2] at sends
      cases sends
  admits := by
    intro client channel item put
    obtain ⟨call,here,shape⟩ := mem_commands.mp put
    exact ((session client).items _ (List.mem_filterMap.mpr ⟨call,here,(command_put quiet).mp shape⟩)).2
  small := small
  room := room

omit quiet in
theorem session_complete {calls : Fin clients → List Call}
    (session : ∀ client, Session item? admitted channels (calls client)) :
    Complete channels fun client => commands item? (calls client) where
  connects := by
    intro client channel inside
    obtain ⟨⟨body,whole,_⟩,_⟩ := session client
    refine mem_commands.mpr ⟨.connect channel,?_,rfl⟩
    rw [whole,List.append_assoc]
    exact List.mem_append_left _ (mem_opened.mpr inside)
  closes := by
    intro client channel inside
    obtain ⟨⟨body,whole,_⟩,_⟩ := session client
    refine mem_commands.mpr ⟨.close channel,?_,rfl⟩
    rw [whole]
    exact List.mem_append_right _ (mem_closed.mpr inside)
  once := by
    intro client channel done rest split again
    obtain ⟨⟨body,whole,others⟩,_⟩ := session client
    obtain ⟨first,later,calls_split,rfl,shape⟩ := List.map_eq_append_iff.mp split
    obtain ⟨call,second,rfl,here,rfl⟩ := List.map_eq_cons_iff.mp shape
    obtain rfl := command_connect.mp here
    obtain ⟨call,there,same⟩ := mem_commands.mp again
    obtain rfl := command_connect.mp same
    -- The connects of a session are those of its opening, one for each channel.
    have opened : (forChannels channels connected).filterMap connect? = List.range channels := by
      simp [forChannels,connected,List.filterMap_flatMap,List.filterMap_cons,connect?]
    have sent : body.filterMap connect? = [] := by
      refine List.filterMap_eq_nil_iff.mpr fun call member => ?_
      cases call with
      | connect other => exact absurd rfl (others _ member other).2
      | _ => rfl
    have closed : (forChannels channels (fun channel => [.close channel])).filterMap connect? = [] := by
      simp [forChannels,List.filterMap_flatMap,connect?]
    have unique : ((calls client).filterMap connect?).Nodup := by
      rw [whole,List.filterMap_append,List.filterMap_append,opened,sent,closed,List.append_nil,List.append_nil]
      exact List.nodup_range
    rw [calls_split,List.filterMap_append,List.nodup_append] at unique
    refine unique.2.2 channel (List.mem_filterMap.mpr ⟨_,there,rfl⟩) channel ?_ rfl
    exact List.mem_filterMap.mpr ⟨_,List.mem_cons_self,rfl⟩

end commands

section loads

theorem load_fits (len numCycles channels : Nat) (positive : 0 < channels) :
    ∀ sending ∈ load len numCycles channels, sending.1 < channels ∧ Fits bufferSize List.length sending.2 := by
  intro sending member
  obtain ⟨k,inside,rfl⟩ := List.mem_map.mp member
  have some_chunk : 0 < chunks width len := by
    rw [List.mem_range] at inside
    exact Nat.pos_of_mul_pos_left (Nat.lt_of_le_of_lt (Nat.zero_le k) inside)
  have here := (chunks_spec width len _ (by decide)).mp (Nat.mod_lt k some_chunk)
  refine ⟨Nat.mod_lt k positive,?_⟩
  have size : (message len channels k).2.length = chunkSize width len (k % chunks width len) := chunk_length _ _
  rw [Fits,size,chunkSize]
  generalize k % chunks width len = j at here
  have wide : width = 1024 := rfl
  have buffer : bufferSize = 1025 := rfl
  rw [wide] at here ⊢
  rw [buffer]
  omega

/-- The calls of one message neither open nor close anything. -/
def Plain (send : Nat → Text → List Call) : Prop :=
  ∀ channel payload, ∀ call ∈ send channel payload, ∀ other, call ≠ .close other ∧ call ≠ .connect other

theorem cycles_plain {send : Nat → Text → List Call} (plain : Plain send) (channels : Nat) (length : Int)
    (numCycles : Nat) (pause : List Call) (sleeps : ∀ call ∈ pause, ∃ microseconds, call = .usleep microseconds)
    (garbage : Fin bufferSize → Char) :
    ∀ call ∈ (cycles (emits send) channels length numCycles (emit pause) garbage).trace, ∀ other,
      call ≠ .close other ∧ call ≠ .connect other := by
  refine mem_cycles send channels length numCycles pause garbage _ plain fun call member other => ?_
  obtain ⟨microseconds,rfl⟩ := sleeps call member
  exact ⟨Call.noConfusion,Call.noConfusion⟩

section transfer
variable (send : Nat → Text → List Call) {options : Socket.Options} {numSockets : Int32}
  (assigned : options.numSockets = some numSockets) (some_socket : 1 ≤ numSockets) (garbage : Fin bufferSize → Char)
include some_socket

theorem positive_sockets : 0 < numSockets.toInt.toNat := by
  have bound := Int32.le_iff_toInt_le.mp some_socket
  have one : (1 : Int32).toInt = 1 := rfl
  omega

include assigned

theorem transfer_session (plain : Plain send)
    (sends : ∀ channel payload, messages (send channel payload) = [(channel,payload)]) :
    Session Call.message? (Fits bufferSize List.length) numSockets.toInt.toNat
      (transferred connected send options garbage).trace := by
  obtain ⟨final,ran⟩ := cycles_calls send _ (positive_sockets some_socket) options.bytesToTransfer.toInt32.toInt
    options.numCycles.toInt.toNat (Socket.pause options.timeBetweenCycles) garbage
  have sleeps : ∀ call ∈ Socket.pause options.timeBetweenCycles, ∃ microseconds, call = .usleep microseconds := by
    intro call member
    unfold Socket.pause at member
    split at member
    · exact ⟨_,List.mem_singleton.mp member⟩
    · cases member
  have body := cycles_plain plain numSockets.toInt.toNat options.bytesToTransfer.toInt32.toInt
    options.numCycles.toInt.toNat (Socket.pause options.timeBetweenCycles) sleeps garbage
  rw [ran] at body
  refine ⟨⟨_,transfer_calls connected send assigned some_socket garbage,body⟩,?_⟩
  have sent := transfer_messages connected (fun _ => rfl) send sends options numSockets assigned some_socket garbage
  rw [messages] at sent
  rw [sent]
  exact load_fits _ _ _ (positive_sockets some_socket)

end transfer

/-- The bytes that a client deals to one of its sockets. -/
def bytesDealt (len numCycles sockets socket : Nat) : Nat :=
  ∑ k ∈ (Finset.range (numCycles * chunks 1024 len)).filter (fun k => k % sockets = socket),
    chunkSize 1024 len (k % chunks 1024 len)

theorem filter_range_sum (n : Nat) (chosen : Nat → Prop) [DecidablePred chosen] (f : Nat → Nat) :
    (((List.range n).filter fun k => chosen k).map f).sum = ∑ k ∈ (Finset.range n).filter chosen, f k := rfl

theorem sum_bytesDealt (len numCycles sockets : Nat) (positive : 0 < sockets) :
    ∑ socket ∈ Finset.range sockets, bytesDealt len numCycles sockets socket = numCycles * len := by
  simp only [bytesDealt]
  rw [sum_channels sockets _ positive,sum_periodic,sum_chunks 1024 len (by decide),nsmul_eq_mul,Nat.cast_id]

theorem bytesDealt_le (len numCycles sockets socket : Nat) : bytesDealt len numCycles sockets socket ≤ numCycles * len := by
  have all := sum_periodic numCycles (chunks 1024 len) (chunkSize 1024 len)
  rw [sum_chunks 1024 len (by decide),nsmul_eq_mul,Nat.cast_id] at all
  rw [← all]
  exact Finset.sum_le_sum_of_subset (Finset.filter_subset _ _)

theorem due_load {medium : Medium Text μ ν} (bytes : medium.size = List.length) {calls : List Call}
    {len numCycles channels : Nat} (sent : messages calls = load len numCycles channels) (channel : Nat) :
    due medium channel (commands Call.message? calls) = bytesDealt len numCycles channels channel := by
  rw [due_commands (fun _ => ⟨rfl,rfl⟩),bytes]
  rw [messages] at sent
  rw [sent,load,List.filter_map,List.map_map]
  simp only [Function.comp_def,message,chunk_length]
  exact filter_range_sum _ _ _

end loads

end ProtocolTests.Sessions
