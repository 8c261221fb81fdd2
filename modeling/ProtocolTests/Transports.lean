import ProtocolTests.Sessions
import ProtocolTests.SctpStreams

/-! The TCP, DCCP and SCTP clients and servers, each over a medium of its own kind: a reliable
stream, datagrams that may get lost, and messages that are refused on a stream that the
association does not have and given up when their time to live is over. -/
namespace ProtocolTests.Transports
open Library.Run Library.Media Library.Mailboxes Library.CallTrace Library.CString Library.RoundRobin
open Client ClientLoad SameLoad Connections ConnectionTotals ConnectionProgress Sessions

variable {clients : Nat} {α μ ν : Type}

section totals

def reportedTotal : Phase → Int
  | .reported total => total.toInt
  | _ => 0

/-- What the server has printed in all. -/
def totals (channels : Nat) (system : System clients α μ) : Int :=
  ∑ connection ∈ connections clients channels, reportedTotal (system.phase connection)

def losses (medium : Medium α μ ν) (channels : Nat) (system : System clients α μ) : Nat :=
  ∑ connection ∈ connections clients channels, medium.lost (system.between connection)

/-- Together the reports and the losses make up everything that was sent. -/
theorem totals_losses {medium : Medium α μ ν} {channels : Nat} {system : System clients α μ} {amount : Nat → Nat}
    (complete : ∀ client, ∀ channel < channels, ∃ total, system.phase (client,channel) = .reported total)
    (each : ∀ client channel total, system.phase (client,channel) = .reported total →
      total.toInt + medium.lost (system.between (client,channel)) = amount channel) :
    totals channels system + losses medium channels system = clients * ∑ channel ∈ Finset.range channels, amount channel := by
  rw [totals,losses,Nat.cast_sum,← Finset.sum_add_distrib]
  have reported : ∀ connection ∈ connections clients channels,
      reportedTotal (system.phase connection) + medium.lost (system.between connection) = amount connection.2 := by
    intro connection member
    obtain ⟨total,phase⟩ := complete connection.1 connection.2 (mem_connections.mp member)
    rw [show system.phase connection = .reported total from phase]
    exact each _ _ _ phase
  rw [Finset.sum_congr rfl reported,connections,Finset.sum_product]
  simp only [Finset.sum_const,Finset.card_univ,Fintype.card_fin,nsmul_eq_mul]
  push_cast
  ring

end totals

namespace Tcp

/-- The streams are reliable, and any number of bytes is read at a time. -/
def medium : Medium Text (Library.Pipe.Stream Char) Nat := stream Char bufferSize

theorem behaves : Behaves medium (fun _ => True) fun _ => True := stream_behaves (by decide)

def plan (gethostbyname : Text → Option UInt32) (arguments : List Text)
    (garbage : Fin clients → Fin bufferSize → Char) (client : Fin clients) : List (Command Text) :=
  commands Call.message? (Client.Tcp.main gethostbyname arguments (garbage client)).trace

end Tcp

namespace Dccp

/-- Any datagram may get lost, also one that `write` refuses. -/
def medium : Medium Text (Mailbox Text) Motion := box bufferSize List.length fun _ => true

theorem behaves : Behaves medium (Fits bufferSize List.length) (Readable bufferSize List.length) := box_behaves

def plan (gethostbyname : Text → Option UInt32) (arguments : List Text)
    (garbage : Fin clients → Fin bufferSize → Char) (client : Fin clients) : List (Command Text) :=
  commands Call.message? (Client.Dccp.main gethostbyname arguments (garbage client)).trace

end Dccp

namespace Sctp

structure Chunk where
  payload : Text
  timetolive : UInt32
  deriving DecidableEq

/-- An association keeps its messages until they have arrived or their time to live is over. -/
def medium : Medium Chunk (Mailbox Chunk) Motion :=
  box bufferSize (fun chunk => chunk.payload.length) fun chunk => chunk.timetolive ≠ 0

def Fitting (chunk : Chunk) : Prop := Fits bufferSize (fun chunk : Chunk => chunk.payload.length) chunk

theorem behaves : Behaves medium Fitting (Readable bufferSize fun chunk => chunk.payload.length) := box_behaves

/-- Without a time to live nothing is given up. -/
theorem behaves_reliable : Behaves medium (fun chunk => Fitting chunk ∧ chunk.timetolive = 0)
    (Whole bufferSize (fun chunk => chunk.payload.length) fun chunk => chunk.timetolive ≠ 0) := by
  have same : (fun chunk => Fitting chunk ∧ chunk.timetolive = 0) =
      fun chunk => Fitting chunk ∧ decide (chunk.timetolive ≠ 0) = false := by
    funext chunk
    simp
  rw [same]
  exact box_whole

/-- `sctp_sendmsg` fails on a stream that the association does not have, and the result of
the call is not looked at. -/
def chunk? : Call → Option (Nat × Chunk)
  | .sctpSendmsg payload _ streamI timetolive =>
    if (SctpStreams.streamNo streamI).toNat < SctpStreams.outstrms then some (0,⟨payload,timetolive⟩) else none
  | _ => none

def plan (arguments : List Text) (garbage : Fin clients → Fin bufferSize → Char) (client : Fin clients) :
    List (Command Chunk) := commands chunk? (Client.Sctp.main arguments (garbage client)).trace

end Sctp

/-- What `numCycles` cycles of `len` bytes put on streams that the association has. -/
def carriedBytes (len numCycles numStreams : Nat) : Nat :=
  ∑ k ∈ (Finset.range (numCycles * chunks 1024 len)).filter (fun k => k % numStreams % 2^16 < 512),
    chunkSize 1024 len (k % chunks 1024 len)

section sctp
variable (options : Client.Sctp.Options) (some_stream : 1 ≤ options.numStreams) (garbage : Fin bufferSize → Char)

def carry (timetolive : UInt32) (sending : Nat × Text) : Option (Nat × Sctp.Chunk) :=
  if (SctpStreams.streamNo sending.1).toNat < SctpStreams.outstrms then some (0,⟨sending.2,timetolive⟩) else none

theorem filterMap_if {γ δ : Type} (keep : γ → Prop) [DecidablePred keep] (image : γ → δ) (items : List γ) :
    items.filterMap (fun item => if keep item then some (image item) else none) =
      (items.filter fun item => keep item).map image := by
  induction items with
  | nil => rfl
  | cons item items ih =>
    by_cases kept : keep item
    · simp [kept,ih]
    · simp [kept,ih]

/-- All chunks of a client have its time to live. -/
theorem sctp_chunks (calls : List Call) (ttl : UInt32)
    (own : ∀ call ∈ calls, Sctp.chunk? call = call.message?.bind (carry ttl)) :
    calls.filterMap Sctp.chunk? = (messages calls).filterMap (carry ttl) := by
  rw [messages,List.filterMap_filterMap]
  exact List.filterMap_congr own

include some_stream

/-- The calls of a client, up to what its sending takes from the buffer. -/
theorem sctp_calls :
    let rounds := chunks width options.bytesToTransfer.toInt32.toInt.toNat
    (emit [.socket 0,.connect 0] >>= fun _ => Client.Sctp.sendLoop options garbage).trace =
      forChannels 1 connected ++
      (List.range' 0 options.numCycles.toNat).flatMap (fun c =>
        (List.range' 0 rounds).flatMap (fun x => Client.Sctp.send options.flags options.ttl
          ((c * rounds + x) % options.numStreams.toNat)
          (chunk options.bytesToTransfer.toInt32.toInt.toNat x)) ++ Client.Sctp.pause options.timeBetweenCycles) ++
      forChannels 1 (fun channel => [.close channel]) := by
  intro rounds
  obtain ⟨final,ran⟩ := cycles_calls (Client.Sctp.send options.flags options.ttl) _
    (UInt32.le_iff_toNat_le.mp some_stream) options.bytesToTransfer.toInt32.toInt options.numCycles.toNat
    (Client.Sctp.pause options.timeBetweenCycles) garbage
  rw [emit_bind,Client.Sctp.sendLoop,Client.Sctp.transfer,emits_eq,performs_called,bind_some _ _ final (by rw [ran]),ran]
  exact (List.append_assoc _ _ _).symm

theorem sctp_parts : ∃ body, (emit [.socket 0,.connect 0] >>= fun _ => Client.Sctp.sendLoop options garbage).trace =
      forChannels 1 connected ++ body ++ forChannels 1 (fun channel => [.close channel]) ∧
    messages body = load options.bytesToTransfer.toInt32.toInt.toNat options.numCycles.toNat options.numStreams.toNat ∧
    ∀ call ∈ body, (∀ channel, call ≠ .close channel ∧ call ≠ .connect channel) ∧
      Sctp.chunk? call = call.message?.bind (carry options.ttl) := by
  have positive : 0 < options.numStreams.toNat := UInt32.le_iff_toNat_le.mp some_stream
  obtain ⟨final,ran⟩ := cycles_calls (Client.Sctp.send options.flags options.ttl) _ positive
    options.bytesToTransfer.toInt32.toInt options.numCycles.toNat (Client.Sctp.pause options.timeBetweenCycles) garbage
  have sent := sctp_load options garbage positive
  have own := mem_cycles (Client.Sctp.send options.flags options.ttl) options.numStreams.toNat
    options.bytesToTransfer.toInt32.toInt options.numCycles.toNat (Client.Sctp.pause options.timeBetweenCycles) garbage
    (fun call => (∀ channel, call ≠ .close channel ∧ call ≠ .connect channel) ∧
      Sctp.chunk? call = call.message?.bind (carry options.ttl)) (fun channel payload call member => ?_) fun call member => ?_
  · rw [Client.Sctp.sendLoop,Client.Sctp.transfer,emits_eq,performs_called,bind_some _ _ final (by rw [ran]),ran,
      messages_append] at sent
    rw [ran] at own
    exact ⟨_,sctp_calls options some_stream garbage,(List.append_nil _).symm.trans sent,own⟩
  · obtain rfl := List.mem_singleton.mp member
    exact ⟨fun _ => ⟨Call.noConfusion,Call.noConfusion⟩,rfl⟩
  · unfold Client.Sctp.pause at member
    split at member
    · obtain rfl := List.mem_singleton.mp member
      exact ⟨fun _ => ⟨Call.noConfusion,Call.noConfusion⟩,rfl⟩
    · cases member

theorem sctp_items :
    (emit [.socket 0,.connect 0] >>= fun _ => Client.Sctp.sendLoop options garbage).trace.filterMap Sctp.chunk? =
      (load options.bytesToTransfer.toInt32.toInt.toNat options.numCycles.toNat options.numStreams.toNat).filterMap
        (carry options.ttl) := by
  obtain ⟨body,whole,sent,own⟩ := sctp_parts options some_stream garbage
  have opened : (forChannels 1 connected).filterMap Sctp.chunk? = [] := rfl
  have closed : (forChannels 1 fun channel => [.close channel]).filterMap Sctp.chunk? = [] := rfl
  rw [whole,List.filterMap_append,List.filterMap_append,opened,closed,List.append_nil,List.nil_append,← sent]
  exact sctp_chunks body options.ttl fun call member => (own call member).2

theorem sctp_session : Session Sctp.chunk? (fun chunk => Sctp.Fitting chunk ∧ chunk.timetolive = options.ttl) 1
    (emit [.socket 0,.connect 0] >>= fun _ => Client.Sctp.sendLoop options garbage).trace := by
  have positive : 0 < options.numStreams.toNat := UInt32.le_iff_toNat_le.mp some_stream
  obtain ⟨body,whole,_,own⟩ := sctp_parts options some_stream garbage
  refine ⟨⟨body,whole,fun call member => (own call member).1⟩,?_⟩
  rw [sctp_items options some_stream garbage]
  intro sending member
  obtain ⟨message,dealt,carried⟩ := List.mem_filterMap.mp member
  obtain ⟨_,same⟩ := Option.ite_none_right_eq_some.mp carried
  obtain rfl := Option.some.inj same
  exact ⟨Nat.one_pos,(load_fits _ _ _ positive message dealt).2,rfl⟩

theorem sctp_due : due Sctp.medium 0
      (commands Sctp.chunk? (emit [.socket 0,.connect 0] >>= fun _ => Client.Sctp.sendLoop options garbage).trace) =
    carriedBytes options.bytesToTransfer.toInt32.toInt.toNat options.numCycles.toNat options.numStreams.toNat := by
  have carries (k : Nat) : carry options.ttl (message options.bytesToTransfer.toInt32.toInt.toNat options.numStreams.toNat k) =
      if k % options.numStreams.toNat % 2^16 < 512 then
        some (0,⟨chunk options.bytesToTransfer.toInt32.toInt.toNat
          (k % chunks width options.bytesToTransfer.toInt32.toInt.toNat),options.ttl⟩) else none := by
    rw [carry,SctpStreams.outstrms_eq,message,SctpStreams.streamNo,UInt16.toNat_ofNat']
  rw [due_commands (fun _ => ⟨rfl,rfl⟩),sctp_items options some_stream garbage,load,List.filterMap_map]
  simp only [Function.comp_def,carries,filterMap_if]
  have together : ∀ sending ∈ ((List.range (options.numCycles.toNat * chunks width
      options.bytesToTransfer.toInt32.toInt.toNat)).filter fun k => k % options.numStreams.toNat % 2^16 < 512).map
      (fun k => ((0,⟨chunk options.bytesToTransfer.toInt32.toInt.toNat
        (k % chunks width options.bytesToTransfer.toInt32.toInt.toNat),options.ttl⟩) : Nat × Sctp.Chunk)),
      decide (sending.1 = 0) = true := by
    intro sending member
    obtain ⟨k,_,rfl⟩ := List.mem_map.mp member
    rfl
  rw [List.filter_eq_self.mpr together,List.map_map]
  simp only [Function.comp_def,Sctp.medium,box,chunk_length]
  exact filter_range_sum _ _ _

end sctp

theorem carriedBytes_le (len numCycles numStreams : Nat) : carriedBytes len numCycles numStreams ≤ numCycles * len := by
  have all := sum_periodic numCycles (chunks 1024 len) (chunkSize 1024 len)
  rw [sum_chunks 1024 len (by decide),nsmul_eq_mul,Nat.cast_id] at all
  rw [← all]
  exact Finset.sum_le_sum_of_subset (Finset.filter_subset _ _)

/-- Bytes are missing exactly when a chunk goes to a stream that the association does not have. -/
theorem carriedBytes_eq_iff (len numCycles numStreams : Nat) (positive : 0 < numStreams) :
    carriedBytes len numCycles numStreams = numCycles * len ↔
      numStreams ≤ 512 ∨ numCycles * chunks 1024 len ≤ 512 := by
  have all := sum_periodic numCycles (chunks 1024 len) (chunkSize 1024 len)
  rw [sum_chunks 1024 len (by decide),nsmul_eq_mul,Nat.cast_id] at all
  rw [← SctpStreams.carried_load_iff len numCycles numStreams positive,SctpStreams.carried_load,← all,carriedBytes]
  constructor
  · intro whole k inside
    by_contra refused
    have strict := Finset.sum_lt_sum_of_subset (f := fun k => chunkSize 1024 len (k % chunks 1024 len))
      (Finset.filter_subset (fun k => k % numStreams % 2^16 < 512) _) (Finset.mem_range.mpr inside)
      (fun member => refused (Finset.mem_filter.mp member).2) ?_ fun _ _ _ => Nat.zero_le _
    · omega
    · have some_chunk : 0 < chunks 1024 len := Nat.pos_of_mul_pos_left (Nat.lt_of_le_of_lt (Nat.zero_le k) inside)
      have here := (chunks_spec 1024 len _ (by decide)).mp (Nat.mod_lt k some_chunk)
      rw [chunkSize]
      omega
  · intro carried
    rw [Finset.filter_true_of_mem fun k member => carried k (Finset.mem_range.mp member)]

section programs
variable (clients : Nat) (gethostbyname : Text → Option UInt32) (arguments : List Text)
  (garbage : Fin clients → Fin bufferSize → Char) (masterSocket : Int)

theorem narrow_buffer : bufferSize < 2^31 := by decide

theorem tcp_plan (found : (gethostbyname (Client.Tcp.parse arguments).receiverIp).isSome) :
    Tcp.plan gethostbyname arguments garbage = fun client => commands Call.message?
      (transferred connected Client.Tcp.send (Client.Tcp.parse arguments) (garbage client)).trace := by
  funext client
  rw [Tcp.plan,tcp_main _ found]

section dccp
variable (timer : TimerRuns Client.Dccp.headers (Client.Dccp.parse arguments).sendRateKbytesSec)
include timer

theorem dccp_plan (found : (gethostbyname (Client.Dccp.parse arguments).receiverIp).isSome) :
    Dccp.plan gethostbyname arguments garbage = fun client => commands Call.message?
      (transferred connected Client.Dccp.send (Client.Dccp.parse arguments).toOptions (garbage client)).trace := by
  funext client
  rw [Dccp.plan,dccp_main _ found,pacedTransferred_runs timer]

/-- A client that finds no receiver never connects. -/
theorem dccp_lost {numSockets : Int32} (assigned : (Client.Dccp.parse arguments).numSockets = some numSockets)
    (some_socket : 1 ≤ numSockets) (lost : gethostbyname (Client.Dccp.parse arguments).receiverIp = none) :
    Dccp.plan gethostbyname arguments garbage = fun _ => [.silent] := by
  funext client
  have positive : 0 < numSockets := Int32.lt_of_lt_of_le (by decide) some_socket
  rw [Dccp.plan,Client.Dccp.main,Client.Dccp.program,pacedTransfer_runs timer,
    transfer_lost (garbage client) assigned positive (connected_lost lost 0)]
  rfl

end dccp

theorem dccp_plain : Plain Client.Dccp.send := by
  intro channel payload call member other
  simp only [Client.Dccp.send,List.mem_cons,List.not_mem_nil,or_false] at member
  rcases member with rfl | rfl | rfl <;> exact ⟨Call.noConfusion,Call.noConfusion⟩

theorem tcp_plain : Plain Client.Tcp.send := by
  intro channel payload call member other
  obtain rfl := List.mem_singleton.mp member
  exact ⟨Call.noConfusion,Call.noConfusion⟩

section sockets
variable {numSockets : Int32} {options : Socket.Options} (assigned : options.numSockets = some numSockets)
  (some_socket : 1 ≤ numSockets) (room : clients * numSockets.toInt.toNat ≤ Server.MAX_CLIENTS)
  (small : options.numCycles.toInt.toNat * options.bytesToTransfer.toInt32.toInt.toNat < 2^31)
  {send : Nat → Text → List Call} (plain : Plain send)
  (sends : ∀ channel payload, messages (send channel payload) = [(channel,payload)])
  {medium : Medium Text μ ν} (bytes : medium.size = List.length)
include assigned some_socket sends bytes

theorem transfer_due (garbage : Fin bufferSize → Char) (channel : Nat) :
    due medium channel (commands Call.message? (transferred connected send options garbage).trace) =
      bytesDealt options.bytesToTransfer.toInt32.toInt.toNat options.numCycles.toInt.toNat numSockets.toInt.toNat
        channel :=
  due_load bytes (transfer_messages connected (fun _ => rfl) send sends options numSockets assigned some_socket
    garbage) channel

include room small plain

theorem transfer_proper : Proper medium (Fits bufferSize List.length) numSockets.toInt.toNat fun client =>
    commands Call.message? (transferred connected send options (garbage client)).trace := by
  refine session_proper (fun _ => ⟨rfl,rfl⟩)
    (fun client => transfer_session send assigned some_socket (garbage client) plain sends)
    (fun client channel _ => ?_) room
  rw [transfer_due assigned some_socket sends bytes]
  exact lt_of_le_of_lt (bytesDealt_le _ _ _ _) small

end sockets

/-- Whatever the network loses, the reports and the losses of the DCCP server make up what
the clients were asked to send, on every socket and together. -/
theorem dccp_totals (numSockets : Int32)
    (assigned : (Client.Dccp.parse arguments).numSockets = some numSockets) (some_socket : 1 ≤ numSockets)
    (timer : TimerRuns Client.Dccp.headers (Client.Dccp.parse arguments).sendRateKbytesSec)
    (room : clients * numSockets.toInt.toNat ≤ Server.MAX_CLIENTS)
    (small : (Client.Dccp.parse arguments).numCycles.toInt.toNat *
      (Client.Dccp.parse arguments).bytesToTransfer.toInt32.toInt.toNat < 2^31)
    (acts : List (Act clients Motion)) (system : System clients Text (Mailbox Text))
    (ran : run (step Dccp.medium Server.Dccp.main masterSocket)
      (begin Dccp.medium masterSocket (Dccp.plan gethostbyname arguments garbage)) acts = some system) :
    let len := (Client.Dccp.parse arguments).bytesToTransfer.toInt32.toInt.toNat
    let numCycles := (Client.Dccp.parse arguments).numCycles.toInt.toNat
    let sockets := numSockets.toInt.toNat
    (∀ client socket total, system.phase (client,socket) = .reported total →
      total.toInt + Dccp.medium.lost (system.between (client,socket)) = bytesDealt len numCycles sockets socket) ∧
      ((∀ client, ∀ socket < sockets, ∃ total, system.phase (client,socket) = .reported total) →
        totals sockets system + losses Dccp.medium sockets system = clients * (numCycles * len)) := by
  intro len numCycles sockets
  have each (client : Fin clients) (socket : Nat) (total : Int32)
      (reported : system.phase (client,socket) = .reported total) :
      total.toInt + Dccp.medium.lost (system.between (client,socket)) = bytesDealt len numCycles sockets socket := by
    cases answer : gethostbyname (Client.Dccp.parse arguments).receiverIp with
    | none =>
      rw [dccp_lost clients gethostbyname arguments garbage timer assigned some_socket answer] at ran
      have connects := reported_connects Dccp.behaves narrow_buffer (silent_proper Dccp.medium room) ran reported
      exact absurd connects (by simp)
    | some host =>
      rw [dccp_plan clients gethostbyname arguments garbage timer (by rw [answer]; rfl)] at ran
      have proper := transfer_proper clients garbage assigned some_socket room small dccp_plain (fun _ _ => rfl)
        (show Dccp.medium.size = List.length from rfl)
      rw [reported_due Dccp.behaves narrow_buffer proper ran reported]
      exact congrArg Nat.cast (transfer_due assigned some_socket (fun _ _ => rfl) rfl (garbage client) socket)
  refine ⟨each,fun complete => ?_⟩
  rw [totals_losses complete each,sum_bytesDealt len numCycles sockets (positive_sockets some_socket)]
  push_cast
  rfl

def tenBytes : List Text :=
  ["-a".toList,server,"-s".toList,"1".toList,"-d".toList,"10".toList,"-r".toList,"250".toList]

theorem tenBytes_timer : TimerRuns Client.Dccp.headers (Client.Dccp.parse tenBytes).sendRateKbytesSec :=
  (dccp_timer _).mpr (by decide)

theorem tenBytes_dccp (garbage : Fin 1 → Fin bufferSize → Char) : Dccp.plan (knows server) tenBytes garbage =
    fun _ => [.silent,.connect 0,.silent,.silent,.put 0 "abcdefghij".toList,.close 0] := by
  have assigned : (Client.Dccp.parse tenBytes).numSockets = some 1 := by decide
  funext client
  rw [dccp_plan 1 (knows server) tenBytes garbage tenBytes_timer (by decide)]
  dsimp only
  rw [transfer_calls connected Client.Dccp.send assigned (by decide) (garbage client)]
  decide

/-- The only datagram gets lost. -/
def lostDatagram (client : Fin 1) : List (Act 1 Motion) :=
  [.call client,.call client,.selected {3},.accepted (client,0) 4,.call client,.call client,.call client,
    .move (client,0) (.lose 0),.call client,.selected {4},.disconnected (client,0) 4 0]

theorem lostDatagram_served (server first second third last : Server.State)
    (connecting : Server.step Server.Dccp.main 3 server (.selected {3}) = some first)
    (connected : Server.step Server.Dccp.main 3 first (.accepted 4) = some second)
    (ending : Server.step Server.Dccp.main 3 second (.selected {4}) = some third)
    (ended : Server.step Server.Dccp.main 3 third (.disconnected 4 0) = some last) : ∃ system,
    run (step Dccp.medium Server.Dccp.main 3)
      {begin Dccp.medium 3 (fun _ =>
        [.silent,.connect 0,.silent,.silent,.put 0 "abcdefghij".toList,.close 0]) with server} (lostDatagram 0) = some system ∧
      system.phase (0,0) = .reported 0 := by
  simp [run,lostDatagram,begin,step,Connections.called,enter,onMedium,Command.Possible,Command.act,Command.enter,Dccp.medium,box,
    connecting,connected,ending,ended]

theorem lostDatagram_run (garbage : Fin 1 → Fin bufferSize → Char) : ∃ system,
    run (step Dccp.medium Server.Dccp.main 3) (begin Dccp.medium 3 (Dccp.plan (knows server) tenBytes garbage))
      (lostDatagram 0) = some system ∧
      system.phase (0,0) = .reported 0 := by
  have served := Server.session_run Server.Dccp.main [] (by simp)
  simp only [run,Server.session,List.flatMap_nil,List.foldl_nil,List.nil_append,List.cons_append,List.foldlM_cons,
    List.foldlM_nil,Option.bind_eq_bind,Option.bind_eq_some_iff] at served
  obtain ⟨first,connecting,second,connected,third,ending,last,ended,_⟩ := served
  rw [tenBytes_dccp]
  exact lostDatagram_served Server.start first second third last connecting connected ending ended

theorem dccp_totals_lost_datagram : ∃ system,
    run (step Dccp.medium Server.Dccp.main 3) (begin Dccp.medium 3 (Dccp.plan (knows server) tenBytes fun _ _ => 'x'))
      (lostDatagram 0) = some system ∧ system.phase (0,0) = .reported 0 ∧
    (0 : Int32).toInt + Dccp.medium.lost (system.between (0,0)) = bytesDealt 10 1 1 0 := by
  obtain ⟨system,ran,reported⟩ := lostDatagram_run fun _ _ => 'x'
  have room : 1 * (1 : Int32).toInt.toNat ≤ Server.MAX_CLIENTS := by
    rw [Server.max_clients]
    decide
  exact ⟨system,ran,reported,(dccp_totals 1 (knows server) tenBytes (fun _ _ => 'x') 3 1 (by decide) (by decide)
    tenBytes_timer room (by decide) (lostDatagram 0) system ran).1 0 0 0 reported⟩

section sctp
variable (some_stream : 1 ≤ (Client.Sctp.parse arguments).numStreams) (room : clients ≤ Server.MAX_CLIENTS)
  (small : (Client.Sctp.parse arguments).numCycles.toNat *
    (Client.Sctp.parse arguments).bytesToTransfer.toInt32.toInt.toNat < 2^31)
include some_stream room small

theorem sctp_proper : Proper Sctp.medium
    (fun chunk => Sctp.Fitting chunk ∧ chunk.timetolive = (Client.Sctp.parse arguments).ttl) 1
    (Sctp.plan arguments garbage) := by
  refine session_proper (fun _ => ⟨rfl,rfl⟩) (fun client => sctp_session _ some_stream (garbage client))
    (fun client channel inside => ?_) (by rwa [Nat.mul_one])
  obtain rfl := Nat.lt_one_iff.mp inside
  have dealt := sctp_due (Client.Sctp.parse arguments) some_stream (garbage client)
  have bound := carriedBytes_le (Client.Sctp.parse arguments).bytesToTransfer.toInt32.toInt.toNat
    (Client.Sctp.parse arguments).numCycles.toNat (Client.Sctp.parse arguments).numStreams.toNat
  exact lt_of_le_of_lt (le_of_eq_of_le dealt bound) small

end sctp

/-- The SCTP server reports what went to streams of the association and was not given up,
and without a time to live all of that; it is everything unless the stream cursor runs
past the last stream. -/
theorem sctp_totals (some_stream : 1 ≤ (Client.Sctp.parse arguments).numStreams) (room : clients ≤ Server.MAX_CLIENTS)
    (small : (Client.Sctp.parse arguments).numCycles.toNat *
      (Client.Sctp.parse arguments).bytesToTransfer.toInt32.toInt.toNat < 2^31)
    (acts : List (Act clients Motion)) (system : System clients Sctp.Chunk (Mailbox Sctp.Chunk))
    (ran : run (step Sctp.medium Server.Sctp.main masterSocket)
      (begin Sctp.medium masterSocket (Sctp.plan arguments garbage)) acts = some system) :
    let options := Client.Sctp.parse arguments
    let len := options.bytesToTransfer.toInt32.toInt.toNat
    let numCycles := options.numCycles.toNat
    let carried := carriedBytes len numCycles options.numStreams.toNat
    (∀ client total, system.phase (client,0) = .reported total →
      total.toInt + Sctp.medium.lost (system.between (client,0)) = carried ∧ (options.ttl = 0 → total.toInt = carried)) ∧
      (carried = numCycles * len ↔ options.numStreams.toNat ≤ 512 ∨ numCycles * chunks 1024 len ≤ 512) := by
  intro options len numCycles carried
  have proper := sctp_proper clients arguments garbage some_stream room small
  refine ⟨fun client total reported => ?_,carriedBytes_eq_iff _ _ _ (UInt32.le_iff_toNat_le.mp some_stream)⟩
  have dealt : due Sctp.medium 0 (Sctp.plan arguments garbage client) = carried :=
    sctp_due (Client.Sctp.parse arguments) some_stream (garbage client)
  have accounted := reported_due Sctp.behaves narrow_buffer (proper.mono fun _ admitted => admitted.1)
    ran reported
  rw [dealt] at accounted
  refine ⟨accounted,fun reliable => ?_⟩
  have sound := sound_run Sctp.behaves_reliable narrow_buffer
    (proper.mono fun _ admitted => ⟨admitted.1,admitted.2.trans reliable⟩) ran
  have none_lost : Sctp.medium.lost (system.between (client,0)) = 0 :=
    congrArg (Library.Mailboxes.total fun chunk : Sctp.Chunk => chunk.payload.length) (sound.balanced.intact (client,0)).2.2
  rw [none_lost] at accounted
  omega

theorem tenBytes_sctp (garbage : Fin 1 → Fin bufferSize → Char) : Sctp.plan tenBytes garbage =
    fun _ => [.silent,.connect 0,.put 0 ⟨"abcdefghij".toList,0⟩,.close 0] := by
  funext client
  rw [Sctp.plan,sctp_main,sctp_calls (Client.Sctp.parse tenBytes) (by decide) (garbage client)]
  decide

def oneChunk (client : Fin 1) : List (Act 1 Motion) :=
  [.call client,.call client,.selected {3},.accepted (client,0) 4,.call client,.move (client,0) (.deliver 0),
    .selected {4},.read (client,0) 4 10,.call client,.selected {4},.disconnected (client,0) 4 10]

theorem oneChunk_served (server first second third fourth fifth last : Server.State)
    (connecting : Server.step Server.Sctp.main 3 server (.selected {3}) = some first)
    (connected : Server.step Server.Sctp.main 3 first (.accepted 4) = some second)
    (reading : Server.step Server.Sctp.main 3 second (.selected {4}) = some third)
    (counted : Server.step Server.Sctp.main 3 third (.read 4 10) = some fourth)
    (ending : Server.step Server.Sctp.main 3 fourth (.selected {4}) = some fifth)
    (ended : Server.step Server.Sctp.main 3 fifth (.disconnected 4 10) = some last) : ∃ system,
    run (step Sctp.medium Server.Sctp.main 3)
      {begin Sctp.medium 3 (fun _ =>
        [.silent,.connect 0,.put 0 ⟨"abcdefghij".toList,0⟩,.close 0]) with server} (oneChunk 0) = some system ∧
      system.phase (0,0) = .reported 10 := by
  have ten : Int32.ofNat 10 = 10 := rfl
  simp [run,oneChunk,begin,step,Connections.called,enter,onMedium,Command.Possible,Command.act,Command.enter,Sctp.medium,box,bufferSize,
    connecting,connected,reading,counted,ending,ended,ten]

theorem oneChunk_run (garbage : Fin 1 → Fin bufferSize → Char) : ∃ system,
    run (step Sctp.medium Server.Sctp.main 3) (begin Sctp.medium 3 (Sctp.plan tenBytes garbage)) (oneChunk 0) = some system ∧
      system.phase (0,0) = .reported 10 := by
  have served := Server.visit_run Server.Sctp.main
  simp only [run,Server.visit,List.cons_append,List.nil_append,List.foldlM_cons,List.foldlM_nil,
    Option.bind_eq_bind,Option.bind_eq_some_iff] at served
  obtain ⟨first,connecting,second,connected,third,reading,fourth,counted,fifth,ending,last,ended,_⟩ := served
  rw [tenBytes_sctp]
  exact oneChunk_served Server.start first second third fourth fifth last
    connecting connected reading counted ending ended

theorem sctp_totals_one_chunk : ∃ system,
    run (step Sctp.medium Server.Sctp.main 3) (begin Sctp.medium 3 (Sctp.plan tenBytes fun _ _ => 'x')) (oneChunk 0) =
      some system ∧ system.phase (0,0) = .reported 10 ∧ (10 : Int32).toInt = carriedBytes 10 1 1 := by
  obtain ⟨system,ran,reported⟩ := oneChunk_run fun _ _ => 'x'
  have room : 1 ≤ Server.MAX_CLIENTS := by
    rw [Server.max_clients]
    decide
  exact ⟨system,ran,reported,((sctp_totals 1 tenBytes (fun _ _ => 'x') 3 (by decide) room (by decide) (oneChunk 0) system
    ran).1 0 10 reported).2 (by decide)⟩

/-- All three servers finish, each with the clients of its own protocol. -/
theorem servers_finish (listening : 0 < masterSocket) :
    (∀ numSockets, (Client.Tcp.parse arguments).numSockets = some numSockets → 1 ≤ numSockets →
      (gethostbyname (Client.Tcp.parse arguments).receiverIp).isSome →
      clients * numSockets.toInt.toNat ≤ Server.MAX_CLIENTS →
      (Client.Tcp.parse arguments).numCycles.toInt.toNat *
        (Client.Tcp.parse arguments).bytesToTransfer.toInt32.toInt.toNat < 2^31 →
      Finishes Tcp.medium numSockets.toInt.toNat Server.Tcp.main masterSocket (Tcp.plan gethostbyname arguments garbage)) ∧
    (∀ numSockets, (Client.Dccp.parse arguments).numSockets = some numSockets → 1 ≤ numSockets →
      (gethostbyname (Client.Dccp.parse arguments).receiverIp).isSome →
      TimerRuns Client.Dccp.headers (Client.Dccp.parse arguments).sendRateKbytesSec →
      clients * numSockets.toInt.toNat ≤ Server.MAX_CLIENTS →
      (Client.Dccp.parse arguments).numCycles.toInt.toNat *
        (Client.Dccp.parse arguments).bytesToTransfer.toInt32.toInt.toNat < 2^31 →
      Finishes Dccp.medium numSockets.toInt.toNat Server.Dccp.main masterSocket (Dccp.plan gethostbyname arguments garbage)) ∧
    (1 ≤ (Client.Sctp.parse arguments).numStreams → clients ≤ Server.MAX_CLIENTS →
      (Client.Sctp.parse arguments).numCycles.toNat *
        (Client.Sctp.parse arguments).bytesToTransfer.toInt32.toInt.toNat < 2^31 →
      Finishes Sctp.medium 1 Server.Sctp.main masterSocket (Sctp.plan arguments garbage)) := by
  refine ⟨fun numSockets assigned some_socket found room small => ?_,
    fun numSockets assigned some_socket found timer room small => ?_,fun some_stream room small => ?_⟩
  · have session (client : Fin clients) := transfer_session Client.Tcp.send assigned some_socket (garbage client)
      tcp_plain fun _ _ => rfl
    have proper := transfer_proper clients garbage assigned some_socket room small tcp_plain (fun _ _ => rfl)
      (show Tcp.medium.size = List.length from rfl)
    rw [tcp_plan clients gethostbyname arguments garbage found]
    exact finishes Tcp.behaves narrow_buffer listening (proper.mono fun _ _ => trivial) (session_complete session)
  · have session (client : Fin clients) := transfer_session Client.Dccp.send assigned some_socket (garbage client)
      dccp_plain fun _ _ => rfl
    have proper := transfer_proper clients garbage assigned some_socket room small dccp_plain (fun _ _ => rfl)
      (show Dccp.medium.size = List.length from rfl)
    rw [dccp_plan clients gethostbyname arguments garbage timer found]
    exact finishes Dccp.behaves narrow_buffer listening proper (session_complete session)
  · have proper := sctp_proper clients arguments garbage some_stream room small
    exact finishes Sctp.behaves narrow_buffer listening (proper.mono fun _ admitted => admitted.1)
      (session_complete fun client => sctp_session _ some_stream (garbage client))

theorem servers_finish_ten_bytes :
    Finishes Tcp.medium 1 Server.Tcp.main 3 (Tcp.plan (knows server) tenBytes fun _ : Fin 2 => fun _ => 'x') ∧
      Finishes Dccp.medium 1 Server.Dccp.main 3 (Dccp.plan (knows server) tenBytes fun _ : Fin 2 => fun _ => 'x') ∧
      Finishes Sctp.medium 1 Server.Sctp.main 3 (Sctp.plan tenBytes fun _ : Fin 2 => fun _ => 'x') := by
  have room : 2 * (1 : Int32).toInt.toNat ≤ Server.MAX_CLIENTS := by
    rw [Server.max_clients]
    decide
  obtain ⟨tcp,dccp,sctp⟩ := servers_finish 2 (knows server) tenBytes (fun _ _ => 'x') 3 (by decide)
  exact ⟨tcp 1 (by decide) (by decide) (by decide) room (by decide),
    dccp 1 (by decide) (by decide) (by decide) tenBytes_timer room (by decide),sctp (by decide) room (by decide)⟩

end programs

end ProtocolTests.Transports
