import ProtocolTests.Transports

/-! From the options of the TCP client to the totals of the TCP server. -/
namespace ProtocolTests.EndToEnd
open Library.Run Library.Media Library.Pipe Library.CString
open Client SameLoad Connections ConnectionTotals Sessions Transports

/-- The calls of a client behind its getopt loop, all of which return. -/
def clientCalls (options : Socket.Options) (garbage : Fin bufferSize → Char) : List Call :=
  (transferred connected Client.Tcp.send options garbage).trace

def clientPlan {clients : Nat} (options : Socket.Options) (garbage : Fin clients → Fin bufferSize → Char)
    (client : Fin clients) : List (Command Text) := commands Call.message? (clientCalls options (garbage client))

/-- End to end: every total is what the client dealt to the socket, and when all
connections are reported the totals are together what the clients were asked to send. -/
theorem end_to_end (clients : Nat) (options : Socket.Options) (numSockets : Int32)
    (garbage : Fin clients → Fin bufferSize → Char) (masterSocket : Int)
    (assigned : options.numSockets = some numSockets) (some_socket : 1 ≤ numSockets)
    (room : clients * numSockets.toInt.toNat ≤ Server.MAX_CLIENTS)
    (small : options.numCycles.toInt.toNat * options.bytesToTransfer.toInt32.toInt.toNat < 2^31)
    (acts : List (Act clients Nat)) (system : System clients Text (Stream Char))
    (ran : run (step Tcp.medium Server.Tcp.main masterSocket)
      (begin Tcp.medium masterSocket (clientPlan options garbage)) acts = some system) :
    let len := options.bytesToTransfer.toInt32.toInt.toNat
    let numCycles := options.numCycles.toInt.toNat
    let sockets := numSockets.toInt.toNat
    (∀ report ∈ reports acts, report.2.toInt = bytesDealt len numCycles sockets report.1.2) ∧
      ((∀ client, ∀ socket < sockets, (client,socket) ∈ (reports acts).map Prod.fst) →
        ((reports acts).map fun report => report.2.toInt).sum = clients * numCycles * len) := by
  intro len numCycles sockets
  have positive : 0 < sockets := positive_sockets some_socket
  have proper := (transfer_proper clients garbage assigned some_socket room small tcp_plain (fun _ _ => rfl)
    (show Tcp.medium.size = List.length from rfl)).mono fun _ _ => trivial
  have recorded := recorded_run ran
  have totals (report : Connection clients × Int32) (member : report ∈ reports acts) :
      report.2.toInt = bytesDealt len numCycles sockets report.1.2 := by
    have sum := reported_due Tcp.behaves narrow_buffer proper ran ((recorded.phases report.1 report.2).mp member)
    have dealt : due Tcp.medium report.1.2 (clientPlan options garbage report.1.1) =
        bytesDealt len numCycles sockets report.1.2 :=
      transfer_due assigned some_socket (fun _ _ => rfl) rfl (garbage report.1.1) report.1.2
    -- A stream loses nothing.
    have none_lost : Tcp.medium.lost (system.between report.1) = 0 := rfl
    rw [none_lost] at sum
    exact (Int.add_zero _).symm.trans (sum.trans (congrArg Nat.cast dealt))
  refine ⟨totals,fun complete => ?_⟩
  have everyone : ((reports acts).map Prod.fst).toFinset = Finset.univ ×ˢ Finset.range sockets := by
    ext ⟨client,socket⟩
    rw [List.mem_toFinset,Finset.mem_product,Finset.mem_range]
    constructor
    · intro member
      obtain ⟨⟨connection,total⟩,reported,rfl⟩ := List.mem_map.mp member
      have asked := reported_connects Tcp.behaves narrow_buffer proper ran ((recorded.phases _ _).mp reported)
      exact ⟨Finset.mem_univ _,proper.inside _ _ asked _ rfl⟩
    · rintro ⟨_,inside⟩
      exact complete client socket inside
  calc ((reports acts).map fun report => report.2.toInt).sum
      = ((((reports acts).map Prod.fst).map fun connection => bytesDealt len numCycles sockets connection.2).sum : Nat) := by
        rw [List.map_map,Nat.cast_list_sum,List.map_map]
        exact congrArg List.sum (List.map_congr_left totals)
    _ = (∑ connection ∈ ((reports acts).map Prod.fst).toFinset, bytesDealt len numCycles sockets connection.2 : Nat) := by
        rw [List.sum_toFinset _ recorded.once]
    _ = (∑ client : Fin clients, ∑ socket ∈ Finset.range sockets, bytesDealt len numCycles sockets socket : Nat) := by
        rw [everyone,Finset.sum_product]
    _ = clients * numCycles * len := by
        rw [sum_bytesDealt len numCycles sockets positive,Finset.sum_const,Finset.card_univ,Fintype.card_fin,nsmul_eq_mul]
        push_cast
        ring

def tenBytes : Socket.Options := {bytesToTransfer := 10, numSockets := some 1}

/-- The bytes arrive in two pieces, the second one while the server waits. -/
def oneClient : List (Act 1 Nat) :=
  [.call 0,.call 0,.selected {3},.call 0,.accepted (0,0) 4,.move (0,0) 4,.selected {4},.move (0,0) 6,
    .read (0,0) 4 10,.call 0,.selected {4},.disconnected (0,0) 4 10]

theorem tenBytes_plan (garbage : Fin 1 → Fin bufferSize → Char) : clientPlan tenBytes garbage =
    fun _ => [.silent,.connect 0,.put 0 "abcdefghij".toList,.close 0] := by
  have assigned : tenBytes.numSockets = some 1 := rfl
  funext client
  rw [clientPlan,clientCalls,transfer_calls connected Client.Tcp.send assigned (by decide) (garbage client)]
  decide

theorem oneClient_served (server first second third fourth fifth last : Server.State)
    (connecting : Server.step Server.Tcp.main 3 server (.selected {3}) = some first)
    (connected : Server.step Server.Tcp.main 3 first (.accepted 4) = some second)
    (reading : Server.step Server.Tcp.main 3 second (.selected {4}) = some third)
    (counted : Server.step Server.Tcp.main 3 third (.read 4 10) = some fourth)
    (ending : Server.step Server.Tcp.main 3 fourth (.selected {4}) = some fifth)
    (ended : Server.step Server.Tcp.main 3 fifth (.disconnected 4 10) = some last) : ∃ system,
    run (step Tcp.medium Server.Tcp.main 3)
      {begin Tcp.medium 3 (fun _ => [.silent,.connect 0,.put 0 "abcdefghij".toList,.close 0]) with server} oneClient =
        some system := by
  have ten : Int32.ofNat 10 = 10 := rfl
  simp [run,oneClient,begin,step,Connections.called,enter,onMedium,Command.Possible,Command.act,Command.enter,Tcp.medium,
    stream,Stream.empty,Stream.send,Stream.deliver,Stream.receive,Stream.close,bufferSize,connecting,connected,reading,
    counted,ending,ended,ten]

theorem oneClient_run (garbage : Fin 1 → Fin bufferSize → Char) : ∃ system,
    run (step Tcp.medium Server.Tcp.main 3) (begin Tcp.medium 3 (clientPlan tenBytes garbage)) oneClient = some system := by
  have served := Server.visit_run Server.Tcp.main
  simp only [run,Server.visit,List.cons_append,List.nil_append,List.foldlM_cons,List.foldlM_nil,
    Option.bind_eq_bind,Option.bind_eq_some_iff] at served
  obtain ⟨first,connecting,second,connected,third,reading,fourth,counted,fifth,ending,last,ended,_⟩ := served
  rw [tenBytes_plan]
  exact oneClient_served Server.start first second third fourth fifth last
    connecting connected reading counted ending ended

theorem end_to_end_one_client : ∃ system,
    run (step Tcp.medium Server.Tcp.main 3) (begin Tcp.medium 3 (clientPlan tenBytes fun _ : Fin 1 => fun _ => 'x'))
        oneClient = some system ∧
      ((reports oneClient).map fun report => report.2.toInt).sum = (1 : Nat) * (1 : Nat) * (10 : Nat) := by
  obtain ⟨system,ran⟩ := oneClient_run fun _ _ => 'x'
  refine ⟨system,ran,(end_to_end 1 tenBytes 1 (fun _ _ => 'x') 3 rfl (by decide)
    (by rw [Server.max_clients]; decide) (by decide) oneClient system ran).2 ?_⟩
  have reported : reports oneClient = [((0,0),10)] := rfl
  rw [reported]
  decide

end ProtocolTests.EndToEnd
