import ProtocolTests.ServerLog
import ProtocolTests.Sessions

/-! The UDP server and its clients. Datagrams may get lost, arrive more than once and overtake
each other; the server prints a line about each one that it receives. No call fails. -/
namespace ProtocolTests.Datagrams
open Library.ByteMemory Library.CString Library.Mailboxes Library.Media Library.Progress Library.Run ServerLog
open Client

variable {clients : Nat}

structure Datagram (clients : Nat) where
  client : Fin clients
  channel : Nat
  payload : Text
  deriving DecidableEq

namespace Datagram

def size (datagram : Datagram clients) : Nat := datagram.payload.length

/-- What a client has sent through which of its sockets. -/
def sentBy (client : Fin clients) (datagram : Datagram clients) : Option (Nat × Text) :=
  if datagram.client = client then some (datagram.channel,datagram.payload) else none

end Datagram

structure System (clients : Nat) where
  remaining : Fin clients → List Call
  network : Mailbox (Datagram clients)
  memory : Memory
  printed : List Text

inductive Act (clients : Nat)
  | call (client : Fin clients) (call : Call)
  | move (motion : Motion)
  | copy (datagram : Datagram clients)
  | receive (datagram : Datagram clients)

namespace Act

def sent? : Act clients → Option (Datagram clients)
  | .call client made => made.message?.map fun message => ⟨client,message.1,message.2⟩
  | _ => none

def copied? : Act clients → Option (Datagram clients)
  | .copy datagram => some datagram
  | _ => none

def received? : Act clients → Option (Datagram clients)
  | .receive datagram => some datagram
  | _ => none

end Act

def sent (acts : List (Act clients)) : List (Datagram clients) := acts.filterMap Act.sent?

def copied (acts : List (Act clients)) : List (Datagram clients) := acts.filterMap Act.copied?

def received (acts : List (Act clients)) : List (Datagram clients) := acts.filterMap Act.received?

theorem sent_concat (acts : List (Act clients)) (act : Act clients) :
    sent (acts ++ [act]) = sent acts ++ act.sent?.toList := by
  rw [sent,List.filterMap_append]
  cases shape : act.sent? <;> simp [sent,shape]

theorem copied_concat (acts : List (Act clients)) (act : Act clients) :
    copied (acts ++ [act]) = copied acts ++ act.copied?.toList := by
  rw [copied,List.filterMap_append]
  cases shape : act.copied? <;> simp [copied,shape]

theorem received_concat (acts : List (Act clients)) (act : Act clients) :
    received (acts ++ [act]) = received acts ++ act.received?.toList := by
  rw [received,List.filterMap_append]
  cases shape : act.received? <;> simp [received,shape]

/-- `sizeof(buffer)` of the server. -/
def serverBuffer : Nat := 1025

def medium : Medium (Datagram clients) (Mailbox (Datagram clients)) Motion := box serverBuffer Datagram.size fun _ => true

section system
variable (peer : Fin clients → Nat → Peer) (address : Nat)

def contact (datagram : Datagram clients) : Contact :=
  ⟨peer datagram.client datagram.channel,true,.read (Int32.ofNat datagram.size)⟩

/-- `recvfrom` and the `printf` behind it. -/
def serve (system : System clients) (datagram : Datagram clients) : System clients :=
  let memory := receive address system.memory (contact peer datagram)
  {system with
    memory
    printed := system.printed ++
      [(contact peer datagram).report.line Udp.protocol (shown memory address).name]}

def called (system : System clients) (client : Fin clients) (call : Call) (rest : List Call) : System clients :=
  {system with
    remaining := Function.update system.remaining client rest
    network := match call.message? with
      | some (channel,payload) => medium.put system.network ⟨client,channel,payload⟩
      | none => system.network}

theorem called_own (system : System clients) (client : Fin clients) (call : Call) (rest : List Call) :
    (called system client call rest).remaining client = rest := Function.update_self ..

theorem called_other (system : System clients) {client other : Fin clients} (different : other ≠ client) (call : Call)
    (rest : List Call) : (called system client call rest).remaining other = system.remaining other :=
  Function.update_of_ne different ..

def step (system : System clients) (act : Act clients) : Option (System clients) :=
  match act with
  | .call client call =>
    match system.remaining client with
    | [] => none
    | first :: rest => if first = call then some (called system client call rest) else none
  | .move motion => (medium.move system.network motion).map fun network => {system with network}
  | .copy datagram =>
    if datagram ∈ system.network.transit then some {system with network := medium.put system.network datagram} else none
  | .receive datagram =>
    if system.network.inbox.head? = some datagram then
      (medium.read system.network datagram.size).map fun network => serve peer address {system with network} datagram
    else none

def begin (plan : Fin clients → List Call) (memory : Memory) : System clients where
  remaining := plan
  network := medium.empty
  memory := setup memory address
  printed := []

/-- The line about a datagram: its bytes and the address of the sender, but no port. -/
def line (datagram : Datagram clients) : Text :=
  (contact peer datagram).report.line Udp.protocol
    (Peer.name ⟨(peer datagram.client datagram.channel).sinAddr,0⟩)

structure Accounts (plan : Fin clients → List Call) (acts : List (Act clients)) (system : System clients) : Prop where
  plans : ∀ client, (sent acts).filterMap (Datagram.sentBy client) ++ messages (system.remaining client) =
    messages (plan client)
  mails : (received acts ++ mail system.network).Perm (sent acts ++ copied acts)
  genuine : ∀ datagram ∈ copied acts, datagram ∈ sent acts
  lines : system.printed = (received acts).map (line peer)

theorem accounts_begin (plan : Fin clients → List Call) (memory : Memory) :
    Accounts peer plan [] (begin address plan memory) where
  plans _ := rfl
  mails := List.Perm.nil
  genuine _ nothing := absurd nothing List.not_mem_nil
  lines := rfl

section steps
variable {peer} {address} {plan : Fin clients → List Call} {acts : List (Act clients)} {system : System clients}
  (accounts : Accounts peer plan acts system)
include accounts

/-- One more datagram in the network. -/
theorem mails_put (datagram : Datagram clients) :
    (received acts ++ mail (medium.put system.network datagram)).Perm (datagram :: (sent acts ++ copied acts)) := by
  have put : (mail (medium.put system.network datagram)).Perm (datagram :: mail system.network) := put_mail _ _
  exact (put.append_left _).trans (List.perm_middle.trans (accounts.mails.cons _))

theorem accounts_called {client : Fin clients} {call : Call} {rest : List Call}
    (current : system.remaining client = call :: rest) :
    Accounts peer plan (acts ++ [.call client call]) (called system client call rest) := by
  have quiet : received (acts ++ [.call client call]) = received acts ∧
      copied (acts ++ [.call client call]) = copied acts := by
    rw [received_concat,copied_concat]
    exact ⟨List.append_nil _,List.append_nil _⟩
  cases sending : call.message? with
  | none =>
    have now : sent (acts ++ [.call client call]) = sent acts := by simp [sent_concat,Act.sent?,sending]
    have network : (called system client call rest).network = system.network := by simp [called,sending]
    refine ⟨fun other => ?_,?_,?_,?_⟩
    · rw [now]
      by_cases same : other = client
      · have silent : messages (call :: rest) = messages rest := by simp [messages,sending]
        rw [same,called_own,← silent,← current]
        exact accounts.plans client
      · rw [called_other system same]
        exact accounts.plans other
    · rw [now,network,quiet.1,quiet.2]
      exact accounts.mails
    · rw [now,quiet.2]
      exact accounts.genuine
    · rw [quiet.1]
      exact accounts.lines
  | some message =>
    let datagram : Datagram clients := ⟨client,message.1,message.2⟩
    have now : sent (acts ++ [.call client call]) = sent acts ++ [datagram] := by
      simp [sent_concat,Act.sent?,sending,datagram]
    have network : (called system client call rest).network = medium.put system.network datagram := by
      simp [called,sending,datagram]
    refine ⟨fun other => ?_,?_,?_,?_⟩
    · rw [now,List.filterMap_append]
      by_cases same : other = client
      · have spoken : messages (call :: rest) = message :: messages rest := by simp [messages,sending]
        rw [same,called_own,List.append_assoc,← accounts.plans client,current,spoken]
        simp [Datagram.sentBy,datagram]
      · rw [called_other system same,← accounts.plans other]
        simp [Datagram.sentBy,datagram,Ne.symm same]
    · rw [now,network,quiet.1,quiet.2,List.append_assoc,List.singleton_append]
      exact (mails_put accounts datagram).trans List.perm_middle.symm
    · rw [now,quiet.2]
      exact fun other copy => List.mem_append_left _ (accounts.genuine other copy)
    · rw [quiet.1]
      exact accounts.lines

theorem accounts_moved {motion : Motion} {network : Mailbox (Datagram clients)}
    (moved : medium.move system.network motion = some network) :
    Accounts peer plan (acts ++ [.move motion]) {system with network} := by
  have quiet : sent (acts ++ [.move motion]) = sent acts ∧ received (acts ++ [.move motion]) = received acts ∧
      copied (acts ++ [.move motion]) = copied acts := by
    rw [sent_concat,received_concat,copied_concat]
    exact ⟨List.append_nil _,List.append_nil _,List.append_nil _⟩
  refine ⟨?_,?_,?_,?_⟩
  · rw [quiet.1]
    exact accounts.plans
  · rw [quiet.1,quiet.2.1,quiet.2.2]
    exact ((move_mail moved).append_left _).trans accounts.mails
  · rw [quiet.1,quiet.2.2]
    exact accounts.genuine
  · rw [quiet.2.1]
    exact accounts.lines

theorem accounts_copied {datagram : Datagram clients} (inside : datagram ∈ system.network.transit) :
    Accounts peer plan (acts ++ [.copy datagram]) {system with network := medium.put system.network datagram} := by
  have quiet : sent (acts ++ [.copy datagram]) = sent acts ∧ received (acts ++ [.copy datagram]) = received acts := by
    rw [sent_concat,received_concat]
    exact ⟨List.append_nil _,List.append_nil _⟩
  have now : copied (acts ++ [.copy datagram]) = copied acts ++ [datagram] := copied_concat _ _
  refine ⟨?_,?_,?_,?_⟩
  · rw [quiet.1]
    exact accounts.plans
  · rw [quiet.1,quiet.2,now,← List.append_assoc]
    exact (mails_put accounts datagram).trans (List.perm_append_singleton _ _).symm
  · intro other copy
    rw [now] at copy
    rw [quiet.1]
    rcases List.mem_append.mp copy with before | new
    · exact accounts.genuine other before
    · obtain rfl := List.mem_singleton.mp new
      have known := accounts.mails.subset (List.mem_append_right _ (transit_mail inside))
      exact (List.mem_append.mp known).elim id (accounts.genuine other)
  · rw [quiet.2]
    exact accounts.lines

theorem accounts_received {datagram : Datagram clients} {network : Mailbox (Datagram clients)}
    (first : system.network.inbox.head? = some datagram)
    (taken : medium.read system.network datagram.size = some network) :
    Accounts peer plan (acts ++ [.receive datagram]) (serve peer address {system with network} datagram) := by
  have quiet : sent (acts ++ [.receive datagram]) = sent acts ∧ copied (acts ++ [.receive datagram]) = copied acts := by
    rw [sent_concat,copied_concat]
    exact ⟨List.append_nil _,List.append_nil _⟩
  have now : received (acts ++ [.receive datagram]) = received acts ++ [datagram] := received_concat _ _
  refine ⟨?_,?_,?_,?_⟩
  · rw [quiet.1]
    exact accounts.plans
  · have whole := accounts.mails
    rw [read_mail first taken] at whole
    rw [quiet.1,quiet.2,now,List.append_assoc,List.singleton_append]
    exact whole
  · rw [quiet.1,quiet.2]
    exact accounts.genuine
  · have here : (shown (ServerLog.receive address system.memory (contact peer datagram)) address) =
        ⟨(peer datagram.client datagram.channel).sinAddr,0⟩ := shown_answer _ _ _
    rw [now,List.map_append,← accounts.lines,serve,here]
    rfl

end steps

theorem accounts_step {plan : Fin clients → List Call} {acts : List (Act clients)} {system next : System clients}
    {act : Act clients} (accounts : Accounts peer plan acts system) (stepped : step peer address system act = some next) :
    Accounts peer plan (acts ++ [act]) next := by
  cases act with
  | call client call =>
    simp only [step] at stepped
    split at stepped
    next => cases stepped
    next first rest current =>
      obtain ⟨rfl,same⟩ := Option.ite_none_right_eq_some.mp stepped
      obtain rfl := Option.some.inj same
      exact accounts_called accounts current
  | move motion =>
    obtain ⟨network,moved,rfl⟩ := Option.map_eq_some_iff.mp stepped
    exact accounts_moved accounts moved
  | copy datagram =>
    obtain ⟨inside,same⟩ := Option.ite_none_right_eq_some.mp stepped
    obtain rfl := Option.some.inj same
    exact accounts_copied accounts inside
  | receive datagram =>
    obtain ⟨first,serving⟩ := Option.ite_none_right_eq_some.mp stepped
    obtain ⟨network,taken,rfl⟩ := Option.map_eq_some_iff.mp serving
    exact accounts_received accounts first taken

section runs
variable {peer} {address} {plan : Fin clients → List Call} {memory : Memory} {acts : List (Act clients)}
  {system : System clients}

theorem accounts_run (ran : run (step peer address) (begin address plan memory) acts = some system) :
    Accounts peer plan acts system :=
  invariant (fun _ _ => True) (Accounts peer plan) (accounts_begin peer address plan memory)
    (fun _ _ _ _ accounts _ stepped => accounts_step peer address accounts stepped) (fun _ _ _ => trivial) ran

/-- Everything that is to be sent fits into one read of the server. -/
def Fitting (plan : Fin clients → List Call) : Prop :=
  ∀ client, ∀ message ∈ messages (plan client), Fits serverBuffer List.length message.2

section accounts
variable (accounts : Accounts peer plan acts system)
include accounts

theorem mails_sent {datagram : Datagram clients} (known : datagram ∈ received acts ++ mail system.network) :
    datagram ∈ sent acts :=
  (List.mem_append.mp (accounts.mails.subset known)).elim id (accounts.genuine datagram)

theorem sent_planned {datagram : Datagram clients} (member : datagram ∈ sent acts) :
    (datagram.channel,datagram.payload) ∈ messages (plan datagram.client) := by
  rw [← accounts.plans datagram.client]
  exact List.mem_append_left _ (List.mem_filterMap.mpr ⟨datagram,member,if_pos rfl⟩)

theorem network_readable (fitting : Fitting plan) : Readable serverBuffer Datagram.size system.network := by
  intro datagram inside
  have known : datagram ∈ mail system.network := by
    rcases inside with transit | inbox
    · exact transit_mail transit
    · exact List.mem_append_left _ (List.mem_append_left _ inbox)
  exact fitting _ _ (sent_planned accounts (mails_sent accounts (List.mem_append_right _ known)))

end accounts

/-- Only the network could go on for ever, with copies of what it has. -/
def Original (_ : System clients) (act : Act clients) : Prop := act.copied? = none

/-- A call is priced as the later delivery and read of what it may send. -/
def potential (system : System clients) : Nat :=
  ∑ client, 5 * (system.remaining client).length + medium.work system.network

theorem potential_called {client : Fin clients} {call : Call} {rest : List Call}
    (current : system.remaining client = call :: rest) :
    potential (called system client call rest) < potential system := by
  have shorter : ∑ other, 5 * ((called system client call rest).remaining other).length + 5 =
      ∑ other, 5 * (system.remaining other).length := by
    rw [← Finset.add_sum_erase _ _ (Finset.mem_univ client),← Finset.add_sum_erase _ _ (Finset.mem_univ client)]
    have others : ∑ other ∈ Finset.univ.erase client, 5 * ((called system client call rest).remaining other).length =
        ∑ other ∈ Finset.univ.erase client, 5 * (system.remaining other).length :=
      Finset.sum_congr rfl fun other member => by rw [called_other system (Finset.ne_of_mem_erase member)]
    rw [others,called_own,current,List.length_cons]
    omega
  have effort : medium.work (called system client call rest).network ≤ medium.work system.network + 4 := by
    rw [called]
    split
    next => exact box_behaves.work_put _ _
    next => exact Nat.le_add_right _ _
  unfold potential
  omega

theorem potential_step {act : Act clients} {next : System clients} (accounts : Accounts peer plan acts system)
    (fitting : Fitting plan) (original : Original system act) (stepped : step peer address system act = some next) :
    potential next < potential system := by
  cases act with
  | call client call =>
    simp only [step] at stepped
    split at stepped
    next => cases stepped
    next first rest current =>
      obtain ⟨rfl,same⟩ := Option.ite_none_right_eq_some.mp stepped
      obtain rfl := Option.some.inj same
      exact potential_called current
  | move motion =>
    obtain ⟨network,moved,rfl⟩ := Option.map_eq_some_iff.mp stepped
    exact Nat.add_lt_add_left (box_behaves.work_move _ _ _ moved) _
  | copy datagram => cases original
  | receive datagram =>
    obtain ⟨first,serving⟩ := Option.ite_none_right_eq_some.mp stepped
    obtain ⟨network,taken,rfl⟩ := Option.map_eq_some_iff.mp serving
    have some_bytes := (network_readable accounts fitting datagram (.inr (List.mem_of_mem_head? first))).1
    have lower : medium.work network + 2 ≤ medium.work system.network := (box_behaves.work_read _ _ _ taken).2 (by omega)
    have less : medium.work network < medium.work system.network := by omega
    exact Nat.add_lt_add_left less _

/-- Without a possible act everything has been sent, and received or lost. -/
theorem stuck_settled (accounts : Accounts peer plan acts system) (fitting : Fitting plan)
    (stuck : Stuck (step peer address) Original system) :
    (∀ client, system.remaining client = []) ∧ system.network.transit = [] ∧ system.network.inbox = [] := by
  refine ⟨fun client => ?_,?_,?_⟩
  · cases current : system.remaining client with
    | nil => rfl
    | cons call rest =>
      have possible := stuck (.call client call) rfl
      simp [step,current] at possible
  · cases current : system.network.transit with
    | nil => rfl
    | cons datagram rest =>
      have possible := stuck (.move (.deliver 0)) rfl
      simp [step,medium,box,current] at possible
  · cases current : system.network.inbox with
    | nil => rfl
    | cons datagram rest =>
      have small := (network_readable accounts fitting datagram (.inr (by rw [current]; exact List.mem_cons_self))).2
      have possible := stuck (.receive datagram) rfl
      simp [step,medium,box,current,small] at possible

end runs

end system

def bytes (datagrams : List (Datagram clients)) : Nat := total Datagram.size datagrams

/-- What is sent is sent by one of the clients. -/
theorem bytes_clients (datagrams : List (Datagram clients)) :
    bytes datagrams = ∑ client, ((datagrams.filterMap (Datagram.sentBy client)).map fun message => message.2.length).sum := by
  induction datagrams with
  | nil => simp [bytes]
  | cons datagram datagrams ih =>
    have each (client : Fin clients) :
        (((datagram :: datagrams).filterMap (Datagram.sentBy client)).map fun message => message.2.length).sum =
          (if datagram.client = client then datagram.size else 0) +
            ((datagrams.filterMap (Datagram.sentBy client)).map fun message => message.2.length).sum := by
      by_cases own : datagram.client = client
      · simp [Datagram.sentBy,Datagram.size,own]
      · simp [Datagram.sentBy,own]
    rw [bytes,total_cons,← bytes,ih]
    simp only [each,Finset.sum_add_distrib,Finset.sum_ite_eq,Finset.mem_univ,if_true]

section programs
open Library.CallTrace Library.Programs ClientLoad SameLoad

variable (clients : Nat) (gethostbyname : Text → Option UInt32) (arguments : List Text)
  (garbage : Fin clients → Fin bufferSize → Char) (peer : Fin clients → Nat → Peer) (address : Nat) (memory : Memory)

def plan (client : Fin clients) : List Call := (Udp.main gethostbyname arguments (garbage client)).trace

theorem untilSigwait_sublist (microseconds : Int) (rest : Traced Call Unit) :
    (messages (Socket.untilSigwait microseconds rest).trace).Sublist (messages rest.trace) := by
  unfold Socket.untilSigwait
  split
  next => exact (List.takeWhile_sublist _).filterMap _
  next => exact List.Sublist.refl _

/-- A receiver that is not found gets nothing. -/
theorem transfer_fits (receiverIp : Text) (options : Socket.Options) (garbage : Fin bufferSize → Char) :
    ∀ message ∈ messages (Socket.transfer Client.called (Socket.openUnconnected (returning gethostbyname) receiverIp)
      (fun channel payload => performs Client.called (Udp.send channel payload)) options garbage).trace,
      Fits bufferSize List.length message.2 := by
  intro message member
  cases assigned : options.numSockets with
  | none =>
    rw [Socket.transfer,assigned,bind_none _ _ rfl] at member
    cases member
  | some numSockets =>
    by_cases some_socket : 0 < numSockets
    · have least : 1 ≤ numSockets := by
        rw [Int32.lt_iff_toInt_lt] at some_socket
        exact Int32.le_iff_toInt_le.mpr some_socket
      cases answer : gethostbyname receiverIp with
      | none =>
        rw [transfer_lost garbage assigned some_socket (unconnected_lost answer 0)] at member
        cases member
      | some host =>
        have found : (gethostbyname receiverIp).isSome := by rw [answer]; rfl
        rw [unconnected_found found,emits_eq] at member
        have sent := transfer_messages unconnected (fun _ => rfl) Udp.send (fun _ _ => rfl) options numSockets assigned
          least garbage
        rw [transferred] at sent
        rw [sent] at member
        exact (Sessions.load_fits _ _ _ (Sessions.positive_sockets least) message member).2
    · rw [Socket.transfer,assigned,need_some_bind,require_false _ some_socket,bind_none _ _ rfl] at member
      cases member

theorem udp_fitting : Fitting (plan clients gethostbyname arguments garbage) := by
  intro client message member
  rw [plan,Udp.main,Udp.program,Socket.pacedTransfer] at member
  cases set : Socket.waitTimeUs Udp.headers (Udp.parse arguments).sendRateKbytesSec with
  | none =>
    rw [set,bind_none _ _ rfl] at member
    cases member
  | some waitTime =>
    rw [set,need_some_bind] at member
    simp only [returning] at member
    split at member
    next => exact transfer_fits gethostbyname _ _ _ message ((untilSigwait_sublist _ _).subset member)
    next => cases member

def tenBytes : List Text :=
  ["-a".toList,server,"-s".toList,"1".toList,"-d".toList,"10".toList,"-p".toList,"250".toList]

theorem tenBytes_timer : TimerRuns Udp.headers (Udp.parse tenBytes).sendRateKbytesSec := (udp_timer _).mpr (by decide)

theorem tenBytes_plan (garbage : Fin 1 → Fin bufferSize → Char) :
    plan 1 (knows server) tenBytes garbage = fun _ => [.socket 0,.sigwait,.send 0 "abcdefghij".toList,.close 0] := by
  have assigned : (Udp.parse tenBytes).numSockets = some 1 := by decide
  funext client
  rw [plan,udp_main (garbage client) (by decide),pacedTransferred_runs tenBytes_timer,
    transfer_calls unconnected Udp.send assigned (by decide) (garbage client)]
  decide

def greeting (client : Fin 1) : Datagram 1 := ⟨client,0,"abcdefghij".toList⟩

/-- The datagram comes twice, and its copy is received first. -/
def twice (client : Fin 1) : List (Act 1) :=
  [.call client (.socket 0),.call client .sigwait,.call client (.send 0 "abcdefghij".toList),.copy (greeting client),
    .move (.deliver 1),.receive (greeting client),.move (.deliver 0),.receive (greeting client)]

theorem twice_run (peer : Fin 1 → Nat → Peer) (address : Nat) (memory : Memory) (garbage : Fin 1 → Fin bufferSize → Char) :
    ∃ system, run (step peer address) (begin address (plan 1 (knows server) tenBytes garbage) memory) (twice 0) = some system := by
  rw [tenBytes_plan]
  exact ⟨_,rfl⟩

/-- The lines of the server are those of datagrams that its clients have sent, one line for
each that arrives. All are read whole. -/
theorem lines_genuine (acts : List (Act clients)) (system : System clients)
    (ran : run (step peer address) (begin address (plan clients gethostbyname arguments garbage) memory) acts =
      some system) :
    system.printed = (received acts).map (line peer) ∧
      (∀ datagram ∈ received acts, datagram ∈ sent acts ∧
        (datagram.channel,datagram.payload) ∈ messages (plan clients gethostbyname arguments garbage datagram.client) ∧
        1 ≤ datagram.size ∧ datagram.size ≤ serverBuffer) ∧
      (received acts ++ mail system.network).Perm (sent acts ++ copied acts) := by
  have accounts := accounts_run ran
  refine ⟨accounts.lines,fun datagram member => ?_,accounts.mails⟩
  have known := mails_sent accounts (List.mem_append_left _ member)
  have planned := sent_planned accounts known
  exact ⟨known,planned,udp_fitting clients gethostbyname arguments garbage _ _ planned⟩

theorem lines_genuine_twice : ∃ system : System 1,
    run (step (fun _ _ => visitor) 0) (begin 0 (plan 1 (knows server) tenBytes fun _ _ => 'x') fun _ => 0) (twice 0) =
        some system ∧
      system.printed = (received (twice 0)).map (line fun _ _ => visitor) ∧
      received (twice 0) = [greeting 0,greeting 0] := by
  obtain ⟨system,ran⟩ := twice_run (fun _ _ => visitor) 0 (fun _ => 0) fun _ _ => 'x'
  have lines := (lines_genuine 1 (knows server) tenBytes (fun _ _ => 'x') (fun _ _ => visitor) 0 (fun _ => 0) (twice 0) system ran).1
  exact ⟨system,ran,lines,rfl⟩

section guided
variable {clients peer address memory} {acts : List (Act clients)} {system : System clients}

theorem guided_accounts {plan : Fin clients → List Call}
    (ran : Guided (step peer address) Original (begin address plan memory) acts system) :
    Accounts peer plan acts system ∧ copied acts = [] := by
  refine ⟨accounts_run (guided_run ran),?_⟩
  refine guided_invariant (fun acts _ => copied acts = []) rfl ?_ ran
  intro acts _ act _ _ before original _
  rw [copied_concat,before,original]
  rfl

theorem guided_lowers {plan : Fin clients → List Call} (fitting : Fitting plan) (acts : List (Act clients))
    (system : System clients) (act : Act clients) (next : System clients)
    (ran : Guided (step peer address) Original (begin address plan memory) acts system) (original : Original system act)
    (stepped : step peer address system act = some next) : potential next < potential system :=
  potential_step (guided_accounts ran).1 fitting original stepped

/-- What has settled is what the plans have sent in all. -/
theorem settled_bytes {plan : Fin clients → List Call} (fitting : Fitting plan)
    (ran : Guided (step peer address) Original (begin address plan memory) acts system)
    (stuck : Stuck (step peer address) Original system) :
    bytes (received acts) + bytes system.network.lost =
      ∑ client, ((messages (plan client)).map fun message => message.2.length).sum := by
  obtain ⟨accounts,none_copied⟩ := guided_accounts ran
  obtain ⟨remaining,transit,inbox⟩ := stuck_settled accounts fitting stuck
  have whole := total_perm Datagram.size accounts.mails
  rw [none_copied,List.append_nil,total_append,mail,transit,inbox] at whole
  have spoken (client : Fin clients) : (sent acts).filterMap (Datagram.sentBy client) = messages (plan client) := by
    rw [← accounts.plans client,remaining client]
    exact (List.append_nil _).symm
  have dealt := bytes_clients (sent acts)
  simp only [spoken] at dealt
  rw [← dealt]
  exact whole

end guided

/-- Every run without copies ends in at most five acts for each call, and can always be ended.
Then the bytes of the lines and those of the lost datagrams are all that was asked for. -/
theorem udp_totals (numSockets : Int32) (assigned : (Udp.parse arguments).numSockets = some numSockets)
    (some_socket : 1 ≤ numSockets) (found : (gethostbyname (Udp.parse arguments).receiverIp).isSome)
    (timer : TimerRuns Udp.headers (Udp.parse arguments).sendRateKbytesSec)
    (acts : List (Act clients)) (system : System clients)
    (ran : Guided (step peer address) Original (begin address (plan clients gethostbyname arguments garbage) memory) acts
      system) :
    acts.length ≤ ∑ client, 5 * (plan clients gethostbyname arguments garbage client).length ∧
      (∃ more final, Guided (step peer address) Original
        (begin address (plan clients gethostbyname arguments garbage) memory) (acts ++ more) final ∧
          Stuck (step peer address) Original final) ∧
      (Stuck (step peer address) Original system →
        bytes (received acts) + bytes system.network.lost =
          clients * ((Udp.parse arguments).numCycles.toInt.toNat *
            (Udp.parse arguments).bytesToTransfer.toInt32.toInt.toNat)) := by
  have fitting := udp_fitting clients gethostbyname arguments garbage
  refine ⟨?_,guided_completes potential (guided_lowers fitting) ran,fun stuck => ?_⟩
  · have bounded := guided_bounded potential (guided_lowers fitting) ran
    have start : potential (begin address (plan clients gethostbyname arguments garbage) memory) =
        ∑ client, 5 * (plan clients gethostbyname arguments garbage client).length := rfl
    omega
  · have sent (client : Fin clients) : messages (plan clients gethostbyname arguments garbage client) =
        load (Udp.parse arguments).bytesToTransfer.toInt32.toInt.toNat (Udp.parse arguments).numCycles.toInt.toNat
          numSockets.toInt.toNat := by
      rw [plan,udp_main (garbage client) found]
      exact (pacedTransfer_messages Udp.headers unconnected (fun _ => rfl) Udp.send (fun _ _ => rfl) (fun _ _ => rfl)
        (Udp.parse arguments) numSockets assigned some_socket (garbage client)).1 timer
    rw [settled_bytes fitting ran stuck]
    simp only [sent,load_total]
    rw [Finset.sum_const,Finset.card_univ,Fintype.card_fin,nsmul_eq_mul,Nat.cast_id]

theorem udp_totals_ten_bytes : ∃ (acts : List (Act 2)) (system : System 2),
    Guided (step (fun _ _ => visitor) 0) Original (begin 0 (plan 2 (knows server) tenBytes fun _ _ => 'x') fun _ => 0) acts
        system ∧
      Stuck (step (fun _ _ => visitor) 0) Original system ∧
      bytes (received acts) + bytes system.network.lost = 2 * (1 * 10) := by
  have assigned : (Udp.parse tenBytes).numSockets = some 1 := by decide
  have asked := udp_totals 2 (knows server) tenBytes (fun _ _ => 'x') (fun _ _ => visitor) 0 (fun _ => 0) 1 assigned
    (by decide) (by decide) tenBytes_timer
  obtain ⟨_,⟨acts,system,ran,stuck⟩,_⟩ := asked [] _ .nil
  exact ⟨[] ++ acts,system,ran,stuck,(asked _ system ran).2.2 stuck⟩

end programs

end ProtocolTests.Datagrams
