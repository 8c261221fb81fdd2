import ProtocolTests.SameLoad
import ProtocolTests.Library.Dialogue
import ProtocolTests.Library.FdSet

/-! The clients with the answers that the system gives to their calls: they check the setting
up of their connections, follow the pointer that a look-up returns, and DCCP repeats an
interrupted select on descriptors that it puts into a set. -/
namespace ProtocolTests.ClientFailures
open Library.CString Library.Programs Library.CallTrace Library.Dialogue Library.FdSet Sender Client ClientLoad SameLoad

/-- The result of a call and the value of `errno` after it. A pointer is zero for NULL. -/
structure Reply where
  result : Int
  errno : Int
  deriving DecidableEq

def EINTR : Int := 4

def EAGAIN : Int := 11

inductive Request
  | call (call : Call)
  | gethostbyname (name : Text)
  | sockopt (option : SocketOption)
  deriving DecidableEq

def Request.call? : Request → Option Call
  | .call made => some made
  | _ => none

def again : Request → Reply → Bool
  | .call (.selectWritable _), reply => reply.result ≤ 0 && (reply.errno = EINTR || reply.errno = EAGAIN)
  | _, _ => false

def fatal : Request → Reply → Bool
  | .call (.connect _), reply => reply.result < 0
  | .sockopt .initmsg, reply => reply.result < 0
  | .sockopt .events, reply => reply.result < 0
  | _, _ => false

/-- The answers behind which the clients for TCP and UDP follow a NULL pointer. -/
def unfound : Request → Reply → Bool
  | .gethostbyname _, reply => reply.result = 0
  | _, _ => false

/-- The DCCP client puts its sockets into a set as well. -/
def unsettable : Request → Reply → Bool
  | .call (.socket _), reply => ¬Settable reply.result
  | request, reply => unfound request reply

/-- The array of sockets, with nothing where none has been assigned. -/
abbrev Sockets := Nat → Option Int

abbrev ClientTalk := StateT Sockets (Talk Request Reply)

def assigned (sockets : Sockets) (made : Call) (reply : Reply) : Sockets :=
  match made with
  | .socket channel => Function.update sockets channel (some reply.result)
  | _ => sockets

def hostAddress (reply : Reply) : Option UInt32 := if reply.result = 0 then none else some (.ofNat reply.result.toNat)

/-- The system with answers of any kind. The timer is refused for its own value only. -/
def answering : Kernel ClientTalk where
  call made := fun sockets => do
    let reply ← attempt again fatal (.call made)
    return ((),assigned sockets made reply)
  gethostbyname name := fun sockets => do
    let reply ← attempt again fatal (.gethostbyname name)
    return (hostAddress reply,sockets)
  sockopt option := fun sockets => do
    let _ ← attempt again fatal (.sockopt option)
    return ((),sockets)
  fdSet channel := fun sockets => do
    let sd ← need (sockets channel)
    require (Settable sd)
    return ((),sockets)
  setitimer microseconds rest := fun sockets =>
    if Socket.timerAccepted microseconds then rest sockets else exit

/-- A client before it has opened a socket. -/
def started (talk : ClientTalk Unit) : Talk Request Reply (Unit × Sockets) := talk fun _ => none

def Tcp.main (arguments : List Text) (garbage : Fin bufferSize → Char) : Talk Request Reply (Unit × Sockets) :=
  started (Client.Tcp.program answering arguments garbage)

def Udp.main (arguments : List Text) (garbage : Fin bufferSize → Char) : Talk Request Reply (Unit × Sockets) :=
  started (Client.Udp.program answering arguments garbage)

def Dccp.main (arguments : List Text) (garbage : Fin bufferSize → Char) : Talk Request Reply (Unit × Sockets) :=
  started (Client.Dccp.program answering arguments garbage)

def Sctp.main (arguments : List Text) (garbage : Fin bufferSize → Char) : Talk Request Reply (Unit × Sockets) :=
  started (Client.Sctp.program answering arguments garbage)

/-- The calls that are neither checked nor assigned. -/
def Unchecked : Call → Prop
  | .socket _ => False
  | .connect _ => False
  | _ => True

theorem unchecked_ignored {made : Call} (unchecked : Unchecked made) (reply : Reply) :
    fatal (.call made) reply = false ∧ ∀ sockets, assigned sockets made reply = sockets := by
  cases made with
  | socket => exact unchecked.elim
  | connect => exact unchecked.elim
  | _ => exact ⟨rfl,fun _ => rfl⟩

section calls
variable {spoils : Request → Reply → Bool} {leaves : Bool} {spoiled : Prop} {holds : Prop → Sockets → Prop}

theorem patient (request : Request) (reply : Reply) (retried : again request reply = true) : fatal request reply = false := by
  unfold again at retried
  split at retried
  next => rfl
  next => cases retried

theorem call_follows (made : Call) (harmless : leaves = false → ∀ reply, fatal (.call made) reply = false)
    (sockets : Sockets) (keeps : ∀ broken reply, (spoiled → broken) → (spoils (.call made) reply = true → broken) →
      holds broken (assigned sockets made reply)) :
    Follows again fatal spoils (within leaves [.call made]) (answering.call made sockets) [.call made] spoiled
      fun broken final => holds broken final.2 :=
  follows_map (follows_attempt (fun reply => patient _ reply) harmless) fun broken reply ⟨before,here⟩ =>
    follows_pure (keeps broken reply before here)

theorem sockopt_follows (option : SocketOption)
    (harmless : leaves = false → ∀ reply, fatal (.sockopt option) reply = false) (sockets : Sockets) :
    Follows again fatal spoils (within leaves [.sockopt option]) (answering.sockopt option sockets) [.sockopt option]
      spoiled fun _ _ => True :=
  follows_map (follows_attempt (fun reply => patient _ reply) harmless) fun _ _ _ => follows_pure trivial

variable (mono : ∀ ⦃spoiled broken : Prop⦄ ⦃sockets : Sockets⦄, (spoiled → broken) → holds spoiled sockets → holds broken sockets)
include mono

/-- Behind the look-up the pointer is followed, whatever it is. -/
theorem lookUp_follows (null : ∀ name reply, reply.result = 0 → spoils (.gethostbyname name) reply = true) (name : Text)
    (sockets : Sockets) (held : holds spoiled sockets) :
    Follows again fatal spoils (within leaves [.gethostbyname name]) (Socket.lookUp answering name sockets)
      [.gethostbyname name] spoiled fun broken final => holds broken final.2 := by
  have asked : Follows again fatal spoils (within leaves [.gethostbyname name]) (answering.gethostbyname name sockets)
      [.gethostbyname name] spoiled fun broken final =>
        (final.1 = none → broken) ∧ holds broken final.2 := by
    refine follows_map (follows_attempt (fun reply => patient _ reply) fun _ _ => rfl) fun broken reply ⟨before,here⟩ => ?_
    refine follows_pure ⟨fun nothing => ?_,mono before held⟩
    by_cases zero : reply.result = 0
    · exact here (null name reply zero)
    · simp [hostAddress,zero] at nothing
  refine follows_map asked ?_
  rintro broken ⟨host,sockets⟩ ⟨missing,held⟩
  cases host with
  | none => exact follows_stop (missing rfl)
  | some host => exact follows_pure held

theorem mirrors_call {made : Call} (unchecked : Unchecked made) :
    Mirrors again fatal spoils Request.call holds (emit [made]) (answering.call made) := by
  refine mirrors_emit fun broken sockets held => ?_
  have once : Follows again fatal spoils (within false [.call made]) (answering.call made sockets) [.call made] broken
      fun broken final => holds broken final.2 :=
    call_follows made (fun _ reply => (unchecked_ignored unchecked reply).1) sockets fun later reply before _ => by
      rw [(unchecked_ignored unchecked reply).2]
      exact mono before held
  exact once

theorem mirrors_performs (calls : List Call) (unchecked : ∀ call ∈ calls, Unchecked call) :
    Mirrors again fatal spoils Request.call holds (emit calls) (performs answering.call calls) :=
  mirrors_forM calls fun call member => mirrors_call mono (unchecked call member)

end calls

section loops
variable {spoils : Request → Reply → Bool} {holds : Prop → Sockets → Prop} {static : Nat → Text → List Call}
  {send : Nat → Text → ClientTalk Unit} {channels : Nat}

theorem fillAndSend_inside (positive : 0 < channels) (fuel : Nat) (content : SenderContent) (buffer : Text) (channel : Nat)
    (inside : channel < channels) (final : Text × Nat)
    (done : (fillAndSend (emits static) channels fuel content buffer channel).result = some final) : final.2 < channels := by
  induction fuel generalizing content buffer channel with
  | zero => cases done
  | succ fuel ih =>
    rw [fillAndSend] at done
    obtain ⟨⟨more,content,buffer⟩,_,done⟩ := bind_result done
    cases more with
    | false =>
      obtain rfl := Option.some.inj done
      exact inside
    | true =>
      obtain ⟨_,_,done⟩ := bind_result done
      obtain ⟨_,_,done⟩ := bind_result done
      exact ih content buffer _ (Nat.mod_lt _ positive) done

variable (sends : ∀ channel < channels, ∀ payload,
  Mirrors again fatal spoils Request.call holds (emits static channel payload) (send channel payload))
  (positive : 0 < channels)
include sends positive

theorem fillAndSend_mirrors (fuel : Nat) (content : SenderContent) (buffer : Text) (channel : Nat)
    (inside : channel < channels) : Mirrors again fatal spoils Request.call holds
      (fillAndSend (emits static) channels fuel content buffer channel)
      (fillAndSend send channels fuel content buffer channel) := by
  induction fuel generalizing content buffer channel with
  | zero =>
    intro value nothing
    cases nothing
  | succ fuel ih =>
    rw [fillAndSend,fillAndSend]
    refine mirrors_bind (mirrors_need _) fun filled _ => ?_
    obtain ⟨more,content,buffer⟩ := filled
    cases more with
    | false => exact mirrors_pure _
    | true =>
      refine mirrors_bind (sends channel inside _) fun _ _ => ?_
      exact mirrors_bind (mirrors_require _) fun _ _ => ih content buffer _ (Nat.mod_lt _ positive)

theorem cycles_mirrors (length : Int) (numCycles : Nat) {quiet : List Call} {pause : ClientTalk Unit}
    (pauses : Mirrors again fatal spoils Request.call holds (emit quiet) pause) (garbage : Fin bufferSize → Char) :
    Mirrors again fatal spoils Request.call holds
      (cycles (emits static) channels length numCycles (emit quiet) garbage)
      (cycles send channels length numCycles pause garbage) := by
  refine mirrors_repeatFrom (fun state => state.2 < channels) (fun i state next inside done => ?_)
    (fun i state inside => ?_) 0 numCycles _ positive
  · obtain ⟨final,filled,done⟩ := bind_result done
    obtain ⟨_,_,done⟩ := bind_result done
    obtain rfl := Option.some.inj done
    exact fillAndSend_inside positive _ _ _ _ inside final filled
  · refine mirrors_bind (fillAndSend_mirrors sends positive _ _ _ _ inside) fun next _ => ?_
    exact mirrors_bind pauses fun _ _ => mirrors_pure next

end loops

theorem pause_unchecked (timeBetweenCycles : Int32) : ∀ call ∈ Client.Socket.pause timeBetweenCycles, Unchecked call := by
  intro call member
  unfold Client.Socket.pause at member
  split at member
  · obtain rfl := List.mem_singleton.mp member
    exact trivial
  · cases member

/-- The calls that went through, as the other model has them. -/
def made (events : List (Request × Reply)) : List Call := (settled again events).filterMap Request.call?

/-- What a client does whatever the system answers: it makes its calls to the end, or waits behind
some of them, or has sent nothing when it exits at the first answer that is fatal. It does nothing
undefined unless an answer spoils it. -/
structure Robust (spoils : Request → Reply → Bool) (talk : Talk Request Reply (Unit × Sockets)) (calls : List Call) : Prop where
  answers : ∀ replies, (talk replies).events.map Prod.snd <+: replies
  defined : ∀ replies, (talk replies).outcome = .undefined → Spoiled spoils (talk replies).events
  finished : ∀ replies value rest, (talk replies).outcome = .returned value rest →
    made (talk replies).events = calls ∧ Calm fatal (talk replies).events
  refused : ∀ replies, (talk replies).outcome = .exited → messages (made (talk replies).events) = [] ∧
    ∃ before last, (talk replies).events = before ++ [last] ∧ Calm fatal before ∧ fatal last.1 last.2 = true
  unanswered : ∀ replies request, (talk replies).outcome = .waiting request →
    made (talk replies).events <+: calls ∧ Calm fatal (talk replies).events
  answered : ∀ replies, 2 * calls.length + 3 ≤ (replies.filter fun reply => 0 < reply.result).length →
    ∀ request, (talk replies).outcome ≠ .waiting request

theorem again_stops (request : Request) (reply : Reply) (positive : decide (0 < reply.result) = true) :
    again request reply = false := by
  have success : 0 < reply.result := of_decide_eq_true positive
  unfold again
  split
  next =>
    have negative : ¬reply.result ≤ 0 := by omega
    simp [negative]
  next => rfl

theorem robust_follows {spoils : Request → Reply → Bool} {talk : Talk Request Reply (Unit × Sockets)}
    {opening requests : List Request} {calls : List Call} {post : Prop → Unit × Sockets → Prop}
    (silent : messages (opening.filterMap Request.call?) = []) (shown : requests.filterMap Request.call? = calls)
    (size : requests.length ≤ 2 * calls.length + 3)
    (follows : Follows again fatal spoils (some opening) talk requests False post) : Robust spoils talk calls where
  answers := by
    intro replies
    have kept := follows replies
    generalize talk replies = run at kept
    cases kept with
    | returned events rest value broken all calm used cause holds => exact ⟨rest,used.symm⟩
    | exited before last rest inside limited part calm bad used => exact ⟨rest,used.symm⟩
    | waiting events request part calm used => rw [used]
    | undefined events rest part calm used cause => exact ⟨rest,used.symm⟩
  defined := by
    intro replies nothing
    have kept := follows replies
    generalize talk replies = run at kept nothing
    cases kept with
    | undefined events rest part calm used cause => exact cause.resolve_left id
    | _ => cases nothing
  finished := by
    intro replies value rest done
    have kept := follows replies
    generalize talk replies = run at kept done
    cases kept with
    | returned events left value broken all calm used cause holds => exact ⟨by rw [made,all,shown],calm⟩
    | _ => cases done
  refused := by
    intro replies left
    have kept := follows replies
    generalize talk replies = run at kept left
    cases kept with
    | exited before last rest inside limited part calm bad used =>
      obtain rfl := Option.some.inj limited
      refine ⟨?_,before,last,rfl,calm,bad⟩
      have shorter := (part.filterMap Request.call?).filterMap Call.message?
      rw [show (opening.filterMap Request.call?).filterMap Call.message? = [] from silent] at shorter
      exact List.prefix_nil.mp shorter
    | _ => cases left
  unanswered := by
    intro replies request waits
    have kept := follows replies
    generalize talk replies = run at kept waits
    cases kept with
    | waiting events asked part calm used =>
      refine ⟨?_,calm⟩
      rw [← shown]
      exact ((List.prefix_append _ _).trans part).filterMap Request.call?
    | _ => cases waits
  answered replies many := follows_answered follows _ again_stops replies (size.trans many)

theorem requests_calls (calls : List Call) : (calls.map Request.call).filterMap Request.call? = calls := by
  rw [List.filterMap_map]
  exact List.filterMap_some

/-- The requests that open a socket, and the calls among them. -/
structure Opening (openCalls : Nat → List Call) (requests : Nat → List Request) : Prop where
  shown : ∀ channel, (requests channel).filterMap Request.call? = openCalls channel
  size : ∀ channel, (requests channel).length ≤ 2 * (openCalls channel).length
  quiet : ∀ channel, messages (openCalls channel) = []

theorem opening_all {openCalls : Nat → List Call} {requests : Nat → List Request} (opening : Opening openCalls requests)
    (start count : Nat) :
    ((List.range' start count).flatMap requests).filterMap Request.call? = (List.range' start count).flatMap openCalls ∧
      ((List.range' start count).flatMap requests).length ≤ 2 * ((List.range' start count).flatMap openCalls).length ∧
      messages ((List.range' start count).flatMap openCalls) = [] := by
  induction count generalizing start with
  | zero => exact ⟨rfl,le_refl _,rfl⟩
  | succ count ih =>
    obtain ⟨shown,size,quiet⟩ := ih (start+1)
    rw [List.range'_succ,List.flatMap_cons,List.flatMap_cons,List.filterMap_append,List.length_append,List.length_append,
      messages_append]
    have here := opening.size start
    exact ⟨by rw [opening.shown,shown],by omega,by rw [opening.quiet,quiet]; rfl⟩

section transfer
variable {spoils : Request → Reply → Bool} {leaves : Bool} {holds : Nat → Prop → Sockets → Prop}
  {openCalls : Nat → List Call} {requests : Nat → List Request} {openSocket : Nat → ClientTalk Unit}
  {static : Nat → Text → List Call} {send : Nat → Text → ClientTalk Unit}

/-- What it takes for the client to mirror its calls: `holds i` is known of the array when `i` sockets are open. -/
structure Behaves (spoils : Request → Reply → Bool) (leaves : Bool) (holds : Nat → Prop → Sockets → Prop)
    (openCalls : Nat → List Call) (requests : Nat → List Request) (openSocket : Nat → ClientTalk Unit)
    (static : Nat → Text → List Call) (send : Nat → Text → ClientTalk Unit) : Prop where
  mono : ∀ (i : Nat) ⦃spoiled broken : Prop⦄ ⦃sockets : Sockets⦄, (spoiled → broken) → holds i spoiled sockets →
    holds i broken sockets
  opening : Opening openCalls requests
  begins : holds 0 False fun _ => none
  opens : ∀ channel spoiled sockets, holds channel spoiled sockets →
    Follows again fatal spoils (within leaves (requests channel)) (openSocket channel sockets) (requests channel) spoiled
      fun broken final => holds (channel+1) broken final.2
  sends : ∀ channels, ∀ channel < channels, ∀ payload,
    Mirrors again fatal spoils Request.call (holds channels) (emits static channel payload) (send channel payload)

variable (behaves : Behaves spoils leaves holds openCalls requests openSocket static send)
  (options : Client.Socket.Options) {numSockets : Int32} (counted : options.numSockets = some numSockets)
  (some_socket : 1 ≤ numSockets) (garbage : Fin bufferSize → Char)
include behaves counted some_socket

theorem transfer_follows : ∃ sent : List Call,
    (transferred openCalls static options garbage).trace = forChannels numSockets.toInt.toNat openCalls ++ sent ∧
      Follows again fatal spoils (within leaves ((List.range' 0 numSockets.toInt.toNat).flatMap requests))
        (started (Client.Socket.transfer answering.call openSocket send options garbage))
        ((List.range' 0 numSockets.toInt.toNat).flatMap requests ++ sent.map Request.call) False fun _ _ => True := by
  have positive : 0 < numSockets := Int32.lt_of_lt_of_le (by decide) some_socket
  have channels : 0 < numSockets.toInt.toNat := by
    have bound := Int32.lt_iff_toInt_lt.mp positive
    have none_set : (0 : Int32).toInt = 0 := rfl
    omega
  have sent : Mirrors again fatal spoils Request.call (holds numSockets.toInt.toNat)
      (Client.Socket.sendLoop called (emits static) options numSockets garbage)
      (Client.Socket.sendLoop answering.call send options numSockets garbage) := by
    have paused := @mirrors_performs spoils (holds numSockets.toInt.toNat) (behaves.mono _) (Client.Socket.pause options.timeBetweenCycles)
      (pause_unchecked _)
    have closed := @mirrors_performs spoils (holds numSockets.toInt.toNat) (behaves.mono _)
      (forChannels numSockets.toInt.toNat fun channel => [.close channel]) (by
        intro call member
        obtain ⟨channel,_,inside⟩ := List.mem_flatMap.mp member
        obtain rfl := List.mem_singleton.mp inside
        exact trivial)
    rw [Client.Socket.sendLoop,Client.Socket.sendLoop,performs_called,performs_called]
    exact mirrors_bind (cycles_mirrors (behaves.sends _) channels _ _ paused garbage) fun _ _ => closed
  obtain ⟨final,ran⟩ := cycles_calls static _ channels options.bytesToTransfer.toInt32.toInt
    options.numCycles.toInt.toNat (Client.Socket.pause options.timeBetweenCycles) garbage
  have done : (Client.Socket.sendLoop called (emits static) options numSockets garbage).result = some () := by
    rw [Client.Socket.sendLoop,performs_called,performs_called,bind_some _ _ final (by rw [ran])]
    rfl
  refine ⟨_,by rw [transferred_eq garbage counted positive]; rfl,?_⟩
  have talk : started (Client.Socket.transfer answering.call openSocket send options garbage) =
      (repeatFrom (fun channel _ => openSocket channel) 0 numSockets.toInt.toNat () (fun _ => none)) >>= fun opened =>
        Client.Socket.sendLoop answering.call send options numSockets garbage opened.2 := by
    rw [started,Client.Socket.transfer,counted,need_some]
    change ((require (0 < numSockets) : ClientTalk Unit) >>= fun _ => _) (fun _ => none) = _
    rw [require_true _ positive]
    rfl
  rw [talk]
  refine follows_steady (follows_loop leaves holds behaves.opens 0 numSockets.toInt.toNat _ behaves.begins) ?_
  rintro broken ⟨_,sockets⟩ held
  rw [Nat.zero_add] at held
  exact (sent () done broken sockets held).mono fun _ _ _ => trivial

theorem transfer_robust : Robust spoils (started (Client.Socket.transfer answering.call openSocket send options garbage))
    (transferred openCalls static options garbage).trace := by
  obtain ⟨sent,trace,follows⟩ := transfer_follows behaves options counted some_socket garbage
  obtain ⟨shown,size,quiet⟩ := opening_all behaves.opening 0 numSockets.toInt.toNat
  have opened : forChannels numSockets.toInt.toNat openCalls = (List.range' 0 numSockets.toInt.toNat).flatMap openCalls := by
    rw [forChannels,List.range_eq_range']
  refine robust_follows ?_ ?_ ?_ (follows_within follows)
  · rw [shown]
    exact quiet
  · rw [List.filterMap_append,shown,requests_calls,trace,opened]
  · rw [trace,opened,List.length_append,List.length_append,List.length_map]
    omega

end transfer

/-- The timer is set before anything else. -/
theorem paced_started {headers : Int} {openSocket : Nat → ClientTalk Unit} {send : Nat → Text → ClientTalk Unit}
    {options : Client.Socket.PacedOptions} (timer : TimerRuns headers options.sendRateKbytesSec)
    (garbage : Fin bufferSize → Char) :
    started (Client.Socket.pacedTransfer answering headers openSocket send options garbage) =
      started (Client.Socket.transfer answering.call openSocket send options.toOptions garbage) := by
  obtain ⟨waitTime,set,accepted,_⟩ := timer
  rw [started,Client.Socket.pacedTransfer,set,need_some]
  exact if_pos accepted

section programs

def lookedUp (name : Text) (channel : Nat) : List Request := [.call (.socket channel),.gethostbyname name]

def lookedUpConnected (name : Text) (channel : Nat) : List Request :=
  [.call (.socket channel),.gethostbyname name,.call (.connect channel)]

theorem unconnected_opening (name : Text) : Opening unconnected (lookedUp name) :=
  ⟨fun _ => rfl,fun _ => le_refl _,fun _ => rfl⟩

theorem connected_opening (name : Text) : Opening connected (lookedUpConnected name) :=
  ⟨fun _ => rfl,fun _ => by simp [lookedUpConnected,connected],fun _ => rfl⟩

section opens
variable {spoils : Request → Reply → Bool} {leaves : Bool} {holds : Nat → Prop → Sockets → Prop}
  (mono : ∀ (i : Nat) ⦃spoiled broken : Prop⦄ ⦃sockets : Sockets⦄, (spoiled → broken) → holds i spoiled sockets →
    holds i broken sockets)
  (null : ∀ name reply, reply.result = 0 → spoils (.gethostbyname name) reply = true)
  (assigns : ∀ {channel spoiled broken sockets reply}, holds channel spoiled sockets → (spoiled → broken) →
    (spoils (.call (.socket channel)) reply = true → broken) →
    holds (channel+1) broken (assigned sockets (.socket channel) reply))
include mono null assigns

theorem unconnected_opens (name : Text) (channel : Nat) (spoiled : Prop) (sockets : Sockets)
    (held : holds channel spoiled sockets) :
    Follows again fatal spoils (within leaves (lookedUp name channel))
      (Client.Socket.openUnconnected answering name channel sockets) (lookedUp name channel) spoiled
      fun broken final => holds (channel+1) broken final.2 := by
  have opened : Follows again fatal spoils (within leaves [.call (.socket channel)])
      (answering.call (.socket channel) sockets) [.call (.socket channel)] spoiled
      fun broken final => holds (channel+1) broken final.2 :=
    call_follows _ (fun _ _ => rfl) sockets fun broken reply before here => assigns held before here
  have found (broken : Prop) (final : Unit × Sockets) (held : holds (channel+1) broken final.2) :=
    @lookUp_follows spoils leaves broken (holds (channel+1)) (mono (channel+1)) null name final.2 held
  cases leaves with
  | true => exact follows_both opened found
  | false => exact follows_steady opened found

theorem connected_opens (name : Text) (channel : Nat) (spoiled : Prop) (sockets : Sockets)
    (held : holds channel spoiled sockets) :
    Follows again fatal spoils (within true (lookedUpConnected name channel))
      (Client.Socket.openConnected answering name channel sockets) (lookedUpConnected name channel) spoiled
      fun broken final => holds (channel+1) broken final.2 := by
  refine @follows_both _ _ _ _ again fatal spoils (lookedUp name channel) _ _ _ _ _ _ _
    (@unconnected_opens spoils true holds mono null assigns name channel spoiled sockets held) ?_
  rintro broken ⟨_,sockets⟩ held
  exact @call_follows spoils true broken (holds (channel+1)) (.connect channel) (by simp) sockets
    fun later reply before _ => mono (channel+1) before held

end opens

theorem tcp_behaves (name : Text) : Behaves unfound true (fun _ _ _ => True) connected (lookedUpConnected name)
    (Client.Socket.openConnected answering name) Client.Tcp.send
    (fun channel payload => performs answering.call (Client.Tcp.send channel payload)) where
  mono := by simp
  opening := connected_opening name
  begins := trivial
  opens := connected_opens (by simp) (fun _ _ zero => decide_eq_true zero) (by simp) name
  sends _ channel _ payload := mirrors_performs (by simp) _ (by simp [Client.Tcp.send,Unchecked])

theorem udp_behaves (name : Text) : Behaves unfound false (fun _ _ _ => True) unconnected (lookedUp name)
    (Client.Socket.openUnconnected answering name) Client.Udp.send
    (fun channel payload => performs answering.call (Client.Udp.send channel payload)) where
  mono := by simp
  opening := unconnected_opening name
  begins := trivial
  opens := unconnected_opens (by simp) (fun _ _ zero => decide_eq_true zero) (by simp) name
  sends _ channel _ payload := mirrors_performs (by simp) _ (by simp [Client.Udp.send,Unchecked])

/-- The sockets that are open have descriptors that fit into a set, unless an answer was of another kind. -/
def Ready (count : Nat) (spoiled : Prop) (sockets : Sockets) : Prop :=
  spoiled ∨ ∀ channel < count, ∃ sd, sockets channel = some sd ∧ Settable sd

theorem ready_assigns {channel : Nat} {spoiled broken : Prop} {sockets : Sockets} {reply : Reply}
    (ready : Ready channel spoiled sockets) (before : spoiled → broken)
    (here : unsettable (.call (.socket channel)) reply = true → broken) :
    Ready (channel+1) broken (assigned sockets (.socket channel) reply) := by
  rcases ready with already | each
  · exact Or.inl (before already)
  · by_cases settable : Settable reply.result
    · refine Or.inr fun other inside => ?_
      by_cases same : other = channel
      · exact ⟨reply.result,by rw [same,assigned,Function.update_self],settable⟩
      · obtain ⟨sd,opened,fits⟩ := each other (by omega)
        exact ⟨sd,by rw [assigned,Function.update_of_ne same,opened],fits⟩
    · exact Or.inl (here (decide_eq_true settable))

theorem fdSet_mirrors {count channel : Nat} (inside : channel < count) :
    Mirrors again fatal unsettable Request.call (Ready count) (pure ()) (answering.fdSet channel) := by
  intro value done broken sockets ready
  obtain rfl := Option.some.inj done
  have fine {sd : Int} (opened : sockets channel = some sd) (settable : Settable sd) :
      answering.fdSet channel sockets = (pure ((),sockets) : Talk Request Reply (Unit × Sockets)) := by
    simp only [answering,opened,need_some,Library.Dialogue.pure_bind,require_true _ settable]
  by_cases ends : ∃ sd, sockets channel = some sd ∧ Settable sd
  · obtain ⟨sd,opened,settable⟩ := ends
    rw [fine opened settable]
    exact @follows_pure _ _ _ again fatal unsettable none broken _ ((),sockets) ⟨rfl,ready⟩
  · have already : broken := ready.resolve_right fun each => ends (each channel inside)
    have stops : answering.fdSet channel sockets = (Stopping.stop : Talk Request Reply (Unit × Sockets)) := by
      cases opened : sockets channel with
      | none =>
        simp only [answering,opened]
        rfl
      | some sd =>
        simp only [answering,opened,need_some,Library.Dialogue.pure_bind,require_false _ fun settable => ends ⟨sd,opened,settable⟩]
        rfl
    rw [stops]
    exact follows_stop already

theorem ready_mono (count : Nat) ⦃spoiled broken : Prop⦄ ⦃sockets : Sockets⦄ (later : spoiled → broken)
    (ready : Ready count spoiled sockets) : Ready count broken sockets := ready.imp later id

theorem dccp_behaves (name : Text) : Behaves unsettable true Ready connected (lookedUpConnected name)
    (Client.Socket.openConnected answering name) Client.Dccp.send
    (fun channel payload => do
      answering.fdSet channel
      performs answering.call (Client.Dccp.send channel payload)) where
  mono := ready_mono
  opening := connected_opening name
  begins := Or.inr fun channel inside => absurd inside (Nat.not_lt_zero channel)
  opens := @connected_opens unsettable Ready ready_mono (fun _ _ zero => decide_eq_true zero) ready_assigns name
  sends count channel inside payload := by
    have written : Mirrors again fatal unsettable Request.call (Ready count) (emit (Client.Dccp.send channel payload))
        (performs answering.call (Client.Dccp.send channel payload)) :=
      mirrors_performs (ready_mono count) (Client.Dccp.send channel payload) (by simp [Client.Dccp.send,Unchecked])
    have both := mirrors_bind (fdSet_mirrors inside) fun _ _ => written
    rwa [Library.CallTrace.pure_bind] at both

end programs

section sctp
variable {spoils : Request → Reply → Bool} {options : Client.Sctp.Options}

theorem sctp_mirrors (some_stream : 1 ≤ options.numStreams) (garbage : Fin bufferSize → Char) :
    Mirrors again fatal spoils Request.call (fun _ _ => True) (Client.Sctp.transfer called options garbage)
      (Client.Sctp.transfer answering.call options garbage) := by
  have streams : 0 < options.numStreams.toNat := UInt32.le_iff_toNat_le.mp some_stream
  have performed (calls : List Call) (unchecked : ∀ call ∈ calls, Unchecked call) :
      Mirrors again fatal spoils Request.call (fun _ _ => True) (emit calls) (performs answering.call calls) :=
    mirrors_performs (by simp) calls unchecked
  have sends (streamI : Nat) (_ : streamI < options.numStreams.toNat) (payload : Text) :
      Mirrors again fatal spoils Request.call (fun _ _ => True)
        (emits (Client.Sctp.send options.flags options.ttl) streamI payload)
        (performs answering.call (Client.Sctp.send options.flags options.ttl streamI payload)) :=
    performed _ (by simp [Client.Sctp.send,Unchecked])
  have paused : ∀ call ∈ Client.Sctp.pause options.timeBetweenCycles, Unchecked call := by
    intro call member
    unfold Client.Sctp.pause at member
    split at member
    · obtain rfl := List.mem_singleton.mp member
      exact trivial
    · cases member
  have closed : Mirrors again fatal spoils Request.call (fun _ _ => True) (called (.close 0)) (answering.call (.close 0)) :=
    mirrors_call (by simp) trivial
  rw [Client.Sctp.transfer,Client.Sctp.transfer,emits_eq,performs_called]
  exact mirrors_bind (cycles_mirrors sends streams _ _ (performed _ paused) garbage) fun _ _ => closed

theorem sctp_ends (some_stream : 1 ≤ options.numStreams) (garbage : Fin bufferSize → Char) :
    (Client.Sctp.transfer called options garbage).result = some () := by
  obtain ⟨final,ran⟩ := cycles_calls (Client.Sctp.send options.flags options.ttl) _ (UInt32.le_iff_toNat_le.mp some_stream)
    options.bytesToTransfer.toInt32.toInt options.numCycles.toNat (Client.Sctp.pause options.timeBetweenCycles) garbage
  rw [Client.Sctp.transfer,emits_eq,performs_called,bind_some _ _ final (by rw [ran])]
  rfl

/-- The three checks stand around the connecting, before anything is sent. -/
theorem sctp_robust (arguments : List Text) (some_stream : 1 ≤ (Client.Sctp.parse arguments).numStreams)
    (garbage : Fin bufferSize → Char) :
    Robust (fun _ _ => false) (Sctp.main arguments garbage) (Client.Sctp.main arguments garbage).trace := by
  have sent := @sctp_mirrors (fun _ _ => false) _ some_stream garbage () (sctp_ends some_stream garbage)
  have trace : (Client.Sctp.main arguments garbage).trace = [.socket 0,.connect 0] ++
      (Client.Sctp.transfer called (Client.Sctp.parse arguments) garbage).trace := rfl
  generalize (Client.Sctp.transfer called (Client.Sctp.parse arguments) garbage).trace = body at sent trace
  have opened (sockets : Sockets) (broken : Prop) := @call_follows (fun _ _ => false) true broken (fun _ _ => True)
    (.socket 0) (by simp) sockets (by simp)
  have connected (sockets : Sockets) (broken : Prop) := @call_follows (fun _ _ => false) true broken (fun _ _ => True)
    (.connect 0) (by simp) sockets (by simp)
  have initmsg (sockets : Sockets) (broken : Prop) := @sockopt_follows (fun _ _ => false) true broken .initmsg (by simp) sockets
  have events (sockets : Sockets) (broken : Prop) := @sockopt_follows (fun _ _ => false) true broken .events (by simp) sockets
  have status (sockets : Sockets) (broken : Prop) :=
    @sockopt_follows (fun _ _ => false) false broken .status (fun _ _ => rfl) sockets
  have follows : Follows again fatal (fun _ _ => false)
      (some ([.call (.socket 0)] ++ ([.sockopt .initmsg] ++ ([.call (.connect 0)] ++ [.sockopt .events]))))
      (Sctp.main arguments garbage)
      ([.call (.socket 0)] ++ ([.sockopt .initmsg] ++ ([.call (.connect 0)] ++ ([.sockopt .events] ++
        ([.sockopt .status] ++ body.map Request.call))))) False fun _ _ => True := by
    refine follows_both (opened _ _) fun _ final _ => ?_
    refine follows_both (initmsg final.2 _) fun _ final _ => ?_
    refine follows_both (connected final.2 _) fun _ final _ => ?_
    refine follows_steady (events final.2 _) fun _ final _ => ?_
    refine follows_steady (status final.2 _) fun broken final _ => ?_
    exact (sent broken final.2 trivial).mono fun _ _ _ => trivial
  refine robust_follows rfl ?_ ?_ follows
  · rw [trace]
    exact congrArg (fun calls => Call.socket 0 :: .connect 0 :: calls) (requests_calls body)
  · rw [trace]
    simp

end sctp

def tenBytes : List Text :=
  ["-a".toList,server,"-s".toList,"1".toList,"-d".toList,"10".toList,"-p".toList,"250".toList,"-r".toList,"250".toList]

/-- A system that finds the name and refuses the connection. -/
def refusal : List Reply := [⟨3,0⟩,⟨1,0⟩,⟨-1,111⟩]

theorem tenBytes_refused (garbage : Fin bufferSize → Char) : Tcp.main tenBytes garbage refusal =
    ⟨[(.call (.socket 0),⟨3,0⟩),(.gethostbyname server,⟨1,0⟩),(.call (.connect 0),⟨-1,111⟩)],.exited⟩ := by
  have counted : (Client.Tcp.parse tenBytes).numSockets = some 1 := by decide
  have name : (Client.Tcp.parse tenBytes).receiverIp = server := by decide
  rw [Tcp.main,started,Client.Tcp.program,Client.Socket.transfer,counted,need_some,name]
  rfl

end ProtocolTests.ClientFailures
