import ProtocolTests.Datagrams
import ProtocolTests.Library.Permits
import Mathlib.Algebra.Order.BigOperators.Group.List

/-! The rate of the UDP and DCCP clients on the wire, by the times at which their calls return. -/
namespace ProtocolTests.Pacing
open Library.CString Library.CallTrace Library.Permits Library.RoundRobin Client ClientLoad SameLoad

def isSigwait (call : Call) : Bool := call = .sigwait

def isMessage (call : Call) : Bool := call.message?.isSome

/-- The bytes of the packets that were sent by a time, with their headers. -/
def wireBytes (headers : Nat) (log : List (Call × Nat)) (time : Nat) : Nat :=
  ((messages ((log.filter fun event => event.2 ≤ time).map Prod.fst)).map fun message => message.2.length + headers).sum

theorem silent_permitted {calls : List Call} (silent : messages calls = []) : Permitted isSigwait isMessage calls :=
  permitted_unused fun call member => by
    have nothing := List.filterMap_eq_nil_iff.mp silent call member
    simp [isMessage,nothing]

/-- Every message has a wait of its own in front of it, and is at most one buffer without its NUL. -/
structure Spaced (calls : List Call) : Prop where
  permitted : Permitted isSigwait isMessage calls
  sizes : ∀ message ∈ messages calls, message.2.length ≤ 1024

theorem silent_spaced {calls : List Call} (silent : messages calls = []) : Spaced calls :=
  ⟨silent_permitted silent,by simp [silent]⟩

section transfer
variable {openCalls : Nat → List Call} (quiet : ∀ channel, messages (openCalls channel) = [])
  {send : Nat → Text → List Call} (waits : ∀ channel payload, Permitted isSigwait isMessage (send channel payload))
  (sends : ∀ channel payload, messages (send channel payload) = [(channel,payload)]) {options : Socket.Options}
  {numSockets : Int32} (assigned : options.numSockets = some numSockets) (some_socket : 1 ≤ numSockets)
include quiet assigned some_socket

include waits in
theorem transfer_permitted (garbage : Fin bufferSize → Char) :
    Permitted isSigwait isMessage (transferred openCalls send options garbage).trace := by
  rw [transfer_calls openCalls send assigned some_socket garbage]
  refine permitted_append (permitted_append ?_ (permitted_flatMap _ _ fun c => ?_)) (silent_permitted (close_silent _))
  · exact permitted_flatMap _ _ fun channel => silent_permitted (quiet channel)
  · exact permitted_append (permitted_flatMap _ _ fun x => waits _ _) (silent_permitted (pause_silent _))

include sends in
theorem transfer_sizes (garbage : Fin bufferSize → Char) :
    ∀ message ∈ messages (transferred openCalls send options garbage).trace, message.2.length ≤ 1024 := by
  rw [transfer_messages openCalls quiet send sends options numSockets assigned some_socket garbage]
  intro message member
  obtain ⟨k,_,rfl⟩ := List.mem_map.mp member
  rw [ClientLoad.message,chunk_length,chunkSize,width,Nat.mul_succ]
  omega

include waits sends in
theorem transfer_spaced (garbage : Fin bufferSize → Char) : Spaced (transferred openCalls send options garbage).trace :=
  ⟨transfer_permitted quiet waits assigned some_socket garbage,transfer_sizes quiet sends assigned some_socket garbage⟩

end transfer

theorem wireBytes_le {headers : Nat} {log : List (Call × Nat)} {calls : List Call} (part : log.map Prod.fst <+: calls)
    (spaced : Spaced calls) {period : Nat} (timed : Timed isSigwait period log) (time : Nat) :
    wireBytes headers log time * period ≤ (1024 + headers) * time := by
  have used := uses_due spaced.permitted part timed time
  have early := ((filter_early timed.forward time).map Prod.fst).trans part
  have each : ∀ size ∈ (messages ((log.filter fun event => event.2 ≤ time).map Prod.fst)).map
      (fun message => message.2.length + headers), size ≤ 1024 + headers := by
    intro size member
    obtain ⟨message,sent,rfl⟩ := List.mem_map.mp member
    have small := spaced.sizes message ((early.filterMap Call.message?).subset sent)
    omega
  have total := List.sum_le_card_nsmul _ _ each
  rw [List.length_map,messages,List.length_filterMap_eq_countP,List.countP_map,nsmul_eq_mul,Nat.cast_id] at total
  calc wireBytes headers log time * period
      ≤ (log.filter fun event => event.2 ≤ time).countP (isMessage ∘ Prod.fst) * (1024 + headers) * period :=
        Nat.mul_le_mul_right period total
    _ = (1024 + headers) * ((log.filter fun event => event.2 ≤ time).countP (isMessage ∘ Prod.fst) * period) := by ring
    _ ≤ (1024 + headers) * time := Nat.mul_le_mul_left _ used

theorem waitTime_bounds {headers : Nat} {rate : Int32} {wait : Int} (set : Socket.waitTimeUs headers rate = some wait)
    (running : 1 ≤ wait) : 0 < rate.toInt ∧ ((1025 : Int) + headers) * 15625 < (wait + 1) * (16 * rate.toInt) := by
  have buffer : (bufferSize : Int) = 1025 := rfl
  unfold Socket.waitTimeUs at set
  split at set
  next => cases set
  next nonzero =>
    have quotient := Option.some.inj set
    rw [buffer] at quotient
    have cost : (0 : Int) ≤ (1025 + headers) * 15625 := by positivity
    have positive : 0 < rate.toInt := by
      by_contra negative
      have sign : Int.tdiv ((1025 + headers) * 15625) (rate.toInt * 16) ≤ 0 :=
        Int.tdiv_nonpos_of_nonneg_of_nonpos cost (by omega)
      omega
    refine ⟨positive,?_⟩
    rw [Int.tdiv_eq_ediv_of_nonneg cost] at quotient
    have above := Int.lt_ediv_add_one_mul_self ((1025 + (headers : Int)) * 15625) (show 0 < rate.toInt * 16 by omega)
    rw [quotient,Int.mul_comm rate.toInt] at above
    exact above

/-- What the rate of a client is held to, in microseconds and kilobytes of 1024 bytes. -/
structure Within (headers : Nat) (rate wait : Int) (log : List (Call × Nat)) (time : Nat) : Prop where
  spaced : wireBytes headers log time * wait ≤ (1024 + headers) * time
  never_above : rate ≤ 976 → wireBytes headers log time * 15625 ≤ 16 * rate * time
  hardly_above : wireBytes headers log time * 15625 * wait ≤ 16 * rate * (wait + 1) * time

theorem within_rate {headers : Nat} {rate : Int32} {wait : Int} (set : Socket.waitTimeUs headers rate = some wait)
    (running : 1 ≤ wait) {log : List (Call × Nat)} {time : Nat}
    (spaced : wireBytes headers log time * wait.toNat ≤ (1024 + headers) * time) :
    Within headers rate.toInt wait log time := by
  obtain ⟨positive,above⟩ := waitTime_bounds set running
  have period : (wait.toNat : Int) = wait := Int.toNat_of_nonneg (by omega)
  have spaced_int : (wireBytes headers log time : Int) * wait ≤ (1024 + headers) * time := by
    rw [← period]
    exact_mod_cast spaced
  have scaled : (wireBytes headers log time : Int) * 15625 * wait ≤ ((1024 + headers) * 15625) * time := by
    calc (wireBytes headers log time : Int) * 15625 * wait
        = wireBytes headers log time * wait * 15625 := by ring
      _ ≤ ((1024 + headers) * time) * 15625 := by omega
      _ = ((1024 + headers) * 15625) * time := by ring
  have clock : (0 : Int) ≤ time := Int.natCast_nonneg time
  refine ⟨spaced_int,fun slow => ?_,?_⟩
  · have missing : ((1024 : Int) + headers) * 15625 ≤ 16 * rate.toInt * wait := by linarith
    have whole : (wireBytes headers log time : Int) * 15625 * wait ≤ 16 * rate.toInt * time * wait := by
      calc (wireBytes headers log time : Int) * 15625 * wait ≤ ((1024 + headers) * 15625) * time := scaled
        _ ≤ (16 * rate.toInt * wait) * time := Int.mul_le_mul_of_nonneg_right missing clock
        _ = 16 * rate.toInt * time * wait := by ring
    exact Int.le_of_mul_le_mul_right whole (by omega)
  · calc (wireBytes headers log time : Int) * 15625 * wait ≤ ((1024 + headers) * 15625) * time := scaled
      _ ≤ (16 * rate.toInt * (wait + 1)) * time := Int.mul_le_mul_of_nonneg_right (by linarith) clock
      _ = 16 * rate.toInt * (wait + 1) * time := rfl

/-- The same for a client with a timer: the wait of its rate is one that runs. -/
theorem pacedTransfer_within {gethostbyname : Text → Option UInt32} {headers : Nat} {openSocket : Nat → Traced Call Unit}
    {send : Nat → Text → Traced Call Unit} {options : Socket.PacedOptions} {garbage : Fin bufferSize → Char}
    (spaced : Spaced (Socket.transfer called openSocket send options.toOptions garbage).trace) {wait : Int}
    (set : Socket.waitTimeUs headers options.sendRateKbytesSec = some wait)
    (running : 1 ≤ wait) (accepted : Socket.timerAccepted wait) {log : List (Call × Nat)}
    (timed : Timed isSigwait wait.toNat log)
    (part : log.map Prod.fst <+: (Socket.pacedTransfer (returning gethostbyname) headers openSocket send options garbage).trace)
    (time : Nat) : Within headers options.sendRateKbytesSec.toInt wait log time := by
  rw [pacedTransfer_runs ⟨wait,set,accepted,by omega⟩] at part
  exact within_rate set running (wireBytes_le part spaced timed time)

theorem udp_waits (channel : Nat) (payload : Text) : Permitted isSigwait isMessage (Udp.send channel payload) := by
  intro n
  rcases n with _ | _ | n <;> simp [Udp.send,isSigwait,isMessage,Call.message?]

theorem dccp_waits (channel : Nat) (payload : Text) : Permitted isSigwait isMessage (Dccp.send channel payload) := by
  intro n
  rcases n with _ | _ | _ | n <;> simp [Dccp.send,isSigwait,isMessage,Call.message?]

/-- By any time the clients have put no more on the wire than their rate allows. -/
theorem paced_rate (gethostbyname : Text → Option UInt32) (arguments : List Text) (garbage : Fin bufferSize → Char)
    (numSockets : Int32) (some_socket : 1 ≤ numSockets) (wait : Int) (running : 1 ≤ wait)
    (accepted : Socket.timerAccepted wait) (log : List (Call × Nat))
    (timed : Timed isSigwait wait.toNat log) (time : Nat) :
    ((Udp.parse arguments).numSockets = some numSockets →
      Socket.waitTimeUs Udp.headers (Udp.parse arguments).sendRateKbytesSec = some wait →
      log.map Prod.fst <+: (Udp.main gethostbyname arguments garbage).trace →
      Within 52 (Udp.parse arguments).sendRateKbytesSec.toInt wait log time) ∧
    ((Dccp.parse arguments).numSockets = some numSockets →
      Socket.waitTimeUs Dccp.headers (Dccp.parse arguments).sendRateKbytesSec = some wait →
      log.map Prod.fst <+: (Dccp.main gethostbyname arguments garbage).trace →
      Within 92 (Dccp.parse arguments).sendRateKbytesSec.toInt wait log time) := by
  have positive : 0 < numSockets := Int32.lt_of_lt_of_le (by decide) some_socket
  -- A client that finds no receiver sends nothing at all.
  constructor
  · intro assigned set part
    have spaced : Spaced (Socket.transfer called
        (Socket.openUnconnected (returning gethostbyname) (Udp.parse arguments).receiverIp)
        (fun channel payload => performs called (Udp.send channel payload)) (Udp.parse arguments).toOptions garbage).trace := by
      cases answer : gethostbyname (Udp.parse arguments).receiverIp with
      | none =>
        rw [transfer_lost garbage assigned positive (unconnected_lost answer 0)]
        exact silent_spaced rfl
      | some host =>
        rw [unconnected_found (by rw [answer]; rfl),emits_eq]
        exact transfer_spaced (fun _ => rfl) udp_waits (fun _ _ => rfl) assigned some_socket garbage
    exact pacedTransfer_within spaced set running accepted timed part time
  · intro assigned set part
    have spaced : Spaced (Socket.transfer called
        (Socket.openConnected (returning gethostbyname) (Dccp.parse arguments).receiverIp)
        (fun channel payload => performs called (Dccp.send channel payload)) (Dccp.parse arguments).toOptions garbage).trace := by
      cases answer : gethostbyname (Dccp.parse arguments).receiverIp with
      | none =>
        rw [transfer_lost garbage assigned positive (connected_lost answer 0)]
        exact silent_spaced rfl
      | some host =>
        rw [connected_found (by rw [answer]; rfl),emits_eq]
        exact transfer_spaced (fun _ => rfl) dccp_waits (fun _ _ => rfl) assigned some_socket garbage
    exact pacedTransfer_within spaced set running accepted timed part time

def tenBytesLog : List (Call × Nat) :=
  [(.socket 0,10),(.sigwait,4207),(.send 0 "abcdefghij".toList,4300),(.close 0,4400)]

theorem tenBytesLog_timed : Timed isSigwait 4207 tenBytesLog where
  forward := by decide
  due := by
    rintro done event ⟨rest,same⟩ given
    rcases done with _ | ⟨first,_ | ⟨second,_ | ⟨third,_ | ⟨fourth,done⟩⟩⟩⟩ <;>
      simp [tenBytesLog] at same <;> obtain ⟨rfl,same⟩ := same
    · cases given
    · obtain ⟨rfl,_⟩ := same
      decide
    · obtain ⟨_,rfl,_⟩ := same
      cases given
    · obtain ⟨_,_,rfl,_⟩ := same
      cases given

theorem paced_rate_ten_bytes : Within 52 250 4207 tenBytesLog 5000 := by
  have calls := congrFun (Datagrams.tenBytes_plan fun _ _ => 'x') 0
  have part : tenBytesLog.map Prod.fst <+: (Udp.main (knows server) Datagrams.tenBytes fun _ => 'x').trace := by
    rw [show (Udp.main (knows server) Datagrams.tenBytes fun _ => 'x').trace = _ from calls]
    exact List.prefix_rfl
  exact (paced_rate (knows server) Datagrams.tenBytes (fun _ => 'x') 1 (by decide) 4207 (by decide) (by decide) tenBytesLog
    tenBytesLog_timed 5000).1 (by decide) (by decide) part

end ProtocolTests.Pacing
