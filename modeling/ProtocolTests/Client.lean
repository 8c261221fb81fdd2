import ProtocolTests.Library.CallTrace
import ProtocolTests.Library.Getopt
import ProtocolTests.Sender

/-! The four client programs: the getopt loop, the pacing timer and the send loop. They are
written once, for any way in which the system answers their calls. Using a variable that
was never assigned, an array of no elements, a zero modulus and the address of a name that
was not found stop a program. -/
namespace ProtocolTests.Client
open Library.CString Library.Getopt Library.Programs Library.CallTrace Sender

def optstring : Text := "r:p:n:b:a:d:t:s:u".toList

/-- The size of the send buffer: 1024 characters and the NUL. -/
def bufferSize : Nat := 1025

/-- `streamI` is the cursor as the client has it, before its conversion to the `uint16_t` of the call. -/
inductive Call
  | socket (channel : Nat)
  | connect (channel : Nat)
  | selectWritable (channel : Nat)
  | sigwait
  | send (channel : Nat) (payload : Text)
  | sctpSendmsg (payload : Text) (flags : UInt32) (streamI : Nat) (timetolive : UInt32)
  | usleep (microseconds : UInt32)
  | close (channel : Nat)
  deriving DecidableEq

def Call.message? : Call → Option (Nat × Text)
  | .send channel payload => some (channel,payload)
  | .sctpSendmsg payload _ streamI _ => some (streamI,payload)
  | _ => none

def messages (calls : List Call) : List (Nat × Text) := calls.filterMap Call.message?

inductive SocketOption
  | initmsg
  | events
  | status
  deriving DecidableEq

/-- What the programs ask of the system. -/
structure Kernel (m : Type → Type) where
  call : Call → m Unit
  /-- Nothing stands for NULL. -/
  gethostbyname : Text → m (Option UInt32)
  sockopt : SocketOption → m Unit
  /-- `FD_SET` with the socket of a channel. -/
  fdSet : Nat → m Unit
  /-- What comes behind setting the timer to the given microseconds. -/
  setitimer : Int → m Unit → m Unit

namespace Socket

/-- `setitimer` with zero seconds accepts microseconds below one million. -/
def timerAccepted (microseconds : Int) : Prop := 0 ≤ microseconds ∧ microseconds < 1000000

instance (microseconds : Int) : Decidable (timerAccepted microseconds) :=
  inferInstanceAs (Decidable (_ ∧ _))

/-- A timer set to zero is disarmed: the first `sigwait` never returns, and what the
program does ends in front of it. -/
def untilSigwait (microseconds : Int) (rest : Traced Call Unit) : Traced Call Unit :=
  if microseconds = 0 ∧ .sigwait ∈ rest.trace then ⟨rest.trace.takeWhile (· ≠ .sigwait),none⟩ else rest

end Socket

def called (call : Call) : Traced Call Unit := emit [call]

/-- A system in which every call returns and every descriptor is below `FD_SETSIZE`. A program is then
the list of its calls; only the timer is refused, by its own argument. -/
def returning (gethostbyname : Text → Option UInt32) : Kernel (Traced Call) where
  call := called
  gethostbyname name := pure (gethostbyname name)
  sockopt _ := pure ()
  fdSet _ := pure ()
  setitimer microseconds rest :=
    if Socket.timerAccepted microseconds then Socket.untilSigwait microseconds rest else Stopping.stop

section loops
variable {m : Type → Type} [Monad m] [Stopping m]

def performs (call : Call → m Unit) (calls : List Call) : m Unit := calls.forM call

/-- The inner while loop. Every successful `fill` moves the cursor of the content, so
one pass more than it has characters left is never used up. -/
def fillAndSend (send : Nat → Text → m Unit) (channels : Nat) :
    Nat → SenderContent → Text → Nat → m (Text × Nat)
  | 0, _, _, _ => Stopping.stop
  | fuel+1, content, buffer, channel => do
    let (more,content,buffer) ← need (content.fill buffer bufferSize)
    if more then
      send channel (buffer.take (strlen buffer))
      require (channels ≠ 0)
      fillAndSend send channels fuel content buffer ((channel + 1) % channels)
    else return (buffer,channel)

def cycle (send : Nat → Text → m Unit) (channels : Nat) (length : Int) (pause : m Unit)
    (state : Text × Nat) : m (Text × Nat) := do
  let content := SenderContent.create length
  let state ← fillAndSend send channels (content.remaining + 1) content state.1 state.2
  pause
  return state

/-- The cycle loop: one buffer and one channel cursor for all cycles. `garbage` is what
the buffer on the stack holds at first. -/
def cycles (send : Nat → Text → m Unit) (channels : Nat) (length : Int) (numCycles : Nat)
    (pause : m Unit) (garbage : Fin bufferSize → Char) : m (Text × Nat) :=
  repeatFrom (fun _ => cycle send channels length pause) 0 numCycles (List.ofFn garbage,0)

end loops

def forChannels (count : Nat) (calls : Nat → List Call) : List Call := (List.range count).flatMap calls

namespace Socket

/-- The variables that the getopt loops of the TCP, UDP and DCCP clients assign.
`num_sockets` has no initial value. -/
structure Options where
  receiverIp : Text := []
  bytesToTransfer : UInt32 := 0
  numSockets : Option Int32 := none
  numCycles : Int32 := 1
  timeBetweenCycles : Int32 := 0
  deriving DecidableEq

def assign (options : Options) (found : Returned) : Options :=
  match found.option, found.optarg with
  | 'a', some optarg => {options with receiverIp := optarg}
  | 'd', some optarg => {options with bytesToTransfer := (atoi optarg).toUInt32}
  | 's', some optarg => {options with numSockets := some (atoi optarg)}
  | 'n', some optarg => {options with numCycles := atoi optarg}
  | 'b', some optarg => {options with timeBetweenCycles := atoi optarg}
  | _, _ => options

structure PacedOptions extends Options where
  sendRateKbytesSec : Int32 := 1024
  deriving DecidableEq

/-- The UDP and DCCP loops: the shared cases and a rate, under a letter of their own. -/
def assignPaced (rateOption : Char) (options : PacedOptions) (found : Returned) : PacedOptions :=
  match found.optarg with
  | some optarg =>
    if found.option = rateOption then {options with sendRateKbytesSec := atoi optarg}
    else {options with toOptions := assign options.toOptions found}
  | none => options

def pause (timeBetweenCycles : Int32) : List Call :=
  if 0 < timeBetweenCycles then [.usleep timeBetweenCycles.toUInt32] else []

/-- `(int)((buffer_size + headers) / send_rate * 976.5625)`; the quotient by a zero rate
is infinite and has no conversion to an `int`. The factor is 15625/16. -/
def waitTimeUs (headers : Int) (sendRate : Int32) : Option Int :=
  if sendRate = 0 then none
  else some (Int.tdiv ((bufferSize + headers) * 15625) (sendRate.toInt * 16))

section programs
variable {m : Type → Type} [Monad m] [Stopping m]

/-- From the cycle loop to the closing of the sockets, with the calls of one message
as a parameter. -/
def sendLoop (call : Call → m Unit) (send : Nat → Text → m Unit) (options : Options) (numSockets : Int32)
    (garbage : Fin bufferSize → Char) : m Unit := do
  let _ ← cycles send numSockets.toInt.toNat options.bytesToTransfer.toInt32.toInt
    options.numCycles.toInt.toNat (performs call (pause options.timeBetweenCycles)) garbage
  performs call (forChannels numSockets.toInt.toNat fun channel => [.close channel])

/-- The address of the receiver is copied from what the pointer points to. -/
def lookUp (kernel : Kernel m) (receiverIp : Text) : m Unit := do
  let host ← kernel.gethostbyname receiverIp
  let _ ← need host
  return ()

def openUnconnected (kernel : Kernel m) (receiverIp : Text) (channel : Nat) : m Unit := do
  kernel.call (.socket channel)
  lookUp kernel receiverIp

def openConnected (kernel : Kernel m) (receiverIp : Text) (channel : Nat) : m Unit := do
  openUnconnected kernel receiverIp channel
  kernel.call (.connect channel)

/-- What follows the getopt loop of a client without a timer: the array of sockets, the
opening of each of them, the send loop and the closing. -/
def transfer (call : Call → m Unit) (openSocket : Nat → m Unit) (send : Nat → Text → m Unit)
    (options : Options) (garbage : Fin bufferSize → Char) : m Unit := do
  let numSockets ← need options.numSockets
  require (0 < numSockets)
  repeatFrom (fun channel _ => openSocket channel) 0 numSockets.toInt.toNat ()
  sendLoop call send options numSockets garbage

/-- The same behind the setting of the timer, for packets with the given headers. -/
def pacedTransfer (kernel : Kernel m) (headers : Int) (openSocket : Nat → m Unit) (send : Nat → Text → m Unit)
    (options : PacedOptions) (garbage : Fin bufferSize → Char) : m Unit := do
  let waitTime ← need (waitTimeUs headers options.sendRateKbytesSec)
  kernel.setitimer waitTime (transfer kernel.call openSocket send options.toOptions garbage)

end programs

end Socket

section programs
variable {m : Type → Type} [Monad m] [Stopping m]

namespace Tcp
open Socket

def parse (arguments : List Text) : Options := (getopt optstring arguments).foldl assign {}

def send (channel : Nat) (payload : Text) : List Call := [.send channel payload]

def program (kernel : Kernel m) (arguments : List Text) (garbage : Fin bufferSize → Char) : m Unit :=
  let options := parse arguments
  transfer kernel.call (openConnected kernel options.receiverIp)
    (fun channel payload => performs kernel.call (send channel payload)) options garbage

end Tcp

namespace Udp
open Socket

def parse (arguments : List Text) : PacedOptions := (getopt optstring arguments).foldl (assignPaced 'p') {}

def send (channel : Nat) (payload : Text) : List Call := [.sigwait,.send channel payload]

/-- Ethernet, IPv4 and UDP headers. -/
def headers : Int := 52

def program (kernel : Kernel m) (arguments : List Text) (garbage : Fin bufferSize → Char) : m Unit :=
  let options := parse arguments
  pacedTransfer kernel headers (openUnconnected kernel options.receiverIp)
    (fun channel payload => performs kernel.call (send channel payload)) options garbage

end Udp

namespace Dccp
open Socket

def parse (arguments : List Text) : PacedOptions := (getopt optstring arguments).foldl (assignPaced 'r') {}

def send (channel : Nat) (payload : Text) : List Call :=
  [.selectWritable channel,.sigwait,.send channel payload]

/-- Ethernet, IPv4 and DCCP headers. -/
def headers : Int := 92

def program (kernel : Kernel m) (arguments : List Text) (garbage : Fin bufferSize → Char) : m Unit :=
  let options := parse arguments
  pacedTransfer kernel headers (openConnected kernel options.receiverIp)
    (fun channel payload => do
      kernel.fdSet channel
      performs kernel.call (send channel payload)) options garbage

end Dccp

namespace Sctp

/-- The flag of `netinet/sctp.h`. -/
def SCTP_UNORDERED : UInt32 := 1

structure Options where
  bytesToTransfer : UInt32 := 0
  ttl : UInt32 := 0
  flags : UInt32 := 0
  numStreams : UInt32 := 1
  numCycles : UInt32 := 1
  timeBetweenCycles : UInt32 := 0
  receiverIp : Text := []
  deriving DecidableEq

def assign (options : Options) (found : Returned) : Options :=
  match found.option, found.optarg with
  | 'a', some optarg => {options with receiverIp := optarg}
  | 'd', some optarg => {options with bytesToTransfer := (atoi optarg).toUInt32}
  | 't', some optarg => {options with ttl := (atoi optarg).toUInt32}
  | 's', some optarg => {options with numStreams := (atoi optarg).toUInt32}
  | 'u', _ => {options with flags := options.flags ||| SCTP_UNORDERED}
  | 'n', some optarg => {options with numCycles := (atoi optarg).toUInt32}
  | 'b', some optarg => {options with timeBetweenCycles := (atoi optarg).toUInt32}
  | _, _ => options

def parse (arguments : List Text) : Options := (getopt optstring arguments).foldl assign {}

def send (flags ttl : UInt32) (streamI : Nat) (payload : Text) : List Call :=
  [.sctpSendmsg payload flags streamI ttl]

def pause (timeBetweenCycles : UInt32) : List Call :=
  if 0 < timeBetweenCycles then [.usleep timeBetweenCycles] else []

/-- The counter `j` is an `int` compared with an `unsigned`: it runs through as many
values as the unsigned bound says. -/
def transfer (call : Call → m Unit) (options : Options) (garbage : Fin bufferSize → Char) : m Unit := do
  let _ ← cycles (fun streamI payload => performs call (send options.flags options.ttl streamI payload))
    options.numStreams.toNat options.bytesToTransfer.toInt32.toInt options.numCycles.toNat
    (performs call (pause options.timeBetweenCycles)) garbage
  call (.close 0)

/-- `inet_addr` takes any text, and no pointer of it is followed. -/
def program (kernel : Kernel m) (arguments : List Text) (garbage : Fin bufferSize → Char) : m Unit := do
  let options := parse arguments
  kernel.call (.socket 0)
  kernel.sockopt .initmsg
  kernel.call (.connect 0)
  kernel.sockopt .events
  kernel.sockopt .status
  transfer kernel.call options garbage

end Sctp

end programs

/-- The calls of one message, all of which return. -/
def emits (send : Nat → Text → List Call) (channel : Nat) (payload : Text) : Traced Call Unit :=
  emit (send channel payload)

section returning
variable (gethostbyname : Text → Option UInt32) (arguments : List Text) (garbage : Fin bufferSize → Char)

def Tcp.sendLoop := Socket.sendLoop called (emits Tcp.send)

def Udp.sendLoop := Socket.sendLoop called (emits Udp.send)

def Dccp.sendLoop := Socket.sendLoop called (emits Dccp.send)

def Sctp.sendLoop := Sctp.transfer called

def Tcp.main : Traced Call Unit := Tcp.program (returning gethostbyname) arguments garbage

def Udp.main : Traced Call Unit := Udp.program (returning gethostbyname) arguments garbage

def Dccp.main : Traced Call Unit := Dccp.program (returning gethostbyname) arguments garbage

/-- The SCTP client looks no name up. -/
def Sctp.main : Traced Call Unit := Sctp.program (returning fun _ => none) arguments garbage

end returning

/-- The calls that open a socket whose receiver has been found. -/
def unconnected (channel : Nat) : List Call := [.socket channel]

def connected (channel : Nat) : List Call := [.socket channel,.connect channel]

/-- A client without a timer whose sockets have been opened by the given calls. -/
def transferred (openCalls : Nat → List Call) (send : Nat → Text → List Call) (options : Socket.Options)
    (garbage : Fin bufferSize → Char) : Traced Call Unit :=
  Socket.transfer called (fun channel => emit (openCalls channel)) (emits send) options garbage

def pacedTransferred (headers : Int) (openCalls : Nat → List Call) (send : Nat → Text → List Call)
    (options : Socket.PacedOptions) (garbage : Fin bufferSize → Char) : Traced Call Unit :=
  Socket.pacedTransfer (returning fun _ => none) headers (fun channel => emit (openCalls channel)) (emits send) options
    garbage

@[simp] theorem performs_called (calls : List Call) : performs called calls = emit calls := forM_emit calls

theorem emits_eq (send : Nat → Text → List Call) :
    (fun channel payload => performs called (send channel payload)) = emits send := by
  funext channel payload
  exact performs_called _

section opened
variable {gethostbyname : Text → Option UInt32} {receiverIp : Text}

theorem unconnected_found (found : (gethostbyname receiverIp).isSome) :
    Socket.openUnconnected (returning gethostbyname) receiverIp = fun channel => emit (unconnected channel) := by
  obtain ⟨host,answer⟩ := Option.isSome_iff_exists.mp found
  funext channel
  simp only [Socket.openUnconnected,Socket.lookUp,returning,answer,pure_bind,need_some_bind]
  rfl

theorem connected_found (found : (gethostbyname receiverIp).isSome) :
    Socket.openConnected (returning gethostbyname) receiverIp = fun channel => emit (connected channel) := by
  funext channel
  rw [Socket.openConnected,unconnected_found found]
  rfl

/-- Without an address a socket is opened, and nothing more. -/
theorem unconnected_lost (lost : gethostbyname receiverIp = none) (channel : Nat) :
    Socket.openUnconnected (returning gethostbyname) receiverIp channel = ⟨[.socket channel],none⟩ := by
  simp only [Socket.openUnconnected,Socket.lookUp,returning,lost]
  rfl

theorem connected_lost (lost : gethostbyname receiverIp = none) (channel : Nat) :
    Socket.openConnected (returning gethostbyname) receiverIp channel = ⟨[.socket channel],none⟩ := by
  rw [Socket.openConnected,unconnected_lost lost]
  rfl

variable {arguments : List Text} (garbage : Fin bufferSize → Char)

theorem tcp_main (found : (gethostbyname (Tcp.parse arguments).receiverIp).isSome) :
    Tcp.main gethostbyname arguments garbage = transferred connected Tcp.send (Tcp.parse arguments) garbage := by
  rw [Tcp.main,Tcp.program,connected_found found]
  exact congrArg (fun send => Socket.transfer called _ send _ garbage) (emits_eq Tcp.send)

theorem udp_main (found : (gethostbyname (Udp.parse arguments).receiverIp).isSome) :
    Udp.main gethostbyname arguments garbage =
      pacedTransferred Udp.headers unconnected Udp.send (Udp.parse arguments) garbage := by
  rw [Udp.main,Udp.program,unconnected_found found]
  exact congrArg (fun send => Socket.pacedTransfer (returning fun _ => none) _ _ send _ garbage) (emits_eq Udp.send)

theorem dccp_main (found : (gethostbyname (Dccp.parse arguments).receiverIp).isSome) :
    Dccp.main gethostbyname arguments garbage =
      pacedTransferred Dccp.headers connected Dccp.send (Dccp.parse arguments) garbage := by
  rw [Dccp.main,Dccp.program,connected_found found]
  exact congrArg (fun send => Socket.pacedTransfer (returning fun _ => none) _ _ send _ garbage) (emits_eq Dccp.send)

theorem sctp_main : Sctp.main arguments garbage =
    emit [.socket 0,.connect 0] >>= fun _ => Sctp.sendLoop (Sctp.parse arguments) garbage := rfl

theorem transferred_eq {options : Socket.Options} {numSockets : Int32} (assigned : options.numSockets = some numSockets)
    (positive : 0 < numSockets) (openCalls : Nat → List Call) (send : Nat → Text → List Call) :
    transferred openCalls send options garbage = emit (forChannels numSockets.toInt.toNat openCalls) >>= fun _ =>
      Socket.sendLoop called (emits send) options numSockets garbage := by
  rw [transferred,Socket.transfer,assigned,need_some_bind,require_true _ positive,pure_bind,repeatFrom_emit,
    ← List.range_eq_range']
  rfl

theorem transfer_lost {options : Socket.Options} {numSockets : Int32} (assigned : options.numSockets = some numSockets)
    (positive : 0 < numSockets) {openSocket : Nat → Traced Call Unit} {calls : List Call}
    (unopened : openSocket 0 = ⟨calls,none⟩) (send : Nat → Text → Traced Call Unit) :
    Socket.transfer called openSocket send options garbage = ⟨calls,none⟩ := by
  have channels : numSockets.toInt.toNat ≠ 0 := by
    have bound := Int32.lt_iff_toInt_lt.mp positive
    have none_set : (0 : Int32).toInt = 0 := rfl
    omega
  obtain ⟨more,size⟩ := Nat.exists_eq_succ_of_ne_zero channels
  rw [Socket.transfer,assigned,need_some_bind,require_true _ positive,pure_bind,size,repeatFrom,unopened]
  rfl

end opened

end ProtocolTests.Client
