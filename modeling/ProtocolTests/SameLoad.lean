import ProtocolTests.ClientLoad

/-! When the four clients offer the same load. Their getopt loops see the same options;
what differs is the initial values and the timer that paces UDP and DCCP. -/
namespace ProtocolTests.SameLoad
open Library.CString Library.Getopt Library.Programs Library.CallTrace Library.RoundRobin Client ClientLoad

/-- The argument of an option: the last one given. -/
def argument (c : Char) (found : List Returned) : Option Text :=
  (found.filterMap fun r => if r.option = c then r.optarg else none).getLast?

def given (c : Char) (found : List Returned) : Option Int32 := (argument c found).map atoi

theorem argument_concat (c : Char) (found : List Returned) (r : Returned) :
    argument c (found ++ [r]) = if r.option = c ∧ r.optarg.isSome then r.optarg else argument c found := by
  by_cases same : r.option = c <;> cases value : r.optarg <;> simp [argument,same,value]

theorem given_concat (c : Char) (found : List Returned) (r : Returned) :
    given c (found ++ [r]) = if r.option = c ∧ r.optarg.isSome then r.optarg.map atoi else given c found := by
  rw [given,argument_concat]
  split <;> rfl

theorem socket_options (found : List Returned) :
    (found.foldl Socket.assign {}).receiverIp = (argument 'a' found).getD [] ∧
      (found.foldl Socket.assign {}).numSockets = given 's' found ∧
      (found.foldl Socket.assign {}).bytesToTransfer = ((given 'd' found).getD 0).toUInt32 ∧
      (found.foldl Socket.assign {}).numCycles = (given 'n' found).getD 1 := by
  induction found using List.reverseRecOn with
  | nil => exact ⟨rfl,rfl,rfl,rfl⟩
  | append_singleton found r ih =>
    obtain ⟨option,optarg⟩ := r
    rw [List.foldl_append,List.foldl_cons,List.foldl_nil,argument_concat,given_concat,given_concat,given_concat]
    cases optarg with
    | none => simpa [Socket.assign] using ih
    | some argument =>
      rw [Socket.assign]
      split <;> simp_all

theorem assign_other (c : Char) (argument : Text) (other : c ∉ "adsnb".toList) (options : Socket.Options) :
    Socket.assign options ⟨c,some argument⟩ = options := by
  rw [Socket.assign]
  split <;> simp_all

theorem paced_options (rateOption : Char) (own : rateOption ∉ "adsnb".toList) (found : List Returned) :
    (found.foldl (Socket.assignPaced rateOption) {}).toOptions = found.foldl Socket.assign {} ∧
      (found.foldl (Socket.assignPaced rateOption) {}).sendRateKbytesSec = (given rateOption found).getD 1024 := by
  induction found using List.reverseRecOn with
  | nil => exact ⟨rfl,rfl⟩
  | append_singleton found r ih =>
    obtain ⟨option,optarg⟩ := r
    obtain ⟨shared,rate⟩ := ih
    rw [List.foldl_append,List.foldl_cons,List.foldl_nil,List.foldl_append,List.foldl_cons,List.foldl_nil,
      given_concat,← shared]
    cases optarg with
    | none =>
      refine ⟨?_,?_⟩
      · simp [Socket.assignPaced,Socket.assign]
      · simpa [Socket.assignPaced] using rate
    | some argument =>
      by_cases same : option = rateOption
      · subst same
        simp [Socket.assignPaced,assign_other option argument own]
      · simp [Socket.assignPaced,same,rate]

theorem sctp_options (found : List Returned) :
    (found.foldl Sctp.assign {}).numStreams = ((given 's' found).getD 1).toUInt32 ∧
      (found.foldl Sctp.assign {}).bytesToTransfer = ((given 'd' found).getD 0).toUInt32 ∧
      (found.foldl Sctp.assign {}).numCycles = ((given 'n' found).getD 1).toUInt32 := by
  induction found using List.reverseRecOn with
  | nil => exact ⟨rfl,rfl,rfl⟩
  | append_singleton found r ih =>
    obtain ⟨option,optarg⟩ := r
    rw [List.foldl_append,List.foldl_cons,List.foldl_nil,given_concat,given_concat,given_concat]
    cases optarg with
    | none =>
      rw [Sctp.assign]
      split <;> simp_all
    | some argument =>
      rw [Sctp.assign]
      split <;> simp_all

/-- The timer that a rate sets is accepted and runs. -/
def TimerRuns (headers : Int) (rate : Int32) : Prop :=
  ∃ waitTime, Socket.waitTimeUs headers rate = some waitTime ∧ Socket.timerAccepted waitTime ∧ waitTime ≠ 0

/-- With `cost` the dividend of the waiting time, the rates from two to the last one that
does not round it down to zero let the timer run. -/
theorem timerRuns_iff (headers cost limit : Int) (rate : Int32) (dividend : (bufferSize + headers) * 15625 = cost)
    (top : limit * 16 ≤ cost) (next : cost < (limit + 1) * 16) (slow : 16000000 ≤ cost) (fast : cost < 32000000) :
    TimerRuns headers rate ↔ 2 ≤ rate.toInt ∧ rate.toInt ≤ limit := by
  have zero : rate = 0 ↔ rate.toInt = 0 := by
    rw [← Int32.toInt_inj]
    rfl
  simp only [TimerRuns,Socket.waitTimeUs,dividend,Socket.timerAccepted]
  generalize rate.toInt = r at zero
  by_cases none_set : rate = 0
  · simp only [none_set,if_true,reduceCtorEq,false_and,exists_false,false_iff]
    have := zero.mp none_set
    omega
  · simp only [none_set,if_false,Option.some.injEq,exists_eq_left']
    have nonzero : r ≠ 0 := fun h => none_set (zero.mpr h)
    rcases Int.lt_or_gt_of_ne nonzero with negative | positive
    · have sign : Int.tdiv cost (r*16) ≤ 0 := Int.tdiv_nonpos_of_nonneg_of_nonpos (by omega) (by omega)
      constructor
      · omega
      · omega
    · rw [Int.tdiv_eq_ediv_of_nonneg (by omega)]
      have lower (k : Int) : k ≤ cost / (r*16) ↔ k * (r*16) ≤ cost := Int.le_ediv_iff_mul_le (by omega)
      have runs := lower 1
      have late := lower 1000000
      omega

theorem udp_timer (rate : Int32) : TimerRuns Udp.headers rate ↔ 2 ≤ rate.toInt ∧ rate.toInt ≤ 1051757 :=
  timerRuns_iff _ 16828125 1051757 rate (by decide) (by decide) (by decide) (by decide) (by decide)

theorem dccp_timer (rate : Int32) : TimerRuns Dccp.headers rate ↔ 2 ≤ rate.toInt ∧ rate.toInt ≤ 1090820 :=
  timerRuns_iff _ 17453125 1090820 rate (by decide) (by decide) (by decide) (by decide) (by decide)

/-- The waiting time of a rate is a timer value that `setitimer` accepts and that runs out. -/
def Armed (headers : Int) (rate : Int32) : Prop :=
  ∃ waitTime, Socket.waitTimeUs headers rate = some waitTime ∧ 1 ≤ waitTime ∧ waitTime ≤ 999999

theorem armed_iff (headers : Int) (rate : Int32) : Armed headers rate ↔ TimerRuns headers rate := by
  constructor
  · rintro ⟨waitTime,computed,lower,upper⟩
    exact ⟨waitTime,computed,⟨by omega,by omega⟩,by omega⟩
  · rintro ⟨waitTime,computed,⟨lower,upper⟩,nonzero⟩
    exact ⟨waitTime,computed,by omega,by omega⟩

/-- The slowest rate of all asks for more than a second, the rates beyond one packet in a
microsecond for no time at all. -/
theorem rates_armed_iff (rate : Int32) :
    (Armed Udp.headers rate ↔ 2 ≤ rate.toInt ∧ rate.toInt ≤ 1051757) ∧
      (Armed Dccp.headers rate ↔ 2 ≤ rate.toInt ∧ rate.toInt ≤ 1090820) := by
  rw [armed_iff,armed_iff]
  exact ⟨udp_timer rate,dccp_timer rate⟩

theorem rates_unarmed :
    (Socket.waitTimeUs Udp.headers 1 = some 1051757 ∧ ¬Socket.timerAccepted 1051757 ∧ ¬Armed Udp.headers 1) ∧
      (Socket.waitTimeUs Dccp.headers 1 = some 1090820 ∧ ¬Socket.timerAccepted 1090820 ∧ ¬Armed Dccp.headers 1) ∧
      (Socket.waitTimeUs Udp.headers 1051758 = some 0 ∧ ¬Armed Udp.headers 1051758) ∧
      Socket.waitTimeUs Dccp.headers 1090821 = some 0 ∧ ¬Armed Dccp.headers 1090821 := by
  have udpSlow : Socket.waitTimeUs Udp.headers 1 = some 1051757 := by decide
  have dccpSlow : Socket.waitTimeUs Dccp.headers 1 = some 1090820 := by decide
  have udpFast : Socket.waitTimeUs Udp.headers 1051758 = some 0 := by decide
  have dccpFast : Socket.waitTimeUs Dccp.headers 1090821 = some 0 := by decide
  refine ⟨⟨udpSlow,by decide,?_⟩,⟨dccpSlow,by decide,?_⟩,⟨udpFast,?_⟩,dccpFast,?_⟩ <;> rintro ⟨_,computed,lower,upper⟩
  · cases udpSlow.symm.trans computed
    exact absurd upper (by decide)
  · cases dccpSlow.symm.trans computed
    exact absurd upper (by decide)
  · cases udpFast.symm.trans computed
    exact absurd lower (by decide)
  · cases dccpFast.symm.trans computed
    exact absurd lower (by decide)

/-- Nothing is sent in front of the first wait for the timer. -/
def Paced (calls : List Call) : Prop := messages (calls.takeWhile (· ≠ .sigwait)) = []

theorem paced_append (first second : List Call) (a : Paced first) (b : Paced second) : Paced (first ++ second) := by
  unfold Paced at *
  rw [List.takeWhile_append]
  split
  next whole =>
    have same : first.takeWhile (· ≠ .sigwait) = first :=
      (List.takeWhile_prefix _).eq_of_length whole
    rw [same] at a
    rw [messages_append,a,b]
    rfl
  next => exact a

theorem paced_flatMap {α : Type} (items : List α) (calls : α → List Call) (each : ∀ item, Paced (calls item)) :
    Paced (items.flatMap calls) := by
  induction items with
  | nil => rfl
  | cons item items ih => exact paced_append _ _ (each item) ih

theorem paced_silent (calls : List Call) (silent : messages calls = []) : Paced calls := by
  have shorter := (List.takeWhile_sublist (l := calls) (· ≠ .sigwait)).filterMap Call.message?
  rw [Paced,messages]
  rw [messages] at silent
  rw [silent] at shorter
  exact List.sublist_nil.mp shorter

theorem transfer_messages (openCalls : Nat → List Call) (quiet : ∀ channel, messages (openCalls channel) = [])
    (send : Nat → Text → List Call)
    (sends : ∀ channel payload, messages (send channel payload) = [(channel,payload)])
    (options : Socket.Options) (numSockets : Int32) (assigned : options.numSockets = some numSockets)
    (some_channel : 1 ≤ numSockets) (garbage : Fin bufferSize → Char) :
    messages (transferred openCalls send options garbage).trace =
      load options.bytesToTransfer.toInt32.toInt.toNat options.numCycles.toInt.toNat numSockets.toInt.toNat := by
  have positive : 0 < numSockets := Int32.lt_of_lt_of_le (by decide) some_channel
  have opened : messages (forChannels numSockets.toInt.toNat openCalls) = [] := by
    simp only [messages] at quiet
    simp [messages,forChannels,List.filterMap_flatMap,quiet]
  rw [transferred_eq garbage assigned positive,emit_bind,messages_append,opened,List.nil_append]
  exact socket_load send sends options numSockets garbage some_channel

/-- The calls of a client, up to what its sending takes from the buffer. -/
theorem transfer_calls (openCalls : Nat → List Call) (send : Nat → Text → List Call) {options : Socket.Options}
    {numSockets : Int32} (assigned : options.numSockets = some numSockets) (some_socket : 1 ≤ numSockets)
    (garbage : Fin bufferSize → Char) :
    let rounds := chunks width options.bytesToTransfer.toInt32.toInt.toNat
    (transferred openCalls send options garbage).trace =
      forChannels numSockets.toInt.toNat openCalls ++
      (List.range' 0 options.numCycles.toInt.toNat).flatMap (fun c =>
        (List.range' 0 rounds).flatMap (fun x => send ((c * rounds + x) % numSockets.toInt.toNat)
          (chunk options.bytesToTransfer.toInt32.toInt.toNat x)) ++ Socket.pause options.timeBetweenCycles) ++
      forChannels numSockets.toInt.toNat (fun channel => [.close channel]) := by
  intro rounds
  have positive : 0 < numSockets := Int32.lt_of_lt_of_le (by decide) some_socket
  have channels : 0 < numSockets.toInt.toNat := by
    have bound := Int32.lt_iff_toInt_lt.mp positive
    have none_set : (0 : Int32).toInt = 0 := rfl
    omega
  obtain ⟨final,ran⟩ := cycles_calls send _ channels options.bytesToTransfer.toInt32.toInt
    options.numCycles.toInt.toNat (Socket.pause options.timeBetweenCycles) garbage
  rw [transferred_eq garbage assigned positive,emit_bind,Socket.sendLoop,performs_called,performs_called,
    bind_some _ _ final (by rw [ran]),emit_trace,ran]
  exact (List.append_assoc _ _ _).symm

theorem transfer_paced (openCalls : Nat → List Call) (quiet : ∀ channel, messages (openCalls channel) = [])
    (send : Nat → Text → List Call) (paced : ∀ channel payload, Paced (send channel payload))
    (options : Socket.Options) (numSockets : Int32) (assigned : options.numSockets = some numSockets)
    (some_channel : 1 ≤ numSockets) (garbage : Fin bufferSize → Char) :
    Paced (transferred openCalls send options garbage).trace := by
  rw [transfer_calls openCalls send assigned some_channel garbage]
  refine paced_append _ _ (paced_append _ _ (paced_flatMap _ _ fun channel => paced_silent _ (quiet channel)) ?_)
    (paced_silent _ (close_silent _))
  refine paced_flatMap _ _ fun c => ?_
  exact paced_append _ _ (paced_flatMap _ _ fun x => paced _ _) (paced_silent _ (pause_silent _))

section paced
variable {headers : Int} {options : Socket.PacedOptions} (timer : TimerRuns headers options.sendRateKbytesSec)
include timer

theorem pacedTransfer_runs (gethostbyname : Text → Option UInt32) (openSocket : Nat → Traced Call Unit)
    (send : Nat → Text → Traced Call Unit) (garbage : Fin bufferSize → Char) :
    Socket.pacedTransfer (returning gethostbyname) headers openSocket send options garbage =
      Socket.transfer called openSocket send options.toOptions garbage := by
  obtain ⟨waitTime,set,accepted,running⟩ := timer
  have timed (rest : Traced Call Unit) : (returning gethostbyname).setitimer waitTime rest = rest := by
    simp only [returning]
    rw [if_pos accepted,Socket.untilSigwait,if_neg (by tauto)]
  rw [Socket.pacedTransfer,set,need_some_bind,timed]
  rfl

theorem pacedTransferred_runs (openCalls : Nat → List Call) (send : Nat → Text → List Call)
    (garbage : Fin bufferSize → Char) : pacedTransferred headers openCalls send options garbage =
      transferred openCalls send options.toOptions garbage := pacedTransfer_runs timer _ _ _ garbage

end paced

/-- What a client with a timer sends in all: the whole load if its rate lets the timer
run, and nothing otherwise. -/
theorem pacedTransfer_messages (headers : Int) (openCalls : Nat → List Call)
    (quiet : ∀ channel, messages (openCalls channel) = []) (send : Nat → Text → List Call)
    (sends : ∀ channel payload, messages (send channel payload) = [(channel,payload)])
    (paced : ∀ channel payload, Paced (send channel payload))
    (options : Socket.PacedOptions) (numSockets : Int32) (assigned : options.numSockets = some numSockets)
    (some_channel : 1 ≤ numSockets) (garbage : Fin bufferSize → Char) :
    (TimerRuns headers options.sendRateKbytesSec →
      messages (pacedTransferred headers openCalls send options garbage).trace =
        load options.bytesToTransfer.toInt32.toInt.toNat options.numCycles.toInt.toNat numSockets.toInt.toNat) ∧
    (¬TimerRuns headers options.sendRateKbytesSec →
      messages (pacedTransferred headers openCalls send options garbage).trace = []) := by
  have whole := transfer_messages openCalls quiet send sends options.toOptions numSockets assigned some_channel garbage
  have waiting := transfer_paced openCalls quiet send paced options.toOptions numSockets assigned some_channel garbage
  constructor
  · intro timer
    rw [pacedTransferred_runs timer]
    exact whole
  · intro stuck
    rw [pacedTransferred,Socket.pacedTransfer]
    cases set : Socket.waitTimeUs headers options.sendRateKbytesSec with
    | none =>
      rw [bind_none _ _ rfl]
      rfl
    | some waitTime =>
      rw [need_some_bind]
      simp only [returning]
      by_cases accepted : Socket.timerAccepted waitTime
      · have disarmed : waitTime = 0 := by
          by_contra running
          exact stuck ⟨waitTime,set,accepted,running⟩
        rw [if_pos accepted,Socket.untilSigwait]
        split
        next => exact waiting
        next unwaited =>
          have same : ∀ call ∈ (transferred openCalls send options.toOptions garbage).trace, call ≠ .sigwait := by
            rintro call member rfl
            exact unwaited ⟨disarmed,member⟩
          rw [Paced,List.takeWhile_eq_self_iff.mpr (by simpa using same)] at waiting
          exact waiting
      · rw [if_neg accepted]
        rfl

/-- The clients all know how much to send on how many channels, and send the same. The
byte count, the cycle count and the number of streams have initial values in all of
them, so only `num_sockets` can be left unassigned. -/
structure OfferSameLoad (gethostbyname : Text → Option UInt32) (arguments : List Text)
    (tcp udp dccp sctp : Fin bufferSize → Char) : Prop where
  tcpAssigned : (Tcp.parse arguments).numSockets.isSome
  udpAssigned : (Udp.parse arguments).numSockets.isSome
  dccpAssigned : (Dccp.parse arguments).numSockets.isSome
  /-- No client without a timer stops on its way. -/
  tcpReturns : (Tcp.main gethostbyname arguments tcp).result.isSome
  sctpReturns : (Sctp.main arguments sctp).result.isSome
  udpSame : messages (Udp.main gethostbyname arguments udp).trace = messages (Tcp.main gethostbyname arguments tcp).trace
  dccpSame : messages (Dccp.main gethostbyname arguments dccp).trace = messages (Tcp.main gethostbyname arguments tcp).trace
  sctpSame : messages (Sctp.main arguments sctp).trace = messages (Tcp.main gethostbyname arguments tcp).trace

theorem load_empty_iff (len numCycles channels : Nat) :
    load len numCycles channels = [] ↔ len = 0 ∨ numCycles = 0 := by
  have some_chunk : chunks width len = 0 ↔ len = 0 := by
    have first := chunks_spec width len 0 (by decide)
    omega
  simp [load,some_chunk,or_comm]

section run
variable {gethostbyname : Text → Option UInt32} (arguments : List Text) (numSockets : Int32)
  (garbage : Fin bufferSize → Char) (assigned : given 's' (getopt optstring arguments) = some numSockets)
  (some_channel : 1 ≤ numSockets)

def asked : List (Nat × Text) :=
  load ((given 'd' (getopt optstring arguments)).getD 0).toInt.toNat
    ((given 'n' (getopt optstring arguments)).getD 1).toInt.toNat numSockets.toInt.toNat

include assigned some_channel

theorem tcp_messages (resolved : (gethostbyname ((argument 'a' (getopt optstring arguments)).getD [])).isSome) :
    messages (Tcp.main gethostbyname arguments garbage).trace = asked arguments numSockets := by
  obtain ⟨name,sockets,bytes,rounds⟩ := socket_options (getopt optstring arguments)
  have sent := transfer_messages connected (fun _ => rfl) Tcp.send (fun _ _ => rfl) (Tcp.parse arguments)
    numSockets (sockets.trans assigned) some_channel garbage
  rw [Tcp.parse,bytes,rounds] at sent
  rw [tcp_main garbage (by rw [Tcp.parse,name]; exact resolved)]
  exact sent

/-- The TCP client comes to its end if its receiver is found. -/
theorem tcp_returns : (Tcp.main gethostbyname arguments garbage).result.isSome ↔
    (gethostbyname ((argument 'a' (getopt optstring arguments)).getD [])).isSome := by
  obtain ⟨name,sockets,_⟩ := socket_options (getopt optstring arguments)
  have positive : 0 < numSockets := Int32.lt_of_lt_of_le (by decide) some_channel
  have channels : 0 < numSockets.toInt.toNat := by
    have bound := Int32.lt_iff_toInt_lt.mp positive
    have none_set : (0 : Int32).toInt = 0 := rfl
    omega
  have counted : (Tcp.parse arguments).numSockets = some numSockets := sockets.trans assigned
  cases answer : gethostbyname ((argument 'a' (getopt optstring arguments)).getD []) with
  | some host =>
    obtain ⟨final,ran⟩ := cycles_calls Tcp.send _ channels (Tcp.parse arguments).bytesToTransfer.toInt32.toInt
      (Tcp.parse arguments).numCycles.toInt.toNat (Socket.pause (Tcp.parse arguments).timeBetweenCycles) garbage
    rw [tcp_main garbage (by rw [Tcp.parse,name,answer]; rfl),transferred_eq garbage counted positive,emit_bind,
      Socket.sendLoop,performs_called,performs_called,bind_some _ _ final (by rw [ran])]
    exact iff_of_true rfl rfl
  | none =>
    have lost : gethostbyname (Tcp.parse arguments).receiverIp = none := by rw [Tcp.parse,name,answer]
    have stopped : Tcp.main gethostbyname arguments garbage = ⟨[.socket 0],none⟩ :=
      transfer_lost garbage counted positive (connected_lost lost 0) _
    rw [stopped]
    exact Iff.rfl

/-- A client with a timer keeps up with the load if the timer runs or there is no load. -/
theorem paced_messages (headers : Int) (openCalls : Nat → List Call)
    (quiet : ∀ channel, messages (openCalls channel) = []) (send : Nat → Text → List Call)
    (sends : ∀ channel payload, messages (send channel payload) = [(channel,payload)])
    (paced : ∀ channel payload, Paced (send channel payload)) (rateOption : Char) (own : rateOption ∉ "adsnb".toList) :
    messages (pacedTransferred headers openCalls send
        ((getopt optstring arguments).foldl (Socket.assignPaced rateOption) {}) garbage).trace =
        asked arguments numSockets ↔
      asked arguments numSockets = [] ∨
        TimerRuns headers ((given rateOption (getopt optstring arguments)).getD 1024) := by
  obtain ⟨_,sockets,bytes,rounds⟩ := socket_options (getopt optstring arguments)
  obtain ⟨shared,rate⟩ := paced_options rateOption own (getopt optstring arguments)
  obtain ⟨all,nothing⟩ := pacedTransfer_messages headers openCalls quiet send sends paced
    ((getopt optstring arguments).foldl (Socket.assignPaced rateOption) {}) numSockets
    (by rw [shared,sockets,assigned]) some_channel garbage
  rw [rate] at all nothing
  by_cases runs : TimerRuns headers ((given rateOption (getopt optstring arguments)).getD 1024)
  · have sent := all runs
    rw [shared,bytes,rounds] at sent
    exact ⟨fun _ => Or.inr runs,fun _ => sent⟩
  · rw [nothing runs]
    constructor
    · exact fun same => Or.inl same.symm
    · rintro (same | contradicted)
      · exact same.symm
      · exact absurd contradicted runs

theorem sctp_streams : (Sctp.parse arguments).numStreams.toNat = numSockets.toInt.toNat ∧
    0 < (Sctp.parse arguments).numStreams.toNat := by
  obtain ⟨streams,_⟩ := sctp_options (getopt optstring arguments)
  have nonnegative : 0 ≤ numSockets := Int32.le_trans (by decide) some_channel
  have channels : (Sctp.parse arguments).numStreams.toNat = numSockets.toInt.toNat := by
    rw [Sctp.parse,streams,assigned,Option.getD_some,toUInt32_toNat _ nonnegative]
  have bound := Int32.le_iff_toInt_le.mp some_channel
  have one : (1 : Int32).toInt = 1 := rfl
  exact ⟨channels,by omega⟩

theorem sctp_messages (cyclic : 0 ≤ (given 'n' (getopt optstring arguments)).getD 1) :
    messages (Sctp.main arguments garbage).trace = asked arguments numSockets := by
  obtain ⟨streams,bytes,rounds⟩ := sctp_options (getopt optstring arguments)
  obtain ⟨channels,positive⟩ := sctp_streams arguments numSockets assigned some_channel
  rw [sctp_main,emit_bind,messages_append,sctp_load _ garbage positive,channels,Sctp.parse,bytes,rounds,
    toUInt32_toNat _ cyclic]
  rfl

theorem sctp_returns : (Sctp.main arguments garbage).result.isSome := by
  obtain ⟨_,positive⟩ := sctp_streams arguments numSockets assigned some_channel
  obtain ⟨final,ran⟩ := cycles_calls (Sctp.send (Sctp.parse arguments).flags (Sctp.parse arguments).ttl) _ positive
    (Sctp.parse arguments).bytesToTransfer.toInt32.toInt (Sctp.parse arguments).numCycles.toNat
    (Sctp.pause (Sctp.parse arguments).timeBetweenCycles) garbage
  rw [sctp_main,emit_bind,Sctp.sendLoop,Sctp.transfer,emits_eq,performs_called,bind_some _ _ final (by rw [ran])]
  rfl

end run

theorem asked_empty_iff (arguments : List Text) (numSockets : Int32)
    (nonnegative : 0 ≤ (given 'd' (getopt optstring arguments)).getD 0)
    (cyclic : 0 ≤ (given 'n' (getopt optstring arguments)).getD 1) :
    asked arguments numSockets = [] ↔
      (given 'd' (getopt optstring arguments)).getD 0 = 0 ∨ (given 'n' (getopt optstring arguments)).getD 1 = 0 := by
  have bytes := Int32.le_iff_toInt_le.mp nonnegative
  have rounds := Int32.le_iff_toInt_le.mp cyclic
  rw [asked,load_empty_iff,← Int32.toInt_inj,← Int32.toInt_inj]
  have zero : (0 : Int32).toInt = 0 := rfl
  omega

/-- With sockets and a receiver that is found only the two timers can keep the clients apart. -/
theorem found_same_load {gethostbyname : Text → Option UInt32} (arguments : List Text) (numSockets : Int32)
    (tcp udp dccp sctp : Fin bufferSize → Char) (sockets : given 's' (getopt optstring arguments) = some numSockets)
    (some_channel : 1 ≤ numSockets) (bytes : 0 ≤ (given 'd' (getopt optstring arguments)).getD 0)
    (rounds : 0 ≤ (given 'n' (getopt optstring arguments)).getD 1)
    (resolved : (gethostbyname ((argument 'a' (getopt optstring arguments)).getD [])).isSome) :
    let found := getopt optstring arguments
    let udpRate := ((given 'p' found).getD 1024).toInt
    let dccpRate := ((given 'r' found).getD 1024).toInt
    OfferSameLoad gethostbyname arguments tcp udp dccp sctp ↔
      ((given 'd' found).getD 0 = 0 ∨ (given 'n' found).getD 1 = 0) ∨
        (2 ≤ udpRate ∧ udpRate ≤ 1051757) ∧ 2 ≤ dccpRate ∧ dccpRate ≤ 1090820 := by
  intro found udpRate dccpRate
  obtain ⟨name,named,_⟩ := socket_options found
  have udpShared := (paced_options 'p' (by decide) found).1
  have dccpShared := (paced_options 'r' (by decide) found).1
  have udpNamed : (Udp.parse arguments).numSockets = given 's' found := by rw [Udp.parse,udpShared,named]
  have dccpNamed : (Dccp.parse arguments).numSockets = given 's' found := by rw [Dccp.parse,dccpShared,named]
  have idle := asked_empty_iff arguments numSockets bytes rounds
  have tcpSent := tcp_messages arguments numSockets tcp sockets some_channel resolved
  have udpSame := paced_messages arguments numSockets udp sockets some_channel Udp.headers unconnected
    (fun _ => rfl) Udp.send (fun _ _ => rfl) (fun _ _ => rfl) 'p' (by decide)
  have dccpSame := paced_messages arguments numSockets dccp sockets some_channel Dccp.headers connected
    (fun _ => rfl) Dccp.send (fun _ _ => rfl) (fun _ _ => rfl) 'r' (by decide)
  rw [idle,udp_timer] at udpSame
  rw [idle,dccp_timer] at dccpSame
  have udpMain := udp_main udp (show (gethostbyname (Udp.parse arguments).receiverIp).isSome by
    rw [Udp.parse,udpShared,name]; exact resolved)
  have dccpMain := dccp_main dccp (show (gethostbyname (Dccp.parse arguments).receiverIp).isSome by
    rw [Dccp.parse,dccpShared,name]; exact resolved)
  rw [or_and_left]
  constructor
  · intro agree
    exact ⟨udpSame.mp (udpMain ▸ agree.udpSame.trans tcpSent),dccpSame.mp (dccpMain ▸ agree.dccpSame.trans tcpSent)⟩
  · rintro ⟨udpRuns,dccpRuns⟩
    have isSome {given : Option Int32} (same : given = some numSockets) : given.isSome := by rw [same]; rfl
    exact {
      tcpAssigned := isSome (named.trans sockets)
      udpAssigned := isSome (udpNamed.trans sockets)
      dccpAssigned := isSome (dccpNamed.trans sockets)
      tcpReturns := (tcp_returns arguments numSockets tcp sockets some_channel).mpr resolved
      sctpReturns := sctp_returns arguments numSockets sctp sockets some_channel
      udpSame := udpMain ▸ (udpSame.mpr udpRuns).trans tcpSent.symm
      dccpSame := dccpMain ▸ (dccpSame.mpr dccpRuns).trans tcpSent.symm
      sctpSame := (sctp_messages arguments numSockets sctp sockets some_channel rounds).trans tcpSent.symm}

/-- A system that knows one name. -/
def knows (host : Text) (name : Text) : Option UInt32 := if name = host then some 0x0a000002 else none

def server : Text := "10.0.0.2".toList

end ProtocolTests.SameLoad
