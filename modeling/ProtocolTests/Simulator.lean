import ProtocolTests.ClientLoad
import ProtocolTests.Parser

/-! What the simulator hands to the other programs: the arguments of the clients and
the amount of data that the parser is told to expect. -/
namespace ProtocolTests.Simulator
open Library.CString Library.Getopt Library.CallTrace Client

/-- The integer settings. The others concern the simulated network only. -/
structure SimSettings where
  numberOfClients : Int32
  transferDataBytes : Int32
  sctpTtlMs : Int32
  numSocketsStreams : Int32
  sctpUnordered : Int32
  udpSendRateKbytesSec : Int32
  dccpSendRateKbytesSec : Int32
  numCycles : Int32
  timeBetweenCyclesUsec : Int32

/-- `process.AddArguments(option, value)`. -/
def addArguments (option : Char) (value : Text) : List Text := [['-',option],value]

/-- The arguments with which `RunSimulation` starts every client. -/
def clientArguments (settings : SimSettings) : List Text :=
  addArguments 'a' "10.0.0.1".toList ++
  addArguments 'd' (decimal settings.transferDataBytes.toInt) ++
  addArguments 't' (decimal settings.sctpTtlMs.toInt) ++
  addArguments 'u' (decimal settings.sctpUnordered.toInt) ++
  addArguments 's' (decimal settings.numSocketsStreams.toInt) ++
  addArguments 'b' (decimal settings.timeBetweenCyclesUsec.toInt) ++
  addArguments 'n' (decimal settings.numCycles.toInt) ++
  addArguments 'p' (decimal settings.udpSendRateKbytesSec.toInt) ++
  addArguments 'r' (decimal settings.dccpSendRateKbytesSec.toInt)

/-- The parser object of `RunSimulation`, made by `start_data_parser`. -/
def resultParser (protocol : Text) (settings : SimSettings) : Parser.DataParser :=
  Parser.startDataParser protocol settings.numberOfClients
    (settings.transferDataBytes * settings.numCycles) settings.numSocketsStreams

theorem digit_undeclared (c : Char) (digit : c.isDigit = true) : declared optstring c = .unknown := by
  have letters : optstring.all (fun d => !d.isDigit) = true := by decide
  have absent : ∀ d ∈ optstring, d ≠ c := by
    rintro d member rfl
    have letter := List.all_eq_true.mp letters d member
    rw [digit] at letter
    cases letter
  have dropped : optstring.dropWhile (· ≠ c) = [] :=
    List.dropWhile_eq_nil_iff.mpr fun d member => by simpa using absent d member
  simp only [declared,dropped]
  split <;> rfl

/-- A printed number that no option takes as its argument is an operand, or a word of
unknown options when it is negative. Nothing behind it is touched. -/
theorem getopt_number (value : Int) (rest : List Text) :
    ∃ count, getopt optstring (decimal value :: rest) =
      List.replicate count ⟨'?',none⟩ ++ getopt optstring rest := by
  obtain ⟨d,tail,shape,digit⟩ := toDigits_head value.natAbs
  have sign : d ≠ '-' := by rintro rfl; simp [Char.isDigit] at digit
  unfold decimal
  split
  next negative =>
    have strange : ∀ c ∈ d :: tail, declared optstring c = .unknown := by
      rw [← shape]
      exact fun c member => digit_undeclared c (toDigits_digit member)
    exact ⟨tail.length+1,by rw [shape,getopt_unknown optstring d tail rest sign strange]⟩
  next nonnegative => exact ⟨0,by rw [shape,getopt_operand optstring d tail rest sign]; rfl⟩

/-- What `getopt` returns on the arguments of the simulator, with the unknown options that
a negative value behind "-u" is taken for. -/
theorem getopt_clientArguments (settings : SimSettings) :
    ∃ count, getopt optstring (clientArguments settings) =
      [⟨'a',some "10.0.0.1".toList⟩,⟨'d',some (decimal settings.transferDataBytes.toInt)⟩,
        ⟨'t',some (decimal settings.sctpTtlMs.toInt)⟩,⟨'u',none⟩] ++
      List.replicate count ⟨'?',none⟩ ++
      [⟨'s',some (decimal settings.numSocketsStreams.toInt)⟩,
        ⟨'b',some (decimal settings.timeBetweenCyclesUsec.toInt)⟩,⟨'n',some (decimal settings.numCycles.toInt)⟩,
        ⟨'p',some (decimal settings.udpSendRateKbytesSec.toInt)⟩,
        ⟨'r',some (decimal settings.dccpSendRateKbytesSec.toInt)⟩] := by
  have takes (c : Char) (argument : Text) (rest : List Text) (known : c ∈ "adtsbnpr".toList) :
      getopt optstring (['-',c] :: argument :: rest) = ⟨c,some argument⟩ :: getopt optstring rest := by
    have letters : "adtsbnpr".toList.all (fun c => c ≠ '-' ∧ declared optstring c = .withArgument) = true := by
      decide
    have letter := of_decide_eq_true (List.all_eq_true.mp letters c known)
    exact getopt_argument optstring c argument rest letter.1 letter.2
  obtain ⟨count,skipped⟩ := getopt_number settings.sctpUnordered.toInt
    (addArguments 's' (decimal settings.numSocketsStreams.toInt) ++
      addArguments 'b' (decimal settings.timeBetweenCyclesUsec.toInt) ++
      addArguments 'n' (decimal settings.numCycles.toInt) ++
      addArguments 'p' (decimal settings.udpSendRateKbytesSec.toInt) ++
      addArguments 'r' (decimal settings.dccpSendRateKbytesSec.toInt))
  refine ⟨count,?_⟩
  simp only [addArguments,List.cons_append,List.nil_append] at skipped
  simp only [clientArguments,addArguments,List.cons_append,List.nil_append]
  rw [takes 'a' _ _ (by decide),takes 'd' _ _ (by decide),takes 't' _ _ (by decide),
    getopt_plain optstring 'u' _ (by decide) (by decide),skipped,takes 's' _ _ (by decide),
    takes 'b' _ _ (by decide),takes 'n' _ _ (by decide),takes 'p' _ _ (by decide),takes 'r' _ _ (by decide),
    getopt_nil]

theorem foldl_unknown {σ : Type} (assign : σ → Returned → σ) (ignores : ∀ s, assign s ⟨'?',none⟩ = s)
    (count : Nat) (s : σ) : (List.replicate count ⟨'?',none⟩).foldl assign s = s := by
  induction count generalizing s with
  | zero => rfl
  | succ count ih => rw [List.replicate_succ,List.foldl_cons,ignores,ih]

theorem sctp_decodes (settings : SimSettings) :
    Sctp.parse (clientArguments settings) =
      ⟨settings.transferDataBytes.toUInt32,settings.sctpTtlMs.toUInt32,Sctp.SCTP_UNORDERED,
        settings.numSocketsStreams.toUInt32,settings.numCycles.toUInt32,
        settings.timeBetweenCyclesUsec.toUInt32,"10.0.0.1".toList⟩ := by
  obtain ⟨count,found⟩ := getopt_clientArguments settings
  rw [Sctp.parse,found,List.foldl_append,List.foldl_append,foldl_unknown _ fun _ => rfl]
  simp [Sctp.assign,atoi_decimal]

/-- Every client reads the settings back that the simulator printed into its arguments,
whatever the word behind "-u" is. -/
theorem clients_decode (settings : SimSettings) :
    let shared : Socket.Options := ⟨"10.0.0.1".toList,settings.transferDataBytes.toUInt32,
      some settings.numSocketsStreams,settings.numCycles,settings.timeBetweenCyclesUsec⟩
    Tcp.parse (clientArguments settings) = shared ∧
      Udp.parse (clientArguments settings) = ⟨shared,settings.udpSendRateKbytesSec⟩ ∧
      Dccp.parse (clientArguments settings) = ⟨shared,settings.dccpSendRateKbytesSec⟩ ∧
      Sctp.parse (clientArguments settings) =
        ⟨settings.transferDataBytes.toUInt32,settings.sctpTtlMs.toUInt32,Sctp.SCTP_UNORDERED,
          settings.numSocketsStreams.toUInt32,settings.numCycles.toUInt32,
          settings.timeBetweenCyclesUsec.toUInt32,"10.0.0.1".toList⟩ := by
  intro shared
  obtain ⟨count,found⟩ := getopt_clientArguments settings
  refine ⟨?_,?_,?_,sctp_decodes settings⟩
  · rw [Tcp.parse,found,List.foldl_append,List.foldl_append,foldl_unknown _ fun _ => rfl]
    simp [Socket.assign,atoi_decimal,shared]
  · rw [Udp.parse,found,List.foldl_append,List.foldl_append,foldl_unknown _ fun _ => rfl]
    simp [Socket.assignPaced,Socket.assign,atoi_decimal,shared]
  · rw [Dccp.parse,found,List.foldl_append,List.foldl_append,foldl_unknown _ fun _ => rfl]
    simp [Socket.assignPaced,Socket.assign,atoi_decimal,shared]

def deliveryFlags : Call → Option UInt32
  | .sctpSendmsg _ flags _ _ => some flags
  | _ => none

/-- Every message is sent unordered exactly if the settings ask for it. -/
def DeliversAsSet (settings : SimSettings) (calls : List Call) : Prop :=
  ∀ call ∈ calls, ∀ flags ∈ deliveryFlags call,
    flags &&& Sctp.SCTP_UNORDERED ≠ 0 ↔ settings.sctpUnordered ≠ 0

theorem pause_flags (timeBetweenCycles : UInt32) :
    ∀ call ∈ Sctp.pause timeBetweenCycles, deliveryFlags call = none := by
  intro call paused
  unfold Sctp.pause at paused
  split at paused
  · obtain rfl := List.mem_singleton.mp paused
    rfl
  · cases paused

theorem sctp_delivery (options : Sctp.Options) (garbage : Fin bufferSize → Char) (call : Call) (flags : UInt32)
    (made : call ∈ (Sctp.sendLoop options garbage).trace) (mode : deliveryFlags call = some flags) :
    flags = options.flags ∧ 0 < options.bytesToTransfer.toInt32.toInt ∧ 0 < options.numCycles.toNat := by
  rw [Sctp.sendLoop,Sctp.transfer,emits_eq,performs_called] at made
  have looped : call ∈ (cycles (emits (Sctp.send options.flags options.ttl)) options.numStreams.toNat
      options.bytesToTransfer.toInt32.toInt options.numCycles.toNat
      (emit (Sctp.pause options.timeBetweenCycles)) garbage).trace := by
    rcases (mem_bind _ _ _).mp made with looped | ⟨_,_,closed⟩
    · exact looped
    · obtain rfl := List.mem_singleton.mp closed
      cases mode
  constructor
  · refine ClientLoad.mem_cycles _ _ _ _ _ _
      (fun call => ∀ flags, deliveryFlags call = some flags → flags = options.flags) ?_ ?_ call looped flags mode
    · intro channel payload call sent flags mode
      obtain rfl := List.mem_singleton.mp sent
      exact (Option.some.inj mode).symm
    · intro call paused flags mode
      rw [pause_flags _ call paused] at mode
      cases mode
  · by_contra empty
    have paused := ClientLoad.mem_cycles_empty _ _ _ _ _ _ (by omega) call looped
    rw [pause_flags _ call paused] at mode
    cases mode

theorem toUInt32_positive (x : Int32) : 0 < x.toUInt32.toNat ↔ x ≠ 0 := by
  rw [Nat.pos_iff_ne_zero,not_iff_not]
  constructor
  · intro zero
    have same := congrArg UInt32.toInt32 (UInt32.toNat_inj.mp (zero.trans UInt32.toNat_zero.symm))
    simpa using same
  · rintro rfl
    rfl

/-- The first message of a transfer that has one goes out unordered: the simulator always
passes "-u", and the client takes the word behind it for an operand. -/
theorem first_delivery (settings : SimSettings) (garbage : Fin bufferSize → Char)
    (bytes : 0 < settings.transferDataBytes) (rounds : settings.numCycles ≠ 0) :
    ∃ call ∈ (Sctp.main (clientArguments settings) garbage).trace,
      deliveryFlags call = some Sctp.SCTP_UNORDERED := by
  obtain ⟨payload,sent⟩ := ClientLoad.first_message
    (Sctp.send Sctp.SCTP_UNORDERED settings.sctpTtlMs.toUInt32) settings.numSocketsStreams.toUInt32.toNat
    settings.transferDataBytes.toInt settings.numCycles.toUInt32.toNat
    (Sctp.pause settings.timeBetweenCyclesUsec.toUInt32) garbage
    (Int32.lt_iff_toInt_lt.mp bytes) ((toUInt32_positive _).mpr rounds)
  have first := sent _ (List.mem_singleton.mpr rfl)
  refine ⟨.sctpSendmsg payload Sctp.SCTP_UNORDERED 0 settings.sctpTtlMs.toUInt32,?_,rfl⟩
  rw [sctp_main,sctp_decodes,emit_bind,Sctp.sendLoop,Sctp.transfer,emits_eq,performs_called]
  exact List.mem_append_right _ ((mem_bind _ _ _).mpr (Or.inl first))

/-- The setting is the mode that is measured if it asks for unordered delivery, and
otherwise only where there is no message to send. -/
theorem delivers_as_set_iff (settings : SimSettings) (garbage : Fin bufferSize → Char) :
    DeliversAsSet settings (Sctp.main (clientArguments settings) garbage).trace ↔
      settings.sctpUnordered ≠ 0 ∨ settings.transferDataBytes ≤ 0 ∨ settings.numCycles = 0 := by
  have always : Sctp.SCTP_UNORDERED &&& Sctp.SCTP_UNORDERED ≠ 0 := by decide
  constructor
  · intro delivers
    by_contra! ordered
    obtain ⟨ordered,bytes,rounds⟩ := ordered
    obtain ⟨call,made,mode⟩ := first_delivery settings garbage (by simpa using bytes) rounds
    exact (delivers call made _ mode).mp always ordered
  · intro condition call member flags mode
    rw [sctp_main,sctp_decodes,emit_bind] at member
    rcases List.mem_append.mp member with opening | made
    · rcases List.mem_pair.mp opening with rfl | rfl <;> cases mode
    · obtain ⟨rfl,bytes,rounds⟩ := sctp_delivery _ garbage call flags made mode
      rcases condition with unordered | empty | none_left
      · exact iff_of_true always unordered
      · have bound : settings.transferDataBytes.toInt ≤ 0 := Int32.le_iff_toInt_le.mp empty
        exact absurd bytes (not_lt.mpr bound)
      · exact absurd none_left ((toUInt32_positive _).mp rounds)

/-- The settings of the main program of the simulator at the start of its sweep: ordered
delivery is asked for. -/
def orderedSettings : SimSettings := ⟨3,1048576,0,4,0,250,250,1,2000000⟩

theorem ordered_settings_sent_unordered :
    ¬DeliversAsSet orderedSettings (Sctp.main (clientArguments orderedSettings) fun _ => 'x').trace := by
  intro delivers
  obtain ⟨call,made,mode⟩ := first_delivery orderedSettings (fun _ => 'x') (by decide) (by decide)
  exact (delivers call made _ mode).mp (by decide) rfl

def Fits (a b : Int32) : Prop := (a * b).toInt = a.toInt * b.toInt

theorem fits_iff (a b : Int32) (first : 0 ≤ a.toInt) (second : 0 ≤ b.toInt) :
    Fits a b ↔ a.toInt * b.toInt < 2^31 := by
  constructor
  · intro fits
    rw [← fits]
    exact (a*b).toInt_lt
  · intro bound
    have product := mul_nonneg first second
    rw [Fits,Int32.toInt_mul]
    exact Int.bmod_eq_of_le (by omega) (by omega)

/-- The parser expects exactly what the clients are asked to send, and gets the number
without an overflow, if both products on the way are below 2^31. -/
theorem expected_data_exact_iff (protocol : Text) (settings : SimSettings)
    (clients : 0 ≤ settings.numberOfClients) (bytes : 0 ≤ settings.transferDataBytes)
    (rounds : 0 ≤ settings.numCycles) :
    ((resultParser protocol settings).expectedData =
        settings.numberOfClients.toInt * settings.transferDataBytes.toInt * settings.numCycles.toInt ∧
      Fits settings.transferDataBytes settings.numCycles ∧
      Fits settings.numberOfClients (settings.transferDataBytes * settings.numCycles)) ↔
    settings.transferDataBytes.toInt * settings.numCycles.toInt < 2^31 ∧
      settings.numberOfClients.toInt * (settings.transferDataBytes.toInt * settings.numCycles.toInt) < 2^31 := by
  have c : 0 ≤ settings.numberOfClients.toInt := Int32.le_iff_toInt_le.mp clients
  have d : 0 ≤ settings.transferDataBytes.toInt := Int32.le_iff_toInt_le.mp bytes
  have n : 0 ≤ settings.numCycles.toInt := Int32.le_iff_toInt_le.mp rounds
  have inner := fits_iff settings.transferDataBytes settings.numCycles d n
  have outer (fits : Fits settings.transferDataBytes settings.numCycles) :
      Fits settings.numberOfClients (settings.transferDataBytes * settings.numCycles) ↔
        settings.numberOfClients.toInt * (settings.transferDataBytes.toInt * settings.numCycles.toInt) < 2^31 := by
    rw [fits_iff _ _ c (by rw [fits]; exact mul_nonneg d n),fits]
  constructor
  · rintro ⟨_,first,second⟩
    exact ⟨inner.mp first,(outer first).mp second⟩
  · rintro ⟨first,second⟩
    have fits := inner.mpr first
    have fits' := (outer fits).mpr second
    refine ⟨?_,fits,fits'⟩
    change (((settings.numberOfClients * (settings.transferDataBytes * settings.numCycles)).toInt : Int) : ℚ) = _
    rw [fits',fits]
    push_cast
    ring

/-- The simulator's own settings at the start of its sweep. -/
theorem expected_data_one_megabyte :
    (resultParser "tcp".toList ⟨3,1048576,0,4,0,250,250,1,2000000⟩).expectedData = 3 * 1048576 * 1 :=
  ((expected_data_exact_iff "tcp".toList ⟨3,1048576,0,4,0,250,250,1,2000000⟩ (by decide) (by decide)
    (by decide)).mpr (by decide)).1

/-- The end of the sweep, 96 MiB, with 22 clients. -/
def manyClients : SimSettings := ⟨22,100663296,0,4,0,250,250,1,2000000⟩

theorem many_clients_expectation :
    (resultParser "tcp".toList manyClients).expectedData = -2080374784 ∧
      (resultParser "tcp".toList manyClients).expectedData ≠
        manyClients.numberOfClients.toInt * manyClients.transferDataBytes.toInt * manyClients.numCycles.toInt := by
  have product : (22 * (100663296 * 1) : Int32).toInt = -2080374784 := by decide
  have expected : (resultParser "tcp".toList manyClients).expectedData = ((-2080374784 : Int) : ℚ) := by
    rw [← product]
    rfl
  have clients : manyClients.numberOfClients.toInt = 22 := by decide
  have bytes : manyClients.transferDataBytes.toInt = 100663296 := by decide
  have rounds : manyClients.numCycles.toInt = 1 := by decide
  rw [expected,clients,bytes,rounds]
  norm_num

end ProtocolTests.Simulator
