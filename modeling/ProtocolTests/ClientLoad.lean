import ProtocolTests.Client
import ProtocolTests.Library.RoundRobin

/-! The load a client puts on its channels: which slice of the text every message
carries, and how the messages are dealt to the channels over all cycles. -/
namespace ProtocolTests.ClientLoad
open Library.CString Library.Programs Library.CallTrace Library.RoundRobin Sender Client

def width : Nat := 1024

def chunk (len j : Nat) : Text := slice (width*j) (min len (width*(j+1)))

/-- Message `k` of a whole run, with `len` characters in each cycle. -/
def message (len channels k : Nat) : Nat × Text := (k % channels,chunk len (k % chunks width len))

def load (len numCycles channels : Nat) : List (Nat × Text) :=
  (List.range (numCycles * chunks width len)).map (message len channels)

theorem chunk_length (len j : Nat) : (chunk len j).length = chunkSize width len j := slice_length _ _

variable (send : Nat → Text → List Call) (channels : Nat) (positive : 0 < channels)
include positive

/-- The inner loop from chunk `j` on sends the `count` chunks that are left, the channel
cursor moving on from wherever the cycles before left it. -/
theorem fillAndSend_chunks (len base count j fuel : Nat) (buffer : Text)
    (left : j + count = chunks width len) (enough : count < fuel) (room : buffer.length = bufferSize) :
    ∃ final, final.length = bufferSize ∧
      fillAndSend (emits send) channels fuel ⟨len,min len (width*j)⟩ buffer ((base+j) % channels) =
        ⟨(List.range' j count).flatMap (fun x => send ((base+x) % channels) (chunk len x)),
          some (final,(base + j + count) % channels)⟩ := by
  induction count generalizing j fuel buffer with
  | zero =>
    have finished := (chunks_spec width len j (by decide)).not.mp (by omega)
    obtain ⟨fuel,rfl⟩ := Nat.exists_eq_succ_of_ne_zero (by omega : fuel ≠ 0)
    refine ⟨buffer,room,?_⟩
    rw [fillAndSend,fill_done _ _ _ (by simp only; omega)]
    rfl
  | succ count ih =>
    have unfinished := (chunks_spec width len j (by decide)).mp (by omega)
    obtain ⟨fuel,rfl⟩ := Nat.exists_eq_succ_of_ne_zero (by omega : fuel ≠ 0)
    have here : min len (width*j) = width*j := by omega
    obtain ⟨next,filled,size,_,text⟩ := fill_chunk len width j buffer (by decide) (by rw [room]; decide) unfinished
    obtain ⟨final,last,rest⟩ := ih (j+1) fuel next (by omega) (by omega) (size.trans room)
    have cursor : ((base+j) % channels + 1) % channels = (base + (j+1)) % channels := by
      rw [Nat.mod_add_mod,Nat.add_assoc]
    refine ⟨final,last,?_⟩
    have filled' : SenderContent.fill ⟨len,width*j⟩ buffer bufferSize =
        some (true,⟨len,min len (width*(j+1))⟩,next) := filled
    rw [fillAndSend,here,filled',need_some_bind]
    simp only [if_true,emits,emit_bind,require_true (channels ≠ 0) (by omega),pure_bind,text,cursor,rest]
    rw [List.range'_succ,List.flatMap_cons,show base + (j+1) + count = base + j + (count+1) by omega]
    rfl

/-- What one cycle sends does not depend on the buffer that the cycle before left. -/
theorem fillAndSend_cycle (length : Int) (base : Nat) (buffer : Text) (room : buffer.length = bufferSize) :
    ∃ final, final.length = bufferSize ∧
      fillAndSend (emits send) channels ((SenderContent.create length).remaining + 1) (SenderContent.create length)
        buffer (base % channels) =
        ⟨(List.range' 0 (chunks width length.toNat)).flatMap
            (fun x => send ((base+x) % channels) (chunk length.toNat x)),
          some (final,(base + chunks width length.toNat) % channels)⟩ := by
  rcases Int.lt_or_le length 0 with negative | nonnegative
  · have nothing : length.toNat = 0 := by omega
    have none_left : chunks width 0 = 0 := by decide
    refine ⟨buffer,room,?_⟩
    rw [nothing,none_left,fillAndSend,fill_done _ _ _ (by simp only [SenderContent.create]; omega)]
    rfl
  · obtain ⟨len,rfl⟩ := Int.eq_ofNat_of_zero_le nonnegative
    have fits : chunks width len < SenderContent.remaining (SenderContent.create len) + 1 := by
      have bound := (chunks_spec width len len (by decide)).not.mpr (by unfold width; omega)
      simp only [SenderContent.remaining,SenderContent.create]
      omega
    obtain ⟨final,size,ran⟩ := fillAndSend_chunks send channels positive len base (chunks width len) 0 _ buffer
      (by omega) fits room
    refine ⟨final,size,?_⟩
    simpa [SenderContent.create] using ran

theorem cycles_calls (length : Int) (numCycles : Nat) (pause : List Call) (garbage : Fin bufferSize → Char) :
    ∃ final, cycles (emits send) channels length numCycles (emit pause) garbage =
      ⟨(List.range' 0 numCycles).flatMap (fun c => (List.range' 0 (chunks width length.toNat)).flatMap
          (fun x => send ((c * chunks width length.toNat + x) % channels) (chunk length.toNat x)) ++ pause),
        some final⟩ := by
  let holds (c : Nat) (state : Text × Nat) : Prop := state.1.length = bufferSize ∧
    state.2 = c * chunks width length.toNat % channels
  have start : holds 0 (List.ofFn garbage,0) := by simp [holds]
  have pass (c : Nat) (state : Text × Nat) (held : holds c state) :
      ∃ next, holds (c+1) next ∧ cycle (emits send) channels length (emit pause) state =
        ⟨(List.range' 0 (chunks width length.toNat)).flatMap
          (fun x => send ((c * chunks width length.toNat + x) % channels) (chunk length.toNat x)) ++ pause,
          some next⟩ := by
    obtain ⟨next,size,ran⟩ := fillAndSend_cycle send channels positive length
      (c * chunks width length.toNat) state.1 held.1
    refine ⟨(next,(c * chunks width length.toNat + chunks width length.toNat) % channels),⟨size,?_⟩,?_⟩
    · rw [Nat.succ_mul]
    · simp [cycle,held.2,ran]
  obtain ⟨final,_,ran⟩ := repeatFrom_complete _ _ holds pass 0 numCycles _ start
  exact ⟨final,ran⟩

omit positive in
theorem rounds_load (len numCycles : Nat) :
    (List.range' 0 numCycles).flatMap (fun c => (List.range' 0 (chunks width len)).map
      (fun x => ((c * chunks width len + x) % channels,chunk len x))) = load len numCycles channels := by
  induction numCycles with
  | zero => simp [load]
  | succ numCycles ih =>
    have later : (List.range (chunks width len)).map
          (fun x => message len channels (numCycles * chunks width len + x)) =
        (List.range' 0 (chunks width len)).map
          (fun x => ((numCycles * chunks width len + x) % channels,chunk len x)) := by
      rw [List.range_eq_range']
      apply List.map_congr_left
      intro x member
      have inside : x < chunks width len := by simpa using member
      rw [message,Nat.mul_add_mod',Nat.mod_eq_of_lt inside]
    rw [List.range'_1_concat,List.flatMap_append,ih,load,load,Nat.succ_mul,List.range_add,List.map_append,
      List.map_map]
    simpa [Function.comp_def] using later.symm

theorem cycles_load (sends : ∀ channel payload, messages (send channel payload) = [(channel,payload)])
    (length : Int) (numCycles : Nat) (pause : List Call) (silent : messages pause = [])
    (garbage : Fin bufferSize → Char) :
    messages (cycles (emits send) channels length numCycles (emit pause) garbage).trace =
      load length.toNat numCycles channels := by
  obtain ⟨final,ran⟩ := cycles_calls send channels positive length numCycles pause garbage
  simp only [messages] at sends silent ⊢
  rw [ran,← rounds_load]
  simp only [List.filterMap_flatMap,List.filterMap_append,sends,silent,List.append_nil,List.map_eq_flatMap]

omit positive

/-- What the messages of a run have to be: `numCycles` times the text of `len` characters,
in chunks of 1024, dealt to the channels in turn without a restart between the cycles. -/
structure Spreads (len numCycles channels : Nat) (sent : List (Nat × Text)) : Prop where
  count : sent.length = numCycles * chunks 1024 len
  nth : ∀ k < numCycles * chunks 1024 len, sent[k]? = some (k % channels,
    slice (1024 * (k % chunks 1024 len)) (min (1024 * (k % chunks 1024 len + 1)) len))
  inside : ∀ sending ∈ sent, sending.1 < channels
  whole : (sent.map fun sending => sending.2.length).sum = numCycles * len
  even : ∀ first < channels, ∀ second < channels,
    (sent.filter fun sending => sending.1 = first).length ≤
      (sent.filter fun sending => sending.1 = second).length + 1

theorem range_sum (n : Nat) (f : Nat → Nat) : ((List.range n).map f).sum = ∑ i ∈ Finset.range n, f i := by
  induction n with
  | zero => rfl
  | succ n ih => simp [List.range_succ,Finset.sum_range_succ,ih]

theorem load_total (len numCycles channels : Nat) :
    ((load len numCycles channels).map fun sending => sending.2.length).sum = numCycles * len := by
  simp only [load,List.map_map,Function.comp_def,message,chunk_length]
  rw [range_sum,sum_periodic,sum_chunks width len (by decide),nsmul_eq_mul,Nat.cast_id]

theorem load_share (len numCycles channels channel : Nat) :
    ((load len numCycles channels).filter fun sending => sending.1 = channel).length =
      share channels (numCycles * chunks width len) channel := by
  rw [load,List.filter_map,List.length_map,share]
  rfl

theorem load_spreads (len numCycles channels : Nat) (positive : 0 < channels) :
    Spreads len numCycles channels (load len numCycles channels) where
  count := by rw [load,List.length_map,List.length_range]; rfl
  nth := by
    intro k bound
    have entry := List.getElem?_range (n := numCycles * chunks width len) bound
    rw [load,List.getElem?_map,entry,Option.map_some,message,chunk,min_comm]
    rfl
  inside := by
    intro sending member
    obtain ⟨k,_,rfl⟩ := List.mem_map.mp member
    exact Nat.mod_lt k positive
  whole := load_total len numCycles channels
  even := by
    intro first a second b
    rw [load_share,load_share]
    exact share_balanced channels _ first second a b

theorem pause_silent (timeBetweenCycles : Int32) : messages (Socket.pause timeBetweenCycles) = [] := by
  unfold Socket.pause
  split <;> rfl

theorem close_silent (count : Nat) : messages (forChannels count fun channel => [.close channel]) = [] := by
  simp [messages,forChannels,List.filterMap_flatMap,Call.message?]

theorem messages_append (first second : List Call) :
    messages (first ++ second) = messages first ++ messages second := List.filterMap_append

theorem socket_load (send : Nat → Text → List Call)
    (sends : ∀ channel payload, messages (send channel payload) = [(channel,payload)])
    (options : Socket.Options) (numSockets : Int32) (garbage : Fin bufferSize → Char)
    (some_channel : 1 ≤ numSockets) :
    messages (Socket.sendLoop called (emits send) options numSockets garbage).trace =
      load options.bytesToTransfer.toInt32.toInt.toNat options.numCycles.toInt.toNat numSockets.toInt.toNat := by
  have positive : 0 < numSockets.toInt.toNat := by
    have bound := Int32.le_iff_toInt_le.mp some_channel
    have one : (1 : Int32).toInt = 1 := rfl
    omega
  have run := cycles_load send _ positive sends options.bytesToTransfer.toInt32.toInt
    options.numCycles.toInt.toNat _ (pause_silent options.timeBetweenCycles) garbage
  obtain ⟨final,completed⟩ := cycles_calls send _ positive options.bytesToTransfer.toInt32.toInt
    options.numCycles.toInt.toNat (Socket.pause options.timeBetweenCycles) garbage
  rw [Socket.sendLoop,performs_called,performs_called,bind_some _ _ final (by rw [completed]),messages_append,run,emit_trace,close_silent,
    List.append_nil]

theorem sctp_load (options : Sctp.Options) (garbage : Fin bufferSize → Char)
    (some_stream : 0 < options.numStreams.toNat) :
    messages (Sctp.sendLoop options garbage).trace =
      load options.bytesToTransfer.toInt32.toInt.toNat options.numCycles.toNat options.numStreams.toNat := by
  have silent : messages (Sctp.pause options.timeBetweenCycles) = [] := by
    unfold Sctp.pause
    split <;> rfl
  have run := cycles_load (Sctp.send options.flags options.ttl) _ some_stream (fun _ _ => rfl)
    options.bytesToTransfer.toInt32.toInt options.numCycles.toNat _ silent garbage
  obtain ⟨final,completed⟩ := cycles_calls (Sctp.send options.flags options.ttl) _ some_stream
    options.bytesToTransfer.toInt32.toInt options.numCycles.toNat (Sctp.pause options.timeBetweenCycles) garbage
  rw [Sctp.sendLoop,Sctp.transfer,emits_eq,performs_called,bind_some _ _ final (by rw [completed]),messages_append,run]
  exact List.append_nil _

theorem mem_cycles (send : Nat → Text → List Call) (channels : Nat) (length : Int) (numCycles : Nat)
    (pause : List Call) (garbage : Fin bufferSize → Char) (allowed : Call → Prop)
    (sending : ∀ channel payload, ∀ call ∈ send channel payload, allowed call)
    (pausing : ∀ call ∈ pause, allowed call) :
    ∀ call ∈ (cycles (emits send) channels length numCycles (emit pause) garbage).trace, allowed call := by
  have inner (fuel : Nat) : ∀ content buffer channel,
      ∀ call ∈ (fillAndSend (emits send) channels fuel content buffer channel).trace, allowed call := by
    induction fuel with
    | zero => simp [fillAndSend]
    | succ fuel ih =>
      intro content buffer channel call member
      rw [fillAndSend] at member
      rcases (mem_bind _ _ _).mp member with nothing | ⟨⟨more,content,buffer⟩,_,later⟩
      · simp at nothing
      · cases more with
        | false => simp at later
        | true =>
          simp only [if_true] at later
          rcases (mem_bind _ _ _).mp later with sent | ⟨_,_,later⟩
          · exact sending _ _ call sent
          · rcases (mem_bind _ _ _).mp later with nothing | ⟨_,_,later⟩
            · simp at nothing
            · exact ih _ _ _ call later
  apply mem_repeatFrom
  intro _ state call member
  rcases (mem_bind _ _ _).mp member with sent | ⟨_,_,later⟩
  · exact inner _ _ _ _ call sent
  · exact pausing call (by simpa using later)

theorem mem_cycles_empty (send : Nat → Text → List Call) (channels : Nat) (length : Int) (numCycles : Nat)
    (pause : List Call) (garbage : Fin bufferSize → Char) (empty : length ≤ 0 ∨ numCycles = 0) :
    ∀ call ∈ (cycles (emits send) channels length numCycles (emit pause) garbage).trace, call ∈ pause := by
  rcases empty with empty | rfl
  · apply mem_repeatFrom
    intro _ state call member
    rw [cycle,fillAndSend,fill_done _ _ _ (by simpa [SenderContent.create] using empty)] at member
    simpa using member
  · simp [cycles,repeatFrom]

theorem first_message (send : Nat → Text → List Call) (channels : Nat) (length : Int) (numCycles : Nat)
    (pause : List Call) (garbage : Fin bufferSize → Char) (some_text : 0 < length) (some_cycle : 0 < numCycles) :
    ∃ payload, ∀ call ∈ send 0 payload, call ∈ (cycles (emits send) channels length numCycles (emit pause) garbage).trace := by
  obtain ⟨len,rfl⟩ := Int.eq_ofNat_of_zero_le (le_of_lt some_text)
  obtain ⟨more,rfl⟩ := Nat.exists_eq_succ_of_ne_zero (by omega : numCycles ≠ 0)
  obtain ⟨next,filled,_⟩ := fill_chunk len width 0 (List.ofFn garbage) (by decide)
    (by rw [List.length_ofFn]; decide) (by omega)
  refine ⟨next.take (strlen next),fun call member => ?_⟩
  have filled' : (SenderContent.create len).fill (List.ofFn garbage) bufferSize =
      some (true,⟨len,min len (width*(0+1))⟩,next) := filled
  apply (mem_bind _ _ _).mpr
  refine Or.inl ((mem_bind _ _ _).mpr (Or.inl ?_))
  simp only [fillAndSend,filled',need_some_bind,if_true]
  exact (mem_bind _ _ _).mpr (Or.inl member)

theorem toUInt32_toNat (x : Int32) (nonnegative : 0 ≤ x) : x.toUInt32.toNat = x.toInt.toNat :=
  Int32.toNat_toUInt32_of_le nonnegative

/-- Every client cuts any number of bytes into the same chunks and deals them to its
channels in turn, over all cycles together. The options that are not named are arbitrary. -/
theorem clients_spread (bytes numCycles numChannels : Int32) (garbage : Fin bufferSize → Char)
    (some_channel : 1 ≤ numChannels) (cyclic : 0 ≤ numCycles)
    (options : Socket.Options) (sctp : Sctp.Options) :
    let given := {options with bytesToTransfer := bytes.toUInt32, numCycles := numCycles}
    let givenSctp :=
      {sctp with
        bytesToTransfer := bytes.toUInt32
        numCycles := numCycles.toUInt32
        numStreams := numChannels.toUInt32}
    let Spread := Spreads bytes.toInt.toNat numCycles.toInt.toNat numChannels.toInt.toNat
    Spread (messages (Tcp.sendLoop given numChannels garbage).trace) ∧
      Spread (messages (Udp.sendLoop given numChannels garbage).trace) ∧
      Spread (messages (Dccp.sendLoop given numChannels garbage).trace) ∧
      Spread (messages (Sctp.sendLoop givenSctp garbage).trace) := by
  intro given givenSctp Spread
  have positive : 0 < numChannels.toInt.toNat := by
    have bound := Int32.le_iff_toInt_le.mp some_channel
    have one : (1 : Int32).toInt = 1 := rfl
    omega
  have spread := load_spreads bytes.toInt.toNat numCycles.toInt.toNat _ positive
  have nonnegative : 0 ≤ numChannels := Int32.le_trans (by decide) some_channel
  have streams := toUInt32_toNat numChannels nonnegative
  have rounds := toUInt32_toNat numCycles cyclic
  refine ⟨?_,?_,?_,?_⟩
  · rw [Tcp.sendLoop,socket_load _ (fun _ _ => rfl) _ _ _ some_channel]
    exact spread
  · rw [Udp.sendLoop,socket_load _ (fun _ _ => rfl) _ _ _ some_channel]
    exact spread
  · rw [Dccp.sendLoop,socket_load _ (fun _ _ => rfl) _ _ _ some_channel]
    exact spread
  · rw [sctp_load givenSctp garbage (by rw [streams]; exact positive),streams,rounds]
    exact spread

theorem clients_spread_short_chunk :
    Spreads 1500 3 2 (messages (Tcp.sendLoop {bytesToTransfer := 1500, numCycles := 3} 2 fun _ => 'x').trace) :=
  (clients_spread 1500 3 2 (fun _ => 'x') (by decide) (by decide) {} {}).1

end ProtocolTests.ClientLoad
