import ProtocolTests.ClientLoad

/-! How many bytes the channels of a client get. The messages are balanced, and what they
lack of 1024 characters falls on the channels that the last chunks of the cycles go to. -/
namespace ProtocolTests.ByteBalance
open Library.CString Library.RoundRobin Client ClientLoad

def sentBytes (channel : Nat) (sent : List (Nat × Text)) : Nat :=
  ((sent.filter fun sending => sending.1 = channel).map fun sending => sending.2.length).sum

/-- No channel gets more than one full chunk more than another. -/
def Even (channels : Nat) (sent : List (Nat × Text)) : Prop :=
  ∀ first < channels, ∀ second < channels, sentBytes first sent ≤ sentBytes second sent + 1024

/-- No channel that gets one message more gets fewer of the short ones; and where all get
equally many, the short ones go around, or lack one full chunk at most. -/
def ShortChunksAgree (len numCycles channels : Nat) : Prop :=
  (∀ first second, first < numCycles * chunks 1024 len % channels →
    numCycles * chunks 1024 len % channels ≤ second → second < channels →
    lastShare channels (chunks 1024 len) numCycles second ≤ lastShare channels (chunks 1024 len) numCycles first) ∧
  (channels ∣ numCycles * chunks 1024 len → Nat.Coprime (chunks 1024 len) channels ∨
    shortfall 1024 len * (numCycles * chunks 1024 len / Nat.lcm (chunks 1024 len) channels) ≤ 1024)

theorem load_bytes (len numCycles channels channel : Nat) :
    sentBytes channel (load len numCycles channels) +
        shortfall 1024 len * lastShare channels (chunks 1024 len) numCycles channel =
      1024 * share channels (numCycles * chunks 1024 len) channel := by
  have chunked : ∀ k ∈ (List.range (numCycles * chunks 1024 len)).filter fun k => k % channels = channel,
      k % chunks 1024 len < chunks 1024 len := by
    intro k member
    have inside := List.mem_range.mp (List.mem_filter.mp member).1
    exact Nat.mod_lt k (Nat.pos_of_mul_pos_left (Nat.zero_lt_of_lt inside))
  have dealt := sum_dealt 1024 len (by decide) _ chunked
  have lasts : lastShare channels (chunks 1024 len) numCycles channel =
      (((List.range (numCycles * chunks 1024 len)).filter fun k => k % channels = channel).filter
        fun k => k % chunks 1024 len + 1 = chunks 1024 len).length := by
    rw [lastShare,List.filter_filter]
    exact congrArg List.length (List.filter_congr fun k _ => by rw [Bool.decide_and,Bool.and_comm])
  rw [share,← dealt,lasts,sentBytes,load,List.filter_map,List.map_map]
  simp only [Function.comp_def,message,chunk_length]
  rfl

theorem load_dealt (len numCycles channels channel : Nat) (inside : channel < channels) :
    sentBytes channel (load len numCycles channels) +
        shortfall 1024 len * lastShare channels (chunks 1024 len) numCycles channel =
      1024 * (numCycles * chunks 1024 len / channels) +
        if channel < numCycles * chunks 1024 len % channels then 1024 else 0 := by
  rw [load_bytes,share_eq _ _ _ inside]
  split <;> omega

section balance
variable (len numCycles channels : Nat) (positive : 0 < channels)
include positive

/-- How many short chunks two channels get differs little wherever the bytes are even. -/
theorem shorts_close (some_text : 0 < chunks 1024 len) (agree : ShortChunksAgree len numCycles channels)
    (first second : Nat) (a : first < channels) :
    shortfall 1024 len * lastShare channels (chunks 1024 len) numCycles second ≤
      shortfall 1024 len * lastShare channels (chunks 1024 len) numCycles first + 1024 := by
  have small := shortfall_lt 1024 len (by decide)
  obtain ⟨upper,exact_upper⟩ := @lastShare_le channels _ second numCycles (Nat.lcm_pos some_text positive)
  by_cases coprime : Nat.Coprime (chunks 1024 len) channels
  · have lower := lastShare_coprime numCycles some_text a coprime
    have more := Nat.mul_le_mul_left (shortfall 1024 len) (upper.trans (Nat.add_le_add_right lower 1))
    rw [Nat.mul_succ] at more
    omega
  · by_cases divides : channels ∣ numCycles * chunks 1024 len
    · have common := exact_upper (Nat.lcm_dvd (Nat.dvd_mul_left _ _) divides)
      have more := Nat.mul_le_mul_left (shortfall 1024 len) common
      rcases agree.2 divides with contradicted | bound
      · exact absurd contradicted coprime
      · omega
    · -- The last channel is behind the remainder and gets no more short chunks than the first.
      have some_over := Nat.pos_of_ne_zero fun none_over => divides (Nat.dvd_of_mod_eq_zero none_over)
      have over_lt := Nat.mod_lt (numCycles * chunks 1024 len) positive
      have last := agree.1 0 (channels-1) some_over (by omega) (by omega)
      have reached := @lastShare_top channels _ numCycles positive some_text
      have none_first := lastShare_first numCycles coprime
      have single : lastShare channels (chunks 1024 len) numCycles second ≤ 1 := by omega
      have more := Nat.mul_le_mul_left (shortfall 1024 len) single
      omega

theorem shorts_agree (lacking : 0 < shortfall 1024 len) (even : Even channels (load len numCycles channels)) :
    ShortChunksAgree len numCycles channels := by
  constructor
  · intro first second ahead behind inside
    have more := load_dealt len numCycles channels first (by omega)
    have fewer := load_dealt len numCycles channels second inside
    have bound := even first (by omega) second inside
    rw [if_pos ahead] at more
    rw [if_neg (Nat.not_lt_of_le behind)] at fewer
    exact Nat.le_of_mul_le_mul_left (by omega) lacking
  · intro divides
    by_cases coprime : Nat.Coprime (chunks 1024 len) channels
    · exact Or.inl coprime
    · have some_text : 0 < chunks 1024 len := by
        apply Nat.pos_of_ne_zero
        intro none_left
        rw [shortfall,none_left] at lacking
        omega
      have bound := even 0 positive (channels-1) (by omega)
      have most := load_dealt len numCycles channels 0 positive
      have least := load_dealt len numCycles channels (channels-1) (by omega)
      have reached := Nat.mul_le_mul_left (shortfall 1024 len)
        (@lastShare_top channels _ numCycles positive some_text)
      rw [lastShare_first numCycles coprime,Nat.mod_eq_zero_of_dvd divides,if_neg (Nat.not_lt_zero _)] at most
      rw [Nat.mod_eq_zero_of_dvd divides,if_neg (Nat.not_lt_zero _)] at least
      exact Or.inr (by omega)

theorem load_even (agree : ShortChunksAgree len numCycles channels) : Even channels (load len numCycles channels) := by
  intro first a second b
  have mine := load_dealt len numCycles channels first a
  have other := load_dealt len numCycles channels second b
  rcases Nat.eq_zero_or_pos (chunks 1024 len) with nothing | some_text
  · rw [nothing,Nat.mul_zero,Nat.zero_mod,Nat.zero_div,if_neg (Nat.not_lt_zero _)] at mine
    omega
  · have close := shorts_close len numCycles channels positive some_text agree first second a
    split at mine <;> split at other
    next => omega
    next ahead behind =>
      have fewer := Nat.mul_le_mul_left (shortfall 1024 len) (agree.1 first second ahead (by omega) b)
      omega
    next => omega
    next => omega

theorem load_even_iff : Even channels (load len numCycles channels) ↔
    1024 ∣ len ∨ ShortChunksAgree len numCycles channels := by
  rw [← shortfall_eq_zero 1024 len (by decide)]
  constructor
  · intro even
    rcases Nat.eq_zero_or_pos (shortfall 1024 len) with full | lacking
    · exact Or.inl full
    · exact Or.inr (shorts_agree len numCycles channels positive lacking even)
  · rintro (full | agree)
    · intro first a second b
      have mine := load_dealt len numCycles channels first a
      have other := load_dealt len numCycles channels second b
      rw [full] at mine other
      split at mine <;> split at other <;> omega
    · exact load_even len numCycles channels positive agree

theorem load_bound (first second : Nat) (a : first < channels) (b : second < channels) :
    sentBytes first (load len numCycles channels) ≤ sentBytes second (load len numCycles channels) + 1024 +
      shortfall 1024 len * (numCycles * chunks 1024 len / Nat.lcm (chunks 1024 len) channels + 1) := by
  have mine := load_bytes len numCycles channels first
  have other := load_bytes len numCycles channels second
  have messages := share_balanced channels (numCycles * chunks 1024 len) first second a b
  rcases Nat.eq_zero_or_pos (chunks 1024 len) with nothing | some_text
  · have full : shortfall 1024 len = 0 := by
      rw [shortfall,nothing]
      omega
    rw [full] at mine other
    omega
  · have shorts := Nat.mul_le_mul_left (shortfall 1024 len)
      (@lastShare_le channels _ second numCycles (Nat.lcm_pos some_text positive)).1
    omega

end balance

/-- What a whole run comes to: a bound for every run, and the runs that stay within one
full chunk. -/
structure Balanced (len numCycles channels : Nat) (sent : List (Nat × Text)) : Prop where
  messages : ∀ first < channels, ∀ second < channels,
    (sent.filter fun sending => sending.1 = first).length ≤
      (sent.filter fun sending => sending.1 = second).length + 1
  bytes : ∀ first < channels, ∀ second < channels, sentBytes first sent ≤ sentBytes second sent + 1024 +
    shortfall 1024 len * (numCycles * chunks 1024 len / Nat.lcm (chunks 1024 len) channels + 1)
  even : Even channels sent ↔ 1024 ∣ len ∨ ShortChunksAgree len numCycles channels

theorem load_balanced (len numCycles channels : Nat) (positive : 0 < channels) :
    Balanced len numCycles channels (load len numCycles channels) where
  messages := (load_spreads len numCycles channels positive).even
  bytes first a second b := load_bound len numCycles channels positive first second a b
  even := load_even_iff len numCycles channels positive

theorem clients_balanced (options : Socket.Options) (numSockets : Int32) (sctp : Sctp.Options)
    (garbage : Fin bufferSize → Char) (some_socket : 1 ≤ numSockets) (some_stream : 1 ≤ sctp.numStreams) :
    let Balance := Balanced options.bytesToTransfer.toInt32.toInt.toNat options.numCycles.toInt.toNat
      numSockets.toInt.toNat
    Balance (messages (Tcp.sendLoop options numSockets garbage).trace) ∧
      Balance (messages (Udp.sendLoop options numSockets garbage).trace) ∧
      Balance (messages (Dccp.sendLoop options numSockets garbage).trace) ∧
      Balanced sctp.bytesToTransfer.toInt32.toInt.toNat sctp.numCycles.toNat sctp.numStreams.toNat
        (messages (Sctp.sendLoop sctp garbage).trace) := by
  intro Balance
  have sockets : 0 < numSockets.toInt.toNat := by
    have bound := Int32.le_iff_toInt_le.mp some_socket
    have one : (1 : Int32).toInt = 1 := rfl
    omega
  have streams : 0 < sctp.numStreams.toNat := UInt32.le_iff_toNat_le.mp some_stream
  have balance := load_balanced options.bytesToTransfer.toInt32.toInt.toNat options.numCycles.toInt.toNat _ sockets
  refine ⟨?_,?_,?_,?_⟩
  · rw [Tcp.sendLoop,socket_load _ (fun _ _ => rfl) _ _ _ some_socket]
    exact balance
  · rw [Udp.sendLoop,socket_load _ (fun _ _ => rfl) _ _ _ some_socket]
    exact balance
  · rw [Dccp.sendLoop,socket_load _ (fun _ _ => rfl) _ _ _ some_socket]
    exact balance
  · rw [sctp_load sctp garbage streams]
    exact load_balanced _ _ _ streams

theorem clients_balanced_five_bytes :
    Balanced 5 1 2 (messages (Tcp.sendLoop {bytesToTransfer := 5} 2 fun _ => 'x').trace) :=
  (clients_balanced {bytesToTransfer := 5} 2 {} (fun _ => 'x') (by decide) (by decide)).1

/-- 1025 bytes twice on two sockets: the first gets both full chunks, the second the two
single bytes. -/
theorem bytes_uneven :
    ¬Even 2 (messages (Tcp.sendLoop {bytesToTransfer := 1025,numCycles := 2} 2 fun _ => 'x').trace) := by
  rw [Tcp.sendLoop,socket_load _ (fun _ _ => rfl) _ _ _ (by decide)]
  intro even
  have first := load_bytes 1025 2 2 0
  have second := load_bytes 1025 2 2 1
  have fullChunks : share 2 (2 * chunks 1024 1025) 0 = 2 ∧ share 2 (2 * chunks 1024 1025) 1 = 2 := by decide
  have shortChunks : lastShare 2 (chunks 1024 1025) 2 0 = 0 ∧ lastShare 2 (chunks 1024 1025) 2 1 = 2 := by decide
  have lack : shortfall 1024 1025 = 1023 := by decide
  rw [fullChunks.1,shortChunks.1] at first
  rw [fullChunks.2,shortChunks.2,lack] at second
  have bound : sentBytes 0 (load 1025 2 2) ≤ sentBytes 1 (load 1025 2 2) + 1024 :=
    even 0 (by decide) 1 (by decide)
  omega

end ProtocolTests.ByteBalance
