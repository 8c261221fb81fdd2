import ProtocolTests.TranscriptFrames
import Mathlib.Data.List.Induction
import Mathlib.Tactic.Linarith
import Mathlib.Tactic.Ring

/-! The totals of a whole transcript, and where the program's counters end. -/
namespace ProtocolTests.TranscriptTotals
open Library.CString ProtocolTests.Parser Transcript TranscriptFrames

def span (frames : List Frame) : ℚ :=
  match frames.head?, frames.getLast? with
  | some first, some last => last.epoch - first.epoch
  | _, _ => 0

def bytes (frame : Frame) : Nat := frame.payloads.sum

def chunkCount (protocol : Text) (frames : List Frame) : Nat :=
  if protocol = "sctp".toList then (frames.map fun frame => frame.payloads.length).sum else 0

structure Tallied (protocol : Text) (frames : List Frame) (parser : DataParser) : Prop where
  packetCounter : parser.packetCounter.toInt = frames.length
  totalUsefulData : parser.totalUsefulData = ((frames.map bytes).sum : Nat)
  totalData : parser.totalData = some (frames.map Frame.length).sum
  totalTime : parser.totalTime = some (span frames)
  dataChunks : parser.dataChunks.toInt = chunkCount protocol frames
  timeFix : parser.timeFix = some ((frames.head?.map Frame.epoch).getD (-1))
  protocol : parser.protocol = protocol

theorem add_toInt (first second : Int32) (m n : Nat) (a : first.toInt = m) (b : second.toInt = n)
    (small : m + n < 2^31) : (first + second).toInt = (m + n : Nat) := by
  rw [Int32.toInt_add,a,b,Nat.cast_add]
  exact Int.bmod_eq_of_le (by omega) (by omega)

theorem sum_toInt (payloads : List Nat) (start : Int32) (m : Nat) (begun : start.toInt = m)
    (small : m + payloads.sum < 2^31) :
    ((payloads.map fun size : Nat => truncate size).foldl (· + ·) start).toInt = (m + payloads.sum : Nat) := by
  induction payloads generalizing start m with
  | nil => simpa using begun
  | cons size payloads ih =>
    rw [List.sum_cons] at small ⊢
    have added := add_toInt start (truncate size) m size begun (truncate_natCast size (by omega)) (by omega)
    rw [List.map_cons,List.foldl_cons,ih _ (m+size) added (by omega),Nat.add_assoc]

theorem dataLength_toInt (frame : Frame) (small : bytes frame < 2^31) : frame.dataLength.toInt = bytes frame := by
  have sum := sum_toInt frame.payloads 0 0 rfl (by simpa [bytes] using small)
  rw [Nat.zero_add] at sum
  exact sum

theorem count_toInt (payloads : List Nat) (small : payloads.length < 2^31) :
    (payloads.foldl (fun count _ => count + 1) (0 : Int32)).toInt = payloads.length := by
  induction payloads using List.reverseRecOn with
  | nil => rfl
  | append_singleton payloads size ih =>
    rw [List.length_append,List.length_singleton] at small ⊢
    rw [List.foldl_append]
    exact add_toInt _ 1 _ 1 (ih (by omega)) rfl small

theorem dataChunkCount_toInt (protocol : Text) (frame : Frame) (small : chunkCount protocol [frame] < 2^31) :
    (frame.dataChunkCount protocol).toInt = chunkCount protocol [frame] := by
  unfold Frame.dataChunkCount
  unfold chunkCount at small ⊢
  by_cases sctp : protocol = "sctp".toList
  · simp only [sctp,if_true,List.map_cons,List.map_nil,List.sum_singleton] at small ⊢
    exact count_toInt frame.payloads small
  · have none_counted (payloads : List Nat) : payloads.foldl (fun count _ => count) (0 : Int32) = 0 := by
      induction payloads with
      | nil => rfl
      | cons _ _ ih => exact ih
    simp only [sctp,if_false,none_counted]
    rfl

theorem tallied_concat (protocol : Text) (frames : List Frame) (frame : Frame) (parser : DataParser)
    (tallied : Tallied protocol frames parser) (positive : ∀ first ∈ frames, 0 ≤ first.epoch)
    (few : frames.length + 1 < 2^31) (small : bytes frame < 2^31)
    (chunks : chunkCount protocol (frames ++ [frame]) < 2^31) :
    Tallied protocol (frames ++ [frame]) (tally parser frame) := by
  have apart : chunkCount protocol (frames ++ [frame]) = chunkCount protocol frames + chunkCount protocol [frame] := by
    unfold chunkCount
    split <;> simp
  have time : (if parser.timeFix = some (-1) then some frame.epoch else parser.timeFix) =
      some (((frames ++ [frame]).head?.map Frame.epoch).getD (-1)) := by
    cases frames with
    | nil => simp [tallied.timeFix]
    | cons first more =>
      have late : first.epoch ≠ -1 := by
        have bound := positive first List.mem_cons_self
        linarith
      simp [tallied.timeFix,late]
  refine ⟨?_,?_,?_,?_,?_,time,tallied.protocol⟩
  · rw [List.length_append,List.length_singleton]
    exact add_toInt _ 1 _ 1 tallied.packetCounter rfl few
  · simp only [tally,DataParser.update,tallied.totalUsefulData,dataLength_toInt frame small]
    rw [List.map_append,List.sum_append,List.map_singleton,List.sum_singleton]
    push_cast
    ring
  · simp only [tally,DataParser.update,tallied.totalData]
    rw [List.map_append,List.sum_append,List.map_singleton,List.sum_singleton]
    rfl
  · simp only [tally,DataParser.update]
    rw [time]
    have last : (frames ++ [frame]).getLast? = some frame := List.getLast?_concat
    cases frames with
    | nil => simp [Double.sub,span]
    | cons first more =>
      rw [span,last]
      simp [Double.sub]
  · rw [apart] at chunks ⊢
    have count : (frame.dataChunkCount parser.protocol).toInt = chunkCount protocol [frame] := by
      rw [tallied.protocol]
      exact dataChunkCount_toInt protocol frame (by omega)
    exact add_toInt _ _ _ _ tallied.dataChunks count chunks

theorem tallied_foldl (protocol : Text) (parser : DataParser) (fresh : Tallied protocol [] parser)
    (frames : List Frame) (positive : ∀ frame ∈ frames, 0 ≤ frame.epoch) (few : frames.length < 2^31)
    (small : ∀ frame ∈ frames, bytes frame < 2^31) (chunks : chunkCount protocol frames < 2^31) :
    Tallied protocol frames (frames.foldl tally parser) := by
  induction frames using List.reverseRecOn with
  | nil => exact fresh
  | append_singleton frames frame ih =>
    rw [List.length_append,List.length_singleton] at few
    have fewer : chunkCount protocol frames ≤ chunkCount protocol (frames ++ [frame]) := by
      unfold chunkCount
      split
      · simp
      · exact le_refl _
    have before := ih (fun other member => positive other (List.mem_append_left _ member)) (by omega)
      (fun other member => small other (List.mem_append_left _ member)) (by omega)
    rw [List.foldl_append,List.foldl_cons,List.foldl_nil]
    exact tallied_concat protocol frames frame _ before
      (fun other member => positive other (List.mem_append_left _ member)) few (small frame (by simp)) chunks

theorem printed_epoch (frames : List Frame) (k : Nat) (printed : PrintedFrom k frames) :
    ∀ frame ∈ frames, 0 ≤ frame.epoch := by
  induction frames generalizing k with
  | nil => simp
  | cons frame frames ih =>
    intro other member
    rcases List.mem_cons.mp member with rfl | later
    · exact printed.1.epoch.2
    · exact ih (k+1) printed.2 other later

/-- Every well-formed transcript gives the totals of the frames that carry the protocol and
are no heartbeats, as long as the program's counters stay in the range of an `int`. -/
theorem transcript_totals (protocol : Text) (expectedData numClients numberOfStreamsPerClient : Int32)
    (frames : List Frame) (printed : PrintedFrom 1 frames) (few : frames.length < 2^31)
    (small : ∀ frame ∈ frames, frame.Carries protocol → bytes frame < 2^31)
    (chunks : chunkCount protocol (frames.filter fun frame => frame.Carries protocol) < 2^31) :
    Tallied protocol (frames.filter fun frame => frame.Carries protocol)
      ((DataParser.create protocol expectedData numClients numberOfStreamsPerClient).packetExtractor
        (transcript frames)) := by
  have fresh : Tallied protocol [] (.create protocol expectedData numClients numberOfStreamsPerClient) := by
    refine ⟨rfl,?_,rfl,rfl,?_,rfl,rfl⟩
    · simp [DataParser.create]
    · simp [DataParser.create,chunkCount]
  rw [packetExtractor_eq _ frames printed few]
  have shorter := List.length_filter_le (fun frame : Frame => decide (frame.Carries protocol)) frames
  refine tallied_foldl protocol _ fresh _ ?_ (by omega) ?_ chunks
  · exact fun frame member => printed_epoch frames 1 printed frame (List.mem_filter.mp member).1
  · exact fun frame member =>
      small frame (List.mem_filter.mp member).1 (of_decide_eq_true (List.mem_filter.mp member).2)

def headerLine (k : Nat) : Text := "Frame ".toList ++ headerWord k

def protocolsLine : Text := "[Protocols in frame: sctp]".toList

def epochLine : Text := "Epoch Time: 0".toList

def lengthLine : Text := "Frame Length: 1".toList

def dataLine (size : Nat) : Text := "Data (".toList ++ Nat.toDigits 10 size ++ " bytes)".toList

def contentLine : Text := "    Data: 61".toList

/-- Frames of SCTP alone, with data of the given sizes. -/
def plainFrame (sizes : List Nat) (k : Nat) : Frame where
  header := headerLine k
  body := protocolsLine :: epochLine :: lengthLine :: sizes.flatMap fun size => [dataLine size,contentLine]
  tokens := ["sctp".toList]
  epoch := 0
  length := 1
  payloads := sizes

def plainFrames (sizes : List Nat) (k n : Nat) : List Frame := (List.range' k n).map (plainFrame sizes)

theorem words_data (size : Nat) :
    words (dataLine size) = ["Data".toList,'(' :: Nat.toDigits 10 size,"bytes)".toList] := by
  have letters : ∀ c ∈ '(' :: Nat.toDigits 10 size, isSpace c = false := by
    intro c member
    rcases List.mem_cons.mp member with rfl | digit
    · rfl
    · exact digit_not_space (toDigits_digit digit)
  have shape : dataLine size = "Data".toList ++ ' ' :: (('(' :: Nat.toDigits 10 size) ++ ' ' :: "bytes)".toList) := rfl
  calc words (dataLine size)
      = words ("Data".toList ++ ' ' :: (('(' :: Nat.toDigits 10 size) ++ ' ' :: "bytes)".toList)) := congrArg words shape
    _ = words "Data".toList ++ (words ('(' :: Nat.toDigits 10 size) ++ words "bytes)".toList) := by
      rw [words_append _ _ _ rfl,words_append _ _ _ rfl]
    _ = _ := by
      rw [words_single _ (by simp) letters]
      rfl

@[simp] theorem key_protocols : key protocolsLine = .protocols := by decide

@[simp] theorem key_epoch : key epochLine = .epochTime := by decide

@[simp] theorem key_length_line : key lengthLine = .frameLength := by decide

@[simp] theorem key_content : key contentLine = .other := by decide

@[simp] theorem key_data (size : Nat) : key (dataLine size) = .data := by
  have first : extract (fun _ => []) (dataLine size) 0 = "Data".toList := by
    simp only [extract,words_data]
    rfl
  rw [key,classify_eq _ (by rw [first]; decide),first]
  rfl

section lines
variable {sizes : List Nat} {line : Text}

theorem mem_body {k : Nat} (member : line ∈ (plainFrame sizes k).body) : line = protocolsLine ∨ line = epochLine ∨
    line = lengthLine ∨ (∃ size, line = dataLine size) ∨ line = contentLine := by
  simp only [plainFrame,List.mem_cons,List.mem_flatMap,List.not_mem_nil,or_false] at member
  rcases member with first | second | third | ⟨size,_,data | content⟩
  · exact Or.inl first
  · exact Or.inr (Or.inl second)
  · exact Or.inr (Or.inr (Or.inl third))
  · exact Or.inr (Or.inr (Or.inr (Or.inl ⟨size,data⟩)))
  · exact Or.inr (Or.inr (Or.inr (Or.inr content)))

theorem filter_data (sizes : List Nat) : (sizes.flatMap fun size => [dataLine size,contentLine]).filter
    (fun line => key line = .data) = sizes.map dataLine := by
  induction sizes with
  | nil => rfl
  | cons size sizes ih =>
    rw [List.flatMap_cons,List.filter_append,ih]
    simp

theorem filter_other (kind : Key) (data : kind ≠ .data) (other : kind ≠ .other) (sizes : List Nat) :
    (sizes.flatMap fun size => [dataLine size,contentLine]).filter (fun line => key line = kind) = [] := by
  induction sizes with
  | nil => rfl
  | cons size sizes ih =>
    rw [List.flatMap_cons,List.filter_append,ih]
    simp [data.symm,other.symm]

end lines

theorem header_not_length (n : Int) : headerWord n ≠ "Length:".toList := by
  obtain ⟨d,rest,shape,digit⟩ := toDigits_head n.natAbs
  unfold headerWord decimal
  split
  · simp
  · rw [shape]
    rintro same
    rw [show d = 'L' from (List.cons.inj same).1] at digit
    exact absurd digit (by decide)

theorem plainFrame_printed (sizes : List Nat) (k : Nat) : Printed k (plainFrame sizes k) where
  header := by
    have letters : ∀ c ∈ headerWord k, isSpace c = false := by
      intro c member
      rcases List.mem_append.mp member with digit | colon
      · exact digit_not_space (toDigits_digit digit)
      · rw [List.mem_singleton.mp colon]
        rfl
    refine ⟨[],?_⟩
    calc words (headerLine k) = words ("Frame".toList ++ ' ' :: headerWord k) := rfl
      _ = words "Frame".toList ++ [headerWord k] := by
        rw [words_append _ _ _ rfl,words_single _ (by simp [headerWord]) letters]
  complete := by
    intro line member
    rcases mem_body member with rfl | rfl | rfl | ⟨size,rfl⟩ | rfl
    · exact ⟨_,_,rfl,by decide⟩
    · exact ⟨_,_,rfl,by decide⟩
    · exact ⟨_,_,rfl,by decide⟩
    · exact ⟨_,_,words_data size,le_of_eq_of_le (by decide : needed "Data".toList = 2) (by simp)⟩
    · exact ⟨_,_,rfl,by decide⟩
  protocols := by
    simp [plainFrame,filter_other]
    rfl
  tokens := ⟨by simp [plainFrame],by simp [plainFrame]⟩
  epoch := by
    have value : atof (word epochLine 2) = 0 := atof_toDigits 0
    simp [epochs,plainFrame,filter_other,value]
  length := by
    have value : atof (word lengthLine 2) = 1 := by exact_mod_cast atof_toDigits 1
    simp [lengths,plainFrame,filter_other,value]
  payloads := by
    simp [plainFrame,filter_data,words_data]
  followed := by
    refine followed_cons (by simp) (followed_cons (by simp) (followed_cons (by simp) ?_))
    induction sizes with
    | nil => exact fun before line after shape => absurd shape (by simp)
    | cons size sizes ih => exact followed_data key_content ih
  inner := by
    intro before line after shape kind
    cases before with
    | nil =>
      rw [← (List.cons.inj shape).2]
      simp
    | cons first before =>
      -- Behind the first line there is no key that stops the loop.
      have later : line ∈ epochLine :: lengthLine :: sizes.flatMap fun size => [dataLine size,contentLine] := by
        rw [(List.cons.inj shape).2]
        simp
      simp only [List.mem_cons,List.mem_flatMap,List.not_mem_nil,or_false] at later
      rcases later with rfl | rfl | ⟨size,_,rfl | rfl⟩ <;> simp at kind
  unlike := by
    intro line member n rest same
    rcases mem_body member with rfl | rfl | rfl | ⟨size,rfl⟩ | rfl
    · exact absurd (List.cons.inj same).1 (by decide)
    · exact absurd (List.cons.inj same).1 (by decide)
    · exact header_not_length n (List.cons.inj (List.cons.inj same).2).1.symm
    · rw [words_data] at same
      exact absurd (List.cons.inj same).1 (by decide)
    · exact absurd (List.cons.inj same).1 (by decide)

theorem plainFrames_printed (sizes : List Nat) (k n : Nat) : PrintedFrom k (plainFrames sizes k n) := by
  induction n generalizing k with
  | zero => trivial
  | succ n ih => exact ⟨plainFrame_printed sizes k,ih (k+1)⟩

theorem plainFrames_carry (sizes : List Nat) (k n : Nat) :
    (plainFrames sizes k n).filter (fun frame => frame.Carries "sctp".toList) = plainFrames sizes k n := by
  refine List.filter_eq_self.mpr fun frame member => decide_eq_true ?_
  obtain ⟨number,_,rfl⟩ := List.mem_map.mp member
  refine ⟨List.mem_singleton.mpr rfl,fun line inside => ?_⟩
  rcases mem_body inside with rfl | rfl | rfl | ⟨size,rfl⟩ | rfl <;> simp

theorem plainFrames_length (sizes : List Nat) (k n : Nat) : (plainFrames sizes k n).length = n := by
  simp [plainFrames]

theorem plainFrames_chunks (sizes : List Nat) (k n : Nat) :
    chunkCount "sctp".toList (plainFrames sizes k n) = n * sizes.length := by
  rw [chunkCount,if_pos rfl]
  induction n generalizing k with
  | zero => simp [plainFrames]
  | succ n ih =>
    have more : plainFrames sizes k (n+1) = plainFrame sizes k :: plainFrames sizes (k+1) n := rfl
    rw [more,List.map_cons,List.sum_cons,ih,plainFrame]
    ring

def sctpParser : DataParser := .create "sctp".toList 0 1 1

def Miscounted (frames : List Frame) : Prop :=
  PrintedFrom 1 frames ∧ ¬Tallied "sctp".toList (frames.filter fun frame => frame.Carries "sctp".toList)
    (sctpParser.packetExtractor (transcript frames))

theorem transcript_totals_plain : Tallied "sctp".toList
    ((plainFrames [10] 1 2).filter fun frame => frame.Carries "sctp".toList)
    ((DataParser.create "sctp".toList 20 1 1).packetExtractor (transcript (plainFrames [10] 1 2))) := by
  refine transcript_totals "sctp".toList 20 1 1 (plainFrames [10] 1 2) (plainFrames_printed [10] 1 2) ?_ ?_ ?_
  · rw [plainFrames_length]
    decide
  · intro frame member _
    obtain ⟨number,_,rfl⟩ := List.mem_map.mp member
    exact (by decide : [10].sum < 2^31)
  · rw [plainFrames_carry,plainFrames_chunks]
    decide

/-- Too many frames, too many bytes in one frame, or too many chunks. -/
theorem counters_overflow : Miscounted (plainFrames [] 1 (2^31)) ∧ Miscounted (plainFrames [2^31] 1 1) ∧
    Miscounted (plainFrames [1,1] 1 (2^30)) := by
  refine ⟨⟨plainFrames_printed _ _ _,fun tallied => ?_⟩,⟨plainFrames_printed _ _ _,fun tallied => ?_⟩,
    ⟨plainFrames_printed _ _ _,fun tallied => ?_⟩⟩
  · have count := tallied.packetCounter
    rw [plainFrames_carry,plainFrames_length] at count
    exact absurd (Int32.toInt_lt _) (by rw [count]; norm_num)
  · have useful := tallied.totalUsefulData
    have alone : (plainFrames [2^31] 1 1).filter (fun frame => frame.Carries sctpParser.protocol) =
        [plainFrame [2^31] 1] := plainFrames_carry [2^31] 1 1
    have few : (plainFrames [2^31] 1 1).length < 2^31 := by
      rw [plainFrames_length]
      norm_num
    rw [packetExtractor_eq sctpParser _ (plainFrames_printed [2^31] 1 1) few,alone,plainFrames_carry] at useful
    have sum : (0 : ℚ) + (plainFrame [2^31] 1).dataLength.toInt = ((2^31 : Nat) : ℚ) := useful
    rw [zero_add] at sum
    have length : (plainFrame [2^31] 1).dataLength.toInt = 2^31 := by exact_mod_cast sum
    exact absurd (Int32.toInt_lt _) (by rw [length]; norm_num)
  · have chunks := tallied.dataChunks
    rw [plainFrames_carry,plainFrames_chunks] at chunks
    exact absurd (Int32.toInt_lt _) (by rw [chunks]; norm_num)

end ProtocolTests.TranscriptTotals
