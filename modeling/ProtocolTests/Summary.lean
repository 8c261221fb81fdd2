import ProtocolTests.FrameReadings
import Mathlib.Algebra.BigOperators.Ring.Finset
import Mathlib.Algebra.Order.BigOperators.Group.List
import Mathlib.Algebra.Order.Field.Basic
import Mathlib.Tactic.FieldSimp
import Mathlib.Tactic.Linarith

/-! The row that `insertTotalData` appends to the summary file, for transcripts of any kind. -/
namespace ProtocolTests.Summary
open Library.CString ProtocolTests.Parser Transcript TranscriptTotals LineLocality PacketCalls FrameIsolation FrameFilter
  FrameReadings

/-- The columns of a row. The two columns of the data chunks read NaN but for SCTP. -/
structure Row where
  packetCounter : Int32
  totalTime : Double
  totalData : Double
  totalUsefulData : ℚ
  expectedData : ℚ
  dataPercentage : Double
  dataLossPercent : Double
  speed : Double
  frameSizeAvg : Double
  dataChunks : Option Int32
  dataChunkAvg : Double
  numClients : Int32
  numberOfStreamsPerClient : Int32

/-- The row, and the parser with the three amounts that are turned into megabytes in place. -/
def insertTotalData (parser : DataParser) : Row × DataParser :=
  let dataPercentage := (Double.div parser.totalUsefulData parser.totalData).map (· * 100)
  let speed := Double.div (Double.div parser.totalData parser.totalTime) (some (1024*1024))
  let dataChunkAvg := Double.div parser.totalUsefulData (some parser.dataChunks.toInt)
  let frameSizeAvg := Double.div parser.totalData (some parser.packetCounter.toInt)
  let dataLossPercent := (Double.div parser.totalUsefulData parser.expectedData).map fun part => 100 - part * 100
  let parser := {parser with expectedData := parser.expectedData / (1024*1024)}
  let parser := {parser with totalData := Double.div parser.totalData (some (1024*1024))}
  let parser := {parser with totalUsefulData := parser.totalUsefulData / (1024*1024)}
  ({packetCounter := parser.packetCounter
    totalTime := parser.totalTime
    totalData := parser.totalData
    totalUsefulData := parser.totalUsefulData
    expectedData := parser.expectedData
    dataPercentage := dataPercentage
    dataLossPercent := dataLossPercent
    speed := speed
    frameSizeAvg := frameSizeAvg
    dataChunks := if parser.protocol = "sctp".toList then some parser.dataChunks else none
    dataChunkAvg := if parser.protocol = "sctp".toList then dataChunkAvg else none
    numClients := parser.numClients
    numberOfStreamsPerClient := parser.numberOfStreamsPerClient},parser)

/-- The bytes of data of the accepted frames, as the counters of their calls have them. -/
def usefulBytes (frames : List Locals) : ℚ := (frames.map fun locals => (locals.dataLength.toInt : ℚ)).sum

def totalBytes (frames : List Locals) : ℚ := (frames.map fun locals => locals.frameLength.getD 0).sum

def chunkSum (frames : List Locals) : Int32 := (frames.map Locals.dataChunkCount).foldl (· + ·) 0

/-- The first time stamp that is not the mark for none. -/
def startTime (stamps : List Double) : Double :=
  (stamps.find? fun time => decide (time ≠ some (-1))).getD (some (-1))

def endTime (stamps : List Double) : Double := stamps.getLast?.getD none

section totals
variable (frames : List Locals) (parser : DataParser)

@[simp] theorem foldl_protocol : (frames.foldl DataParser.update parser).protocol = parser.protocol := by
  induction frames generalizing parser with
  | nil => rfl
  | cons locals frames ih => exact ih (parser.update locals)

@[simp] theorem foldl_expectedData : (frames.foldl DataParser.update parser).expectedData = parser.expectedData := by
  induction frames generalizing parser with
  | nil => rfl
  | cons locals frames ih => exact ih (parser.update locals)

theorem foldl_totalUsefulData :
    (frames.foldl DataParser.update parser).totalUsefulData = parser.totalUsefulData + usefulBytes frames := by
  induction frames generalizing parser with
  | nil => simp [usefulBytes]
  | cons locals frames ih =>
    rw [List.foldl_cons,ih]
    simp [usefulBytes,DataParser.update,add_assoc]

theorem foldl_totalData (begun : ∃ start, parser.totalData = some start)
    (sized : ∀ locals ∈ frames, ∃ size, locals.frameLength = some size) :
    (frames.foldl DataParser.update parser).totalData = parser.totalData.map (· + totalBytes frames) := by
  induction frames generalizing parser with
  | nil => simp [totalBytes]
  | cons locals frames ih =>
    obtain ⟨start,first⟩ := begun
    obtain ⟨size,here⟩ := sized locals List.mem_cons_self
    have next : (parser.update locals).totalData = some (start + size) := by
      simp [DataParser.update,first,here,Double.add]
    rw [List.foldl_cons,ih _ ⟨_,next⟩ fun other member => sized other (List.mem_cons_of_mem _ member),next,first]
    simp [totalBytes,here,add_assoc]

theorem foldl_packetCounter :
    (frames.foldl DataParser.update parser).packetCounter = parser.packetCounter + Int32.ofNat frames.length := by
  induction frames generalizing parser with
  | nil => simp
  | cons locals frames ih =>
    rw [List.foldl_cons,ih,List.length_cons,Nat.add_comm,Int32.ofNat_add,← Int32.add_assoc]
    rfl

theorem foldl_dataChunks : (frames.foldl DataParser.update parser).dataChunks =
    (frames.map Locals.dataChunkCount).foldl (· + ·) parser.dataChunks := by
  induction frames generalizing parser with
  | nil => rfl
  | cons locals frames ih => exact ih (parser.update locals)

theorem foldl_timeFix : (frames.foldl DataParser.update parser).timeFix =
    if parser.timeFix = some (-1) then startTime (frames.map Locals.epochTime) else parser.timeFix := by
  induction frames generalizing parser with
  | nil =>
    rw [startTime]
    split
    next unset => exact unset
    next => rfl
  | cons locals frames ih =>
    rw [List.foldl_cons,ih]
    by_cases unset : parser.timeFix = some (-1)
    · by_cases marked : locals.epochTime = some (-1)
      · simp [DataParser.update,unset,marked,startTime]
      · simp [DataParser.update,unset,marked,startTime]
    · simp [DataParser.update,unset]

theorem foldl_totalTime (unset : parser.timeFix = some (-1)) (nonempty : frames ≠ []) :
    (frames.foldl DataParser.update parser).totalTime =
      (endTime (frames.map Locals.epochTime)).sub (startTime (frames.map Locals.epochTime)) := by
  have fixed := foldl_timeFix frames parser
  rw [if_pos unset] at fixed
  rcases List.eq_nil_or_concat frames with rfl | ⟨earlier,last,rfl⟩
  · exact absurd rfl nonempty
  · rw [← fixed,endTime,List.concat_eq_append,List.map_append,List.map_singleton,List.getLast?_concat,List.foldl_append]
    rfl

end totals

theorem div_some (first : ℚ) {second : ℚ} (nonzero : second ≠ 0) :
    Double.div (some first) (some second) = some (first / second) := by
  simp [Double.div,nonzero]

theorem div_zero (first : ℚ) : Double.div (some first) (some 0) = none := by simp [Double.div]

/-- Both percentages are numbers from 0 to 100, with the values that the format promises. -/
structure Percentages (parser : DataParser) : Prop where
  useful : ∃ total part, parser.totalData = some total ∧ (insertTotalData parser).1.dataPercentage = some part ∧
    part = 100 * parser.totalUsefulData / total ∧ 0 ≤ part ∧ part ≤ 100
  loss : ∃ part, (insertTotalData parser).1.dataLossPercent = some part ∧
    part = 100 - 100 * parser.totalUsefulData / parser.expectedData ∧ 0 ≤ part ∧ part ≤ 100

section percentages
variable {parser : DataParser} {total : ℚ} (sized : parser.totalData = some total) (expected : 0 < parser.expectedData)
include sized expected

theorem percentages_values (nonzero : total ≠ 0) :
    (insertTotalData parser).1.dataPercentage = some (parser.totalUsefulData / total * 100) ∧
      (insertTotalData parser).1.dataLossPercent = some (100 - parser.totalUsefulData / parser.expectedData * 100) := by
  simp only [insertTotalData,sized,div_some _ nonzero,div_some _ (ne_of_gt expected),Option.map_some,and_self]

theorem percentages_of_totals (bounded : parser.totalUsefulData ≤ total) : Percentages parser ↔
    0 < total ∧ 0 ≤ parser.totalUsefulData ∧ parser.totalUsefulData ≤ parser.expectedData := by
  constructor
  · rintro ⟨⟨total',part,sized',row,_,lower,upper⟩,⟨loss,lossRow,_,lossLower,lossUpper⟩⟩
    have nonzero : total ≠ 0 := by
      rintro rfl
      simp [insertTotalData,sized,div_zero] at row
    obtain ⟨useful,lost⟩ := percentages_values sized expected nonzero
    rw [lost,Option.some.injEq] at lossRow
    have positive : 0 ≤ parser.totalUsefulData / parser.expectedData := by linarith
    have below : parser.totalUsefulData / parser.expectedData ≤ 1 := by linarith
    have nonneg : 0 ≤ parser.totalUsefulData := by simpa using (le_div_iff₀ expected).mp positive
    exact ⟨lt_of_le_of_ne (nonneg.trans bounded) nonzero.symm,nonneg,(div_le_one expected).mp below⟩
  · rintro ⟨positive,nonneg,below⟩
    obtain ⟨useful,lost⟩ := percentages_values sized expected (ne_of_gt positive)
    have part := div_nonneg nonneg positive.le
    have whole := (div_le_one positive).mpr bounded
    have lossPart := div_nonneg nonneg expected.le
    have lossWhole := (div_le_one expected).mpr below
    refine ⟨⟨total,_,sized,useful,by ring,by linarith,by linarith⟩,⟨_,lost,by ring,by linarith,by linarith⟩⟩

end percentages

def parsed (protocol : Text) (expectedData numClients numberOfStreamsPerClient : Int32) (lines : List Text) :
    DataParser :=
  (DataParser.create protocol expectedData numClients numberOfStreamsPerClient).packetExtractor lines

section parsed
variable (protocol : Text) (expectedData numClients numberOfStreamsPerClient : Int32) (lines : List Text)

theorem parsed_eq : parsed protocol expectedData numClients numberOfStreamsPerClient lines =
    (accepted protocol lines).foldl DataParser.update
      (.create protocol expectedData numClients numberOfStreamsPerClient) := packetExtractor_accepted _ _

theorem parsed_totals (sized : ∀ locals ∈ accepted protocol lines, ∃ size, locals.frameLength = some size) :
    (parsed protocol expectedData numClients numberOfStreamsPerClient lines).totalUsefulData =
        usefulBytes (accepted protocol lines) ∧
      (parsed protocol expectedData numClients numberOfStreamsPerClient lines).totalData =
        some (totalBytes (accepted protocol lines)) ∧
      (parsed protocol expectedData numClients numberOfStreamsPerClient lines).expectedData = expectedData.toInt := by
  rw [parsed_eq,foldl_totalUsefulData,foldl_totalData _ _ ⟨0,rfl⟩ sized,foldl_expectedData]
  simp [DataParser.create]

end parsed

/-- The bytes of the frames that are to be counted, by their own lines. -/
def wireBytes (protocol : Text) (blocks : List Block) : ℚ :=
  ((counting protocol blocks).map fun block => (frameLength block).getD 0).sum

def dataBytes (protocol : Text) (blocks : List Block) : ℚ :=
  ((counting protocol blocks).map fun block => (dataSizes block).sum).sum

def chunkLines (protocol : Text) (blocks : List Block) : Nat :=
  ((counting protocol blocks).map fun block => (dataSizes block).length).sum

/-- No frame that is to be counted carries more than its own length. -/
def Bounded (protocol : Text) (blocks : List Block) : Prop :=
  ∀ block ∈ counting protocol blocks, ∃ size, frameLength block = some size ∧ (dataSizes block).sum ≤ size

section frame
variable {protocol : Text} {block : Block} {last : Locals} (absorbed : Absorbed protocol block.body {} last)

theorem foldl_last (values : List ℚ) : values.foldl (fun _ value => some value) (none : Double) = values.getLast? := by
  induction values using List.reverseRecOn with
  | nil => rfl
  | append_singleton values value _ => 
    rw [List.foldl_append,List.getLast?_concat]
    rfl

theorem foldl_count (values : List Int32) (start : Int32) :
    values.foldl (fun count _ => count + 1) start = start + Int32.ofNat values.length := by
  induction values generalizing start with
  | nil => simp
  | cons value values ih =>
    rw [List.foldl_cons,ih,List.length_cons,Nat.add_comm,Int32.ofNat_add,← Int32.add_assoc]
    rfl

include absorbed

theorem absorbed_stamp : last.epochTime = stamp block := absorbed.epochTime.trans (foldl_last _)

theorem absorbed_frameLength : last.frameLength = frameLength block := absorbed.frameLength.trans (foldl_last _)

theorem absorbed_dataLength (counted : Counted block) : (last.dataLength.toInt : ℚ) = (dataSizes block).sum := by
  obtain ⟨sizes,shape,small⟩ := counted
  have read : payloads block.body = sizes.map fun size : Nat => truncate size := by
    have own : payloads block.body = (dataSizes block).map truncate := (List.map_map ..).symm
    simp only [own,shape,List.map_map,Function.comp_def]
  have sum := sum_toInt sizes 0 0 rfl (by omega)
  rw [Nat.zero_add,← read] at sum
  rw [absorbed.dataLength,shape,← Nat.cast_list_sum,sum]
  exact Int.cast_natCast _

theorem absorbed_dataChunkCount (sctp : protocol = "sctp".toList) :
    last.dataChunkCount = Int32.ofNat (dataSizes block).length := by
  have read : (payloads block.body).length = (dataSizes block).length := by simp [payloads,dataSizes]
  have count := absorbed.dataChunkCount
  simp only [sctp,if_true] at count
  rw [count,foldl_count,read]
  exact Int32.zero_add _

end frame

section printed
variable {protocol : Text} {expectedData numClients numberOfStreamsPerClient : Int32} {closed : Bool} {blocks : List Block}
  (headed : HeadedFrom 1 blocks) (printed : AsPrinted protocol blocks) (expected : 0 < expectedData.toInt)
include headed printed expected

theorem percentages_printed (counted : ∀ block ∈ counting protocol blocks, Counted block) (bounded : Bounded protocol blocks) :
    Percentages (parsed protocol expectedData numClients numberOfStreamsPerClient (fileLines closed blocks)) ↔
      0 < wireBytes protocol blocks ∧ dataBytes protocol blocks ≤ expectedData.toInt := by
  have sizes := @accepted_map protocol closed (Double) blocks headed printed Locals.frameLength frameLength
    fun block _ last absorbed => absorbed_frameLength absorbed
  have data := @accepted_map protocol closed ℚ blocks headed printed (fun locals => (locals.dataLength.toInt : ℚ))
    (fun block => (dataSizes block).sum) fun block member last absorbed => absorbed_dataLength absorbed (counted block member)
  have sized : ∀ locals ∈ accepted protocol (fileLines closed blocks), ∃ size, locals.frameLength = some size := by
    intro locals member
    have read := List.mem_map_of_mem (f := Locals.frameLength) member
    rw [sizes] at read
    obtain ⟨block,inside,own⟩ := List.mem_map.mp read
    obtain ⟨size,here,_⟩ := bounded block inside
    exact ⟨size,own.symm.trans here⟩
  obtain ⟨useful,total,amount⟩ := parsed_totals protocol expectedData numClients numberOfStreamsPerClient _ sized
  have wire : totalBytes (accepted protocol (fileLines closed blocks)) = wireBytes protocol blocks := by
    have each := congrArg (fun lengths : List Double => (lengths.map fun length => length.getD 0).sum) sizes
    simp only [List.map_map] at each
    exact each
  have carried : usefulBytes (accepted protocol (fileLines closed blocks)) = dataBytes protocol blocks := by
    rw [usefulBytes,data,dataBytes]
  have below : dataBytes protocol blocks ≤ wireBytes protocol blocks := by
    apply List.sum_le_sum
    intro block member
    obtain ⟨size,here,bound⟩ := bounded block member
    simpa [here] using bound
  have nonneg : 0 ≤ dataBytes protocol blocks := by
    apply List.sum_nonneg
    intro amount member
    obtain ⟨block,inside,rfl⟩ := List.mem_map.mp member
    obtain ⟨sizes,shape,_⟩ := counted block inside
    rw [shape,← Nat.cast_list_sum]
    exact Nat.cast_nonneg _
  have positive : (0 : ℚ) < expectedData.toInt := by exact_mod_cast expected
  rw [percentages_of_totals total (by rw [amount]; exact positive) (by rw [useful,carried,wire]; exact below),useful,amount,
    wire,carried]
  exact and_congr_right fun _ => and_iff_right nonneg

end printed

/-- The printed quotients have divisors other than zero, and the printed columns agree. -/
structure Consistent (parser : DataParser) : Prop where
  totalTime : ∃ time, parser.totalTime = some time ∧ time ≠ 0
  totalData : ∃ data, parser.totalData = some data ∧ data ≠ 0
  packetCounter : parser.packetCounter.toInt ≠ 0
  expectedData : parser.expectedData ≠ 0
  dataChunks : parser.protocol = "sctp".toList → parser.dataChunks.toInt ≠ 0
  frames : ∃ average data, (insertTotalData parser).1.frameSizeAvg = some average ∧
    (insertTotalData parser).1.totalData = some data ∧
    (insertTotalData parser).1.packetCounter.toInt * average = data * 2^20
  speed : ∃ speed time data, (insertTotalData parser).1.speed = some speed ∧
    (insertTotalData parser).1.totalTime = some time ∧ (insertTotalData parser).1.totalData = some data ∧
    speed * time = data
  useful : ∃ part data, (insertTotalData parser).1.dataPercentage = some part ∧
    (insertTotalData parser).1.totalData = some data ∧ part * data = 100 * (insertTotalData parser).1.totalUsefulData
  loss : ∃ part, (insertTotalData parser).1.dataLossPercent = some part ∧
    (100 - part) * (insertTotalData parser).1.expectedData = 100 * (insertTotalData parser).1.totalUsefulData
  chunks : parser.protocol = "sctp".toList → ∃ count average, (insertTotalData parser).1.dataChunks = some count ∧
    (insertTotalData parser).1.dataChunkAvg = some average ∧
    count.toInt * average = (insertTotalData parser).1.totalUsefulData * 2^20

theorem row_totalData {parser : DataParser} {data : ℚ} (sized : parser.totalData = some data) :
    (insertTotalData parser).1.totalData = some (data / (1024*1024)) := by
  simp only [insertTotalData,sized]
  exact div_some _ (by norm_num)

theorem consistent_of_divisors {parser : DataParser} {time data : ℚ} (timed : parser.totalTime = some time)
    (sized : parser.totalData = some data) (timeNonzero : time ≠ 0) (dataNonzero : data ≠ 0)
    (counted : parser.packetCounter.toInt ≠ 0) (expected : parser.expectedData ≠ 0)
    (chunked : parser.protocol = "sctp".toList → parser.dataChunks.toInt ≠ 0) : Consistent parser where
  totalTime := ⟨time,timed,timeNonzero⟩
  totalData := ⟨data,sized,dataNonzero⟩
  packetCounter := counted
  expectedData := expected
  dataChunks := chunked
  frames := by
    have count : (parser.packetCounter.toInt : ℚ) ≠ 0 := by exact_mod_cast counted
    refine ⟨data / parser.packetCounter.toInt,data / (1024*1024),?_,row_totalData sized,?_⟩
    · simp only [insertTotalData,sized,div_some _ count]
    · simp only [insertTotalData]
      field_simp
      norm_num
  speed := by
    refine ⟨data / time / (1024*1024),time,data / (1024*1024),?_,?_,row_totalData sized,?_⟩
    · simp only [insertTotalData,sized,timed,div_some _ timeNonzero]
      exact div_some _ (by norm_num)
    · simp only [insertTotalData,timed]
    · field_simp
  useful := by
    refine ⟨parser.totalUsefulData / data * 100,data / (1024*1024),?_,row_totalData sized,?_⟩
    · simp only [insertTotalData,sized,div_some _ dataNonzero,Option.map_some]
    · simp only [insertTotalData]
      field_simp
  loss := by
    refine ⟨100 - parser.totalUsefulData / parser.expectedData * 100,?_,?_⟩
    · simp only [insertTotalData,div_some _ expected,Option.map_some]
    · simp only [insertTotalData]
      field_simp
      ring
  chunks := by
    intro sctp
    have count : (parser.dataChunks.toInt : ℚ) ≠ 0 := by exact_mod_cast chunked sctp
    refine ⟨parser.dataChunks,parser.totalUsefulData / parser.dataChunks.toInt,?_,?_,?_⟩
    · simp only [insertTotalData,sctp,if_true]
    · simp only [insertTotalData,sctp,if_true,div_some _ count]
    · simp only [insertTotalData]
      field_simp
      norm_num

theorem totalBytes_pos (frames : List Locals) (nonempty : frames ≠ [])
    (positive : ∀ locals ∈ frames, ∃ size, locals.frameLength = some size ∧ 0 < size) : 0 < totalBytes frames := by
  apply List.sum_pos
  · intro length member
    obtain ⟨locals,inside,rfl⟩ := List.mem_map.mp member
    obtain ⟨size,here,bound⟩ := positive locals inside
    simpa [here] using bound
  · simpa using nonempty

theorem sub_nonzero (last first : Double) : (∃ time, last.sub first = some time ∧ time ≠ 0) ↔
    ∃ start stop, first = some start ∧ last = some stop ∧ start ≠ stop := by
  cases first with
  | none => cases last <;> simp [Double.sub]
  | some start =>
    cases last with
    | none => simp [Double.sub]
    | some stop => simp [Double.sub,sub_eq_zero,eq_comm]

theorem ofNat_zero_iff (n : Nat) : (Int32.ofNat n).toInt = 0 ↔ n % 2^32 = 0 := by
  rw [Int32.toInt_ofNat',Int32.size,Int.bmod]
  split <;> omega

section printed
variable {protocol : Text} {expectedData numClients numberOfStreamsPerClient : Int32} {closed : Bool} {blocks : List Block}
  (headed : HeadedFrom 1 blocks) (printed : AsPrinted protocol blocks)
include headed printed

theorem accepted_length : (accepted protocol (fileLines closed blocks)).length = (counting protocol blocks).length :=
  (@accepted_counting protocol closed blocks headed printed).length_eq.symm

theorem accepted_chunks (sctp : protocol = "sctp".toList) :
    chunkSum (accepted protocol (fileLines closed blocks)) = Int32.ofNat (chunkLines protocol blocks) := by
  have counts := @accepted_map protocol closed Int32 blocks headed printed Locals.dataChunkCount
    (fun block => Int32.ofNat (dataSizes block).length) fun block _ last absorbed => absorbed_dataChunkCount absorbed sctp
  have sum (values : List Nat) (start : Nat) :
      (values.map Int32.ofNat).foldl (· + ·) (Int32.ofNat start) = Int32.ofNat (start + values.sum) := by
    induction values generalizing start with
    | nil => rfl
    | cons value values ih =>
      rw [List.map_cons,List.foldl_cons,← Int32.ofNat_add,ih,List.sum_cons,Nat.add_assoc]
  rw [chunkSum,counts,chunkLines]
  have summed := sum ((counting protocol blocks).map fun block => (dataSizes block).length) 0
  rw [Nat.zero_add,List.map_map] at summed
  exact summed

theorem consistent_printed (expected : 0 < expectedData.toInt) (nonempty : counting protocol blocks ≠ [])
    (positive : ∀ block ∈ counting protocol blocks, ∃ size, frameLength block = some size ∧ 0 < size) :
    Consistent (parsed protocol expectedData numClients numberOfStreamsPerClient (fileLines closed blocks)) ↔
      (∃ start stop, startTime ((counting protocol blocks).map stamp) = some start ∧
        endTime ((counting protocol blocks).map stamp) = some stop ∧ start ≠ stop) ∧
      (protocol = "sctp".toList → chunkLines protocol blocks % 2^32 ≠ 0) := by
  have sizes := @accepted_map protocol closed Double blocks headed printed Locals.frameLength frameLength
    fun block _ last absorbed => absorbed_frameLength absorbed
  have stamps := @accepted_map protocol closed Double blocks headed printed Locals.epochTime stamp
    fun block _ last absorbed => absorbed_stamp absorbed
  have each : ∀ locals ∈ accepted protocol (fileLines closed blocks), ∃ size, locals.frameLength = some size ∧ 0 < size := by
    intro locals member
    have read := List.mem_map_of_mem (f := Locals.frameLength) member
    rw [sizes] at read
    obtain ⟨block,inside,own⟩ := List.mem_map.mp read
    obtain ⟨size,here,bound⟩ := positive block inside
    exact ⟨size,own.symm.trans here,bound⟩
  have many := @accepted_length protocol closed blocks headed printed
  have some_frame : accepted protocol (fileLines closed blocks) ≠ [] := by
    rw [← List.length_pos_iff,many]
    exact List.length_pos_iff.mpr nonempty
  obtain ⟨_,total,amount⟩ := parsed_totals protocol expectedData numClients numberOfStreamsPerClient _ fun locals member =>
    ⟨_,(each locals member).choose_spec.1⟩
  have bytes := totalBytes_pos _ some_frame each
  have time : (parsed protocol expectedData numClients numberOfStreamsPerClient (fileLines closed blocks)).totalTime =
      (endTime ((counting protocol blocks).map stamp)).sub (startTime ((counting protocol blocks).map stamp)) := by
    rw [parsed_eq,← stamps]
    exact foldl_totalTime _ _ rfl some_frame
  have counted : (parsed protocol expectedData numClients numberOfStreamsPerClient
      (fileLines closed blocks)).packetCounter.toInt ≠ 0 := by
    have few := printed.few
    have kept : (counting protocol blocks).length ≤ blocks.length := List.length_filter_le _ _
    have pos := List.length_pos_iff.mpr nonempty
    have zero : (DataParser.create protocol expectedData numClients numberOfStreamsPerClient).packetCounter = 0 := rfl
    rw [parsed_eq,foldl_packetCounter,zero,Int32.zero_add,many,Ne,ofNat_zero_iff]
    omega
  have same : (parsed protocol expectedData numClients numberOfStreamsPerClient (fileLines closed blocks)).protocol =
      protocol := by
    rw [parsed_eq,foldl_protocol]
    rfl
  have chunks (sctp : protocol = "sctp".toList) :
      (parsed protocol expectedData numClients numberOfStreamsPerClient (fileLines closed blocks)).dataChunks =
        Int32.ofNat (chunkLines protocol blocks) := by
    rw [parsed_eq,foldl_dataChunks,← @accepted_chunks protocol closed blocks headed printed sctp]
    rfl
  rw [← sub_nonzero,← time]
  constructor
  · intro consistent
    refine ⟨consistent.totalTime,fun sctp => ?_⟩
    rw [Ne,← ofNat_zero_iff,← chunks sctp]
    exact consistent.dataChunks (by rw [same]; exact sctp)
  · rintro ⟨⟨span,timed,nonzero⟩,chunked⟩
    refine consistent_of_divisors timed total nonzero (ne_of_gt bytes) counted ?_ fun sctp => ?_
    · rw [amount]
      exact_mod_cast ne_of_gt expected
    · rw [same] at sctp
      rw [chunks sctp,Ne,ofNat_zero_iff]
      exact chunked sctp

end printed

def lengthSixty : Text := "Frame Length: 60".toList

def laterLine : Text := "Epoch Time: 1".toList

def payloadBody : List Text := [protocolsLine,epochLine,lengthSixty,dataLine 10,contentLine]

def laterBody : List Text := [protocolsLine,laterLine,lengthSixty,dataLine 10,contentLine]

/-- Two frames with one payload of ten bytes, which was sent again. -/
def resent : List Block := [⟨headerLine 1,payloadBody⟩,⟨headerLine 2,payloadBody⟩]

/-- The second frame is a second later. -/
def spread : List Block := [⟨headerLine 1,payloadBody⟩,⟨headerLine 2,laterBody⟩]

/-- A frame of which nothing else is there. -/
def alone : List Block := [⟨headerLine 1,payloadBody⟩]

theorem atof_ten : atof "10".toList = 10 := by exact_mod_cast atof_toDigits 10

theorem atof_sixty : atof "60".toList = 60 := by exact_mod_cast atof_toDigits 60

theorem alone_headed : HeadedFrom 1 alone := ⟨(plainFrame_printed [] 1).header,trivial⟩

theorem resent_headed : HeadedFrom 1 resent := ⟨(plainFrame_printed [] 1).header,(plainFrame_printed [] 2).header,trivial⟩

theorem spread_headed : HeadedFrom 1 spread := ⟨(plainFrame_printed [] 1).header,(plainFrame_printed [] 2).header,trivial⟩

theorem sample_legible {epoch : Text} (settled : Settled (words epoch)) (single : key epoch ≠ .data) :
    Legible [protocolsLine,epoch,lengthSixty,dataLine 10,contentLine] := by
  refine .line _ _ ?_ (by decide) (.line _ _ settled single (.line _ _ ?_ (by decide)
    (.data _ _ _ ?_ (by decide) (by decide) .nil)))
  all_goals
    intro kind other
    cases kind <;> decide

section sample
variable {blocks : List Block} (bodies : ∀ block ∈ blocks, block.body = payloadBody ∨ block.body = laterBody)
include bodies

theorem sample_counting : counting "sctp".toList blocks = blocks := by
  refine List.filter_eq_self.mpr fun block member => decide_eq_true ?_
  rcases bodies block member with body | body
  · rw [body]
    decide
  · rw [body]
    decide

theorem sample_printed (few : blocks.length < 2^31) : AsPrinted "sctp".toList blocks := by
  refine counting_printed few (fun block member => ?_) (sample_counting bodies)
  rcases bodies block member with body | body
  · rw [body]
    exact sample_legible (fun kind other => by cases kind <;> decide) (by decide)
  · rw [body]
    exact sample_legible (fun kind other => by cases kind <;> decide) (by decide)

theorem sample_sizes (block : Block) (member : block ∈ blocks) : dataSizes block = [10] ∧ frameLength block = some 60 := by
  obtain ⟨header,body⟩ := block
  rw [← atof_ten,← atof_sixty]
  rcases bodies _ member with rfl | rfl
  · exact ⟨rfl,rfl⟩
  · exact ⟨rfl,rfl⟩

theorem sample_bounded : Bounded "sctp".toList blocks := by
  rw [Bounded,sample_counting bodies]
  intro block member
  obtain ⟨data,size⟩ := sample_sizes bodies block member
  exact ⟨60,size,by rw [data]; norm_num⟩

theorem sample_counted (block : Block) (member : block ∈ counting "sctp".toList blocks) : Counted block := by
  rw [sample_counting bodies] at member
  exact ⟨[10],by rw [(sample_sizes bodies block member).1]; rfl,by decide⟩

end sample

theorem resent_bodies : ∀ block ∈ resent, block.body = payloadBody ∨ block.body = laterBody := by decide

theorem spread_bodies : ∀ block ∈ spread, block.body = payloadBody ∨ block.body = laterBody := by decide

theorem alone_bodies : ∀ block ∈ alone, block.body = payloadBody ∨ block.body = laterBody := by decide

theorem resent_bytes : wireBytes "sctp".toList resent = 120 ∧ dataBytes "sctp".toList resent = 20 := by
  have first := sample_sizes resent_bodies ⟨headerLine 1,payloadBody⟩ (by decide)
  have second := sample_sizes resent_bodies ⟨headerLine 2,payloadBody⟩ (by decide)
  rw [wireBytes,dataBytes,sample_counting resent_bodies]
  simp only [resent,List.map_cons,List.map_nil,List.sum_cons,List.sum_nil,first.1,first.2,second.1,second.2,Option.getD_some]
  norm_num

theorem sample_positive {blocks : List Block}
    (bodies : ∀ block ∈ blocks, block.body = payloadBody ∨ block.body = laterBody) :
    ∀ block ∈ counting "sctp".toList blocks, ∃ size, frameLength block = some size ∧ 0 < size := by
  intro block member
  rw [sample_counting bodies] at member
  exact ⟨60,(sample_sizes bodies block member).2,by norm_num⟩

theorem stamps : stamp ⟨headerLine 1,payloadBody⟩ = some 0 ∧ stamp ⟨headerLine 2,laterBody⟩ = some 1 := by
  have zero : atof "0".toList = 0 := by exact_mod_cast atof_toDigits 0
  have one : atof "1".toList = 1 := by exact_mod_cast atof_toDigits 1
  rw [← zero,← one]
  exact ⟨rfl,rfl⟩

end ProtocolTests.Summary
