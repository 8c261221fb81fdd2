import ProtocolTests.FrameFilter
import ProtocolTests.Library.Columns
import ProtocolTests.SummaryColumns

/-! What the parser prints on the console: on demand a table of the frames, and the totals. -/
namespace ProtocolTests.Console
open Library.CString Library.Columns Library.Printf ProtocolTests.Parser Transcript LineLoop PacketCalls FrameFilter
open FrameIsolation Summary SummaryColumns TranscriptTotals

structure PrintFlags where
  printPacket : Bool
  printAll : Bool
  deriving DecidableEq

/-- The constructor ends the program at any other text. -/
def printFlags (print : Text) : Option PrintFlags :=
  if print = "-printall".toList then some ⟨true,true⟩
  else if print = "-print".toList then some ⟨false,true⟩
  else if print = "-noprint".toList then some ⟨false,false⟩
  else none

inductive Heading
  | frame
  | sender
  | receiver
  | time
  | ttl
  | length
  | data
  | chunks
  deriving DecidableEq

def Heading.title : Heading → Text
  | .frame => "Frame".toList
  | .sender => "Sender".toList
  | .receiver => "Receiver".toList
  | .time => "Time [s]".toList
  | .ttl => "TTL [ms]".toList
  | .length => "Length [b]".toList
  | .data => "Data [b]".toList
  | .chunks => "Chunks".toList

def Heading.width : Heading → Nat
  | .frame => 7
  | .sender => 11
  | .receiver => 11
  | .time => 10
  | .ttl => 10
  | .length => 12
  | .data => 12
  | .chunks => 10

def headings : List Heading := [.frame,.sender,.receiver,.time,.ttl,.length,.data,.chunks]

/-- A line of the table. -/
inductive Entry
  | heartbeat (packet : Int32)
  | row (frame : Int32) (locals : Locals)

section table
variable (printPacket : Bool) (protocol : Text)

def getHeartBeat (packet : Int32) (arr : Words) : List Entry :=
  match classify arr with
  | .heartbeat => if printPacket then [.heartbeat packet] else []
  | .heartbeatAck => if printPacket then [.heartbeat packet] else []
  | _ => []

/-- The line loop of `dataExtractor` with the lines that it prints in front of its result. -/
def printFrame (frame : Int32) : Locals → List Text → List Entry × Option Locals × List Text
  | locals, [] => ([],some locals,[])
  | locals, line :: rest =>
    if line = [] then ([],some locals,rest)
    else if locals.correctProtocol = false then ([],none,rest)
    else if locals.heartbeat = true then ([],none,rest)
    else
      let locals := record protocol {locals with arr := extract locals.arr line}
      if classify locals.arr = .data then
        match rest with
        | [] => ([],some locals,[])
        | _ :: after => printFrame frame locals after
      else
        let (entries,result) := printFrame frame locals rest
        (getHeartBeat printPacket frame locals.arr ++ entries,result)

def printRow (frame : Int32) (result : Option Locals) : List Entry :=
  if printPacket then (result.map (.row frame)).toList else []

def printCall (frame : Int32) (parser : DataParser) (lines : List Text) : List Entry × DataParser × List Text :=
  let (entries,result,rest) := printFrame printPacket parser.protocol frame {} lines
  (entries ++ printRow printPacket frame result,(result.map parser.update).getD parser,rest)

def printLoop : Nat → Int32 → Words → DataParser → List Text → List Entry × DataParser
  | 0, _, _, parser, _ => ([],parser)
  | _+1, _, _, parser, [] => ([],parser)
  | fuel+1, currentFrame, arr, parser, line :: rest =>
    let arr := extract arr line
    if arr 0 = "Frame".toList ∧ arr 1 = frameWord currentFrame then
      let (entries,parser,rest) := printCall printPacket currentFrame parser rest
      let (later,parser) := printLoop fuel (currentFrame + 1) arr parser rest
      (entries ++ later,parser)
    else printLoop fuel currentFrame arr parser rest

def packetExtractor (parser : DataParser) (lines : List Text) : List Entry × DataParser :=
  printLoop printPacket lines.length 1 (fun _ => []) parser lines

end table

def starLine : Text := List.replicate 80 '*'

def nan : Text := "NaN".toList

def heartbeatText : Text := "Heartbeat detected".toList

section text
variable (special : Heading → Locals → Text) (protocol : Text)

/-- A double that was never assigned is printed in a way of its own. -/
def cell (frame : Int32) (locals : Locals) : Heading → Text
  | .frame => decimal frame.toInt
  | .sender => locals.sender
  | .receiver => locals.reciever
  | .time => (locals.epochTime.map general).getD (special .time locals)
  | .ttl => if protocol = "sctp".toList then (locals.timeToLive.map general).getD (special .ttl locals) else nan
  | .length => (locals.frameLength.map general).getD (special .length locals)
  | .data => decimal locals.dataLength.toInt
  | .chunks => if protocol = "sctp".toList then decimal locals.dataChunkCount.toInt else nan

def cells (frame : Int32) (locals : Locals) : List (Nat × Text) :=
  headings.map fun heading => (heading.width,cell special protocol frame locals heading)

def Entry.text : Entry → Text
  | .heartbeat packet => line [(7,decimal packet.toInt),(20,heartbeatText)] ++ ['\n']
  | .row frame locals => line (cells special protocol frame locals) ++ ['\n']

end text

def labelled (label value : Text) : Text := setw 28 label ++ value ++ ['\n']

/-- The function `GUI`. -/
def gui (printPacket : Bool) (filename sumFileOut protocol : Text) : Text :=
  starLine ++ ['\n'] ++ "Data Parser for .pcap files (Version 2.0)\n".toList ++
    labelled "Input file: ".toList filename ++ labelled "Output file: ".toList sumFileOut ++
    labelled "Protocol: ".toList protocol ++
    if printPacket then
      starLine ++ ['\n'] ++ line (headings.map fun heading => (heading.width,heading.title)) ++ ['\n'] ++
        starLine ++ ['\n']
    else []

/-- The console lines of `insertTotalData`, which show the columns of the summary file. -/
def totals (special : Column → Text) (filename : Text) (parser : DataParser) : Text :=
  let chunked (unit : Text) : Text := if parser.protocol = "sctp".toList then unit else []
  "Extraction summary for ".toList ++ filename ++ " (".toList ++ parser.protocol ++ " protocol)\n".toList ++
    labelled "Number of frames: ".toList (print special parser .packetCounter ++ " frames".toList) ++
    labelled "Total transmission time: ".toList (print special parser .totalTime ++ " s".toList) ++
    labelled "Data sent (with headers): ".toList (print special parser .totalData ++ " MB".toList) ++
    labelled "Data sent (no headers): ".toList (print special parser .totalUsefulData ++ " MB".toList) ++
    labelled "Expected amount of data: ".toList (print special parser .expectedData ++ " MB".toList) ++
    labelled "Percent data in packet: ".toList (print special parser .dataPercentage ++ " %".toList) ++
    labelled "Percent data loss: ".toList (print special parser .dataLossPercent ++ " %".toList) ++
    labelled "Transmission speed: ".toList (print special parser .speed ++ " MB/s".toList) ++
    labelled "Average frame size: ".toList (print special parser .frameSizeAvg ++ " bytes".toList) ++
    labelled "Data chunk count: ".toList (print special parser .dataChunks ++ chunked " chunks".toList) ++
    labelled "Average data per chunk: ".toList (print special parser .dataChunkAvg ++ chunked " bytes".toList) ++
    labelled "Number of clients: ".toList (print special parser .numClients ++ " clients".toList) ++
    labelled "Streams/sockets per client: ".toList
      (print special parser .numberOfStreamsPerClient ++ " streams".toList) ++
    starLine ++ ['\n']

/-- What a run with a print flag writes on the console, and what it adds to the summary file. -/
def run (special : Column → Text) (odd : Heading → Locals → Text) (print filename sumFileOut : Text) (parser : DataParser)
    (lines : List Text) : Option (Text × Text) := do
  let flags ← printFlags print
  let (entries,final) := packetExtractor flags.printPacket parser lines
  return (gui flags.printPacket filename sumFileOut parser.protocol ++ entries.flatMap (Entry.text odd parser.protocol) ++
      (starLine ++ ['\n']) ++ if flags.printAll then totals special filename final else [],
    rowText special final ++ ['\n'])

section frame
variable (printPacket : Bool) (frame : Int32) {protocol line : Text} {locals last : Locals} {before rest : List Text}

theorem printFrame_blank (rest : List Text) :
    printFrame printPacket protocol frame locals ([] :: rest) = ([],some locals,rest) := by
  rw [printFrame,if_pos rfl]

theorem printFrame_unwilling (nonempty : line ≠ []) (unwilling : ¬Willing locals) :
    printFrame printPacket protocol frame locals (line :: rest) = ([],none,rest) := by
  rw [printFrame,if_neg nonempty]
  split
  next => rfl
  next correct =>
    split
    next => rfl
    next quiet => exact absurd ⟨by simpa using correct,by simpa using quiet⟩ unwilling

theorem printFrame_look (nonempty : line ≠ []) (willing : Willing locals)
    (single : classify (extract locals.arr line) ≠ .data) (rest : List Text) :
    printFrame printPacket protocol frame locals (line :: rest) =
      (getHeartBeat printPacket frame (extract locals.arr line) ++
        (printFrame printPacket protocol frame (look protocol locals line) rest).1,
        (printFrame printPacket protocol frame (look protocol locals line) rest).2) := by
  rw [printFrame,if_neg nonempty,if_neg (by simp [willing.1]),if_neg (by simp [willing.2])]
  simp only [record_arr,single,if_false]
  rfl

theorem printFrame_pair (nonempty : line ≠ []) (willing : Willing locals)
    (kind : classify (extract locals.arr line) = .data) (next : Text) (rest : List Text) :
    printFrame printPacket protocol frame locals (line :: next :: rest) =
      printFrame printPacket protocol frame (look protocol locals line) rest := by
  rw [printFrame,if_neg nonempty,if_neg (by simp [willing.1]),if_neg (by simp [willing.2])]
  simp only [record_arr,kind,if_true]
  rfl

theorem printFrame_last (nonempty : line ≠ []) (willing : Willing locals)
    (kind : classify (extract locals.arr line) = .data) :
    printFrame printPacket protocol frame locals [line] = ([],some (look protocol locals line),[]) := by
  rw [printFrame,if_neg nonempty,if_neg (by simp [willing.1]),if_neg (by simp [willing.2])]
  simp only [record_arr,kind,if_true]
  rfl

/-- The line about a heartbeat, where the loop has set its flag. -/
def heard (locals : Locals) : List Entry :=
  if printPacket = true ∧ locals.heartbeat = true then [.heartbeat frame] else []

theorem heard_willing (willing : Willing locals) : heard printPacket frame locals = [] := by
  simp [heard,willing.2]

theorem getHeartBeat_look (willing : Willing locals) :
    getHeartBeat printPacket frame (extract locals.arr line) = heard printPacket frame (look protocol locals line) := by
  obtain ⟨_,quiet⟩ := willing
  unfold getHeartBeat heard look record
  cases classify (extract locals.arr line) <;> simp [quiet]

/-- Only the last line that the loop looks at can be a heartbeat. -/
theorem printFrame_reaches (willing : Willing locals) (reached : Reaches protocol locals before last) (rest : List Text) :
    printFrame printPacket protocol frame locals (before ++ rest) =
      (heard printPacket frame last ++ (printFrame printPacket protocol frame last rest).1,
        (printFrame printPacket protocol frame last rest).2) := by
  induction reached with
  | nil => rw [heard_willing printPacket frame willing]; rfl
  | @line locals last line before nonempty here single later ih =>
    rw [List.cons_append,printFrame_look printPacket frame nonempty here single,getHeartBeat_look printPacket frame here]
    by_cases goes : Willing (look protocol locals line)
    · rw [ih goes,heard_willing printPacket frame goes]
      rfl
    · cases later with
      | nil => rfl
      | line _ next _ _ => exact absurd next goes
      | data _ next _ _ => exact absurd next goes
  | @data locals last line next before nonempty here kind later ih =>
    have goes : Willing (look protocol locals line) :=
      (willing_look here line).mpr fun halts => halts_single halts kind
    rw [List.cons_append,List.cons_append,printFrame_pair printPacket frame nonempty here kind,ih goes]

/-- Printing changes nothing in the result, and at most one line is about a heartbeat. -/
theorem printFrame_result (willing : Willing locals) (lines : List Text) :
    (printFrame printPacket protocol frame locals lines).2 = readFrame protocol locals lines ∧
      ((printFrame printPacket protocol frame locals lines).1 = [] ∨
        printPacket = true ∧ (printFrame printPacket protocol frame locals lines).1 = [.heartbeat frame]) := by
  have once (locals : Locals) : heard printPacket frame locals = [] ∨
      printPacket = true ∧ heard printPacket frame locals = [.heartbeat frame] := by
    unfold heard
    split
    next both => exact Or.inr ⟨both.1,rfl⟩
    next => exact Or.inl rfl
  have ending := readFrame_ending protocol locals lines
  generalize readFrame protocol locals lines = result at ending
  cases ending with
  | file reached =>
    have printed := printFrame_reaches printPacket frame willing reached []
    rw [List.append_nil] at printed
    rw [printed]
    exact ⟨rfl,by simpa [printFrame] using once _⟩
  | blank rest reached =>
    rw [printFrame_reaches printPacket frame willing reached,printFrame_blank]
    exact ⟨rfl,by simpa using once _⟩
  | early rest reached nonempty unwilling =>
    rw [printFrame_reaches printPacket frame willing reached,printFrame_unwilling printPacket frame nonempty unwilling]
    exact ⟨rfl,by simpa using once _⟩
  | cut reached nonempty still kind =>
    rw [printFrame_reaches printPacket frame willing reached,printFrame_last printPacket frame nonempty still kind]
    exact ⟨rfl,by simpa using once _⟩

end frame

section calls
variable (printPacket : Bool) (protocol : Text)

/-- The lines of the table that a call prints. -/
def callEntries (call : Call) : List Entry :=
  (printFrame printPacket protocol call.frame {} call.lines).1 ++
    printRow printPacket call.frame (readFrame protocol {} call.lines).1

theorem call_result (frame : Int32) (lines : List Text) :
    (printFrame printPacket protocol frame {} lines).2 = readFrame protocol {} lines ∧
      ((printFrame printPacket protocol frame {} lines).1 = [] ∨
        printPacket = true ∧ (printFrame printPacket protocol frame {} lines).1 = [.heartbeat frame]) :=
  printFrame_result printPacket frame ⟨rfl,rfl⟩ lines

theorem printCall_eq (frame : Int32) (parser : DataParser) (lines : List Text) :
    printCall printPacket frame parser lines =
      (callEntries printPacket parser.protocol ⟨frame,lines⟩,dataExtractor parser lines) := by
  have result := (call_result printPacket parser.protocol frame lines).1
  rw [printCall,callEntries,dataExtractor_eq,← result]

theorem printLoop_calls (fuel : Nat) (current : Int32) (arr : Words) (parser : DataParser) (lines : List Text) :
    printLoop printPacket fuel current arr parser lines =
      ((packetCalls parser.protocol fuel current arr lines).flatMap (callEntries printPacket parser.protocol),
        packetLoop fuel current arr parser lines) := by
  induction fuel generalizing current arr parser lines with
  | zero => rfl
  | succ fuel ih =>
    cases lines with
    | nil => rfl
    | cons line rest =>
      rw [printLoop,packetCalls,packetLoop]
      split
      · have kept := dataExtractor_protocol parser rest
        have left : (dataExtractor parser rest).2 = (readFrame parser.protocol {} rest).2 := by rw [dataExtractor_eq]
        rw [printCall_eq]
        simp only [ih,kept,left,List.flatMap_cons]
      · exact ih current _ parser rest

theorem packetExtractor_calls (parser : DataParser) (lines : List Text) :
    packetExtractor printPacket parser lines =
      ((calls parser.protocol lines).flatMap (callEntries printPacket parser.protocol),parser.packetExtractor lines) :=
  printLoop_calls _ _ _ _ _ _

theorem packetCalls_frames (fuel : Nat) (current : Int32) (arr : Words) (lines : List Text) : ∃ count ≤ fuel,
    (packetCalls protocol fuel current arr lines).map Call.frame =
      (List.range count).map fun i => current + Int32.ofNat i := by
  induction fuel generalizing current arr lines with
  | zero => exact ⟨0,Nat.le_refl _,rfl⟩
  | succ fuel ih =>
    cases lines with
    | nil => exact ⟨0,Nat.zero_le _,rfl⟩
    | cons line rest =>
      rw [packetCalls]
      split
      · obtain ⟨count,bound,later⟩ := ih (current+1) (extract arr line) (readFrame protocol {} rest).2
        refine ⟨count+1,Nat.succ_le_succ bound,?_⟩
        have next (i : Nat) : current + 1 + Int32.ofNat i = current + Int32.ofNat (i+1) := by
          rw [Int32.add_assoc,Int32.ofNat_add,Int32.add_comm 1]
          rfl
        rw [List.map_cons,later,List.range_succ_eq_map,List.map_cons,List.map_map]
        simp only [Function.comp_def,next]
        simp
      · obtain ⟨count,bound,same⟩ := ih current (extract arr line) rest
        exact ⟨count,Nat.le_succ_of_le bound,same⟩

/-- The numbers of the frames rise as long as the counter does not overflow. -/
theorem calls_rise (lines : List Text) (short : lines.length < 2^31) :
    ((calls protocol lines).map Call.frame).Pairwise (· < ·) := by
  obtain ⟨count,bound,same⟩ := packetCalls_frames protocol lines.length 1 (fun _ => []) lines
  have one : (1 : Int32).toInt = 1 := by decide
  have exact (i : Nat) (small : i < 2^31-1) : (1 + Int32.ofNat i).toInt = 1 + i := by
    rw [Int32.toInt_add,Int32.toInt_ofNat_of_lt (by omega),one]
    exact Int.bmod_eq_of_le (by omega) (by omega)
  rw [calls,same,List.pairwise_map]
  refine List.pairwise_lt_range.imp_of_mem fun first second less => ?_
  rw [List.mem_range] at first second
  rw [Int32.lt_iff_toInt_lt,exact _ (by omega),exact _ (by omega)]
  omega

end calls

namespace Entry

def frame : Entry → Int32
  | .heartbeat packet => packet
  | .row frame _ => frame

def locals? : Entry → Option Locals
  | .heartbeat _ => none
  | .row _ locals => some locals

def isRow : Entry → Bool
  | .heartbeat _ => false
  | .row _ _ => true

end Entry

/-- The protocol list of a frame lacks the protocol, and the loop heeds it. -/
def Foreign (protocol : Text) (lines : List Text) : Prop :=
  ∃ (before : List Text) (line next : Text) (after : List Text) (locals : Locals),
    lines = before ++ line :: next :: after ∧ Reaches protocol {} before locals ∧ Willing locals ∧ next ≠ [] ∧
    classify (extract locals.arr line) = .protocols ∧ getPacketProtocol protocol (extract locals.arr line) = false

/-- The table has the frames of the totals, each once and under its number, and a line about a
heartbeat or a foreign protocol list for every other frame. -/
structure Table (protocol : Text) (lines : List Text) (entries : List Entry) : Prop where
  rows : entries.filterMap Entry.locals? = accepted protocol lines
  rowsRise : ((entries.filter Entry.isRow).map Entry.frame).Pairwise (· < ·)
  heartbeatsRise : ((entries.filter fun entry => !entry.isRow).map Entry.frame).Pairwise (· < ·)
  missing : ∀ call ∈ calls protocol lines, (∀ entry ∈ entries, entry.frame ≠ call.frame) → Foreign protocol call.lines

section entries
variable (protocol : Text)

theorem callEntries_rows (call : Call) :
    (callEntries true protocol call).filterMap Entry.locals? = (readFrame protocol {} call.lines).1.toList := by
  have heartbeats := (call_result true protocol call.frame call.lines).2
  rw [callEntries,List.filterMap_append]
  rcases heartbeats with nothing | ⟨_,one⟩
  · rw [nothing]
    cases (readFrame protocol {} call.lines).1 <;> rfl
  · rw [one]
    cases (readFrame protocol {} call.lines).1 <;> rfl

theorem callEntries_numbers (call : Call) (kind : Bool) :
    (((callEntries true protocol call).filter fun entry => entry.isRow = kind).map Entry.frame).Sublist [call.frame] := by
  have heartbeats := (call_result true protocol call.frame call.lines).2
  rw [callEntries]
  rcases heartbeats with nothing | ⟨_,one⟩
  · rw [nothing]
    cases (readFrame protocol {} call.lines).1 <;> cases kind <;> simp [printRow,Entry.isRow,Entry.frame]
  · rw [one]
    cases (readFrame protocol {} call.lines).1 <;> cases kind <;> simp [printRow,Entry.isRow,Entry.frame]

theorem entries_numbers (made : List Call) (kind : Bool) :
    (((made.flatMap (callEntries true protocol)).filter fun entry => entry.isRow = kind).map Entry.frame).Sublist
      (made.map Call.frame) := by
  induction made with
  | nil => exact List.Sublist.refl _
  | cons call made ih =>
    rw [List.flatMap_cons,List.filter_append,List.map_append,List.map_cons]
    exact (callEntries_numbers protocol call kind).append ih

theorem callEntries_off (call : Call) : callEntries false protocol call = [] := by
  have heartbeats := (call_result false protocol call.frame call.lines).2
  rw [callEntries,heartbeats.resolve_right fun printed => Bool.false_ne_true printed.1]
  rfl

/-- A frame without a line was dropped for its protocol list. -/
theorem callEntries_none {call : Call} (unprinted : callEntries true protocol call = []) :
    Foreign protocol call.lines := by
  have willing : Willing ({} : Locals) := ⟨rfl,rfl⟩
  obtain ⟨silent,no_row⟩ := List.append_eq_nil_iff.mp unprinted
  have dropped : (readFrame protocol {} call.lines).1 = none := by
    cases result : (readFrame protocol {} call.lines).1 with
    | none => rfl
    | some locals =>
      rw [result] at no_row
      cases no_row
  obtain ⟨before,line,next,after,locals,shape,reads,still,visible,halts,nonempty⟩ := (readFrame_none _).mp dropped
  refine ⟨before,line,next,after,locals,shape,reads,still,nonempty,?_⟩
  rw [shape,printFrame_reaches true call.frame willing reads,heard_willing true call.frame still,List.nil_append,
    printFrame_look true call.frame visible still (halts_single halts)] at silent
  have quiet := (List.append_eq_nil_iff.mp silent).1
  rcases halts with beats | acknowledges | foreign
  · rw [getHeartBeat,beats] at quiet
    cases quiet
  · rw [getHeartBeat,acknowledges] at quiet
    cases quiet
  · exact foreign

theorem callEntries_frame (call : Call) : ∀ entry ∈ callEntries true protocol call, entry.frame = call.frame := by
  have heartbeats := (call_result true protocol call.frame call.lines).2
  intro entry member
  rcases List.mem_append.mp member with beat | row
  · rcases heartbeats with nothing | ⟨_,one⟩
    · rw [nothing] at beat
      cases beat
    · rw [one] at beat
      rw [List.mem_singleton.mp beat]
      rfl
  · rw [printRow,if_pos rfl,Option.mem_toList,Option.map_eq_some_iff] at row
    obtain ⟨locals,_,rfl⟩ := row
    rfl

end entries

theorem table_calls (protocol : Text) (lines : List Text) (short : lines.length < 2^31) :
    Table protocol lines ((calls protocol lines).flatMap (callEntries true protocol)) := by
  have rise := calls_rise protocol lines short
  refine ⟨?_,?_,?_,?_⟩
  · rw [accepted,List.filterMap_flatMap]
    simp only [callEntries_rows]
    exact (List.filterMap_eq_flatMap_toList _ _).symm
  · exact rise.sublist (by simpa using entries_numbers protocol (calls protocol lines) true)
  · exact rise.sublist (by simpa using entries_numbers protocol (calls protocol lines) false)
  · intro call member missing
    refine callEntries_none protocol (List.eq_nil_iff_forall_not_mem.mpr fun entry inside => ?_)
    exact missing entry (List.mem_flatMap.mpr ⟨call,member,inside⟩) (callEntries_frame protocol call entry inside)

/-- No print flag changes what is added to the summary file, and the table that is printed on
demand belongs to its totals. -/
theorem table_faithful (special : Column → Text) (odd : Heading → Locals → Text) (print filename sumFileOut : Text)
    (flags : PrintFlags) (known : printFlags print = some flags) (parser : DataParser) (lines : List Text)
    (short : lines.length < 2^31) : ∃ entries,
      let rows := entries.filterMap Entry.locals?
      let final := parser.packetExtractor lines
      run special odd print filename sumFileOut parser lines =
        some (gui flags.printPacket filename sumFileOut parser.protocol ++
            (if flags.printPacket then entries.flatMap (Entry.text odd parser.protocol) else []) ++
            (starLine ++ ['\n']) ++ (if flags.printAll then totals special filename final else []),
          rowText special final ++ ['\n']) ∧
      Table parser.protocol lines entries ∧
      final.packetCounter = parser.packetCounter + Int32.ofNat rows.length ∧
      final.totalUsefulData = parser.totalUsefulData + usefulBytes rows ∧
      final.dataChunks = (rows.map Locals.dataChunkCount).foldl (· + ·) parser.dataChunks := by
  have table := table_calls parser.protocol lines short
  refine ⟨_,?_,table,?_⟩
  · rw [run,known,Option.bind_eq_bind,Option.bind_some,packetExtractor_calls]
    cases packet : flags.printPacket with
    | true => rfl
    | false => rw [List.flatMap_eq_nil_iff.mpr fun call _ => callEntries_off parser.protocol call]; rfl
  · rw [table.rows,packetExtractor_accepted,foldl_packetCounter,foldl_totalUsefulData,foldl_dataChunks]
    exact ⟨rfl,rfl,rfl⟩

def sourceLine : Text := "Source: 10.0.0.2 (10.0.0.2)".toList

def destinationLine : Text := "Destination: 10.0.0.1 (10.0.0.1)".toList

/-- A heartbeat, a frame of data and a frame of another protocol. -/
def mixed : List Text := blockLines [⟨headerLine 1,[heartbeatLine,epochLine]⟩,
  ⟨headerLine 2,sourceLine :: destinationLine :: payloadBody⟩,⟨headerLine 3,[foreignLine,epochLine]⟩]

theorem table_faithful_mixed : ∃ entries, Table sctpParser.protocol mixed entries ∧
    (sctpParser.packetExtractor mixed).packetCounter =
      sctpParser.packetCounter + Int32.ofNat (entries.filterMap Entry.locals?).length := by
  obtain ⟨entries,_,table,counted,_⟩ := table_faithful (fun _ => nan) (fun _ _ => nan) "-printall".toList
    "server.txt".toList "sctp_simtotal.dat".toList ⟨true,true⟩ (by decide) sctpParser mixed (by decide)
  exact ⟨entries,table,counted⟩

example : ((packetExtractor true sctpParser mixed).1.map fun entry => (entry.frame,entry.isRow)) =
    [(1,false),(2,true)] := by decide +kernel

/-- The words that the loop keeps from line to line. -/
structure Spaceless (locals : Locals) : Prop where
  arr : ∀ i, ∀ c ∈ locals.arr i, isSpace c = false
  sender : ∀ c ∈ locals.sender, isSpace c = false
  reciever : ∀ c ∈ locals.reciever, isSpace c = false

theorem spaceless_look {protocol : Text} {locals : Locals} (spaceless : Spaceless locals) (line : Text) :
    Spaceless (look protocol locals line) := by
  have arr : ∀ i, ∀ c ∈ extract locals.arr line i, isSpace c = false := by
    intro i c member
    unfold extract at member
    cases found : (words line)[i.val]? with
    | none =>
      rw [found] at member
      exact spaceless.arr i c member
    | some word =>
      rw [found] at member
      exact words_letters line word (List.mem_of_getElem? found) c member
  refine ⟨?_,?_,?_⟩
  · rw [look_arr]
    exact arr
  · unfold look record
    cases classify (extract locals.arr line) <;> first | exact spaceless.sender | exact arr 1
  · unfold look record
    cases classify (extract locals.arr line) <;> first | exact spaceless.reciever | exact arr 1

theorem spaceless_reaches {protocol : Text} {locals last : Locals} {before : List Text} (spaceless : Spaceless locals)
    (reached : Reaches protocol locals before last) : Spaceless last := by
  induction reached with
  | nil => exact spaceless
  | line _ _ _ _ ih => exact ih (spaceless_look spaceless _)
  | data _ _ _ _ ih => exact ih (spaceless_look spaceless _)

theorem spaceless_accepted {protocol : Text} {lines : List Text} {locals : Locals}
    (member : locals ∈ accepted protocol lines) : Spaceless locals := by
  obtain ⟨call,_,result⟩ := List.mem_filterMap.mp member
  have blank : Spaceless ({} : Locals) :=
    ⟨fun _ _ nothing => absurd nothing List.not_mem_nil,fun _ nothing => absurd nothing List.not_mem_nil,
      fun _ nothing => absurd nothing List.not_mem_nil⟩
  have ending := readFrame_ending protocol {} call.lines
  generalize readFrame protocol {} call.lines = outcome at ending result
  generalize call.lines = read at ending
  cases ending with
  | file reached =>
    obtain rfl := Option.some.inj result
    exact spaceless_reaches blank reached
  | blank rest reached =>
    obtain rfl := Option.some.inj result
    exact spaceless_reaches blank reached
  | early rest reached nonempty unwilling => cases result
  | cut reached nonempty willing kind =>
    obtain rfl := Option.some.inj result
    exact spaceless_look (spaceless_reaches blank reached) _

theorem numeral_word {text : Text} (nonempty : text ≠ []) (letters : ∀ c ∈ text, Numeral c) : Word text := by
  refine ⟨nonempty,fun c member => ?_⟩
  rcases letters c member with digit | sign
  · exact digit_not_space digit
  · have signs : ".-+e".toList.all (fun c => !isSpace c) = true := by decide
    simpa using List.all_eq_true.mp signs c sign

theorem decimal_word (value : Int) : Word (decimal value) := by
  refine numeral_word ?_ fun c member => ?_
  · obtain ⟨d,tail,shape,_⟩ := toDigits_head value.natAbs
    unfold decimal
    split <;> simp [shape]
  · rcases decimal_letters member with rfl | digit
    · exact Or.inr (by decide)
    · exact Or.inl digit

theorem nan_word : Word nan := by
  have letters : nan.all (fun c => !isSpace c) = true := by decide
  exact ⟨by decide,fun c member => by simpa using List.all_eq_true.mp letters c member⟩

section rows
variable (special : Heading → Locals → Text) (plain : ∀ heading locals, Word (special heading locals)) (protocol : Text)
include plain

theorem cell_word {locals : Locals} (spaceless : Spaceless locals) (named : locals.sender ≠ [] ∧ locals.reciever ≠ [])
    (frame : Int32) (heading : Heading) : Word (cell special protocol frame locals heading) := by
  have double (value : Double) (heading : Heading) : Word ((value.map general).getD (special heading locals)) := by
    cases value with
    | none => exact plain heading locals
    | some value => exact numeral_word (general_nonempty value) fun c member => general_letters c member
  cases heading with
  | frame => exact decimal_word _
  | sender => exact ⟨named.1,spaceless.sender⟩
  | receiver => exact ⟨named.2,spaceless.reciever⟩
  | time => exact double _ _
  | ttl =>
    rw [cell]
    split
    next => exact double _ _
    next => exact nan_word
  | length => exact double _ _
  | data => exact decimal_word _
  | chunks =>
    rw [cell]
    split
    next => exact decimal_word _
    next => exact nan_word

/-- A printed row is read back cell by cell exactly if every cell but the last one is shorter
than its column: a longer one runs into the next. -/
theorem rows_read_iff (lines : List Text) (locals : Locals) (member : locals ∈ accepted protocol lines)
    (named : locals.sender ≠ [] ∧ locals.reciever ≠ []) (frame : Int32) :
    words (Entry.text special protocol (.row frame locals)) = headings.map (cell special protocol frame locals) ↔
      ∀ heading ∈ headings.dropLast, (cell special protocol frame locals heading).length < heading.width := by
  have word := cell_word special plain protocol (spaceless_accepted member) named frame
  have read := words_line_iff (cells special protocol frame locals) (List.forall_mem_map.mpr fun heading _ => word heading)
  rw [cells,List.map_map,← List.map_dropLast,List.forall_mem_map] at read
  exact read

end rows

theorem mixed_named : (accepted "sctp".toList mixed).map (fun locals => (locals.sender,locals.reciever)) =
    [("10.0.0.2".toList,"10.0.0.1".toList)] := by decide +kernel

theorem rows_read_mixed : ∃ locals ∈ accepted "sctp".toList mixed, locals.sender = "10.0.0.2".toList ∧
    (words (Entry.text (fun _ _ => nan) "sctp".toList (.row 2 locals)) =
        headings.map (cell (fun _ _ => nan) "sctp".toList 2 locals) ↔
      ∀ heading ∈ headings.dropLast, (cell (fun _ _ => nan) "sctp".toList 2 locals heading).length < heading.width) := by
  obtain ⟨locals,rest,made,names,_⟩ := List.map_eq_cons_iff.mp mixed_named
  have member : locals ∈ accepted "sctp".toList mixed := by rw [made]; exact List.mem_cons_self
  obtain ⟨sender,reciever⟩ := Prod.mk.inj names
  refine ⟨locals,member,sender,?_⟩
  exact rows_read_iff (fun _ _ => nan) (fun _ _ => nan_word) "sctp".toList mixed locals member
    ⟨by rw [sender]; decide,by rw [reciever]; decide⟩ 2

end ProtocolTests.Console
