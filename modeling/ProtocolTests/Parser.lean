import ProtocolTests.Library.CString

/-! The parser of the text that tshark prints for a capture. A double is its exact
value, with `none` for one that was never assigned, and an `int` that overflows wraps
around; a file is the list of its lines. What is only printed on the console for every packet is left out. -/
namespace ProtocolTests.Parser
open Library.CString

abbrev NUM_OF_WORDS : Nat := 5

instance : NeZero NUM_OF_WORDS := ⟨by decide⟩

/-- The word array `arr`, which both readers keep from line to line. -/
abbrev Words := Fin NUM_OF_WORDS → Text

abbrev Double := Option ℚ

def Double.add (first second : Double) : Double := do return (← first) + (← second)

def Double.sub (first second : Double) : Double := do return (← first) - (← second)

/-- A quotient by zero is infinite or no number, and has no value here. -/
def Double.div (first second : Double) : Double := do
  let first ← first
  let second ← second
  if second = 0 then none else return first / second

structure DataParser where
  protocol : Text
  timeFix : Double
  totalUsefulData : ℚ
  totalData : Double
  dataChunks : Int32
  totalTime : Double
  numberOfStreamsPerClient : Int32
  packetCounter : Int32
  expectedData : ℚ
  numClients : Int32

def DataParser.create (protocol : Text) (expectedData numClients numberOfStreamsPerClient : Int32) :
    DataParser where
  protocol := protocol
  timeFix := some (-1)
  totalUsefulData := 0
  totalData := some 0
  dataChunks := 0
  totalTime := some 0
  numberOfStreamsPerClient := numberOfStreamsPerClient
  packetCounter := 0
  expectedData := expectedData.toInt
  numClients := numClients

def startDataParser (protocol : Text) (numClients dataBytesPerClient numberOfStreamsPerClient : Int32) :
    DataParser :=
  let expectedData := numClients * dataBytesPerClient
  .create protocol expectedData numClients numberOfStreamsPerClient

/-- The loop `while (str.good() && words < NUM_OF_WORDS)`: an extraction that finds no
further word leaves its target as it is. -/
def extract (arr : Words) (line : Text) : Words := fun i => (words line)[i.val]?.getD (arr i)

def getPacketLength (arr : Words) : ℚ := atof (arr 2)

def getEpochTime (arr : Words) : ℚ := atof (arr 2)

def getTTL (arr : Words) : ℚ := atof (arr 3)

def getPayload (arr : Words) : Int32 := truncate (atof ((arr 1).filter (· ≠ '(')))

def getSender (arr : Words) : Text := arr 1

def getReciever (arr : Words) : Text := arr 1

/-- The character loop of `getPacketProtocol` with the token read so far. -/
def scanProtocols (protocol : Text) : Text → Text → Bool
  | _, [] => false
  | nextPr, c :: rest =>
    if c ≠ ':' ∧ c ≠ ']' then scanProtocols protocol (nextPr ++ [c]) rest
    else if c = ':' then
      if nextPr = protocol then true else scanProtocols protocol [] rest
    else
      if nextPr = protocol then true else scanProtocols protocol nextPr rest

def getPacketProtocol (protocol : Text) (arr : Words) : Bool := scanProtocols protocol [] (arr 3)

/-- The branches of the line loop of `dataExtractor`, in the order in which they are tried. -/
inductive Key
  | heartbeat
  | heartbeatAck
  | protocols
  | epochTime
  | frameLength
  | source
  | destination
  | timeToLive
  | data
  | other
  deriving DecidableEq

def classify (arr : Words) : Key :=
  if arr 0 ++ ' ' :: arr 1 = "HEARTBEAT chunk".toList then .heartbeat
  else if arr 0 ++ ' ' :: arr 1 = "HEARTBEAT_ACK chunk".toList then .heartbeatAck
  else if arr 0 ++ ' ' :: arr 1 ++ ' ' :: arr 2 = "[Protocols in frame:".toList then .protocols
  else if arr 0 ++ ' ' :: arr 1 = "Epoch Time:".toList then .epochTime
  else if arr 0 ++ ' ' :: arr 1 = "Frame Length:".toList then .frameLength
  else if arr 0 = "Source:".toList then .source
  else if arr 0 = "Destination:".toList then .destination
  else if arr 0 ++ ' ' :: arr 1 ++ ' ' :: arr 2 = "Time to live:".toList then .timeToLive
  else if arr 0 = "Data".toList then .data
  else .other

/-- The local variables of `dataExtractor`. -/
structure Locals where
  arr : Words := fun _ => []
  correctProtocol : Bool := true
  heartbeat : Bool := false
  frameLength : Double := none
  epochTime : Double := none
  timeToLive : Double := none
  dataLength : Int32 := 0
  dataChunkCount : Int32 := 0
  sender : Text := []
  reciever : Text := []

/-- What the branch of a key assigns. The `data` branch has also read another line,
which is the business of the loop. -/
def record (protocol : Text) (locals : Locals) : Locals :=
  match classify locals.arr with
  | .heartbeat => {locals with heartbeat := true}
  | .heartbeatAck => {locals with heartbeat := true}
  | .protocols => {locals with correctProtocol := getPacketProtocol protocol locals.arr}
  | .epochTime => {locals with epochTime := some (getEpochTime locals.arr)}
  | .frameLength => {locals with frameLength := some (getPacketLength locals.arr)}
  | .source => {locals with sender := getSender locals.arr}
  | .destination => {locals with reciever := getReciever locals.arr}
  | .timeToLive => {locals with timeToLive := some (getTTL locals.arr)}
  | .data =>
    {locals with
      dataLength := locals.dataLength + getPayload locals.arr
      dataChunkCount := if protocol = "sctp".toList then locals.dataChunkCount + 1 else locals.dataChunkCount}
  | .other => locals

/-- The line loop of `dataExtractor`: the local variables when it ends in the update of
the totals, nothing when it returns early, and the lines it leaves unread. -/
def readFrame (protocol : Text) : Locals → List Text → Option Locals × List Text
  | locals, [] => (some locals,[])
  | locals, line :: rest =>
    if line = [] then (some locals,rest)
    -- An early return has taken this line, so the outer loop does not see it.
    else if locals.correctProtocol = false then (none,rest)
    else if locals.heartbeat = true then (none,rest)
    else
      let locals := record protocol {locals with arr := extract locals.arr line}
      if classify locals.arr = .data then
        -- The second `getline` takes the line behind a line of data unread.
        match rest with
        | [] => (some locals,[])
        | _ :: after => readFrame protocol locals after
      else readFrame protocol locals rest

/-- The statements behind the line loop. -/
def DataParser.update (parser : DataParser) (locals : Locals) : DataParser :=
  let timeFix := if parser.timeFix = some (-1) then locals.epochTime else parser.timeFix
  {parser with
    timeFix := timeFix
    totalTime := locals.epochTime.sub timeFix
    totalUsefulData := parser.totalUsefulData + locals.dataLength.toInt
    totalData := parser.totalData.add locals.frameLength
    dataChunks := parser.dataChunks + locals.dataChunkCount
    packetCounter := parser.packetCounter + 1}

def dataExtractor (parser : DataParser) (lines : List Text) : DataParser × List Text :=
  match readFrame parser.protocol {} lines with
  | (some locals,rest) => (parser.update locals,rest)
  | (none,rest) => (parser,rest)

def frameWord (currentFrame : Int32) : Text := decimal currentFrame.toInt ++ [':']

/-- The loop of `packetExtractor`. Every pass reads at least one line, so the lines of the
file bound the passes. -/
def packetLoop : Nat → Int32 → Words → DataParser → List Text → DataParser
  | 0, _, _, parser, _ => parser
  | _+1, _, _, parser, [] => parser
  | fuel+1, currentFrame, arr, parser, line :: rest =>
    let arr := extract arr line
    if arr 0 = "Frame".toList ∧ arr 1 = frameWord currentFrame then
      let (parser,rest) := dataExtractor parser rest
      packetLoop fuel (currentFrame + 1) arr parser rest
    else packetLoop fuel currentFrame arr parser rest

/-- The parser with which `packetExtractor` calls `insertTotalData`. -/
def DataParser.packetExtractor (parser : DataParser) (lines : List Text) : DataParser :=
  packetLoop lines.length 1 (fun _ => []) parser lines

end ProtocolTests.Parser
