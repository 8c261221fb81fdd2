import ProtocolTests.LineLoop
import ProtocolTests.TranscriptFrames

/-! The calls of `dataExtractor` that `packetExtractor` makes on a transcript of any
kind, and the frames that end in an update of the totals. -/
namespace ProtocolTests.PacketCalls
open Library.CString ProtocolTests.Parser Transcript TranscriptFrames LineLoop

structure Call where
  frame : Int32
  /-- The lines that are unread when the call is made. -/
  lines : List Text
  deriving DecidableEq

/-- The loop of `packetExtractor` with its calls for a result. -/
def packetCalls (protocol : Text) : Nat → Int32 → Words → List Text → List Call
  | 0, _, _, _ => []
  | _+1, _, _, [] => []
  | fuel+1, currentFrame, arr, line :: rest =>
    let arr := extract arr line
    if arr 0 = "Frame".toList ∧ arr 1 = frameWord currentFrame then
      ⟨currentFrame,rest⟩ :: packetCalls protocol fuel (currentFrame + 1) arr (readFrame protocol {} rest).2
    else packetCalls protocol fuel currentFrame arr rest

def calls (protocol : Text) (lines : List Text) : List Call :=
  packetCalls protocol lines.length 1 (fun _ => []) lines

/-- The local variables of the calls that update the totals. -/
def accepted (protocol : Text) (lines : List Text) : List Locals :=
  (calls protocol lines).filterMap fun call => (readFrame protocol {} call.lines).1

theorem dataExtractor_eq (parser : DataParser) (lines : List Text) : dataExtractor parser lines =
    (((readFrame parser.protocol {} lines).1.map parser.update).getD parser,(readFrame parser.protocol {} lines).2) := by
  unfold dataExtractor
  cases readFrame parser.protocol {} lines with
  | mk result rest => cases result <;> rfl

theorem dataExtractor_protocol (parser : DataParser) (lines : List Text) :
    (dataExtractor parser lines).1.protocol = parser.protocol := by
  rw [dataExtractor_eq]
  cases (readFrame parser.protocol {} lines).1 <;> rfl

theorem packetLoop_calls (fuel : Nat) (current : Int32) (arr : Words) (parser : DataParser) (lines : List Text) :
    packetLoop fuel current arr parser lines = (packetCalls parser.protocol fuel current arr lines).foldl
      (fun parser call => (dataExtractor parser call.lines).1) parser := by
  induction fuel generalizing current arr parser lines with
  | zero => rfl
  | succ fuel ih =>
    cases lines with
    | nil => rfl
    | cons line rest =>
      rw [packetLoop,packetCalls]
      simp only
      split
      · have kept := dataExtractor_protocol parser rest
        have left : (dataExtractor parser rest).2 = (readFrame parser.protocol {} rest).2 := by rw [dataExtractor_eq]
        rw [List.foldl_cons,ih,kept,left]
      · exact ih current _ parser rest

theorem foldl_accepted (protocol : Text) (made : List Call) (parser : DataParser) (same : parser.protocol = protocol) :
    made.foldl (fun parser call => (dataExtractor parser call.lines).1) parser =
      (made.filterMap fun call => (readFrame protocol {} call.lines).1).foldl DataParser.update parser := by
  induction made generalizing parser with
  | nil => rfl
  | cons call made ih =>
    have kept := (dataExtractor_protocol parser call.lines).trans same
    rw [List.foldl_cons,ih _ kept,List.filterMap_cons,dataExtractor_eq,same]
    cases (readFrame protocol {} call.lines).1 <;> rfl

/-- Every transcript comes down to the updates of its accepted frames. -/
theorem packetExtractor_accepted (parser : DataParser) (lines : List Text) :
    parser.packetExtractor lines = (accepted parser.protocol lines).foldl DataParser.update parser := by
  rw [DataParser.packetExtractor,packetLoop_calls,foldl_accepted parser.protocol _ parser rfl]
  rfl

end ProtocolTests.PacketCalls
