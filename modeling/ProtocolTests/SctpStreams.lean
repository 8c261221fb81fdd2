import ProtocolTests.ClientLoad

/-! The stream cursor of the SCTP client against the streams that its association has. -/
namespace ProtocolTests.SctpStreams
open Library.RoundRobin Client ClientLoad

/-- `MAX_STREAMS` of both programs. -/
def MAX_STREAMS : UInt16 := 512

/-- The fields of `sctp_initmsg` that limit the streams. -/
structure Initmsg where
  sinitNumOstreams : UInt16
  sinitMaxInstreams : UInt16

def clientInitmsg : Initmsg := ⟨MAX_STREAMS,MAX_STREAMS⟩

def serverInitmsg : Initmsg := ⟨MAX_STREAMS,MAX_STREAMS⟩

/-- The outgoing streams that the client has asked for, as far as the server takes them. -/
def outstrms : Nat := min clientInitmsg.sinitNumOstreams.toNat serverInitmsg.sinitMaxInstreams.toNat

/-- `stream_i` becomes the `uint16_t` parameter of `sctp_sendmsg`. -/
def streamNo (streamI : Nat) : UInt16 := UInt16.ofNat streamI

def Carried (sent : List (Nat × Text)) : Prop := ∀ sending ∈ sent, (streamNo sending.1).toNat < outstrms

theorem outstrms_eq : outstrms = 512 := by decide

theorem carried_load (len numCycles numStreams : Nat) : Carried (load len numCycles numStreams) ↔
    ∀ k < numCycles * chunks 1024 len, k % numStreams % 2^16 < 512 := by
  rw [Carried,load,List.forall_mem_map,outstrms_eq]
  simp only [List.mem_range,streamNo,message,UInt16.toNat_ofNat']
  rfl

theorem carried_load_iff (len numCycles numStreams : Nat) (positive : 0 < numStreams) :
    Carried (load len numCycles numStreams) ↔ numStreams ≤ 512 ∨ numCycles * chunks 1024 len ≤ 512 := by
  rw [carried_load]
  generalize numCycles * chunks 1024 len = count
  constructor
  · intro carried
    by_contra beyond
    -- Message 512 goes to stream 512, unless the cursor has wrapped before.
    have stream : 512 % numStreams = 512 := Nat.mod_eq_of_lt (by omega)
    have refused := carried 512 (by omega)
    rw [stream] at refused
    exact absurd refused (by decide)
  · intro bound k inside
    have wraps := Nat.mod_lt k positive
    have small := Nat.mod_le k numStreams
    have cut := Nat.mod_le (k % numStreams) (2^16)
    omega

/-- All chunks go to streams of the association exactly if the user asks for no more than
it has, or the whole run has no more chunks than that. -/
theorem carried_iff (options : Sctp.Options) (garbage : Fin bufferSize → Char)
    (some_stream : 1 ≤ options.numStreams) :
    Carried (messages (Sctp.sendLoop options garbage).trace) ↔ options.numStreams.toNat ≤ 512 ∨
      options.numCycles.toNat * chunks 1024 options.bytesToTransfer.toInt32.toInt.toNat ≤ 512 := by
  have positive : 0 < options.numStreams.toNat := UInt32.le_iff_toNat_le.mp some_stream
  rw [sctp_load options garbage positive,carried_load_iff _ _ _ positive]

theorem carried_one_stream : Carried (messages (Sctp.sendLoop {bytesToTransfer := 5} fun _ => 'x').trace) ↔
    (1 : UInt32).toNat ≤ 512 ∨ (1 : UInt32).toNat * chunks 1024 (5 : UInt32).toInt32.toInt.toNat ≤ 512 :=
  carried_iff {bytesToTransfer := 5} (fun _ => 'x') (by decide)

/-- 513 streams and 513 chunks of one byte each: the last one goes to stream 512. -/
theorem stream_refused : (1 : UInt32) ≤ 513 ∧
    ¬Carried (messages (Sctp.sendLoop {bytesToTransfer := 1,numStreams := 513,numCycles := 513} fun _ => 'x').trace) := by
  refine ⟨by decide,fun carried => ?_⟩
  rw [sctp_load _ _ (by decide)] at carried
  have last : message 1 513 512 ∈ load 1 513 513 := List.mem_map_of_mem (List.mem_range.mpr (by decide))
  exact absurd (carried _ last) (by decide)

end ProtocolTests.SctpStreams
