import ProtocolTests.Sender
import ProtocolTests.Library.RoundRobin

/-! Repeated calls of `fill`. On one buffer, as the senders make them, the cursor is a
multiple of `bufferSize - 1` before each call that finds characters left; with a buffer of
its own for each call it stands anywhere. -/
namespace ProtocolTests.SenderCalls
open Library.CString Library.RoundRobin Sender

/-- The result of call `k`, counted from zero, with the content and the buffer after it. -/
def nthCall (bufferSize : Nat) (content : SenderContent) (buffer : Text) :
    Nat → Option (Bool × SenderContent × Text)
  | 0 => content.fill buffer bufferSize
  | k+1 => do
    let (_,content,buffer) ← nthCall bufferSize content buffer k
    content.fill buffer bufferSize

/-- What the calls leave in a buffer of `bufferSize` characters for a text of `len`. -/
structure Chunked (len bufferSize : Nat) (held : Nat → Text) : Prop where
  size : ∀ k, (held k).length = bufferSize
  terminated : ∀ k < chunks (bufferSize-1) len, (held k)[strlen (held k)]? = some '\x00'
  earlier : ∀ k < chunks (bufferSize-1) len, ∀ i < strlen (held k), (held k)[i]? ≠ some '\x00'
  full : ∀ k, k+1 < chunks (bufferSize-1) len → strlen (held k) = bufferSize - 1
  nonempty : ∀ k < chunks (bufferSize-1) len, 0 < strlen (held k)
  joined : (List.range (chunks (bufferSize-1) len)).flatMap (fun k => (held k).take (strlen (held k))) =
    (List.range len).map letter

/-- Every call has a result, so every index it writes lies inside the buffer. The first
`chunks` calls return 1, and the later ones return 0 and leave any buffer as it is. -/
def Emits (length : Int) (bufferSize : Nat) (buffer : Text) : Prop :=
  ∃ (content : Nat → SenderContent) (held : Nat → Text),
    (∀ k, nthCall bufferSize (SenderContent.create length) buffer k =
      some (decide (k < chunks (bufferSize-1) length.toNat),content k,held k)) ∧
    Chunked length.toNat bufferSize held ∧
    ∀ k, chunks (bufferSize-1) length.toNat ≤ k → content (k+1) = content k ∧ held (k+1) = held k ∧
      ∀ other, (content k).fill other bufferSize = some (false,content k,other)

theorem flatMap_slices (width len count : Nat) :
    (List.range count).flatMap (fun k => slice (min len (width*k)) (min len (width*(k+1)))) =
      slice 0 (min len (width*count)) := by
  induction count with
  | zero => simp
  | succ count ih =>
    have further := Nat.mul_le_mul_left width (Nat.le_add_right count 1)
    rw [List.range_succ,List.flatMap_append,ih,List.flatMap_singleton,
      slice_append _ _ _ (Nat.zero_le _) (by omega)]

/-- Call `k` finds the cursor at `width*k` and leaves the text of its own chunk. -/
theorem nthCall_chunk (len width k : Nat) (buffer : Text) (positive : 0 < width)
    (size : buffer.length = width+1) (inside : k < chunks width len) :
    ∃ next, nthCall (width+1) ⟨len,0⟩ buffer k = some (true,⟨len,min len (width*(k+1))⟩,next) ∧
      next.length = width+1 ∧ strlen next = min len (width*(k+1)) - width*k ∧
      next.take (strlen next) = slice (width*k) (min len (width*(k+1))) := by
  have unfinished := (chunks_spec width len k positive).mp inside
  induction k with
  | zero =>
    obtain ⟨next,called,kept,text⟩ := fill_chunk len width 0 buffer positive (by omega) unfinished
    rw [Nat.mul_zero] at called
    exact ⟨next,called,kept.trans size,text⟩
  | succ k ih =>
    have further := Nat.mul_lt_mul_of_pos_left (Nat.lt_add_one k) positive
    obtain ⟨held,earlier,kept,_⟩ := ih (by omega) (by omega)
    have cursor : min len (width*(k+1)) = width*(k+1) := by omega
    obtain ⟨next,called,same,text⟩ := fill_chunk len width (k+1) held positive (by omega) unfinished
    refine ⟨next,?_,same.trans kept,text⟩
    rw [nthCall,earlier,cursor]
    exact called

theorem nthCall_idle (bufferSize k : Nat) (content final : SenderContent) (buffer held : Text) (result : Bool)
    (called : nthCall bufferSize content buffer k = some (result,final,held))
    (finished : final.len ≤ final.i) (later : Nat) (after : k < later) :
    nthCall bufferSize content buffer later = some (false,final,held) := by
  induction later, after using Nat.le_induction with
  | base =>
    rw [nthCall,called]
    exact fill_done final held bufferSize finished
  | succ later _ ih =>
    rw [nthCall,ih]
    exact fill_done final held bufferSize finished

theorem chunked (len width : Nat) (held : Nat → Text) (positive : 0 < width)
    (size : ∀ k, (held k).length = width+1)
    (texts : ∀ k < chunks width len, strlen (held k) = min len (width*(k+1)) - width*k ∧
      (held k).take (strlen (held k)) = slice (width*k) (min len (width*(k+1)))) :
    Chunked len (width+1) held := by
  have step : ∀ k, width*(k+1) = width*k + width := fun k => Nat.mul_succ width k
  have covered := (chunks_spec width len (chunks width len) positive).not.mp (lt_irrefl _)
  have short : ∀ k < chunks width len, 0 < strlen (held k) ∧ strlen (held k) < (held k).length := by
    intro k inside
    have unfinished := (chunks_spec width len k positive).mp inside
    have wide := step k
    rw [(texts k inside).1,size k]
    omega
  refine ⟨size,?_,?_,?_,?_,?_⟩ <;> rw [Nat.add_sub_cancel]
  · exact fun k inside => strlen_nul _ (short k inside).2
  · exact fun k _ => strlen_below (held k)
  · intro k inside
    have more := (chunks_spec width len (k+1) positive).mp inside
    have wide := step k
    rw [(texts k (by omega)).1]
    omega
  · exact fun k inside => (short k inside).1
  · calc (List.range (chunks width len)).flatMap (fun k => (held k).take (strlen (held k)))
        = (List.range (chunks width len)).flatMap
            (fun k => slice (min len (width*k)) (min len (width*(k+1)))) := by
          apply List.flatMap_congr
          intro k member
          have inside := List.mem_range.mp member
          have unfinished := (chunks_spec width len k positive).mp inside
          rw [(texts k inside).2,Nat.min_eq_right (Nat.le_of_lt unfinished)]
      _ = slice 0 len := by
          rw [flatMap_slices,Nat.min_eq_left (Nat.le_of_not_lt covered)]
      _ = (List.range len).map letter := slice_zero len

theorem nthCall_finished (length : Int) (width : Nat) (buffer : Text) (positive : 0 < width)
    (size : buffer.length = width+1) :
    ∃ (final : SenderContent) (rest : Text), final.len ≤ final.i ∧ rest.length = width+1 ∧
      ∀ k, chunks width length.toNat ≤ k →
        nthCall (width+1) (SenderContent.create length) buffer k = some (false,final,rest) := by
  have spec := chunks_spec width length.toNat
  cases count : chunks width length.toNat with
  | zero =>
    have nothing := (spec 0 positive).not.mp (by omega)
    have finished : (SenderContent.create length).len ≤ (SenderContent.create length).i := by
      simp only [SenderContent.create]
      omega
    have first : nthCall (width+1) (SenderContent.create length) buffer 0 =
        some (false,SenderContent.create length,buffer) := fill_done _ _ _ finished
    refine ⟨_,buffer,finished,size,?_⟩
    intro k _
    cases k with
    | zero => exact first
    | succ k => exact nthCall_idle _ _ _ _ _ _ _ first finished _ (Nat.succ_pos k)
  | succ m =>
    have unfinished := (spec m positive).mp (by omega)
    have covered := (spec (m+1) positive).not.mp (by omega)
    have natural : (length.toNat : Int) = length := by omega
    obtain ⟨rest,last,kept,_⟩ := nthCall_chunk length.toNat width m buffer positive size (by omega)
    rw [natural] at last
    have finished : (⟨length,min length.toNat (width*(m+1))⟩ : SenderContent).len ≤
        (⟨length,min length.toNat (width*(m+1))⟩ : SenderContent).i := by
      simp only
      omega
    refine ⟨_,rest,finished,kept,?_⟩
    intro k after
    exact nthCall_idle _ m _ _ _ _ _ last finished k after

theorem fill_emits (length : Int) (bufferSize : Nat) (buffer : Text) (room : 2 ≤ bufferSize)
    (size : buffer.length = bufferSize) : Emits length bufferSize buffer := by
  obtain ⟨width,rfl⟩ : ∃ width, bufferSize = width+1 := ⟨bufferSize-1,by omega⟩
  have positive : 0 < width := by omega
  obtain ⟨final,rest,finished,kept,idle⟩ := nthCall_finished length width buffer positive size
  have each : ∀ k, ∃ (content : SenderContent) (held : Text),
      nthCall (width+1) (SenderContent.create length) buffer k =
        some (decide (k < chunks width length.toNat),content,held) ∧ held.length = width+1 ∧
      (k < chunks width length.toNat → strlen held = min length.toNat (width*(k+1)) - width*k ∧
        held.take (strlen held) = slice (width*k) (min length.toNat (width*(k+1)))) ∧
      (chunks width length.toNat ≤ k → content = final ∧ held = rest) := by
    intro k
    by_cases inside : k < chunks width length.toNat
    · have unfinished := (chunks_spec width length.toNat k positive).mp inside
      have natural : (length.toNat : Int) = length := by omega
      obtain ⟨next,called,same,texts⟩ := nthCall_chunk length.toNat width k buffer positive size inside
      rw [natural] at called
      rw [← decide_eq_true inside] at called
      exact ⟨_,next,called,same,fun _ => texts,fun after => absurd inside (Nat.not_lt_of_le after)⟩
    · refine ⟨final,rest,?_,kept,fun less => absurd less inside,fun _ => ⟨rfl,rfl⟩⟩
      rw [decide_eq_false inside]
      exact idle k (Nat.le_of_not_lt inside)
  choose content held called lengths texts after using each
  refine ⟨content,held,called,chunked _ _ _ positive lengths texts,?_⟩
  intro k reached
  obtain ⟨sameContent,sameText⟩ := after k reached
  obtain ⟨nextContent,nextText⟩ := after (k+1) (Nat.le_succ_of_le reached)
  refine ⟨nextContent.trans sameContent.symm,nextText.trans sameText.symm,?_⟩
  intro other
  rw [sameContent]
  exact fill_done final other (width+1) finished

theorem fill_emits_five : Emits 5 3 "abc".toList := fill_emits 5 3 _ (by decide) (by decide)

/-- A buffer with the size that is passed along with it. -/
structure Supplied where
  buffer : Text
  bufferSize : Nat
  usable : 2 ≤ bufferSize
  room : bufferSize ≤ buffer.length

/-- A call of `fill`: what it was given, its result, and the buffer and the content it leaves. -/
structure Filling where
  given : Supplied
  before : SenderContent
  more : Bool
  after : SenderContent
  buffer : Text

/-- The calls of `fill` on one content with a buffer for each, and the content after them. -/
def fillEach : SenderContent → List Supplied → Option (List Filling × SenderContent)
  | content, [] => some ([],content)
  | content, given :: rest => do
    let (more,after,buffer) ← content.fill given.buffer given.bufferSize
    let (calls,final) ← fillEach after rest
    return (⟨given,content,more,after,buffer⟩ :: calls,final)

namespace Filling
variable (call : Filling)

def place : Nat := call.before.i % (call.given.bufferSize - 1)

def count : Nat := call.after.i - call.before.i

def positions : List Nat := List.range' call.before.i call.count

/-- What a call does from any cursor: nothing when no characters are left, else it writes
at least one and at most `bufferSize - 1` of them and a NUL, all within `bufferSize`. -/
structure Correct : Prop where
  more : call.more = true ↔ (call.before.i : Int) < call.before.len
  kept : call.after.len = call.before.len
  progress : call.more = true → call.before.i < call.after.i ∧
    call.after.i ≤ call.before.i + (call.given.bufferSize - 1) ∧ (call.after.i : Int) ≤ call.before.len
  inside : call.more = true → call.place + call.count < call.given.bufferSize
  text : call.more = true → (call.buffer.drop call.place).take call.count = call.positions.map letter
  terminated : call.more = true → call.buffer[call.place + call.count]? = some '\x00'
  others : ∀ index, index < call.place ∨ call.place + call.count < index →
    call.buffer[index]? = call.given.buffer[index]?
  idle : call.more = false → call.after = call.before ∧ call.buffer = call.given.buffer

end Filling

theorem filling_correct (content : SenderContent) (given : Supplied) :
    ∃ more after buffer, content.fill given.buffer given.bufferSize = some (more,after,buffer) ∧
      Filling.Correct ⟨given,content,more,after,buffer⟩ := by
  obtain ⟨buffer,bufferSize,usable,room⟩ := given
  obtain ⟨width,rfl⟩ : ∃ width, bufferSize = width+1 := ⟨bufferSize-1,by omega⟩
  obtain ⟨length,i⟩ := content
  by_cases unfinished : (i : Int) < length
  · obtain ⟨len,rfl⟩ := Int.eq_ofNat_of_zero_le (by omega : 0 ≤ length)
    have enough : len - i ≤ SenderContent.remaining ⟨len,i⟩ := by
      simp only [SenderContent.remaining]
      omega
    have filled := fillLoop_spec len width (by omega) _ i buffer (by omega) (by omega) enough
    have place : i % width < width := Nat.mod_lt _ (by omega)
    have behind := Nat.mod_le i width
    have ends := chunkEnd_eq len width i
    have front : (buffer.take (i % width)).length = i % width := by
      rw [List.length_take]
      omega
    have size := slice_length i (chunkEnd len width i)
    refine ⟨_,_,_,filled,?_⟩
    generalize chunkEnd len width i = stop at ends size
    constructor <;> simp only [Filling.place,Filling.count,Filling.positions,Nat.add_sub_cancel,Bool.true_eq_false,
      false_imp_iff,true_imp_iff]
    case more => simpa using unfinished
    case progress => omega
    case inside => omega
    case text =>
      rw [List.drop_left' front,List.take_left' size]
      rfl
    case terminated =>
      rw [List.getElem?_append_right (by omega),front,List.getElem?_append_right (by omega),size]
      simp
    case others =>
      rintro index (early | late)
      · rw [List.getElem?_append_left (by omega),List.getElem?_take_of_lt early]
      · obtain ⟨beyond,rfl⟩ := Nat.exists_eq_add_of_lt late
        rw [List.getElem?_append_right (by omega),front,List.getElem?_append_right (by omega),size]
        have shift : i % width + (stop - i) + beyond + 1 - i % width - (stop - i) = beyond + 1 := by omega
        rw [shift,List.getElem?_cons_succ,List.getElem?_drop]
        congr 1
        omega
  · refine ⟨_,_,_,fill_done _ _ _ (by simp only; omega),?_⟩
    constructor <;> simp only [Bool.false_eq_true,false_imp_iff,false_iff,implies_true,and_self]
    exact unfinished

/-- A sequence of calls from position `start` on: each is correct, together they write the
positions up to the final cursor once and in order, and the first call that returns 0
finds all of them written; that is so after as many calls as there are characters. -/
structure Covers (length : Int) (start : Nat) (supplied : List Supplied) (calls : List Filling)
    (final : SenderContent) : Prop where
  given : calls.map Filling.given = supplied
  correct : ∀ call ∈ calls, call.Correct
  positions : calls.flatMap Filling.positions = List.range' start (final.i - start)
  within : start ≤ final.i ∧ final.i ≤ max start length.toNat
  successes : ∀ (k : Nat) call, calls[k]? = some call → call.more = true → start + k < length.toNat
  finished : ∀ call ∈ calls, call.more = false → length.toNat ≤ final.i

section correct
variable {call : Filling} (correct : call.Correct)
include correct

theorem filling_forth (success : call.more = true) :
    call.before.i < call.after.i ∧ call.after.i ≤ call.before.len.toNat := by
  obtain ⟨forth,_,bound⟩ := correct.progress success
  omega

theorem filling_ended (failed : call.more = false) :
    call.after.i = call.before.i ∧ call.before.len.toNat ≤ call.before.i := by
  have same := congrArg SenderContent.i (correct.idle failed).1
  have none_left := correct.more.not.mp (by simp [failed])
  omega

theorem filling_moved : call.before.i ≤ call.after.i ∧ call.after.i ≤ max call.before.i call.before.len.toNat := by
  cases result : call.more with
  | true =>
    have forth := filling_forth correct result
    omega
  | false =>
    have ended := filling_ended correct result
    omega

theorem covers_cons {supplied : List Supplied} {calls : List Filling} {final : SenderContent}
    (covers : Covers call.before.len call.after.i supplied calls final) :
    Covers call.before.len call.before.i (call.given :: supplied) (call :: calls) final := by
  have moved := filling_moved correct
  have further := covers.within
  constructor
  case given => rw [List.map_cons,covers.given]
  case correct => exact List.forall_mem_cons.mpr ⟨correct,covers.correct⟩
  case positions =>
    have place : call.after.i = call.before.i + 1 * (call.after.i - call.before.i) := by omega
    have size : final.i - call.before.i = (call.after.i - call.before.i) + (final.i - call.after.i) := by omega
    rw [List.flatMap_cons,covers.positions,Filling.positions,Filling.count,size,← List.range'_append,← place]
  case within => omega
  case successes =>
    intro k other here success
    cases k with
    | zero =>
      obtain rfl := Option.some.inj here
      have forth := filling_forth correct success
      omega
    | succ k =>
      have later := covers.successes k other here success
      cases result : call.more with
      | true =>
        have forth := filling_forth correct result
        omega
      | false =>
        have ended := filling_ended correct result
        omega
  case finished =>
    refine List.forall_mem_cons.mpr ⟨fun failed => ?_,covers.finished⟩
    have ended := filling_ended correct failed
    omega

end correct

theorem fillEach_covers (length : Int) (start : Nat) (supplied : List Supplied) :
    ∃ calls final, fillEach ⟨length,start⟩ supplied = some (calls,final) ∧
      Covers length start supplied calls final := by
  induction supplied generalizing start with
  | nil =>
    refine ⟨[],⟨length,start⟩,rfl,?_⟩
    constructor <;> simp
  | cons given supplied ih =>
    obtain ⟨more,⟨length',next⟩,buffer,filled,correct⟩ := filling_correct ⟨length,start⟩ given
    obtain rfl : length' = length := correct.kept
    obtain ⟨calls,final,ran,covers⟩ := ih next
    refine ⟨_ :: calls,final,?_,covers_cons correct covers⟩
    simp [fillEach,filled,ran]

/-- Whatever buffers and sizes the calls on a new content use. -/
theorem fillEach_complete (length : Int) (supplied : List Supplied) :
    ∃ calls final, fillEach (.create length) supplied = some (calls,final) ∧
      Covers length 0 supplied calls final :=
  fillEach_covers length 0 supplied

end ProtocolTests.SenderCalls
