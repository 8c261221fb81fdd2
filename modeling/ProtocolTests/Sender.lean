import ProtocolTests.Library.CString

/-! The text generator of the clients. A write outside the buffer and a zero
modulus are undefined in the source and have no result here. -/
namespace ProtocolTests.Sender
open Library.CString

/-- The string literal with its terminating NUL, as `sizeof` counts it. -/
def CONTENT : Text := "abcdefghijklmnopqrstuvwxyz".toList ++ ['\x00']

def CONTENT_SIZE : Nat := CONTENT.length

structure SenderContent where
  len : Int
  i : Nat
  deriving DecidableEq

def SenderContent.create (length : Int) : SenderContent := ⟨length,0⟩

def write (buffer : Text) (index : Nat) (c : Char) : Option Text :=
  if index < buffer.length then some (buffer.set index c) else none

def SenderContent.remaining (content : SenderContent) : Nat := (content.len - content.i).toNat

/-- The while loop of `fill`. Each pass moves the cursor, so the characters that
are left bound the number of passes. -/
def fillLoop (bufferSize : Nat) : Nat → SenderContent → Text → Option (Bool × SenderContent × Text)
  | 0, content, buffer => some (false,content,buffer)
  | fuel+1, content, buffer =>
    if (content.i : Int) < content.len then
      if bufferSize - 1 = 0 then none else do
        let contentI := content.i % (CONTENT_SIZE - 1)
        let bufferI := content.i % (bufferSize - 1)
        let buffer ← write buffer bufferI (← CONTENT[contentI]?)
        let content := {content with i := content.i + 1}
        if (content.i : Int) = content.len ∨ bufferI + 1 = bufferSize - 1 then
          let buffer ← write buffer (bufferI + 1) '\x00'
          return (true,content,buffer)
        else fillLoop bufferSize fuel content buffer
    else some (false,content,buffer)

/-- `true` stands for the result 1; the content and the buffer are those after the call. -/
def SenderContent.fill (content : SenderContent) (buffer : Text) (bufferSize : Nat) :
    Option (Bool × SenderContent × Text) :=
  fillLoop bufferSize content.remaining content buffer

def strlen (buffer : Text) : Nat := (buffer.takeWhile (· ≠ '\x00')).length

def letter (i : Nat) : Char := "abcdefghijklmnopqrstuvwxyz".toList.getD (i % 26) 'a'

def slice (start stop : Nat) : Text := (List.range' start (stop - start)).map letter

/-- Where a call that starts at position `i` ends, with `width` characters to a buffer. -/
def chunkEnd (len width i : Nat) : Nat := min len (width * (i / width + 1))

theorem content_letter (i : Nat) : CONTENT[i % (CONTENT_SIZE - 1)]? = some (letter i) := by
  have size : CONTENT_SIZE - 1 = 26 := by decide
  have bound : i % 26 < 26 := Nat.mod_lt _ (by decide)
  rw [size,letter]
  generalize i % 26 = k at bound
  revert k
  decide

theorem letter_ne_nul (i : Nat) : letter i ≠ '\x00' := by
  have bound : i % 26 < 26 := Nat.mod_lt _ (by decide)
  rw [letter]
  generalize i % 26 = k at bound
  revert k
  decide

@[simp] theorem slice_length (start stop : Nat) : (slice start stop).length = stop - start := by
  simp [slice]

@[simp] theorem slice_self (start : Nat) : slice start start = [] := by simp [slice]

theorem slice_cons (start stop : Nat) (inside : start < stop) :
    slice start stop = letter start :: slice (start+1) stop := by
  have size : stop - start = stop - (start+1) + 1 := by omega
  rw [slice,size,List.range'_succ,List.map_cons,slice]

theorem slice_append (start middle stop : Nat) (before : start ≤ middle) (after : middle ≤ stop) :
    slice start middle ++ slice middle stop = slice start stop := by
  have size : stop - start = (middle - start) + (stop - middle) := by omega
  have place : middle = start + 1 * (middle - start) := by omega
  rw [slice,slice,slice,← List.map_append,size,← List.range'_append,← place]

theorem slice_zero (stop : Nat) : slice 0 stop = (List.range stop).map letter := by
  rw [slice,Nat.sub_zero,List.range_eq_range']

theorem slice_no_nul (start stop : Nat) : ∀ c ∈ slice start stop, c ≠ '\x00' := by
  intro c member
  obtain ⟨i,_,rfl⟩ := List.mem_map.mp member
  exact letter_ne_nul i

theorem strlen_below (buffer : Text) (i : Nat) (inside : i < strlen buffer) : buffer[i]? ≠ some '\x00' := by
  induction buffer generalizing i with
  | nil => simp
  | cons c rest ih =>
    by_cases nul : c = '\x00'
    · simp [strlen,nul] at inside
    · cases i with
      | zero => simpa using nul
      | succ i =>
        apply ih i
        simpa [strlen,nul] using inside

theorem strlen_nul (buffer : Text) (inside : strlen buffer < buffer.length) :
    buffer[strlen buffer]? = some '\x00' := by
  induction buffer with
  | nil => simp at inside
  | cons c rest ih =>
    by_cases nul : c = '\x00'
    · simp [strlen,nul]
    · have shorter : strlen rest < rest.length := by simpa [strlen,nul] using inside
      simpa [strlen,nul] using ih shorter

theorem chunkEnd_eq (len width i : Nat) : chunkEnd len width i = min len (i - i % width + width) := by
  have split := Nat.div_add_mod i width
  rw [chunkEnd,Nat.mul_succ]
  omega

theorem chunk_next (len width i : Nat) (inside : i % width + 1 < width) :
    (i+1) % width = i % width + 1 ∧ chunkEnd len width (i+1) = chunkEnd len width i := by
  have small : 1 % width = 1 := Nat.mod_eq_of_lt (by omega)
  have position : (i+1) % width = i % width + 1 := by
    rw [Nat.add_mod,small,Nat.mod_eq_of_lt inside]
  have reached := Nat.mod_le i width
  refine ⟨position,?_⟩
  rw [chunkEnd_eq,chunkEnd_eq,position]
  congr 2
  omega

theorem write_inside (buffer : Text) (index : Nat) (c : Char) (inside : index < buffer.length) :
    write buffer index c = some (buffer.set index c) := if_pos inside

private theorem set_take (buffer : Text) (r : Nat) (c : Char) (inside : r < buffer.length) :
    (buffer.set r c).take (r+1) = buffer.take r ++ [c] := by
  rw [List.take_succ_eq_append_getElem (by simpa using inside)]
  simp [List.take_set_of_le]

/-- A call with characters left writes them from the cursor's place in the buffer up
to the end of the chunk, closes them with a NUL and leaves the rest of the buffer. -/
theorem fillLoop_spec (len width : Nat) (positive : 0 < width) (fuel i : Nat) (buffer : Text)
    (room : width < buffer.length) (unfinished : i < len) (enough : len - i ≤ fuel) :
    fillLoop (width+1) fuel ⟨len,i⟩ buffer =
      some (true,⟨len,chunkEnd len width i⟩,buffer.take (i % width) ++
        (slice i (chunkEnd len width i) ++
          '\x00' :: buffer.drop (i % width + (chunkEnd len width i - i) + 1))) := by
  induction fuel generalizing i buffer with
  | zero => omega
  | succ fuel ih =>
    have place : i % width < width := Nat.mod_lt _ positive
    have running : (i : Int) < (len : Int) := by omega
    have divisor : width ≠ 0 := by omega
    have first := write_inside buffer (i % width) (letter i) (by omega)
    have front := set_take buffer (i % width) (letter i) (by omega)
    simp only [fillLoop,Nat.add_sub_cancel,running,divisor,if_true,if_false,content_letter,
      Option.bind_eq_bind,Option.bind_some,first]
    split
    next last =>
      have ends : chunkEnd len width i = i+1 := by
        have reached := Nat.mod_le i width
        rw [chunkEnd_eq]
        omega
      have inside : i % width + 1 < (buffer.set (i % width) (letter i)).length := by
        simp only [List.length_set]; omega
      rw [write_inside _ _ _ inside,ends,slice_cons i (i+1) (by omega),slice_self,
        List.set_eq_take_append_cons_drop,if_pos inside,front,List.drop_set_of_lt (by omega)]
      simp
    next more =>
      have inside : i % width + 1 < width := by omega
      obtain ⟨position,ends⟩ := chunk_next len width i inside
      have beyond : i + 1 < len := by omega
      have later : i + 1 < chunkEnd len width i := by
        have reached := Nat.mod_le i width
        rw [chunkEnd_eq]
        omega
      rw [ih (i+1) _ (by simpa using room) beyond (by omega),position,ends,front,
        slice_cons i _ (by omega),List.drop_set_of_lt (by omega)]
      have size : i % width + 1 + (chunkEnd len width i - (i+1)) = i % width + (chunkEnd len width i - i) := by
        omega
      simp [size]

theorem fill_done (content : SenderContent) (buffer : Text) (bufferSize : Nat)
    (finished : content.len ≤ content.i) :
    content.fill buffer bufferSize = some (false,content,buffer) := by
  have none_left : content.remaining = 0 := by
    unfold SenderContent.remaining
    omega
  rw [SenderContent.fill,none_left,fillLoop]

/-- A call that starts at a multiple of the chunk size fills the buffer from its
first position: the text in it is the next chunk, whatever was there before. -/
theorem fill_chunk (len width j : Nat) (buffer : Text) (positive : 0 < width)
    (room : width < buffer.length) (unfinished : width*j < len) :
    ∃ next, SenderContent.fill ⟨len,width*j⟩ buffer (width+1) =
        some (true,⟨len,min len (width*(j+1))⟩,next) ∧ next.length = buffer.length ∧
      strlen next = min len (width*(j+1)) - width*j ∧
      next.take (strlen next) = slice (width*j) (min len (width*(j+1))) := by
  have start : width*j % width = 0 := Nat.mul_mod_right _ _
  have ends : chunkEnd len width (width*j) = min len (width*(j+1)) := by
    rw [chunkEnd,Nat.mul_div_cancel_left _ positive]
  have enough : len - width*j ≤ SenderContent.remaining ⟨len,width*j⟩ := by
    simp only [SenderContent.remaining]
    omega
  have filled := fillLoop_spec len width positive _ _ buffer room unfinished enough
  rw [start,ends,List.take_zero,List.nil_append,Nat.zero_add] at filled
  have size : min len (width*(j+1)) ≤ width*j + width := by
    rw [Nat.mul_succ]
    omega
  have text : (slice (width*j) (min len (width*(j+1))) ++ '\x00' ::
      buffer.drop (min len (width*(j+1)) - width*j + 1)).takeWhile (· ≠ '\x00') =
      slice (width*j) (min len (width*(j+1))) := by
    rw [List.takeWhile_append_of_pos (by simpa using slice_no_nul _ _)]
    simp
  refine ⟨_,filled,?_,?_,?_⟩
  · simp only [List.length_append,slice_length,List.length_cons,List.length_drop]
    omega
  · rw [strlen,text,slice_length]
  · rw [strlen,text,List.take_left]

end ProtocolTests.Sender
