import ProtocolTests.PacketCalls
import ProtocolTests.TranscriptTotals

/-! How the calls of `dataExtractor` fit the frames of a transcript with bodies of any
kind. A call that reads past its frame, or leaves lines that look like the next
header, puts the outer loop out of step. -/
namespace ProtocolTests.FrameIsolation
open Library.CString ProtocolTests.Parser Transcript TranscriptFrames TranscriptTotals LineLoop PacketCalls

structure Block where
  header : Text
  body : List Text
  deriving DecidableEq

def Block.lines (block : Block) : List Text := block.header :: (block.body ++ [[]])

def blockLines (blocks : List Block) : List Text := blocks.flatMap Block.lines

theorem lines_append (block : Block) (tail : List Text) :
    block.lines ++ tail = block.header :: (block.body ++ [] :: tail) := by simp [Block.lines]

theorem blockLines_cons (block : Block) (blocks : List Block) :
    blockLines (block :: blocks) = block.header :: (block.body ++ [] :: blockLines blocks) :=
  lines_append block (blockLines blocks)

structure Numbered (k : Nat) (block : Block) : Prop where
  header : ∃ rest, words block.header = "Frame".toList :: headerWord k :: rest
  nonblank : ∀ line ∈ block.body, line ≠ []
  unlike : ∀ line ∈ block.body, ∀ (n : Int) (rest : List Text), words line ≠ "Frame".toList :: headerWord n :: rest

def NumberedFrom : Nat → List Block → Prop
  | _, [] => True
  | k, block :: blocks => Numbered k block ∧ NumberedFrom (k+1) blocks

def Headed (k : Nat) (block : Block) : Prop := ∃ rest, words block.header = "Frame".toList :: headerWord k :: rest

/-- The loop sees no empty line inside the body. One behind a line of data goes unseen. -/
def Unbroken (protocol : Text) (body : List Text) : Prop :=
  ∀ before rest last, body = before ++ [] :: rest → ¬Reaches protocol {} before last

/-- What both loops need to tell the frame from the ones around it. -/
structure Framed (protocol : Text) (k : Nat) (block : Block) : Prop where
  header : Headed k block
  unbroken : Unbroken protocol block.body

def FramedFrom (protocol : Text) : Nat → List Block → Prop
  | _, [] => True
  | k, block :: blocks => Framed protocol k block ∧ FramedFrom protocol (k+1) blocks

/-- The last line of the body is one of data, so the line behind the body goes unseen. -/
def Swallows (protocol : Text) (body : List Text) : Prop :=
  ∃ (before : List Text) (line : Text) (locals : Locals), body = before ++ [line] ∧
    Reaches protocol {} before locals ∧ Willing locals ∧ classify (extract locals.arr line) = .data

/-- The loop returns early and leaves these lines of the body. -/
def Abandons (protocol : Text) (body left : List Text) : Prop :=
  ∃ (before : List Text) (line next : Text) (locals : Locals), body = before ++ line :: next :: left ∧
    Reaches protocol {} before locals ∧ Willing locals ∧ Halts protocol (extract locals.arr line)

/-- Words of several lines, put together, make up the header that the outer loop waits for. -/
def Imitates (current : Int32) (arr : Words) (left : List Text) : Prop :=
  ∃ m ≤ left.length, ¬Stale current ((left.take m).foldl extract arr)

/-- The condition on the frames from number `k` on. -/
def IsolatedFrom (protocol : Text) : Nat → List Block → Prop
  | _, [] => True
  | k, block :: blocks => (blocks ≠ [] → ¬Swallows protocol block.body) ∧
      (∀ left, Abandons protocol block.body left →
        ¬Imitates (Int32.ofNat (k+1)) (extract (fun _ => []) block.header) left) ∧
      IsolatedFrom protocol (k+1) blocks

/-- One call for each frame, right behind its header. -/
def due : Nat → List Block → List (Int × List Text)
  | _, [] => []
  | k, block :: blocks => ((k : Int),block.body ++ [] :: blockLines blocks) :: due (k+1) blocks

structure InStep (protocol : Text) (blocks : List Block) : Prop where
  once : (calls protocol (blockLines blocks)).map (fun call => (call.frame.toInt,call.lines)) = due 1 blocks
  within : ∀ before block after, blocks = before ++ block :: after →
    blockLines after <:+ (readFrame protocol {} (block.body ++ [] :: blockLines after)).2

section body
variable {protocol : Text} {body left tail : List Text} {last : Locals}

theorem nonblank_unbroken (protocol : Text) (nonblank : ∀ line ∈ body, line ≠ []) : Unbroken protocol body := by
  rintro before rest last rfl
  exact absurd rfl (nonblank [] (by simp))

theorem body_cases (unbroken : Unbroken protocol body) :
    (∃ last, Reaches protocol {} body last) ∨ (∃ left, Abandons protocol body left) ∨ Swallows protocol body := by
  have willing : Willing ({} : Locals) := ⟨rfl,rfl⟩
  have ending := readFrame_ending protocol {} body
  generalize readFrame protocol {} body = result at ending
  cases ending with
  | file reached => exact Or.inl ⟨_,reached⟩
  | blank rest reached => exact absurd reached (unbroken _ rest _ rfl)
  | @early before last next rest reached nonempty unwilling =>
    obtain ⟨earlier,line,locals,rfl,reads,still,visible,halts⟩ := reaches_unwilling reached willing unwilling
    exact Or.inr (Or.inl ⟨rest,earlier,line,next,locals,by simp,reads,still,halts⟩)
  | @cut before last line reached nonempty still kind =>
    exact Or.inr (Or.inr ⟨before,line,last,rfl,reached,still,kind⟩)

theorem reads_whole (reached : Reaches protocol {} body last) (tail : List Text) :
    readFrame protocol {} (body ++ [] :: tail) = (some last,tail) := by
  rw [readFrame_reaches reached,readFrame,if_pos rfl]

theorem abandons_left (unbroken : Unbroken protocol body) (abandons : Abandons protocol body left) (tail : List Text) :
    readFrame protocol {} (body ++ tail) = (none,left ++ tail) := by
  obtain ⟨before,line,next,locals,rfl,reached,willing,halts⟩ := abandons
  have unwilling : ¬Willing (look protocol locals line) := fun goes => (willing_look willing line).mp goes halts
  have visible : line ≠ [] := by
    rintro rfl
    exact unbroken before _ _ rfl reached
  have further : next ≠ [] := by
    rintro rfl
    have passed : Reaches protocol locals [line] (look protocol locals line) :=
      .line visible willing (halts_single halts) (.nil _)
    exact unbroken (before ++ [line]) left _ (by simp) (reaches_append reached passed)
  rw [List.append_assoc,readFrame_reaches reached,List.cons_append,List.cons_append,
    readFrame_look visible willing (halts_single halts),readFrame_unwilling further unwilling]

theorem abandons_length (abandons : Abandons protocol body left) : left.length ≤ body.length := by
  obtain ⟨before,line,next,locals,rfl,_⟩ := abandons
  simp only [List.length_append,List.length_cons]
  omega

theorem swallows_past (unbroken : Unbroken protocol body) (swallows : Swallows protocol body) (tail : List Text) :
    ∃ locals, readFrame protocol {} (body ++ [] :: tail) = readFrame protocol locals tail := by
  obtain ⟨before,line,locals,rfl,reached,willing,kind⟩ := swallows
  refine ⟨look protocol locals line,?_⟩
  have visible : line ≠ [] := by
    rintro rfl
    exact unbroken before [] _ rfl reached
  rw [List.append_assoc,readFrame_reaches reached]
  exact readFrame_pair visible willing kind [] tail

theorem readFrame_length (locals : Locals) (lines : List Text) :
    (readFrame protocol locals lines).2.length ≤ lines.length - 1 := by
  have ending := readFrame_ending protocol locals lines
  generalize readFrame protocol locals lines = result at ending
  cases ending <;> simp

end body

section outer
variable {protocol : Text}

theorem packetCalls_call (fuel : Nat) {current : Int32} {arr : Words} {line : Text}
    (header : ¬Stale current (extract arr line)) (rest : List Text) :
    packetCalls protocol (fuel+1) current arr (line :: rest) =
      ⟨current,rest⟩ :: packetCalls protocol fuel (current+1) (extract arr line) (readFrame protocol {} rest).2 := by
  rw [packetCalls]
  exact if_pos (not_not.mp header)

theorem packetCalls_line (fuel : Nat) {current : Int32} {arr : Words} {line : Text}
    (stale : Stale current (extract arr line)) (rest : List Text) :
    packetCalls protocol (fuel+1) current arr (line :: rest) = packetCalls protocol fuel current (extract arr line) rest := by
  rw [packetCalls]
  exact if_neg stale

theorem calls_shorter (fuel : Nat) (current : Int32) (arr : Words) (lines : List Text) :
    ∀ call ∈ packetCalls protocol fuel current arr lines, call.lines.length < lines.length := by
  induction fuel generalizing current arr lines with
  | zero => simp [packetCalls]
  | succ fuel ih =>
    cases lines with
    | nil => simp [packetCalls]
    | cons line rest =>
      intro call member
      by_cases stale : Stale current (extract arr line)
      · rw [packetCalls_line fuel stale] at member
        exact Nat.lt_succ_of_lt (ih _ _ _ call member)
      · rw [packetCalls_call fuel stale] at member
        rcases List.mem_cons.mp member with rfl | later
        · exact Nat.lt_succ_self _
        · have shorter := @readFrame_length protocol {} rest
          have bound := ih _ _ _ call later
          simp only [List.length_cons]
          omega

theorem packetCalls_skip (current : Int32) (left tail : List Text) (fuel : Nat) (arr : Words)
    (enough : left.length + 1 + tail.length ≤ fuel) (plain : ¬Imitates current arr left) :
    ∃ fuel' arr', tail.length ≤ fuel' ∧ Stale current arr' ∧
      packetCalls protocol fuel current arr (left ++ [] :: tail) = packetCalls protocol fuel' current arr' tail := by
  induction left generalizing fuel arr with
  | nil =>
    obtain ⟨fuel,rfl⟩ := Nat.exists_eq_succ_of_ne_zero (by omega : fuel ≠ 0)
    have stale : Stale current arr := by
      by_contra fresh
      exact plain ⟨0,Nat.zero_le _,fresh⟩
    exact ⟨fuel,arr,by simp at enough; omega,stale,packetCalls_line fuel stale tail⟩
  | cons line left ih =>
    obtain ⟨fuel,rfl⟩ := Nat.exists_eq_succ_of_ne_zero (by simp at enough; omega : fuel ≠ 0)
    have stale : Stale current (extract arr line) := by
      by_contra fresh
      exact plain ⟨1,by simp,fresh⟩
    obtain ⟨fuel',arr',enough',stale',skipped⟩ := ih fuel (extract arr line) (by simp at enough; omega)
      fun ⟨m,bound,fresh⟩ => plain ⟨m+1,Nat.succ_le_succ bound,fresh⟩
    exact ⟨fuel',arr',enough',stale',(packetCalls_line fuel stale _).trans skipped⟩

theorem packetCalls_imitated (current : Int32) (left tail : List Text) (fuel : Nat) (arr : Words)
    (enough : left.length ≤ fuel) (stale : Stale current arr) (imitates : Imitates current arr left) :
    ∃ rest later, tail.length < rest.length ∧
      packetCalls protocol fuel current arr (left ++ [] :: tail) = ⟨current,rest⟩ :: later := by
  induction left generalizing fuel arr with
  | nil =>
    obtain ⟨m,_,fresh⟩ := imitates
    rw [List.take_nil] at fresh
    exact absurd stale fresh
  | cons line left ih =>
    obtain ⟨fuel,rfl⟩ := Nat.exists_eq_succ_of_ne_zero (by simp at enough; omega : fuel ≠ 0)
    by_cases next : Stale current (extract arr line)
    · obtain ⟨m,bound,fresh⟩ := imitates
      cases m with
      | zero => exact absurd stale fresh
      | succ m =>
        obtain ⟨rest,later,longer,made⟩ := ih fuel (extract arr line) (Nat.le_of_succ_le_succ enough) next
          ⟨m,Nat.le_of_succ_le_succ bound,fresh⟩
        exact ⟨rest,later,longer,(packetCalls_line fuel next _).trans made⟩
    · exact ⟨left ++ [] :: tail,_,by simp; omega,packetCalls_call fuel next _⟩

theorem due_small {block : Block} {blocks : List Block} {k fuel : Nat} {current : Int32} {arr : Words} {lines : List Text}
    (once : (packetCalls protocol fuel current arr lines).map (fun call => (call.frame.toInt,call.lines)) =
      due k (block :: blocks)) : k < 2^31 := by
  rw [due] at once
  obtain ⟨call,_,_,number,_⟩ := List.map_eq_cons_iff.mp once
  have same := (Prod.mk.inj number).1
  have bound := call.frame.toInt_lt
  omega

/-- After a swallowed line too few lines are left for the next call. -/
theorem due_whole {body : List Text} {blocks : List Block} {k fuel : Nat} {current : Int32} {arr : Words}
    (unbroken : Unbroken protocol body)
    (later : (packetCalls protocol fuel current arr (readFrame protocol {} (body ++ [] :: blockLines blocks)).2).map
      (fun call => (call.frame.toInt,call.lines)) = due k blocks) (more : blocks ≠ []) : ¬Swallows protocol body := by
  intro swallows
  obtain ⟨next,others,rfl⟩ := List.exists_cons_of_ne_nil more
  obtain ⟨locals,past⟩ := swallows_past unbroken swallows (blockLines (next :: others))
  have shorter := @readFrame_length protocol locals (blockLines (next :: others))
  rw [past,due] at later
  obtain ⟨call,rest,made,number,_⟩ := List.map_eq_cons_iff.mp later
  have bound := calls_shorter _ _ _ _ call (by rw [made]; exact List.mem_cons_self)
  have size : (blockLines (next :: others)).length = (next.body ++ [] :: blockLines others).length + 1 := by
    rw [blockLines_cons,List.length_cons]
  rw [(Prod.mk.inj number).2] at bound
  omega

/-- The call that an imitated header starts has too many lines before it. -/
theorem due_plain {left : List Text} {blocks : List Block} {k fuel : Nat} {current : Int32} {arr : Words}
    (enough : left.length ≤ fuel) (stale : Stale current arr)
    (later : (packetCalls protocol fuel current arr (left ++ [] :: blockLines blocks)).map
      (fun call => (call.frame.toInt,call.lines)) = due k blocks) : ¬Imitates current arr left := by
  intro imitates
  obtain ⟨rest,others,longer,made⟩ := packetCalls_imitated current left (blockLines blocks) fuel arr enough stale imitates
  rw [made,List.map_cons] at later
  cases blocks with
  | nil => cases later
  | cons next blocks =>
    rw [due] at later
    have same : rest = next.body ++ [] :: blockLines blocks := (Prod.mk.inj (List.cons.inj later).1).2
    rw [same,blockLines_cons,List.length_cons] at longer
    exact absurd longer (by omega)

end outer

theorem header_words {k : Nat} {block : Block} (headed : Headed k block) (arr : Words) :
    extract arr block.header 0 = "Frame".toList ∧ extract arr block.header 1 = headerWord k := by
  obtain ⟨rest,shape⟩ := headed
  simp [extract,shape]

theorem header_called {k : Nat} {block : Block} (headed : Headed k block) (small : k < 2^31) (arr : Words) :
    ¬Stale (Int32.ofNat k) (extract arr block.header) := by
  obtain ⟨first,second⟩ := header_words headed arr
  exact fun stale => stale ⟨first,by rw [second,frameWord_ofNat k small]⟩

theorem header_passed {k : Nat} {block : Block} (headed : Headed k block) (small : k < 2^31) (arr : Words) :
    Stale (Int32.ofNat (k+1)) (extract arr block.header) := by
  rintro ⟨_,same⟩
  rw [(header_words headed arr).2,← frameWord_ofNat k small,Int32.ofNat_add] at same
  exact frameWord_next _ same

theorem foldl_agree (lines : List Text) (arr arr' : Words) (i : Fin NUM_OF_WORDS) (same : arr i = arr' i) :
    lines.foldl extract arr i = lines.foldl extract arr' i := by
  induction lines generalizing arr arr' with
  | nil => exact same
  | cons line lines ih =>
    apply ih
    rw [extract,extract,same]

/-- Only the first two words matter to the outer loop. -/
theorem imitates_header {k : Nat} {block : Block} (headed : Headed k block) (current : Int32) (arr : Words)
    (left : List Text) : Imitates current (extract arr block.header) left ↔
      Imitates current (extract (fun _ => []) block.header) left := by
  have here := header_words headed arr
  have blank := header_words headed fun _ => []
  have first (m : Nat) := foldl_agree (left.take m) _ _ 0 (here.1.trans blank.1.symm)
  have second (m : Nat) := foldl_agree (left.take m) _ _ 1 (here.2.trans blank.2.symm)
  simp only [Imitates,Stale,first,second]

section step
variable {protocol : Text} {k : Nat} {block : Block}

theorem packetCalls_header (headed : Headed k block) (small : k < 2^31) (behind : List Text) (fuel : Nat) (arr : Words)
    (enough : behind.length + 1 ≤ fuel) :
    ∃ fuel', behind.length ≤ fuel' ∧ packetCalls protocol fuel (Int32.ofNat k) arr (block.header :: behind) =
      ⟨Int32.ofNat k,behind⟩ :: packetCalls protocol fuel' (Int32.ofNat (k+1)) (extract arr block.header)
        (readFrame protocol {} behind).2 := by
  obtain ⟨fuel,rfl⟩ := Nat.exists_eq_succ_of_ne_zero (by omega : fuel ≠ 0)
  have counted : Int32.ofNat k + 1 = Int32.ofNat (k+1) := (Int32.ofNat_add k 1).symm
  exact ⟨fuel,by omega,by rw [packetCalls_call fuel (header_called headed small arr),counted]⟩

variable (framed : Framed protocol k block)
include framed

theorem packetCalls_block (small : k < 2^31) (tail : List Text) (fuel : Nat) (arr : Words)
    (enough : (block.lines ++ tail).length ≤ fuel) (whole : tail ≠ [] → ¬Swallows protocol block.body)
    (plain : ∀ left, Abandons protocol block.body left →
      ¬Imitates (Int32.ofNat (k+1)) (extract (fun _ => []) block.header) left) :
    ∃ fuel' arr', tail.length ≤ fuel' ∧ packetCalls protocol fuel (Int32.ofNat k) arr (block.lines ++ tail) =
      ⟨Int32.ofNat k,block.body ++ [] :: tail⟩ :: packetCalls protocol fuel' (Int32.ofNat (k+1)) arr' tail := by
  rw [lines_append] at enough ⊢
  obtain ⟨fuel',enough',called⟩ := @packetCalls_header protocol k block framed.header small _ fuel arr enough
  rw [List.length_append,List.length_cons] at enough'
  rw [called]
  rcases body_cases framed.unbroken with ⟨last,reached⟩ | ⟨left,abandons⟩ | swallows
  · rw [reads_whole reached tail]
    exact ⟨fuel',_,by omega,rfl⟩
  · rw [abandons_left framed.unbroken abandons]
    have shorter := abandons_length abandons
    obtain ⟨fuel'',arr'',enough'',_,skipped⟩ := @packetCalls_skip protocol (Int32.ofNat (k+1)) left tail fuel'
      (extract arr block.header) (by omega)
      ((imitates_header framed.header _ arr left).not.mpr (plain left abandons))
    exact ⟨fuel'',arr'',enough'',by rw [skipped]⟩
  · have last : tail = [] := by
      by_contra more
      exact whole more swallows
    obtain ⟨locals,past⟩ := swallows_past framed.unbroken swallows tail
    rw [past,last]
    exact ⟨fuel',extract arr block.header,by simp,rfl⟩

theorem isolated_of_due {blocks : List Block} (fuel : Nat) (arr : Words)
    (enough : (blockLines (block :: blocks)).length ≤ fuel)
    (once : (packetCalls protocol fuel (Int32.ofNat k) arr (blockLines (block :: blocks))).map
      (fun call => (call.frame.toInt,call.lines)) = due k (block :: blocks)) :
    k < 2^31 ∧ (blocks ≠ [] → ¬Swallows protocol block.body) ∧
      ∀ left, Abandons protocol block.body left →
        ¬Imitates (Int32.ofNat (k+1)) (extract (fun _ => []) block.header) left := by
  have small := due_small once
  rw [blockLines_cons] at once enough
  obtain ⟨fuel',enough',called⟩ := @packetCalls_header protocol k block framed.header small _ fuel arr enough
  rw [List.length_append,List.length_cons] at enough'
  rw [called,List.map_cons,due] at once
  have later := (List.cons.inj once).2
  refine ⟨small,due_whole framed.unbroken later,?_⟩
  intro left abandons
  have shorter := abandons_length abandons
  rw [abandons_left framed.unbroken abandons] at later
  have plain := due_plain (by omega) (header_passed framed.header small arr) later
  exact (imitates_header framed.header _ arr left).not.mp plain

end step

theorem packetCalls_due (protocol : Text) (blocks : List Block) (k : Nat) (framed : FramedFrom protocol k blocks) (fuel : Nat)
    (arr : Words) (enough : (blockLines blocks).length ≤ fuel) :
    (packetCalls protocol fuel (Int32.ofNat k) arr (blockLines blocks)).map (fun call => (call.frame.toInt,call.lines)) =
        due k blocks ↔
      (blocks ≠ [] → k + blocks.length ≤ 2^31) ∧ IsolatedFrom protocol k blocks := by
  induction blocks generalizing k fuel arr with
  | nil =>
    cases fuel <;> simp [blockLines,packetCalls,due,IsolatedFrom]
  | cons block blocks ih =>
    obtain ⟨here,later⟩ := framed
    have shape : blockLines (block :: blocks) = block.lines ++ blockLines blocks := List.flatMap_cons
    have empty : blockLines blocks ≠ [] → blocks ≠ [] := by
      rintro lines rfl
      exact lines rfl
    have step (small : k < 2^31) (whole : blocks ≠ [] → ¬Swallows protocol block.body)
        (plain : ∀ left, Abandons protocol block.body left →
          ¬Imitates (Int32.ofNat (k+1)) (extract (fun _ => []) block.header) left) :
        (packetCalls protocol fuel (Int32.ofNat k) arr (blockLines (block :: blocks))).map
            (fun call => (call.frame.toInt,call.lines)) = due k (block :: blocks) ↔
          (blocks ≠ [] → k + 1 + blocks.length ≤ 2^31) ∧ IsolatedFrom protocol (k+1) blocks := by
      obtain ⟨fuel',arr',enough',made⟩ := packetCalls_block here small (blockLines blocks) fuel arr
        (by rw [← shape]; exact enough) (fun lines => whole (empty lines)) plain
      have number : (Int32.ofNat k).toInt = k := Int32.toInt_ofNat_of_lt small
      rw [shape,made,List.map_cons,due,number]
      simp only [List.cons.injEq,true_and]
      exact ih (k+1) later fuel' arr' enough'
    constructor
    · intro once
      obtain ⟨small,whole,plain⟩ := isolated_of_due here fuel arr enough once
      obtain ⟨few,isolated⟩ := (step small whole plain).mp once
      refine ⟨fun _ => ?_,whole,plain,isolated⟩
      rw [List.length_cons]
      cases blocks with
      | nil => simp only [List.length_nil]; omega
      | cons _ _ => exact le_of_eq_of_le (by omega) (few (by simp))
    · rintro ⟨few,whole,plain,isolated⟩
      have small := few (by simp)
      rw [List.length_cons] at small
      exact (step (by omega) whole plain).mpr ⟨fun _ => by omega,isolated⟩

theorem isolated_at (protocol : Text) (before : List Block) (block : Block) (after : List Block) (k : Nat)
    (isolated : IsolatedFrom protocol k (before ++ block :: after)) : after ≠ [] → ¬Swallows protocol block.body := by
  induction before generalizing k with
  | nil => exact isolated.1
  | cons first before ih => exact ih (k+1) isolated.2.2

theorem numbered_framed (protocol : Text) (blocks : List Block) (k : Nat) (numbered : NumberedFrom k blocks) :
    FramedFrom protocol k blocks := by
  induction blocks generalizing k with
  | nil => trivial
  | cons block blocks ih =>
    exact ⟨⟨numbered.1.header,nonblank_unbroken protocol numbered.1.nonblank⟩,ih (k+1) numbered.2⟩

theorem numbered_at (before : List Block) (block : Block) (after : List Block) (k : Nat)
    (numbered : NumberedFrom k (before ++ block :: after)) : Numbered (k + before.length) block := by
  induction before generalizing k with
  | nil => exact numbered.1
  | cons first before ih =>
    rw [List.length_cons,Nat.add_comm before.length,← Nat.add_assoc]
    exact ih (k+1) numbered.2

/-- The calls stay in step with the frames exactly if no frame but the last swallows the line behind
its body, and no frame leaves lines that imitate the next header. -/
theorem inStep_iff (protocol : Text) (blocks : List Block) (numbered : NumberedFrom 1 blocks) :
    InStep protocol blocks ↔ blocks.length < 2^31 ∧ IsolatedFrom protocol 1 blocks := by
  have counted := packetCalls_due protocol blocks 1 (numbered_framed protocol blocks 1 numbered) _ (fun _ => []) (le_refl _)
  have few : (blocks ≠ [] → 1 + blocks.length ≤ 2^31) ↔ blocks.length < 2^31 := by
    cases blocks with
    | nil => simp
    | cons _ _ => simp only [ne_eq,reduceCtorEq,not_false_eq_true,true_implies]; omega
  rw [few] at counted
  constructor
  · exact fun inStep => counted.mp inStep.once
  · rintro ⟨small,isolated⟩
    refine ⟨counted.mpr ⟨small,isolated⟩,?_⟩
    rintro before block after rfl
    have unbroken := nonblank_unbroken protocol (numbered_at before block after 1 numbered).nonblank
    rcases body_cases unbroken with ⟨last,reached⟩ | ⟨left,abandons⟩ | swallows
    · have rest := congrArg Prod.snd (reads_whole reached (blockLines after))
      exact ⟨[],rest.symm⟩
    · rw [abandons_left unbroken abandons]
      exact (List.suffix_cons [] _).trans (List.suffix_append left _)
    · cases after with
      | nil => exact List.nil_suffix
      | cons next after => exact absurd swallows (isolated_at protocol before block _ 1 isolated (by simp))

theorem plain_numbered (k : Nat) (body : List Text) (nonblank : ∀ line ∈ body, line ≠ [])
    (other : ∀ line ∈ body, (words line).length < 2 ∨ (words line).head? ≠ some "Frame".toList) :
    Numbered k ⟨headerLine k,body⟩ := by
  refine ⟨(plainFrame_printed [] k).header,nonblank,?_⟩
  intro line member n rest same
  rcases other line member with short | first
  · rw [same,List.length_cons,List.length_cons] at short
    omega
  · simp [same] at first

theorem inStep_plain : InStep "sctp".toList [⟨headerLine 1,[epochLine]⟩,⟨headerLine 2,[dataLine 1]⟩] ↔
    [(⟨headerLine 1,[epochLine]⟩ : Block),⟨headerLine 2,[dataLine 1]⟩].length < 2^31 ∧
      IsolatedFrom "sctp".toList 1 [⟨headerLine 1,[epochLine]⟩,⟨headerLine 2,[dataLine 1]⟩] :=
  inStep_iff _ _ ⟨plain_numbered 1 _ (by decide) (by decide),plain_numbered 2 _ (by decide) (by decide),trivial⟩

/-- The first frame ends in a line of data. -/
def swallowing : List Block := [⟨headerLine 1,[dataLine 1]⟩,⟨headerLine 2,[epochLine]⟩]

/-- The first frame is of another protocol, and two of its last lines have a word of a header each. -/
def imitating : List Block :=
  [⟨headerLine 1,["[Protocols in frame: tcp]".toList,epochLine,"Flags 2:".toList,"Frame".toList]⟩,
    ⟨headerLine 2,[epochLine]⟩]

theorem out_of_step : (NumberedFrom 1 swallowing ∧ ¬InStep "sctp".toList swallowing) ∧
    NumberedFrom 1 imitating ∧ ¬InStep "sctp".toList imitating := by
  refine ⟨⟨⟨?_,?_,trivial⟩,?_⟩,⟨?_,?_,trivial⟩,?_⟩
  · exact plain_numbered 1 _ (by decide) (by decide)
  · exact plain_numbered 2 _ (by decide) (by decide)
  · exact fun inStep => absurd inStep.once (by decide)
  · exact plain_numbered 1 _ (by decide) (by decide)
  · exact plain_numbered 2 _ (by decide) (by decide)
  · exact fun inStep => absurd inStep.once (by decide)

end ProtocolTests.FrameIsolation
