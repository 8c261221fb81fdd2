import ProtocolTests.FrameIsolation

/-! Transcripts that break off. The local variables of `dataExtractor` have no initial
values, and the end of the file ends the line loop like the end of a frame does. -/
namespace ProtocolTests.CutTranscript
open Library.CString ProtocolTests.Parser Transcript TranscriptFrames TranscriptTotals LineLoop PacketCalls FrameIsolation

/-- A complete frame, with a line that matches no key behind every line of data. (tshark itself
prints an empty line behind `Data (n bytes)`, which the second `getline` takes.) -/
structure Whole (k : Nat) (block : Block) : Prop extends Numbered k block where
  complete : ∀ line ∈ block.body, Complete line
  followed : Followed block.body
  epoch : epochs block.body ≠ []
  length : lengths block.body ≠ []

def WholeFrom : Nat → List Block → Prop
  | _, [] => True
  | k, block :: blocks => Whole k block ∧ WholeFrom (k+1) blocks

/-- The local variables have their values from lines of the frame that the call has read. -/
structure Assigned (block : Block) (call : Call) (locals : Locals) : Prop where
  epochTime : ∃ line ∈ block.body, line ∈ call.lines ∧ key line = .epochTime ∧
    locals.epochTime = some (atof (word line 2))
  frameLength : ∃ line ∈ block.body, line ∈ call.lines ∧ key line = .frameLength ∧
    locals.frameLength = some (atof (word line 2))

/-- Every update of the totals has both values from the frame of its call. -/
def AllAssigned (protocol : Text) (blocks : List Block) (lines : List Text) : Prop :=
  ∀ call ∈ calls protocol lines, ∀ locals, (readFrame protocol {} call.lines).1 = some locals →
    ∃ before block after, blocks = before ++ block :: after ∧ call.frame.toInt = before.length + 1 ∧
      Assigned block call locals

/-- A cut inside a frame leaves a line behind one that stops the loop, or both values. -/
def Spared (protocol : Text) (blocks : List Block) (m : Nat) : Prop :=
  ∀ done block later i, blocks = done ++ block :: later → m = (blockLines done).length + 1 + i → i ≤ block.body.length →
    done.length + 1 < 2^31 →
    (∃ before line next after, block.body.take i = before ++ line :: next :: after ∧ Stops protocol line) ∨
      epochs (block.body.take i) ≠ [] ∧ lengths (block.body.take i) ≠ []

/-- Behind a line of data there is none, or one that matches no key. -/
def Paired (part : List Text) : Prop :=
  ∀ before line next after, part = before ++ line :: next :: after → key line = .data → key next = .other

theorem followed_paired {body part : List Text} (followed : Followed body) (inside : part <+: body) : Paired part := by
  obtain ⟨rest,rfl⟩ := inside
  rintro before line next after rfl kind
  obtain ⟨first,more,shape,other⟩ := followed before line (next :: after ++ rest) (by simp) kind
  rw [(List.cons.inj shape).1]
  exact other

theorem paired_tail {line : Text} {part : List Text} (paired : Paired (line :: part)) : Paired part :=
  fun before other next after shape => paired (line :: before) other next after (by rw [shape]; rfl)

section reading
variable {protocol : Text} {part : List Text} {locals last : Locals}

theorem halts_iff {line : Text} (complete : Complete line) (arr : Words) :
    Halts protocol (extract arr line) ↔ Stops protocol line := by
  rw [Halts,Stops,classify_extract complete]
  refine or_congr_right (or_congr_right (and_congr_right fun kind => ?_))
  have enough := key_length complete
  rw [kind] at enough
  have last : extract arr line 3 = word line 3 := extract_word _ _ _ enough
  rw [getPacketProtocol,last]

theorem reaches_absorbed (reached : Reaches protocol locals part last) (complete : ∀ line ∈ part, Complete line)
    (paired : Paired part) : Absorbed protocol part locals last := by
  induction reached with
  | nil => exact ⟨rfl,rfl,rfl,rfl⟩
  | @line locals last line rest _ _ _ _ ih =>
    have absorbed := ih (fun other member => complete other (List.mem_cons_of_mem _ member)) (paired_tail paired)
    exact absorbed_cons (record_takes protocol locals (complete line List.mem_cons_self)) absorbed
  | @data locals last line next rest _ _ kind _ ih =>
    have whole := complete line List.mem_cons_self
    have other := paired [] line next rest rfl (by rw [← classify_extract whole]; exact kind)
    have absorbed := ih (fun other member => complete other (by simp [member])) (paired_tail (paired_tail paired))
    exact absorbed_cons (record_takes protocol locals whole) (absorbed_skip other absorbed)

/-- A line that stops the loop is the last one before the loop looks at its flags. -/
theorem reaches_stops (reached : Reaches protocol locals part last) (complete : ∀ line ∈ part, Complete line)
    (paired : Paired part) {before after : List Text} {line : Text} (shape : part = before ++ line :: after)
    (stops : Stops protocol line) : after = [] ∧ ¬Willing last := by
  induction reached generalizing before with
  | nil => simp at shape
  | @line locals last first rest _ willing _ later ih =>
    cases before with
    | nil =>
      obtain ⟨rfl,rfl⟩ := List.cons.inj shape
      have unwilling : ¬Willing (look protocol locals first) := fun goes =>
        (willing_look willing first).mp goes ((halts_iff (complete first List.mem_cons_self) _).mpr stops)
      cases later with
      | nil => exact ⟨rfl,unwilling⟩
      | line _ still _ _ => exact absurd still unwilling
      | data _ still _ _ => exact absurd still unwilling
    | cons other before =>
      exact ih (fun other member => complete other (List.mem_cons_of_mem _ member)) (paired_tail paired)
        (List.cons.inj shape).2
  | @data locals last first second rest _ _ kind _ ih =>
    rw [classify_extract (complete first List.mem_cons_self)] at kind
    have other := paired [] first second rest rfl kind
    cases before with
    | nil =>
      rw [← (List.cons.inj shape).1] at stops
      simp [Stops,kind] at stops
    | cons head before =>
      have inner := (List.cons.inj shape).2
      cases before with
      | nil =>
        rw [← (List.cons.inj inner).1] at stops
        simp [Stops,other] at stops
      | cons _ before =>
        exact ih (fun other member => complete other (by simp [member])) (paired_tail (paired_tail paired))
          (List.cons.inj inner).2

theorem absorbed_append {first second : List Text} {mid : Locals} (before : Absorbed protocol first locals mid)
    (after : Absorbed protocol second mid last) : Absorbed protocol (first ++ second) locals last := by
  refine ⟨?_,?_,?_,?_⟩
  · rw [after.epochTime,before.epochTime,epochs,epochs,epochs,List.filter_append,List.map_append,List.foldl_append]
  · rw [after.frameLength,before.frameLength,lengths,lengths,lengths,List.filter_append,List.map_append,
      List.foldl_append]
  · rw [after.dataLength,before.dataLength,payloads,payloads,payloads,List.filter_append,List.map_append,
      List.foldl_append]
  · rw [after.dataChunkCount,before.dataChunkCount,payloads,payloads,payloads,List.filter_append,List.map_append,
      List.foldl_append]

theorem part_cases (protocol : Text) (complete : ∀ line ∈ part, Complete line) (paired : Paired part) :
    (∃ before line next after, part = before ++ line :: next :: after ∧ Stops protocol line) ∧
        (readFrame protocol {} part).1 = none ∨
      (¬∃ before line next after, part = before ++ line :: next :: after ∧ Stops protocol line) ∧
        ∃ last, (readFrame protocol {} part).1 = some last ∧ Absorbed protocol part {} last := by
  have unbroken := nonblank_unbroken protocol fun line member => complete_ne_nil (complete line member)
  rcases body_cases unbroken with ⟨last,reached⟩ | ⟨left,abandons⟩ | swallows
  · refine Or.inr ⟨?_,last,?_,reaches_absorbed reached complete paired⟩
    · rintro ⟨before,line,next,after,shape,stops⟩
      exact absurd (reaches_stops reached complete paired shape stops).1 (by simp)
    · have read := readFrame_reaches reached []
      rw [List.append_nil] at read
      rw [read,readFrame]
  · have read := abandons_left unbroken abandons []
    rw [List.append_nil] at read
    obtain ⟨before,line,next,locals,rfl,_,_,halts⟩ := abandons
    exact Or.inl ⟨⟨before,line,next,left,rfl,(halts_iff (complete line (by simp)) _).mp halts⟩,by rw [read]⟩
  · obtain ⟨before,line,locals,rfl,reached,willing,kind⟩ := swallows
    have whole := complete line (by simp)
    have earlier : ∀ other ∈ before, Complete other := fun other member => complete other (by simp [member])
    have pairs : Paired before := fun a x y b shape => paired a x y (b ++ [line]) (by rw [shape]; simp)
    refine Or.inr ⟨?_,look protocol locals line,?_,?_⟩
    · rintro ⟨first,other,next,after,shape,stops⟩
      have member : other ∈ before ++ [line] := by
        rw [shape]
        simp
      rcases List.mem_append.mp member with inside | last
      · obtain ⟨front,back,split⟩ := List.append_of_mem inside
        exact (reaches_stops reached earlier pairs split stops).2 willing
      · rw [List.mem_singleton.mp last] at stops
        rw [classify_extract whole] at kind
        simp [Stops,kind] at stops
    · rw [readFrame_reaches reached,readFrame_last (complete_ne_nil whole) willing kind]
    · have taken : Absorbed protocol [line] locals (look protocol locals line) :=
        absorbed_cons (record_takes protocol locals whole) ⟨rfl,rfl,rfl,rfl⟩
      exact absorbed_append (reaches_absorbed reached earlier pairs) taken

theorem foldl_last {α : Type} (values : List α) (start : Option α) (some_value : values ≠ []) :
    ∃ value ∈ values, values.foldl (fun _ value => some value) start = some value := by
  induction values using List.reverseRecOn with
  | nil => exact absurd rfl some_value
  | append_singleton values value _ => exact ⟨value,by simp,by simp⟩

theorem absorbed_assigned {block : Block} {call : Call} (absorbed : Absorbed protocol part {} last)
    (inside : ∀ line ∈ part, line ∈ block.body ∧ line ∈ call.lines) (epoch : epochs part ≠ []) (length : lengths part ≠ []) :
    Assigned block call last := by
  constructor
  · obtain ⟨value,member,final⟩ := foldl_last (epochs part) none epoch
    obtain ⟨line,found,rfl⟩ := List.mem_map.mp member
    obtain ⟨here,kind⟩ := List.mem_filter.mp found
    exact ⟨line,(inside line here).1,(inside line here).2,of_decide_eq_true kind,absorbed.epochTime.trans final⟩
  · obtain ⟨value,member,final⟩ := foldl_last (lengths part) none length
    obtain ⟨line,found,rfl⟩ := List.mem_map.mp member
    obtain ⟨here,kind⟩ := List.mem_filter.mp found
    exact ⟨line,(inside line here).1,(inside line here).2,of_decide_eq_true kind,absorbed.frameLength.trans final⟩

theorem absorbed_unassigned {block : Block} {call : Call} (absorbed : Absorbed protocol part {} last)
    (assigned : Assigned block call last) : epochs part ≠ [] ∧ lengths part ≠ [] := by
  obtain ⟨⟨_,_,_,_,epoch⟩,⟨_,_,_,_,length⟩⟩ := assigned
  rw [absorbed.epochTime] at epoch
  rw [absorbed.frameLength] at length
  constructor
  · intro empty
    simp [empty] at epoch
  · intro empty
    simp [empty] at length

end reading

theorem headerWord_injective {m n : Int} (same : headerWord m = headerWord n) : m = n :=
  decimal_injective (List.append_cancel_right same)

theorem header_never {k : Nat} {block : Block} (headed : Headed k block) (large : 2^31 ≤ k) (current : Int32)
    (arr : Words) : Stale current (extract arr block.header) := by
  rintro ⟨_,same⟩
  rw [(header_words headed arr).2] at same
  have number : (k : Int) = current.toInt := headerWord_injective same
  have bound := current.toInt_lt
  omega

theorem packetCalls_pass (protocol : Text) (current : Int32) (left tail : List Text)
    (keeps : ∀ line ∈ left, ∀ arr, Stale current arr → Stale current (extract arr line)) (fuel : Nat) (arr : Words)
    (enough : left.length + tail.length ≤ fuel) (stale : Stale current arr) : ∃ fuel' arr', tail.length ≤ fuel' ∧
      packetCalls protocol fuel current arr (left ++ tail) = packetCalls protocol fuel' current arr' tail := by
  induction left generalizing fuel arr with
  | nil => exact ⟨fuel,arr,by simpa using enough,rfl⟩
  | cons line left ih =>
    obtain ⟨fuel,rfl⟩ := Nat.exists_eq_succ_of_ne_zero (by simp at enough; omega : fuel ≠ 0)
    have next := keeps line List.mem_cons_self arr stale
    obtain ⟨fuel',arr',enough',passed⟩ := ih (fun other member => keeps other (List.mem_cons_of_mem _ member)) fuel
      (extract arr line) (by simp at enough; omega) next
    exact ⟨fuel',arr',enough',(packetCalls_line fuel next _).trans passed⟩

theorem readFrame_suffix (protocol : Text) (locals : Locals) (lines : List Text) :
    (readFrame protocol locals lines).2 <:+ lines := by
  have ending := readFrame_ending protocol locals lines
  generalize readFrame protocol locals lines = result at ending
  cases ending with
  | file reached => exact List.nil_suffix
  | blank rest reached => exact (List.suffix_cons _ _).trans (List.suffix_append _ _)
  | early rest reached nonempty unwilling => exact (List.suffix_cons _ _).trans (List.suffix_append _ _)
  | cut reached nonempty willing kind => exact List.nil_suffix

section frames
variable {protocol : Text} {k : Nat} {block : Block} (whole : Whole k block)
include whole

theorem whole_framed : Framed protocol k block := ⟨whole.header,nonblank_unbroken protocol whole.nonblank⟩

theorem body_keeps (current : Int32) (line : Text) (inside : line ∈ block.body) (arr : Words) :
    Stale current (extract arr line) :=
  complete_stale (whole.complete line inside) (whole.unlike line inside) current arr

theorem whole_swallows : ¬Swallows protocol block.body := by
  rintro ⟨before,line,locals,shape,_,_,kind⟩
  rw [classify_extract (whole.complete line (by simp [shape]))] at kind
  obtain ⟨next,rest,more,_⟩ := whole.followed before line [] shape kind
  simp at more

theorem whole_imitates (small : k < 2^31) (left : List Text) (abandons : Abandons protocol block.body left) :
    ¬Imitates (Int32.ofNat (k+1)) (extract (fun _ => []) block.header) left := by
  obtain ⟨before,line,next,_,shape,_⟩ := abandons
  rintro ⟨m,_,fresh⟩
  apply fresh
  rcases List.eq_nil_or_concat (left.take m) with empty | ⟨earlier,last,taken⟩
  · rw [empty]
    exact header_passed whole.header small _
  · have inside : last ∈ left := List.mem_of_mem_take (by rw [taken]; simp : last ∈ left.take m)
    rw [taken,List.concat_eq_append,List.foldl_append]
    exact body_keeps whole _ last (by rw [shape]; simp [inside]) _

theorem whole_assigned (tail : List Text) (call : Call) (lines : call.lines = block.body ++ [] :: tail) (locals : Locals)
    (accepted : (readFrame protocol {} call.lines).1 = some locals) : Assigned block call locals := by
  have unbroken := nonblank_unbroken protocol whole.nonblank
  rw [lines] at accepted
  rcases body_cases unbroken with ⟨last,reached⟩ | ⟨left,abandons⟩ | swallows
  · rw [reads_whole reached] at accepted
    rw [← Option.some.inj accepted]
    have absorbed := reaches_absorbed reached whole.complete (followed_paired whole.followed (List.prefix_refl _))
    exact absorbed_assigned absorbed (fun line inside => ⟨inside,by simp [lines,inside]⟩) whole.epoch whole.length
  · rw [abandons_left unbroken abandons] at accepted
    simp at accepted
  · exact absurd swallows (whole_swallows whole)

end frames

/-- The calls for complete frames. A frame beyond the range of the counter gets none. -/
def madeFrom : Nat → List Block → List Text → List Call
  | _, [], _ => []
  | k, block :: blocks, tail =>
    (if k < 2^31 then [⟨Int32.ofNat k,block.body ++ [] :: (blockLines blocks ++ tail)⟩] else []) ++
      madeFrom (k+1) blocks tail

theorem mem_madeFrom (blocks : List Block) (k : Nat) (tail : List Text) (call : Call)
    (member : call ∈ madeFrom k blocks tail) : ∃ before block after, blocks = before ++ block :: after ∧
      k + before.length < 2^31 ∧ call = ⟨Int32.ofNat (k + before.length),block.body ++ [] :: (blockLines after ++ tail)⟩ := by
  induction blocks generalizing k with
  | nil => simp [madeFrom] at member
  | cons block blocks ih =>
    rw [madeFrom] at member
    rcases List.mem_append.mp member with here | later
    · by_cases small : k < 2^31
      · rw [if_pos small] at here
        exact ⟨[],block,blocks,rfl,small,List.mem_singleton.mp here⟩
      · rw [if_neg small] at here
        exact absurd here List.not_mem_nil
    · obtain ⟨before,other,after,rfl,small,same⟩ := ih (k+1) later
      refine ⟨block :: before,other,after,rfl,?_,?_⟩
      · rw [List.length_cons]
        omega
      · rw [List.length_cons,Nat.add_comm before.length,← Nat.add_assoc]
        exact same

/-- What the loop counts up to, as it stops at the first frame beyond its range. -/
def counter (k : Nat) : Int32 := Int32.ofNat (min k (2^31))

theorem counter_small {k : Nat} (small : k ≤ 2^31) : counter k = Int32.ofNat k := by
  rw [counter,min_eq_left small]

theorem counter_large {k : Nat} (large : 2^31 ≤ k) : counter (k+1) = counter k := by
  rw [counter,counter,min_eq_right large,min_eq_right (Nat.le_succ_of_le large)]

theorem packetCalls_large (protocol : Text) {k : Nat} {block : Block} (whole : Whole k block) (large : 2^31 ≤ k)
    (part tail : List Text) (inside : ∀ line ∈ part, line ∈ block.body ∨ line = []) (fuel : Nat) (arr : Words)
    (enough : (block.header :: part ++ tail).length ≤ fuel) : ∃ fuel' arr', tail.length ≤ fuel' ∧
      packetCalls protocol fuel (counter k) arr (block.header :: part ++ tail) =
        packetCalls protocol fuel' (counter k) arr' tail := by
  rw [List.cons_append,List.length_cons,List.length_append] at enough
  obtain ⟨fuel,rfl⟩ := Nat.exists_eq_succ_of_ne_zero (by omega : fuel ≠ 0)
  have first := header_never whole.header large (counter k) arr
  obtain ⟨fuel',arr',enough',passed⟩ := packetCalls_pass protocol (counter k) part tail (fun line member arr stale => by
    rcases inside line member with here | rfl
    · exact body_keeps whole _ line here arr
    · exact stale) fuel (extract arr block.header) (by omega) first
  exact ⟨fuel',arr',enough',(packetCalls_line fuel first _).trans passed⟩

theorem packetCalls_done (protocol : Text) (done : List Block) (k : Nat) (whole : WholeFrom k done) (tail : List Text)
    (fuel : Nat) (arr : Words) (enough : (blockLines done ++ tail).length ≤ fuel) :
    ∃ fuel' arr', tail.length ≤ fuel' ∧ packetCalls protocol fuel (counter k) arr (blockLines done ++ tail) =
      madeFrom k done tail ++ packetCalls protocol fuel' (counter (k + done.length)) arr' tail := by
  induction done generalizing k fuel arr with
  | nil => exact ⟨fuel,arr,enough,rfl⟩
  | cons block done ih =>
    obtain ⟨here,later⟩ := whole
    have shape : blockLines (block :: done) ++ tail = block.lines ++ (blockLines done ++ tail) := by simp [blockLines]
    have count : k + (block :: done).length = k + 1 + done.length := by rw [List.length_cons]; omega
    rw [shape] at enough ⊢
    rw [count,madeFrom]
    by_cases small : k < 2^31
    · obtain ⟨fuel',arr',enough',made⟩ := @packetCalls_block protocol k block (whole_framed here) small
        (blockLines done ++ tail) fuel arr enough (fun _ => whole_swallows here) (whole_imitates here small)
      obtain ⟨fuel'',arr'',enough'',rest⟩ := ih (k+1) later fuel' arr' enough'
      refine ⟨fuel'',arr'',enough'',?_⟩
      rw [counter_small (Nat.le_of_lt small),made,if_pos small,← counter_small small,rest]
      rfl
    · have large := Nat.le_of_not_lt small
      obtain ⟨fuel',arr',enough',passed⟩ := packetCalls_large protocol here large (block.body ++ [[]])
        (blockLines done ++ tail) (by simp) fuel arr enough
      obtain ⟨fuel'',arr'',enough'',rest⟩ := ih (k+1) later fuel' arr' enough'
      refine ⟨fuel'',arr'',enough'',?_⟩
      rw [counter_large large] at rest
      rw [if_neg small,List.nil_append,← rest,← passed]
      rfl

theorem packetCalls_part (protocol : Text) {k : Nat} {block : Block} (whole : Whole k block) (part : List Text)
    (inside : part <+: block.body) (fuel : Nat) (arr : Words) (enough : part.length + 1 ≤ fuel) :
    packetCalls protocol fuel (counter k) arr (block.header :: part) =
      if k < 2^31 then [⟨Int32.ofNat k,part⟩] else [] := by
  by_cases small : k < 2^31
  · obtain ⟨fuel,enough,called⟩ := @packetCalls_header protocol k block whole.header small part fuel arr enough
    have left := readFrame_suffix protocol {} part
    obtain ⟨fuel',arr',_,passed⟩ := packetCalls_pass protocol (Int32.ofNat (k+1)) (readFrame protocol {} part).2 []
      (fun line member arr _ => body_keeps whole _ line (inside.subset (left.subset member)) arr) fuel
      (extract arr block.header) (left.length_le.trans enough)
      (header_passed whole.header small arr)
    rw [List.append_nil] at passed
    rw [if_pos small,counter_small (Nat.le_of_lt small),called,passed]
    cases fuel' <;> rfl
  · obtain ⟨fuel',arr',_,passed⟩ := packetCalls_large protocol whole (Nat.le_of_not_lt small) part []
      (fun line member => Or.inl (inside.subset member)) fuel arr (by simpa using enough)
    rw [List.append_nil] at passed
    rw [if_neg small,passed]
    cases fuel' <;> rfl

theorem take_blocks (blocks : List Block) (m : Nat) :
    (∃ done later, blocks = done ++ later ∧ (blockLines blocks).take m = blockLines done) ∨
      ∃ done block later i, blocks = done ++ block :: later ∧ m = (blockLines done).length + 1 + i ∧
        i ≤ block.body.length ∧ (blockLines blocks).take m = blockLines done ++ block.header :: block.body.take i := by
  induction blocks generalizing m with
  | nil => exact Or.inl ⟨[],[],rfl,by simp [blockLines]⟩
  | cons block blocks ih =>
    have shape : blockLines (block :: blocks) = block.lines ++ blockLines blocks := List.flatMap_cons
    have size : block.lines.length = block.body.length + 2 := by simp [Block.lines]
    by_cases beyond : block.lines.length ≤ m
    · have cut : (blockLines (block :: blocks)).take m =
          block.lines ++ (blockLines blocks).take (m - block.lines.length) := by
        rw [shape,List.take_append,List.take_of_length_le beyond]
      rcases ih (m - block.lines.length) with ⟨done,later,rfl,taken⟩ | ⟨done,other,later,i,rfl,place,bound,taken⟩
      · exact Or.inl ⟨block :: done,later,rfl,by rw [cut,taken]; rfl⟩
      · refine Or.inr ⟨block :: done,other,later,i,rfl,?_,bound,?_⟩
        · have longer : (blockLines (block :: done)).length = block.lines.length + (blockLines done).length := by
            simp [blockLines]
          omega
        · rw [cut,taken,← List.append_assoc]
          rfl
    · cases m with
      | zero => exact Or.inl ⟨[],block :: blocks,rfl,rfl⟩
      | succ i =>
        refine Or.inr ⟨[],block,blocks,i,rfl,by simp [blockLines]; omega,by omega,?_⟩
        rw [shape,List.take_append_of_le_length (by omega),Block.lines,List.take_succ_cons,
          List.take_append_of_le_length (by omega)]
        rfl

theorem whole_append (done later : List Block) (k : Nat) :
    WholeFrom k (done ++ later) ↔ WholeFrom k done ∧ WholeFrom (k + done.length) later := by
  induction done generalizing k with
  | nil => simp [WholeFrom]
  | cons block done ih =>
    have count : k + (block :: done).length = k + 1 + done.length := by rw [List.length_cons]; omega
    rw [List.cons_append,WholeFrom,WholeFrom,ih,count,and_assoc]

section cut
variable {protocol : Text} {done later : List Block} {block : Block}

theorem calls_between (whole : WholeFrom 1 done) : calls protocol (blockLines done) = madeFrom 1 done [] := by
  obtain ⟨fuel,arr,_,made⟩ := packetCalls_done protocol done 1 whole [] (blockLines done).length (fun _ => []) (by simp)
  rw [List.append_nil] at made
  have none_left : packetCalls protocol fuel (counter (1 + done.length)) arr [] = [] := by cases fuel <;> rfl
  rw [none_left,List.append_nil] at made
  exact made

theorem calls_inside (whole : WholeFrom 1 (done ++ block :: later)) (i : Nat) :
    calls protocol (blockLines done ++ block.header :: block.body.take i) =
      madeFrom 1 done (block.header :: block.body.take i) ++
        if 1 + done.length < 2^31 then [⟨Int32.ofNat (1 + done.length),block.body.take i⟩] else [] := by
  obtain ⟨before,here,_⟩ := (whole_append done (block :: later) 1).mp whole
  obtain ⟨fuel,arr,enough,made⟩ := packetCalls_done protocol done 1 before (block.header :: block.body.take i) _
    (fun _ => []) (le_refl _)
  rw [packetCalls_part protocol here _ (List.take_prefix _ _) fuel arr enough] at made
  exact made

theorem take_inside (i : Nat) (bound : i ≤ block.body.length) :
    (blockLines (done ++ block :: later)).take ((blockLines done).length + 1 + i) =
      blockLines done ++ block.header :: block.body.take i := by
  have shape : blockLines (done ++ block :: later) =
      blockLines done ++ block.header :: (block.body ++ [] :: blockLines later) := by
    simp [blockLines,Block.lines]
  rw [shape,Nat.add_assoc,List.take_length_add_append,Nat.add_comm 1,List.take_succ_cons,List.take_append_of_le_length bound]

theorem part_complete (whole : WholeFrom 1 (done ++ block :: later)) (i : Nat) :
    (∀ line ∈ block.body.take i, Complete line) ∧ Paired (block.body.take i) := by
  have here := ((whole_append done (block :: later) 1).mp whole).2.1
  exact ⟨fun line member => here.complete line (List.mem_of_mem_take member),
    followed_paired here.followed (List.take_prefix i _)⟩

theorem made_assigned (whole : WholeFrom 1 done) (tail : List Text) (call : Call) (member : call ∈ madeFrom 1 done tail)
    (locals : Locals) (accepted : (readFrame protocol {} call.lines).1 = some locals) :
    ∃ before block after, done = before ++ block :: after ∧ call.frame.toInt = before.length + 1 ∧
      Assigned block call locals := by
  obtain ⟨before,block,after,rfl,small,same⟩ := mem_madeFrom done 1 tail call member
  have here := ((whole_append before (block :: after) 1).mp whole).2.1
  refine ⟨before,block,after,rfl,?_,whole_assigned here (blockLines after ++ tail) call (by rw [same]) locals accepted⟩
  rw [same,Int32.toInt_ofNat_of_lt small]
  omega

end cut

/-- Every update has its values from the frame of its call exactly if the cut spares the frame it falls in. -/
theorem cut_iff (protocol : Text) (blocks : List Block) (whole : WholeFrom 1 blocks) (m : Nat) :
    AllAssigned protocol blocks ((blockLines blocks).take m) ↔ Spared protocol blocks m := by
  constructor
  · rintro assigned done block later i rfl rfl bound small
    obtain ⟨complete,paired⟩ := part_complete whole i
    rcases part_cases protocol complete paired with ⟨stops,_⟩ | ⟨_,last,accepted,absorbed⟩
    · exact Or.inl stops
    · have member : ⟨Int32.ofNat (1 + done.length),block.body.take i⟩ ∈
          calls protocol ((blockLines (done ++ block :: later)).take ((blockLines done).length + 1 + i)) := by
        rw [take_inside i bound,calls_inside whole,if_pos (by omega)]
        simp
      obtain ⟨before,other,after,shape,number,held⟩ := assigned _ member last accepted
      rw [Int32.toInt_ofNat_of_lt (by omega)] at number
      have same := (List.append_inj shape (by omega)).2
      rw [← (List.cons.inj same).1] at held
      exact Or.inr (absorbed_unassigned absorbed held)
  · intro spared call member locals accepted
    rcases take_blocks blocks m with ⟨done,later,rfl,taken⟩ | ⟨done,block,later,i,rfl,place,bound,taken⟩
    · have frames := ((whole_append done later 1).mp whole).1
      rw [taken,calls_between frames] at member
      obtain ⟨before,block,after,rfl,number,held⟩ := made_assigned frames [] call member locals accepted
      exact ⟨before,block,after ++ later,by simp,number,held⟩
    · have frames := ((whole_append done (block :: later) 1).mp whole).1
      rw [taken,calls_inside whole] at member
      rcases List.mem_append.mp member with made | last
      · obtain ⟨before,other,after,rfl,number,held⟩ := made_assigned frames _ call made locals accepted
        exact ⟨before,other,after ++ block :: later,by simp,number,held⟩
      · by_cases small : 1 + done.length < 2^31
        · rw [if_pos small,List.mem_singleton] at last
          subst last
          obtain ⟨complete,paired⟩ := part_complete whole i
          refine ⟨done,block,later,rfl,?_,?_⟩
          · rw [Int32.toInt_ofNat_of_lt small]
            omega
          · -- The call has come to the end of the file, so no line that stops it was followed by another.
            rcases part_cases protocol complete paired with ⟨_,returned⟩ | ⟨goes,final,ended,absorbed⟩
            · rw [returned] at accepted
              exact absurd accepted (by simp)
            · rw [ended] at accepted
              rw [← Option.some.inj accepted]
              obtain ⟨epoch,length⟩ := (spared done block later i rfl place bound (by omega)).resolve_left goes
              exact absorbed_assigned absorbed (fun line inside => ⟨List.mem_of_mem_take inside,inside⟩) epoch length
        · rw [if_neg small] at last
          exact absurd last List.not_mem_nil

/-- The frames of well-formed transcripts are complete in this sense. -/
theorem printed_whole {k : Nat} {frame : Frame} (printed : Printed k frame) : Whole k ⟨frame.header,frame.body⟩ where
  header := printed.header
  nonblank := fun line member => complete_ne_nil (printed.complete line member)
  unlike := printed.unlike
  complete := printed.complete
  followed := printed.followed
  epoch := by simp [printed.epoch.1]
  length := by simp [printed.length]

def single : List Block := [⟨headerLine 1,[protocolsLine,epochLine,lengthLine]⟩]

theorem single_whole : WholeFrom 1 single := ⟨printed_whole (plainFrame_printed [] 1),trivial⟩

theorem cut_single : AllAssigned "sctp".toList single ((blockLines single).take 4) ↔ Spared "sctp".toList single 4 :=
  cut_iff "sctp".toList single single_whole 4

/-- The file ends behind the line of the protocols. -/
theorem cut_unassigned : WholeFrom 1 single ∧ ¬AllAssigned "sctp".toList single ((blockLines single).take 2) := by
  refine ⟨single_whole,fun assigned => ?_⟩
  have accepted : (readFrame "sctp".toList {} [protocolsLine]).1.map Locals.epochTime = some none := by decide
  obtain ⟨locals,ended,missing⟩ := Option.map_eq_some_iff.mp accepted
  have member : (⟨1,[protocolsLine]⟩ : Call) ∈ calls "sctp".toList ((blockLines single).take 2) := by decide
  obtain ⟨_,_,_,_,_,held⟩ := assigned _ member locals ended
  obtain ⟨_,_,_,_,found⟩ := held.epochTime
  rw [missing] at found
  exact absurd found (by simp)

end ProtocolTests.CutTranscript
