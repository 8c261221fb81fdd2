import ProtocolTests.FrameIsolation

/-! Frames of another protocol and heartbeats. The loop remembers such a line in a flag
and looks at the flag when it has read the next line, if there is one. -/
namespace ProtocolTests.FrameFilter
open Library.CString ProtocolTests.Parser Transcript TranscriptFrames TranscriptTotals LineLoop PacketCalls FrameIsolation

structure Unchanged (before after : DataParser) : Prop where
  timeFix : after.timeFix = before.timeFix
  totalTime : after.totalTime = before.totalTime
  totalUsefulData : after.totalUsefulData = before.totalUsefulData
  totalData : after.totalData = before.totalData
  dataChunks : after.dataChunks = before.dataChunks
  packetCounter : after.packetCounter = before.packetCounter

/-- A frame with a heartbeat line, or with a protocol list that lacks the protocol. -/
def Filtered (protocol : Text) (body : List Text) : Prop := ∃ line ∈ body, Stops protocol line

/-- The loop looks at a line that halts it, and the body has another line behind that one. -/
def Heeded (protocol : Text) (body : List Text) : Prop := ∃ left, Abandons protocol body left

/-- The lines of a file. Its last frame ends in an empty line or with the file. -/
def fileLines (closed : Bool) : List Block → List Text
  | [] => []
  | block :: blocks =>
    block.header :: (block.body ++ ((if closed ∨ blocks ≠ [] then [[]] else []) ++ fileLines closed blocks))

/-- What a call adds to the totals by the time that no more than `unread` lines are left. -/
def addedBy (protocol : Text) (unread : Nat) (lines : List Text) : Option Locals :=
  if unread ≤ (readFrame protocol {} lines).2.length then (readFrame protocol {} lines).1 else none

/-- The totals of `packetExtractor` when all but `unread` lines of the file are read. -/
def totalsAt (parser : DataParser) (lines : List Text) (unread : Nat) : DataParser :=
  ((calls parser.protocol lines).filterMap fun call => addedBy parser.protocol unread call.lines).foldl
    DataParser.update parser

/-- From the header of a frame that is to be filtered to its last line the totals stay as they are. -/
def Kept (parser : DataParser) (closed : Bool) (blocks : List Block) : Prop :=
  ∀ before block after, blocks = before ++ block :: after → Filtered parser.protocol block.body →
    Unchanged (totalsAt parser (fileLines closed blocks) (fileLines closed (block :: after)).length)
      (totalsAt parser (fileLines closed blocks) (fileLines closed after).length)

/-- The lines that are unread when the calls for the frames are made. -/
def behind (closed : Bool) : List Block → List (List Text)
  | [] => []
  | block :: blocks => (fileLines closed (block :: blocks)).tail :: behind closed blocks

/-- With all its empty lines the file is a transcript of blocks. -/
theorem fileLines_closed (blocks : List Block) : fileLines true blocks = blockLines blocks := by
  induction blocks with
  | nil => rfl
  | cons block blocks ih => rw [fileLines,ih,if_pos (Or.inl rfl),blockLines_cons,List.singleton_append]

theorem totalsAt_start (parser : DataParser) (lines : List Text) : totalsAt parser lines lines.length = parser := by
  have none_ended : ((calls parser.protocol lines).filterMap fun call =>
      addedBy parser.protocol lines.length call.lines) = [] := by
    refine List.filterMap_eq_nil_iff.mpr fun call member => if_neg ?_
    have shorter := calls_shorter _ _ _ _ call member
    have left := @readFrame_length parser.protocol {} call.lines
    omega
  rw [totalsAt,none_ended,List.foldl_nil]

theorem totalsAt_end (parser : DataParser) (lines : List Text) : totalsAt parser lines 0 = parser.packetExtractor lines := by
  rw [packetExtractor_accepted]
  simp [totalsAt,addedBy,accepted]

section frame
variable {protocol : Text} {k : Nat} {block : Block} {blocks : List Block} {closed : Bool}

theorem frame_reaches {last : Locals} (reached : Reaches protocol {} block.body last) :
    readFrame protocol {} (fileLines closed (block :: blocks)).tail = (some last,fileLines closed blocks) := by
  rw [fileLines,List.tail_cons]
  by_cases ended : closed ∨ blocks ≠ []
  · rw [if_pos ended,List.singleton_append,reads_whole reached]
  · obtain rfl := not_not.mp (not_or.mp ended).2
    rw [if_neg ended,readFrame_reaches reached]
    rfl

/-- A call that stays in its frame has read all of it when it updates the totals. -/
theorem frame_read (unbroken : Unbroken protocol block.body) (whole : blocks ≠ [] → ¬Swallows protocol block.body) :
    (∃ left, Abandons protocol block.body left ∧ readFrame protocol {} (fileLines closed (block :: blocks)).tail =
        (none,left ++ ((if closed ∨ blocks ≠ [] then [[]] else []) ++ fileLines closed blocks))) ∨
      ∃ last, readFrame protocol {} (fileLines closed (block :: blocks)).tail = (some last,fileLines closed blocks) := by
  rcases body_cases unbroken with ⟨last,reached⟩ | ⟨left,abandons⟩ | swallows
  · exact Or.inr ⟨last,frame_reaches reached⟩
  · exact Or.inl ⟨left,abandons,abandons_left unbroken abandons _⟩
  · by_cases more : blocks = []
    · subst more
      obtain ⟨before,line,locals,shape,reached,willing,kind⟩ := swallows
      have visible : line ≠ [] := by
        rintro rfl
        exact unbroken before [] _ shape reached
      refine Or.inr ⟨look protocol locals line,?_⟩
      have tail : (fileLines closed [block]).tail = block.body ++ if closed then [[]] else [] := by simp [fileLines]
      rw [tail,shape,List.append_assoc,readFrame_reaches reached]
      cases closed with
      | true => exact readFrame_pair visible willing kind [] []
      | false => exact readFrame_last visible willing kind
    · exact absurd swallows (whole more)

theorem abandons_none (unbroken : Unbroken protocol block.body) (heeded : Heeded protocol block.body) (tail : List Text) :
    (readFrame protocol {} (block.body ++ tail)).1 = none := by
  obtain ⟨left,abandons⟩ := heeded
  rw [abandons_left unbroken abandons]

theorem packetCalls_plain (current : Int32) (left : List Text) (fuel : Nat) (arr : Words)
    (plain : ¬Imitates current arr left) : packetCalls protocol fuel current arr left = [] := by
  induction left generalizing fuel arr with
  | nil => cases fuel <;> rfl
  | cons line left ih =>
    cases fuel with
    | zero => rfl
    | succ fuel =>
      have stale : Stale current (extract arr line) := by
        by_contra fresh
        exact plain ⟨1,by simp,fresh⟩
      rw [packetCalls_line fuel stale]
      exact ih fuel _ fun ⟨m,bound,fresh⟩ => plain ⟨m+1,Nat.succ_le_succ bound,fresh⟩

/-- The last frame may break off without an empty line. -/
theorem packetCalls_last (framed : Framed protocol k block) (small : k < 2^31)
    (plain : ∀ left, Abandons protocol block.body left →
      ¬Imitates (Int32.ofNat (k+1)) (extract (fun _ => []) block.header) left)
    (fuel : Nat) (arr : Words) (enough : block.body.length + 1 ≤ fuel) :
    packetCalls protocol fuel (Int32.ofNat k) arr (block.header :: block.body) = [⟨Int32.ofNat k,block.body⟩] := by
  obtain ⟨fuel,_,called⟩ := @packetCalls_header protocol k block framed.header small block.body fuel arr enough
  rw [called]
  have shape : (fileLines false [block]).tail = block.body := by simp [fileLines]
  have read := @frame_read protocol block [] false framed.unbroken (absurd rfl)
  rw [shape] at read
  rcases read with ⟨left,abandons,read⟩ | ⟨last,read⟩
  · rw [read]
    simp only [fileLines,Bool.false_eq_true,ne_eq,not_true_eq_false,or_self,if_false,List.append_nil]
    rw [packetCalls_plain _ left fuel _ ((imitates_header framed.header _ arr left).not.mpr (plain left abandons))]
  · rw [read]
    cases fuel <;> rfl

end frame

section file
variable {protocol : Text} {closed : Bool}

theorem file_calls (blocks : List Block) (k : Nat) (framed : FramedFrom protocol k blocks)
    (isolated : IsolatedFrom protocol k blocks) (few : blocks ≠ [] → k + blocks.length ≤ 2^31) (fuel : Nat) (arr : Words)
    (enough : (fileLines closed blocks).length ≤ fuel) :
    (packetCalls protocol fuel (Int32.ofNat k) arr (fileLines closed blocks)).map Call.lines = behind closed blocks := by
  induction blocks generalizing k fuel arr with
  | nil => cases fuel <;> rfl
  | cons block blocks ih =>
    obtain ⟨here,later⟩ := framed
    obtain ⟨whole,plain,rest⟩ := isolated
    have bound := few (by simp)
    rw [List.length_cons] at bound
    have small : k < 2^31 := by omega
    by_cases ended : closed ∨ blocks ≠ []
    · have shape : fileLines closed (block :: blocks) = block.lines ++ fileLines closed blocks := by
        rw [fileLines,if_pos ended,lines_append,List.singleton_append]
      have tail : (fileLines closed (block :: blocks)).tail = block.body ++ [] :: fileLines closed blocks := by
        rw [fileLines,if_pos ended,List.tail_cons,List.singleton_append]
      have empty : fileLines closed blocks ≠ [] → blocks ≠ [] := by
        rintro lines rfl
        exact lines rfl
      obtain ⟨fuel',arr',enough',made⟩ := packetCalls_block here small (fileLines closed blocks) fuel arr
        (by rw [← shape]; exact enough) (fun lines => whole (empty lines)) plain
      rw [behind,tail,shape,made,List.map_cons,ih (k+1) later rest (fun _ => by omega) fuel' arr' enough']
    · obtain rfl := not_not.mp (not_or.mp ended).2
      have open_end : closed = false := by simpa using (not_or.mp ended).1
      subst open_end
      have shape : fileLines false [block] = block.header :: block.body := by simp [fileLines]
      rw [shape,List.length_cons] at enough
      rw [behind,behind,shape,packetCalls_last here small plain fuel arr enough]
      rfl

theorem framed_at (before : List Block) (block : Block) (after : List Block) (k : Nat)
    (framed : FramedFrom protocol k (before ++ block :: after)) : Framed protocol (k + before.length) block := by
  induction before generalizing k with
  | nil => exact framed.1
  | cons first before ih =>
    rw [List.length_cons,Nat.add_comm before.length,← Nat.add_assoc]
    exact ih (k+1) framed.2

theorem fileLines_length (before after : List Block) :
    (fileLines closed after).length ≤ (fileLines closed (before ++ after)).length := by
  induction before with
  | nil => exact le_refl _
  | cons block before ih =>
    rw [List.cons_append,fileLines]
    simp only [List.length_cons,List.length_append]
    omega

/-- The calls for later frames come too late. -/
theorem added_after (blocks : List Block) (unread : Nat) (late : (fileLines closed blocks).length ≤ unread) :
    (behind closed blocks).filterMap (addedBy protocol unread) = [] := by
  induction blocks with
  | nil => rfl
  | cons block blocks ih =>
    have rest := @fileLines_length closed [block] blocks
    have left := @readFrame_length protocol {} (fileLines closed (block :: blocks)).tail
    have some_line : (fileLines closed (block :: blocks)).tail.length + 1 = (fileLines closed (block :: blocks)).length := by
      rw [fileLines]
      rfl
    have missed : addedBy protocol unread (fileLines closed (block :: blocks)).tail = none := if_neg (by omega)
    rw [behind,List.filterMap_cons,missed]
    exact ih (rest.trans late)

/-- The calls for earlier frames have ended by then. -/
theorem added_before (before after : List Block) (k : Nat) (framed : FramedFrom protocol k (before ++ after))
    (isolated : IsolatedFrom protocol k (before ++ after)) :
    ∃ early, ∀ unread ≤ (fileLines closed after).length, (behind closed (before ++ after)).filterMap (addedBy protocol unread) =
      early ++ (behind closed after).filterMap (addedBy protocol unread) := by
  induction before generalizing k with
  | nil => exact ⟨[],fun unread _ => rfl⟩
  | cons block before ih =>
    obtain ⟨early,added⟩ := ih (k+1) framed.2 isolated.2.2
    have left := @fileLines_length closed before after
    rcases @frame_read protocol block (before ++ after) closed framed.1.unbroken isolated.1 with ⟨_,_,read⟩ | ⟨last,read⟩
    · refine ⟨early,fun unread late => ?_⟩
      have none_added : addedBy protocol unread (fileLines closed (block :: (before ++ after))).tail = none := by
        simp [addedBy,read]
      rw [List.cons_append,behind,List.filterMap_cons,none_added]
      exact added unread late
    · refine ⟨last :: early,fun unread late => ?_⟩
      have here : addedBy protocol unread (fileLines closed (block :: (before ++ after))).tail = some last := by
        rw [addedBy,read]
        exact if_pos (late.trans left)
      rw [List.cons_append,behind,List.filterMap_cons,here,added unread late]
      rfl

end file

section filter
variable {parser : DataParser} {closed : Bool} {blocks : List Block} (framed : FramedFrom parser.protocol 1 blocks)
  (few : blocks.length < 2^31) (isolated : IsolatedFrom parser.protocol 1 blocks)
include framed few isolated

theorem totalsAt_behind (unread : Nat) : totalsAt parser (fileLines closed blocks) unread =
    ((behind closed blocks).filterMap (addedBy parser.protocol unread)).foldl DataParser.update parser := by
  have made := @file_calls parser.protocol closed blocks 1 framed isolated (fun _ => by omega) _ (fun _ => []) (le_refl _)
  rw [totalsAt,← made,List.filterMap_map]
  rfl

/-- A frame is one update of the totals, or none if the loop heeds a line that halts it. -/
theorem totals_frame {before after : List Block} {block : Block} (shape : blocks = before ++ block :: after) :
    (Heeded parser.protocol block.body ∧
      totalsAt parser (fileLines closed blocks) (fileLines closed after).length =
        totalsAt parser (fileLines closed blocks) (fileLines closed (block :: after)).length) ∨
    ¬Heeded parser.protocol block.body ∧ ∃ last, totalsAt parser (fileLines closed blocks) (fileLines closed after).length =
      (totalsAt parser (fileLines closed blocks) (fileLines closed (block :: after)).length).update last := by
  rw [totalsAt_behind framed few isolated,totalsAt_behind framed few isolated]
  subst shape
  obtain ⟨early,added⟩ := @added_before parser.protocol closed before (block :: after) 1 framed isolated
  have here := framed_at before block after 1 framed
  have shorter := @fileLines_length closed [block] after
  rw [added _ shorter,added _ (le_refl _),added_after (block :: after) _ (le_refl _),List.append_nil,behind,
    List.filterMap_cons]
  have whole := isolated_at parser.protocol before block after 1 isolated
  rcases @frame_read parser.protocol block after closed here.unbroken whole with ⟨left,abandons,read⟩ | ⟨last,read⟩
  · refine Or.inl ⟨⟨left,abandons⟩,?_⟩
    have none_added : addedBy parser.protocol (fileLines closed after).length (fileLines closed (block :: after)).tail =
        none := by simp [addedBy,read]
    rw [none_added,added_after after _ (le_refl _),List.append_nil]
  · refine Or.inr ⟨fun heeded => ?_,last,?_⟩
    · have returned := abandons_none here.unbroken heeded ((if closed ∨ after ≠ [] then [[]] else []) ++ fileLines closed after)
      rw [fileLines,List.tail_cons] at read
      rw [read] at returned
      cases returned
    · have updated : addedBy parser.protocol (fileLines closed after).length (fileLines closed (block :: after)).tail =
          some last := by
        rw [addedBy,read]
        exact if_pos (le_refl _)
      rw [updated]
      simp only [added_after after _ (le_refl _),List.foldl_append,List.foldl_cons,List.foldl_nil]

theorem unchanged_iff {before after : List Block} {block : Block} (shape : blocks = before ++ block :: after) :
    Unchanged (totalsAt parser (fileLines closed blocks) (fileLines closed (block :: after)).length)
        (totalsAt parser (fileLines closed blocks) (fileLines closed after).length) ↔
      Heeded parser.protocol block.body := by
  rcases @totals_frame parser closed blocks framed few isolated before after block shape with ⟨heeded,same⟩ | ⟨unheeded,last,updated⟩
  · rw [same]
    exact ⟨fun _ => heeded,fun _ => ⟨rfl,rfl,rfl,rfl,rfl,rfl⟩⟩
  · refine ⟨fun unchanged => ?_,fun heeded => absurd heeded unheeded⟩
    have counted := unchanged.packetCounter
    rw [updated] at counted
    simp [DataParser.update] at counted

end filter

/-- In every file whose calls stay in step with its frames, and whose loop heeds every frame that is to
be filtered, these frames leave the totals alone; and with the calls in step it has to heed them. -/
theorem filter_iff (parser : DataParser) (closed : Bool) (blocks : List Block)
    (framed : FramedFrom parser.protocol 1 blocks) :
    let inStep := blocks.length < 2^31 ∧ IsolatedFrom parser.protocol 1 blocks
    let heeds := ∀ block ∈ blocks, Filtered parser.protocol block.body → Heeded parser.protocol block.body
    (inStep ∧ heeds → Kept parser closed blocks) ∧ (inStep → Kept parser closed blocks → heeds) := by
  intro inStep heeds
  refine ⟨?_,?_⟩
  · rintro ⟨⟨few,isolated⟩,heeded⟩ before block after shape filtered
    exact (unchanged_iff framed few isolated shape).mpr (heeded block (by simp [shape]) filtered)
  · rintro ⟨few,isolated⟩ kept block member filtered
    obtain ⟨before,after,shape⟩ := List.append_of_mem member
    exact (unchanged_iff framed few isolated shape).mp (kept before block after shape filtered)

def foreignLine : Text := "[Protocols in frame: ppp:ip:tcp]".toList

def heartbeatLine : Text := "HEARTBEAT chunk (Information: 52 bytes)".toList

theorem single_framed (protocol : Text) (body : List Text) (nonblank : ∀ line ∈ body, line ≠ []) :
    FramedFrom protocol 1 [⟨headerLine 1,body⟩] :=
  ⟨⟨(plainFrame_printed [] 1).header,nonblank_unbroken protocol nonblank⟩,trivial⟩

theorem foreign_stops : Stops "sctp".toList foreignLine := Or.inr (Or.inr ⟨by decide,by decide⟩)

theorem heartbeat_stops : Stops "sctp".toList heartbeatLine := Or.inl (by decide)

theorem filter_heeded : Kept sctpParser false [⟨headerLine 1,[foreignLine,epochLine]⟩] := by
  have framed := single_framed "sctp".toList [foreignLine,epochLine] (by decide)
  have halts : Halts "sctp".toList (extract ({} : Locals).arr foreignLine) := by decide
  refine (filter_iff sctpParser false [⟨headerLine 1,[foreignLine,epochLine]⟩] framed).1 ⟨⟨by decide,?_⟩,?_⟩
  · refine ⟨absurd rfl,?_,trivial⟩
    rintro left ⟨before,line,next,locals,shape,_⟩ ⟨m,bound,fresh⟩
    have size := congrArg List.length shape
    simp only [List.length_cons,List.length_nil,List.length_append] at size
    obtain rfl := List.eq_nil_of_length_eq_zero (by omega : left.length = 0)
    rw [List.take_nil] at fresh
    exact fresh (header_passed framed.1.header (by decide) _)
  · intro block member _
    rw [List.mem_singleton.mp member]
    exact ⟨[],[],foreignLine,epochLine,{},rfl,.nil _,⟨rfl,rfl⟩,halts⟩

theorem not_kept {closed : Bool} {body : List Text} {line : Text} (nonblank : ∀ line ∈ body, line ≠ [])
    (inside : line ∈ body) (stops : Stops "sctp".toList line)
    (counted : (sctpParser.packetExtractor (fileLines closed [⟨headerLine 1,body⟩])).packetCounter ≠ 0) :
    FramedFrom sctpParser.protocol 1 [⟨headerLine 1,body⟩] ∧ ¬Kept sctpParser closed [⟨headerLine 1,body⟩] := by
  refine ⟨single_framed _ body nonblank,fun kept => counted ?_⟩
  have same := (kept [] ⟨headerLine 1,body⟩ [] rfl ⟨line,inside,stops⟩).packetCounter
  rw [totalsAt_start,fileLines,List.length_nil,totalsAt_end] at same
  exact same

/-- The deciding line in front of the empty line, at the end of the file, and behind a line of data; and
a frame that is heeded, but whose other lines make up the header of another. -/
theorem filter_unheeded :
    let unheeded (closed : Bool) (body : List Text) : Prop := Filtered sctpParser.protocol body ∧
      FramedFrom sctpParser.protocol 1 [⟨headerLine 1,body⟩] ∧ ¬Kept sctpParser closed [⟨headerLine 1,body⟩]
    unheeded true [epochLine,lengthLine,foreignLine] ∧ unheeded false [epochLine,lengthLine,heartbeatLine] ∧
      unheeded true [dataLine 1,heartbeatLine,epochLine,lengthLine] ∧
      unheeded true [foreignLine,"x".toList,"Flags 2:".toList,"Frame".toList,epochLine,lengthLine] := by
  refine ⟨⟨⟨_,?_,foreign_stops⟩,not_kept ?_ ?_ foreign_stops ?_⟩,⟨⟨_,?_,heartbeat_stops⟩,not_kept ?_ ?_ heartbeat_stops ?_⟩,
    ⟨⟨_,?_,heartbeat_stops⟩,not_kept ?_ ?_ heartbeat_stops ?_⟩,⟨_,?_,foreign_stops⟩,not_kept ?_ ?_ foreign_stops ?_⟩
  all_goals decide

end ProtocolTests.FrameFilter
