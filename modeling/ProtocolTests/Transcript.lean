import ProtocolTests.Parser

/-! Transcripts of a capture: what a frame looks like in print, and how the line loop of
`dataExtractor` reads one. The word arrays keep words of earlier lines; a line that
is complete hides them from everything the loop looks at. -/
namespace ProtocolTests.Transcript
open Library.CString ProtocolTests.Parser

/-- The words that the loop looks at in a line with the given first word. -/
def needed (word : Text) : Nat :=
  if word = "HEARTBEAT".toList then 2
  else if word = "HEARTBEAT_ACK".toList then 2
  else if word = "[Protocols".toList then 4
  else if word = "Epoch".toList then 3
  else if word = "Frame".toList then 3
  else if word = "Source:".toList then 2
  else if word = "Destination:".toList then 2
  else if word = "Time".toList then 4
  else if word = "Data".toList then 2
  else 1

/-- A line with at least one word, and with all words that its first word calls for. -/
def Complete (line : Text) : Prop := ∃ first rest, words line = first :: rest ∧ needed first ≤ rest.length + 1

def word (line : Text) (i : Nat) : Text := ((words line)[i]?).getD []

/-- The key that a line matches by itself. -/
def key (line : Text) : Key := classify (extract (fun _ => []) line)

/-- The comparisons of the loop, word by word. -/
theorem classify_eq (arr : Words) (plain : ' ' ∉ arr 0) : classify arr =
    if arr 0 = "HEARTBEAT".toList ∧ arr 1 = "chunk".toList then .heartbeat
    else if arr 0 = "HEARTBEAT_ACK".toList ∧ arr 1 = "chunk".toList then .heartbeatAck
    else if arr 0 = "[Protocols".toList ∧ arr 1 ++ ' ' :: arr 2 = "in frame:".toList then .protocols
    else if arr 0 = "Epoch".toList ∧ arr 1 = "Time:".toList then .epochTime
    else if arr 0 = "Frame".toList ∧ arr 1 = "Length:".toList then .frameLength
    else if arr 0 = "Source:".toList then .source
    else if arr 0 = "Destination:".toList then .destination
    else if arr 0 = "Time".toList ∧ arr 1 ++ ' ' :: arr 2 = "to live:".toList then .timeToLive
    else if arr 0 = "Data".toList then .data
    else .other := by
  have two (first second : Text) (letters : ' ' ∉ first) :
      arr 0 ++ ' ' :: arr 1 = first ++ ' ' :: second ↔ arr 0 = first ∧ arr 1 = second :=
    joined_iff _ _ _ _ plain letters
  have three (first second : Text) (letters : ' ' ∉ first) :
      arr 0 ++ ' ' :: arr 1 ++ ' ' :: arr 2 = first ++ ' ' :: second ↔
        arr 0 = first ∧ arr 1 ++ ' ' :: arr 2 = second := by
    rw [List.append_assoc]
    exact joined_iff _ _ _ _ plain letters
  have heartbeat := two "HEARTBEAT".toList "chunk".toList (by decide)
  have heartbeatAck := two "HEARTBEAT_ACK".toList "chunk".toList (by decide)
  have protocols := three "[Protocols".toList "in frame:".toList (by decide)
  have epochTime := two "Epoch".toList "Time:".toList (by decide)
  have frameLength := two "Frame".toList "Length:".toList (by decide)
  have timeToLive := three "Time".toList "to live:".toList (by decide)
  rw [classify]
  simp only [← heartbeat,← heartbeatAck,← protocols,← epochTime,← frameLength,← timeToLive]
  rfl

/-- The words that a key stands for. -/
def Spelled (arr : Words) : Key → Prop
  | .heartbeat => arr 0 = "HEARTBEAT".toList ∧ arr 1 = "chunk".toList
  | .heartbeatAck => arr 0 = "HEARTBEAT_ACK".toList ∧ arr 1 = "chunk".toList
  | .protocols => arr 0 = "[Protocols".toList ∧ arr 1 ++ ' ' :: arr 2 = "in frame:".toList
  | .epochTime => arr 0 = "Epoch".toList ∧ arr 1 = "Time:".toList
  | .frameLength => arr 0 = "Frame".toList ∧ arr 1 = "Length:".toList
  | .source => arr 0 = "Source:".toList
  | .destination => arr 0 = "Destination:".toList
  | .timeToLive => arr 0 = "Time".toList ∧ arr 1 ++ ' ' :: arr 2 = "to live:".toList
  | .data => arr 0 = "Data".toList
  | .other => True

theorem spelled_ite {arr : Words} {condition : Prop} [Decidable condition] {kind rest : Key}
    (here : condition → Spelled arr kind) (later : Spelled arr rest) :
    Spelled arr (if condition then kind else rest) := by
  by_cases holds : condition
  · rw [if_pos holds]
    exact here holds
  · rw [if_neg holds]
    exact later

theorem classify_spelled (arr : Words) (plain : ' ' ∉ arr 0) : Spelled arr (classify arr) := by
  rw [classify_eq arr plain]
  refine spelled_ite id ?_
  refine spelled_ite id ?_
  refine spelled_ite id ?_
  refine spelled_ite id ?_
  refine spelled_ite id ?_
  refine spelled_ite id ?_
  refine spelled_ite id ?_
  refine spelled_ite id ?_
  refine spelled_ite id ?_
  trivial

theorem classify_congr (arr arr' : Words) (plain : ' ' ∉ arr 0) (same : arr 0 = arr' 0)
    (agree : ∀ i : Fin NUM_OF_WORDS, i.val < needed (arr 0) → arr i = arr' i) : classify arr = classify arr' := by
  have one (enough : 2 ≤ needed (arr 0)) : arr 1 = arr' 1 := agree 1 enough
  have two (enough : 3 ≤ needed (arr 0)) : arr 2 = arr' 2 := agree 2 enough
  have second (first next : Text) (enough : 2 ≤ needed first) :
      arr 0 = first ∧ arr 1 = next ↔ arr 0 = first ∧ arr' 1 = next :=
    and_congr_right fun here => by rw [one (by rw [here]; exact enough)]
  have third (first next : Text) (enough : 3 ≤ needed first) :
      arr 0 = first ∧ arr 1 ++ ' ' :: arr 2 = next ↔ arr 0 = first ∧ arr' 1 ++ ' ' :: arr' 2 = next :=
    and_congr_right fun here => by rw [one (by rw [here]; omega),two (by rw [here]; exact enough)]
  rw [classify_eq arr plain,classify_eq arr' (by rw [← same]; exact plain),← same]
  simp only [second "HEARTBEAT".toList "chunk".toList (by decide),second "HEARTBEAT_ACK".toList "chunk".toList (by decide),
    third "[Protocols".toList "in frame:".toList (by decide),second "Epoch".toList "Time:".toList (by decide),
    second "Frame".toList "Length:".toList (by decide),third "Time".toList "to live:".toList (by decide)]

/-- The words behind which a key has been read, with those the branch uses. -/
def length : Key → Nat
  | .heartbeat => 2
  | .heartbeatAck => 2
  | .protocols => 4
  | .epochTime => 3
  | .frameLength => 3
  | .source => 2
  | .destination => 2
  | .timeToLive => 4
  | .data => 2
  | .other => 0

theorem classify_needed (arr : Words) (plain : ' ' ∉ arr 0) :
    classify arr = .other ∨ needed (arr 0) = length (classify arr) := by
  have spelled := classify_spelled arr plain
  generalize classify arr = kind at spelled
  cases kind with
  | other => exact Or.inl rfl
  | source | destination | data =>
    rw [Spelled] at spelled
    rw [spelled]
    exact Or.inr (by decide)
  | _ =>
    rw [Spelled] at spelled
    rw [spelled.1]
    exact Or.inr (by decide)

theorem extract_word (arr : Words) (line : Text) (i : Fin NUM_OF_WORDS) (inside : i.val < (words line).length) :
    extract arr line i = word line i.val := by
  rw [extract,word,List.getElem?_eq_getElem inside,Option.getD_some,Option.getD_some]

section complete
variable {line : Text} (complete : Complete line)
include complete

theorem complete_nonempty : 0 < (words line).length := by
  obtain ⟨first,rest,shape,_⟩ := complete
  simp [shape]

theorem complete_plain (arr : Words) : ' ' ∉ extract arr line 0 := by
  rw [extract_word arr line 0 (complete_nonempty complete)]
  obtain ⟨first,rest,shape,_⟩ := complete
  have letters := words_letters line first (by simp [shape])
  intro member
  have space := letters ' ' (by simpa [word,shape] using member)
  exact absurd space (by decide)

theorem complete_needed (arr : Words) : needed (extract arr line 0) ≤ (words line).length := by
  rw [extract_word arr line 0 (complete_nonempty complete)]
  obtain ⟨first,rest,shape,enough⟩ := complete
  simpa [word,shape] using enough

/-- The words of earlier lines do not show through a complete line. -/
theorem classify_extract (arr : Words) : classify (extract arr line) = key line := by
  refine classify_congr _ _ (complete_plain complete arr) ?_ ?_
  · rw [extract_word _ _ _ (complete_nonempty complete),extract_word _ _ _ (complete_nonempty complete)]
  · intro i inside
    have bound := lt_of_lt_of_le inside (complete_needed complete arr)
    rw [extract_word _ _ _ bound,extract_word _ _ _ bound]

theorem key_length : length (key line) ≤ (words line).length := by
  rcases classify_needed _ (complete_plain complete fun _ => []) with other | same
  · rw [key,other]
    exact Nat.zero_le _
  · rw [key,← same]
    exact complete_needed complete _

end complete

def payload (line : Text) : Int32 := truncate (atof ((word line 1).filter (· ≠ '(')))

structure Takes (protocol : Text) (line : Text) (locals next : Locals) : Prop where
  correctProtocol : next.correctProtocol =
    if key line = .protocols then scanProtocols protocol [] (word line 3) else locals.correctProtocol
  heartbeat : next.heartbeat = (decide (key line = .heartbeat ∨ key line = .heartbeatAck) || locals.heartbeat)
  epochTime : next.epochTime = if key line = .epochTime then some (atof (word line 2)) else locals.epochTime
  frameLength : next.frameLength = if key line = .frameLength then some (atof (word line 2)) else locals.frameLength
  dataLength : next.dataLength = if key line = .data then locals.dataLength + payload line else locals.dataLength
  dataChunkCount : next.dataChunkCount =
    if key line = .data ∧ protocol = "sctp".toList then locals.dataChunkCount + 1 else locals.dataChunkCount

theorem record_takes (protocol : Text) (locals : Locals) {line : Text} (complete : Complete line) :
    Takes protocol line locals (record protocol {locals with arr := extract locals.arr line}) := by
  have enough := key_length complete
  have read (i : Fin NUM_OF_WORDS) (inside : i.val < length (key line)) : extract locals.arr line i = word line i.val :=
    extract_word _ _ _ (lt_of_lt_of_le inside enough)
  unfold record
  rw [classify_extract complete]
  cases kind : key line with
  | protocols =>
    have fourth : extract locals.arr line 3 = word line 3 := read 3 (by rw [kind]; decide)
    constructor <;> simp [kind,getPacketProtocol,fourth]
  | epochTime =>
    have third : extract locals.arr line 2 = word line 2 := read 2 (by rw [kind]; decide)
    constructor <;> simp [kind,getEpochTime,third]
  | frameLength =>
    have third : extract locals.arr line 2 = word line 2 := read 2 (by rw [kind]; decide)
    constructor <;> simp [kind,getPacketLength,third]
  | data =>
    have second : extract locals.arr line 1 = word line 1 := read 1 (by rw [kind]; decide)
    constructor <;> simp [kind,getPayload,payload,second]
  | _ => constructor <;> simp [kind]

/-- A body as the line loop takes it: one line, or a line of data with the one behind it. -/
inductive Reads : List Text → Prop
  | nil : Reads []
  | line (line : Text) (rest : List Text) (complete : Complete line) (single : key line ≠ .data)
      (later : Reads rest) : Reads (line :: rest)
  | data (line next : Text) (rest : List Text) (complete : Complete line) (kind : key line = .data)
      (follows : key next = .other) (later : Reads rest) : Reads (line :: next :: rest)

/-- A line behind which the rest of the frame is left to the outer loop. -/
def Stops (protocol : Text) (line : Text) : Prop :=
  key line = .heartbeat ∨ key line = .heartbeatAck ∨
    key line = .protocols ∧ scanProtocols protocol [] (word line 3) = false

def epochs (body : List Text) : List ℚ := (body.filter fun line => key line = .epochTime).map fun line => atof (word line 2)

def lengths (body : List Text) : List ℚ := (body.filter fun line => key line = .frameLength).map fun line => atof (word line 2)

def payloads (body : List Text) : List Int32 := (body.filter fun line => key line = .data).map payload

structure Absorbed (protocol : Text) (body : List Text) (locals final : Locals) : Prop where
  epochTime : final.epochTime = (epochs body).foldl (fun _ value => some value) locals.epochTime
  frameLength : final.frameLength = (lengths body).foldl (fun _ value => some value) locals.frameLength
  dataLength : final.dataLength = (payloads body).foldl (· + ·) locals.dataLength
  dataChunkCount : final.dataChunkCount =
    (payloads body).foldl (fun count _ => if protocol = "sctp".toList then count + 1 else count) locals.dataChunkCount

section reading
variable {protocol line : Text} {body : List Text} {locals next final : Locals}

theorem absorbed_cons (takes : Takes protocol line locals next) (absorbed : Absorbed protocol body next final) :
    Absorbed protocol (line :: body) locals final := by
  obtain ⟨_,_,epoch,length,data,chunks⟩ := takes
  refine ⟨?_,?_,?_,?_⟩
  · rw [absorbed.epochTime,epoch,epochs,epochs,List.filter_cons]
    by_cases kind : key line = .epochTime <;> simp [kind]
  · rw [absorbed.frameLength,length,lengths,lengths,List.filter_cons]
    by_cases kind : key line = .frameLength <;> simp [kind]
  · rw [absorbed.dataLength,data,payloads,payloads,List.filter_cons]
    by_cases kind : key line = .data <;> simp [kind]
  · rw [absorbed.dataChunkCount,chunks,payloads,payloads,List.filter_cons]
    by_cases kind : key line = .data <;> simp [kind]

theorem absorbed_skip (other : key line = .other) (absorbed : Absorbed protocol body locals final) :
    Absorbed protocol (line :: body) locals final := by
  have epoch : epochs (line :: body) = epochs body := by simp [epochs,other]
  have length : lengths (line :: body) = lengths body := by simp [lengths,other]
  have data : payloads (line :: body) = payloads body := by simp [payloads,other]
  obtain ⟨first,second,third,fourth⟩ := absorbed
  exact ⟨by rw [epoch]; exact first,by rw [length]; exact second,by rw [data]; exact third,by rw [data]; exact fourth⟩

theorem record_arr (protocol : Text) (locals : Locals) : (record protocol locals).arr = locals.arr := by
  unfold record
  split <;> rfl

def Willing (locals : Locals) : Prop := locals.correctProtocol = true ∧ locals.heartbeat = false

theorem complete_ne_nil (complete : Complete line) : line ≠ [] := by
  rintro rfl
  exact absurd (complete_nonempty complete) (by simp)

theorem readFrame_line (complete : Complete line) (willing : Willing locals) (rest : List Text)
    (single : key line ≠ .data) : readFrame protocol locals (line :: rest) =
      readFrame protocol (record protocol {locals with arr := extract locals.arr line}) rest := by
  rw [readFrame,if_neg (complete_ne_nil complete),if_neg (by simp [willing.1]),if_neg (by simp [willing.2])]
  simp only [record_arr,classify_extract complete,single,if_false]

theorem readFrame_data (complete : Complete line) (willing : Willing locals) (next : Text) (rest : List Text)
    (kind : key line = .data) : readFrame protocol locals (line :: next :: rest) =
      readFrame protocol (record protocol {locals with arr := extract locals.arr line}) rest := by
  rw [readFrame,if_neg (complete_ne_nil complete),if_neg (by simp [willing.1]),if_neg (by simp [willing.2])]
  simp only [record_arr,classify_extract complete,kind,if_true]

/-- The loop takes one more line before it gives up. -/
theorem readFrame_unwilling (nonempty : line ≠ []) (unwilling : ¬Willing locals) (rest : List Text) :
    readFrame protocol locals (line :: rest) = (none,rest) := by
  rw [readFrame,if_neg nonempty]
  by_cases correct : locals.correctProtocol = false
  · rw [if_pos correct]
  · rw [if_neg correct]
    have beating : locals.heartbeat = true := by
      by_contra quiet
      exact unwilling ⟨by simpa using correct,by simpa using quiet⟩
    rw [if_pos beating]

theorem willing_iff (takes : Takes protocol line locals next) (willing : Willing locals) :
    Willing next ↔ ¬Stops protocol line := by
  obtain ⟨correct,beating⟩ := willing
  rw [Willing,takes.correctProtocol,takes.heartbeat,Stops,correct,beating]
  cases key line <;> simp

/-- A body without a line that stops is read up to and with the empty line. -/
theorem read_accepted (rest : List Text) (reads : Reads body) (willing : Willing locals)
    (goes : ∀ line ∈ body, ¬Stops protocol line) :
    ∃ final, readFrame protocol locals (body ++ [] :: rest) = (some final,rest) ∧
      Absorbed protocol body locals final := by
  induction reads generalizing locals with
  | nil => exact ⟨locals,by rw [List.nil_append,readFrame,if_pos rfl],rfl,rfl,rfl,rfl⟩
  | line line more complete single later ih =>
    have takes := record_takes protocol locals complete
    have still := (willing_iff takes willing).mpr (goes line List.mem_cons_self)
    obtain ⟨final,read,absorbed⟩ := ih still fun other member => goes other (List.mem_cons_of_mem _ member)
    refine ⟨final,?_,absorbed_cons takes absorbed⟩
    rw [List.cons_append,readFrame_line complete willing _ single,read]
  | data line next more complete kind follows later ih =>
    have takes := record_takes protocol locals complete
    have still := (willing_iff takes willing).mpr (goes line List.mem_cons_self)
    obtain ⟨final,read,absorbed⟩ := ih still fun other member =>
      goes other (List.mem_cons_of_mem _ (List.mem_cons_of_mem _ member))
    refine ⟨final,?_,absorbed_cons takes (absorbed_skip follows absorbed)⟩
    rw [List.cons_append,List.cons_append,readFrame_data complete willing _ _ kind,read]

/-- Behind a line that stops, one more line is taken and the others are left. -/
theorem read_rejected (rest : List Text) (reads : Reads body) (complete : ∀ line ∈ body, Complete line)
    (willing : Willing locals) (stops : ∃ line ∈ body, Stops protocol line)
    (inner : ∀ before line after, body = before ++ line :: after → Stops protocol line → after ≠ []) :
    ∃ left, left <:+ body ∧ readFrame protocol locals (body ++ [] :: rest) = (none,left ++ [] :: rest) := by
  induction reads generalizing locals with
  | nil =>
    obtain ⟨line,member,_⟩ := stops
    cases member
  | line line more whole single later ih =>
    have takes := record_takes protocol locals whole
    have decides := willing_iff takes willing
    rw [List.cons_append,readFrame_line whole willing _ single]
    by_cases here : Stops protocol line
    · obtain ⟨next,left,rfl⟩ := List.exists_cons_of_ne_nil (inner [] line more rfl here)
      have nonempty := complete_ne_nil (complete next (by simp))
      refine ⟨left,⟨[line,next],rfl⟩,?_⟩
      exact readFrame_unwilling nonempty (decides.not.mpr (not_not.mpr here)) _
    · have later_stops : ∃ other ∈ more, Stops protocol other := by
        obtain ⟨other,member,stop⟩ := stops
        rcases List.mem_cons.mp member with rfl | member
        · exact absurd stop here
        · exact ⟨other,member,stop⟩
      obtain ⟨left,inside,read⟩ := ih (fun other member => complete other (List.mem_cons_of_mem _ member))
        (decides.mpr here) later_stops
        (fun before other after shape => inner (line :: before) other after (by rw [shape]; rfl))
      exact ⟨left,inside.trans (List.suffix_cons _ _),read⟩
  | data line next more whole kind follows later ih =>
    have takes := record_takes protocol locals whole
    have here : ¬Stops protocol line := by simp [Stops,kind]
    have skipped : ¬Stops protocol next := by simp [Stops,follows]
    have later_stops : ∃ other ∈ more, Stops protocol other := by
      obtain ⟨other,member,stop⟩ := stops
      rcases List.mem_cons.mp member with rfl | member
      · exact absurd stop here
      · rcases List.mem_cons.mp member with rfl | member
        · exact absurd stop skipped
        · exact ⟨other,member,stop⟩
    obtain ⟨left,inside,read⟩ := ih
      (fun other member => complete other (List.mem_cons_of_mem _ (List.mem_cons_of_mem _ member)))
      ((willing_iff takes willing).mpr here) later_stops
      (fun before other after shape => inner (line :: next :: before) other after (by rw [shape]; rfl))
    refine ⟨left,(inside.trans (List.suffix_cons _ _)).trans (List.suffix_cons _ _),?_⟩
    rw [List.cons_append,List.cons_append,readFrame_data whole willing _ _ kind,read]

end reading

end ProtocolTests.Transcript
