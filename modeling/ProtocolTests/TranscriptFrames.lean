import ProtocolTests.Transcript

/-! From the frames of a transcript to the loop that reads it. The outer loop looks for the headers of the frames
one number after the other, and the line loop hands it back whatever it did not read. -/
namespace ProtocolTests.TranscriptFrames
open Library.CString ProtocolTests.Parser Transcript

structure Frame where
  header : Text
  body : List Text
  tokens : List Text
  epoch : ℚ
  length : ℚ
  payloads : List Nat

def protocolsWord (tokens : List Text) : Text := List.intercalate [':'] tokens ++ [']']

def headerWord (k : Int) : Text := decimal k ++ [':']

/-- Behind every line of data there is one that matches no key. -/
def Followed (body : List Text) : Prop := ∀ before line after, body = before ++ line :: after → key line = .data →
  ∃ next rest, after = next :: rest ∧ key next = .other

/-- Frame `k` of a well-formed transcript: one line each for the protocols, the epoch time
and the frame length; behind every line of data one that matches no key; the protocols
and the heartbeats not in the last line; and nothing that looks like a header. -/
structure Printed (k : Nat) (frame : Frame) : Prop where
  header : ∃ rest, words frame.header = "Frame".toList :: headerWord k :: rest
  complete : ∀ line ∈ frame.body, Complete line
  protocols : (frame.body.filter fun line => key line = .protocols).map words =
    [["[Protocols".toList,"in".toList,"frame:".toList,protocolsWord frame.tokens]]
  tokens : frame.tokens ≠ [] ∧ ∀ token ∈ frame.tokens, ':' ∉ token ∧ ']' ∉ token
  epoch : epochs frame.body = [frame.epoch] ∧ 0 ≤ frame.epoch
  length : lengths frame.body = [frame.length]
  payloads : (frame.body.filter fun line => key line = .data).map words =
    frame.payloads.map fun size => ["Data".toList,'(' :: Nat.toDigits 10 size,"bytes)".toList]
  followed : Followed frame.body
  inner : ∀ before line after, frame.body = before ++ line :: after →
    key line = .protocols ∨ key line = .heartbeat ∨ key line = .heartbeatAck → after ≠ []
  unlike : ∀ line ∈ frame.body, ∀ (n : Int) (rest : List Text), words line ≠ "Frame".toList :: headerWord n :: rest

def Frame.lines (frame : Frame) : List Text := frame.header :: (frame.body ++ [[]])

def transcript (frames : List Frame) : List Text := frames.flatMap Frame.lines

def PrintedFrom : Nat → List Frame → Prop
  | _, [] => True
  | k, frame :: frames => Printed k frame ∧ PrintedFrom (k+1) frames

/-- A frame of the protocol that is not a heartbeat. -/
def Frame.Carries (protocol : Text) (frame : Frame) : Prop :=
  protocol ∈ frame.tokens ∧ ∀ line ∈ frame.body, key line ≠ .heartbeat ∧ key line ≠ .heartbeatAck

instance (protocol : Text) (frame : Frame) : Decidable (frame.Carries protocol) :=
  inferInstanceAs (Decidable (_ ∧ _))

theorem scan_token (protocol token read rest : Text) (plain : ':' ∉ token ∧ ']' ∉ token) :
    scanProtocols protocol read (token ++ rest) = scanProtocols protocol (read ++ token) rest := by
  induction token generalizing read with
  | nil => simp
  | cons c token ih =>
    have colon := List.ne_of_not_mem_cons plain.1
    have bracket := List.ne_of_not_mem_cons plain.2
    rw [List.cons_append,scanProtocols,if_pos ⟨colon.symm,bracket.symm⟩,
      ih _ ⟨List.not_mem_of_not_mem_cons plain.1,List.not_mem_of_not_mem_cons plain.2⟩]
    simp

theorem scan_tokens (protocol : Text) (tokens : List Text) (some_token : tokens ≠ [])
    (plain : ∀ token ∈ tokens, ':' ∉ token ∧ ']' ∉ token) :
    scanProtocols protocol [] (protocolsWord tokens) = decide (protocol ∈ tokens) := by
  induction tokens with
  | nil => exact absurd rfl some_token
  | cons token tokens ih =>
    have first := plain token List.mem_cons_self
    cases tokens with
    | nil =>
      rw [protocolsWord,List.intercalate_singleton,scan_token _ _ _ _ first]
      by_cases same : token = protocol
      · simp [scanProtocols,same]
      · simp [scanProtocols,same,Ne.symm same]
    | cons next tokens =>
      have later := ih (by simp) fun other member => plain other (List.mem_cons_of_mem _ member)
      rw [protocolsWord] at later ⊢
      rw [List.intercalate_cons_cons,List.append_assoc,List.append_assoc,scan_token _ _ _ _ first,
        List.nil_append,List.singleton_append,scanProtocols]
      by_cases same : token = protocol
      · simp [same]
      · simp [same,Ne.symm same,later]

theorem scan_unclosed (protocol : Text) (tokens : List Text) (plain : ∀ token ∈ tokens, ':' ∉ token ∧ ']' ∉ token) :
    scanProtocols protocol [] (List.intercalate [':'] tokens) = decide (protocol ∈ tokens.dropLast) := by
  induction tokens with
  | nil => rfl
  | cons token tokens ih =>
    have first := plain token List.mem_cons_self
    cases tokens with
    | nil =>
      have ended := scan_token protocol token [] [] first
      rw [List.append_nil] at ended
      rw [List.intercalate_singleton,ended]
      simp [scanProtocols]
    | cons next tokens =>
      have later := ih fun other member => plain other (List.mem_cons_of_mem _ member)
      rw [List.intercalate_cons_cons,List.append_assoc,scan_token _ _ _ _ first,List.nil_append,
        List.singleton_append,scanProtocols,List.dropLast_cons_cons]
      by_cases same : token = protocol
      · simp [same]
      · simp [same,Ne.symm same,later]

/-- A protocol is found exactly if it is one of the tokens; without the bracket at the end
the last token is not looked at. -/
theorem protocol_found_iff (protocol : Text) (tokens : List Text) (arr : Words) (some_token : tokens ≠ [])
    (plain : ∀ token ∈ tokens, ':' ∉ token ∧ ']' ∉ token) :
    (arr 3 = List.intercalate [':'] tokens ++ [']'] → (getPacketProtocol protocol arr = true ↔ protocol ∈ tokens)) ∧
      (arr 3 = List.intercalate [':'] tokens →
        (getPacketProtocol protocol arr = true ↔ protocol ∈ tokens.dropLast)) := by
  refine ⟨fun closed => ?_,fun unclosed => ?_⟩
  · have scanned := scan_tokens protocol tokens some_token plain
    rw [protocolsWord,← closed] at scanned
    rw [getPacketProtocol,scanned,decide_eq_true_iff]
  · rw [getPacketProtocol,unclosed,scan_unclosed protocol tokens plain,decide_eq_true_iff]

theorem protocol_found_ip : (getPacketProtocol "ip".toList (fun _ => "eth:ipv6:ip]".toList) = true ↔
    "ip".toList ∈ ["eth".toList,"ipv6".toList,"ip".toList]) ∧
      (getPacketProtocol "ip".toList (fun _ => "eth:ipv6:ip".toList) = true ↔
        "ip".toList ∈ ["eth".toList,"ipv6".toList]) :=
  ⟨(protocol_found_iff "ip".toList ["eth".toList,"ipv6".toList,"ip".toList] _ (by decide) (by decide)).1 rfl,
    (protocol_found_iff "ip".toList ["eth".toList,"ipv6".toList,"ip".toList] _ (by decide) (by decide)).2 rfl⟩

theorem followed_tail {line : Text} {rest : List Text} (followed : Followed (line :: rest)) : Followed rest :=
  fun before other after shape => followed (line :: before) other after (by rw [shape]; rfl)

theorem followed_cons {line : Text} {rest : List Text} (single : key line ≠ .data) (followed : Followed rest) :
    Followed (line :: rest) := by
  intro before other after shape kind
  cases before with
  | nil =>
    obtain ⟨rfl,_⟩ := List.cons.inj shape
    exact absurd kind single
  | cons first before => exact followed before other after (List.cons.inj shape).2 kind

theorem followed_data {line next : Text} {rest : List Text} (follows : key next = .other) (followed : Followed rest) :
    Followed (line :: next :: rest) := by
  intro before other after shape kind
  cases before with
  | nil => exact ⟨next,rest,(List.cons.inj shape).2.symm,follows⟩
  | cons first before =>
    exact followed_cons (by rw [follows]; decide) followed before other after (List.cons.inj shape).2 kind

theorem reads_of_followed (body : List Text) (complete : ∀ line ∈ body, Complete line) (followed : Followed body) :
    Reads body := by
  induction size : body.length using Nat.strong_induction_on generalizing body with
  | _ n ih =>
    cases body with
    | nil => exact .nil
    | cons line rest =>
      have whole := complete line List.mem_cons_self
      by_cases kind : key line = .data
      · obtain ⟨next,more,rfl,other⟩ := followed [] line rest rfl kind
        have later := ih more.length (by simp at size; omega) more (fun other member => complete other (by simp [member]))
          (followed_tail (followed_tail followed)) rfl
        exact .data line next more whole kind other later
      · have later := ih rest.length (by simp at size; omega) rest (fun other member => complete other (by simp [member]))
          (followed_tail followed) rfl
        exact .line line rest whole kind later

/-- The bytes of the data lines of a frame, in the arithmetic of the program. -/
def Frame.dataLength (frame : Frame) : Int32 := (frame.payloads.map fun size : Nat => truncate size).foldl (· + ·) 0

def Frame.dataChunkCount (protocol : Text) (frame : Frame) : Int32 :=
  frame.payloads.foldl (fun count _ => if protocol = "sctp".toList then count + 1 else count) 0

/-- What a frame that counts adds to the totals. -/
def tally (parser : DataParser) (frame : Frame) : DataParser :=
  parser.update {
    epochTime := some frame.epoch
    frameLength := some frame.length
    dataLength := frame.dataLength
    dataChunkCount := frame.dataChunkCount parser.protocol}

section frame
variable {k : Nat} {frame : Frame} (printed : Printed k frame)
include printed

theorem protocols_line : ∃ line ∈ frame.body, key line = .protocols ∧ word line 3 = protocolsWord frame.tokens := by
  have shape := printed.protocols
  cases lines : frame.body.filter fun line => key line = .protocols with
  | nil => simp [lines] at shape
  | cons line more =>
    have member : line ∈ frame.body.filter fun line => key line = .protocols := by simp [lines]
    obtain ⟨inside,kind⟩ := List.mem_filter.mp member
    rw [lines,List.map_cons] at shape
    have same := (List.cons.inj shape).1
    exact ⟨line,inside,of_decide_eq_true kind,by simp [word,same]⟩

theorem protocols_word (line : Text) (inside : line ∈ frame.body) (kind : key line = .protocols) :
    word line 3 = protocolsWord frame.tokens := by
  have member : words line ∈ (frame.body.filter fun line => key line = .protocols).map words :=
    List.mem_map.mpr ⟨line,List.mem_filter.mpr ⟨inside,decide_eq_true kind⟩,rfl⟩
  rw [printed.protocols] at member
  simp [word,List.mem_singleton.mp member]

/-- The line loop gets to the end of exactly the frames that count. -/
theorem stops_iff (protocol : Text) : (∃ line ∈ frame.body, Stops protocol line) ↔ ¬frame.Carries protocol := by
  have scan := scan_tokens protocol frame.tokens printed.tokens.1 printed.tokens.2
  constructor
  · rintro ⟨line,inside,beats | acknowledges | ⟨kind,wrong⟩⟩ ⟨carried,quiet⟩
    · exact (quiet line inside).1 beats
    · exact (quiet line inside).2 acknowledges
    · rw [protocols_word printed line inside kind,scan] at wrong
      exact of_decide_eq_false wrong carried
  · intro skipped
    by_cases carried : protocol ∈ frame.tokens
    · by_contra! goes
      refine skipped ⟨carried,fun line inside => ⟨fun beats => goes line inside (Or.inl beats),fun acknowledges =>
        goes line inside (Or.inr (Or.inl acknowledges))⟩⟩
    · obtain ⟨line,inside,kind,last⟩ := protocols_line printed
      exact ⟨line,inside,Or.inr (Or.inr ⟨kind,by rw [last,scan]; exact decide_eq_false carried⟩)⟩

theorem payloads_printed : payloads frame.body = frame.payloads.map fun size : Nat => truncate size := by
  let read (fields : List Text) : Int32 := truncate (atof (((fields[1]?).getD []).filter (· ≠ '(')))
  have by_words : payloads frame.body =
      ((frame.body.filter fun line => key line = .data).map words).map read := by
    rw [List.map_map]
    rfl
  have plain (size : Nat) : ('(' :: Nat.toDigits 10 size).filter (· ≠ '(') = Nat.toDigits 10 size := by
    rw [List.filter_cons_of_neg (by simp)]
    refine List.filter_eq_self.mpr fun c member => decide_eq_true ?_
    rintro rfl
    exact absurd (toDigits_digit member) (by decide)
  rw [by_words,printed.payloads,List.map_map]
  refine List.map_congr_left fun size _ => ?_
  simp only [Function.comp_apply,read,List.getElem?_cons_succ,List.getElem?_cons_zero,Option.getD_some,plain,
    atof_toDigits]

theorem extract_frame (parser : DataParser) (rest : List Text) :
    (frame.Carries parser.protocol → dataExtractor parser (frame.body ++ [] :: rest) = (tally parser frame,rest)) ∧
      (¬frame.Carries parser.protocol → ∃ left, left <:+ frame.body ∧
        dataExtractor parser (frame.body ++ [] :: rest) = (parser,left ++ [] :: rest)) := by
  have reads := reads_of_followed frame.body printed.complete printed.followed
  have willing : Willing ({} : Locals) := ⟨rfl,rfl⟩
  constructor
  · intro carries
    have goes : ∀ line ∈ frame.body, ¬Stops parser.protocol line := fun line inside stops =>
      (stops_iff printed parser.protocol).mp ⟨line,inside,stops⟩ carries
    obtain ⟨final,read,absorbed⟩ := read_accepted rest reads willing goes
    have epoch : final.epochTime = some frame.epoch := by rw [absorbed.epochTime,printed.epoch.1]; rfl
    have length : final.frameLength = some frame.length := by rw [absorbed.frameLength,printed.length]; rfl
    have data : final.dataLength = frame.dataLength := by rw [absorbed.dataLength,payloads_printed printed]; rfl
    have chunks : final.dataChunkCount = frame.dataChunkCount parser.protocol := by
      rw [absorbed.dataChunkCount,payloads_printed printed,List.foldl_map]
      rfl
    rw [dataExtractor,read]
    simp only [tally,DataParser.update,epoch,length,data,chunks]
  · intro skipped
    obtain ⟨left,inside,read⟩ := read_rejected rest reads printed.complete willing
      ((stops_iff printed parser.protocol).mpr skipped) fun before line after shape stops =>
        printed.inner before line after shape (by
          rcases stops with beats | acknowledges | ⟨kind,_⟩
          · exact Or.inr (Or.inl beats)
          · exact Or.inr (Or.inr acknowledges)
          · exact Or.inl kind)
    exact ⟨left,inside,by rw [dataExtractor,read]⟩

end frame

def Stale (currentFrame : Int32) (arr : Words) : Prop := ¬(arr 0 = "Frame".toList ∧ arr 1 = frameWord currentFrame)

theorem frameWord_ofNat (k : Nat) (small : k < 2^31) : frameWord (Int32.ofNat k) = headerWord k := by
  rw [frameWord,Int32.toInt_ofNat_of_lt small,headerWord]

/-- A counter that has moved on looks for another header, also when it has wrapped. -/
theorem frameWord_next (k : Int32) : frameWord k ≠ frameWord (k+1) := by
  intro same
  have digits := congrArg atoi (List.append_cancel_right same)
  rw [atoi_decimal,atoi_decimal] at digits
  exact absurd digits (by simp)

/-- A complete line that is no header itself is no header behind any other lines. -/
theorem complete_stale {line : Text} (whole : Complete line)
    (unlike : ∀ (n : Int) (rest : List Text), words line ≠ "Frame".toList :: headerWord n :: rest) (current : Int32)
    (arr : Words) : Stale current (extract arr line) := by
  rintro ⟨first,second⟩
  obtain ⟨firstWord,others,shape,count⟩ := whole
  have first_word : extract arr line 0 = firstWord := by simp [extract,shape]
  rw [first_word] at first
  rw [first] at count shape
  cases others with
  | nil => exact absurd count (by decide)
  | cons secondWord others =>
    have second_word : extract arr line 1 = secondWord := by simp [extract,shape]
    rw [second_word] at second
    rw [second] at shape
    exact unlike current.toInt others shape

theorem packetLoop_skip (current : Int32) (parser : DataParser) (left rest : List Text)
    (complete : ∀ line ∈ left, Complete line)
    (unlike : ∀ line ∈ left, ∀ (n : Int) (rest : List Text), words line ≠ "Frame".toList :: headerWord n :: rest)
    (fuel : Nat) (arr : Words) (stale : Stale current arr) (enough : left.length + 1 + rest.length ≤ fuel) :
    ∃ fuel' arr', rest.length ≤ fuel' ∧ Stale current arr' ∧
      packetLoop fuel current arr parser (left ++ [] :: rest) = packetLoop fuel' current arr' parser rest := by
  induction left generalizing fuel arr with
  | nil =>
    obtain ⟨fuel,rfl⟩ := Nat.exists_eq_succ_of_ne_zero (by omega : fuel ≠ 0)
    have kept : extract arr [] = arr := rfl
    refine ⟨fuel,arr,by simp at enough; omega,stale,?_⟩
    rw [List.nil_append,packetLoop]
    simp only [kept]
    exact if_neg stale
  | cons line left ih =>
    obtain ⟨fuel,rfl⟩ := Nat.exists_eq_succ_of_ne_zero (by simp at enough; omega : fuel ≠ 0)
    have next := complete_stale (complete line List.mem_cons_self) (unlike line List.mem_cons_self) current arr
    obtain ⟨fuel',arr',enough',stale',skipped⟩ := ih (fun other member => complete other (by simp [member]))
      (fun other member => unlike other (by simp [member])) fuel (extract arr line) next (by simp at enough; omega)
    refine ⟨fuel',arr',enough',stale',?_⟩
    rw [List.cons_append,packetLoop]
    simp only
    rw [if_neg next,skipped]

/-- No frame is skipped, merged with another or counted twice. -/
theorem packetLoop_frames (frames : List Frame) (k : Nat) (printed : PrintedFrom k frames)
    (small : k + frames.length ≤ 2^31) (fuel : Nat) (arr : Words) (parser : DataParser)
    (enough : (transcript frames).length ≤ fuel) (stale : Stale (Int32.ofNat k) arr) :
    packetLoop fuel (Int32.ofNat k) arr parser (transcript frames) =
      (frames.filter fun frame => frame.Carries parser.protocol).foldl tally parser := by
  induction frames generalizing k fuel arr parser with
  | nil => cases fuel <;> rfl
  | cons frame frames ih =>
    obtain ⟨here,later⟩ := printed
    have lines : transcript (frame :: frames) = frame.header :: (frame.body ++ [] :: transcript frames) := by
      simp [transcript,Frame.lines]
    rw [lines,List.length_cons,List.length_append,List.length_cons] at enough
    rw [List.length_cons] at small
    obtain ⟨fuel,rfl⟩ := Nat.exists_eq_succ_of_ne_zero (by omega : fuel ≠ 0)
    obtain ⟨others,header⟩ := here.header
    have first : extract arr frame.header 0 = "Frame".toList := by simp [extract,header]
    have second : extract arr frame.header 1 = frameWord (Int32.ofNat k) := by
      rw [frameWord_ofNat k (by omega)]
      simp [extract,header]
    have counted : Int32.ofNat k + 1 = Int32.ofNat (k+1) := (Int32.ofNat_add k 1).symm
    rw [lines,packetLoop]
    simp only [first,second,and_self,if_true,counted]
    have next : Stale (Int32.ofNat (k+1)) (extract arr frame.header) := by
      rintro ⟨_,same⟩
      rw [second,← counted] at same
      exact frameWord_next _ same
    -- A frame that counts is read whole; any other leaves lines to the outer loop.
    by_cases carries : frame.Carries parser.protocol
    · rw [(extract_frame here parser _).1 carries,List.filter_cons_of_pos (by simpa using carries),List.foldl_cons]
      exact ih (k+1) later (by omega) fuel _ (tally parser frame) (by omega) next
    · obtain ⟨left,inside,extracted⟩ := (extract_frame here parser (transcript frames)).2 carries
      rw [extracted,List.filter_cons_of_neg (by simpa using carries)]
      obtain ⟨fuel',arr',enough',stale',skipped⟩ := packetLoop_skip _ parser left (transcript frames)
        (fun line member => here.complete line (inside.subset member))
        (fun line member => here.unlike line (inside.subset member)) fuel _ next
        (by have size := inside.length_le; omega)
      simp only
      rw [skipped]
      exact ih (k+1) later (by omega) fuel' arr' parser enough' stale'

/-- Reading a transcript comes down to the tally of the frames that count. -/
theorem packetExtractor_eq (parser : DataParser) (frames : List Frame) (printed : PrintedFrom 1 frames)
    (few : frames.length < 2^31) : parser.packetExtractor (transcript frames) =
      (frames.filter fun frame => frame.Carries parser.protocol).foldl tally parser := by
  have blank : Stale (Int32.ofNat 1) fun _ => [] := fun same => absurd same.1 (by decide)
  exact packetLoop_frames frames 1 printed (by omega) _ _ parser (le_refl _) blank

end ProtocolTests.TranscriptFrames
