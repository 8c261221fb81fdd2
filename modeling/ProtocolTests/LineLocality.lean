import ProtocolTests.PacketCalls
import Mathlib.Data.List.Infix

/-! What the words of earlier lines can do to a later one. Neither loop clears its word
array, so a line with fewer words than a key needs is read with theirs. -/
namespace ProtocolTests.LineLocality
open Library.CString ProtocolTests.Parser Transcript TranscriptFrames LineLoop PacketCalls

inductive Extracted
  | nothing
  | number (value : ℚ)
  | payload (value : Int32)
  | protocols (text : Text)
  deriving DecidableEq

/-- The number or the protocol list that the branch of the line takes from its words. -/
def extracted (arr : Words) : Extracted :=
  match classify arr with
  | .protocols => .protocols (arr 3)
  | .epochTime => .number (getEpochTime arr)
  | .frameLength => .number (getPacketLength arr)
  | .timeToLive => .number (getTTL arr)
  | .data => .payload (getPayload arr)
  | _ => .nothing

def keywords : Key → List Text
  | .heartbeat => ["HEARTBEAT".toList,"chunk".toList]
  | .heartbeatAck => ["HEARTBEAT_ACK".toList,"chunk".toList]
  | .protocols => ["[Protocols".toList,"in".toList,"frame:".toList]
  | .epochTime => ["Epoch".toList,"Time:".toList]
  | .frameLength => ["Frame".toList,"Length:".toList]
  | .source => ["Source:".toList]
  | .destination => ["Destination:".toList]
  | .timeToLive => ["Time".toList,"to".toList,"live:".toList]
  | .data => ["Data".toList]
  | .other => []

/-- The words behind which a key and what is extracted for it have been read. -/
def used : Key → Nat
  | .source => 1
  | .destination => 1
  | kind => length kind

/-- A line with no words, and one that breaks off inside a key or before its value, is not settled. -/
def Settled (fields : List Text) : Prop :=
  ∀ kind, kind ≠ .other → fields <+: keywords kind → used kind ≤ fields.length

/-- What a call reads when there are lines behind it. -/
inductive Consumes (protocol : Text) : List Text → Prop
  | blank {before : List Text} {last : Locals} (reached : Reaches protocol {} before last) :
      Consumes protocol (before ++ [[]])
  | early {before : List Text} {last : Locals} {line : Text} (reached : Reaches protocol {} before last)
      (nonempty : line ≠ []) (unwilling : ¬Willing last) : Consumes protocol (before ++ [line])

/-- The heads of the loop of `packetExtractor` behind the lines that have been read. -/
inductive Heads (protocol : Text) : List Text → Int32 → Words → Prop
  | start : Heads protocol [] 1 fun _ => []
  | line {before : List Text} {current : Int32} {arr : Words} {line : Text} (head : Heads protocol before current arr)
      (stale : Stale current (extract arr line)) : Heads protocol (before ++ [line]) current (extract arr line)
  | call {before : List Text} {current : Int32} {arr : Words} {line : Text} {read : List Text}
      (head : Heads protocol before current arr) (header : ¬Stale current (extract arr line))
      (consumes : Consumes protocol read) : Heads protocol (before ++ line :: read) (current+1) (extract arr line)

/-- In `dataExtractor` the histories do not matter to the line. The empty line ends a frame unread. -/
def LocalInside (protocol line : Text) : Prop :=
  ∀ (before before' : List Text) (locals locals' : Locals), Reaches protocol {} before locals → Willing locals →
    Reaches protocol {} before' locals' → Willing locals' → line ≠ [] →
    classify (extract locals.arr line) = classify (extract locals'.arr line) ∧
      extracted (extract locals.arr line) = extracted (extract locals'.arr line)

/-- In `packetExtractor` they do not matter to whether the line is the header of the expected frame. -/
def LocalOutside (protocol line : Text) : Prop :=
  ∀ (current : Int32) (before before' : List Text) (arr arr' : Words), Heads protocol before current arr →
    Heads protocol before' current arr' → (Stale current (extract arr line) ↔ Stale current (extract arr' line))

def Plain (arr : Words) : Prop := ∀ i, ' ' ∉ arr i

section words
variable {arr arr' : Words} {line : Text}

theorem extract_plain (plain : Plain arr) (line : Text) : Plain (extract arr line) := by
  intro i
  rw [extract]
  cases found : (words line)[i.val]? with
  | none => exact plain i
  | some word =>
    intro space
    have letters := words_letters line word (List.mem_of_getElem? found) ' ' space
    exact absurd letters (by decide)

theorem reaches_plain {protocol : Text} {before : List Text} {locals last : Locals}
    (reached : Reaches protocol locals before last) (plain : Plain locals.arr) : Plain last.arr := by
  induction reached with
  | nil => exact plain
  | line _ _ _ _ ih => exact ih (by rw [look_arr]; exact extract_plain plain _)
  | data _ _ _ _ ih => exact ih (by rw [look_arr]; exact extract_plain plain _)

theorem extract_ofFn (arr : Words) (line : Text) :
    (words line).take NUM_OF_WORDS <+: List.ofFn (extract arr line) := by
  rw [List.prefix_iff_eq_take]
  apply List.ext_getElem
  · simp
  · intro i left right
    rw [List.length_take] at left
    have inside : i < (words line).length := by omega
    simp only [List.getElem_take,List.getElem_ofFn,extract,List.getElem?_eq_getElem inside,Option.getD_some]

theorem keywords_classify (plain : Plain arr) {kind : Key} (other : kind ≠ .other) (here : classify arr = kind) :
    keywords kind <+: List.ofFn arr := by
  have one := joined_iff (arr 1) "in".toList (arr 2) "frame:".toList (plain 1) (by decide)
  have two := joined_iff (arr 1) "to".toList (arr 2) "live:".toList (plain 1) (by decide)
  have shape : List.ofFn arr = [arr 0,arr 1,arr 2,arr 3,arr 4] := by simp
  rw [shape]
  have spelled := classify_spelled arr (plain 0)
  rw [here] at spelled
  cases kind with
  | other => exact absurd rfl other
  | heartbeat | heartbeatAck | epochTime | frameLength =>
    rw [Spelled] at spelled
    rw [spelled.1,spelled.2]
    exact ⟨_,rfl⟩
  | protocols =>
    obtain ⟨second,third⟩ := one.mp spelled.2
    rw [spelled.1,second,third]
    exact ⟨_,rfl⟩
  | timeToLive =>
    obtain ⟨second,third⟩ := two.mp spelled.2
    rw [spelled.1,second,third]
    exact ⟨_,rfl⟩
  | source | destination | data =>
    rw [Spelled] at spelled
    rw [spelled]
    exact ⟨_,rfl⟩

theorem classify_keywords (plain : Plain arr) {kind : Key} (other : kind ≠ .other)
    (here : keywords kind <+: List.ofFn arr) : classify arr = kind := by
  have shape : List.ofFn arr = [arr 0,arr 1,arr 2,arr 3,arr 4] := by simp
  rw [shape] at here
  rw [classify_eq arr (plain 0)]
  cases kind with
  | other => exact absurd rfl other
  | heartbeat | heartbeatAck | epochTime | frameLength =>
    obtain ⟨first,second⟩ := List.cons_prefix_cons.mp here
    rw [← first,← (List.cons_prefix_cons.mp second).1]
    rfl
  | protocols | timeToLive =>
    obtain ⟨first,rest⟩ := List.cons_prefix_cons.mp here
    obtain ⟨second,third⟩ := List.cons_prefix_cons.mp rest
    rw [← first,← second,← (List.cons_prefix_cons.mp third).1]
    rfl
  | source | destination | data =>
    rw [← (List.cons_prefix_cons.mp here).1]
    rfl

theorem keywords_length (kind : Key) : (keywords kind).length ≤ 3 ∧ (keywords kind).length ≤ used kind ∧
    used kind ≤ (keywords kind).length + 1 := by
  cases kind <;> decide

theorem settled_own (plain : Plain arr) (settled : Settled (words line)) (other : classify (extract arr line) ≠ .other) :
    used (classify (extract arr line)) ≤ (words line).length ∧
      keywords (classify (extract arr line)) <+: words line := by
  have keyed := keywords_classify (extract_plain plain line) other rfl
  have own := extract_ofFn arr line
  generalize classify (extract arr line) = kind at keyed other
  obtain ⟨short,enough,close⟩ := keywords_length kind
  have five : NUM_OF_WORDS = 5 := rfl
  rcases List.prefix_or_prefix_of_prefix keyed own with inside | beyond
  · have here := inside.trans (List.take_prefix _ _)
    refine ⟨?_,here⟩
    by_cases whole : (words line).length ≤ (keywords kind).length
    · have same := here.eq_of_length_le whole
      exact settled kind other (same.symm ▸ List.prefix_refl _)
    · omega
  · have few := beyond.length_le
    rw [List.length_take] at few
    rw [List.take_of_length_le (by omega)] at beyond
    have full := settled kind other beyond
    have same := beyond.eq_of_length_le (enough.trans full)
    exact ⟨full,same ▸ List.prefix_refl _⟩

theorem extracted_agree (same : classify arr = classify arr')
    (agree : ∀ i : Fin NUM_OF_WORDS, i.val < used (classify arr) → arr i = arr' i) : extracted arr = extracted arr' := by
  unfold extracted
  rw [← same]
  cases kind : classify arr with
  | protocols => rw [agree 3 (by rw [kind]; decide)]
  | epochTime => rw [getEpochTime,getEpochTime,agree 2 (by rw [kind]; decide)]
  | frameLength => rw [getPacketLength,getPacketLength,agree 2 (by rw [kind]; decide)]
  | timeToLive => rw [getTTL,getTTL,agree 3 (by rw [kind]; decide)]
  | data => rw [getPayload,getPayload,agree 1 (by rw [kind]; decide)]
  | _ => rfl

theorem settled_agree (plain : Plain arr) (plain' : Plain arr') (settled : Settled (words line)) :
    classify (extract arr line) = classify (extract arr' line) ∧
      extracted (extract arr line) = extracted (extract arr' line) := by
  have onto (first second : Words) (a : Plain first) (b : Plain second)
      (other : classify (extract first line) ≠ .other) :
      classify (extract second line) = classify (extract first line) := by
    obtain ⟨enough,own⟩ := settled_own a settled other
    refine classify_keywords (extract_plain b line) other (List.IsPrefix.trans ?_ (extract_ofFn second line))
    have short := (keywords_length (classify (extract first line))).1
    rw [List.prefix_take_iff]
    exact ⟨own,short.trans (by decide)⟩
  by_cases other : classify (extract arr line) = .other
  · have other' : classify (extract arr' line) = .other := by
      by_contra keyed
      have back := onto arr' arr plain' plain keyed
      exact keyed (back.symm.trans other)
    simp [extracted,other,other']
  · have same := onto arr arr' plain plain' other
    refine ⟨same.symm,extracted_agree same.symm ?_⟩
    intro i inside
    have enough := lt_of_lt_of_le inside (settled_own plain settled other).1
    rw [extract_word _ _ _ enough,extract_word _ _ _ enough]

end words

section histories
variable {protocol : Text}

theorem blank_plain : Plain ({} : Locals).arr := by
  intro i
  simp

/-- A line without a key behind which the words that a broken line lacks are left. -/
def reminder : Key → Text
  | .protocols => "x in frame: y".toList
  | .epochTime => "x Time: 1".toList
  | .frameLength => "x Length: 1".toList
  | .timeToLive => "x to live: 1".toList
  | .data => "x 1".toList
  | _ => "x chunk".toList

def remembered (kind : Key) : Words := extract (fun _ => []) (reminder kind)

theorem reminder_reached (kind : Key) :
    Reaches protocol {} [reminder kind] (look protocol {} (reminder kind)) ∧
      Willing (look protocol {} (reminder kind)) := by
  have willing : Willing ({} : Locals) := ⟨rfl,rfl⟩
  have other : classify (extract ({} : Locals).arr (reminder kind)) = .other := by cases kind <;> decide
  have goes : ¬Halts protocol (extract ({} : Locals).arr (reminder kind)) := by simp [Halts,other]
  refine ⟨.line ?_ willing (by rw [other]; decide) (.nil _),(willing_look willing _).mpr goes⟩
  cases kind <;> decide

def placed (arr : Words) (fields : List Text) : Words := fun i => fields[i.val]?.getD (arr i)

theorem cut_differs (kind : Key) : ∀ fields ∈ (keywords kind).inits, fields ≠ [] →
    fields.length < (keywords kind).length →
    classify (placed (fun _ => []) fields) ≠ classify (placed (remembered kind) fields) := by
  cases kind <;> decide

theorem value_differs (kind : Key) (short : (keywords kind).length < used kind) :
    extracted (placed (fun _ => []) (keywords kind)) ≠ extracted (placed (remembered kind) (keywords kind)) := by
  have zero : atof [] = 0 := rfl
  have one : atof "1".toList = 1 := by exact_mod_cast atof_toDigits 1
  have numbers : Extracted.number (atof []) ≠ .number (atof "1".toList) := by
    rw [zero,one]
    decide
  have payloads : Extracted.payload (truncate (atof [])) ≠ .payload (truncate (atof "1".toList)) := by
    rw [zero,one]
    decide
  cases kind with
  | protocols => decide
  | epochTime => exact numbers
  | frameLength => exact numbers
  | timeToLive => exact numbers
  | data => exact payloads
  | _ => exact absurd short (by decide)

theorem broken_differs (kind : Key) (line : Text) (first : words line ≠ []) (inside : words line <+: keywords kind)
    (short : (words line).length < used kind) :
    ¬(classify (extract (fun _ => []) line) = classify (extract (remembered kind) line) ∧
      extracted (extract (fun _ => []) line) = extracted (extract (remembered kind) line)) := by
  rintro ⟨sameKey,sameValue⟩
  rcases Nat.lt_or_ge (words line).length (keywords kind).length with cut | whole
  · exact cut_differs kind (words line) ((List.mem_inits _ _).mpr inside) first cut sameKey
  · have own := inside.eq_of_length_le whole
    rw [own] at short
    apply value_differs kind short
    rw [← own]
    exact sameValue

def sourceLine : Text := "Source: x".toList

theorem inside_settled {line : Text} (insideLocal : LocalInside protocol line) (nonempty : line ≠ []) :
    Settled (words line) := by
  have willing : Willing ({} : Locals) := ⟨rfl,rfl⟩
  intro kind other inside
  by_contra short
  by_cases first : words line = []
  · -- A line of white space repeats the line before it.
    have fields (arr : Words) : extract arr line = arr := by
      funext i
      simp [extract,first]
    have source : classify (extract ({} : Locals).arr sourceLine) = .source := by decide
    have goes : ¬Halts protocol (extract ({} : Locals).arr sourceLine) := by simp [Halts,source]
    have same := (insideLocal [] _ {} _ (.nil _) willing (.line (by decide) willing (by simp [source]) (.nil _))
      ((willing_look willing _).mpr goes) nonempty).1
    rw [fields,fields,look_arr] at same
    exact absurd same (by decide)
  · obtain ⟨reached,still⟩ := @reminder_reached protocol kind
    have same := insideLocal [] _ {} _ (.nil _) willing reached still nonempty
    rw [look_arr] at same
    exact broken_differs kind line first inside (by omega) same

theorem heads_stale {before : List Text} {current : Int32} {arr : Words} (head : Heads protocol before current arr) :
    Stale current arr := by
  cases head with
  | start => exact fun same => absurd same.1 (by decide)
  | line _ stale => exact stale
  | @call _ current _ _ _ _ header _ =>
    rintro ⟨_,next⟩
    exact frameWord_next current ((not_not.mp header).2.symm.trans next)

/-- The outer loop never waits for a header that it has just read, so a line without words
does not matter to it; a line with a word of its own that is not half a header does not either. -/
theorem outside_settled {line : Text} (settled : line = [] ∨ Settled (words line)) : LocalOutside protocol line := by
  intro current before before' arr arr' head head'
  rcases settled with rfl | settled
  · exact iff_of_true (heads_stale head) (heads_stale head')
  · cases own : words line with
    | nil =>
      have short := settled .source (by decide) (by rw [own]; exact List.nil_prefix)
      rw [own] at short
      exact absurd short (by decide)
    | cons first rest =>
      have firstWord (arr : Words) : extract arr line 0 = first := by simp [extract,own]
      cases rest with
      | nil =>
        have other : first ≠ "Frame".toList := by
          rintro rfl
          have short := settled .frameLength (by decide) (by rw [own]; exact ⟨_,rfl⟩)
          rw [own] at short
          exact absurd short (by decide)
        simp only [Stale,firstWord,other,false_and]
      | cons second rest =>
        have secondWord (arr : Words) : extract arr line 1 = second := by simp [extract,own]
        simp only [Stale,firstWord,secondWord]

theorem consumes_rest {read : List Text} (consumes : Consumes protocol read) (rest : List Text) :
    (readFrame protocol {} (read ++ rest)).2 = rest := by
  cases consumes with
  | @blank before last reached =>
    rw [List.append_assoc,readFrame_reaches reached,List.singleton_append,readFrame,if_pos rfl]
  | early reached nonempty unwilling =>
    rw [List.append_assoc,readFrame_reaches reached]
    exact congrArg Prod.snd (readFrame_unwilling nonempty unwilling rest)

/-- The histories are those of the program: behind such lines the outer loop stands where they say. -/
theorem packetCalls_heads {before : List Text} {current : Int32} {arr : Words} (head : Heads protocol before current arr)
    (rest : List Text) : ∃ made fuel, rest.length ≤ fuel ∧
      calls protocol (before ++ rest) = made ++ packetCalls protocol fuel current arr rest := by
  induction head generalizing rest with
  | start => exact ⟨[],rest.length,le_refl _,rfl⟩
  | @line before current arr line _ stale ih =>
    obtain ⟨made,fuel,enough,reached⟩ := ih (line :: rest)
    obtain ⟨fuel,rfl⟩ := Nat.exists_eq_succ_of_ne_zero (by simp at enough; omega : fuel ≠ 0)
    refine ⟨made,fuel,Nat.le_of_succ_le_succ enough,?_⟩
    rw [List.append_assoc,List.singleton_append,reached,packetCalls,if_neg stale]
  | @call before current arr line read _ header consumes ih =>
    obtain ⟨made,fuel,enough,reached⟩ := ih (line :: (read ++ rest))
    rw [List.length_cons,List.length_append] at enough
    obtain ⟨fuel,rfl⟩ := Nat.exists_eq_succ_of_ne_zero (by omega : fuel ≠ 0)
    refine ⟨made ++ [⟨current,read ++ rest⟩],fuel,by omega,?_⟩
    rw [List.append_assoc,List.cons_append,reached,packetCalls,if_pos (not_not.mp header),consumes_rest consumes,
      List.append_assoc,List.singleton_append]

/-- Lines are read by their own words alone exactly if they are empty or settled. -/
theorem locality_iff (protocol line : Text) :
    LocalInside protocol line ∧ LocalOutside protocol line ↔ line = [] ∨ Settled (words line) := by
  constructor
  · rintro ⟨insideLocal,_⟩
    by_cases empty : line = []
    · exact Or.inl empty
    · exact Or.inr (inside_settled insideLocal empty)
  · intro settled
    refine ⟨?_,outside_settled settled⟩
    intro before before' locals locals' reached _ reached' _ nonempty
    rcases settled with empty | settled
    · exact absurd empty nonempty
    · exact settled_agree (reaches_plain reached blank_plain) (reaches_plain reached' blank_plain) settled

end histories

def sizeLine : Text := "Data (5 bytes)".toList

def octetsLine : Text := "Data: 6162636465".toList

/-- A line of white space behind a line of data counts its bytes again, and a line that
breaks off takes the words of the line before it. -/
theorem locality_fails : ¬LocalInside "tcp".toList "  ".toList ∧ ¬LocalInside "tcp".toList "Epoch Time:".toList ∧
    ¬LocalOutside "tcp".toList "Frame".toList := by
  have willing : Willing ({} : Locals) := ⟨rfl,rfl⟩
  refine ⟨?_,?_,?_⟩
  · intro insideLocal
    have kind : classify (extract ({} : Locals).arr sizeLine) = .data := by decide
    have reached : Reaches "tcp".toList {} [sizeLine,octetsLine] (look "tcp".toList {} sizeLine) :=
      .data (by decide) willing kind (.nil _)
    have still := (@willing_look "tcp".toList {} willing sizeLine).mpr fun halts => halts_single halts kind
    have same := (insideLocal [] _ {} _ (.nil _) willing reached still (by decide)).1
    rw [look_arr] at same
    exact absurd same (by decide)
  · intro insideLocal
    obtain ⟨reached,still⟩ := @reminder_reached "tcp".toList .epochTime
    have same := (insideLocal [] _ {} _ (.nil _) willing reached still (by decide)).2
    rw [look_arr] at same
    exact value_differs .epochTime (by decide) same
  · intro outsideLocal
    have stale : Stale 1 (extract (fun _ => []) "x 1:".toList) := fun header => absurd header.1 (by decide)
    have blank : Stale 1 (extract (fun _ => []) "Frame".toList) := fun header => absurd header.2 (by decide)
    have same := (outsideLocal 1 _ _ _ _ .start (.line .start stale)).mp blank
    exact same ⟨by decide,by decide⟩

end ProtocolTests.LineLocality
