import ProtocolTests.FrameFilter
import ProtocolTests.LineLocality
import Mathlib.Data.List.Forall2

/-! Frames that the parser reads as they stand: what it adds to the totals is then what the
lines of each frame say by themselves. -/
namespace ProtocolTests.FrameReadings
open Library.CString ProtocolTests.Parser Transcript TranscriptFrames LineLoop LineLocality PacketCalls FrameIsolation
  FrameFilter

/-- A line with nothing for the totals. -/
def Silent (line : Text) : Prop := key line ∈ [Key.source,.destination,.timeToLive,.other]

/-- Every line is decided by its own words, or stands behind a line of data and is silent. The empty line
that tshark prints behind a line of data is one of the silent ones. -/
inductive Legible : List Text → Prop
  | nil : Legible []
  | line (line : Text) (rest : List Text) (settled : Settled (words line)) (single : key line ≠ .data)
      (later : Legible rest) : Legible (line :: rest)
  | data (line next : Text) (rest : List Text) (settled : Settled (words line)) (kind : key line = .data)
      (silent : Silent next) (later : Legible rest) : Legible (line :: next :: rest)

def HeadedFrom : Nat → List Block → Prop
  | _, [] => True
  | k, block :: blocks => Headed k block ∧ HeadedFrom (k+1) blocks

/-- What it takes for the frames to be read one by one and as they stand. -/
structure AsPrinted (protocol : Text) (blocks : List Block) : Prop where
  few : blocks.length < 2^31
  legible : ∀ block ∈ blocks, Legible block.body
  inner : ∀ block ∈ blocks, ∀ before line, block.body = before ++ [line] → ¬Stops protocol line
  apart : IsolatedFrom protocol 1 blocks

instance (line : Text) : Decidable (Silent line) := inferInstanceAs (Decidable (_ ∈ _))

instance (protocol line : Text) : Decidable (Stops protocol line) := inferInstanceAs (Decidable (_ ∨ _))

/-- The frames that are to be counted, by their own lines. -/
def counting (protocol : Text) (blocks : List Block) : List Block :=
  blocks.filter fun block => ∀ line ∈ block.body, ¬Stops protocol line

def stamp (block : Block) : Double := (epochs block.body).getLast?

def frameLength (block : Block) : Double := (lengths block.body).getLast?

def dataSizes (block : Block) : List ℚ :=
  (block.body.filter fun line => key line = .data).map fun line => atof ((word line 1).filter (· ≠ '('))

/-- The sizes of the data are whole numbers, and an `int` holds those of a frame. -/
def Counted (block : Block) : Prop :=
  ∃ sizes : List Nat, dataSizes block = sizes.map (fun size : Nat => (size : ℚ)) ∧ sizes.sum < 2^31

section line
variable {protocol line : Text} {locals last : Locals}

theorem silent_goes (silent : Silent line) : ¬Stops protocol line := by
  rw [Silent] at silent
  generalize kind : key line = found at silent
  simp only [Stops,kind]
  rintro (rfl | rfl | ⟨rfl,_⟩) <;> simp at silent

theorem silent_absorbed {body : List Text} (silent : Silent line) (absorbed : Absorbed protocol body locals last) :
    Absorbed protocol (line :: body) locals last := by
  rw [Silent] at silent
  have unlike {kind : Key} (other : kind ∉ [Key.source,.destination,.timeToLive,.other]) : key line ≠ kind := by
    rintro rfl
    exact other silent
  have epoch : epochs (line :: body) = epochs body := by simp [epochs,@unlike .epochTime (by decide)]
  have length : lengths (line :: body) = lengths body := by simp [lengths,@unlike .frameLength (by decide)]
  have data : payloads (line :: body) = payloads body := by simp [payloads,@unlike .data (by decide)]
  obtain ⟨first,second,third,fourth⟩ := absorbed
  exact ⟨by rw [epoch]; exact first,by rw [length]; exact second,by rw [data]; exact third,by rw [data]; exact fourth⟩

theorem settled_nonempty (settled : Settled (words line)) : line ≠ [] := by
  rintro rfl
  exact absurd (settled .source (by decide) List.nil_prefix) (by decide)

theorem settled_takes (settled : Settled (words line)) (plain : Plain locals.arr) :
    Takes protocol line locals (look protocol locals line) := by
  obtain ⟨same,values⟩ := @settled_agree locals.arr (fun _ => []) line plain blank_plain settled
  have own : classify (extract (fun _ => []) line) = key line := rfl
  rw [own] at same
  rw [extracted,extracted,same,own] at values
  unfold look record
  simp only [same]
  cases kind : key line with
  | protocols =>
    rw [kind] at values
    have fourth : extract locals.arr line 3 = word line 3 := Extracted.protocols.inj values
    constructor <;> simp [kind,getPacketProtocol,fourth]
  | epochTime =>
    rw [kind] at values
    have third : getEpochTime (extract locals.arr line) = atof (word line 2) := Extracted.number.inj values
    constructor <;> simp [kind,third]
  | frameLength =>
    rw [kind] at values
    have third : getPacketLength (extract locals.arr line) = atof (word line 2) := Extracted.number.inj values
    constructor <;> simp [kind,third]
  | data =>
    rw [kind] at values
    have second : getPayload (extract locals.arr line) = payload line := Extracted.payload.inj values
    constructor <;> simp [kind,second]
  | _ => constructor <;> simp [kind]

theorem settled_kind (settled : Settled (words line)) (plain : Plain locals.arr) :
    classify (extract locals.arr line) = key line :=
  (@settled_agree locals.arr (fun _ => []) line plain blank_plain settled).1

theorem settled_halts (settled : Settled (words line)) (plain : Plain locals.arr) (willing : Willing locals) :
    Halts protocol (extract locals.arr line) ↔ Stops protocol line := by
  have goes := (@willing_look protocol locals willing line).symm.trans (willing_iff (settled_takes settled plain) willing)
  exact not_iff_not.mp goes

theorem look_plain (plain : Plain locals.arr) : Plain (look protocol locals line).arr := by
  rw [look_arr]
  exact extract_plain plain line

end line

section body
variable {protocol : Text} {body : List Text} {locals : Locals} (legible : Legible body)
include legible

theorem legible_read (plain : Plain locals.arr) (willing : Willing locals) (goes : ∀ line ∈ body, ¬Stops protocol line) :
    ∃ last, Reaches protocol locals body last ∧ Absorbed protocol body locals last := by
  induction legible generalizing locals with
  | nil => exact ⟨locals,.nil locals,rfl,rfl,rfl,rfl⟩
  | line line rest settled single later ih =>
    have takes := @settled_takes protocol line locals settled plain
    have still := (willing_iff takes willing).mpr (goes line List.mem_cons_self)
    obtain ⟨last,reached,absorbed⟩ := ih (look_plain plain) still fun other member => goes other (List.mem_cons_of_mem _ member)
    exact ⟨last,.line (settled_nonempty settled) willing (by rwa [settled_kind settled plain]) reached,absorbed_cons takes absorbed⟩
  | data line next rest settled kind silent later ih =>
    have takes := @settled_takes protocol line locals settled plain
    have still := (willing_iff takes willing).mpr (goes line List.mem_cons_self)
    obtain ⟨last,reached,absorbed⟩ := ih (look_plain plain) still fun other member =>
      goes other (List.mem_cons_of_mem _ (List.mem_cons_of_mem _ member))
    exact ⟨last,.data (settled_nonempty settled) willing (by rwa [settled_kind settled plain]) reached,
      absorbed_cons takes (silent_absorbed silent absorbed)⟩

theorem legible_abandons (plain : Plain locals.arr) (willing : Willing locals) (stops : ∃ line ∈ body, Stops protocol line)
    (inner : ∀ before line, body = before ++ [line] → ¬Stops protocol line) :
    ∃ before line next left at_line, body = before ++ line :: next :: left ∧ Reaches protocol locals before at_line ∧
      Willing at_line ∧ Halts protocol (extract at_line.arr line) := by
  induction legible generalizing locals with
  | nil =>
    obtain ⟨line,member,_⟩ := stops
    cases member
  | line line rest settled single later ih =>
    by_cases here : Stops protocol line
    · cases rest with
      | nil => exact absurd here (inner [] line rfl)
      | cons next left =>
        exact ⟨[],line,next,left,locals,rfl,.nil locals,willing,(settled_halts settled plain willing).mpr here⟩
    · have takes := @settled_takes protocol line locals settled plain
      have further : ∃ other ∈ rest, Stops protocol other := by
        obtain ⟨other,member,stop⟩ := stops
        rcases List.mem_cons.mp member with rfl | member
        · exact absurd stop here
        · exact ⟨other,member,stop⟩
      obtain ⟨before,other,next,left,at_line,shape,reached,still,halts⟩ := ih (look_plain plain)
        ((willing_iff takes willing).mpr here) further fun before other shape => inner (line :: before) other (by rw [shape]; rfl)
      exact ⟨line :: before,other,next,left,at_line,by rw [shape]; rfl,
        .line (settled_nonempty settled) willing (by rwa [settled_kind settled plain]) reached,still,halts⟩
  | data line next rest settled kind silent later ih =>
    have here : ¬Stops protocol line := by simp [Stops,kind]
    have takes := @settled_takes protocol line locals settled plain
    have further : ∃ other ∈ rest, Stops protocol other := by
      obtain ⟨other,member,stop⟩ := stops
      rcases List.mem_cons.mp member with rfl | member
      · exact absurd stop here
      · rcases List.mem_cons.mp member with rfl | member
        · exact absurd stop (silent_goes silent)
        · exact ⟨other,member,stop⟩
    obtain ⟨before,other,following,left,at_line,shape,reached,still,halts⟩ := ih (look_plain plain)
      ((willing_iff takes willing).mpr here) further
      fun before other shape => inner (line :: next :: before) other (by rw [shape]; rfl)
    exact ⟨line :: next :: before,other,following,left,at_line,by rw [shape]; rfl,
      .data (settled_nonempty settled) willing (by rwa [settled_kind settled plain]) reached,still,halts⟩

/-- The loop sees no empty line in such a body. -/
theorem legible_visible (plain : Plain locals.arr) (before rest : List Text) (last : Locals)
    (shape : body = before ++ [] :: rest) : ¬Reaches protocol locals before last := by
  induction legible generalizing locals before with
  | nil => simp at shape
  | line line more settled single later ih =>
    intro reached
    cases reached with
    | nil => exact settled_nonempty settled (List.cons.inj shape).1
    | line _ _ _ further =>
      simp only [List.cons_append,List.cons.injEq] at shape
      exact ih (look_plain plain) _ shape.2 further
    | data _ _ kind _ =>
      simp only [List.cons_append,List.cons.injEq] at shape
      rw [← shape.1,settled_kind settled plain] at kind
      exact single kind
  | data line next more settled kind silent later ih =>
    intro reached
    cases reached with
    | nil => exact settled_nonempty settled (List.cons.inj shape).1
    | line _ _ single _ =>
      simp only [List.cons_append,List.cons.injEq] at shape
      rw [← shape.1,settled_kind settled plain] at single
      exact single kind
    | data _ _ _ further =>
      simp only [List.cons_append,List.cons.injEq] at shape
      exact ih (look_plain plain) _ shape.2.2 further

end body

section file
variable {protocol : Text} {closed : Bool}

theorem legible_unbroken {body : List Text} (legible : Legible body) : Unbroken protocol body :=
  fun before rest last shape => legible_visible legible blank_plain before rest last shape

theorem legible_counts {block : Block} (legible : Legible block.body) (goes : ∀ line ∈ block.body, ¬Stops protocol line)
    (blocks : List Block) : ∃ last, (readFrame protocol {} (fileLines closed (block :: blocks)).tail).1 = some last ∧
      Absorbed protocol block.body {} last := by
  obtain ⟨last,reached,absorbed⟩ := legible_read legible blank_plain ⟨rfl,rfl⟩ goes
  exact ⟨last,by rw [frame_reaches reached],absorbed⟩

theorem legible_drops {block : Block} (legible : Legible block.body) (stops : ∃ line ∈ block.body, Stops protocol line)
    (inner : ∀ before line, block.body = before ++ [line] → ¬Stops protocol line) (blocks : List Block) :
    (readFrame protocol {} (fileLines closed (block :: blocks)).tail).1 = none := by
  obtain ⟨before,line,next,left,locals,shape,reached,willing,halts⟩ :=
    legible_abandons legible blank_plain ⟨rfl,rfl⟩ stops inner
  exact abandons_none (legible_unbroken legible) ⟨left,before,line,next,locals,shape,reached,willing,halts⟩ _

theorem behind_counting (blocks : List Block) (legible : ∀ block ∈ blocks, Legible block.body)
    (inner : ∀ block ∈ blocks, ∀ before line, block.body = before ++ [line] → ¬Stops protocol line) :
    List.Forall₂ (fun block last => Absorbed protocol block.body {} last) (counting protocol blocks)
      ((behind closed blocks).filterMap fun lines => (readFrame protocol {} lines).1) := by
  induction blocks with
  | nil => exact .nil
  | cons block blocks ih =>
    have later := ih (fun other member => legible other (List.mem_cons_of_mem _ member))
      fun other member => inner other (List.mem_cons_of_mem _ member)
    have here := legible block List.mem_cons_self
    rw [behind,List.filterMap_cons,counting,List.filter_cons]
    by_cases goes : ∀ line ∈ block.body, ¬Stops protocol line
    · obtain ⟨last,read,absorbed⟩ := @legible_counts protocol closed block here goes blocks
      rw [read,if_pos (decide_eq_true goes)]
      exact .cons absorbed later
    · have stops : ∃ line ∈ block.body, Stops protocol line := by simpa using goes
      rw [legible_drops here stops (inner block List.mem_cons_self) blocks,if_neg (by simpa using goes)]
      exact later

theorem headed_framed (blocks : List Block) (k : Nat) (headed : HeadedFrom k blocks)
    (legible : ∀ block ∈ blocks, Legible block.body) : FramedFrom protocol k blocks := by
  induction blocks generalizing k with
  | nil => trivial
  | cons block blocks ih =>
    exact ⟨⟨headed.1,legible_unbroken (legible block List.mem_cons_self)⟩,
      ih (k+1) headed.2 fun other member => legible other (List.mem_cons_of_mem _ member)⟩

/-- The parser accepts the frames that are to be counted, each with what its own lines say. -/
theorem accepted_counting {blocks : List Block} (headed : HeadedFrom 1 blocks) (printed : AsPrinted protocol blocks) :
    List.Forall₂ (fun block last => Absorbed protocol block.body {} last) (counting protocol blocks)
      (accepted protocol (fileLines closed blocks)) := by
  have framed := @headed_framed protocol blocks 1 headed printed.legible
  have few := printed.few
  have made := @file_calls protocol closed blocks 1 framed printed.apart (fun _ => by omega) _ (fun _ => []) (le_refl _)
  have own := @behind_counting protocol closed blocks printed.legible printed.inner
  rw [← made,List.filterMap_map] at own
  exact own

theorem accepted_map {β : Type} {blocks : List Block} (headed : HeadedFrom 1 blocks) (printed : AsPrinted protocol blocks)
    (read : Locals → β) (own : Block → β)
    (agree : ∀ block ∈ counting protocol blocks, ∀ last, Absorbed protocol block.body {} last → read last = own block) :
    (accepted protocol (fileLines closed blocks)).map read = (counting protocol blocks).map own := by
  have pairs := (List.forall₂_and_left _ _).mpr
    ⟨fun block member => member,@accepted_counting protocol closed blocks headed printed⟩
  rw [← List.forall₂_eq_eq_eq,List.forall₂_map_left_iff,List.forall₂_map_right_iff]
  exact pairs.flip.imp fun last block ⟨member,absorbed⟩ => agree block member last absorbed

/-- A capture of frames of the protocol only. -/
theorem isolated_counting (blocks : List Block) (k : Nat) (legible : ∀ block ∈ blocks, Legible block.body)
    (goes : ∀ block ∈ blocks, ∀ line ∈ block.body, ¬Stops protocol line) : IsolatedFrom protocol k blocks := by
  induction blocks generalizing k with
  | nil => trivial
  | cons block blocks ih =>
    have unbroken := @legible_unbroken protocol block.body (legible block List.mem_cons_self)
    obtain ⟨last,reached,_⟩ := @legible_read protocol block.body {} (legible block List.mem_cons_self) blank_plain ⟨rfl,rfl⟩
      (goes block List.mem_cons_self)
    refine ⟨fun _ swallows => ?_,fun left abandons => ?_,ih (k+1) (fun other member =>
      legible other (List.mem_cons_of_mem _ member)) fun other member => goes other (List.mem_cons_of_mem _ member)⟩
    · obtain ⟨locals,past⟩ := swallows_past unbroken swallows [[],[]]
      rw [reads_whole reached,readFrame,if_pos rfl] at past
      cases past
    · have returned := abandons_left unbroken abandons [[]]
      rw [reads_whole reached] at returned
      cases returned

theorem counting_printed {blocks : List Block} (few : blocks.length < 2^31)
    (legible : ∀ block ∈ blocks, Legible block.body) (all : counting protocol blocks = blocks) :
    AsPrinted protocol blocks := by
  have goes (block : Block) (member : block ∈ blocks) : ∀ line ∈ block.body, ¬Stops protocol line :=
    of_decide_eq_true (List.filter_eq_self.mp all block member)
  refine ⟨few,legible,fun block member before line shape => ?_,isolated_counting blocks 1 legible goes⟩
  exact goes block member line (by simp [shape])

end file

end ProtocolTests.FrameReadings
