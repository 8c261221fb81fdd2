import ProtocolTests.Transcript

/-! The line loop of `dataExtractor` on lines of any kind, with the words that earlier
lines have left behind. A history is the list of the lines that the loop has read. -/
namespace ProtocolTests.LineLoop
open Library.CString ProtocolTests.Parser Transcript

/-- The local variables behind a line that the loop looks at. -/
def look (protocol : Text) (locals : Locals) (line : Text) : Locals :=
  record protocol {locals with arr := extract locals.arr line}

/-- Words that make the loop return, though only when it has read one more line. -/
def Halts (protocol : Text) (arr : Words) : Prop :=
  classify arr = .heartbeat ∨ classify arr = .heartbeatAck ∨
    classify arr = .protocols ∧ getPacketProtocol protocol arr = false

instance (protocol : Text) (arr : Words) : Decidable (Halts protocol arr) :=
  inferInstanceAs (Decidable (_ ∨ _))

instance (locals : Locals) : Decidable (Willing locals) := inferInstanceAs (Decidable (_ ∧ _))

/-- From the head of the loop to its head again, with the lines read in between. -/
inductive Reaches (protocol : Text) : Locals → List Text → Locals → Prop
  | nil (locals : Locals) : Reaches protocol locals [] locals
  | line {locals last : Locals} {line : Text} {rest : List Text} (nonempty : line ≠ []) (willing : Willing locals)
      (single : classify (extract locals.arr line) ≠ .data)
      (later : Reaches protocol (look protocol locals line) rest last) : Reaches protocol locals (line :: rest) last
  | data {locals last : Locals} {line next : Text} {rest : List Text} (nonempty : line ≠ [])
      (willing : Willing locals) (kind : classify (extract locals.arr line) = .data)
      (later : Reaches protocol (look protocol locals line) rest last) :
      Reaches protocol locals (line :: next :: rest) last

/-- The four ways in which the loop ends, with its result. -/
inductive Ending (protocol : Text) (locals : Locals) : List Text → Option Locals × List Text → Prop
  | file {before : List Text} {last : Locals} (reached : Reaches protocol locals before last) :
      Ending protocol locals before (some last,[])
  | blank {before : List Text} {last : Locals} (rest : List Text) (reached : Reaches protocol locals before last) :
      Ending protocol locals (before ++ [] :: rest) (some last,rest)
  | early {before : List Text} {last : Locals} {line : Text} (rest : List Text)
      (reached : Reaches protocol locals before last) (nonempty : line ≠ []) (unwilling : ¬Willing last) :
      Ending protocol locals (before ++ line :: rest) (none,rest)
  | cut {before : List Text} {last : Locals} {line : Text} (reached : Reaches protocol locals before last)
      (nonempty : line ≠ []) (willing : Willing last) (kind : classify (extract last.arr line) = .data) :
      Ending protocol locals (before ++ [line]) (some (look protocol last line),[])

section loop
variable {protocol line : Text} {locals last : Locals} {before rest : List Text}

@[simp] theorem look_arr (protocol : Text) (locals : Locals) (line : Text) :
    (look protocol locals line).arr = extract locals.arr line := record_arr _ _

theorem readFrame_look (nonempty : line ≠ []) (willing : Willing locals)
    (single : classify (extract locals.arr line) ≠ .data) (rest : List Text) :
    readFrame protocol locals (line :: rest) = readFrame protocol (look protocol locals line) rest := by
  rw [readFrame,if_neg nonempty,if_neg (by simp [willing.1]),if_neg (by simp [willing.2])]
  simp only [record_arr,single,if_false]
  rfl

theorem readFrame_pair (nonempty : line ≠ []) (willing : Willing locals)
    (kind : classify (extract locals.arr line) = .data) (next : Text) (rest : List Text) :
    readFrame protocol locals (line :: next :: rest) = readFrame protocol (look protocol locals line) rest := by
  rw [readFrame,if_neg nonempty,if_neg (by simp [willing.1]),if_neg (by simp [willing.2])]
  simp only [record_arr,kind,if_true]
  rfl

theorem readFrame_last (nonempty : line ≠ []) (willing : Willing locals)
    (kind : classify (extract locals.arr line) = .data) :
    readFrame protocol locals [line] = (some (look protocol locals line),[]) := by
  rw [readFrame,if_neg nonempty,if_neg (by simp [willing.1]),if_neg (by simp [willing.2])]
  simp only [record_arr,kind,if_true]
  rfl

theorem readFrame_reaches (reached : Reaches protocol locals before last) (rest : List Text) :
    readFrame protocol locals (before ++ rest) = readFrame protocol last rest := by
  induction reached with
  | nil => rfl
  | line nonempty willing single _ ih => rw [List.cons_append,readFrame_look nonempty willing single,ih]
  | data nonempty willing kind _ ih =>
    rw [List.cons_append,List.cons_append,readFrame_pair nonempty willing kind,ih]

theorem reaches_append {after : List Text} {final : Locals} (reached : Reaches protocol locals before last)
    (later : Reaches protocol last after final) : Reaches protocol locals (before ++ after) final := by
  induction reached with
  | nil => exact later
  | line nonempty willing single _ ih => exact .line nonempty willing single (ih later)
  | data nonempty willing kind _ ih => exact .data nonempty willing kind (ih later)

theorem Ending.cons (nonempty : line ≠ []) (willing : Willing locals)
    (single : classify (extract locals.arr line) ≠ .data) {result : Option Locals × List Text}
    (ending : Ending protocol (look protocol locals line) rest result) : Ending protocol locals (line :: rest) result := by
  cases ending with
  | file reached => exact .file (.line nonempty willing single reached)
  | blank rest reached => exact .blank rest (.line nonempty willing single reached)
  | early rest reached next unwilling => exact .early rest (.line nonempty willing single reached) next unwilling
  | cut reached next still kind => exact .cut (.line nonempty willing single reached) next still kind

theorem Ending.pair (nonempty : line ≠ []) (willing : Willing locals)
    (kind : classify (extract locals.arr line) = .data) (next : Text) {result : Option Locals × List Text}
    (ending : Ending protocol (look protocol locals line) rest result) :
    Ending protocol locals (line :: next :: rest) result := by
  cases ending with
  | file reached => exact .file (.data nonempty willing kind reached)
  | blank rest reached => exact .blank rest (.data nonempty willing kind reached)
  | early rest reached other unwilling => exact .early rest (.data nonempty willing kind reached) other unwilling
  | cut reached other still again => exact .cut (.data nonempty willing kind reached) other still again

theorem readFrame_ending (protocol : Text) (locals : Locals) (lines : List Text) :
    Ending protocol locals lines (readFrame protocol locals lines) := by
  induction size : lines.length using Nat.strong_induction_on generalizing locals lines with
  | _ n ih =>
    cases lines with
    | nil => exact .file (.nil locals)
    | cons line rest =>
      by_cases blank : line = []
      · rw [blank,readFrame,if_pos rfl]
        exact .blank rest (.nil locals)
      · by_cases willing : Willing locals
        · by_cases kind : classify (extract locals.arr line) = .data
          · cases rest with
            | nil =>
              rw [readFrame_last blank willing kind]
              exact .cut (.nil locals) blank willing kind
            | cons next rest =>
              rw [readFrame_pair blank willing kind]
              exact .pair blank willing kind next (ih rest.length (by simp at size; omega) _ rest rfl)
          · rw [readFrame_look blank willing kind]
            exact .cons blank willing kind (ih rest.length (by simp at size; omega) _ rest rfl)
        · rw [readFrame_unwilling blank willing]
          exact .early rest (.nil locals) blank willing

theorem willing_look (willing : Willing locals) (line : Text) :
    Willing (look protocol locals line) ↔ ¬Halts protocol (extract locals.arr line) := by
  obtain ⟨correct,quiet⟩ := willing
  unfold look record Halts Willing
  cases classify (extract locals.arr line) <;> simp [correct,quiet]

theorem halts_single {arr : Words} (halts : Halts protocol arr) : classify arr ≠ .data := by
  rcases halts with beats | acknowledges | ⟨kind,_⟩ <;> simp [*]

theorem reaches_unwilling (reached : Reaches protocol locals before last) (willing : Willing locals)
    (unwilling : ¬Willing last) : ∃ (earlier : List Text) (line : Text) (at_line : Locals),
      before = earlier ++ [line] ∧ Reaches protocol locals earlier at_line ∧ Willing at_line ∧ line ≠ [] ∧
      Halts protocol (extract at_line.arr line) := by
  induction reached with
  | nil => exact absurd willing unwilling
  | @line locals last line rest nonempty here single later ih =>
    by_cases halts : Halts protocol (extract locals.arr line)
    · cases later with
      | nil => exact ⟨[],line,locals,rfl,.nil locals,here,nonempty,halts⟩
      | line _ next _ _ => exact absurd halts ((willing_look here line).mp next)
      | data _ next _ _ => exact absurd halts ((willing_look here line).mp next)
    · obtain ⟨earlier,other,at_line,shape,before,rest⟩ := ih ((willing_look here line).mpr halts) unwilling
      exact ⟨line :: earlier,other,at_line,by rw [shape]; rfl,.line nonempty here single before,rest⟩
  | @data locals last line next rest nonempty here kind later ih =>
    have goes : ¬Halts protocol (extract locals.arr line) := fun halts => halts_single halts kind
    obtain ⟨earlier,other,at_line,shape,before,rest⟩ := ih ((willing_look here line).mpr goes) unwilling
    exact ⟨line :: next :: earlier,other,at_line,by rw [shape]; rfl,.data nonempty here kind before,rest⟩

/-- A call that leaves the totals alone: the loop has looked at a line that halts it, and a line that is
not empty comes next. -/
theorem readFrame_none (lines : List Text) : (readFrame protocol {} lines).1 = none ↔
    ∃ (before : List Text) (line next : Text) (after : List Text) (locals : Locals),
      lines = before ++ line :: next :: after ∧ Reaches protocol {} before locals ∧ Willing locals ∧
        line ≠ [] ∧ Halts protocol (extract locals.arr line) ∧ next ≠ [] := by
  have willing : Willing ({} : Locals) := ⟨rfl,rfl⟩
  constructor
  · intro returned
    have ending := readFrame_ending protocol {} lines
    generalize readFrame protocol {} lines = result at ending returned
    cases ending with
    | file reached => simp at returned
    | blank rest reached => simp at returned
    | @early before last next after reached nonempty unwilling =>
      obtain ⟨earlier,line,locals,rfl,reads,still,visible,halts⟩ := reaches_unwilling reached willing unwilling
      exact ⟨earlier,line,next,after,locals,by simp,reads,still,visible,halts,nonempty⟩
    | cut reached nonempty willing kind => simp at returned
  · rintro ⟨before,line,next,after,locals,rfl,reads,still,visible,halts,nonempty⟩
    have unwilling : ¬Willing (look protocol locals line) := fun goes => (willing_look still line).mp goes halts
    rw [readFrame_reaches reads,readFrame_look visible still (halts_single halts),
      readFrame_unwilling nonempty unwilling]

end loop

end ProtocolTests.LineLoop
