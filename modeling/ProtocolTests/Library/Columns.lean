import ProtocolTests.Library.CString

/-! Cells in columns of fixed widths, written from the left, and the words that are read back. -/
namespace ProtocolTests.Library.Columns
open CString

/-- `left << setw(width)` in front of a text. A text that is too long is not cut off. -/
def setw (width : Nat) (text : Text) : Text := text ++ List.replicate (width - text.length) ' '

def line (cells : List (Nat × Text)) : Text := cells.flatMap fun cell => setw cell.1 cell.2

/-- A cell that is one word. -/
def Word (text : Text) : Prop := text ≠ [] ∧ ∀ c ∈ text, isSpace c = false

theorem words_blanks (n : Nat) (text : Text) : words (List.replicate n ' ' ++ text) = words text := by
  induction n with
  | zero => rfl
  | succ n ih =>
    rw [List.replicate_succ,List.cons_append]
    exact (words_append [] _ ' ' (by decide)).trans ih

/-- The first word ends no earlier than the first letters do. -/
theorem words_letters_first {first : Text} (word : Word first) (rest : Text) :
    ∃ more tail, words (first ++ rest) = (first ++ more) :: tail ∧ more = rest.takeWhile fun c => !isSpace c := by
  have letters : ∀ c ∈ first ++ rest.takeWhile fun c => !isSpace c, isSpace c = false := by
    intro c member
    rcases List.mem_append.mp member with inside | behind
    · exact word.2 c inside
    · simpa using List.mem_takeWhile_imp behind
  have nonempty : first ++ rest.takeWhile (fun c => !isSpace c) ≠ [] := List.append_ne_nil_of_left_ne_nil word.1 _
  have whole := List.takeWhile_append_dropWhile (p := fun c => !isSpace c) (l := rest)
  cases behind : rest.dropWhile fun c => !isSpace c with
  | nil =>
    rw [behind,List.append_nil] at whole
    refine ⟨_,[],?_,rfl⟩
    rw [whole] at letters nonempty ⊢
    exact words_single _ nonempty letters
  | cons space after =>
    have isBlank : isSpace space = true := by
      have some_left : rest.dropWhile (fun c => !isSpace c) ≠ [] := by rw [behind]; exact List.cons_ne_nil _ _
      have stops := List.head_dropWhile_not (fun c => !isSpace c) some_left
      simpa [behind] using stops
    refine ⟨_,words after,?_,rfl⟩
    rw [behind] at whole
    conv_lhs => rw [← whole]
    rw [← List.append_assoc,words_append _ _ _ isBlank,words_single _ nonempty letters]
    rfl

theorem words_setw {width : Nat} {text : Text} (word : Word text) (shorter : text.length < width) (rest : Text) :
    words (setw width text ++ rest) = text :: words rest := by
  obtain ⟨n,blanks⟩ : ∃ n, width - text.length = n + 1 := ⟨width - text.length - 1,by omega⟩
  rw [setw,blanks,List.replicate_succ,List.append_assoc,List.cons_append,words_append _ _ ' ' (by decide),
    words_single _ word.1 word.2,words_blanks]
  rfl

/-- A cell that fills its column runs into the next one. -/
theorem words_setw_glued {width : Nat} {text next : Text} (word : Word text) (full : width ≤ text.length)
    (letters : Word next) (rest : Text) (later : List Text) : words (setw width text ++ (next ++ rest)) ≠ text :: later := by
  intro same
  rw [setw,Nat.sub_eq_zero_of_le full,List.replicate_zero,List.append_nil] at same
  obtain ⟨more,tail,first,shape⟩ := words_letters_first word (next ++ rest)
  rw [first] at same
  have nothing : more = [] := List.append_right_eq_self.mp (List.cons.inj same).1
  cases next with
  | nil => exact letters.1 rfl
  | cons c next =>
    have letter := letters.2 c List.mem_cons_self
    rw [nothing,List.cons_append,List.takeWhile_cons_of_pos (by simpa using letter)] at shape
    cases shape

/-- The cells are read back exactly if all but the last one are shorter than their columns. -/
theorem words_line_iff (cells : List (Nat × Text)) (plain : ∀ cell ∈ cells, Word cell.2) :
    words (line cells ++ ['\n']) = cells.map Prod.snd ↔ ∀ cell ∈ cells.dropLast, cell.2.length < cell.1 := by
  have newline : isSpace '\n' = true := by decide
  induction cells with
  | nil => exact iff_of_true (words_append [] [] '\n' newline) fun _ nothing => absurd nothing List.not_mem_nil
  | cons cell cells ih =>
    obtain ⟨width,text⟩ := cell
    have word : Word text := plain _ List.mem_cons_self
    have later := ih fun other member => plain other (List.mem_cons_of_mem _ member)
    have shape : line ((width,text) :: cells) ++ ['\n'] = setw width text ++ (line cells ++ ['\n']) := by
      rw [line,List.flatMap_cons,List.append_assoc]
      rfl
    rw [shape]
    cases cells with
    | nil =>
      refine iff_of_true ?_ fun _ nothing => absurd nothing List.not_mem_nil
      by_cases shorter : text.length < width
      · rw [words_setw word shorter]
        rfl
      · rw [setw,Nat.sub_eq_zero_of_le (Nat.le_of_not_lt shorter),List.append_assoc]
        exact (words_append text [] '\n' newline).trans (congrArg (· ++ []) (words_single text word.1 word.2))
    | cons next cells =>
      rw [List.dropLast_cons_cons,List.forall_mem_cons,List.map_cons]
      by_cases shorter : text.length < width
      · rw [words_setw word shorter,List.cons_inj_right]
        exact later.trans ⟨fun rest => ⟨shorter,rest⟩,And.right⟩
      · have glued : line (next :: cells) ++ ['\n'] =
            next.2 ++ (List.replicate (next.1 - next.2.length) ' ' ++ (line cells ++ ['\n'])) := by
          rw [line,List.flatMap_cons,setw,List.append_assoc,List.append_assoc]
          rfl
        rw [glued]
        refine iff_of_false ?_ fun both => shorter both.1
        exact words_setw_glued word (Nat.le_of_not_lt shorter) (plain next (by simp)) _ _

end ProtocolTests.Library.Columns
