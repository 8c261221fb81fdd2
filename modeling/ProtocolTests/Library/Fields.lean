import ProtocolTests.Library.CString

/-! Text files as a program reads them: the lines that `getline` returns, and the fields
of a line between single separators. -/
namespace ProtocolTests.Library.Fields
open CString

/-- The last line may lack its newline; nothing behind the last newline is no line. -/
def getlines : Text → List Text
  | [] => []
  | c :: rest =>
    if c = '\n' then [] :: getlines rest
    else match getlines rest with
      | [] => [[c]]
      | line :: later => (c :: line) :: later

theorem getlines_append (line rest : Text) (whole : '\n' ∉ line) :
    getlines (line ++ '\n' :: rest) = line :: getlines rest := by
  induction line with
  | nil => simp [getlines]
  | cons c line ih =>
    have here := List.ne_of_not_mem_cons whole
    rw [List.cons_append,getlines,if_neg here.symm,ih (List.not_mem_of_not_mem_cons whole)]

theorem getlines_single (line : Text) (nonempty : line ≠ []) (whole : '\n' ∉ line) : getlines line = [line] := by
  induction line with
  | nil => exact absurd rfl nonempty
  | cons c line ih =>
    have here := List.ne_of_not_mem_cons whole
    rw [getlines,if_neg here.symm]
    cases line with
    | nil => rfl
    | cons d line => rw [ih (List.cons_ne_nil _ _) (List.not_mem_of_not_mem_cons whole)]

theorem getlines_flatMap {α : Type} (items : List α) (line : α → Text) (whole : ∀ item ∈ items, '\n' ∉ line item) :
    getlines (items.flatMap fun item => line item ++ ['\n']) = items.map line := by
  induction items with
  | nil => rfl
  | cons item items ih =>
    have rest := ih fun other member => whole other (List.mem_cons_of_mem _ member)
    have first := getlines_append (line item) (items.flatMap fun item => line item ++ ['\n'])
      (whole item List.mem_cons_self)
    rw [List.flatMap_cons,List.append_assoc,List.singleton_append,first,rest,List.map_cons]

theorem getlines_replicate (n : Nat) : getlines (List.replicate n '\n') = List.replicate n [] := by
  induction n with
  | zero => rfl
  | succ n ih =>
    rw [List.replicate_succ,getlines,if_pos rfl,ih]
    rfl

/-- The piece at a place, counted from zero: empty behind the last one. -/
def field (line : Text) (place : Nat) : Text := (line.splitOn ' ').getD place []

@[simp] theorem field_nil (place : Nat) : field [] place = [] := by
  cases place <;> rfl

@[simp] theorem field_space_zero (rest : Text) : field (' ' :: rest) 0 = [] := by
  simp [field,List.splitOn_cons_eq_if_modifyHead]

@[simp] theorem field_space_succ (rest : Text) (place : Nat) : field (' ' :: rest) (place+1) = field rest place := by
  simp [field,List.splitOn_cons_eq_if_modifyHead]

theorem field_letter {c : Char} (letter : c ≠ ' ') (rest : Text) (place : Nat) :
    field (c :: rest) place = if place = 0 then c :: field rest 0 else field rest place := by
  obtain ⟨first,later,pieces⟩ := List.exists_cons_of_ne_nil (List.splitOn_ne_nil ' ' rest)
  cases place <;> simp [field,List.splitOn_cons_eq_if_modifyHead,letter,pieces]

theorem splitOn_length (line : Text) : (line.splitOn ' ').length = line.count ' ' + 1 := by
  induction line with
  | nil => rfl
  | cons c line ih =>
    rw [List.splitOn_cons_eq_if_modifyHead]
    by_cases space : c = ' '
    · simp [space,ih]
    · simp [space,ih]

end ProtocolTests.Library.Fields
