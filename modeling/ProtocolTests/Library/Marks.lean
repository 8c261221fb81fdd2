/-! Texts with parts between pairs of marks, and the parts that are read back. -/
namespace ProtocolTests.Library.Marks

variable {α : Type}

/-- The items at the odd places. -/
def odds : List α → List α
  | _ :: inner :: rest => inner :: odds rest
  | _ => []

theorem length_odds (pieces : List α) : (odds pieces).length = pieces.length / 2 := by
  fun_induction odds with
  | case1 outer inner rest ih =>
    rw [List.length_cons,ih,List.length_cons,List.length_cons]
    omega
  | case2 pieces short =>
    rcases pieces with _ | ⟨only,_ | ⟨inner,rest⟩⟩
    · simp
    · simp
    · exact absurd rfl (short only inner rest)

inductive Segment (α : Type)
  | plain (text : List α)
  | part (text : List α)

def Segment.content : Segment α → List α
  | plain text => text
  | part text => text

@[simp] theorem content_plain (text : List α) : (Segment.plain text).content = text := rfl

@[simp] theorem content_part (text : List α) : (Segment.part text).content = text := rfl

def parts : List (Segment α) → List (List α)
  | [] => []
  | .plain _ :: rest => parts rest
  | .part text :: rest => text :: parts rest

variable (mark : α)

def marked : List (Segment α) → List α
  | [] => []
  | .plain text :: rest => text ++ marked rest
  | .part text :: rest => mark :: (text ++ mark :: marked rest)

variable [DecidableEq α]

/-- The parts inside of the marks, with a last one that is not closed. -/
def inside (text : List α) : List (List α) := odds (text.splitOn mark)

theorem length_splitOn (text : List α) : (text.splitOn mark).length = text.count mark + 1 := by
  induction text with
  | nil => rfl
  | cons letter text ih =>
    rw [List.splitOn_cons_eq_if_modifyHead]
    by_cases here : letter = mark
    · simp [here,ih]
    · simp [here,ih]

variable {mark}

theorem splitOn_plain {text : List α} (clean : mark ∉ text) (rest : List α) :
    (text ++ rest).splitOn mark = (rest.splitOn mark).modifyHead (text ++ ·) := by
  induction text with
  | nil =>
    rw [List.nil_append]
    cases rest.splitOn mark <;> rfl
  | cons letter text ih =>
    have other : letter ≠ mark := fun same => clean (same ▸ List.mem_cons_self)
    rw [List.cons_append,List.splitOn_cons_eq_if_modifyHead,ih fun later => clean (List.mem_cons_of_mem _ later)]
    obtain ⟨first,later,pieces⟩ := List.exists_cons_of_ne_nil (List.splitOn_ne_nil mark rest)
    simp [other,pieces]

theorem inside_plain {text : List α} (clean : mark ∉ text) (rest : List α) :
    inside mark (text ++ rest) = inside mark rest := by
  rw [inside,splitOn_plain clean,inside]
  rcases rest.splitOn mark with _ | ⟨first,_ | ⟨second,later⟩⟩ <;> rfl

theorem inside_part {text : List α} (clean : mark ∉ text) (rest : List α) :
    inside mark (mark :: (text ++ mark :: rest)) = text :: inside mark rest := by
  rw [inside,List.splitOn_cons_eq_if_modifyHead,if_pos (by simp),splitOn_plain clean,List.splitOn_cons_eq_if_modifyHead,
    if_pos (by simp)]
  simp [odds,inside]

variable (mark)

/-- Two marks around each part, and those that the texts have themselves. -/
theorem count_marked (segments : List (Segment α)) : (marked mark segments).count mark =
    2 * (parts segments).length + (segments.flatMap Segment.content).count mark := by
  induction segments with
  | nil => rfl
  | cons segment segments ih =>
    rw [List.flatMap_cons,List.count_append]
    cases segment with
    | plain text =>
      rw [marked,List.count_append,ih,parts,content_plain]
      omega
    | part text =>
      rw [marked,List.count_cons_self,List.count_append,List.count_cons_self,ih,parts,List.length_cons,content_part]
      omega

/-- The parts are read back exactly if no text has a mark in it. -/
theorem inside_marked_iff (segments : List (Segment α)) :
    inside mark (marked mark segments) = parts segments ↔ ∀ segment ∈ segments, mark ∉ segment.content := by
  constructor
  · intro read segment member here
    have sizes := congrArg List.length read
    rw [inside,length_odds,length_splitOn,count_marked] at sizes
    have nothing : (segments.flatMap Segment.content).count mark = 0 := by omega
    exact List.count_eq_zero.mp nothing (List.mem_flatMap.mpr ⟨segment,member,here⟩)
  · intro clean
    induction segments with
    | nil => rfl
    | cons segment segments ih =>
      obtain ⟨here,later⟩ := List.forall_mem_cons.mp clean
      cases segment with
      | plain text => rw [marked,inside_plain (show mark ∉ text from here),ih later,parts]
      | part text => rw [marked,inside_part (show mark ∉ text from here),ih later,parts]

end ProtocolTests.Library.Marks
