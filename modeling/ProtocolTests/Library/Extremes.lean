import Mathlib.Order.Bounds.Basic
import Mathlib.Order.MinMax
import Mathlib.Data.List.Basic

/-! Running extremes that start from a given value, over any linear order. -/
namespace ProtocolTests.Library.Extremes

variable {α : Type*} [LinearOrder α]

theorem foldl_max_isGreatest (items : List α) (start : α) :
    IsGreatest (insert start {x | x ∈ items}) (items.foldl max start) := by
  induction items generalizing start with
  | nil => simp
  | cons item items ih =>
    obtain ⟨reached,above⟩ := ih (max start item)
    have start_le := above (Set.mem_insert _ _)
    rw [List.foldl_cons]
    constructor
    · rcases Set.mem_insert_iff.mp reached with same | later
      · rcases max_choice start item with first | second
        · exact Set.mem_insert_iff.mpr (Or.inl (same.trans first))
        · exact Set.mem_insert_of_mem _ (List.mem_cons.mpr (Or.inl (same.trans second)))
      · exact Set.mem_insert_of_mem _ (List.mem_cons_of_mem _ later)
    · rintro x (rfl | member)
      · exact (le_max_left _ _).trans start_le
      · rcases List.mem_cons.mp member with rfl | later
        · exact (le_max_right _ _).trans start_le
        · exact above (Set.mem_insert_of_mem _ later)

/-- The running maximum is the greatest item exactly if some item reaches its start. -/
theorem running_max_iff (items : List α) (start : α) :
    IsGreatest {x | x ∈ items} (items.foldl max start) ↔ ∃ x ∈ items, start ≤ x := by
  obtain ⟨reached,above⟩ := foldl_max_isGreatest items start
  constructor
  · exact fun greatest => ⟨_,greatest.1,above (Set.mem_insert _ _)⟩
  · rintro ⟨x,member,bound⟩
    refine ⟨?_,fun y other => above (Set.mem_insert_of_mem _ other)⟩
    rcases Set.mem_insert_iff.mp reached with same | later
    · have equal : x = items.foldl max start :=
        le_antisymm (above (Set.mem_insert_of_mem _ member)) (same.trans_le bound)
      exact equal ▸ member
    · exact later

theorem running_min_iff (items : List α) (start : α) :
    IsLeast {x | x ∈ items} (items.foldl min start) ↔ ∃ x ∈ items, x ≤ start :=
  @running_max_iff αᵒᵈ _ items start

end ProtocolTests.Library.Extremes
