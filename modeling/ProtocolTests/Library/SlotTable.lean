import Mathlib.Data.Finset.Card
import Mathlib.Data.Fintype.Card
import Mathlib.Data.Fintype.EquivFin

/-! Tables of a fixed number of slots in which a reserved key marks the free ones.
A table holds a set of keys when every key of the set is in exactly one slot and
every other slot is free. -/
namespace ProtocolTests.Library.SlotTable

variable {κ : Type*} {n : Nat}

structure Holds (free : κ) (table : Fin n → κ) (keys : Finset κ) : Prop where
  mem_iff : ∀ key, key ∈ keys ↔ key ≠ free ∧ ∃ i, table i = key
  distinct : ∀ i j, table i ≠ free → table i = table j → i = j

variable {free : κ} {table : Fin n → κ} {keys : Finset κ}

theorem holds_empty (free : κ) : Holds free (fun _ : Fin n => free) ∅ where
  mem_iff := by
    intro key
    constructor
    · intro member
      cases member
    · rintro ⟨used,_,same⟩
      exact absurd same.symm used
  distinct := fun _ _ used => absurd rfl used

theorem slot_mem (holds : Holds free table keys) (i : Fin n) (used : table i ≠ free) : table i ∈ keys :=
  (holds.mem_iff _).mpr ⟨used,i,rfl⟩

/-- A key that no slot has yet, or that need not be distinct, may go into any slot. -/
theorem distinct_update (used : κ → Prop) (distinct : ∀ i j, used (table i) → table i = table j → i = j) (i : Fin n)
    (key : κ) (new : used key → ∀ j, table j ≠ key) (j k : Fin n) (here : used (Function.update table i key j))
    (same : Function.update table i key j = Function.update table i key k) : j = k := by
  by_cases first : j = i <;> by_cases second : k = i
  · exact first.trans second.symm
  · rw [first,Function.update_self] at here same
    rw [Function.update_of_ne second] at same
    exact absurd same.symm (new here k)
  · rw [Function.update_of_ne first] at here same
    rw [second,Function.update_self] at same
    exact absurd same (new (same ▸ here) j)
  · rw [Function.update_of_ne first] at here same
    rw [Function.update_of_ne second] at same
    exact distinct j k here same

variable [DecidableEq κ]

theorem holds_insert (holds : Holds free table keys) (i : Fin n) (vacant : table i = free) (key : κ)
    (used : key ≠ free) (new : key ∉ keys) : Holds free (Function.update table i key) (insert key keys) where
  mem_iff := by
    intro other
    rw [Finset.mem_insert,holds.mem_iff]
    constructor
    · rintro (rfl | ⟨other_used,j,rfl⟩)
      · exact ⟨used,i,Function.update_self ..⟩
      · refine ⟨other_used,j,Function.update_of_ne ?_ _ _⟩
        rintro rfl
        exact other_used vacant
    · rintro ⟨other_used,j,same⟩
      by_cases here : j = i
      · subst here
        rw [Function.update_self] at same
        exact Or.inl same.symm
      · rw [Function.update_of_ne here] at same
        exact Or.inr ⟨other_used,j,same⟩
  distinct := by
    refine distinct_update (· ≠ free) holds.distinct i key fun _ j same => ?_
    exact new ((holds.mem_iff _).mpr ⟨used,j,same⟩)

theorem holds_erase (holds : Holds free table keys) (i : Fin n) (used : table i ≠ free) :
    Holds free (Function.update table i free) (keys.erase (table i)) where
  mem_iff := by
    intro key
    rw [Finset.mem_erase,holds.mem_iff]
    constructor
    · rintro ⟨other,key_used,j,rfl⟩
      refine ⟨key_used,j,Function.update_of_ne ?_ _ _⟩
      rintro rfl
      exact other rfl
    · rintro ⟨key_used,j,same⟩
      have apart : j ≠ i := by
        rintro rfl
        rw [Function.update_self] at same
        exact key_used same.symm
      rw [Function.update_of_ne apart] at same
      refine ⟨?_,key_used,j,same⟩
      rintro rfl
      exact apart (holds.distinct i j used same.symm).symm
  distinct := distinct_update (· ≠ free) holds.distinct i free fun not_free => absurd rfl not_free

theorem exists_vacant (holds : Holds free table keys) (room : keys.card < n) : ∃ i, table i = free := by
  by_contra! full
  have injective : Function.Injective table := fun i j => holds.distinct i j (full i)
  have image : Finset.univ.image table ⊆ keys := by
    intro key member
    obtain ⟨i,_,rfl⟩ := Finset.mem_image.mp member
    exact (holds.mem_iff _).mpr ⟨full i,i,rfl⟩
  have size := Finset.card_le_card image
  rw [Finset.card_image_of_injective _ injective,Finset.card_univ,Fintype.card_fin] at size
  omega

end ProtocolTests.Library.SlotTable
