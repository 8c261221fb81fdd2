import Mathlib.Data.List.GetD
import Mathlib.Algebra.Order.Ring.Nat

/-! Integers as their bytes in either order, and a memory of bytes. A store changes the bytes
it covers and no other. -/
namespace ProtocolTests.Library.ByteMemory

abbrev Bytes := List UInt8

abbrev Memory := Nat → UInt8

def littleEndian : Nat → Nat → Bytes
  | 0, _ => []
  | width+1, n => UInt8.ofNat n :: littleEndian width (n / 256)

def bigEndian (width n : Nat) : Bytes := (littleEndian width n).reverse

def littleValue (bytes : Bytes) : Nat := bytes.foldr (fun byte value => byte.toNat + 256 * value) 0

def bigValue (bytes : Bytes) : Nat := littleValue bytes.reverse

@[simp] theorem littleEndian_length (width n : Nat) : (littleEndian width n).length = width := by
  induction width generalizing n with
  | zero => rfl
  | succ width ih => rw [littleEndian,List.length_cons,ih]

@[simp] theorem bigEndian_length (width n : Nat) : (bigEndian width n).length = width := by
  rw [bigEndian,List.length_reverse,littleEndian_length]

theorem littleValue_littleEndian (width n : Nat) : littleValue (littleEndian width n) = n % 256^width := by
  induction width generalizing n with
  | zero => rw [Nat.pow_zero,Nat.mod_one]; rfl
  | succ width ih =>
    have byte : (UInt8.ofNat n).toNat = n % 256 := UInt8.toNat_ofNat'
    calc littleValue (littleEndian (width+1) n)
        = (UInt8.ofNat n).toNat + 256 * littleValue (littleEndian width (n / 256)) := rfl
      _ = n % 256 + 256 * (n / 256 % 256^width) := by rw [byte,ih]
      _ = n % 256^(width+1) := by rw [Nat.pow_succ',Nat.mod_mul]

theorem bigValue_bigEndian (width n : Nat) : bigValue (bigEndian width n) = n % 256^width := by
  rw [bigValue,bigEndian,List.reverse_reverse,littleValue_littleEndian]

def store (memory : Memory) (pointer : Nat) (bytes : Bytes) : Memory := fun place =>
  if pointer ≤ place ∧ place < pointer + bytes.length then bytes.getD (place - pointer) 0 else memory place

def load (memory : Memory) (pointer width : Nat) : Bytes := (List.range width).map fun i => memory (pointer + i)

theorem store_inside (memory : Memory) (pointer i : Nat) (bytes : Bytes) (inside : i < bytes.length) :
    store memory pointer bytes (pointer + i) = bytes.getD i 0 := by
  have covered : pointer ≤ pointer + i ∧ pointer + i < pointer + bytes.length := by omega
  rw [store,if_pos covered,Nat.add_sub_cancel_left]

theorem store_outside (memory : Memory) (pointer place : Nat) (bytes : Bytes)
    (outside : place < pointer ∨ pointer + bytes.length ≤ place) : store memory pointer bytes place = memory place := by
  have spared : ¬(pointer ≤ place ∧ place < pointer + bytes.length) := by omega
  rw [store,if_neg spared]

theorem load_inside (memory : Memory) (pointer offset width : Nat) (bytes : Bytes)
    (inside : offset + width ≤ bytes.length) :
    load (store memory pointer bytes) (pointer + offset) width = (bytes.drop offset).take width := by
  apply List.ext_getElem
  · rw [load,List.length_map,List.length_range,List.length_take,List.length_drop]
    omega
  · intro i left right
    have bound : i < width := by simpa [load] using left
    have covered : offset + i < bytes.length := by omega
    rw [List.getElem_take,List.getElem_drop]
    simp only [load,List.getElem_map,List.getElem_range,Nat.add_assoc]
    rw [store_inside _ _ _ _ covered,List.getD_eq_getElem _ _ covered]

theorem load_outside (memory : Memory) (pointer place width : Nat) (bytes : Bytes)
    (outside : place + width ≤ pointer ∨ pointer + bytes.length ≤ place) :
    load (store memory pointer bytes) place width = load memory place width := by
  apply List.map_congr_left
  intro i member
  have bound := List.mem_range.mp member
  exact store_outside _ _ _ _ (by omega)

end ProtocolTests.Library.ByteMemory
