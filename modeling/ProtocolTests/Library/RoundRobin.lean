import Mathlib.Data.Int.CardIntervalMod
import Mathlib.Algebra.BigOperators.Intervals
import Mathlib.Algebra.BigOperators.Ring.Finset
import Mathlib.Tactic.Ring

/-! Items dealt in turn to a fixed number of channels, and a length cut into
chunks of a fixed width. Item `k` goes to channel `k % channels`. -/
namespace ProtocolTests.Library.RoundRobin
open scoped BigOperators

def share (channels n channel : Nat) : Nat := ((List.range n).filter (fun k => k % channels = channel)).length

theorem share_eq (channels n channel : Nat) (inside : channel < channels) :
    share channels n channel = n / channels + if channel < n % channels then 1 else 0 := by
  have counted := Nat.count_modEq_card n (r := channels) (by omega) channel
  rw [Nat.mod_eq_of_lt inside] at counted
  rw [← counted,share,← List.countP_eq_length_filter,Nat.count]
  apply List.countP_congr
  intro k _
  simp [Nat.ModEq,Nat.mod_eq_of_lt inside]

/-- No channel gets two items more than another. -/
theorem share_balanced (channels n first second : Nat) (a : first < channels) (b : second < channels) :
    share channels n first ≤ share channels n second + 1 := by
  rw [share_eq channels n first a,share_eq channels n second b]
  split <;> split <;> omega

/-- In rounds of `period` items, how many of the last items of a round a channel gets. -/
def lastShare (channels period rounds channel : Nat) : Nat :=
  ((List.range (rounds*period)).filter fun k => k % channels = channel ∧ k % period + 1 = period).length

section last
variable {channels period channel : Nat}

/-- The items that are last in their round and go to the same channel lie a common
multiple apart. -/
theorem last_iff {first : Nat} (hit : first % channels = channel ∧ first % period + 1 = period) (k : Nat) :
    k % channels = channel ∧ k % period + 1 = period ↔ k ≡ first [MOD Nat.lcm period channels] := by
  obtain ⟨here,last⟩ := hit
  constructor
  · rintro ⟨there,too⟩
    have same : k % period = first % period := by omega
    exact Nat.mod_lcm same (there.trans here.symm)
  · intro apart
    have there := apart.of_dvd (Nat.dvd_lcm_right period channels)
    have same := apart.of_dvd (Nat.dvd_lcm_left period channels)
    rw [Nat.ModEq] at there same
    exact ⟨there.trans here,by omega⟩

theorem lastShare_hit (rounds : Nat) {first : Nat} (hit : first % channels = channel ∧ first % period + 1 = period)
    (positive : 0 < Nat.lcm period channels) :
    lastShare channels period rounds channel = rounds*period / Nat.lcm period channels +
      if first % Nat.lcm period channels < rounds*period % Nat.lcm period channels then 1 else 0 := by
  rw [← Nat.count_modEq_card _ positive,lastShare,← List.countP_eq_length_filter,Nat.count]
  apply List.countP_congr
  intro k _
  rw [decide_eq_true_iff,decide_eq_true_iff]
  exact last_iff hit k

theorem lastShare_missed (rounds : Nat) (missed : ∀ k, ¬(k % channels = channel ∧ k % period + 1 = period)) :
    lastShare channels period rounds channel = 0 := by
  rw [lastShare,List.length_eq_zero_iff,List.filter_eq_nil_iff]
  intro k _
  simpa using missed k

theorem lastShare_le (rounds : Nat) (positive : 0 < Nat.lcm period channels) :
    lastShare channels period rounds channel ≤ rounds*period / Nat.lcm period channels + 1 ∧
      (Nat.lcm period channels ∣ rounds*period →
        lastShare channels period rounds channel ≤ rounds*period / Nat.lcm period channels) := by
  by_cases hit : ∃ first, first % channels = channel ∧ first % period + 1 = period
  · obtain ⟨first,hit⟩ := hit
    rw [lastShare_hit rounds hit positive]
    constructor
    · split <;> omega
    · intro divides
      rw [Nat.mod_eq_zero_of_dvd divides,if_neg (Nat.not_lt_zero _)]
      exact Nat.le_refl _
  · rw [lastShare_missed rounds fun k hits => hit ⟨k,hits⟩]
    exact ⟨Nat.zero_le _,fun _ => Nat.zero_le _⟩

/-- The last channel gets the last item whenever a common multiple has been dealt. -/
theorem lastShare_top (rounds : Nat) (some_channel : 0 < channels) (some_item : 0 < period) :
    rounds*period / Nat.lcm period channels ≤ lastShare channels period rounds (channels-1) := by
  have positive := Nat.lcm_pos some_item some_channel
  have behind (n : Nat) (some : 0 < n) (divides : n ∣ Nat.lcm period channels) :
      (Nat.lcm period channels - 1) % n + 1 = n := by
    obtain ⟨times,equal⟩ := divides
    obtain ⟨times,rfl⟩ := Nat.exists_eq_succ_of_ne_zero (by rintro rfl; omega : times ≠ 0)
    have place : Nat.lcm period channels - 1 = n*times + (n-1) := by
      rw [equal,Nat.mul_succ]
      omega
    rw [place,Nat.mul_add_mod,Nat.mod_eq_of_lt (by omega)]
    omega
  have here := behind channels some_channel (Nat.dvd_lcm_right _ _)
  have hit : (Nat.lcm period channels - 1) % channels = channels-1 := by omega
  rw [lastShare_hit rounds ⟨hit,behind period some_item (Nat.dvd_lcm_left _ _)⟩ positive]
  exact Nat.le_add_right _ _

theorem lastShare_first (rounds : Nat) (common : ¬Nat.Coprime period channels) :
    lastShare channels period rounds 0 = 0 := by
  apply lastShare_missed
  rintro k ⟨start,last⟩
  apply common
  have divides := (Nat.gcd_dvd_right period channels).trans (Nat.dvd_of_mod_eq_zero start)
  have next : period ∣ k+1 := by
    have split := Nat.div_add_mod k period
    exact ⟨k/period + 1,by rw [Nat.mul_succ]; omega⟩
  have both := (Nat.dvd_add_right divides).mp ((Nat.gcd_dvd_left period channels).trans next)
  exact Nat.dvd_one.mp both

theorem lastShare_coprime (rounds : Nat) (some_item : 0 < period) (inside : channel < channels)
    (coprime : Nat.Coprime period channels) :
    rounds*period / Nat.lcm period channels ≤ lastShare channels period rounds channel := by
  obtain ⟨k,last,here⟩ := Nat.chineseRemainder coprime (period-1) channel
  rw [Nat.ModEq,Nat.mod_eq_of_lt (by omega : period-1 < period)] at last
  rw [Nat.ModEq,Nat.mod_eq_of_lt inside] at here
  rw [lastShare_hit rounds ⟨here,by omega⟩ (Nat.lcm_pos some_item (by omega))]
  exact Nat.le_add_right _ _

end last

theorem sum_channels {M : Type*} [AddCommMonoid M] (channels n : Nat) (positive : 0 < channels)
    (size : Nat → M) :
    ∑ channel ∈ Finset.range channels, ∑ k ∈ (Finset.range n).filter (fun k => k % channels = channel), size k =
      ∑ k ∈ Finset.range n, size k :=
  Finset.sum_fiberwise_of_maps_to
    (fun k _ => Finset.mem_range.mpr (Nat.mod_lt k positive)) size

theorem sum_periodic {M : Type*} [AddCommMonoid M] (rounds period : Nat) (size : Nat → M) :
    ∑ k ∈ Finset.range (rounds*period), size (k % period) =
      rounds • ∑ j ∈ Finset.range period, size j := by
  induction rounds with
  | zero => simp
  | succ rounds ih =>
    rw [Nat.succ_mul,Finset.sum_range_add,ih,succ_nsmul]
    congr 1
    apply Finset.sum_congr rfl
    intro j member
    rw [Nat.mul_add_mod',Nat.mod_eq_of_lt (Finset.mem_range.mp member)]

def chunks (width len : Nat) : Nat := (len + width - 1) / width

theorem chunks_spec (width len j : Nat) (positive : 0 < width) : j < chunks width len ↔ width*j < len := by
  rw [chunks,← Nat.succ_le_iff,Nat.le_div_iff_mul_le positive,Nat.succ_mul,Nat.mul_comm]
  omega

def chunkSize (width len j : Nat) : Nat := min len (width*(j+1)) - width*j

theorem sum_chunkSize (width len count : Nat) :
    ∑ j ∈ Finset.range count, chunkSize width len j = min len (width*count) := by
  induction count with
  | zero => simp
  | succ count ih =>
    rw [Finset.sum_range_succ,ih,chunkSize,Nat.mul_succ]
    omega

theorem sum_chunks (width len : Nat) (positive : 0 < width) :
    ∑ j ∈ Finset.range (chunks width len), chunkSize width len j = len := by
  have covered := (chunks_spec width len (chunks width len) positive).not.mp (lt_irrefl _)
  rw [sum_chunkSize]
  omega

/-- What the last chunk lacks of the full width. -/
def shortfall (width len : Nat) : Nat := width * chunks width len - len

theorem shortfall_lt (width len : Nat) (positive : 0 < width) : shortfall width len < width := by
  have last := chunks_spec width len (chunks width len - 1) positive
  rcases Nat.eq_zero_or_pos (chunks width len) with none_left | some_left
  · rw [shortfall,none_left]
    omega
  · obtain ⟨before,count⟩ := Nat.exists_eq_succ_of_ne_zero (Nat.ne_of_gt some_left)
    have reached := last.mp (by omega)
    rw [shortfall,count,Nat.mul_succ]
    rw [count,Nat.succ_sub_one] at reached
    omega

theorem shortfall_eq_zero (width len : Nat) (positive : 0 < width) : shortfall width len = 0 ↔ width ∣ len := by
  have covered := (chunks_spec width len (chunks width len) positive).not.mp (lt_irrefl _)
  constructor
  · intro nothing
    exact ⟨chunks width len,by rw [shortfall] at nothing; omega⟩
  · rintro ⟨count,rfl⟩
    have enough := (chunks_spec width (width*count) count positive).not.mpr (lt_irrefl _)
    rw [shortfall,Nat.sub_eq_zero_iff_le]
    exact Nat.mul_le_mul_left width (Nat.le_of_not_lt enough)

theorem chunkSize_shortfall (width len j : Nat) (positive : 0 < width) (inside : j < chunks width len) :
    chunkSize width len j + (if j + 1 = chunks width len then shortfall width len else 0) = width := by
  have reached := (chunks_spec width len j positive).mp inside
  have further := chunks_spec width len (j+1) positive
  rw [chunkSize,Nat.mul_succ]
  rw [Nat.mul_succ] at further
  split
  next last =>
    rw [shortfall,← last,Nat.mul_succ]
    omega
  next => omega

/-- Among any items dealt, each is a full chunk but for the last ones of the rounds. -/
theorem sum_dealt (width len : Nat) (positive : 0 < width) (items : List Nat)
    (chunked : ∀ k ∈ items, k % chunks width len < chunks width len) :
    (items.map fun k => chunkSize width len (k % chunks width len)).sum +
        shortfall width len * (items.filter fun k => k % chunks width len + 1 = chunks width len).length =
      width * items.length := by
  induction items with
  | nil => simp
  | cons k items ih =>
    have rest := ih fun other member => chunked other (List.mem_cons_of_mem _ member)
    have size := chunkSize_shortfall width len _ positive (chunked k List.mem_cons_self)
    rw [List.map_cons,List.sum_cons,List.filter_cons,List.length_cons,Nat.mul_succ]
    split at size
    next last =>
      rw [if_pos (by simpa using last),List.length_cons,Nat.mul_succ]
      omega
    next inner =>
      rw [if_neg (by simpa using inner)]
      omega

end ProtocolTests.Library.RoundRobin
