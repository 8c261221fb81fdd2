import Mathlib.Data.List.Induction

/-! Runs in which every use needs a permit of its own, and the uses that timed permits allow. -/
namespace ProtocolTests.Library.Permits

variable {α β : Type} (permit use : α → Bool)

/-- At any point there were no more uses than permits. -/
def Permitted (items : List α) : Prop := ∀ n, (items.take n).countP use ≤ (items.take n).countP permit

variable {permit use}

theorem permitted_append {first second : List α} (early : Permitted permit use first)
    (late : Permitted permit use second) : Permitted permit use (first ++ second) := by
  intro n
  rw [List.take_append,List.countP_append,List.countP_append]
  exact Nat.add_le_add (early n) (late (n - first.length))

theorem permitted_flatMap (items : List β) (runs : β → List α) (each : ∀ item, Permitted permit use (runs item)) :
    Permitted permit use (items.flatMap runs) := by
  induction items with
  | nil => simp [Permitted]
  | cons item items ih => exact permitted_append (each item) ih

theorem permitted_unused {items : List α} (unused : ∀ item ∈ items, use item = false) : Permitted permit use items := by
  intro n
  have nothing : (items.take n).countP use = 0 := List.countP_eq_zero.mpr fun item member => by
    simp [unused item (List.mem_of_mem_take member)]
  omega

theorem permitted_early {items done : List α} (permitted : Permitted permit use items) (part : done <+: items) :
    done.countP use ≤ done.countP permit := by
  rw [List.prefix_iff_eq_take.mp part]
  exact permitted _

variable (permit) in
/-- The clock does not go back, and the n-th permit takes n periods at least. -/
structure Timed (period : Nat) (log : List (α × Nat)) : Prop where
  forward : (log.map Prod.snd).Pairwise (· ≤ ·)
  due : ∀ done event, done ++ [event] <+: log → permit event.1 = true →
    ((done ++ [event]).countP fun item => permit item.1) * period ≤ event.2

theorem filter_early {log : List (α × Nat)} (forward : (log.map Prod.snd).Pairwise (· ≤ ·)) (time : Nat) :
    (log.filter fun event => event.2 ≤ time) <+: log := by
  induction log with
  | nil => exact List.prefix_rfl
  | cons event log ih =>
    obtain ⟨first,rest⟩ := List.pairwise_cons.mp forward
    by_cases soon : event.2 ≤ time
    · rw [List.filter_cons_of_pos (by simpa using soon)]
      exact (List.prefix_cons_inj event).mpr (ih rest)
    · have late : ∀ later ∈ event :: log, ¬later.2 ≤ time := by
        intro later member
        rcases List.mem_cons.mp member with rfl | behind
        · exact soon
        · have order := first later.2 (List.mem_map_of_mem behind)
          omega
      rw [List.filter_eq_nil_iff.mpr (by simpa using late)]
      exact List.nil_prefix

/-- The permits of a run that has come to a time. -/
theorem permits_due {period : Nat} {log : List (α × Nat)} (timed : Timed permit period log) (time : Nat)
    (done : List (α × Nat)) (part : done <+: log) (soon : ∀ event ∈ done, event.2 ≤ time) :
    (done.countP fun event => permit event.1) * period ≤ time := by
  induction done using List.reverseRecOn with
  | nil => simp
  | append_singleton done event ih =>
    cases given : permit event.1 with
    | true => exact Nat.le_trans (timed.due done event part given) (soon event (by simp))
    | false =>
      have before := ih ((List.prefix_append _ _).trans part) fun other member => soon other (by simp [member])
      rw [List.countP_append]
      simpa [given] using before

/-- By any time there were at most as many uses as periods. -/
theorem uses_due {period : Nat} {items : List α} {log : List (α × Nat)} (permitted : Permitted permit use items)
    (part : log.map Prod.fst <+: items) (timed : Timed permit period log) (time : Nat) :
    ((log.filter fun event => event.2 ≤ time).countP fun event => use event.1) * period ≤ time := by
  have early := filter_early timed.forward time
  have count := permitted_early permitted ((early.map Prod.fst).trans part)
  rw [List.countP_map,List.countP_map] at count
  have due := permits_due timed time _ early fun event member => by simpa using (List.mem_filter.mp member).2
  exact Nat.le_trans (Nat.mul_le_mul_right period count) due

end ProtocolTests.Library.Permits
