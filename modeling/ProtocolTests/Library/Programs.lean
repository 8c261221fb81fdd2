import Mathlib.Data.List.Basic

/-! Programs in any monad that has a way to stop, with the loops that they are written in. -/
namespace ProtocolTests.Library.Programs

class Stopping (m : Type → Type) where
  stop {α : Type} : m α

instance {σ : Type} {m : Type → Type} [Stopping m] : Stopping (StateT σ m) where
  stop := fun _ => Stopping.stop

section programs
variable {m : Type → Type} [Monad m] [Stopping m] {α : Type}

/-- A value that may be missing, where going on without it is undefined. -/
def need : Option α → m α
  | some value => pure value
  | none => Stopping.stop

def require (condition : Prop) [Decidable condition] : m Unit := if condition then pure () else Stopping.stop

/-- `for (i = start; i < start + count; i++)` over a state that the body passes on. -/
def repeatFrom (body : Nat → α → m α) : Nat → Nat → α → m α
  | _, 0, state => pure state
  | start, count+1, state => body start state >>= repeatFrom body (start+1) count

theorem need_some (value : α) : (need (some value) : m α) = pure value := rfl

theorem require_true (condition : Prop) [Decidable condition] (holds : condition) :
    (require condition : m Unit) = pure () := if_pos holds

theorem require_false (condition : Prop) [Decidable condition] (fails : ¬condition) :
    (require condition : m Unit) = Stopping.stop := if_neg fails

end programs

end ProtocolTests.Library.Programs
