import ProtocolTests.Library.Run

/-! Runs in which every event is allowed in the state in which it happens. A measure that
every such step lowers bounds the runs, and each of them goes on to one that is stuck. -/
namespace ProtocolTests.Library.Progress
open Run

variable {σ ε : Type*} (step : σ → ε → Option σ) (allowed : σ → ε → Prop) (start : σ)

inductive Guided : List ε → σ → Prop
  | nil : Guided [] start
  | concat {events : List ε} {state next : σ} {event : ε} (before : Guided events state) (permitted : allowed state event)
      (stepped : step state event = some next) : Guided (events ++ [event]) next

/-- No allowed event is possible. -/
def Stuck (state : σ) : Prop := ∀ event, allowed state event → step state event = none

variable {step allowed start} {events : List ε} {state : σ}

theorem guided_run (guided : Guided step allowed start events state) : run step start events = some state := by
  induction guided with
  | nil => rfl
  | concat _ _ stepped ih => rw [run_concat,ih,Option.bind_some,stepped]

/-- What holds at the start and is kept by the allowed steps of runs. -/
theorem guided_invariant (holds : List ε → σ → Prop) (initial : holds [] start)
    (kept : ∀ events state event next, Guided step allowed start events state → holds events state →
      allowed state event → step state event = some next → holds (events ++ [event]) next)
    (guided : Guided step allowed start events state) : holds events state := by
  induction guided with
  | nil => exact initial
  | concat before permitted stepped ih => exact kept _ _ _ _ before ih permitted stepped

section measure
variable (measure : σ → Nat)
  (lowers : ∀ events state event next, Guided step allowed start events state → allowed state event →
    step state event = some next → measure next < measure state)
include lowers

theorem guided_bounded (guided : Guided step allowed start events state) :
    events.length + measure state ≤ measure start := by
  induction guided with
  | nil => rw [List.length_nil,Nat.zero_add]
  | concat before permitted stepped ih =>
    have lower := lowers _ _ _ _ before permitted stepped
    rw [List.length_append,List.length_singleton]
    omega

theorem guided_completes (guided : Guided step allowed start events state) :
    ∃ more final, Guided step allowed start (events ++ more) final ∧ Stuck step allowed final := by
  generalize bound : measure state = n
  induction n using Nat.strong_induction_on generalizing events state with
  | _ n ih =>
    by_cases stuck : Stuck step allowed state
    · exact ⟨[],state,by rwa [List.append_nil],stuck⟩
    · simp only [Stuck,not_forall] at stuck
      obtain ⟨event,permitted,possible⟩ := stuck
      obtain ⟨next,stepped⟩ := Option.ne_none_iff_exists'.mp possible
      have lower := lowers _ _ _ _ guided permitted stepped
      obtain ⟨more,final,ran,ended⟩ := ih _ (bound ▸ lower) (guided.concat permitted stepped) rfl
      refine ⟨event :: more,final,?_,ended⟩
      rwa [List.append_assoc,List.singleton_append] at ran

end measure

end ProtocolTests.Library.Progress
