import Mathlib.Data.List.Infix
import Mathlib.Data.List.Monad

/-! Runs of a partial step function, and laws that say which event may follow which
history. An invariant may speak of the history as well as of the state. -/
namespace ProtocolTests.Library.Run

variable {σ ε : Type*} (step : σ → ε → Option σ) (start : σ)

def run (events : List ε) : Option σ := events.foldlM step start

theorem run_append (first second : List ε) :
    run step start (first ++ second) = (run step start first).bind fun state => run step state second :=
  List.foldlM_append

theorem run_concat (events : List ε) (event : ε) :
    run step start (events ++ [event]) = (run step start events).bind fun state => step state event := by
  simp [run]

variable {step start}

theorem run_last {events : List ε} {event : ε} {final : σ} (ran : run step start (events ++ [event]) = some final) :
    ∃ state, run step start events = some state ∧ step state event = some final := by
  rw [run_concat] at ran
  exact Option.bind_eq_some_iff.mp ran

theorem run_split {first second : List ε} {final : σ} (ran : run step start (first ++ second) = some final) :
    ∃ state, run step start first = some state ∧ run step state second = some final := by
  rw [run_append] at ran
  exact Option.bind_eq_some_iff.mp ran

def Lawful (law : List ε → ε → Prop) (events : List ε) : Prop :=
  ∀ past event, past ++ [event] <+: events → law past event

variable {law : List ε → ε → Prop}

theorem lawful_nil : Lawful law [] := by
  intro past event first
  have empty := List.prefix_nil.mp first
  exact absurd empty (by simp)

theorem lawful_concat (events : List ε) (event : ε) :
    Lawful law (events ++ [event]) ↔ Lawful law events ∧ law events event := by
  constructor
  · intro lawful
    exact ⟨fun past before first => lawful past before (first.trans (List.prefix_append _ _)),
      lawful events event (List.prefix_refl _)⟩
  · rintro ⟨lawful,last⟩ past before first
    rcases List.prefix_concat_iff.mp first with whole | inner
    · obtain ⟨rfl,same⟩ := List.append_inj' whole rfl
      obtain rfl := List.singleton_inj.mp same
      exact last
    · exact lawful past before inner

theorem lawful_before {first second : List ε} (lawful : Lawful law (first ++ second)) : Lawful law first :=
  fun past event inner => lawful past event (inner.trans (List.prefix_append _ _))

theorem lawful_mono {law' : List ε → ε → Prop} (weaker : ∀ past event, law past event → law' past event)
    {events : List ε} (lawful : Lawful law events) : Lawful law' events :=
  fun past event first => weaker past event (lawful past event first)

/-- The law on the events behind a given history, from the front. -/
def Follows (law : List ε → ε → Prop) : List ε → List ε → Prop
  | _, [] => True
  | past, event :: events => law past event ∧ Follows law (past ++ [event]) events

theorem lawful_follows {past events : List ε} (lawful : Lawful law past) (follows : Follows law past events) :
    Lawful law (past ++ events) := by
  induction events generalizing past with
  | nil => rwa [List.append_nil]
  | cons event events ih =>
    rw [List.append_cons]
    exact ih ((lawful_concat past event).mpr ⟨lawful,follows.1⟩) follows.2

theorem follows_lawful {events : List ε} (follows : Follows law [] events) : Lawful law events :=
  lawful_follows lawful_nil follows

/-- What holds at the start and is kept by every lawful step holds after every lawful run. -/
theorem invariant (law : List ε → ε → Prop) (holds : List ε → σ → Prop) (initial : holds [] start)
    (kept : ∀ past state event next, holds past state → law past event → step state event = some next →
      holds (past ++ [event]) next)
    {events : List ε} {final : σ} (lawful : Lawful law events) (ran : run step start events = some final) :
    holds events final := by
  induction events using List.reverseRecOn generalizing final with
  | nil =>
    cases ran
    exact initial
  | append_singleton events event ih =>
    obtain ⟨state,before,stepped⟩ := run_last ran
    obtain ⟨first,last⟩ := (lawful_concat events event).mp lawful
    exact kept events state event final (ih first before) last stepped

end ProtocolTests.Library.Run
