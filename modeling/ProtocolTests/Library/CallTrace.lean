import ProtocolTests.Library.Programs

/-! Programs seen through the calls they make: a trace of events and, unless the
program stopped on the way, a result. Stopping stands for an exit, a trap or
behaviour that the language leaves undefined. -/
namespace ProtocolTests.Library.CallTrace
open Programs

structure Traced (ε α : Type) where
  trace : List ε
  result : Option α

variable {ε α β γ : Type}

def Traced.bind (first : Traced ε α) (next : α → Traced ε β) : Traced ε β :=
  match first.result with
  | none => ⟨first.trace,none⟩
  | some a => ⟨first.trace ++ (next a).trace,(next a).result⟩

instance : Monad (Traced ε) where
  pure a := ⟨[],some a⟩
  bind := Traced.bind

def emit (events : List ε) : Traced ε Unit := ⟨events,some ()⟩

instance : Stopping (Traced ε) where
  stop := ⟨[],none⟩

@[simp] theorem pure_trace (a : α) : (pure a : Traced ε α).trace = [] := rfl
@[simp] theorem pure_result (a : α) : (pure a : Traced ε α).result = some a := rfl
@[simp] theorem emit_trace (events : List ε) : (emit events).trace = events := rfl
@[simp] theorem stop_trace : (Stopping.stop : Traced ε α).trace = [] := rfl
@[simp] theorem need_trace (value : Option α) : (need value : Traced ε α).trace = [] := by cases value <;> rfl
@[simp] theorem require_trace (condition : Prop) [Decidable condition] : (require condition : Traced ε Unit).trace = [] := by
  unfold require
  split <;> rfl
@[simp] theorem completed_bind (events : List ε) (a : α) (next : α → Traced ε β) :
    (⟨events,some a⟩ : Traced ε α) >>= next = ⟨events ++ (next a).trace,(next a).result⟩ := rfl

theorem bind_some (first : Traced ε α) (next : α → Traced ε β) (a : α) (done : first.result = some a) :
    first >>= next = ⟨first.trace ++ (next a).trace,(next a).result⟩ := by
  change Traced.bind first next = _
  simp [Traced.bind,done]

theorem bind_none (first : Traced ε α) (next : α → Traced ε β) (stopped : first.result = none) :
    first >>= next = ⟨first.trace,none⟩ := by
  change Traced.bind first next = _
  simp [Traced.bind,stopped]

@[simp] theorem pure_bind (a : α) (next : α → Traced ε β) : (pure a : Traced ε α) >>= next = next a := by
  rw [bind_some _ _ a rfl]
  simp

@[simp] theorem need_some_bind (a : α) (next : α → Traced ε β) : need (some a) >>= next = next a :=
  pure_bind a next

@[simp] theorem emit_bind (events : List ε) (next : Unit → Traced ε β) :
    emit events >>= next = ⟨events ++ (next ()).trace,(next ()).result⟩ := bind_some _ next () rfl

theorem bind_result {first : Traced ε α} {next : α → Traced ε β} {final : β} (done : (first >>= next).result = some final) :
    ∃ value, first.result = some value ∧ (next value).result = some final := by
  cases result : first.result with
  | none =>
    rw [bind_none first next result] at done
    cases done
  | some value =>
    rw [bind_some first next value result] at done
    exact ⟨value,rfl,done⟩

theorem mem_bind (event : ε) (first : Traced ε α) (next : α → Traced ε β) :
    event ∈ (first >>= next).trace ↔
      event ∈ first.trace ∨ ∃ a, first.result = some a ∧ event ∈ (next a).trace := by
  cases result : first.result with
  | none => rw [bind_none first next result]; simp
  | some a => rw [bind_some first next a result]; simp

theorem mem_repeatFrom (body : Nat → α → Traced ε α) (allowed : ε → Prop)
    (emits : ∀ i state, ∀ event ∈ (body i state).trace, allowed event) (start count : Nat) (state : α) :
    ∀ event ∈ (repeatFrom body start count state).trace, allowed event := by
  induction count generalizing start state with
  | zero => simp [repeatFrom]
  | succ count ih =>
    intro event member
    rcases (mem_bind _ _ _).mp member with first | ⟨next,_,later⟩
    · exact emits start state event first
    · exact ih (start+1) next event later

/-- A loop whose body completes from every state of an invariant, with calls that
depend on the pass alone, completes with the calls of its passes in order. -/
theorem repeatFrom_complete (body : Nat → α → Traced ε α) (emits : Nat → List ε) (holds : Nat → α → Prop)
    (pass : ∀ i state, holds i state → ∃ next, holds (i+1) next ∧ body i state = ⟨emits i,some next⟩)
    (start count : Nat) (state : α) (initial : holds start state) :
    ∃ final, holds (start+count) final ∧
      repeatFrom body start count state = ⟨(List.range' start count).flatMap emits,some final⟩ := by
  induction count generalizing start state with
  | zero => exact ⟨state,initial,rfl⟩
  | succ count ih =>
    obtain ⟨next,held,ran⟩ := pass start state initial
    obtain ⟨final,last,rest⟩ := ih (start+1) next held
    refine ⟨final,?_,?_⟩
    · simpa only [Nat.add_assoc,Nat.add_comm 1 count] using last
    · rw [repeatFrom,bind_some _ _ next (by rw [ran]),rest,ran,List.range'_succ,List.flatMap_cons]

theorem repeatFrom_emit (calls : Nat → List ε) (start count : Nat) :
    repeatFrom (fun i _ => emit (calls i)) start count () = emit ((List.range' start count).flatMap calls) := by
  obtain ⟨_,_,ran⟩ := repeatFrom_complete (fun i _ => emit (calls i)) calls (fun _ _ => True)
    (fun _ _ _ => ⟨(),trivial,rfl⟩) start count () trivial
  exact ran

theorem forM_emit (events : List ε) : events.forM (fun event => emit [event]) = emit events := by
  induction events with
  | nil => rfl
  | cons event events ih =>
    change (emit [event] >>= fun _ => events.forM fun event => emit [event]) = _
    rw [ih]
    rfl

end ProtocolTests.Library.CallTrace
