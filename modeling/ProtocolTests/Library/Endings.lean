/-! Programs that end in one of three ways: in behaviour that the language leaves
undefined, with a message, or with a value; and the rules for what such a program ensures. -/
namespace ProtocolTests.Library.Endings

inductive Ending (μ α : Type)
  | undefined
  | exit (message : μ)
  | done (value : α)

variable {μ α β : Type}

def Ending.bind (first : Ending μ α) (next : α → Ending μ β) : Ending μ β :=
  match first with
  | undefined => undefined
  | exit message => exit message
  | done value => next value

instance : Monad (Ending μ) where
  pure := .done
  bind := .bind

/-- Going on without a value that is missing is undefined. -/
def need (value : Option α) : Ending μ α :=
  match value with
  | none => .undefined
  | some value => .done value

/-- Nothing undefined happens, and a value is one of those wanted. -/
def Ends (wanted : α → Prop) : Ending μ α → Prop
  | .undefined => False
  | .exit _ => True
  | .done value => wanted value

theorem ends_bind (first : Ending μ α) (next : α → Ending μ β) (wanted : β → Prop) :
    Ends wanted (first >>= next) ↔ Ends (fun value => Ends wanted (next value)) first := by
  cases first <;> rfl

@[simp] theorem ends_pure (value : α) (wanted : α → Prop) :
    Ends wanted (pure value : Ending μ α) ↔ wanted value := Iff.rfl

theorem ends_need (value : Option α) (wanted : α → Prop) :
    Ends wanted (need value : Ending μ α) ↔ ∃ here, value = some here ∧ wanted here := by
  cases value <;> simp [need,Ends]

theorem bind_done (first : Ending μ α) (next : α → Ending μ β) (value : β) :
    first >>= next = .done value ↔ ∃ here, first = .done here ∧ next here = .done value := by
  constructor
  · intro ran
    cases first with
    | undefined => cases ran
    | exit message => cases ran
    | done here => exact ⟨here,rfl,ran⟩
  · rintro ⟨here,rfl,ran⟩
    exact ran

theorem pure_done (value other : α) : (pure value : Ending μ α) = .done other ↔ other = value :=
  ⟨fun same => (Ending.done.inj same).symm,fun same => congrArg Ending.done same.symm⟩

theorem need_done (value : Option α) (here : α) : (need value : Ending μ α) = .done here ↔ value = some here := by
  cases value with
  | none => simp [need]
  | some value => simp [need]

theorem ends_mono {program : Ending μ α} {wanted weaker : α → Prop} (ends : Ends wanted program)
    (weaken : ∀ value, wanted value → weaker value) : Ends weaker program := by
  cases program with
  | undefined => exact ends
  | exit message => trivial
  | done value => exact weaken value ends

/-- A loop that keeps an invariant in every pass ends with it. -/
theorem ends_foldlM (step : α → β → Ending μ α) (holds : α → Prop)
    (pass : ∀ value item, holds value → Ends holds (step value item)) (items : List β) (start : α)
    (initial : holds start) : Ends holds (items.foldlM step start) := by
  induction items generalizing start with
  | nil => exact initial
  | cons item items ih =>
    rw [List.foldlM_cons,ends_bind]
    exact ends_mono (pass start item initial) ih

end ProtocolTests.Library.Endings
