import ProtocolTests.Library.CallTrace

/-! Programs that go on by the answers to their calls. The answers are any list, and a program
waits where it has used them up. -/
namespace ProtocolTests.Library.Dialogue
open Programs CallTrace

inductive Outcome (κ ρ α : Type)
  | returned (value : α) (rest : List ρ)
  | exited
  | undefined
  | waiting (call : κ)

/-- The answered calls of a program, and how far it comes with them. -/
structure Run (κ ρ α : Type) where
  events : List (κ × ρ)
  outcome : Outcome κ ρ α

def Talk (κ ρ α : Type) : Type := List ρ → Run κ ρ α

variable {ε κ ρ σ α β : Type}

def Run.andThen (run : Run κ ρ α) (next : α → Talk κ ρ β) : Run κ ρ β :=
  match run.outcome with
  | .returned value rest => ⟨run.events ++ (next value rest).events,(next value rest).outcome⟩
  | .exited => ⟨run.events,.exited⟩
  | .undefined => ⟨run.events,.undefined⟩
  | .waiting call => ⟨run.events,.waiting call⟩

instance : Monad (Talk κ ρ) where
  pure value := fun replies => ⟨[],.returned value replies⟩
  bind first next := fun replies => (first replies).andThen next

instance : Stopping (Talk κ ρ) where
  stop := fun _ => ⟨[],.undefined⟩

@[simp] theorem pure_bind (value : α) (next : α → Talk κ ρ β) : (pure value : Talk κ ρ α) >>= next = next value := rfl

def exit : Talk κ ρ α := fun _ => ⟨[],.exited⟩

/-- `do reply = call(); while (again(reply));` -/
def askWhile (again : ρ → Bool) (call : κ) : Talk κ ρ ρ
  | [] => ⟨[],.waiting call⟩
  | reply :: rest =>
    if again reply then
      let later := askWhile again call rest
      ⟨(call,reply) :: later.events,later.outcome⟩
    else ⟨[(call,reply)],.returned reply rest⟩

section rules
variable (again fatal spoils : κ → ρ → Bool)

/-- A call that is made again for some answers, and whose last answer may end the program. -/
def attempt (call : κ) : Talk κ ρ ρ := do
  let reply ← askWhile (again call) call
  if fatal call reply then exit else return reply

/-- The calls without those that are made again for their answer. -/
def settled (events : List (κ × ρ)) : List κ := (events.filter fun event => !again event.1 event.2).map Prod.fst

@[simp] theorem settled_nil : settled again [] = [] := rfl

@[simp] theorem settled_append (first second : List (κ × ρ)) :
    settled again (first ++ second) = settled again first ++ settled again second := by
  simp [settled]

def Calm (events : List (κ × ρ)) : Prop := ∀ event ∈ events, fatal event.1 event.2 = false

/-- An answer after which the program may go wrong. -/
def Spoiled (events : List (κ × ρ)) : Prop := ∃ event ∈ events, spoils event.1 event.2 = true

/-- A run that makes the given calls to its end, or waits on the way, or exits at a fatal answer
within the limit, or is undefined behind an answer that spoils it. Without a limit it never exits.
`spoiled` says whether there has been such an answer before, and `post` what holds in the end, by
whether there has been one at all. -/
inductive Keeps (limit : Option (List κ)) (calls : List κ) (spoiled : Prop) (post : Prop → α → Prop) (replies : List ρ) :
    Run κ ρ α → Prop
  | returned (events : List (κ × ρ)) (rest : List ρ) (value : α) (broken : Prop) (all : settled again events = calls)
      (calm : Calm fatal events) (used : replies = events.map Prod.snd ++ rest)
      (cause : broken → spoiled ∨ Spoiled spoils events) (holds : post broken value) :
      Keeps limit calls spoiled post replies ⟨events,.returned value rest⟩
  | exited (before : List (κ × ρ)) (last : κ × ρ) (rest : List ρ) (within : List κ) (limited : limit = some within)
      (part : settled again (before ++ [last]) <+: within) (calm : Calm fatal before)
      (bad : fatal last.1 last.2 = true) (used : replies = (before ++ [last]).map Prod.snd ++ rest) :
      Keeps limit calls spoiled post replies ⟨before ++ [last],.exited⟩
  | waiting (events : List (κ × ρ)) (call : κ) (part : settled again events ++ [call] <+: calls)
      (calm : Calm fatal events) (used : replies = events.map Prod.snd) :
      Keeps limit calls spoiled post replies ⟨events,.waiting call⟩
  | undefined (events : List (κ × ρ)) (rest : List ρ) (part : settled again events <+: calls) (calm : Calm fatal events)
      (used : replies = events.map Prod.snd ++ rest) (cause : spoiled ∨ Spoiled spoils events) :
      Keeps limit calls spoiled post replies ⟨events,.undefined⟩

def Follows (limit : Option (List κ)) (talk : Talk κ ρ α) (calls : List κ) (spoiled : Prop) (post : Prop → α → Prop) :
    Prop :=
  ∀ replies, Keeps again fatal spoils limit calls spoiled post replies (talk replies)

variable {again fatal spoils} {limit : Option (List κ)} {calls : List κ} {spoiled : Prop} {post : Prop → α → Prop}

theorem calm_nil : Calm fatal [] := fun _ nothing => absurd nothing List.not_mem_nil

theorem calm_single {call : κ} {reply : ρ} (harmless : fatal call reply = false) : Calm fatal [(call,reply)] := by
  intro event member
  rw [List.mem_singleton.mp member]
  exact harmless

theorem calm_append {first second : List (κ × ρ)} (calm : Calm fatal first) (later : Calm fatal second) :
    Calm fatal (first ++ second) := by
  intro event member
  rcases List.mem_append.mp member with early | late
  · exact calm event early
  · exact later event late

theorem spoiled_append {first second : List (κ × ρ)} :
    Spoiled spoils (first ++ second) ↔ Spoiled spoils first ∨ Spoiled spoils second := by
  simp only [Spoiled,List.mem_append,or_and_right,exists_or]

theorem follows_pure {value : α} (holds : post spoiled value) :
    Follows again fatal spoils limit (pure value : Talk κ ρ α) [] spoiled post := fun replies =>
  .returned [] replies value spoiled rfl calm_nil rfl Or.inl holds

theorem follows_stop (already : spoiled) : Follows again fatal spoils limit (Stopping.stop : Talk κ ρ α) calls spoiled post :=
  fun replies => .undefined [] replies List.nil_prefix calm_nil rfl (Or.inl already)

theorem Follows.mono {talk : Talk κ ρ α} {weaker : Prop → α → Prop}
    (follows : Follows again fatal spoils limit talk calls spoiled post)
    (weakens : ∀ broken value, post broken value → weaker broken value) :
    Follows again fatal spoils limit talk calls spoiled weaker := by
  intro replies
  have kept := follows replies
  generalize talk replies = run at kept
  cases kept with
  | returned events rest value broken all calm used cause holds =>
    exact .returned events rest value broken all calm used cause (weakens broken value holds)
  | exited before last rest inside limited part calm bad used =>
    exact .exited before last rest inside limited part calm bad used
  | waiting events call part calm used => exact .waiting events call part calm used
  | undefined events rest part calm used cause => exact .undefined events rest part calm used cause

/-- An exit of the second part comes behind all calls of the first. -/
theorem follows_bind {first : Talk κ ρ α} {next : α → Talk κ ρ β} {early late : Option (List κ)} {more : List κ}
    {final : Prop → β → Prop} (follows : Follows again fatal spoils early first calls spoiled post)
    (later : ∀ broken value, post broken value → Follows again fatal spoils late (next value) more broken final)
    (soon : ∀ within, early = some within → ∃ wider, limit = some wider ∧ within <+: wider)
    (afterwards : ∀ within, late = some within → ∃ wider, limit = some wider ∧ calls ++ within <+: wider) :
    Follows again fatal spoils limit (first >>= next) (calls ++ more) spoiled final := by
  intro replies
  change Keeps again fatal spoils limit _ _ _ _ ((first replies).andThen next)
  have start := follows replies
  generalize first replies = run at start
  cases start with
  | returned events rest value broken all calm used cause holds =>
    have ending := later broken value holds rest
    have blame {others : List (κ × ρ)} (found : broken ∨ Spoiled spoils others) :
        spoiled ∨ Spoiled spoils (events ++ others) := by
      rw [spoiled_append]
      rcases found with before | here
      · exact or_assoc.mp (Or.inl (cause before))
      · exact Or.inr (Or.inr here)
    simp only [Run.andThen]
    generalize next value rest = run at ending
    cases ending with
    | returned others left value broken' whole quiet spent cause' holds' =>
      refine .returned _ left value broken' ?_ (calm_append calm quiet) ?_ (fun found => blame (cause' found)) holds'
      · rw [settled_append,all,whole]
      · rw [used,spent,List.map_append,List.append_assoc]
    | exited before last left within limited part quiet bad spent =>
      obtain ⟨wider,same,prefixed⟩ := afterwards within limited
      simp only [← List.append_assoc]
      refine .exited _ last left wider same ?_ (calm_append calm quiet) bad ?_
      · rw [List.append_assoc,settled_append,all]
        exact ((List.prefix_append_right_inj calls).mpr part).trans prefixed
      · rw [used,spent,List.append_assoc events,← List.append_assoc,← List.map_append]
    | waiting others call part quiet spent =>
      refine .waiting _ call ?_ (calm_append calm quiet) ?_
      · rw [settled_append,all,List.append_assoc]
        exact (List.prefix_append_right_inj calls).mpr part
      · rw [used,spent,List.map_append]
    | undefined others left part quiet spent cause' =>
      refine .undefined _ left ?_ (calm_append calm quiet) ?_ (blame cause')
      · rw [settled_append,all]
        exact (List.prefix_append_right_inj calls).mpr part
      · rw [used,spent,List.map_append,List.append_assoc]
  | exited before last rest within limited part calm bad used =>
    obtain ⟨wider,same,prefixed⟩ := soon within limited
    exact .exited before last rest wider same (part.trans prefixed) calm bad used
  | waiting events call part calm used => exact .waiting events call (part.trans (List.prefix_append _ _)) calm used
  | undefined events rest part calm used cause =>
    exact .undefined events rest (part.trans (List.prefix_append _ _)) calm used cause

/-- Behind a part that may exit comes one that never does. -/
theorem follows_steady {first : Talk κ ρ α} {next : α → Talk κ ρ β} {more : List κ} {final : Prop → β → Prop}
    (follows : Follows again fatal spoils limit first calls spoiled post)
    (later : ∀ broken value, post broken value → Follows again fatal spoils none (next value) more broken final) :
    Follows again fatal spoils limit (first >>= next) (calls ++ more) spoiled final :=
  follows_bind follows later (fun within limited => ⟨within,limited,List.prefix_rfl⟩) fun _ nothing => by cases nothing

theorem follows_both {first : Talk κ ρ α} {next : α → Talk κ ρ β} {more within : List κ} {final : Prop → β → Prop}
    (follows : Follows again fatal spoils (some calls) first calls spoiled post)
    (later : ∀ broken value, post broken value → Follows again fatal spoils (some within) (next value) more broken final) :
    Follows again fatal spoils (some (calls ++ within)) (first >>= next) (calls ++ more) spoiled final := by
  refine follows_bind follows later (fun early limited => ⟨_,rfl,?_⟩) fun late limited => ⟨_,rfl,?_⟩
  · rw [← Option.some.inj limited]
    exact List.prefix_append _ _
  · exact ⟨[],(List.append_nil _).trans (congrArg (calls ++ ·) (Option.some.inj limited).symm)⟩

/-- What is done with the value of a program makes no calls. -/
theorem follows_map {talk : Talk κ ρ α} {next : α → Talk κ ρ β} {final : Prop → β → Prop}
    (follows : Follows again fatal spoils limit talk calls spoiled post)
    (later : ∀ broken value, post broken value → Follows again fatal spoils none (next value) [] broken final) :
    Follows again fatal spoils limit (talk >>= next) calls spoiled final := by
  have both := follows_steady follows later
  rwa [List.append_nil] at both

theorem andThen_cons (event : κ × ρ) (run : Run κ ρ α) (next : α → Talk κ ρ β) :
    Run.andThen ⟨event :: run.events,run.outcome⟩ next =
      ⟨event :: (run.andThen next).events,(run.andThen next).outcome⟩ := by
  unfold Run.andThen
  cases run.outcome <;> rfl

theorem keeps_again {call : κ} {reply : ρ} {replies : List ρ} {run : Run κ ρ α} (retried : again call reply = true)
    (harmless : fatal call reply = false) (keeps : Keeps again fatal spoils limit calls spoiled post replies run) :
    Keeps again fatal spoils limit calls spoiled post (reply :: replies) ⟨(call,reply) :: run.events,run.outcome⟩ := by
  have skipped (events : List (κ × ρ)) : settled again ((call,reply) :: events) = settled again events := by
    simp [settled,retried]
  have still {events : List (κ × ρ)} (calm : Calm fatal events) : Calm fatal ((call,reply) :: events) :=
    List.forall_mem_cons.mpr ⟨harmless,calm⟩
  have blame {events : List (κ × ρ)} (found : spoiled ∨ Spoiled spoils events) :
      spoiled ∨ Spoiled spoils ((call,reply) :: events) :=
    found.imp id fun ⟨event,member,bad⟩ => ⟨event,List.mem_cons_of_mem _ member,bad⟩
  cases keeps with
  | returned events rest value broken all calm used cause holds =>
    exact .returned _ rest value broken ((skipped events).trans all) (still calm) (by rw [used]; rfl)
      (fun found => blame (cause found)) holds
  | exited before last rest within limited part calm bad used =>
    refine .exited ((call,reply) :: before) last rest within limited ?_ (still calm) bad (by rw [used]; rfl)
    rw [List.cons_append,skipped]
    exact part
  | waiting events request part calm used =>
    refine .waiting _ request ?_ (still calm) (by rw [used]; rfl)
    rw [skipped]
    exact part
  | undefined events rest part calm used cause =>
    refine .undefined _ rest ?_ (still calm) (by rw [used]; rfl) (blame cause)
    rw [skipped]
    exact part

/-- The limit of a part that may leave the program on its way, or of one that never does. -/
def within (leaves : Bool) (calls : List κ) : Option (List κ) := if leaves then some calls else none

/-- However often the call is made again, it counts once. -/
theorem follows_attempt {leaves : Bool} {call : κ}
    (patient : ∀ reply, again call reply = true → fatal call reply = false)
    (harmless : leaves = false → ∀ reply, fatal call reply = false) :
    Follows again fatal spoils (within leaves [call]) (attempt again fatal call) [call] spoiled
      fun broken reply => (spoiled → broken) ∧ (spoils call reply = true → broken) := by
  intro replies
  change Keeps again fatal spoils _ _ _ _ _ ((askWhile (again call) call replies).andThen _)
  induction replies with
  | nil => exact .waiting [] call List.prefix_rfl calm_nil rfl
  | cons reply rest ih =>
    rw [askWhile]
    cases retried : again call reply with
    | true =>
      have later := keeps_again retried (patient reply retried) ih
      rw [← andThen_cons] at later
      exact later
    | false =>
      have one : settled again [(call,reply)] = [call] := by simp [settled,retried]
      simp only [Bool.false_eq_true,if_false,Run.andThen]
      cases bad : fatal call reply with
      | true =>
        cases leaves with
        | false => exact absurd bad (by simp [harmless rfl])
        | true =>
          exact .exited [] (call,reply) rest [call] rfl ⟨[],(List.append_nil _).trans one⟩ calm_nil bad rfl
      | false =>
        exact .returned [(call,reply)] rest reply (spoiled ∨ spoils call reply = true) one (calm_single bad) rfl
          (fun found => found.imp id fun wrong => ⟨_,List.mem_singleton_self _,wrong⟩) ⟨Or.inl,Or.inr⟩

theorem follows_within {leaves : Bool} {inside : List κ} {talk : Talk κ ρ α}
    (follows : Follows again fatal spoils (within leaves inside) talk calls spoiled post) :
    Follows again fatal spoils (some inside) talk calls spoiled post := by
  cases leaves with
  | true => exact follows
  | false =>
    intro replies
    have kept := follows replies
    generalize talk replies = run at kept
    cases kept with
    | returned events rest value broken all calm used cause holds =>
      exact .returned events rest value broken all calm used cause holds
    | exited before last rest inside limited part calm bad used => cases limited
    | waiting events call part calm used => exact .waiting events call part calm used
    | undefined events rest part calm used cause => exact .undefined events rest part calm used cause

theorem follows_stays {talk : Talk κ ρ α} (follows : Follows again fatal spoils none talk calls spoiled post)
    (replies : List ρ) : (talk replies).outcome ≠ .exited := by
  have kept := follows replies
  intro left
  generalize talk replies = run at kept left
  cases kept with
  | exited before last rest inside limited part calm bad used => cases limited
  | _ => cases left

/-- A loop that passes nothing on but a state of the program. -/
theorem follows_loop (leaves : Bool) {body : Nat → StateT σ (Talk κ ρ) Unit} {made : Nat → List κ}
    (holds : Nat → Prop → σ → Prop)
    (pass : ∀ i broken state, holds i broken state → Follows again fatal spoils (within leaves (made i)) (body i state)
      (made i) broken fun broken final => holds (i+1) broken final.2)
    (start count : Nat) (state : σ) (initial : holds start spoiled state) :
    Follows again fatal spoils (within leaves ((List.range' start count).flatMap made))
      (repeatFrom (fun i _ => body i) start count () state) ((List.range' start count).flatMap made) spoiled
      fun broken final => holds (start+count) broken final.2 := by
  induction count generalizing start state spoiled with
  | zero => exact follows_pure initial
  | succ count ih =>
    have later (broken : Prop) (final : Unit × σ) (held : holds (start+1) broken final.2) :
        Follows again fatal spoils (within leaves ((List.range' (start+1) count).flatMap made))
          (repeatFrom (fun i _ => body i) (start+1) count () final.2) ((List.range' (start+1) count).flatMap made) broken
          fun broken final => holds (start+(count+1)) broken final.2 := by
      have rest := ih (start+1) final.2 held
      rwa [Nat.add_assoc,Nat.add_comm 1 count] at rest
    rw [List.range'_succ,List.flatMap_cons]
    cases leaves with
    | true => exact follows_both (pass start spoiled state initial) later
    | false => exact follows_steady (pass start spoiled state initial) later

/-- A program that waits has not got enough answers that let it go on. -/
theorem follows_answered {talk : Talk κ ρ α} (follows : Follows again fatal spoils limit talk calls spoiled post)
    (settling : ρ → Bool) (goes : ∀ call reply, settling reply = true → again call reply = false) (replies : List ρ)
    (many : calls.length ≤ (replies.filter settling).length) (call : κ) : (talk replies).outcome ≠ .waiting call := by
  have kept := follows replies
  intro waits
  generalize talk replies = run at kept waits
  cases kept with
  | waiting events request part calm used =>
    have shorter := part.length_le
    have fewer : (replies.filter settling).length ≤ (settled again events).length := by
      rw [used,settled,List.length_map,List.filter_map,List.length_map]
      exact (List.monotone_filter_right events fun event settles => by simp [goes _ _ settles]).length_le
    rw [List.length_append,List.length_singleton] at shorter
    omega
  | _ => cases waits

/-- Against any answers a program with a state does what another one does that takes no notice of them. -/
def Mirrors (again fatal spoils : κ → ρ → Bool) (embed : ε → κ) (holds : Prop → σ → Prop) (static : Traced ε α)
    (talk : StateT σ (Talk κ ρ) α) : Prop :=
  ∀ value, static.result = some value → ∀ broken state, holds broken state →
    Follows again fatal spoils none (talk state) (static.trace.map embed) broken
      fun broken final => final.1 = value ∧ holds broken final.2

section mirrors
variable {embed : ε → κ} {holds : Prop → σ → Prop}

theorem mirrors_pure (value : α) : Mirrors again fatal spoils embed holds (pure value) (pure value) := by
  intro result same broken state held
  obtain rfl := Option.some.inj same
  exact @follows_pure κ ρ _ again fatal spoils none broken _ (value,state) ⟨rfl,held⟩

/-- The second part may rest on what the first one has as its result. -/
theorem mirrors_bind {first : Traced ε α} {next : α → Traced ε β} {talk : StateT σ (Talk κ ρ) α}
    {later : α → StateT σ (Talk κ ρ) β} (mirrors : Mirrors again fatal spoils embed holds first talk)
    (rest : ∀ value, first.result = some value → Mirrors again fatal spoils embed holds (next value) (later value)) :
    Mirrors again fatal spoils embed holds (first >>= next) (talk >>= later) := by
  intro final done broken state held
  cases result : first.result with
  | none =>
    rw [bind_none first next result] at done
    cases done
  | some value =>
    rw [bind_some first next value result] at done ⊢
    rw [List.map_append]
    refine @follows_steady κ ρ _ _ again fatal spoils _ _ _ _ (talk state) (fun (value,state) => later value state) _ _
      (mirrors value result broken state held) ?_
    rintro broken ⟨value',state⟩ ⟨same,held⟩
    obtain rfl : value' = value := same
    exact rest value' result final done broken state held

theorem mirrors_need (value : Option α) : Mirrors again fatal spoils embed holds (need value) (need value) := by
  cases value with
  | none =>
    intro here found
    cases found
  | some value => exact mirrors_pure value

theorem mirrors_require (condition : Prop) [Decidable condition] :
    Mirrors again fatal spoils embed holds (require condition) (require condition) := by
  by_cases met : condition
  · rw [require_true condition met,require_true condition met]
    exact mirrors_pure ()
  · intro value done
    rw [require_false condition met] at done
    cases done

theorem mirrors_emit {talk : StateT σ (Talk κ ρ) Unit} {made : List ε}
    (follows : ∀ broken state, holds broken state → Follows again fatal spoils none (talk state) (made.map embed) broken
      fun broken final => holds broken final.2) : Mirrors again fatal spoils embed holds (emit made) talk := by
  intro _ _ broken state held
  exact (follows broken state held).mono fun broken final held => ⟨rfl,held⟩

theorem mirrors_forM {call : ε → StateT σ (Talk κ ρ) Unit} (events : List ε)
    (mirrors : ∀ event ∈ events, Mirrors again fatal spoils embed holds (emit [event]) (call event)) :
    Mirrors again fatal spoils embed holds (emit events) (events.forM call) := by
  rw [← forM_emit]
  induction events with
  | nil => exact mirrors_pure ()
  | cons event events ih =>
    have rest := ih fun other member => mirrors other (List.mem_cons_of_mem _ member)
    exact mirrors_bind (mirrors event List.mem_cons_self) fun _ _ => rest

theorem mirrors_repeatFrom {body : Nat → α → Traced ε α} {pass : Nat → α → StateT σ (Talk κ ρ) α} (kept : α → Prop)
    (keeps : ∀ i state next, kept state → (body i state).result = some next → kept next)
    (mirrors : ∀ i state, kept state → Mirrors again fatal spoils embed holds (body i state) (pass i state))
    (start count : Nat) (state : α) (initial : kept state) :
    Mirrors again fatal spoils embed holds (repeatFrom body start count state) (repeatFrom pass start count state) := by
  induction count generalizing start state with
  | zero => exact mirrors_pure state
  | succ count ih =>
    exact mirrors_bind (mirrors start state initial) fun next result => ih (start+1) next (keeps start state next initial result)

end mirrors

end rules

end ProtocolTests.Library.Dialogue
