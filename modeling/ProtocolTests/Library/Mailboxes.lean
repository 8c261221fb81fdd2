import Mathlib.Data.List.Perm.Basic
import ProtocolTests.Library.Media

/-! Messages that keep their boundaries, arrive in any order and may get lost on the way. -/
namespace ProtocolTests.Library.Mailboxes
open Media

structure Mailbox (α : Type) where
  transit : List α
  inbox : List α
  lost : List α
  closed : Bool

inductive Motion
  | deliver (k : Nat)
  | lose (k : Nat)
  deriving DecidableEq

variable {α : Type}

def total (size : α → Nat) : List α → Nat
  | [] => 0
  | item :: items => size item + total size items

@[simp] theorem total_nil (size : α → Nat) : total size [] = 0 := rfl

@[simp] theorem total_cons (size : α → Nat) (item : α) (items : List α) :
    total size (item :: items) = size item + total size items := rfl

@[simp] theorem total_append (size : α → Nat) (first second : List α) :
    total size (first ++ second) = total size first + total size second := by
  induction first with
  | nil => rw [List.nil_append,total_nil,Nat.zero_add]
  | cons item first ih => rw [List.cons_append,total_cons,ih,total_cons,Nat.add_assoc]

theorem total_perm (size : α → Nat) {first second : List α} (same : first.Perm second) :
    total size first = total size second := by
  induction same with
  | nil => rfl
  | cons item _ ih => rw [total_cons,total_cons,ih]
  | swap item other rest => simp only [total_cons,Nat.add_left_comm]
  | trans _ _ before after => exact before.trans after

theorem total_pick (size : α → Nat) {items : List α} {k : Nat} {item : α} (here : items[k]? = some item) :
    total size items = size item + total size (items.eraseIdx k) := by
  induction items generalizing k with
  | nil => cases here
  | cons first items ih =>
    cases k with
    | zero =>
      obtain rfl := Option.some.inj here
      rfl
    | succ k =>
      have inner := ih here
      rw [List.eraseIdx_cons_succ,total_cons,total_cons]
      omega

/-- A read takes one whole message, which has to fit into the buffer. -/
def box (limit : Nat) (size : α → Nat) (lossy : α → Bool) : Medium α (Mailbox α) Motion where
  limit := limit
  size := size
  effort _ := 4
  empty := ⟨[],[],[],false⟩
  put state item := {state with transit := state.transit ++ [item]}
  close state := {state with closed := true}
  closed := Mailbox.closed
  move state
    | .deliver k =>
      match state.transit[k]? with
      | none => none
      | some item => some {state with
          transit := state.transit.eraseIdx k
          inbox := state.inbox ++ [item]}
    | .lose k =>
      match state.transit[k]? with
      | none => none
      | some item =>
        if lossy item then some {state with
          transit := state.transit.eraseIdx k
          lost := state.lost ++ [item]}
        else none
  read state n :=
    match state.inbox with
    | [] => if n = 0 ∧ state.closed = true ∧ state.transit.length = 0 then some state else none
    | item :: rest => if n = size item ∧ n ≤ limit then some {state with inbox := rest} else none
  held state := total size state.transit + total size state.inbox
  lost state := total size state.lost
  work state := 4 * state.transit.length + 2 * state.inbox.length

variable {limit : Nat} {size : α → Nat} {lossy : α → Bool}

/-- A message leaves the network, for the inbox or for good. -/
theorem box_move {state next : Mailbox α} {motion : Motion}
    (moved : (box limit size lossy).move state motion = some next) :
    ∃ k item, state.transit[k]? = some item ∧
      (next = {state with transit := state.transit.eraseIdx k,inbox := state.inbox ++ [item]} ∨
        next = {state with transit := state.transit.eraseIdx k,lost := state.lost ++ [item]}) := by
  cases motion with
  | deliver k =>
    simp only [box] at moved
    split at moved
    next => cases moved
    next item here => exact ⟨k,item,here,Or.inl (Option.some.inj moved).symm⟩
  | lose k =>
    simp only [box] at moved
    split at moved
    next => cases moved
    next item here =>
      obtain ⟨_,same⟩ := Option.ite_none_right_eq_some.mp moved
      exact ⟨k,item,here,Or.inr (Option.some.inj same).symm⟩

theorem box_read {state next : Mailbox α} {n : Nat}
    (read : (box limit size lossy).read state n = some next) :
    (state.inbox = [] ∧ n = 0 ∧ state.closed = true ∧ state.transit = [] ∧ next = state) ∨
      ∃ item rest, state.inbox = item :: rest ∧ n = size item ∧ n ≤ limit ∧ next = {state with inbox := rest} := by
  simp only [box] at read
  split at read
  next nothing =>
    obtain ⟨⟨zero,closed,transit⟩,same⟩ := Option.ite_none_right_eq_some.mp read
    exact Or.inl ⟨nothing,zero,closed,List.length_eq_zero_iff.mp transit,(Option.some.inj same).symm⟩
  next item rest shape =>
    obtain ⟨⟨whole,small⟩,same⟩ := Option.ite_none_right_eq_some.mp read
    exact Or.inr ⟨item,rest,shape,whole,small,(Option.some.inj same).symm⟩

variable (limit size) in
/-- A read returns the message, and it is not taken for the end. -/
def Fits (item : α) : Prop := 0 < size item ∧ size item ≤ limit

variable (limit size) in
def Readable (state : Mailbox α) : Prop := ∀ item, item ∈ state.transit ∨ item ∈ state.inbox → Fits limit size item

theorem box_ready (state : Mailbox α) : (box limit size lossy).Ready state ↔
    (∃ item rest, state.inbox = item :: rest ∧ size item ≤ limit) ∨
      state.inbox = [] ∧ state.closed = true ∧ state.transit = [] := by
  constructor
  · rintro ⟨n,_,possible⟩
    obtain ⟨next,read⟩ := Option.isSome_iff_exists.mp possible
    rcases box_read read with ⟨nothing,_,closed,transit,_⟩ | ⟨item,rest,shape,rfl,small,_⟩
    · exact Or.inr ⟨nothing,closed,transit⟩
    · exact Or.inl ⟨item,rest,shape,small⟩
  · rintro (⟨item,rest,shape,small⟩ | ⟨nothing,closed,transit⟩)
    · refine ⟨size item,small,?_⟩
      simp [box,shape,small]
    · refine ⟨0,Nat.zero_le _,?_⟩
      simp [box,nothing,closed,transit]

theorem readable_move {state next : Mailbox α} {motion : Motion} (readable : Readable limit size state)
    (moved : (box limit size lossy).move state motion = some next) : Readable limit size next := by
  obtain ⟨k,item,here,rfl | rfl⟩ := box_move moved
  · rintro other (transit | inbox)
    · exact readable other (Or.inl (List.mem_of_mem_eraseIdx transit))
    · rcases List.mem_append.mp inbox with before | new
      · exact readable other (Or.inr before)
      · exact readable other (Or.inl (List.mem_singleton.mp new ▸ List.mem_of_getElem? here))
  · rintro other (transit | inbox)
    · exact readable other (Or.inl (List.mem_of_mem_eraseIdx transit))
    · exact readable other (Or.inr inbox)

theorem readable_put {state : Mailbox α} {item : α} (readable : Readable limit size state)
    (fits : Fits limit size item) :
    Readable limit size ((box limit size lossy).put state item) := by
  rintro other (transit | inbox)
  · rcases List.mem_append.mp transit with before | new
    · exact readable other (Or.inl before)
    · exact List.mem_singleton.mp new ▸ fits
  · exact readable other (Or.inr inbox)

theorem box_behaves : Behaves (box limit size lossy) (Fits limit size) (Readable limit size) where
  closed_empty := rfl
  closed_put _ _ := rfl
  closed_close _ := rfl
  closed_move := by
    intro state motion next moved
    obtain ⟨k,item,here,rfl | rfl⟩ := box_move moved <;> rfl
  closed_read := by
    intro state n next read
    rcases box_read read with ⟨_,_,_,_,rfl⟩ | ⟨_,_,_,_,_,rfl⟩ <;> rfl
  intact_empty := by
    rintro item (transit | inbox)
    · cases transit
    · cases inbox
  intact_put _ _ readable fits := readable_put readable fits
  intact_close _ readable := readable
  intact_move _ _ _ readable moved := readable_move readable moved
  intact_read := by
    intro state n next readable read
    rcases box_read read with ⟨_,_,_,_,rfl⟩ | ⟨item,rest,shape,_,_,rfl⟩
    · exact readable
    · rintro other (transit | inbox)
      · exact readable other (Or.inl transit)
      · exact readable other (Or.inr (by rw [shape]; exact List.mem_cons_of_mem _ inbox))
  held_empty := ⟨rfl,rfl⟩
  held_put state item := by
    simp only [box,total_append,total_cons,total_nil]
    omega
  held_close _ := ⟨rfl,rfl⟩
  held_move := by
    intro state motion next moved
    obtain ⟨k,item,here,rfl | rfl⟩ := box_move moved
    all_goals
      have picked := total_pick size here
      simp only [box,total_append,total_cons,total_nil]
      omega
  held_read := by
    intro state n next read
    rcases box_read read with ⟨_,rfl,_,_,rfl⟩ | ⟨item,rest,shape,rfl,_,rfl⟩
    · exact ⟨rfl,rfl⟩
    · refine ⟨?_,rfl⟩
      simp only [box,shape,total_cons]
      omega
  read_limit := by
    intro state n next read
    rcases box_read read with ⟨_,rfl,_⟩ | ⟨_,_,_,_,small,_⟩
    · exact Nat.zero_le _
    · exact small
  read_zero := by
    intro state next readable read
    rcases box_read read with ⟨nothing,_,closed,transit,_⟩ | ⟨item,rest,shape,zero,_⟩
    · exact ⟨closed,by simp [box,nothing,transit]⟩
    · have some_bytes := (readable item (Or.inr (by rw [shape]; exact List.mem_cons_self))).1
      omega
  work_put state item := by
    simp only [box,List.length_append,List.length_singleton]
    omega
  work_close _ := Nat.le_refl _
  work_move := by
    intro state motion next moved
    obtain ⟨k,item,here,rfl | rfl⟩ := box_move moved
    all_goals
      have inside := (List.getElem?_eq_some_iff.mp here).1
      simp only [box,List.length_eraseIdx_of_lt inside,List.length_append,List.length_singleton]
      omega
  work_read := by
    intro state n next read
    rcases box_read read with ⟨_,rfl,_,_,rfl⟩ | ⟨item,rest,shape,_,_,rfl⟩
    · exact ⟨Nat.le_refl _,fun nonzero => absurd rfl nonzero⟩
    · simp only [box,shape,List.length_cons]
      omega
  ready_put := by
    intro state item open_still ready
    rw [box_ready] at ready ⊢
    have same : ((box limit size lossy).put state item).inbox = state.inbox := rfl
    rw [same]
    refine Or.inl (ready.resolve_right fun ended => ?_)
    rw [show state.closed = false from open_still] at ended
    cases ended.2.1
  ready_close := by
    intro state ready
    rw [box_ready] at ready ⊢
    exact ready.imp_right fun ended => ⟨ended.1,rfl,ended.2.2⟩
  ready_move := by
    intro state motion next moved ready
    rw [box_ready] at ready ⊢
    obtain ⟨k,item,here,same⟩ := box_move moved
    rcases ready with ⟨first,rest,shape,small⟩ | ⟨_,_,transit⟩
    · rcases same with rfl | rfl
      · exact Or.inl ⟨first,rest ++ [item],by rw [shape]; rfl,small⟩
      · exact Or.inl ⟨first,rest,shape,small⟩
    · rw [transit] at here
      cases here
  live := by
    intro state readable closed
    rw [box_ready]
    cases inbox : state.inbox with
    | cons item rest =>
      exact Or.inl (Or.inl ⟨item,rest,rfl,(readable item (Or.inr (by rw [inbox]; exact List.mem_cons_self))).2⟩)
    | nil =>
      cases transit : state.transit with
      | nil => exact Or.inl (Or.inr ⟨rfl,closed,rfl⟩)
      | cons item rest => exact Or.inr ⟨.deliver 0,_,by simp only [box,transit]; rfl⟩
  still motion := by
    cases motion <;> rfl

/-- Everything that was put in and not read. -/
def mail (state : Mailbox α) : List α := state.inbox ++ state.transit ++ state.lost

theorem transit_mail {state : Mailbox α} {item : α} (inside : item ∈ state.transit) : item ∈ mail state :=
  List.mem_append_left _ (List.mem_append_right _ inside)

theorem put_mail (state : Mailbox α) (item : α) :
    (mail ((box limit size lossy).put state item)).Perm (item :: mail state) := by
  have middle : (state.inbox ++ (state.transit ++ [item]) ++ state.lost).Perm
      (item :: (state.inbox ++ state.transit ++ state.lost)) := by
    rw [← List.append_assoc,List.append_assoc _ [item],List.singleton_append]
    exact List.perm_middle
  exact middle

theorem move_mail {state next : Mailbox α} {motion : Motion}
    (moved : (box limit size lossy).move state motion = some next) : (mail next).Perm (mail state) := by
  obtain ⟨k,item,here,same⟩ := box_move moved
  obtain ⟨inside,rfl⟩ := List.getElem?_eq_some_iff.mp here
  have picked := List.getElem_cons_eraseIdx_perm inside
  rcases same with rfl | rfl
  · simp only [mail,List.append_assoc,List.singleton_append]
    exact (picked.append_right _).append_left _
  · simp only [mail,List.append_assoc]
    refine (List.Perm.trans ?_ (picked.append_right _)).append_left _
    rw [← List.append_assoc]
    exact List.perm_append_singleton _ _

theorem read_mail {state next : Mailbox α} {item : α} {n : Nat} (first : state.inbox.head? = some item)
    (read : (box limit size lossy).read state n = some next) : mail state = item :: mail next := by
  rcases box_read read with ⟨nothing,_⟩ | ⟨other,rest,shape,_,_,rfl⟩
  · rw [nothing] at first
    cases first
  · rw [shape] at first
    obtain rfl := Option.some.inj first
    rw [mail,shape]
    rfl

variable (limit size lossy) in
/-- Nothing that can still be read can get lost, and nothing has been. -/
def Whole (state : Mailbox α) : Prop :=
  Readable limit size state ∧ (∀ item ∈ state.transit, lossy item = false) ∧ state.lost = []

theorem whole_move {state next : Mailbox α} {motion : Motion} (whole : Whole limit size lossy state)
    (moved : (box limit size lossy).move state motion = some next) : Whole limit size lossy next := by
  obtain ⟨readable,kept,lost⟩ := whole
  refine ⟨readable_move readable moved,?_⟩
  cases motion with
  | deliver k =>
    simp only [box] at moved
    split at moved
    next => cases moved
    next item here =>
      obtain rfl := Option.some.inj moved
      exact ⟨fun other transit => kept other (List.mem_of_mem_eraseIdx transit),lost⟩
  | lose k =>
    simp only [box] at moved
    split at moved
    next => cases moved
    next item here =>
      obtain ⟨lossy_item,_⟩ := Option.ite_none_right_eq_some.mp moved
      rw [kept item (List.mem_of_getElem? here)] at lossy_item
      cases lossy_item

/-- Where no message may get lost, all of them arrive. -/
theorem box_whole : Behaves (box limit size lossy)
    (fun item => Fits limit size item ∧ lossy item = false) (Whole limit size lossy) :=
  have readable : Behaves (box limit size lossy) (Fits limit size) (Readable limit size) := box_behaves
  {readable with
    intact_empty := ⟨readable.intact_empty,fun _ nothing => (List.not_mem_nil nothing).elim,rfl⟩
    intact_put := by
      rintro state item ⟨before,kept,lost⟩ ⟨fits,safe⟩
      refine ⟨readable_put before fits,fun other member => ?_,lost⟩
      rcases List.mem_append.mp member with old | new
      · exact kept other old
      · exact List.mem_singleton.mp new ▸ safe
    intact_close := fun _ whole => whole
    intact_move := fun _ _ _ whole moved => whole_move whole moved
    intact_read := by
      rintro state n next ⟨before,kept,lost⟩ read
      refine ⟨readable.intact_read _ _ _ before read,?_⟩
      rcases box_read read with ⟨_,_,_,_,rfl⟩ | ⟨item,rest,shape,_,_,rfl⟩ <;> exact ⟨kept,lost⟩
    read_zero := fun state next whole read => readable.read_zero state next whole.1 read
    live := fun state whole closed => readable.live state whole.1 closed}

end ProtocolTests.Library.Mailboxes
