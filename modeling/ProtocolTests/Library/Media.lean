import ProtocolTests.Library.Pipe

/-! One direction of a connection, as its two ends see it. Items are put in at one end, the
network moves them on by itself, and a read at the other end returns some number of bytes,
where a read of zero bytes says that nothing will come any more. -/
namespace ProtocolTests.Library.Media

/-- `limit` is the size of the buffer of a read, and `work` bounds the moves and reads
that are still to come. -/
structure Medium (α μ ν : Type) where
  limit : Nat
  size : α → Nat
  effort : α → Nat
  empty : μ
  put : μ → α → μ
  close : μ → μ
  closed : μ → Bool
  move : μ → ν → Option μ
  read : μ → Nat → Option μ
  held : μ → Nat
  lost : μ → Nat
  work : μ → Nat

namespace Medium
variable {α μ ν : Type} (medium : Medium α μ ν)

def Ready (state : μ) : Prop := ∃ n ≤ medium.limit, (medium.read state n).isSome

end Medium

/-- What programs may rely on, where `intact` holds as long as only admitted items are put in. -/
structure Behaves {α μ ν : Type} (medium : Medium α μ ν) (admitted : α → Prop) (intact : μ → Prop) : Prop where
  closed_empty : medium.closed medium.empty = false
  closed_put : ∀ state item, medium.closed (medium.put state item) = medium.closed state
  closed_close : ∀ state, medium.closed (medium.close state) = true
  closed_move : ∀ state motion next, medium.move state motion = some next → medium.closed next = medium.closed state
  closed_read : ∀ state n next, medium.read state n = some next → medium.closed next = medium.closed state
  intact_empty : intact medium.empty
  intact_put : ∀ state item, intact state → admitted item → intact (medium.put state item)
  intact_close : ∀ state, intact state → intact (medium.close state)
  intact_move : ∀ state motion next, intact state → medium.move state motion = some next → intact next
  intact_read : ∀ state n next, intact state → medium.read state n = some next → intact next
  held_empty : medium.held medium.empty = 0 ∧ medium.lost medium.empty = 0
  held_put : ∀ state item, medium.held (medium.put state item) + medium.lost (medium.put state item) =
    medium.held state + medium.lost state + medium.size item
  held_close : ∀ state, medium.held (medium.close state) = medium.held state ∧
    medium.lost (medium.close state) = medium.lost state
  held_move : ∀ state motion next, medium.move state motion = some next →
    medium.held next + medium.lost next = medium.held state + medium.lost state ∧ medium.lost state ≤ medium.lost next
  held_read : ∀ state n next, medium.read state n = some next →
    medium.held next + n = medium.held state ∧ medium.lost next = medium.lost state
  read_limit : ∀ state n next, medium.read state n = some next → n ≤ medium.limit
  read_zero : ∀ state next, intact state → medium.read state 0 = some next →
    medium.closed state = true ∧ medium.held state = 0
  work_put : ∀ state item, medium.work (medium.put state item) ≤ medium.work state + medium.effort item
  work_close : ∀ state, medium.work (medium.close state) ≤ medium.work state
  work_move : ∀ state motion next, medium.move state motion = some next → medium.work next < medium.work state
  work_read : ∀ state n next, medium.read state n = some next →
    medium.work next ≤ medium.work state ∧ (n ≠ 0 → medium.work next + 2 ≤ medium.work state)
  ready_put : ∀ state item, medium.closed state = false → medium.Ready state → medium.Ready (medium.put state item)
  ready_close : ∀ state, medium.Ready state → medium.Ready (medium.close state)
  ready_move : ∀ state motion next, medium.move state motion = some next → medium.Ready state → medium.Ready next
  live : ∀ state, intact state → medium.closed state = true →
    medium.Ready state ∨ ∃ motion next, medium.move state motion = some next
  still : ∀ motion, medium.move medium.empty motion = none

open Pipe

/-- The reliable stream: the network delivers some bytes, and a read takes some that have arrived. -/
def stream (β : Type) (limit : Nat) : Medium (List β) (Stream β) Nat where
  limit := limit
  size := List.length
  effort items := 4 * items.length
  empty := Stream.empty
  put := Stream.send
  close := Stream.close
  closed := Stream.closed
  move state n := if 0 < n ∧ n ≤ state.wire.length then some (state.deliver n) else none
  read state n :=
    if n = 0 then (if state.closed = true ∧ state.wire.length = 0 ∧ state.inbox.length = 0 then some state else none)
    else if n ≤ limit ∧ n ≤ state.inbox.length then some (state.receive n) else none
  held := Stream.held
  lost _ := 0
  work state := 4 * state.wire.length + 2 * state.inbox.length

section stream
variable {β : Type} {limit : Nat}

theorem stream_move {state next : Stream β} {n : Nat} (moved : (stream β limit).move state n = some next) :
    (0 < n ∧ n ≤ state.wire.length) ∧ next = state.deliver n := by
  obtain ⟨possible,same⟩ := Option.ite_none_right_eq_some.mp moved
  exact ⟨possible,(Option.some.inj same).symm⟩

theorem stream_read {state next : Stream β} {n : Nat} (read : (stream β limit).read state n = some next) :
    (n = 0 ∧ state.closed = true ∧ state.held = 0 ∧ next = state) ∨
      n ≠ 0 ∧ n ≤ limit ∧ n ≤ state.inbox.length ∧ next = state.receive n := by
  simp only [stream] at read
  split at read
  next zero =>
    obtain ⟨⟨closed,wire,inbox⟩,same⟩ := Option.ite_none_right_eq_some.mp read
    refine Or.inl ⟨zero,closed,?_,(Option.some.inj same).symm⟩
    rw [Stream.held,wire,inbox]
  next some_bytes =>
    obtain ⟨⟨small,available⟩,same⟩ := Option.ite_none_right_eq_some.mp read
    exact Or.inr ⟨some_bytes,small,available,(Option.some.inj same).symm⟩

theorem stream_ready (positive : 0 < limit) (state : Stream β) : (stream β limit).Ready state ↔
    state.inbox ≠ [] ∨ state.closed = true ∧ state.wire.length = 0 := by
  constructor
  · rintro ⟨n,_,possible⟩
    obtain ⟨next,read⟩ := Option.isSome_iff_exists.mp possible
    rcases stream_read read with ⟨_,closed,none_held,_⟩ | ⟨some_bytes,_,available,_⟩
    · rw [Stream.held] at none_held
      exact Or.inr ⟨closed,by omega⟩
    · exact Or.inl (List.ne_nil_of_length_pos (by omega))
  · intro ready
    by_cases nothing : state.inbox = []
    · obtain ⟨closed,wire⟩ := ready.resolve_left (not_not.mpr nothing)
      refine ⟨0,Nat.zero_le _,?_⟩
      simp [stream,closed,List.length_eq_zero_iff.mp wire,nothing]
    · have available := List.length_pos_iff.mpr nothing
      refine ⟨1,positive,?_⟩
      simp [stream,Nat.succ_le_of_lt positive,Nat.succ_le_of_lt available]

theorem stream_behaves (positive : 0 < limit) : Behaves (stream β limit) (fun _ => True) fun _ => True where
  closed_empty := rfl
  closed_put _ _ := rfl
  closed_close _ := rfl
  closed_move := by
    intro state n next moved
    obtain ⟨_,rfl⟩ := stream_move moved
    rfl
  closed_read := by
    intro state n next read
    rcases stream_read read with ⟨_,_,_,rfl⟩ | ⟨_,_,_,rfl⟩ <;> rfl
  intact_empty := trivial
  intact_put _ _ _ _ := trivial
  intact_close _ _ := trivial
  intact_move _ _ _ _ _ := trivial
  intact_read _ _ _ _ _ := trivial
  held_empty := ⟨rfl,rfl⟩
  held_put state items := Stream.held_send state items
  held_close _ := ⟨rfl,rfl⟩
  held_move := by
    intro state n next moved
    obtain ⟨_,rfl⟩ := stream_move moved
    exact ⟨Stream.held_deliver state n,Nat.le_refl _⟩
  held_read := by
    intro state n next read
    rcases stream_read read with ⟨rfl,_,_,rfl⟩ | ⟨_,_,available,rfl⟩
    · exact ⟨rfl,rfl⟩
    · exact ⟨Stream.held_receive state n available,rfl⟩
  read_limit := by
    intro state n next read
    rcases stream_read read with ⟨rfl,_⟩ | ⟨_,small,_⟩
    · exact Nat.zero_le _
    · exact small
  read_zero := by
    intro state next _ read
    rcases stream_read read with ⟨_,closed,none_held,_⟩ | ⟨some_bytes,_⟩
    · exact ⟨closed,none_held⟩
    · exact absurd rfl some_bytes
  work_put state items := by
    simp only [stream,Stream.send,List.length_append]
    omega
  work_close _ := Nat.le_refl _
  work_move := by
    intro state n next moved
    obtain ⟨_,rfl⟩ := stream_move moved
    simp only [stream,Stream.deliver,List.length_append,List.length_take,List.length_drop]
    omega
  work_read := by
    intro state n next read
    rcases stream_read read with ⟨rfl,_,_,rfl⟩ | ⟨_,_,available,rfl⟩
    · exact ⟨Nat.le_refl _,fun nonzero => absurd rfl nonzero⟩
    · simp only [stream,Stream.receive,List.length_drop]
      omega
  ready_put := by
    intro state items open_still ready
    rw [stream_ready positive] at ready ⊢
    rcases ready with available | ⟨closed,_⟩
    · exact Or.inl available
    · rw [show state.closed = false from open_still] at closed
      cases closed
  ready_close := by
    intro state ready
    rw [stream_ready positive] at ready ⊢
    exact ready.imp_right fun ended => ⟨rfl,ended.2⟩
  ready_move := by
    intro state n next moved ready
    obtain ⟨⟨some_bytes,on_wire⟩,rfl⟩ := stream_move moved
    rw [stream_ready positive] at ready ⊢
    rcases ready with available | ⟨_,wire⟩
    · exact Or.inl (List.append_ne_nil_of_left_ne_nil available _)
    · omega
  live := by
    intro state _ closed
    rw [stream_ready positive]
    by_cases wire : state.wire.length = 0
    · exact Or.inl (Or.inr ⟨closed,wire⟩)
    · exact Or.inr ⟨1,_,if_pos ⟨Nat.one_pos,by omega⟩⟩
  still := by
    intro n
    refine if_neg fun possible => ?_
    have nothing : (stream β limit).empty.wire.length = 0 := rfl
    omega

end stream

end ProtocolTests.Library.Media
