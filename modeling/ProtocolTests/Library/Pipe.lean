import Mathlib.Data.List.Basic

/-! One direction of a reliable ordered stream: what was sent travels on the wire, arrives
in an inbox in pieces of any size, and is taken from there in pieces of any size. -/
namespace ProtocolTests.Library.Pipe

structure Stream (α : Type) where
  wire : List α
  inbox : List α
  closed : Bool

namespace Stream
variable {α : Type}

def empty : Stream α := ⟨[],[],false⟩

def send (stream : Stream α) (items : List α) : Stream α := {stream with wire := stream.wire ++ items}

def deliver (stream : Stream α) (n : Nat) : Stream α :=
  {stream with
    wire := stream.wire.drop n
    inbox := stream.inbox ++ stream.wire.take n}

def receive (stream : Stream α) (n : Nat) : Stream α := {stream with inbox := stream.inbox.drop n}

def close (stream : Stream α) : Stream α := {stream with closed := true}

/-- What was sent and not yet received. -/
def held (stream : Stream α) : Nat := stream.inbox.length + stream.wire.length

@[simp] theorem held_empty : (empty : Stream α).held = 0 := rfl

@[simp] theorem held_send (stream : Stream α) (items : List α) :
    (stream.send items).held = stream.held + items.length := by
  simp only [held,send,List.length_append]
  omega

@[simp] theorem held_deliver (stream : Stream α) (n : Nat) : (stream.deliver n).held = stream.held := by
  simp only [held,deliver,List.length_append,List.length_take,List.length_drop]
  omega

theorem held_receive (stream : Stream α) (n : Nat) (available : n ≤ stream.inbox.length) :
    (stream.receive n).held + n = stream.held := by
  simp only [held,receive,List.length_drop]
  omega

@[simp] theorem held_close (stream : Stream α) : stream.close.held = stream.held := rfl

@[simp] theorem send_closed (stream : Stream α) (items : List α) : (stream.send items).closed = stream.closed := rfl

end Stream

end ProtocolTests.Library.Pipe
