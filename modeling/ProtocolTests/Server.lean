import ProtocolTests.Library.FdSet
import ProtocolTests.Library.Run
import Mathlib.Algebra.Group.Int.Defs
import Mathlib.Data.Finset.Insert
import Mathlib.Data.Fin.Tuple.Basic
import Mathlib.Tactic.Simps.Basic

/-! The select loop of the TCP, DCCP and SCTP servers, cut at the calls it makes. An
event is what one call returned; what the loop does between two calls is computed. -/
namespace ProtocolTests.Server
open Library.FdSet Library.Run

/-- Not unfolded: no proof about the loops depends on the number of slots. -/
@[irreducible] def MAX_CLIENTS : Nat := 1024

abbrev Slot := Fin MAX_CLIENTS

/-- What a call returned. A read of zero bytes is followed by the line that reports the
total and by the closing of the descriptor. -/
inductive Event
  | selected (readfds : Finset Int)
  | selectFailed
  | accepted (newSocket : Int)
  | acceptFailed
  | read (sd : Int) (bytesRead : Int32)
  | disconnected (sd : Int) (total : Int32)
  deriving DecidableEq

inductive Position
  | selecting
  | accepting (readfds : Finset Int)
  | reading (readfds : Finset Int) (i : Slot)
  | exited
  deriving DecidableEq

structure State where
  clientSocket : Slot → Int
  clientReads : Slot → Int32
  position : Position

def start : State := ⟨fun _ => 0,fun _ => 0,.selecting⟩

def addSocket (rebuilt : Finset Int × Int) (sd : Int) : Finset Int × Int :=
  (if 0 < sd then insert sd rebuilt.1 else rebuilt.1,if rebuilt.2 < sd then sd else rebuilt.2)

def rebuild (masterSocket : Int) (clientSocket : Slot → Int) : Finset Int × Int :=
  (List.ofFn clientSocket).foldl addSocket ({masterSocket},masterSocket)

/-- What the macros of `fd_set` are defined for. Beyond it there is no program to model, and a set
is taken to hold any descriptor. -/
structure InSet (masterSocket : Int) (clientSocket : Slot → Int) : Prop where
  master : Settable masterSocket
  entries : ∀ i, Settable (clientSocket i)

/-- A successful `select` leaves some of the descriptors in the set, all below `max_sd + 1`. -/
def Selectable (rebuilt : Finset Int × Int) (ready : Finset Int) : Prop :=
  ready ⊆ rebuilt.1 ∧ ∀ sd ∈ ready, sd < rebuilt.2 + 1

instance (rebuilt : Finset Int × Int) (ready : Finset Int) : Decidable (Selectable rebuilt ready) :=
  inferInstanceAs (Decidable (_ ∧ _))

/-- The loop that looks for a slot that holds zero. Without one the new socket is dropped. -/
def addNewSocket (clientSocket : Slot → Int) (newSocket : Int) : Slot → Int :=
  match Fin.find? fun i => clientSocket i = 0 with
  | some i => Function.update clientSocket i newSocket
  | none => clientSocket

/-- The third loop from pass `i` on, up to its next read. -/
def scan (clientSocket : Slot → Int) (readfds : Finset Int) (i : Nat) : Position :=
  match Fin.find? fun j : Slot => i ≤ j.val ∧ clientSocket j ∈ readfds with
  | some j => .reading readfds j
  | none => .selecting

/-- What follows `select`: the master socket is looked at first. -/
def dispatch (masterSocket : Int) (clientSocket : Slot → Int) (readfds : Finset Int) : Position :=
  if masterSocket ∈ readfds then .accepting readfds else scan clientSocket readfds 0

/-- One of the three programs. They differ in what a failing `select` or `accept` does: the
program ends, or it goes on with the set as it was and with `new_socket` at -1. -/
structure Program where
  exitsOnFailure : Bool
  deriving DecidableEq

namespace Tcp

def main : Program := ⟨true⟩

end Tcp

namespace Dccp

def main : Program := ⟨true⟩

end Dccp

namespace Sctp

def main : Program := ⟨false⟩

end Sctp

@[simps -fullyApplied] def look (masterSocket : Int) (state : State) (readfds : Finset Int) : State where
  clientSocket := state.clientSocket
  clientReads := state.clientReads
  position := dispatch masterSocket state.clientSocket readfds

@[simps -fullyApplied] def enlist (state : State) (readfds : Finset Int) (newSocket : Int) : State where
  clientSocket := addNewSocket state.clientSocket newSocket
  clientReads := state.clientReads
  position := scan (addNewSocket state.clientSocket newSocket) readfds 0

@[simps -fullyApplied] def count (state : State) (readfds : Finset Int) (i : Slot) (bytesRead : Int32) : State where
  clientSocket := state.clientSocket
  clientReads := Function.update state.clientReads i (state.clientReads i + bytesRead)
  position := scan state.clientSocket readfds (i+1)

@[simps -fullyApplied] def release (state : State) (readfds : Finset Int) (i : Slot) : State where
  clientSocket := Function.update state.clientSocket i 0
  clientReads := Function.update state.clientReads i 0
  position := scan (Function.update state.clientSocket i 0) readfds (i+1)

@[simps -fullyApplied] def leave (state : State) : State where
  clientSocket := state.clientSocket
  clientReads := state.clientReads
  position := .exited

/-- One call and what the loop does up to the next one. -/
def step (program : Program) (masterSocket : Int) (state : State) (event : Event) : Option State :=
  match state.position, event with
  | .selecting, .selected readfds =>
    if Selectable (rebuild masterSocket state.clientSocket) readfds then some (look masterSocket state readfds)
    else none
  | .selecting, .selectFailed =>
    -- After a failure `readfds` is still the rebuilt set.
    if program.exitsOnFailure then some (leave state)
    else some (look masterSocket state (rebuild masterSocket state.clientSocket).1)
  | .accepting readfds, .accepted newSocket =>
    if 0 ≤ newSocket then some (enlist state readfds newSocket) else none
  | .accepting readfds, .acceptFailed =>
    -- A free slot takes the -1 that `accept` returned.
    if program.exitsOnFailure then some (leave state) else some (enlist state readfds (-1))
  | .reading readfds i, .read sd bytesRead =>
    if sd = state.clientSocket i ∧ bytesRead ≠ 0 then some (count state readfds i bytesRead) else none
  | .reading readfds i, .disconnected sd total =>
    if sd = state.clientSocket i ∧ total = state.clientReads i then some (release state readfds i) else none
  | _, _ => none

inductive Transition (program : Program) (masterSocket : Int) (state : State) : Event → State → Prop
  | selected (readfds : Finset Int) (here : state.position = .selecting)
      (selectable : Selectable (rebuild masterSocket state.clientSocket) readfds) :
      Transition program masterSocket state (.selected readfds) (look masterSocket state readfds)
  | selectGoesOn (here : state.position = .selecting) (goesOn : ¬program.exitsOnFailure) :
      Transition program masterSocket state .selectFailed
        (look masterSocket state (rebuild masterSocket state.clientSocket).1)
  | accepted (readfds : Finset Int) (newSocket : Int) (here : state.position = .accepting readfds)
      (valid : 0 ≤ newSocket) :
      Transition program masterSocket state (.accepted newSocket) (enlist state readfds newSocket)
  | acceptGoesOn (readfds : Finset Int) (here : state.position = .accepting readfds)
      (goesOn : ¬program.exitsOnFailure) :
      Transition program masterSocket state .acceptFailed (enlist state readfds (-1))
  | read (readfds : Finset Int) (i : Slot) (bytesRead : Int32) (here : state.position = .reading readfds i)
      (some_bytes : bytesRead ≠ 0) :
      Transition program masterSocket state (.read (state.clientSocket i) bytesRead)
        (count state readfds i bytesRead)
  | disconnected (readfds : Finset Int) (i : Slot) (here : state.position = .reading readfds i) :
      Transition program masterSocket state (.disconnected (state.clientSocket i) (state.clientReads i))
        (release state readfds i)
  | exits (event : Event) (failed : event = .selectFailed ∨ event = .acceptFailed)
      (exits : program.exitsOnFailure) : Transition program masterSocket state event (leave state)

theorem step_transition {program : Program} {masterSocket : Int} {state next : State} {event : Event}
    (stepped : step program masterSocket state event = some next) :
    Transition program masterSocket state event next := by
  unfold step at stepped
  split at stepped
  next readfds here =>
    obtain ⟨selectable,same⟩ := Option.ite_none_right_eq_some.mp stepped
    obtain rfl := Option.some.inj same
    exact .selected readfds here selectable
  next here =>
    split at stepped
    next exits =>
      obtain rfl := Option.some.inj stepped
      exact .exits _ (Or.inl rfl) exits
    next goesOn =>
      obtain rfl := Option.some.inj stepped
      exact .selectGoesOn here goesOn
  next readfds newSocket here =>
    obtain ⟨valid,same⟩ := Option.ite_none_right_eq_some.mp stepped
    obtain rfl := Option.some.inj same
    exact .accepted readfds newSocket here valid
  next readfds here =>
    split at stepped
    next exits =>
      obtain rfl := Option.some.inj stepped
      exact .exits _ (Or.inr rfl) exits
    next goesOn =>
      obtain rfl := Option.some.inj stepped
      exact .acceptGoesOn readfds here goesOn
  next readfds i sd bytesRead here =>
    obtain ⟨⟨rfl,some_bytes⟩,same⟩ := Option.ite_none_right_eq_some.mp stepped
    obtain rfl := Option.some.inj same
    exact .read readfds i bytesRead here some_bytes
  next readfds i sd total here =>
    obtain ⟨⟨rfl,rfl⟩,same⟩ := Option.ite_none_right_eq_some.mp stepped
    obtain rfl := Option.some.inj same
    exact .disconnected readfds i here
  next => cases stepped

theorem mem_rebuild (masterSocket : Int) (clientSocket : Slot → Int) (sd : Int) :
    sd ∈ (rebuild masterSocket clientSocket).1 ↔ sd = masterSocket ∨ 0 < sd ∧ ∃ i, clientSocket i = sd := by
  have loop (sockets : List Int) (rebuilt : Finset Int × Int) :
      sd ∈ (sockets.foldl addSocket rebuilt).1 ↔ sd ∈ rebuilt.1 ∨ 0 < sd ∧ sd ∈ sockets := by
    induction sockets generalizing rebuilt with
    | nil => simp
    | cons first sockets ih =>
      rw [List.foldl_cons,ih,addSocket]
      by_cases valid : 0 < first
      · simp only [valid,if_true,Finset.mem_insert,List.mem_cons]
        grind
      · simp only [valid,if_false,List.mem_cons]
        grind
  rw [rebuild,loop (List.ofFn clientSocket),Finset.mem_singleton,List.mem_ofFn]

/-- No member of the rebuilt set is cut off by the first argument of `select`. -/
theorem rebuild_bound (masterSocket : Int) (clientSocket : Slot → Int) (sd : Int)
    (member : sd ∈ (rebuild masterSocket clientSocket).1) : sd < (rebuild masterSocket clientSocket).2 + 1 := by
  have loop (sockets : List Int) (rebuilt : Finset Int × Int) (bounded : ∀ sd ∈ rebuilt.1, sd < rebuilt.2 + 1) :
      ∀ sd ∈ (sockets.foldl addSocket rebuilt).1, sd < (sockets.foldl addSocket rebuilt).2 + 1 := by
    induction sockets generalizing rebuilt with
    | nil => exact bounded
    | cons first sockets ih =>
      apply ih
      intro sd member
      simp only [addSocket] at member ⊢
      have below := bounded sd
      grind
  have alone : ∀ sd ∈ ({masterSocket} : Finset Int), sd < masterSocket + 1 := by
    intro sd member
    rw [Finset.mem_singleton.mp member]
    exact Int.lt_succ masterSocket
  rw [rebuild] at member ⊢
  exact loop (List.ofFn clientSocket) ({masterSocket},masterSocket) alone sd member

def Position.readfds? : Position → Option (Finset Int)
  | .accepting readfds => some readfds
  | .reading readfds _ => some readfds
  | _ => none

theorem scan_readfds (clientSocket : Slot → Int) (readfds seen : Finset Int) (i : Nat)
    (here : (scan clientSocket readfds i).readfds? = some seen) : seen = readfds := by
  unfold scan at here
  split at here
  next => exact (Option.some.inj here).symm
  next => cases here

theorem scan_ready (clientSocket : Slot → Int) (readfds seen : Finset Int) (i : Nat) (j : Slot)
    (here : scan clientSocket readfds i = .reading seen j) : clientSocket j ∈ seen := by
  unfold scan at here
  split at here
  next found =>
    cases here
    have pass := Fin.eq_true_of_find?_eq_some found
    exact (of_decide_eq_true pass).2
  next => cases here

theorem scan_not_accepting (clientSocket : Slot → Int) (readfds seen : Finset Int) (i : Nat) :
    scan clientSocket readfds i ≠ .accepting seen := by
  unfold scan
  split <;> exact Position.noConfusion

theorem dispatch_readfds (masterSocket : Int) (clientSocket : Slot → Int) (readfds seen : Finset Int)
    (here : (dispatch masterSocket clientSocket readfds).readfds? = some seen) : seen = readfds := by
  unfold dispatch at here
  split at here
  next => exact (Option.some.inj here).symm
  next => exact scan_readfds _ _ _ _ here

theorem dispatch_ready (masterSocket : Int) (clientSocket : Slot → Int) (readfds seen : Finset Int) (j : Slot)
    (here : dispatch masterSocket clientSocket readfds = .reading seen j) : clientSocket j ∈ seen := by
  unfold dispatch at here
  split at here
  next => cases here
  next => exact scan_ready _ _ _ _ _ here

theorem addNewSocket_vacant (clientSocket : Slot → Int) (newSocket : Int) (vacant : ∃ i, clientSocket i = 0) :
    ∃ i, clientSocket i = 0 ∧ addNewSocket clientSocket newSocket = Function.update clientSocket i newSocket := by
  unfold addNewSocket
  split
  next i found => exact ⟨i,by simpa using Fin.eq_true_of_find?_eq_some found,rfl⟩
  next full =>
    obtain ⟨i,free⟩ := vacant
    have used := Fin.find?_eq_none_iff.mp full i
    simp [free] at used

theorem selectable_iff (masterSocket : Int) (clientSocket : Slot → Int) (readfds : Finset Int) :
    Selectable (rebuild masterSocket clientSocket) readfds ↔
      ∀ sd ∈ readfds, sd = masterSocket ∨ 0 < sd ∧ ∃ i, clientSocket i = sd := by
  constructor
  · intro selectable sd member
    exact (mem_rebuild _ _ _).mp (selectable.1 member)
  · intro watched
    have inside (sd : Int) (member : sd ∈ readfds) := (mem_rebuild _ _ _).mpr (watched sd member)
    exact ⟨inside,fun sd member => rebuild_bound _ _ _ (inside sd member)⟩

theorem scan_first (clientSocket : Slot → Int) (readfds : Finset Int) (i : Nat) (j : Slot) (passed : i ≤ j.val)
    (ready : clientSocket j ∈ readfds) (before : ∀ k < j, clientSocket k ∉ readfds) :
    scan clientSocket readfds i = .reading readfds j := by
  have found : (Fin.find? fun j : Slot => i ≤ j.val ∧ clientSocket j ∈ readfds) = some j :=
    Fin.find?_eq_some_iff.mpr ⟨by simp [passed,ready],fun k earlier => by simp [before k earlier]⟩
  rw [scan,found]

theorem scan_none (clientSocket : Slot → Int) (readfds : Finset Int) (i : Nat)
    (idle : ∀ j : Slot, i ≤ j.val → clientSocket j ∉ readfds) : scan clientSocket readfds i = .selecting := by
  have found : (Fin.find? fun j : Slot => i ≤ j.val ∧ clientSocket j ∈ readfds) = none :=
    Fin.find?_eq_none_iff.mpr fun j => decide_eq_false fun ready => idle j ready.1 ready.2
  rw [scan,found]

theorem addNewSocket_first (clientSocket : Slot → Int) (newSocket : Int) (i : Slot) (free : clientSocket i = 0)
    (before : ∀ j < i, clientSocket j ≠ 0) :
    addNewSocket clientSocket newSocket = Function.update clientSocket i newSocket := by
  have found : (Fin.find? fun i => clientSocket i = 0) = some i :=
    Fin.find?_eq_some_iff.mpr ⟨by simp [free],fun j earlier => by simp [before j earlier]⟩
  rw [addNewSocket,found]

/-- A counter shows a sum of bytes exactly if an `int` holds it. -/
theorem ofInt_toInt_iff (value : Int) (nonneg : 0 ≤ value) : (Int32.ofInt value).toInt = value ↔ value < 2^31 := by
  rw [Int32.toInt_ofInt,Int32.size]
  constructor
  · intro same
    have bound := Int.bmod_lt (x := value) (m := 4294967296) (by decide)
    omega
  · intro small
    exact Int.bmod_eq_of_le (by omega) (by omega)

section rounds
variable (program : Program) (masterSocket : Int) (clientSocket : Slot → Int) (clientReads : Slot → Int32) (i : Slot)

theorem connect_round (newSocket : Int) (valid : 0 ≤ newSocket) (free : clientSocket i = 0)
    (before : ∀ j < i, clientSocket j ≠ 0)
    (others : ∀ j, Function.update clientSocket i newSocket j ≠ masterSocket) :
    run (step program masterSocket) ⟨clientSocket,clientReads,.selecting⟩
        [.selected {masterSocket},.accepted newSocket] =
      some ⟨Function.update clientSocket i newSocket,clientReads,.selecting⟩ := by
  have selectable : Selectable (rebuild masterSocket clientSocket) {masterSocket} :=
    (selectable_iff _ _ _).mpr (by simp)
  have stored := addNewSocket_first clientSocket newSocket i free before
  have idle : scan (Function.update clientSocket i newSocket) {masterSocket} 0 = .selecting :=
    scan_none _ _ _ fun j _ => by simpa using others j
  simp [run,step,selectable,look,dispatch,valid,enlist,stored,idle]

variable (positive : 0 < clientSocket i) (other : clientSocket i ≠ masterSocket)
  (only : ∀ j, clientSocket j = clientSocket i → j = i)
include positive other only

theorem select_one :
    step program masterSocket ⟨clientSocket,clientReads,.selecting⟩ (.selected {clientSocket i}) =
      some ⟨clientSocket,clientReads,.reading {clientSocket i} i⟩ := by
  have selectable : Selectable (rebuild masterSocket clientSocket) {clientSocket i} :=
    (selectable_iff _ _ _).mpr (by simpa using Or.inr positive)
  have first : scan clientSocket {clientSocket i} 0 = .reading {clientSocket i} i :=
    scan_first _ _ _ i (Nat.zero_le _) (by simp) fun k earlier same =>
      absurd (only k (Finset.mem_singleton.mp same)) (ne_of_lt earlier)
  simp [step,selectable,look,dispatch,other.symm,first]

theorem read_round (bytesRead : Int32) (some_bytes : bytesRead ≠ 0) :
    run (step program masterSocket) ⟨clientSocket,clientReads,.selecting⟩
        [.selected {clientSocket i},.read (clientSocket i) bytesRead] =
      some ⟨clientSocket,Function.update clientReads i (clientReads i + bytesRead),.selecting⟩ := by
  have selected := select_one program masterSocket clientSocket clientReads i positive other only
  have idle : scan clientSocket {clientSocket i} (i+1) = .selecting :=
    scan_none _ _ _ fun j later same => by
      rw [only j (Finset.mem_singleton.mp same)] at later
      exact absurd later (Nat.not_succ_le_self _)
  rw [run,List.foldlM_cons,selected]
  simp [step,some_bytes,count,idle]

theorem disconnect_round :
    run (step program masterSocket) ⟨clientSocket,clientReads,.selecting⟩
        [.selected {clientSocket i},.disconnected (clientSocket i) (clientReads i)] =
      some ⟨Function.update clientSocket i 0,Function.update clientReads i 0,.selecting⟩ := by
  have selected := select_one program masterSocket clientSocket clientReads i positive other only
  have idle : scan (Function.update clientSocket i 0) {clientSocket i} (i+1) = .selecting :=
    scan_none _ _ _ fun j later same => by
      have apart : j ≠ i := by
        rintro rfl
        exact Nat.not_succ_le_self _ later
      rw [Function.update_of_ne apart] at same
      exact apart (only j (Finset.mem_singleton.mp same))
  rw [run,List.foldlM_cons,selected]
  simp [step,release,idle]

end rounds

theorem max_clients : MAX_CLIENTS = 1024 := by rw [MAX_CLIENTS]

def firstSlot : Slot := ⟨0,by rw [max_clients]; decide⟩

/-- One client connects to descriptor 4, its reads return these results, and it closes. -/
def session (results : List Int32) : List Event :=
  [.selected {3},.accepted 4] ++ (results.flatMap (fun bytesRead => [.selected {4},.read 4 bytesRead]) ++
    [.selected {4},.disconnected 4 (results.foldl (· + ·) 0)])

/-- One client connects to descriptor 4, sends ten bytes and closes. -/
def visit : List Event :=
  [.selected {3},.accepted 4] ++ ([.selected {4},.read 4 10] ++ [.selected {4},.disconnected 4 10])

theorem session_run (program : Program) (results : List Int32) (nonzero : ∀ bytesRead ∈ results, bytesRead ≠ 0) :
    run (step program 3) start (session results) = some start := by
  have one (j : Slot) : Function.update (fun _ : Slot => (0 : Int)) firstSlot 4 j = 4 ∧ j = firstSlot ∨
      Function.update (fun _ : Slot => (0 : Int)) firstSlot 4 j = 0 := by
    by_cases here : j = firstSlot
    · exact Or.inl ⟨by rw [here,Function.update_self],here⟩
    · exact Or.inr (Function.update_of_ne here _ _)
  have here : Function.update (fun _ : Slot => (0 : Int)) firstSlot 4 firstSlot = 4 := Function.update_self ..
  have only (j : Slot) (same : Function.update (fun _ : Slot => (0 : Int)) firstSlot 4 j =
      Function.update (fun _ : Slot => (0 : Int)) firstSlot 4 firstSlot) : j = firstSlot := by
    rcases one j with ⟨_,slot⟩ | other
    · exact slot
    · rw [here,other] at same
      cases same
  have connected := connect_round program 3 (fun _ => 0) (fun _ => 0) firstSlot 4 (by decide) rfl
    (fun j earlier => absurd earlier (Nat.not_lt_zero _))
    (fun j => by rcases one j with ⟨same,_⟩ | same <;> rw [same] <;> decide)
  have counted (total : Int32) : run (step program 3)
      ⟨Function.update (fun _ => 0) firstSlot 4,Function.update (fun _ => 0) firstSlot total,.selecting⟩
      (results.flatMap fun bytesRead => [.selected {4},.read 4 bytesRead]) =
      some ⟨Function.update (fun _ => 0) firstSlot 4,
        Function.update (fun _ => 0) firstSlot (results.foldl (· + ·) total),.selecting⟩ := by
    clear connected
    induction results generalizing total with
    | nil => rfl
    | cons bytesRead results ih =>
      have round := read_round program 3 _ (Function.update (fun _ => 0) firstSlot total) firstSlot
        (by rw [here]; decide) (by rw [here]; decide) only bytesRead (nonzero bytesRead List.mem_cons_self)
      rw [here,Function.update_self,Function.update_idem] at round
      rw [List.flatMap_cons,run_append,round,Option.bind_some,List.foldl_cons]
      exact ih (fun other member => nonzero other (List.mem_cons_of_mem _ member)) _
  have closed := disconnect_round program 3 _
    (Function.update (fun _ => 0) firstSlot (results.foldl (· + ·) 0)) firstSlot (by rw [here]; decide)
    (by rw [here]; decide) only
  have blank : Function.update (fun _ : Slot => (0 : Int32)) firstSlot 0 = fun _ => 0 := Function.update_eq_self _ _
  have begun := counted 0
  rw [here,Function.update_self,Function.update_idem,Function.update_idem] at closed
  rw [blank] at begun
  rw [session,run_append,start,connected,Option.bind_some,run_append,begun,Option.bind_some]
  refine closed.trans ?_
  rw [Function.update_eq_self_iff.mpr rfl,Function.update_eq_self_iff.mpr rfl]

theorem visit_run (program : Program) : run (step program 3) start visit = some start :=
  session_run program [10] (List.forall_mem_singleton.mpr (by decide))

end ProtocolTests.Server
