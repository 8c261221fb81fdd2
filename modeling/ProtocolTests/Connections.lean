import ProtocolTests.Client
import ProtocolTests.Library.Media
import ProtocolTests.ServerTotals

/-! One of the servers with a select loop and any number of clients, with a medium for each
connection. Every client makes the calls of its own plan in order; how they interleave with
the network and with the iterations of the server is left open. No call fails. -/
namespace ProtocolTests.Connections
open Library.Run Library.Media ServerTable ServerTotals

variable {clients : Nat} {α μ ν : Type}

abbrev Connection (clients : Nat) := Fin clients × Nat

inductive Phase
  | idle
  | pending
  | opened (sd : Int)
  | reported (total : Int32)
  deriving DecidableEq

/-- What a call of a client means for its connections. -/
inductive Command (α : Type)
  | connect (channel : Nat)
  | put (channel : Nat) (item : α)
  | close (channel : Nat)
  | silent
  deriving DecidableEq

structure System (clients : Nat) (α μ : Type) where
  remaining : Fin clients → List (Command α)
  between : Connection clients → μ
  phase : Connection clients → Phase
  descriptors : Finset Int
  server : Server.State

inductive Act (clients : Nat) (ν : Type)
  | call (client : Fin clients)
  | move (connection : Connection clients) (motion : ν)
  | selected (readfds : Finset Int)
  | accepted (connection : Connection clients) (newSocket : Int)
  | read (connection : Connection clients) (sd : Int) (n : Nat)
  | disconnected (connection : Connection clients) (sd : Int) (total : Int32)

def Act.event? : Act clients ν → Option Server.Event
  | .selected readfds => some (.selected readfds)
  | .accepted _ newSocket => some (.accepted newSocket)
  | .read _ sd n => some (.read sd (Int32.ofNat n))
  | .disconnected _ sd total => some (.disconnected sd total)
  | _ => none

def events (acts : List (Act clients ν)) : List Server.Event := acts.filterMap Act.event?

namespace Command
variable (medium : Medium α μ ν)

def act (channel : Nat) (state : μ) : Command α → μ
  | .put other item => if other = channel then medium.put state item else state
  | .close other => if other = channel then medium.close state else state
  | _ => state

def enter (channel : Nat) (phase : Phase) : Command α → Phase
  | .connect other => if other = channel then .pending else phase
  | _ => phase

/-- A socket connects once. -/
def Possible (phase : Nat → Phase) : Command α → Prop
  | .connect channel => phase channel = .idle
  | _ => True

instance (phase : Nat → Phase) (command : Command α) : Decidable (command.Possible phase) := by
  cases command <;> unfold Possible <;> infer_instance

def channel? : Command α → Option Nat
  | .connect channel => some channel
  | .put channel _ => some channel
  | .close channel => some channel
  | .silent => none

def bytes (channel : Nat) : Command α → Nat
  | .put other item => if other = channel then medium.size item else 0
  | _ => 0

end Command

section system
variable (medium : Medium α μ ν) (program : Server.Program) (masterSocket : Int)

def called (system : System clients α μ) (client : Fin clients) (command : Command α) (rest : List (Command α)) :
    System clients α μ :=
  {system with
    remaining := Function.update system.remaining client rest
    between := fun connection =>
      if connection.1 = client then command.act medium connection.2 (system.between connection)
      else system.between connection
    phase := fun connection =>
      if connection.1 = client then command.enter connection.2 (system.phase connection)
      else system.phase connection}

def onMedium (system : System clients α μ) (connection : Connection clients) (state : μ) : System clients α μ :=
  {system with between := Function.update system.between connection state}

def enter (system : System clients α μ) (connection : Connection clients) (phase : Phase) : System clients α μ :=
  {system with phase := Function.update system.phase connection phase}

/-- `accept` takes a pending connection under a descriptor that is not open, and a read
returns what the medium has; a read of zero bytes is taken for the end of the connection. -/
def step (system : System clients α μ) (act : Act clients ν) : Option (System clients α μ) :=
  let serve (event : Server.Event) := Server.step program masterSocket system.server event
  match act with
  | .call client =>
    match system.remaining client with
    | [] => none
    | command :: rest =>
      if command.Possible fun channel => system.phase (client,channel) then some (called medium system client command rest)
      else none
  | .move connection motion => (medium.move (system.between connection) motion).map (onMedium system connection)
  | .selected readfds => (serve (.selected readfds)).map fun server => {system with server}
  | .accepted connection newSocket =>
    if system.phase connection = .pending ∧ 0 < newSocket ∧ newSocket ∉ system.descriptors then
      (serve (.accepted newSocket)).map fun server =>
        {enter system connection (.opened newSocket) with
          server
          descriptors := insert newSocket system.descriptors}
    else none
  | .read connection sd n =>
    if system.phase connection = .opened sd ∧ n ≠ 0 then
      (medium.read (system.between connection) n).bind fun state =>
        (serve (.read sd (Int32.ofNat n))).map fun server => {onMedium system connection state with server}
    else none
  | .disconnected connection sd total =>
    if system.phase connection = .opened sd then
      (medium.read (system.between connection) 0).bind fun state =>
        (serve (.disconnected sd total)).map fun server =>
          {enter (onMedium system connection state) connection (.reported total) with
            server
            descriptors := system.descriptors.erase sd}
    else none

def begin (plan : Fin clients → List (Command α)) : System clients α μ where
  remaining := plan
  between := fun _ => medium.empty
  phase := fun _ => .idle
  descriptors := {masterSocket}
  server := Server.start

/-- Everything that an act can do. -/
inductive Transition (system : System clients α μ) : Act clients ν → System clients α μ → Prop
  | call (client : Fin clients) (command : Command α) (rest : List (Command α))
      (current : system.remaining client = command :: rest)
      (possible : command.Possible fun channel => system.phase (client,channel)) :
      Transition system (.call client) (called medium system client command rest)
  | move (connection : Connection clients) (motion : ν) (state : μ)
      (moved : medium.move (system.between connection) motion = some state) :
      Transition system (.move connection motion) (onMedium system connection state)
  | selected (readfds : Finset Int) (server : Server.State)
      (served : Server.step program masterSocket system.server (.selected readfds) = some server) :
      Transition system (.selected readfds) {system with server}
  | accepted (connection : Connection clients) (newSocket : Int) (server : Server.State)
      (pending : system.phase connection = .pending) (positive : 0 < newSocket)
      (unused : newSocket ∉ system.descriptors)
      (served : Server.step program masterSocket system.server (.accepted newSocket) = some server) :
      Transition system (.accepted connection newSocket)
        {enter system connection (.opened newSocket) with
          server
          descriptors := insert newSocket system.descriptors}
  | read (connection : Connection clients) (sd : Int) (n : Nat) (state : μ) (server : Server.State)
      (opened : system.phase connection = .opened sd) (some_bytes : n ≠ 0)
      (taken : medium.read (system.between connection) n = some state)
      (served : Server.step program masterSocket system.server (.read sd (Int32.ofNat n)) = some server) :
      Transition system (.read connection sd n) {onMedium system connection state with server}
  | disconnected (connection : Connection clients) (sd : Int) (total : Int32) (state : μ) (server : Server.State)
      (opened : system.phase connection = .opened sd)
      (taken : medium.read (system.between connection) 0 = some state)
      (served : Server.step program masterSocket system.server (.disconnected sd total) = some server) :
      Transition system (.disconnected connection sd total)
        {enter (onMedium system connection state) connection (.reported total) with
          server
          descriptors := system.descriptors.erase sd}

theorem step_transition {system next : System clients α μ} {act : Act clients ν}
    (stepped : step medium program masterSocket system act = some next) :
    Transition medium program masterSocket system act next := by
  cases act with
  | call client =>
    simp only [step] at stepped
    split at stepped
    next => cases stepped
    next command rest current =>
      obtain ⟨possible,same⟩ := Option.ite_none_right_eq_some.mp stepped
      obtain rfl := Option.some.inj same
      exact .call client command rest current possible
  | move connection motion =>
    obtain ⟨state,moved,rfl⟩ := Option.map_eq_some_iff.mp stepped
    exact .move connection motion state moved
  | selected readfds =>
    obtain ⟨server,served,rfl⟩ := Option.map_eq_some_iff.mp stepped
    exact .selected readfds server served
  | accepted connection newSocket =>
    obtain ⟨⟨pending,positive,unused⟩,serving⟩ := Option.ite_none_right_eq_some.mp stepped
    obtain ⟨server,served,rfl⟩ := Option.map_eq_some_iff.mp serving
    exact .accepted connection newSocket server pending positive unused served
  | read connection sd n =>
    obtain ⟨⟨opened,some_bytes⟩,serving⟩ := Option.ite_none_right_eq_some.mp stepped
    obtain ⟨state,taken,serving⟩ := Option.bind_eq_some_iff.mp serving
    obtain ⟨server,served,rfl⟩ := Option.map_eq_some_iff.mp serving
    exact .read connection sd n state server opened some_bytes taken served
  | disconnected connection sd total =>
    obtain ⟨opened,serving⟩ := Option.ite_none_right_eq_some.mp stepped
    obtain ⟨state,taken,serving⟩ := Option.bind_eq_some_iff.mp serving
    obtain ⟨server,served,rfl⟩ := Option.map_eq_some_iff.mp serving
    exact .disconnected connection sd total state server opened taken served

end system

end ProtocolTests.Connections
