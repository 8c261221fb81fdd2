import ProtocolTests.ConnectionTotals
import ProtocolTests.Library.Progress
import Mathlib.Algebra.Order.BigOperators.Group.Finset

/-! The system does not get stuck and does not go on for ever: where `select` names only
descriptors that are ready, no `accept` and no read waits, and every run ends with a
report about every connection. -/
namespace ProtocolTests.ConnectionProgress
open Library.Run Library.Media Library.Progress Library.SlotTable ServerTable ServerTotals Connections ConnectionTotals

variable {clients : Nat} {α μ ν : Type}

/-- A read from the descriptor would return. -/
def Due (medium : Medium α μ ν) (system : System clients α μ) (sd : Int) : Prop :=
  ∃ connection, system.phase connection = .opened sd ∧ medium.Ready (system.between connection)

/-- `select` waits until something is ready, and names only what is. -/
def Productive (medium : Medium α μ ν) (masterSocket : Int) (system : System clients α μ) : Act clients ν → Prop
  | .selected readfds => readfds.Nonempty ∧ ∀ sd ∈ readfds,
      (sd = masterSocket ∧ ∃ connection, system.phase connection = .pending) ∨ Due medium system sd
  | _ => True

/-- Every client connects each of its channels once, and closes each. -/
structure Complete (channels : Nat) (plan : Fin clients → List (Command α)) : Prop where
  connects : ∀ client, ∀ channel < channels, .connect channel ∈ plan client
  closes : ∀ client, ∀ channel < channels, .close channel ∈ plan client
  once : ∀ client channel done rest, plan client = done ++ .connect channel :: rest → .connect channel ∉ done

/-- What the server is about to do will not block: not the `accept`, and not the reads of the
slots that the third loop has still to come to. -/
structure Polling (medium : Medium α μ ν) (masterSocket : Int) (system : System clients α μ) : Prop where
  running : system.server.position ≠ .exited
  accepting : ∀ readfds, system.server.position = .accepting readfds →
    (∃ connection, system.phase connection = .pending) ∧ ∀ sd ∈ readfds, sd = masterSocket ∨ Due medium system sd
  reading : ∀ readfds i, system.server.position = .reading readfds i → ∀ j, i ≤ j →
    system.server.clientSocket j ∈ readfds → Due medium system (system.server.clientSocket j)

section polling
variable {medium : Medium α μ ν} {admitted : α → Prop} {intact : μ → Prop} (behaves : Behaves medium admitted intact)
  {channels : Nat} {program : Server.Program} {masterSocket : Int} {plan : Fin clients → List (Command α)}
  {history : List Server.Event} {system next : System clients α μ}

theorem scan_from {clientSocket : Server.Slot → Int} {readfds seen : Finset Int} {i : Nat} {j : Server.Slot}
    (here : Server.scan clientSocket readfds i = .reading seen j) : seen = readfds ∧ i ≤ j.val := by
  refine ⟨Server.scan_readfds clientSocket readfds seen i (by rw [here]; rfl),?_⟩
  unfold Server.scan at here
  split at here
  next found =>
    cases here
    exact (of_decide_eq_true (Fin.eq_true_of_find?_eq_some found)).1
  next => cases here

theorem polling_scan (readfds : Finset Int) (i : Nat)
    (position : next.server.position = Server.scan next.server.clientSocket readfds i)
    (due : ∀ j : Server.Slot, i ≤ j.val → next.server.clientSocket j ∈ readfds →
      Due medium next (next.server.clientSocket j)) : Polling medium masterSocket next := by
  refine ⟨?_,fun seen accepting => ?_,fun seen j reading k later => ?_⟩
  · rw [position,Server.scan]
    split <;> exact Server.Position.noConfusion
  · rw [position] at accepting
    exact absurd accepting (Server.scan_not_accepting _ _ _ _)
  · rw [position] at reading
    obtain ⟨rfl,passed⟩ := scan_from reading
    exact due k (passed.trans later)

theorem polling_kept (polling : Polling medium masterSocket system) (server : next.server = system.server)
    (pending : ∀ connection, system.phase connection = .pending → next.phase connection = .pending)
    (due : ∀ sd, Due medium system sd → Due medium next sd) : Polling medium masterSocket next := by
  refine ⟨by rw [server]; exact polling.running,fun readfds => ?_,fun readfds i => ?_⟩
  · rw [server]
    intro here
    obtain ⟨⟨connection,waiting⟩,ready⟩ := polling.accepting readfds here
    exact ⟨⟨connection,pending connection waiting⟩,fun sd member => (ready sd member).imp_right (due sd)⟩
  · rw [server]
    exact fun here j later member => due _ (polling.reading readfds i here j later member)

theorem slot_live {program : Server.Program} (attached : Attached program masterSocket history system) (i : Server.Slot)
    (used : system.server.clientSocket i ≠ 0) : system.server.clientSocket i ∈ live history ∧
      0 < system.server.clientSocket i ∧ system.server.clientSocket i ≠ masterSocket := by
  have tidy := (counts_run attached.lawful attached.ran).1
  have member := slot_mem tidy.holds i used
  exact ⟨member,tidy.positive _ member⟩

theorem due_positive {program : Server.Program} (attached : Attached program masterSocket history system) {sd : Int}
    (due : Due medium system sd) : 0 < sd ∧ sd ≠ masterSocket := by
  obtain ⟨connection,opened,_⟩ := due
  have tidy := (counts_run attached.lawful attached.ran).1
  exact tidy.positive sd ((attached.mem_live sd).mpr ⟨connection,opened⟩)

include behaves in
theorem polling_called (proper : Proper medium admitted channels plan) (along : Along medium channels plan system)
    (polling : Polling medium masterSocket system) {client : Fin clients} {command : Command α}
    {rest : List (Command α)} (current : system.remaining client = command :: rest)
    (possible : command.Possible fun channel => system.phase (client,channel)) :
    Polling medium masterSocket (called medium system client command rest) := by
  have phases (connection : Connection clients) (busy : system.phase connection ≠ .idle) :
      (called medium system client command rest).phase connection = system.phase connection := by
    simp only [called]
    split
    next same =>
      subst same
      exact (enter_cases possible connection.2).resolve_right fun entered => busy entered.1
    next => rfl
  refine polling_kept polling rfl (fun connection pending => ?_) ?_
  · exact (phases connection (by rw [pending]; exact Phase.noConfusion)).trans pending
  · rintro sd ⟨connection,opened,ready⟩
    refine ⟨connection,(phases connection (by rw [opened]; exact Phase.noConfusion)).trans opened,?_⟩
    simp only [called]
    split
    next same =>
      subst same
      cases command with
      | put other item =>
        by_cases here : other = connection.2
        · subst here
          simp only [Command.act,if_true]
          refine behaves.ready_put _ _ (Bool.eq_false_iff.mpr fun closed => ?_) ready
          have unsent := unsent_behind proper along closed item
          rw [current] at unsent
          exact unsent List.mem_cons_self
        · simpa [Command.act,here] using ready
      | close other =>
        by_cases here : other = connection.2
        · simpa [Command.act,here] using behaves.ready_close _ ready
        · simpa [Command.act,here] using ready
      | _ => exact ready
    next => exact ready

include behaves in
theorem polling_moved (polling : Polling medium masterSocket system) {connection : Connection clients} {motion : ν}
    {state : μ} (moved : medium.move (system.between connection) motion = some state) :
    Polling medium masterSocket (onMedium system connection state) := by
  refine polling_kept polling rfl (fun _ pending => pending) ?_
  rintro sd ⟨owner,opened,ready⟩
  refine ⟨owner,opened,?_⟩
  by_cases here : owner = connection
  · subst here
    rw [onMedium_here]
    exact behaves.ready_move _ _ _ moved ready
  · rw [onMedium_apart system state here]
    exact ready

theorem polling_selected {program : Server.Program} (attached : Attached program masterSocket history system)
    {readfds : Finset Int} {server : Server.State}
    (named : ∀ sd ∈ readfds, (sd = masterSocket ∧ ∃ connection, system.phase connection = .pending) ∨ Due medium system sd)
    (served : Server.step program masterSocket system.server (.selected readfds) = some server) :
    Polling medium masterSocket {system with server} := by
  cases Server.step_transition served with
  | selected _ here selectable =>
    by_cases master : masterSocket ∈ readfds
    · have position : (Server.look masterSocket system.server readfds).position = .accepting readfds := if_pos master
      refine ⟨by rw [position]; exact Server.Position.noConfusion,fun seen accepting => ?_,fun seen i reading => ?_⟩
      · rw [position] at accepting
        cases accepting
        refine ⟨?_,fun sd member => (named sd member).imp_left And.left⟩
        rcases named masterSocket master with waiting | due
        · exact waiting.2
        · exact absurd rfl (due_positive attached due).2
      · rw [position] at reading
        cases reading
    · refine polling_scan readfds 0 (if_neg master) fun j _ member => ?_
      refine (named _ member).resolve_left fun waiting => master ?_
      rw [← waiting.1]
      exact member
  | exits _ failed _ => rcases failed with same | same <;> cases same

theorem polling_accepted {program : Server.Program} (attached : Attached program masterSocket history system)
    (polling : Polling medium masterSocket system) (listening : 0 < masterSocket) {connection : Connection clients}
    {newSocket : Int} {server : Server.State} {descriptors : Finset Int} (pending : system.phase connection = .pending)
    (succeeds : Succeeds masterSocket history (.accepted newSocket))
    (served : Server.step program masterSocket system.server (.accepted newSocket) = some server) :
    Polling medium masterSocket {enter system connection (.opened newSocket) with server,descriptors} := by
  cases Server.step_transition served with
  | accepted readfds _ here valid =>
    obtain ⟨_,other,new,room⟩ := succeeds
    have tidy := (counts_run attached.lawful attached.ran).1
    obtain ⟨slot,free,stored⟩ :=
      Server.addNewSocket_vacant system.server.clientSocket newSocket (exists_vacant tidy.holds room)
    have ready := (polling.accepting readfds here).2
    have still (sd : Int) (due : Due medium system sd) :
        Due medium {enter system connection (.opened newSocket) with
          server := Server.enlist system.server readfds newSocket
          descriptors} sd := by
      obtain ⟨owner,opened,waits⟩ := due
      refine ⟨owner,(enter_apart system _ fun same => ?_).trans opened,waits⟩
      rw [same,pending] at opened
      cases opened
    refine polling_scan readfds 0 rfl fun j _ member => still _ ?_
    simp only [Server.enlist_clientSocket,stored] at member ⊢
    by_cases same : j = slot
    · rw [same,Function.update_self] at member ⊢
      exact (ready _ member).resolve_left other
    · rw [Function.update_of_ne same] at member ⊢
      refine (ready _ member).resolve_left fun master => ?_
      by_cases used : system.server.clientSocket j = 0
      · omega
      · exact (slot_live attached j used).2.2 master
  | exits _ failed _ => rcases failed with same | same <;> cases same

/-- The slots behind the one that was read wait for other connections. -/
theorem due_later {program : Server.Program} (attached : Attached program masterSocket history system)
    (polling : Polling medium masterSocket system) {readfds : Finset Int} {i j : Server.Slot}
    (here : system.server.position = .reading readfds i) (later : i.val + 1 ≤ j.val)
    (member : system.server.clientSocket j ∈ readfds) {connection : Connection clients}
    (opened : system.phase connection = .opened (system.server.clientSocket i)) :
    ∃ other, other ≠ connection ∧ system.phase other = .opened (system.server.clientSocket j) ∧
      medium.Ready (system.between other) := by
  have tidy := (counts_run attached.lawful attached.ran).1
  obtain ⟨other,owns,ready⟩ := polling.reading readfds i here j (Nat.le_of_succ_le later) member
  refine ⟨other,?_,owns,ready⟩
  rintro rfl
  have same := Phase.opened.inj (opened.symm.trans owns)
  have used := (due_positive attached (show Due medium system _ from ⟨other,owns,ready⟩)).1
  have slot := tidy.holds.distinct j i (by omega) same.symm
  rw [slot] at later
  omega

theorem polling_read {program : Server.Program} (attached : Attached program masterSocket history system)
    (polling : Polling medium masterSocket system) {connection : Connection clients} {sd : Int} {bytesRead : Int32}
    {state : μ} {server : Server.State} (opened : system.phase connection = .opened sd)
    (served : Server.step program masterSocket system.server (.read sd bytesRead) = some server) :
    Polling medium masterSocket {onMedium system connection state with server} := by
  cases Server.step_transition served with
  | read readfds i _ here _ =>
    refine polling_scan readfds (i.val+1) rfl fun j later member => ?_
    obtain ⟨other,apart,owns,ready⟩ := due_later attached polling here later member opened
    refine ⟨other,owns,?_⟩
    change medium.Ready ((onMedium system connection state).between other)
    rw [onMedium_apart system state apart]
    exact ready
  | exits _ failed _ => rcases failed with same | same <;> cases same

theorem polling_disconnected {program : Server.Program} (attached : Attached program masterSocket history system)
    (polling : Polling medium masterSocket system) {connection : Connection clients} {sd : Int} {total : Int32}
    {state : μ} {server : Server.State} {descriptors : Finset Int} (opened : system.phase connection = .opened sd)
    (served : Server.step program masterSocket system.server (.disconnected sd total) = some server) :
    Polling medium masterSocket
      {enter (onMedium system connection state) connection (.reported total) with server,descriptors} := by
  cases Server.step_transition served with
  | disconnected readfds i here =>
    refine polling_scan readfds (i.val+1) rfl fun j later member => ?_
    have slot : j ≠ i := by
      rintro rfl
      omega
    simp only [Server.release_clientSocket,Function.update_of_ne slot] at member ⊢
    obtain ⟨other,apart,owns,ready⟩ := due_later attached polling here later member opened
    refine ⟨other,(enter_apart _ _ apart).trans owns,?_⟩
    change medium.Ready ((onMedium system connection state).between other)
    rw [onMedium_apart system state apart]
    exact ready
  | exits _ failed _ => rcases failed with same | same <;> cases same

end polling

section potential
variable {medium : Medium α μ ν} {admitted : α → Prop} {intact : μ → Prop} (behaves : Behaves medium admitted intact)
  {channels : Nat} {program : Server.Program} {masterSocket : Int} {plan : Fin clients → List (Command α)}
  {history : List Server.Event} {system next : System clients α μ}

def phaseWeight : Phase → Nat
  | .pending => 4
  | .opened _ => 2
  | _ => 0

def weight (medium : Medium α μ ν) : Command α → Nat
  | .connect _ => 5
  | .put _ item => medium.effort item + 1
  | _ => 1

def weights (medium : Medium α μ ν) (commands : List (Command α)) : Nat := (commands.map (weight medium)).sum

def burden (medium : Medium α μ ν) (system : System clients α μ) (connection : Connection clients) : Nat :=
  medium.work (system.between connection) + phaseWeight (system.phase connection)

def connections (clients channels : Nat) : Finset (Connection clients) := Finset.univ ×ˢ Finset.range channels

theorem mem_connections {connection : Connection clients} :
    connection ∈ connections clients channels ↔ connection.2 < channels := by
  simp [connections]

def waiting (server : Server.State) : Nat := if server.position = .selecting then 1 else 0

/-- Bounds the acts that are still to come. -/
def potential (medium : Medium α μ ν) (channels : Nat) (system : System clients α μ) : Nat :=
  (∑ client, weights medium (system.remaining client)) +
    (∑ connection ∈ connections clients channels, burden medium system connection) +
    waiting system.server

theorem sum_local {ι : Type} [DecidableEq ι] {indices : Finset ι} {f g : ι → Nat} {i : ι} (member : i ∈ indices)
    (elsewhere : ∀ j, j ≠ i → g j = f j) : ∑ j ∈ indices, g j + f i = ∑ j ∈ indices, f j + g i := by
  have others : ∑ j ∈ indices.erase i, g j = ∑ j ∈ indices.erase i, f j :=
    Finset.sum_congr rfl fun j apart => elsewhere j (Finset.ne_of_mem_erase apart)
  rw [← Finset.add_sum_erase indices f member,← Finset.add_sum_erase indices g member,others]
  omega

theorem act_apart (medium : Medium α μ ν) {command : Command α} {channel other : Nat} (named : command.channel? = some channel)
    (apart : other ≠ channel) (state : μ) (phase : Phase) :
    command.act medium other state = state ∧ command.enter other phase = phase := by
  cases command with
  | silent => cases named
  | _ =>
    obtain rfl := Option.some.inj named
    simp [Command.act,Command.enter,apart.symm]

include behaves in
/-- A call costs more than the work that it makes. -/
theorem call_weight {command : Command α} {phase : Nat → Phase} (possible : command.Possible phase) (channel : Nat)
    (state : μ) : medium.work (command.act medium channel state) + phaseWeight (command.enter channel (phase channel)) + 1 ≤
      medium.work state + phaseWeight (phase channel) + weight medium command := by
  cases command with
  | connect other =>
    rcases enter_cases possible channel with still | ⟨idle,pending⟩
    · rw [still]
      simp only [Command.act,weight]
      omega
    · rw [idle] at pending ⊢
      rw [pending]
      simp only [Command.act,weight,phaseWeight]
      omega
  | put other item =>
    have more := behaves.work_put state item
    simp only [Command.act,Command.enter,weight]
    split <;> omega
  | close other =>
    have same := behaves.work_close state
    simp only [Command.act,Command.enter,weight]
    split <;> omega
  | silent => exact le_refl _

include behaves in
theorem potential_called (proper : Proper medium admitted channels plan) (along : Along medium channels plan system)
    {client : Fin clients} {command : Command α} {rest : List (Command α)}
    (current : system.remaining client = command :: rest)
    (possible : command.Possible fun channel => system.phase (client,channel)) :
    potential medium channels (called medium system client command rest) < potential medium channels system := by
  obtain ⟨done,whole,_⟩ := along.progress client
  have here : command ∈ plan client := by
    rw [whole,current]
    simp
  have calls := sum_local (Finset.mem_univ client) (f := fun client => weights medium (system.remaining client))
    (g := fun other => weights medium ((called medium system client command rest).remaining other))
    fun other apart => by simp only [called,Function.update_of_ne apart]
  have current_weight : weights medium (system.remaining client) = weight medium command + weights medium rest := by
    simp [weights,current]
  have rest_weight : weights medium ((called medium system client command rest).remaining client) = weights medium rest := by
    simp [called]
  have loads :
      ∑ connection ∈ connections clients channels, burden medium (called medium system client command rest) connection + 1 ≤
      ∑ connection ∈ connections clients channels, burden medium system connection +
        weight medium command := by
    cases named : command.channel? with
    | none =>
      obtain rfl : command = .silent := by
        cases command with
        | silent => rfl
        | _ => cases named
      refine Nat.add_le_add (le_of_eq (Finset.sum_congr rfl fun connection _ => ?_)) (le_refl _)
      simp [burden,called,Command.act,Command.enter]
    | some channel =>
      have bound := proper.inside client command here channel named
      have owner : (client,channel) ∈ connections clients channels := mem_connections.mpr bound
      have local_change := sum_local owner (f := burden medium system)
        (g := burden medium (called medium system client command rest)) fun other apart => by
          simp only [burden,called]
          by_cases same : other.1 = client
          · have elsewhere : other.2 ≠ channel := fun equal => apart (Prod.ext same equal)
            obtain ⟨act,entered⟩ :=
              act_apart medium named elsewhere (system.between other) (system.phase other)
            rw [if_pos same,if_pos same,act,entered]
          · rw [if_neg same,if_neg same]
      have cost := call_weight behaves possible channel (system.between (client,channel))
      have load_here : burden medium (called medium system client command rest) (client,channel) =
          medium.work (command.act medium channel (system.between (client,channel))) +
            phaseWeight (command.enter channel (system.phase (client,channel))) := by
        simp [burden,called]
      have load_before : burden medium system (client,channel) =
        medium.work (system.between (client,channel)) + phaseWeight (system.phase (client,channel)) := rfl
      omega
  have position : (called medium system client command rest).server = system.server := rfl
  simp only [current_weight,rest_weight] at calls
  simp only [potential,position]
  omega

theorem potential_local {connection : Connection clients} {state : μ} {phase : Phase} (inside : connection.2 < channels)
    (remaining : next.remaining = system.remaining)
    (between : next.between = Function.update system.between connection state)
    (phases : next.phase = Function.update system.phase connection phase)
    (lower : medium.work state + phaseWeight phase + waiting next.server <
      medium.work (system.between connection) + phaseWeight (system.phase connection) + waiting system.server) :
    potential medium channels next < potential medium channels system := by
  have change := sum_local (mem_connections.mpr inside) (f := burden medium system) (g := burden medium next)
    fun other apart => by rw [burden,burden,between,phases,Function.update_of_ne apart,Function.update_of_ne apart]
  have here : burden medium next connection = medium.work state + phaseWeight phase := by
    rw [burden,between,phases,Function.update_self,Function.update_self]
  have before : burden medium system connection =
    medium.work (system.between connection) + phaseWeight (system.phase connection) := rfl
  simp only [potential,remaining]
  omega

theorem waiting_le (server : Server.State) : waiting server ≤ 1 := by
  unfold waiting
  split
  next => exact le_refl 1
  next => exact Nat.zero_le 1

theorem waiting_served {before after : Server.State} {event : Server.Event}
    (served : Server.step program masterSocket before event = some after) (answered : ∀ readfds, event ≠ .selected readfds)
    (works : event ≠ .selectFailed) (accepts : event ≠ .acceptFailed) : waiting before = 0 := by
  cases Server.step_transition served with
  | selected readfds here _ => exact absurd rfl (answered readfds)
  | selectGoesOn => exact absurd rfl works
  | accepted readfds newSocket here _ => rw [waiting,here,if_neg Server.Position.noConfusion]
  | acceptGoesOn => exact absurd rfl accepts
  | read readfds i bytesRead here _ => rw [waiting,here,if_neg Server.Position.noConfusion]
  | disconnected readfds i here => rw [waiting,here,if_neg Server.Position.noConfusion]
  | exits _ failed _ =>
    rcases failed with same | same
    · exact absurd same works
    · exact absurd same accepts

/-- A `select` that named something is followed by an `accept` or a read. -/
theorem waiting_selected (attached : Attached program masterSocket history system) {readfds : Finset Int}
    {server : Server.State} (some_ready : readfds.Nonempty)
    (named : ∀ sd ∈ readfds, (sd = masterSocket ∧ ∃ connection, system.phase connection = .pending) ∨ Due medium system sd)
    (served : Server.step program masterSocket system.server (.selected readfds) = some server) :
    waiting system.server = 1 ∧ waiting server = 0 := by
  cases Server.step_transition served with
  | selected _ here selectable =>
    refine ⟨by rw [waiting,here,if_pos rfl],if_neg ?_⟩
    simp only [Server.look_position,Server.dispatch]
    split
    next => exact Server.Position.noConfusion
    next master =>
      obtain ⟨sd,member⟩ := some_ready
      have due := (named sd member).resolve_left fun listening => master (by rw [← listening.1]; exact member)
      obtain ⟨connection,opened,_⟩ := due
      have tidy := (counts_run attached.lawful attached.ran).1
      obtain ⟨_,j,slot⟩ := (tidy.holds.mem_iff sd).mp ((attached.mem_live sd).mpr ⟨connection,opened⟩)
      unfold Server.scan
      split
      next => exact Server.Position.noConfusion
      next full =>
        have missed := Fin.find?_eq_none_iff.mp full j
        simp [slot,member] at missed
  | exits _ failed _ => rcases failed with same | same <;> cases same

include behaves in
theorem potential_step {act : Act clients ν} (proper : Proper medium admitted channels plan)
    (sound : Sound medium intact channels program masterSocket plan history system)
    (allowed : Productive medium masterSocket system act)
    (stepped : step medium program masterSocket system act = some next) :
    potential medium channels next < potential medium channels system := by
  obtain ⟨attached,along,balanced⟩ := sound
  have inside (connection : Connection clients) (phase : Phase) (here : system.phase connection = phase)
      (busy : phase ≠ .idle) : connection.2 < channels := inside_channels proper along connection (here ▸ busy)
  cases step_transition medium program masterSocket stepped with
  | call client command rest current possible => exact potential_called behaves proper along current possible
  | move connection motion state moved =>
    have within : connection.2 < channels := by
      by_contra beyond
      rw [along.outside connection (Nat.le_of_not_lt beyond),behaves.still] at moved
      cases moved
    have lower := behaves.work_move _ _ _ moved
    refine potential_local within rfl rfl (Function.update_eq_self connection system.phase).symm ?_
    exact Nat.add_lt_add_right (Nat.add_lt_add_right lower _) _
  | selected readfds server served =>
    obtain ⟨before,after⟩ := waiting_selected attached allowed.1 allowed.2 served
    simp only [potential,before,after]
    exact Nat.lt_succ_self _
  | accepted connection newSocket server pending positive unused served =>
    have before := waiting_served served (fun _ => Server.Event.noConfusion) Server.Event.noConfusion
      Server.Event.noConfusion
    have after := waiting_le server
    refine potential_local (inside connection _ pending Phase.noConfusion) rfl
      (Function.update_eq_self connection system.between).symm rfl ?_
    simp only [pending,phaseWeight,before]
    omega
  | read connection sd n state server opened some_bytes taken served =>
    have before := waiting_served served (fun _ => Server.Event.noConfusion) Server.Event.noConfusion
      Server.Event.noConfusion
    have after := waiting_le server
    have lower := (behaves.work_read _ _ _ taken).2 some_bytes
    refine potential_local (inside connection _ opened Phase.noConfusion) rfl rfl
      (Function.update_eq_self connection system.phase).symm ?_
    simp only [before]
    omega
  | disconnected connection sd total state server opened taken served =>
    have before := waiting_served served (fun _ => Server.Event.noConfusion) Server.Event.noConfusion
      Server.Event.noConfusion
    have after := waiting_le server
    have lower := (behaves.work_read _ _ _ taken).1
    refine potential_local (inside connection _ opened Phase.noConfusion) rfl rfl rfl ?_
    simp only [opened,phaseWeight,before]
    omega

end potential

section runs
variable {medium : Medium α μ ν} {admitted : α → Prop} {intact : μ → Prop} (behaves : Behaves medium admitted intact)
  (narrow : medium.limit < 2^31) {channels : Nat} {program : Server.Program} {masterSocket : Int} (listening : 0 < masterSocket)
  {plan : Fin clients → List (Command α)} (proper : Proper medium admitted channels plan) {history : List Server.Event}
  {system : System clients α μ} (sound : Sound medium intact channels program masterSocket plan history system)
  (polling : Polling medium masterSocket system)

include behaves listening proper sound polling in
theorem polling_step {next : System clients α μ} {act : Act clients ν}
    (allowed : Productive medium masterSocket system act)
    (stepped : step medium program masterSocket system act = some next) : Polling medium masterSocket next := by
  cases step_transition medium program masterSocket stepped with
  | call client command rest current possible =>
    exact polling_called behaves proper sound.along polling current possible
  | move connection motion state moved => exact polling_moved behaves polling moved
  | selected readfds server served => exact polling_selected sound.attached allowed.2 served
  | accepted connection newSocket server pending positive unused served =>
    exact polling_accepted sound.attached polling listening pending (accepts proper sound pending positive unused) served
  | read connection sd n state server opened some_bytes taken served =>
    exact polling_read sound.attached polling opened served
  | disconnected connection sd total state server opened taken served =>
    exact polling_disconnected sound.attached polling opened served

theorem exists_unused (descriptors : Finset Int) : ∃ newSocket, 0 < newSocket ∧ newSocket ∉ descriptors := by
  obtain ⟨n,out⟩ := Infinite.exists_notMem_finset (descriptors.image fun sd => (sd - 1).toNat)
  refine ⟨n + 1,by omega,fun member => out ?_⟩
  exact Finset.mem_image.mpr ⟨n + 1,member,by omega⟩

include polling in
/-- The `accept` and the reads that the server comes to all return. -/
theorem never_blocks (attached : Attached program masterSocket history system)
    (narrow : medium.limit < 2^31) (busy : system.server.position ≠ .selecting) :
    ∃ act : Act clients ν, Productive medium masterSocket system act ∧ act.event?.isSome ∧
      (step medium program masterSocket system act).isSome := by
  cases position : system.server.position with
  | selecting => exact absurd position busy
  | exited => exact absurd position polling.running
  | accepting readfds =>
    obtain ⟨connection,pending⟩ := (polling.accepting readfds position).1
    obtain ⟨newSocket,positive,unused⟩ := exists_unused system.descriptors
    refine ⟨.accepted connection newSocket,trivial,rfl,?_⟩
    have served : Server.step program masterSocket system.server (.accepted newSocket) =
        some (Server.enlist system.server readfds newSocket) := by
      simp only [Server.step,position]
      exact if_pos (le_of_lt positive)
    simp only [step,pending,positive,unused,not_false_eq_true,and_self,if_true,served,Option.map_some,Option.isSome_some]
  | reading readfds i =>
    have ready := (counts_run attached.lawful attached.ran).1.ready readfds i position
    obtain ⟨connection,opened,n,small,possible⟩ := polling.reading readfds i position i (le_refl _) ready
    obtain ⟨state,taken⟩ := Option.isSome_iff_exists.mp possible
    by_cases ended : n = 0
    · subst ended
      refine ⟨.disconnected connection (system.server.clientSocket i) (system.server.clientReads i),trivial,rfl,?_⟩
      have served : Server.step program masterSocket system.server
          (.disconnected (system.server.clientSocket i) (system.server.clientReads i)) =
          some (Server.release system.server readfds i) := by
        simp [Server.step,position]
      simp only [step,opened,if_true,taken,Option.bind_some,served,Option.map_some,Option.isSome_some]
    · have some_bytes : Int32.ofNat n ≠ 0 := by
        intro none_read
        have bytes : (Int32.ofNat n).toInt = n := Int32.toInt_ofNat_of_lt (lt_of_le_of_lt small narrow)
        rw [none_read] at bytes
        exact ended (Int.ofNat_eq_zero.mp bytes.symm)
      refine ⟨.read connection (system.server.clientSocket i) n,trivial,rfl,?_⟩
      have served : Server.step program masterSocket system.server
          (.read (system.server.clientSocket i) (Int32.ofNat n)) =
          some (Server.count system.server readfds i (Int32.ofNat n)) := by
        simp [Server.step,position,some_bytes]
      simp only [step,opened,ne_eq,ended,not_false_eq_true,and_self,if_true,taken,Option.bind_some,served,
        Option.map_some,Option.isSome_some]

omit polling in
/-- A `select` reports what is ready. -/
theorem select_possible (attached : Attached program masterSocket history system)
    (idle : system.server.position = .selecting) {sd : Int}
    (ready : (sd = masterSocket ∧ ∃ connection, system.phase connection = .pending) ∨ Due medium system sd) :
    Productive medium masterSocket system (.selected {sd} : Act clients ν) ∧
      (step medium program masterSocket system (.selected {sd})).isSome := by
  have watched : sd = masterSocket ∨ 0 < sd ∧ ∃ i, system.server.clientSocket i = sd := by
    rcases ready with ⟨listening,_⟩ | ⟨connection,opened,_⟩
    · exact Or.inl listening
    · have tidy := (counts_run attached.lawful attached.ran).1
      have member := (attached.mem_live sd).mpr ⟨connection,opened⟩
      exact Or.inr ⟨(tidy.positive sd member).1,((tidy.holds.mem_iff sd).mp member).2⟩
  have selectable : Server.Selectable (Server.rebuild masterSocket system.server.clientSocket) {sd} :=
    (Server.selectable_iff _ _ _).mpr fun other member => by
      obtain rfl := Finset.mem_singleton.mp member
      exact watched
  have served : Server.step program masterSocket system.server (.selected {sd}) =
      some (Server.look masterSocket system.server {sd}) := by
    simp only [Server.step,idle]
    exact if_pos selectable
  refine ⟨⟨Finset.singleton_nonempty sd,fun other member => ?_⟩,?_⟩
  · obtain rfl := Finset.mem_singleton.mp member
    exact ready
  · simp only [step,served,Option.map_some,Option.isSome_some]

include behaves sound polling in
/-- Nothing is left to do only when every client is through and every connection is reported. -/
theorem stuck_reported (narrow : medium.limit < 2^31) (complete : Complete channels plan)
    (stuck : Stuck (step medium program masterSocket) (Productive medium masterSocket) system) :
    (∀ client, system.remaining client = []) ∧
      ∀ client, ∀ channel < channels, ∃ total, system.phase (client,channel) = .reported total := by
  obtain ⟨attached,along,balanced⟩ := sound
  have impossible {act : Act clients ν} (allowed : Productive medium masterSocket system act)
      (possible : (step medium program masterSocket system act).isSome) : False := by
    rw [stuck act allowed] at possible
    cases possible
  have idle : system.server.position = .selecting := by
    by_contra busy
    obtain ⟨act,allowed,_,possible⟩ := never_blocks (ν := ν) polling attached narrow busy
    exact impossible allowed possible
  have through (client : Fin clients) : system.remaining client = [] := by
    cases current : system.remaining client with
    | nil => rfl
    | cons command rest =>
      obtain ⟨done,whole,shows⟩ := along.progress client
      have possible : command.Possible fun channel => system.phase (client,channel) := by
        cases command with
        | connect channel =>
          rw [current] at whole
          have unconnected := complete.once client channel done rest whole
          exact not_not.mp fun busy => unconnected ((shows channel).1.mp busy)
        | _ => trivial
      refine (impossible (show Productive medium masterSocket system (.call client) from trivial) ?_).elim
      simp only [step,current,possible,if_true,Option.isSome_some]
  refine ⟨through,fun client channel inside => ?_⟩
  obtain ⟨done,whole,shows⟩ := along.progress client
  rw [through client,List.append_nil] at whole
  have busy := (shows channel).1.mpr (whole ▸ complete.connects client channel inside)
  have closed := (shows channel).2.mpr (whole ▸ complete.closes client channel inside)
  have ready : medium.Ready (system.between (client,channel)) := by
    refine (behaves.live _ (balanced.intact (client,channel)) closed).resolve_right ?_
    rintro ⟨motion,state,moved⟩
    refine impossible (show Productive medium masterSocket system (.move (client,channel) motion) from trivial) ?_
    simp only [step,moved,Option.map_some,Option.isSome_some]
  cases phase : system.phase (client,channel) with
  | idle => exact absurd phase busy
  | pending =>
    obtain ⟨allowed,possible⟩ := select_possible attached idle (Or.inl ⟨rfl,_,phase⟩)
    exact (impossible allowed possible).elim
  | opened sd =>
    obtain ⟨allowed,possible⟩ := select_possible attached idle (Or.inr ⟨_,phase,ready⟩)
    exact (impossible allowed possible).elim
  | reported total => exact ⟨total,rfl⟩

/-- Everything is through: the clients have made all their calls, and every connection has
been reported with the bytes that were put into it and that the medium has not lost. -/
def Finished (medium : Medium α μ ν) (channels : Nat) (plan : Fin clients → List (Command α))
    (system : System clients α μ) : Prop :=
  (∀ client, system.remaining client = []) ∧ ∀ client, ∀ channel < channels, ∃ total,
    system.phase (client,channel) = .reported total ∧
      total.toInt + medium.lost (system.between (client,channel)) = due medium channel (plan client)

abbrev Runs (medium : Medium α μ ν) (program : Server.Program) (masterSocket : Int)
    (plan : Fin clients → List (Command α)) : List (Act clients ν) → System clients α μ → Prop :=
  Guided (step medium program masterSocket) (Productive medium masterSocket) (begin medium masterSocket plan)

/-- However the acts interleave, there are only so many of them, the server does not wait
in an `accept` or a read, and the system finishes and does not stop before. -/
structure Finishes (medium : Medium α μ ν) (channels : Nat) (program : Server.Program) (masterSocket : Int)
    (plan : Fin clients → List (Command α)) : Prop where
  bounded : ∀ acts system, Runs medium program masterSocket plan acts system →
    acts.length ≤ potential medium channels (begin medium masterSocket plan)
  unblocked : ∀ acts system, Runs medium program masterSocket plan acts system →
    system.server.position ≠ .selecting →
    ∃ act : Act clients ν, Productive medium masterSocket system act ∧ act.event?.isSome ∧
      (step medium program masterSocket system act).isSome
  completes : ∀ acts system, Runs medium program masterSocket plan acts system →
    ∃ more final, Runs medium program masterSocket plan (acts ++ more) final ∧ Finished medium channels plan final
  stops : ∀ acts system, Runs medium program masterSocket plan acts system →
    Stuck (step medium program masterSocket) (Productive medium masterSocket) system →
    Finished medium channels plan system

include behaves narrow listening proper in
theorem runs_polling {acts : List (Act clients ν)} {system : System clients α μ}
    (ran : Runs medium program masterSocket plan acts system) :
    Sound medium intact channels program masterSocket plan (events acts) system ∧
      Polling medium masterSocket system := by
  refine guided_invariant (fun acts system => Sound medium intact channels program masterSocket plan (events acts) system ∧
    Polling medium masterSocket system) ?_ (fun acts system act next _ held allowed stepped => ?_) ran
  · refine ⟨⟨attached_begin medium plan,along_begin behaves,balanced_begin behaves⟩,?_⟩
    exact ⟨Server.Position.noConfusion,fun _ => Server.Position.noConfusion,fun _ _ => Server.Position.noConfusion⟩
  · exact ⟨sound_step behaves narrow proper held.1 stepped,
      polling_step behaves listening proper held.1 held.2 allowed stepped⟩

include behaves narrow listening proper in
theorem finishes (complete : Complete channels plan) : Finishes medium channels program masterSocket plan := by
  have lowers (acts : List (Act clients ν)) (system : System clients α μ) (act : Act clients ν)
      (next : System clients α μ) (ran : Runs medium program masterSocket plan acts system)
      (allowed : Productive medium masterSocket system act)
      (stepped : step medium program masterSocket system act = some next) :
      potential medium channels next < potential medium channels system :=
    potential_step behaves proper (runs_polling behaves narrow listening proper ran).1 allowed stepped
  have stops (acts : List (Act clients ν)) (system : System clients α μ)
      (ran : Runs medium program masterSocket plan acts system)
      (stuck : Stuck (step medium program masterSocket) (Productive medium masterSocket) system) :
      Finished medium channels plan system := by
    obtain ⟨sound,polling⟩ := runs_polling behaves narrow listening proper ran
    obtain ⟨through,reported⟩ := stuck_reported behaves sound polling narrow complete stuck
    refine ⟨through,fun client channel inside => ?_⟩
    obtain ⟨total,phase⟩ := reported client channel inside
    exact ⟨total,phase,reported_due behaves narrow proper (guided_run ran) phase⟩
  refine ⟨fun acts system ran => ?_,fun acts system ran busy => ?_,fun acts system ran => ?_,stops⟩
  · exact (Nat.le_add_right _ _).trans (guided_bounded (potential medium channels) lowers ran)
  · obtain ⟨sound,polling⟩ := runs_polling behaves narrow listening proper ran
    exact never_blocks polling sound.attached narrow busy
  · obtain ⟨more,final,longer,stuck⟩ := guided_completes (potential medium channels) lowers ran
    exact ⟨more,final,longer,stops _ final longer stuck⟩

end runs

end ProtocolTests.ConnectionProgress
