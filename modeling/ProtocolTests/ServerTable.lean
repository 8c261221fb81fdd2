import ProtocolTests.Server
import ProtocolTests.Library.SlotTable

/-! The table of descriptors over a whole run: which connections it holds, and which
descriptors the third loop reads. -/
namespace ProtocolTests.ServerTable
open Library.Run Library.SlotTable Server

def follow (connections : Finset Int) : Event → Finset Int
  | .accepted newSocket => insert newSocket connections
  | .disconnected sd _ => connections.erase sd
  | _ => connections

/-- The connections that were accepted and whose read has not returned 0 since. -/
def live (history : List Event) : Finset Int := history.foldl follow ∅

@[simp] theorem live_nil : live [] = ∅ := rfl

@[simp] theorem live_concat (history : List Event) (event : Event) :
    live (history ++ [event]) = follow (live history) event := List.foldl_concat ..

/-- What the table relies on: an accepted descriptor is new and positive, and there is a
slot for it; a program that goes on after a failed `accept` has none; and descriptor 0
is not read as the listening socket. -/
def Orderly (program : Program) (masterSocket : Int) (past : List Event) : Event → Prop
  | .accepted newSocket =>
    0 < newSocket ∧ newSocket ≠ masterSocket ∧ newSocket ∉ live past ∧ (live past).card < MAX_CLIENTS
  | .acceptFailed => program.exitsOnFailure
  | .read sd _ => sd = masterSocket → 0 < masterSocket
  | .disconnected sd _ => sd = masterSocket → 0 < masterSocket
  | _ => True

structure Tidy (masterSocket : Int) (history : List Event) (state : State) : Prop where
  holds : Holds 0 state.clientSocket (live history)
  positive : ∀ sd ∈ live history, 0 < sd ∧ sd ≠ masterSocket
  blank : ∀ i, state.clientSocket i = 0 → state.clientReads i = 0
  watched : ∀ readfds, state.position.readfds? = some readfds → ∀ sd ∈ readfds, sd = masterSocket ∨ 0 < sd
  ready : ∀ readfds i, state.position = .reading readfds i → state.clientSocket i ∈ readfds

section steps
variable {program : Program} {masterSocket : Int} {past : List Event} {state : State}

theorem tidy_start : Tidy masterSocket [] start where
  holds := holds_empty 0
  positive := by simp
  blank := fun _ _ => rfl
  watched := by simp [start,Position.readfds?]
  ready := by simp [start]

theorem reading_used (tidy : Tidy masterSocket past state) {readfds : Finset Int} {i : Slot}
    (here : state.position = .reading readfds i)
    (orderly : state.clientSocket i = masterSocket → 0 < masterSocket) : state.clientSocket i ≠ 0 := by
  intro unused
  have member := tidy.ready readfds i here
  rcases tidy.watched readfds (by rw [here]; rfl) _ member with master | used
  · have := orderly master
    omega
  · omega

theorem look_watched (masterSocket : Int) (state : State) (readfds : Finset Int)
    (subset : readfds ⊆ (rebuild masterSocket state.clientSocket).1) (seen : Finset Int)
    (here : (look masterSocket state readfds).position.readfds? = some seen) :
    ∀ sd ∈ seen, sd = masterSocket ∨ 0 < sd := by
  intro sd member
  obtain rfl := dispatch_readfds _ _ _ _ here
  rcases (mem_rebuild _ _ _).mp (subset member) with master | ⟨valid,_⟩
  · exact Or.inl master
  · exact Or.inr valid

theorem tidy_look (tidy : Tidy masterSocket past state) (event : Event) (kept : follow (live past) event = live past)
    (readfds : Finset Int) (subset : readfds ⊆ (rebuild masterSocket state.clientSocket).1) :
    Tidy masterSocket (past ++ [event]) (look masterSocket state readfds) := by
  obtain ⟨holds,positive,blank,_,_⟩ := tidy
  rw [← kept,← live_concat] at holds positive
  refine ⟨holds,positive,blank,look_watched masterSocket state readfds subset,?_⟩
  intro seen i here
  exact dispatch_ready _ _ _ _ _ here

theorem tidy_enlist (tidy : Tidy masterSocket past state) {readfds : Finset Int} {newSocket : Int}
    (here : state.position = .accepting readfds)
    (orderly : Orderly program masterSocket past (.accepted newSocket)) :
    Tidy masterSocket (past ++ [.accepted newSocket]) (enlist state readfds newSocket) := by
  obtain ⟨valid,other,new,room⟩ := orderly
  have vacant := exists_vacant tidy.holds room
  obtain ⟨i,free,stored⟩ := addNewSocket_vacant state.clientSocket newSocket vacant
  refine ⟨?_,?_,?_,?_,?_⟩
  · rw [live_concat,enlist_clientSocket,stored]
    exact holds_insert tidy.holds i free newSocket (by omega) new
  · intro sd member
    rw [live_concat,follow,Finset.mem_insert] at member
    rcases member with rfl | member
    · exact ⟨valid,other⟩
    · exact tidy.positive sd member
  · intro j unused
    rw [enlist_clientSocket,stored] at unused
    by_cases same : j = i
    · rw [same,Function.update_self] at unused
      omega
    · rw [Function.update_of_ne same] at unused
      exact tidy.blank j unused
  · intro seen later
    obtain rfl := scan_readfds _ _ _ _ later
    exact tidy.watched seen (by rw [here]; rfl)
  · intro seen j later
    exact scan_ready _ _ _ _ _ later

theorem tidy_count (tidy : Tidy masterSocket past state) {readfds : Finset Int} {i : Slot} (bytesRead : Int32)
    (here : state.position = .reading readfds i) (used : state.clientSocket i ≠ 0) :
    Tidy masterSocket (past ++ [.read (state.clientSocket i) bytesRead]) (count state readfds i bytesRead) := by
  refine ⟨by rw [live_concat]; exact tidy.holds,by rw [live_concat]; exact tidy.positive,?_,?_,?_⟩
  · intro j unused
    have apart : j ≠ i := by
      rintro rfl
      exact used unused
    rw [count_clientReads,Function.update_of_ne apart]
    exact tidy.blank j unused
  · intro seen later
    obtain rfl := scan_readfds _ _ _ _ later
    exact tidy.watched seen (by rw [here]; rfl)
  · intro seen j later
    exact scan_ready _ _ _ _ _ later

theorem tidy_release (tidy : Tidy masterSocket past state) {readfds : Finset Int} {i : Slot} (total : Int32)
    (here : state.position = .reading readfds i) (used : state.clientSocket i ≠ 0) :
    Tidy masterSocket (past ++ [.disconnected (state.clientSocket i) total]) (release state readfds i) := by
  refine ⟨?_,?_,?_,?_,?_⟩
  · rw [live_concat]
    exact holds_erase tidy.holds i used
  · intro sd member
    rw [live_concat] at member
    exact tidy.positive sd (Finset.mem_of_mem_erase member)
  · intro j unused
    by_cases same : j = i
    · rw [same,release_clientReads,Function.update_self]
    · rw [release_clientSocket,Function.update_of_ne same] at unused
      rw [release_clientReads,Function.update_of_ne same]
      exact tidy.blank j unused
  · intro seen later
    obtain rfl := scan_readfds _ _ _ _ later
    exact tidy.watched seen (by rw [here]; rfl)
  · intro seen j later
    exact scan_ready _ _ _ _ _ later

theorem tidy_step {event : Event} {next : State} (tidy : Tidy masterSocket past state)
    (orderly : Orderly program masterSocket past event)
    (stepped : step program masterSocket state event = some next) : Tidy masterSocket (past ++ [event]) next := by
  cases step_transition stepped with
  | selected readfds here selectable => exact tidy_look tidy _ rfl readfds selectable.1
  | selectGoesOn here goesOn => exact tidy_look tidy _ rfl _ (Finset.Subset.refl _)
  | accepted readfds newSocket here valid => exact tidy_enlist tidy here orderly
  | acceptGoesOn readfds here goesOn => exact absurd orderly goesOn
  | read readfds i bytesRead here some_bytes =>
    exact tidy_count tidy bytesRead here (reading_used tidy here orderly)
  | disconnected readfds i here => exact tidy_release tidy _ here (reading_used tidy here orderly)
  | exits _ failed exits =>
    have kept : live (past ++ [event]) = live past := by
      rw [live_concat]
      rcases failed with rfl | rfl <;> rfl
    refine ⟨by rw [kept]; exact tidy.holds,by rw [kept]; exact tidy.positive,tidy.blank,?_,?_⟩
    · intro seen later
      cases later
    · intro seen j later
      cases later

end steps

theorem tidy_run {program : Program} {masterSocket : Int} {events : List Event} {state : State}
    (lawful : Lawful (Orderly program masterSocket) events)
    (ran : run (step program masterSocket) start events = some state) : Tidy masterSocket events state :=
  invariant _ (Tidy masterSocket) tidy_start (fun _ _ _ _ tidy orderly stepped => tidy_step tidy orderly stepped)
    lawful ran

/-- An accepted descriptor is positive and not open, and fewer than `MAX_CLIENTS`
connections are open before it. All other calls may return anything. -/
def Accepts (masterSocket : Int) (past : List Event) : Event → Prop
  | .accepted newSocket =>
    0 < newSocket ∧ newSocket ≠ masterSocket ∧ newSocket ∉ live past ∧ (live past).card < MAX_CLIENTS
  | _ => True

def readFrom : Event → Option Int
  | .read sd _ => some sd
  | .disconnected sd _ => some sd
  | _ => none

/-- While the loop is between a `select` and the next one, the history ends with that
`select` and the events of its iteration. -/
def Iterates (masterSocket : Int) (history : List Event) (state : State) : Prop :=
  ∀ readfds, state.position.readfds? = some readfds → ∃ before during,
    history = before ++ [.selected readfds] ++ during ∧
      (∀ ready, .selected ready ∉ during) ∧
      (∀ sd ∈ readfds, sd = masterSocket ∨ sd ∈ live before) ∧
      (∀ sd, .accepted sd ∈ during → sd ∉ live before) ∧
      (state.position = .accepting readfds → during = [])

section iterations
variable {program : Program} {masterSocket : Int} {past : List Event} {state next : State} {event : Event}

theorem iterates_read (iterates : Iterates masterSocket past state) {readfds : Finset Int} {i : Slot}
    (here : state.position = .reading readfds i) {sd : Int} (reads : readFrom event = some sd)
    {clientSocket : Slot → Int} (later : next.position = scan clientSocket readfds (i+1)) :
    Iterates masterSocket (past ++ [event]) next := by
  intro seen found
  rw [later] at found
  obtain rfl := scan_readfds _ _ _ _ found
  obtain ⟨before,during,rfl,unpolled,watched,new,_⟩ := iterates seen (by rw [here]; rfl)
  refine ⟨before,during ++ [event],by simp,?_,watched,?_,?_⟩
  · intro ready member
    rcases List.mem_append.mp member with member | member
    · exact unpolled ready member
    · obtain rfl := List.mem_singleton.mp member
      cases reads
  · intro other member
    rcases List.mem_append.mp member with member | member
    · exact new other member
    · obtain rfl := List.mem_singleton.mp member
      cases reads
  · intro accepting
    rw [later] at accepting
    exact absurd accepting (scan_not_accepting _ _ _ _)

theorem iterates_step (exits : program.exitsOnFailure) (tidy : Tidy masterSocket past state)
    (iterates : Iterates masterSocket past state) (orderly : Orderly program masterSocket past event)
    (stepped : step program masterSocket state event = some next) :
    Iterates masterSocket (past ++ [event]) next := by
  cases step_transition stepped with
  | selected readfds here selectable =>
    intro seen found
    obtain rfl := dispatch_readfds _ _ _ _ found
    refine ⟨past,[],by simp,by simp,?_,by simp,fun _ => rfl⟩
    intro sd member
    rcases (mem_rebuild _ _ _).mp (selectable.1 member) with master | ⟨valid,i,rfl⟩
    · exact Or.inl master
    · exact Or.inr (slot_mem tidy.holds i (by omega))
  | selectGoesOn here goesOn => exact absurd exits goesOn
  | accepted readfds newSocket here valid =>
    intro seen found
    obtain rfl := scan_readfds _ _ _ _ found
    obtain ⟨before,during,rfl,unpolled,watched,new,first⟩ := iterates seen (by rw [here]; rfl)
    obtain rfl := first here
    have fresh := orderly.2.2.1
    rw [List.append_nil,live_concat] at fresh
    refine ⟨before,[.accepted newSocket],by simp,by simp,watched,?_,?_⟩
    · intro sd member
      cases List.mem_singleton.mp member
      exact fresh
    · intro accepting
      exact absurd accepting (scan_not_accepting _ _ _ _)
  | acceptGoesOn readfds here goesOn => exact absurd exits goesOn
  | read readfds i bytesRead here some_bytes => exact iterates_read iterates here rfl rfl
  | disconnected readfds i here => exact iterates_read iterates here rfl rfl
  | exits _ failed _ =>
    intro seen found
    cases found

theorem iterates_run {events : List Event} (exits : program.exitsOnFailure)
    (lawful : Lawful (Orderly program masterSocket) events)
    (ran : run (step program masterSocket) start events = some state) : Iterates masterSocket events state := by
  have both := invariant (Orderly program masterSocket)
    (fun history state => Tidy masterSocket history state ∧ Iterates masterSocket history state)
    ⟨tidy_start,fun _ found => by cases found⟩
    (fun _ _ _ _ held orderly stepped =>
      ⟨tidy_step held.1 orderly stepped,iterates_step exits held.1 held.2 orderly stepped⟩) lawful ran
  exact both.2

end iterations

/-- The table holds the given connections, each in one slot, and free slots count nothing. -/
structure Exact (connections : Finset Int) (state : State) : Prop where
  distinct : ∀ i j, state.clientSocket i ≠ 0 → state.clientSocket i = state.clientSocket j → i = j
  entries : ∀ sd, (sd ≠ 0 ∧ ∃ i, state.clientSocket i = sd) ↔ sd ∈ connections
  once : ∀ sd ∈ connections, ∃! i, state.clientSocket i = sd
  blank : ∀ i, state.clientSocket i = 0 → state.clientReads i = 0

theorem exact_of_tidy {masterSocket : Int} {history : List Event} {state : State}
    (tidy : Tidy masterSocket history state) : Exact (live history) state where
  distinct := tidy.holds.distinct
  entries := fun sd => (tidy.holds.mem_iff sd).symm
  once := by
    intro sd member
    obtain ⟨used,i,rfl⟩ := (tidy.holds.mem_iff sd).mp member
    exact ⟨i,rfl,fun j same => (tidy.holds.distinct i j used same.symm).symm⟩
  blank := tidy.blank

/-- A descriptor about to be read was in the table and found ready at the last `select`,
was not accepted since, and is still open. -/
def Polled (program : Program) (masterSocket : Int) (past : List Event) (sd : Int) : Prop :=
  ∃ before readfds during polled, past = before ++ [.selected readfds] ++ during ∧
    (∀ ready, .selected ready ∉ during) ∧
    run (step program masterSocket) start before = some polled ∧ (∃ i, polled.clientSocket i = sd) ∧
    sd ∈ readfds ∧ .accepted sd ∉ during ∧ sd ∈ live past ∧ sd ≠ 0

/-- In the TCP and DCCP servers the table is exact in every reachable state, and only
descriptors that the last `select` found ready are read. -/
theorem table_exact (program : Program) (member : program = Tcp.main ∨ program = Dccp.main) (masterSocket : Int)
    (listening : 0 < masterSocket) (events : List Event) (lawful : Lawful (Accepts masterSocket) events)
    (state : State) (ran : run (step program masterSocket) start events = some state) :
    Exact (live events) state ∧
      ∀ past event sd, past ++ [event] <+: events → readFrom event = some sd →
        Polled program masterSocket past sd := by
  have exits : program.exitsOnFailure := by rcases member with rfl | rfl <;> rfl
  have orderly : Lawful (Orderly program masterSocket) events := by
    refine lawful_mono (fun past event accepts => ?_) lawful
    cases event with
    | accepted newSocket => exact accepts
    | acceptFailed => exact exits
    | read sd bytesRead => exact fun _ => listening
    | disconnected sd total => exact fun _ => listening
    | selected readfds => trivial
    | selectFailed => trivial
  refine ⟨exact_of_tidy (tidy_run orderly ran),?_⟩
  rintro past event sd ⟨rest,rfl⟩ reads
  obtain ⟨after,upTo,_⟩ := run_split ran
  obtain ⟨current,reached,stepped⟩ := run_last upTo
  have orderly_past := lawful_before (lawful_before orderly)
  have tidy := tidy_run orderly_past reached
  have reading : ∃ readfds i, current.position = .reading readfds i ∧ current.clientSocket i = sd := by
    cases step_transition stepped with
    | read readfds i bytesRead here some_bytes => exact ⟨readfds,i,here,Option.some.inj reads⟩
    | disconnected readfds i here => exact ⟨readfds,i,here,Option.some.inj reads⟩
    | exits _ failed _ => rcases failed with rfl | rfl <;> cases reads
    | _ => cases reads
  obtain ⟨readfds,i,here,rfl⟩ := reading
  have used := reading_used tidy here fun _ => listening
  have still := slot_mem tidy.holds i used
  have ready := tidy.ready readfds i here
  obtain ⟨before,during,rfl,unpolled,watched,new,_⟩ :=
    iterates_run exits orderly_past reached readfds (by rw [here]; rfl)
  have earlier : current.clientSocket i ∈ live before :=
    (watched _ ready).resolve_left (tidy.positive _ still).2
  obtain ⟨selected,polledTo,_⟩ := run_split reached
  obtain ⟨polled,reachedSelect,_⟩ := run_last polledTo
  have tabled := (tidy_run (lawful_before (lawful_before orderly_past)) reachedSelect).holds
  exact ⟨before,readfds,during,polled,rfl,unpolled,reachedSelect,((tabled.mem_iff _).mp earlier).2,ready,
    fun accepted => new _ accepted earlier,still,used⟩

theorem table_exact_visit : run (step Tcp.main 3) start visit = some start ∧
    Exact (live visit) start ∧ ∀ past event sd, past ++ [event] <+: visit → readFrom event = some sd →
      Polled Tcp.main 3 past sd := by
  have lawful : Lawful (Accepts 3) visit := by
    have room : (live [.selected {3}]).card < MAX_CLIENTS := by
      rw [max_clients]
      decide
    exact follows_lawful ⟨trivial,⟨by decide,by decide,by decide,room⟩,trivial,trivial,trivial,trivial,trivial⟩
  exact ⟨visit_run _,table_exact Tcp.main (Or.inl rfl) 3 (by decide) visit lawful start (visit_run _)⟩

end ProtocolTests.ServerTable
