import ProtocolTests.ServerTable
import Mathlib.Order.Interval.Finset.Basic
import Mathlib.Data.Int.Interval

/-! How many connections the servers can hold. The table has 1024 slots and an `fd_set`
has 1024 bits, but four of the descriptors are in use before the first connection. -/
namespace ProtocolTests.ServerLimit
open Library.FdSet Library.Run Library.SlotTable Server ServerTable

/-- The descriptors in use: the standard streams, the listening socket, the connections. -/
def inUse (masterSocket : Int) (connections : Finset Int) : Finset Int := {0,1,2,masterSocket} ∪ connections

/-- `accept` returns the lowest descriptor that is not in use. It may fail only in a
server that ends then. -/
def Numbered (program : Program) (masterSocket : Int) (past : List Event) : Event → Prop
  | .accepted newSocket => 0 ≤ newSocket ∧ newSocket ∉ inUse masterSocket (live past) ∧
      ∀ sd, 0 ≤ sd → sd < newSocket → sd ∈ inUse masterSocket (live past)
  | .acceptFailed => program.exitsOnFailure
  | _ => True

/-- Every open connection is in the table, and every descriptor that the loop hands to
`FD_SET` or `FD_ISSET` has a bit in the set. -/
structure Served (masterSocket : Int) (connections : Finset Int) (state : State) : Prop where
  tabled : ∀ sd ∈ connections, ∃ i, state.clientSocket i = sd
  inSet : InSet masterSocket state.clientSocket

theorem mem_inUse (masterSocket sd : Int) (connections : Finset Int) :
    sd ∈ inUse masterSocket connections ↔ sd = 0 ∨ sd = 1 ∨ sd = 2 ∨ sd = masterSocket ∨ sd ∈ connections := by
  simp only [inUse,Finset.mem_union,Finset.mem_insert,Finset.mem_singleton]
  tauto

theorem lowest_le (connections : Finset Int) (masterSocket newSocket : Int)
    (lower : ∀ sd, 0 ≤ sd → sd < newSocket → sd ∈ inUse masterSocket connections) :
    newSocket ≤ connections.card + 4 := by
  have packed : Finset.Ico 0 newSocket ⊆ inUse masterSocket connections := by
    intro sd member
    obtain ⟨nonnegative,below⟩ := Finset.mem_Ico.mp member
    exact lower sd nonnegative below
  have size := (Finset.card_le_card packed).trans (Finset.card_union_le _ _)
  have four : ({0,1,2,masterSocket} : Finset Int).card ≤ 4 := Finset.card_le_four
  rw [Int.card_Ico] at size
  omega

theorem connections_le (connections : Finset Int) (masterSocket : Int)
    (listening : 3 ≤ masterSocket ∧ masterSocket < FD_SETSIZE)
    (fresh : ∀ sd ∈ connections, sd ∉ inUse masterSocket ∅)
    (inside : ∀ sd ∈ connections, Settable sd) : connections.card ≤ 1020 := by
  have covered : connections ⊆ (Finset.Ico 3 FD_SETSIZE).erase masterSocket := by
    intro sd member
    have free := fresh sd member
    rw [mem_inUse] at free
    rw [Finset.mem_erase,Finset.mem_Ico]
    obtain ⟨lower,upper⟩ := inside sd member
    refine ⟨fun same => free (by tauto),?_,upper⟩
    by_contra below
    exact free (by omega)
  have size := Finset.card_le_card covered
  have width : (Finset.Ico 3 FD_SETSIZE).card = 1021 := Int.card_Ico 3 FD_SETSIZE
  rw [Finset.card_erase_of_mem (Finset.mem_Ico.mpr listening),width] at size
  exact size

section limit
variable {program : Program} {masterSocket : Int} {events : List Event} {state : State}

theorem live_fresh (lawful : Lawful (Numbered program masterSocket) events) :
    ∀ sd ∈ live events, sd ∉ inUse masterSocket ∅ := by
  induction events using List.reverseRecOn with
  | nil => simp
  | append_singleton events event ih =>
    obtain ⟨before,last⟩ := (lawful_concat _ _).mp lawful
    rw [live_concat]
    intro sd member
    cases event with
    | accepted newSocket =>
      rcases Finset.mem_insert.mp member with rfl | older
      · have fresh := last.2.1
        rw [mem_inUse] at fresh ⊢
        simp only [Finset.notMem_empty,or_false]
        tauto
      · exact ih before sd older
    | disconnected closing total => exact ih before sd (Finset.mem_of_mem_erase member)
    | _ => exact ih before sd member

theorem live_inside (few : ∀ past, past <+: events → (live past).card ≤ 1020)
    (lawful : Lawful (Numbered program masterSocket) events) : ∀ sd ∈ live events, sd < FD_SETSIZE := by
  induction events using List.reverseRecOn with
  | nil => simp
  | append_singleton events event ih =>
    obtain ⟨before,last⟩ := (lawful_concat _ _).mp lawful
    have earlier := ih (fun past first => few past (first.trans (List.prefix_append _ _))) before
    rw [live_concat]
    intro sd member
    cases event with
    | accepted newSocket =>
      rcases Finset.mem_insert.mp member with rfl | older
      · have size := few _ (List.prefix_refl _)
        have new : sd ∉ live events := by
          have free := last.2.1
          rw [mem_inUse] at free
          tauto
        rw [live_concat,follow,Finset.card_insert_of_notMem new] at size
        have lowest := lowest_le _ _ _ last.2.2
        have bits : FD_SETSIZE = 1024 := rfl
        omega
      · exact earlier sd older
    | disconnected closing total => exact earlier sd (Finset.mem_of_mem_erase member)
    | _ => exact earlier sd member

theorem orderly_of_numbered (listening : 3 ≤ masterSocket)
    (few : ∀ past, past <+: events → (live past).card ≤ 1020)
    (lawful : Lawful (Numbered program masterSocket) events) : Lawful (Orderly program masterSocket) events := by
  intro past event first
  have numbered := lawful past event first
  cases event with
  | accepted newSocket =>
    obtain ⟨nonnegative,free,_⟩ := numbered
    rw [mem_inUse] at free
    have size := few past ((List.prefix_append _ _).trans first)
    refine ⟨by omega,by tauto,by tauto,?_⟩
    rw [max_clients]
    omega
  | acceptFailed => exact numbered
  | read sd bytesRead => exact fun _ => by omega
  | disconnected sd total => exact fun _ => by omega
  | _ => trivial

theorem served_of_few (listening : 3 ≤ masterSocket ∧ masterSocket < FD_SETSIZE)
    (few : ∀ past, past <+: events → (live past).card ≤ 1020)
    (lawful : Lawful (Numbered program masterSocket) events)
    (ran : run (step program masterSocket) start events = some state) : Served masterSocket (live events) state := by
  have tidy := tidy_run (orderly_of_numbered listening.1 few lawful) ran
  have inside := live_inside few lawful
  refine ⟨fun sd member => ((tidy.holds.mem_iff sd).mp member).2,⟨by omega,listening.2⟩,fun i => ?_⟩
  by_cases used : state.clientSocket i = 0
  · rw [used]
    decide
  · have open_now := slot_mem tidy.holds i used
    exact ⟨le_of_lt (tidy.positive _ open_now).1,inside _ open_now⟩

end limit

/-- The servers serve all their connections throughout a run exactly if there are never
more than 1020 of them. -/
theorem served_iff (program : Program) (masterSocket : Int)
    (listening : 3 ≤ masterSocket ∧ masterSocket < FD_SETSIZE) (events : List Event)
    (lawful : Lawful (Numbered program masterSocket) events)
    (ran : (run (step program masterSocket) start events).isSome) :
    (∀ past, past <+: events → ∀ state, run (step program masterSocket) start past = some state →
      Served masterSocket (live past) state) ↔ ∀ past, past <+: events → (live past).card ≤ 1020 := by
  constructor
  · rintro served past ⟨rest,rfl⟩
    obtain ⟨final,whole⟩ := Option.isSome_iff_exists.mp ran
    obtain ⟨state,reached,_⟩ := run_split whole
    obtain ⟨tabled,_,entries⟩ := served past (List.prefix_append _ _) state reached
    refine connections_le (live past) masterSocket listening (live_fresh (lawful_before lawful)) ?_
    intro sd member
    obtain ⟨i,rfl⟩ := tabled sd member
    exact entries i
  · rintro few past ⟨rest,rfl⟩ state reached
    exact served_of_few listening (fun earlier first => few earlier (first.trans (List.prefix_append _ _)))
      (lawful_before lawful) reached

theorem served_visit : ∃ state, run (step Tcp.main 3) start (visit.take 4) = some state ∧ Served 3 {4} state := by
  have lawful : Lawful (Numbered Tcp.main 3) visit := by
    have lowest : ∀ sd : Int, 0 ≤ sd → sd < 4 → sd ∈ inUse 3 ∅ := by
      intro sd nonnegative below
      rw [mem_inUse]
      omega
    exact follows_lawful ⟨trivial,⟨by decide,by decide,lowest⟩,trivial,trivial,trivial,trivial,trivial⟩
  have few : ∀ past ∈ visit.inits, (live past).card ≤ 1020 := by decide
  have ran : run (step Tcp.main 3) start (visit.take 4 ++ visit.drop 4) = some start := by
    rw [List.take_append_drop]
    exact visit_run Tcp.main
  obtain ⟨state,reached,_⟩ := run_split ran
  have served := (served_iff Tcp.main 3 (by decide) visit lawful (by rw [visit_run]; rfl)).mpr
    fun past first => few past ((List.mem_inits _ _).mpr first)
  exact ⟨state,reached,served (visit.take 4) (List.take_prefix 4 visit) state reached⟩

def connectAll (count : Nat) : List Event :=
  (List.range count).flatMap fun i => [.selected {3},.accepted (i+4)]

theorem connectAll_succ (count : Nat) :
    connectAll (count+1) = connectAll count ++ [.selected {3}] ++ [.accepted (count+4)] := by
  simp [connectAll,List.range_succ,List.flatMap_append]

theorem mem_connectAll (count : Nat) (sd : Int) : sd ∈ live (connectAll count) ↔ 4 ≤ sd ∧ sd < count+4 := by
  induction count with
  | zero =>
    have nobody : live (connectAll 0) = ∅ := rfl
    rw [nobody]
    simp only [Finset.notMem_empty,false_iff]
    omega
  | succ count ih =>
    rw [connectAll_succ,live_concat,live_concat]
    simp only [follow,Finset.mem_insert,ih]
    omega

theorem connectAll_numbered (count : Nat) : Lawful (Numbered Tcp.main 3) (connectAll count) := by
  induction count with
  | zero => exact lawful_nil
  | succ count ih =>
    rw [connectAll_succ]
    refine (lawful_concat _ _).mpr ⟨(lawful_concat _ _).mpr ⟨ih,trivial⟩,?_⟩
    simp only [Numbered,live_concat,follow,mem_inUse,mem_connectAll]
    exact ⟨by omega,by omega,fun sd nonnegative below => by omega⟩

def connectedTable (count : Nat) (i : Slot) : Int := if i.val < count then i.val+4 else 0

theorem connectedTable_succ (count : Nat) (room : count < MAX_CLIENTS) :
    Function.update (connectedTable count) ⟨count,room⟩ (count+4) = connectedTable (count+1) := by
  funext i
  by_cases here : i = ⟨count,room⟩
  · subst here
    simp [connectedTable]
  · have apart : i.val ≠ count := fun same => here (Fin.ext same)
    rw [Function.update_of_ne here,connectedTable,connectedTable]
    by_cases older : i.val < count
    · rw [if_pos older,if_pos (by omega)]
    · rw [if_neg older,if_neg (by omega)]

theorem connectAll_run (count : Nat) (room : count ≤ MAX_CLIENTS) :
    run (step Tcp.main 3) start (connectAll count) = some ⟨connectedTable count,fun _ => 0,.selecting⟩ := by
  induction count with
  | zero =>
    have empty : connectedTable 0 = fun _ => 0 := rfl
    rw [empty]
    rfl
  | succ count ih =>
    have stored := connectedTable_succ count room
    have free : connectedTable count ⟨count,room⟩ = 0 := if_neg (Nat.lt_irrefl count)
    have before (j : Slot) (earlier : j < ⟨count,room⟩) : connectedTable count j ≠ 0 := by
      have older : j.val < count := earlier
      rw [connectedTable,if_pos older]
      omega
    have others (j : Slot) : connectedTable (count+1) j ≠ 3 := by
      unfold connectedTable
      split <;> omega
    have connected := connect_round Tcp.main 3 (connectedTable count) (fun _ => 0) ⟨count,room⟩ (count+4) (by omega)
      free before (by rw [stored]; exact others)
    rw [connectAll_succ,List.append_assoc,run_append,ih (by omega),Option.bind_some]
    rw [stored] at connected
    exact connected

/-- The 1021st client gets descriptor 1024. -/
theorem client_outside_set :
    Lawful (Numbered Tcp.main 3) (connectAll 1021) ∧
      ∃ state, run (step Tcp.main 3) start (connectAll 1021) = some state ∧
        ¬Served 3 (live (connectAll 1021)) state := by
  refine ⟨connectAll_numbered 1021,_,connectAll_run 1021 (by rw [max_clients]; decide),?_⟩
  intro served
  have entry := (served.inSet.entries ⟨1020,by rw [max_clients]; decide⟩).2
  exact absurd entry (by decide)

end ProtocolTests.ServerLimit
