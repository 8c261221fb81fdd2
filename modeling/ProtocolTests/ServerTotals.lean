import ProtocolTests.ServerTable

/-! The totals that the servers print. Counts are kept by slot and reads come by
descriptor; slots and descriptors are both used again after a close. -/
namespace ProtocolTests.ServerTotals
open Library.Run Library.SlotTable Server ServerTable

/-- The sum of the reads from a descriptor, started anew when it is accepted. -/
def addTo (sd : Int) (sum : Int) : Event → Int
  | .accepted newSocket => if newSocket = sd then 0 else sum
  | .read other bytesRead => if other = sd then sum + bytesRead.toInt else sum
  | _ => sum

/-- The bytes read from a connection since it was accepted. -/
def received (sd : Int) (history : List Event) : Int := history.foldl (addTo sd) 0

@[simp] theorem received_concat (sd : Int) (history : List Event) (event : Event) :
    received sd (history ++ [event]) = addTo sd (received sd history) event := List.foldl_concat ..

/-- No call fails; an accepted descriptor is positive and not open, and at most
`MAX_CLIENTS` connections are. On the listening socket every read would fail. -/
def Succeeds (masterSocket : Int) (past : List Event) : Event → Prop
  | .selected _ => True
  | .selectFailed => False
  | .accepted newSocket =>
    0 < newSocket ∧ newSocket ≠ masterSocket ∧ newSocket ∉ live past ∧ (live past).card < MAX_CLIENTS
  | .acceptFailed => False
  | .read sd bytesRead => sd ≠ masterSocket ∧ 0 < bytesRead
  | .disconnected sd _ => sd ≠ masterSocket

theorem orderly_of_succeeds (program : Program) (masterSocket : Int) (past : List Event) (event : Event)
    (succeeds : Succeeds masterSocket past event) : Orderly program masterSocket past event := by
  cases event with
  | selected readfds => trivial
  | selectFailed => trivial
  | accepted newSocket => exact succeeds
  | acceptFailed => exact succeeds.elim
  | read sd bytesRead => exact fun same => absurd same succeeds.1
  | disconnected sd total => exact fun same => absurd same succeeds

theorem received_nonneg {masterSocket : Int} {history : List Event} (lawful : Lawful (Succeeds masterSocket) history)
    (sd : Int) : 0 ≤ received sd history := by
  induction history using List.reverseRecOn with
  | nil => exact le_refl _
  | append_singleton history event ih =>
    obtain ⟨before,succeeds⟩ := (lawful_concat _ _).mp lawful
    have so_far := ih before
    rw [received_concat]
    cases event with
    | accepted newSocket =>
      simp only [addTo]
      split <;> omega
    | read other bytesRead =>
      have some_bytes := Int32.lt_iff_toInt_lt.mp succeeds.2
      have zero : (0 : Int32).toInt = 0 := rfl
      simp only [addTo]
      split <;> omega
    | _ => exact so_far

/-- The counters are the sums as far as an `int` holds them. -/
def Counts (history : List Event) (state : State) : Prop :=
  ∀ i, state.clientSocket i ≠ 0 → state.clientReads i = Int32.ofInt (received (state.clientSocket i) history)

section steps
variable {program : Program} {masterSocket : Int} {past : List Event} {state next : State} {event : Event}

theorem counts_enlist (tidy : Tidy masterSocket past state) (counts : Counts past state) {newSocket : Int}
    (readfds : Finset Int) (valid : 0 < newSocket) (new : newSocket ∉ live past)
    (room : (live past).card < MAX_CLIENTS) :
    Counts (past ++ [.accepted newSocket]) (enlist state readfds newSocket) := by
  obtain ⟨i,free,stored⟩ := addNewSocket_vacant state.clientSocket newSocket (exists_vacant tidy.holds room)
  intro j used
  rw [enlist_clientSocket,stored] at used ⊢
  rw [enlist_clientReads,received_concat,addTo]
  by_cases here : j = i
  · rw [here,Function.update_self,if_pos rfl,tidy.blank i free]
    rfl
  · rw [Function.update_of_ne here] at used ⊢
    have other : newSocket ≠ state.clientSocket j := by
      rintro rfl
      exact new (slot_mem tidy.holds j used)
    rw [if_neg other]
    exact counts j used

theorem counts_read (tidy : Tidy masterSocket past state) (counts : Counts past state) (readfds : Finset Int)
    (i : Slot) (bytesRead : Int32) (used : state.clientSocket i ≠ 0) :
    Counts (past ++ [.read (state.clientSocket i) bytesRead]) (count state readfds i bytesRead) := by
  intro j used_too
  rw [count_clientSocket] at used_too ⊢
  rw [count_clientReads,received_concat,addTo]
  by_cases here : j = i
  · rw [here,Function.update_self,if_pos rfl,Int32.ofInt_add,Int32.ofInt_toInt,counts i used]
  · have other : state.clientSocket i ≠ state.clientSocket j := fun same => here (tidy.holds.distinct i j used same).symm
    rw [Function.update_of_ne here,if_neg other]
    exact counts j used_too

theorem counts_release (counts : Counts past state) (readfds : Finset Int) (i : Slot) (sd : Int) (total : Int32) :
    Counts (past ++ [.disconnected sd total]) (release state readfds i) := by
  intro j used
  rw [release_clientSocket] at used ⊢
  have here : j ≠ i := by
    rintro rfl
    rw [Function.update_self] at used
    exact used rfl
  rw [Function.update_of_ne here] at used ⊢
  rw [release_clientReads,Function.update_of_ne here,received_concat]
  exact counts j used

theorem counts_step (tidy : Tidy masterSocket past state) (counts : Counts past state)
    (succeeds : Succeeds masterSocket past event) (stepped : step program masterSocket state event = some next) :
    Counts (past ++ [event]) next := by
  have orderly := orderly_of_succeeds program masterSocket past event succeeds
  cases step_transition stepped with
  | selected readfds here selectable =>
    intro i used
    rw [received_concat]
    exact counts i used
  | selectGoesOn here goesOn => exact succeeds.elim
  | accepted readfds newSocket here valid =>
    exact counts_enlist tidy counts readfds succeeds.1 succeeds.2.2.1 succeeds.2.2.2
  | acceptGoesOn readfds here goesOn => exact succeeds.elim
  | read readfds i bytesRead here some_bytes =>
    exact counts_read tidy counts readfds i bytesRead (reading_used tidy here orderly)
  | disconnected readfds i here => exact counts_release counts readfds i _ _
  | exits _ failed exits => rcases failed with rfl | rfl <;> exact succeeds.elim

end steps

theorem counts_run {program : Program} {masterSocket : Int} {events : List Event} {state : State}
    (lawful : Lawful (Succeeds masterSocket) events)
    (ran : run (step program masterSocket) start events = some state) :
    Tidy masterSocket events state ∧ Counts events state :=
  invariant _ (fun history state => Tidy masterSocket history state ∧ Counts history state)
    ⟨tidy_start,fun _ used => absurd rfl used⟩
    (fun past _ event _ held succeeds stepped =>
      ⟨tidy_step held.1 (orderly_of_succeeds program masterSocket past event succeeds) stepped,
        counts_step held.1 held.2 succeeds stepped⟩) lawful ran

theorem total_received {program : Program} {masterSocket : Int} {past : List Event} {state next : State}
    {sd : Int} {total : Int32} (lawful : Lawful (Succeeds masterSocket) (past ++ [.disconnected sd total]))
    (ran : run (step program masterSocket) start past = some state)
    (stepped : step program masterSocket state (.disconnected sd total) = some next) :
    (received sd past < 2^31 → total.toInt = received sd past) ∧ sd ∈ live past := by
  obtain ⟨before,succeeds⟩ := (lawful_concat _ _).mp lawful
  obtain ⟨tidy,counts⟩ := counts_run before ran
  have orderly := orderly_of_succeeds program masterSocket past _ succeeds
  cases step_transition stepped with
  | disconnected readfds i here =>
    have used := reading_used tidy here orderly
    refine ⟨fun small => ?_,slot_mem tidy.holds i used⟩
    rw [counts i used]
    exact (ofInt_toInt_iff _ (received_nonneg before _)).mpr small
  | exits _ failed _ => rcases failed with same | same <;> cases same

/-- A closed connection stays closed until its descriptor is accepted again. -/
theorem closed_until_accepted (sd : Int) (past later : List Event) (closed : sd ∉ live past)
    (unaccepted : .accepted sd ∉ later) : sd ∉ live (past ++ later) := by
  induction later using List.reverseRecOn with
  | nil => rwa [List.append_nil]
  | append_singleton later event ih =>
    have still := ih fun member => unaccepted (List.mem_append_left _ member)
    rw [← List.append_assoc,live_concat]
    cases event with
    | accepted newSocket =>
      have other : sd ≠ newSocket := by
        rintro rfl
        exact unaccepted (List.mem_append_right _ (List.mem_singleton.mpr rfl))
      simp [follow,other,still]
    | disconnected closing total => exact fun member => still (Finset.mem_of_mem_erase member)
    | _ => exact still

/-- In all three servers, the total printed when a connection ends is what was read from
it since it was accepted, if that is less than 2^31, and between two reports about one descriptor
it is accepted anew. -/
theorem totals_exact (program : Program) (masterSocket : Int) (events : List Event)
    (lawful : Lawful (Succeeds masterSocket) events) (state : State)
    (ran : run (step program masterSocket) start events = some state) :
    (∀ past sd total, past ++ [.disconnected sd total] <+: events → received sd past < 2^31 →
        total.toInt = received sd past) ∧
      ∀ past sd first between second, past ++ [.disconnected sd first] ++ between ++ [.disconnected sd second] <+: events →
        .accepted sd ∈ between := by
  have report (past : List Event) (sd : Int) (total : Int32) (reported : past ++ [.disconnected sd total] <+: events) :
      (received sd past < 2^31 → total.toInt = received sd past) ∧ sd ∈ live past := by
    obtain ⟨rest,rfl⟩ := reported
    obtain ⟨after,upTo,_⟩ := run_split ran
    obtain ⟨current,reached,stepped⟩ := run_last upTo
    exact total_received (lawful_before lawful) reached stepped
  refine ⟨fun past sd total reported => (report past sd total reported).1,?_⟩
  intro past sd first between second reported
  by_contra unaccepted
  have closed : sd ∉ live (past ++ [.disconnected sd first]) := by
    rw [live_concat]
    exact Finset.notMem_erase _ _
  exact closed_until_accepted sd _ between closed unaccepted (report _ sd second reported).2

theorem totals_exact_visit : run (step Sctp.main 3) start visit = some start ∧
    (∀ past sd total, past ++ [.disconnected sd total] <+: visit → received sd past < 2^31 →
      total.toInt = received sd past) ∧
    ∀ past sd first between second, past ++ [.disconnected sd first] ++ between ++ [.disconnected sd second] <+: visit →
      .accepted sd ∈ between := by
  have lawful : Lawful (Succeeds 3) visit := by
    have room : (live [.selected {3}]).card < MAX_CLIENTS := by
      rw [max_clients]
      decide
    have closing : (4 : Int) ≠ 3 := by decide
    exact follows_lawful ⟨trivial,⟨by decide,by decide,by decide,room⟩,trivial,⟨closing,by decide⟩,trivial,closing,
      trivial⟩
  exact ⟨visit_run _,totals_exact Sctp.main 3 visit lawful start (visit_run _)⟩

end ProtocolTests.ServerTotals
