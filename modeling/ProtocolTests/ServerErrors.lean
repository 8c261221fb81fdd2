import ProtocolTests.ServerTable

/-! Runs in which calls fail. A failed read goes into the counter of its connection like
any other result, and the SCTP server goes on with the -1 of a failed `accept`. -/
namespace ProtocolTests.ServerErrors
open Library.Run Library.SlotTable Server ServerTable

/-- A read gives bytes or fails, and on the listening socket it fails. An accepted
descriptor is not open. -/
def Possible (masterSocket : Int) (past : List Event) : Event → Prop
  | .accepted newSocket => newSocket ≠ masterSocket ∧ newSocket ∉ live past
  | .read sd bytesRead => bytesRead = -1 ∨ sd ≠ masterSocket ∧ 0 < bytesRead
  | .disconnected sd _ => sd ≠ masterSocket
  | _ => True

def gain (sd : Int) (sum : Int) : Event → Int
  | .accepted newSocket => if newSocket = sd then 0 else sum
  | .read other bytesRead => if other = sd ∧ 0 < bytesRead then sum + bytesRead.toInt else sum
  | _ => sum

/-- The bytes that have arrived from a connection since it was accepted: failed reads bring none. -/
def gained (sd : Int) (history : List Event) : Int := history.foldl (gain sd) 0

@[simp] theorem gained_concat (sd : Int) (history : List Event) (event : Event) :
    gained sd (history ++ [event]) = gain sd (gained sd history) event := List.foldl_concat ..

/-- The failed reads of a run count nothing, and the totals it prints are those of the bytes that arrived. -/
structure Accounts (program : Program) (masterSocket : Int) (events : List Event) : Prop where
  unchanged : ∀ past sd before after, past ++ [.read sd (-1)] <+: events →
    run (step program masterSocket) start past = some before →
    run (step program masterSocket) start (past ++ [.read sd (-1)]) = some after → after.clientReads = before.clientReads
  totals : ∀ past sd total, past ++ [.disconnected sd total] <+: events → total.toInt = gained sd past

structure Sound (masterSocket : Int) (history : List Event) (state : State) : Prop where
  entries : ∀ i, 0 < state.clientSocket i → state.clientSocket i ∈ live history
  distinct : ∀ i j, 0 < state.clientSocket i → state.clientSocket i = state.clientSocket j → i = j
  blank : ∀ i, state.clientSocket i = 0 → state.clientReads i = 0
  counts : ∀ i, 0 < state.clientSocket i → state.clientReads i = Int32.ofInt (gained (state.clientSocket i) history)
  watched : ∀ readfds, state.position.readfds? = some readfds → ∀ sd ∈ readfds, sd = masterSocket ∨ 0 < sd
  ready : ∀ readfds i, state.position = .reading readfds i → state.clientSocket i ∈ readfds

theorem addNewSocket_cases (clientSocket : Slot → Int) (newSocket : Int) :
    (∃ i, clientSocket i = 0 ∧ addNewSocket clientSocket newSocket = Function.update clientSocket i newSocket) ∨
      (∀ i, clientSocket i ≠ 0) ∧ addNewSocket clientSocket newSocket = clientSocket := by
  by_cases vacant : ∃ i, clientSocket i = 0
  · exact Or.inl (addNewSocket_vacant clientSocket newSocket vacant)
  · refine Or.inr ⟨fun i used => vacant ⟨i,used⟩,?_⟩
    have full : (Fin.find? fun i => clientSocket i = 0) = none :=
      Fin.find?_eq_none_iff.mpr fun i => decide_eq_false fun used => vacant ⟨i,used⟩
    rw [addNewSocket,full]

theorem gain_nonneg (sd : Int) (history : List Event) : 0 ≤ gained sd history := by
  induction history using List.reverseRecOn with
  | nil => exact le_refl 0
  | append_singleton history event ih =>
    rw [gained_concat]
    cases event with
    | accepted newSocket =>
      rw [gain]
      split
      · exact le_refl 0
      · exact ih
    | read other bytesRead =>
      rw [gain]
      split
      next counted =>
        have positive := Int32.lt_iff_toInt_lt.mp counted.2
        have zero : (0 : Int32).toInt = 0 := rfl
        omega
      next => exact ih
    | _ => exact ih

section steps
variable {program : Program} {masterSocket : Int} {past : List Event} {state : State}

theorem sound_start : Sound masterSocket [] start where
  entries := fun _ used => absurd used (lt_irrefl 0)
  distinct := fun _ _ used => absurd used (lt_irrefl 0)
  blank := fun _ _ => rfl
  counts := fun _ used => absurd used (lt_irrefl 0)
  watched := by simp [start,Position.readfds?]
  ready := by simp [start]

theorem sound_look (sound : Sound masterSocket past state) (event : Event) (kept : follow (live past) event = live past)
    (same : ∀ sd, gain sd (gained sd past) event = gained sd past) (readfds : Finset Int)
    (subset : readfds ⊆ (rebuild masterSocket state.clientSocket).1) :
    Sound masterSocket (past ++ [event]) (look masterSocket state readfds) := by
  refine ⟨?_,sound.distinct,sound.blank,?_,look_watched masterSocket state readfds subset,?_⟩
  · intro i used
    rw [live_concat,kept]
    exact sound.entries i used
  · intro i used
    rw [gained_concat,same]
    exact sound.counts i used
  · intro seen i here
    exact dispatch_ready _ _ _ _ _ here

theorem sound_enlist (sound : Sound masterSocket past state) {readfds : Finset Int} {event : Event} {newSocket : Int}
    (here : state.position = .accepting readfds) (grows : live past ⊆ live (past ++ [event]))
    (opened : 0 < newSocket → newSocket ∈ live (past ++ [event]) ∧ newSocket ∉ live past ∧
      gained newSocket (past ++ [event]) = 0)
    (same : ∀ sd ∈ live past, gained sd (past ++ [event]) = gained sd past) :
    Sound masterSocket (past ++ [event]) (enlist state readfds newSocket) := by
  have old (i : Slot) (used : 0 < state.clientSocket i) :
      state.clientSocket i ∈ live (past ++ [event]) ∧
        state.clientReads i = Int32.ofInt (gained (state.clientSocket i) (past ++ [event])) :=
    ⟨grows (sound.entries i used),by rw [same _ (sound.entries i used)]; exact sound.counts i used⟩
  have watched : ∀ seen, (enlist state readfds newSocket).position.readfds? = some seen →
      ∀ sd ∈ seen, sd = masterSocket ∨ 0 < sd := by
    intro seen later
    obtain rfl := scan_readfds _ _ _ _ later
    exact sound.watched seen (by rw [here]; rfl)
  have ready : ∀ seen j, (enlist state readfds newSocket).position = .reading seen j →
      (enlist state readfds newSocket).clientSocket j ∈ seen := fun seen j later => scan_ready _ _ _ _ _ later
  rcases addNewSocket_cases state.clientSocket newSocket with ⟨i,free,stored⟩ | ⟨_,stored⟩
  · refine ⟨?_,?_,?_,?_,watched,ready⟩ <;> rw [enlist_clientSocket,stored]
    · intro j used
      by_cases slot : j = i
      · rw [slot,Function.update_self] at used ⊢
        exact (opened used).1
      · rw [Function.update_of_ne slot] at used ⊢
        exact (old j used).1
    · refine distinct_update (0 < ·) sound.distinct i newSocket fun positive j same => ?_
      exact (opened positive).2.1 (same ▸ sound.entries j (same ▸ positive))
    · intro j unused
      by_cases slot : j = i
      · rw [enlist_clientReads,slot]
        exact sound.blank i free
      · rw [Function.update_of_ne slot] at unused
        exact sound.blank j unused
    · intro j used
      by_cases slot : j = i
      · rw [slot,Function.update_self] at used ⊢
        rw [enlist_clientReads,sound.blank i free,(opened used).2.2]
        rfl
      · rw [Function.update_of_ne slot] at used ⊢
        exact (old j used).2
  · refine ⟨?_,?_,?_,?_,watched,ready⟩ <;> rw [enlist_clientSocket,stored]
    · exact fun j used => (old j used).1
    · exact sound.distinct
    · exact sound.blank
    · exact fun j used => (old j used).2

theorem sound_count (sound : Sound masterSocket past state) {readfds : Finset Int} {i : Slot} {bytesRead : Int32}
    (here : state.position = .reading readfds i) (used : 0 < state.clientSocket i) (some_bytes : 0 < bytesRead) :
    Sound masterSocket (past ++ [.read (state.clientSocket i) bytesRead]) (count state readfds i bytesRead) := by
  refine ⟨?_,sound.distinct,?_,?_,?_,?_⟩
  · intro j used_too
    rw [live_concat]
    exact sound.entries j used_too
  · intro j unused
    have apart : j ≠ i := by
      rintro rfl
      exact absurd unused (ne_of_gt used)
    rw [count_clientReads,Function.update_of_ne apart]
    exact sound.blank j unused
  · intro j used_too
    rw [count_clientSocket] at used_too ⊢
    rw [count_clientReads,gained_concat,gain]
    by_cases slot : j = i
    · rw [slot,Function.update_self,if_pos ⟨rfl,some_bytes⟩,Int32.ofInt_add,Int32.ofInt_toInt,sound.counts i used]
    · have other : ¬(state.clientSocket i = state.clientSocket j ∧ 0 < bytesRead) := fun same =>
        slot (sound.distinct i j used same.1).symm
      rw [Function.update_of_ne slot,if_neg other]
      exact sound.counts j used_too
  · intro seen later
    obtain rfl := scan_readfds _ _ _ _ later
    exact sound.watched seen (by rw [here]; rfl)
  · intro seen j later
    exact scan_ready _ _ _ _ _ later

theorem sound_release (sound : Sound masterSocket past state) {readfds : Finset Int} {i : Slot} (total : Int32)
    (here : state.position = .reading readfds i) (used : 0 < state.clientSocket i) :
    Sound masterSocket (past ++ [.disconnected (state.clientSocket i) total]) (release state readfds i) := by
  have others (j : Slot) (positive : 0 < Function.update state.clientSocket i 0 j) : j ≠ i := by
    rintro rfl
    rw [Function.update_self] at positive
    exact absurd positive (lt_irrefl 0)
  refine ⟨?_,?_,?_,?_,?_,?_⟩
  · intro j positive
    have apart := others j positive
    rw [release_clientSocket,Function.update_of_ne apart] at positive ⊢
    rw [live_concat,follow,Finset.mem_erase]
    exact ⟨fun same => apart (sound.distinct j i positive same),sound.entries j positive⟩
  · exact distinct_update (0 < ·) sound.distinct i 0 fun positive => absurd positive (lt_irrefl 0)
  · intro j unused
    by_cases slot : j = i
    · rw [slot,release_clientReads,Function.update_self]
    · rw [release_clientSocket,Function.update_of_ne slot] at unused
      rw [release_clientReads,Function.update_of_ne slot]
      exact sound.blank j unused
  · intro j positive
    have apart := others j positive
    rw [release_clientSocket,Function.update_of_ne apart] at positive ⊢
    rw [release_clientReads,Function.update_of_ne apart,gained_concat]
    exact sound.counts j positive
  · intro seen later
    obtain rfl := scan_readfds _ _ _ _ later
    exact sound.watched seen (by rw [here]; rfl)
  · intro seen j later
    exact scan_ready _ _ _ _ _ later

theorem reading_positive (sound : Sound masterSocket past state) {readfds : Finset Int} {i : Slot}
    (here : state.position = .reading readfds i) (other : state.clientSocket i ≠ masterSocket) :
    0 < state.clientSocket i :=
  (sound.watched readfds (by rw [here]; rfl) _ (sound.ready readfds i here)).resolve_left other

theorem sound_step {event : Event} {next : State} (sound : Sound masterSocket past state)
    (possible : Possible masterSocket past event) (succeeds : ∀ sd, event ≠ .read sd (-1))
    (stepped : step program masterSocket state event = some next) : Sound masterSocket (past ++ [event]) next := by
  cases step_transition stepped with
  | selected readfds here selectable => exact sound_look sound _ rfl (fun _ => rfl) readfds selectable.1
  | selectGoesOn here goesOn => exact sound_look sound _ rfl (fun _ => rfl) _ (Finset.Subset.refl _)
  | accepted readfds newSocket here valid =>
    refine sound_enlist sound here ?_ (fun _ => ⟨?_,possible.2,?_⟩) ?_
    · rw [live_concat]
      exact Finset.subset_insert _ _
    · rw [live_concat]
      exact Finset.mem_insert_self _ _
    · rw [gained_concat,gain,if_pos rfl]
    · intro sd member
      rw [gained_concat,gain,if_neg]
      rintro rfl
      exact possible.2 member
  | acceptGoesOn readfds here goesOn =>
    refine sound_enlist sound here ?_ (fun positive => absurd positive (by decide)) ?_
    · rw [live_concat]
      exact Finset.Subset.refl _
    · intro sd _
      rw [gained_concat]
      rfl
  | read readfds i bytesRead here some_bytes =>
    rcases possible with rfl | ⟨other,positive⟩
    · exact absurd rfl (succeeds _)
    · exact sound_count sound here (reading_positive sound here other) positive
  | disconnected readfds i here => exact sound_release sound _ here (reading_positive sound here possible)
  | exits _ failed exits =>
    have kept : live (past ++ [event]) = live past := by
      rw [live_concat]
      rcases failed with rfl | rfl <;> rfl
    have same (sd : Int) : gained sd (past ++ [event]) = gained sd past := by
      rw [gained_concat]
      rcases failed with rfl | rfl <;> rfl
    refine ⟨?_,sound.distinct,sound.blank,?_,?_,?_⟩
    · intro i used
      rw [kept]
      exact sound.entries i used
    · intro i used
      rw [same]
      exact sound.counts i used
    · intro seen later
      cases later
    · intro seen j later
      cases later

theorem sound_run {events : List Event} (lawful : Lawful (Possible masterSocket) events)
    (succeeds : ∀ sd, .read sd (-1) ∉ events) (ran : run (step program masterSocket) start events = some state) :
    Sound masterSocket events state := by
  refine invariant (fun past event => Possible masterSocket past event ∧ ∀ sd, event ≠ .read sd (-1))
    (Sound masterSocket) sound_start (fun _ _ _ _ sound law stepped => sound_step sound law.1 law.2 stepped) ?_ ran
  intro past event first
  refine ⟨lawful past event first,?_⟩
  rintro sd rfl
  exact succeeds sd (first.subset (by simp))

/-- Without failed reads a report has the bytes that arrived, modulo 2^32. -/
theorem report_total {events : List Event} (lawful : Lawful (Possible masterSocket) events)
    (succeeds : ∀ sd, .read sd (-1) ∉ events) {final : State}
    (ran : run (step program masterSocket) start events = some final) {sd : Int} {total : Int32}
    (reported : past ++ [.disconnected sd total] <+: events) : total = Int32.ofInt (gained sd past) := by
  obtain ⟨rest,rfl⟩ := reported
  obtain ⟨after,upTo,_⟩ := run_split ran
  obtain ⟨current,reached,stepped⟩ := run_last upTo
  obtain ⟨before,possible⟩ := (lawful_concat _ _).mp (lawful_before lawful)
  have sound := sound_run before (fun sd member => succeeds sd (by simp [member])) reached
  cases step_transition stepped with
  | disconnected readfds i here => exact sound.counts i (reading_positive sound here possible)
  | exits _ failed _ => rcases failed with same | same <;> cases same

end steps

/-- A run keeps its accounts exactly if no read in it fails, and no connection that is reported
has sent 2^31 bytes. -/
theorem accounts_iff (program : Program) (masterSocket : Int) (events : List Event)
    (lawful : Lawful (Possible masterSocket) events) (final : State)
    (ran : run (step program masterSocket) start events = some final) :
    Accounts program masterSocket events ↔ (∀ sd, .read sd (-1) ∉ events) ∧
      ∀ past sd total, past ++ [.disconnected sd total] <+: events → gained sd past < 2^31 := by
  constructor
  · intro accounts
    have succeeds : ∀ sd, .read sd (-1) ∉ events := by
      intro sd member
      obtain ⟨past,rest,rfl⟩ := List.append_of_mem member
      have first : past ++ [.read sd (-1)] <+: past ++ .read sd (-1) :: rest := ⟨rest,by simp⟩
      rw [List.append_cons] at ran
      obtain ⟨after,upTo,_⟩ := run_split ran
      obtain ⟨before,reached,stepped⟩ := run_last upTo
      have same := accounts.unchanged past sd before after first reached upTo
      cases step_transition stepped with
      | read readfds i _ here _ =>
        have counted := congrFun same i
        rw [count_clientReads,Function.update_self] at counted
        simp at counted
      | exits _ failed _ => rcases failed with other | other <;> cases other
    refine ⟨succeeds,?_⟩
    intro past sd total reported
    have printed := accounts.totals past sd total reported
    rw [report_total lawful succeeds ran reported] at printed
    exact (ofInt_toInt_iff _ (gain_nonneg sd past)).mp printed
  · rintro ⟨succeeds,small⟩
    refine ⟨?_,?_⟩
    · intro past sd before after first
      exact absurd (first.subset (by simp)) (succeeds sd)
    · intro past sd total reported
      rw [report_total lawful succeeds ran reported]
      exact (ofInt_toInt_iff _ (gain_nonneg sd past)).mpr (small past sd total reported)

theorem accounts_session : run (step Dccp.main 3) start (session [10]) = some start ∧
    (Accounts Dccp.main 3 (session [10]) ↔ (∀ sd, .read sd (-1) ∉ session [10]) ∧
      ∀ past sd total, past ++ [.disconnected sd total] <+: session [10] → gained sd past < 2^31) := by
  have other : (4 : Int) ≠ 3 := by decide
  have lawful : Lawful (Possible 3) (session [10]) :=
    follows_lawful ⟨trivial,⟨other,by decide⟩,trivial,Or.inr ⟨other,by decide⟩,trivial,other,trivial⟩
  have ran := session_run Dccp.main [10] (by simp)
  exact ⟨ran,accounts_iff Dccp.main 3 (session [10]) lawful start ran⟩

/-- A connection that brings ten bytes and fails once is reported with nine. -/
theorem failed_read_counts : Lawful (Possible 3) (session [10,-1]) ∧
    run (step Tcp.main 3) start (session [10,-1]) = some start ∧ ¬Accounts Tcp.main 3 (session [10,-1]) := by
  have other : (4 : Int) ≠ 3 := by decide
  have shape : session [10,-1] = [.selected {3},.accepted 4,.selected {4},.read 4 10,.selected {4},.read 4 (-1),
    .selected {4}] ++ [.disconnected 4 9] := by decide
  refine ⟨?_,session_run _ _ (by simp),fun accounts => ?_⟩
  · exact follows_lawful ⟨trivial,⟨other,by decide⟩,trivial,Or.inr ⟨other,by decide⟩,trivial,Or.inl rfl,trivial,other,
      trivial⟩
  · have printed := accounts.totals _ 4 9 (by rw [shape])
    exact absurd printed (by decide)

/-- An accepted descriptor is not open. All other calls may return anything. -/
def Fresh (past : List Event) : Event → Prop
  | .accepted newSocket => newSocket ∉ live past
  | _ => True

/-- In every state of a run of the SCTP server the table holds free slots and open connections,
so no negative descriptor is looked for in a set, and failed calls of `accept` leave both arrays alone. -/
structure Intact (masterSocket : Int) (events : List Event) : Prop where
  entries : ∀ past state, past <+: events → run (step Sctp.main masterSocket) start past = some state →
    ∀ i, state.clientSocket i = 0 ∨ state.clientSocket i ∈ live past
  nonnegative : ∀ past state, past <+: events → run (step Sctp.main masterSocket) start past = some state →
    ∀ i, 0 ≤ state.clientSocket i
  unchanged : ∀ past before after, past ++ [.acceptFailed] <+: events →
    run (step Sctp.main masterSocket) start past = some before →
    run (step Sctp.main masterSocket) start (past ++ [.acceptFailed]) = some after →
    after.clientSocket = before.clientSocket ∧ after.clientReads = before.clientReads

def FailsFull (masterSocket : Int) (events : List Event) : Prop :=
  ∀ past before, past ++ [.acceptFailed] <+: events → run (step Sctp.main masterSocket) start past = some before →
    ∀ i, before.clientSocket i ≠ 0

structure Entered (history : List Event) (state : State) : Prop where
  entries : ∀ i, state.clientSocket i = 0 ∨ state.clientSocket i ∈ live history
  distinct : ∀ i j, state.clientSocket i ≠ 0 → state.clientSocket i = state.clientSocket j → i = j
  nonnegative : ∀ sd ∈ live history, 0 ≤ sd

section sctp
variable {masterSocket : Int} {past : List Event} {state next : State} {event : Event}

theorem entered_same (entered : Entered past state) (sockets : next.clientSocket = state.clientSocket)
    (kept : live (past ++ [event]) = live past) : Entered (past ++ [event]) next := by
  refine ⟨?_,?_,?_⟩
  · rw [kept,sockets]
    exact entered.entries
  · rw [sockets]
    exact entered.distinct
  · rw [kept]
    exact entered.nonnegative

theorem entered_enlist (entered : Entered past state) (readfds : Finset Int) {newSocket : Int} (valid : 0 ≤ newSocket)
    (fresh : newSocket ∉ live past) : Entered (past ++ [.accepted newSocket]) (enlist state readfds newSocket) := by
  have nonnegative : ∀ sd ∈ live (past ++ [.accepted newSocket]), 0 ≤ sd := by
    intro sd member
    rw [live_concat] at member
    rcases Finset.mem_insert.mp member with rfl | older
    · exact valid
    · exact entered.nonnegative sd older
  have older (i : Slot) : state.clientSocket i = 0 ∨ state.clientSocket i ∈ live (past ++ [.accepted newSocket]) := by
    rw [live_concat]
    exact (entered.entries i).imp_right (Finset.mem_insert_of_mem ·)
  rcases addNewSocket_cases state.clientSocket newSocket with ⟨i,free,stored⟩ | ⟨_,stored⟩
  · refine ⟨?_,?_,nonnegative⟩ <;> rw [enlist_clientSocket,stored]
    · intro j
      by_cases slot : j = i
      · rw [slot,Function.update_self,live_concat]
        exact Or.inr (Finset.mem_insert_self _ _)
      · rw [Function.update_of_ne slot]
        exact older j
    · refine distinct_update (· ≠ 0) entered.distinct i newSocket fun used j same => ?_
      exact fresh (same ▸ (entered.entries j).resolve_left (same ▸ used))
  · refine ⟨?_,?_,nonnegative⟩ <;> rw [enlist_clientSocket,stored]
    · exact older
    · exact entered.distinct

theorem entered_release (entered : Entered past state) (readfds : Finset Int) (i : Slot) (total : Int32) :
    Entered (past ++ [.disconnected (state.clientSocket i) total]) (release state readfds i) := by
  refine ⟨?_,?_,?_⟩
  · intro j
    by_cases slot : j = i
    · rw [slot,release_clientSocket,Function.update_self]
      exact Or.inl rfl
    · rw [release_clientSocket,Function.update_of_ne slot,live_concat,follow,Finset.mem_erase]
      by_cases free : state.clientSocket j = 0
      · exact Or.inl free
      · exact Or.inr ⟨fun same => slot (entered.distinct j i free same),(entered.entries j).resolve_left free⟩
  · exact distinct_update (· ≠ 0) entered.distinct i 0 fun used => absurd rfl used
  · intro sd member
    rw [live_concat] at member
    exact entered.nonnegative sd (Finset.mem_of_mem_erase member)

theorem entered_step (entered : Entered past state) (fresh : Fresh past event)
    (full : event = .acceptFailed → ∀ i, state.clientSocket i ≠ 0)
    (stepped : step Sctp.main masterSocket state event = some next) : Entered (past ++ [event]) next := by
  cases step_transition stepped with
  | selected readfds here selectable => exact entered_same entered rfl (live_concat _ _)
  | selectGoesOn here goesOn => exact entered_same entered rfl (live_concat _ _)
  | accepted readfds newSocket here valid => exact entered_enlist entered readfds valid fresh
  | acceptGoesOn readfds here goesOn =>
    rcases addNewSocket_cases state.clientSocket (-1) with ⟨i,free,_⟩ | ⟨_,stored⟩
    · exact absurd free (full rfl i)
    · exact entered_same entered stored (live_concat _ _)
  | read readfds i bytesRead here some_bytes => exact entered_same entered rfl (live_concat _ _)
  | disconnected readfds i here => exact entered_release entered readfds i _
  | exits _ failed exits => exact absurd exits (by decide)

theorem entered_run {events : List Event} (lawful : Lawful Fresh events) (full : FailsFull masterSocket events)
    (ran : run (step Sctp.main masterSocket) start events = some state) : Entered events state := by
  have both := invariant (fun past event => Fresh past event ∧ past ++ [event] <+: events)
    (fun history state => Entered history state ∧ run (step Sctp.main masterSocket) start history = some state)
    ⟨⟨fun _ => Or.inl rfl,fun _ _ used => absurd rfl used,by simp⟩,rfl⟩
    (fun past state event next held law stepped => by
      refine ⟨entered_step held.1 law.1 ?_ stepped,?_⟩
      · rintro rfl
        exact full past state law.2 held.2
      · rw [run_concat,held.2]
        exact stepped)
    (fun past event first => ⟨lawful past event first,first⟩) ran
  exact both.1

end sctp

/-- The SCTP server keeps its table intact exactly if `accept` fails only when all slots are taken. -/
theorem intact_iff (masterSocket : Int) (events : List Event) (lawful : Lawful Fresh events) (final : State)
    (ran : run (step Sctp.main masterSocket) start events = some final) :
    Intact masterSocket events ↔ FailsFull masterSocket events := by
  constructor
  · rintro intact past before ⟨rest,rfl⟩ reached i free
    obtain ⟨after,upTo,_⟩ := run_split ran
    have same := (intact.unchanged past before after (List.prefix_append _ _) reached upTo).1
    obtain ⟨state,again,stepped⟩ := run_last upTo
    obtain rfl := Option.some.inj (reached.symm.trans again)
    cases step_transition stepped with
    | acceptGoesOn readfds here goesOn =>
      obtain ⟨j,vacant,stored⟩ := addNewSocket_vacant before.clientSocket (-1) ⟨i,free⟩
      rw [enlist_clientSocket,stored] at same
      have taken := congrFun same j
      rw [Function.update_self,vacant] at taken
      exact absurd taken (by decide)
    | exits _ failed exits => exact absurd exits (by decide)
  · intro full
    have entered (past : List Event) (state : State) (first : past <+: events)
        (reached : run (step Sctp.main masterSocket) start past = some state) : Entered past state := by
      obtain ⟨rest,rfl⟩ := first
      exact entered_run (lawful_before lawful)
        (fun earlier before inner => full earlier before (inner.trans (List.prefix_append _ _))) reached
    refine ⟨fun past state first reached => (entered past state first reached).entries,?_,?_⟩
    · intro past state first reached i
      rcases (entered past state first reached).entries i with free | member
      · rw [free]
      · exact (entered past state first reached).nonnegative _ member
    · intro past before after first reached upTo
      obtain ⟨state,again,stepped⟩ := run_last upTo
      obtain rfl := Option.some.inj (reached.symm.trans again)
      cases step_transition stepped with
      | acceptGoesOn readfds here goesOn =>
        refine ⟨?_,rfl⟩
        rcases addNewSocket_cases before.clientSocket (-1) with ⟨i,free,_⟩ | ⟨_,stored⟩
        · exact absurd free (full past before first reached i)
        · exact stored
      | exits _ failed exits => exact absurd exits (by decide)

theorem intact_session : run (step Sctp.main 3) start (session [10]) = some start ∧
    (Intact 3 (session [10]) ↔ FailsFull 3 (session [10])) := by
  have fresh : (4 : Int) ∉ live [.selected {3}] := by decide
  have ran := session_run Sctp.main [10] (by simp)
  exact ⟨ran,intact_iff 3 (session [10]) (follows_lawful ⟨trivial,fresh,trivial,trivial,trivial,trivial,trivial⟩) start ran⟩

/-- The first `accept` fails, and its -1 takes a slot. -/
def failedAccept : List Event := [.selected {3},.acceptFailed]

theorem failed_accept_kept : Lawful Fresh failedAccept ∧
    (run (step Sctp.main 3) start failedAccept).isSome ∧ ¬Intact 3 failedAccept := by
  have selectable : Selectable (rebuild 3 start.clientSocket) {3} := (selectable_iff _ _ _).mpr (by simp)
  have polled : run (step Sctp.main 3) start [.selected {3}] = some (look 3 start {3}) := by
    have stepped : step Sctp.main 3 start (.selected {3}) = some (look 3 start {3}) := if_pos selectable
    rw [run,List.foldlM_cons,stepped]
    rfl
  have failed : run (step Sctp.main 3) start ([.selected {3}] ++ [.acceptFailed]) =
      some (enlist (look 3 start {3}) {3} (-1)) := by
    rw [run_concat,polled]
    simp [step,look,dispatch,Sctp.main]
  refine ⟨follows_lawful ⟨trivial,trivial,trivial⟩,by rw [failedAccept]; exact Option.isSome_of_eq_some failed,?_⟩
  intro intact
  have same := (intact.unchanged [.selected {3}] _ _ (List.prefix_refl _) polled failed).1
  obtain ⟨i,_,stored⟩ := addNewSocket_vacant (look 3 start {3}).clientSocket (-1) ⟨firstSlot,rfl⟩
  rw [enlist_clientSocket,stored] at same
  have taken := congrFun same i
  rw [Function.update_self] at taken
  exact absurd taken (by decide : (-1 : Int) ≠ 0)

end ProtocolTests.ServerErrors
