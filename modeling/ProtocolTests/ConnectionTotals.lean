import ProtocolTests.Connections
import Mathlib.Data.Finset.Prod
import Mathlib.Data.Fintype.Card

/-! What the server reports about every connection: the bytes that were put into it and
that the medium has not lost, in every run of the system. -/
namespace ProtocolTests.ConnectionTotals
open Library.Run Library.Media ServerTable ServerTotals Connections

variable {clients : Nat} {α μ ν : Type}

def due (medium : Medium α μ ν) (channel : Nat) (commands : List (Command α)) : Nat :=
  (commands.map (Command.bytes medium channel)).sum

@[simp] theorem due_nil (medium : Medium α μ ν) (channel : Nat) : due medium channel [] = 0 := rfl

@[simp] theorem due_cons (medium : Medium α μ ν) (channel : Nat) (command : Command α) (rest : List (Command α)) :
    due medium channel (command :: rest) = command.bytes medium channel + due medium channel rest := by
  simp [due]

theorem due_unsent (medium : Medium α μ ν) {channel : Nat} {commands : List (Command α)}
    (unsent : ∀ item, .put channel item ∉ commands) : due medium channel commands = 0 := by
  induction commands with
  | nil => rfl
  | cons command rest ih =>
    rw [due_cons,ih fun item member => unsent item (List.mem_cons_of_mem _ member),Nat.add_zero]
    cases command with
    | put other item =>
      refine if_neg fun same => ?_
      subst same
      exact unsent item List.mem_cons_self
    | _ => rfl

/-- What the plans of the clients have to be like: nothing is put behind a close, every item
comes in one read, the bytes of every channel can be counted, and there are enough slots
for all connections. -/
structure Proper (medium : Medium α μ ν) (admitted : α → Prop) (channels : Nat)
    (plan : Fin clients → List (Command α)) : Prop where
  inside : ∀ client, ∀ command ∈ plan client, ∀ channel, command.channel? = some channel → channel < channels
  closing : ∀ client channel item done rest, plan client = done ++ rest → .close channel ∈ done →
    .put channel item ∉ rest
  admits : ∀ client channel item, .put channel item ∈ plan client → admitted item
  small : ∀ client, ∀ channel < channels, due medium channel (plan client) < 2^31
  room : clients * channels ≤ Server.MAX_CLIENTS

theorem Proper.mono {medium : Medium α μ ν} {admitted weaker : α → Prop} {channels : Nat}
    {plan : Fin clients → List (Command α)} (proper : Proper medium admitted channels plan)
    (weak : ∀ item, admitted item → weaker item) : Proper medium weaker channels plan :=
  ⟨proper.inside,proper.closing,fun client channel item put => weak item (proper.admits client channel item put),
    proper.small,proper.room⟩

theorem silent_proper (medium : Medium α μ ν) {admitted : α → Prop} {channels : Nat}
    (room : clients * channels ≤ Server.MAX_CLIENTS) :
    Proper medium admitted channels fun _ : Fin clients => [.silent] where
  inside := by simp [Command.channel?]
  closing := by
    rintro client channel item done rest split closed put
    have inside : Command.put channel item ∈ done ++ rest := List.mem_append_right _ put
    rw [← split] at inside
    simp at inside
  admits := by simp
  small := by simp [Command.bytes]
  room := room

/-- The open descriptors of the server are those of the opened connections. -/
structure Attached (program : Server.Program) (masterSocket : Int) (history : List Server.Event)
    (system : System clients α μ) : Prop where
  ran : run (Server.step program masterSocket) Server.start history = some system.server
  lawful : Lawful (Succeeds masterSocket) history
  descriptors : system.descriptors = insert masterSocket (live history)
  mem_live : ∀ sd, sd ∈ live history ↔ ∃ connection, system.phase connection = .opened sd
  alone : ∀ first second sd, system.phase first = .opened sd → system.phase second = .opened sd → first = second

/-- What a client has done shows in its connections, and nothing else happens there. -/
structure Along (medium : Medium α μ ν) (channels : Nat) (plan : Fin clients → List (Command α))
    (system : System clients α μ) : Prop where
  progress : ∀ client, ∃ done, plan client = done ++ system.remaining client ∧ ∀ channel,
    (system.phase (client,channel) ≠ .idle ↔ .connect channel ∈ done) ∧
      (medium.closed (system.between (client,channel)) = true ↔ .close channel ∈ done)
  outside : ∀ connection, channels ≤ connection.2 → system.between connection = medium.empty

def counted (history : List Server.Event) : Phase → Int
  | .opened sd => received sd history
  | .reported total => total.toInt
  | _ => 0

/-- No byte is put down to another connection, and none is missing without being lost. -/
structure Balanced (medium : Medium α μ ν) (intact : μ → Prop) (plan : Fin clients → List (Command α))
    (history : List Server.Event) (system : System clients α μ) : Prop where
  intact : ∀ connection, intact (system.between connection)
  sum : ∀ connection, counted history (system.phase connection) + medium.held (system.between connection) +
      medium.lost (system.between connection) + due medium connection.2 (system.remaining connection.1) =
    due medium connection.2 (plan connection.1)
  reported : ∀ connection total, system.phase connection = .reported total →
    medium.closed (system.between connection) = true ∧ medium.held (system.between connection) = 0

theorem counted_concat {history : List Server.Event} {event : Server.Event} {phase : Phase}
    (apart : ∀ sd, phase = .opened sd → addTo sd (received sd history) event = received sd history) :
    counted (history ++ [event]) phase = counted history phase := by
  cases phase with
  | opened sd =>
    rw [counted,counted,received_concat]
    exact apart sd rfl
  | _ => rfl

section attached
variable {program : Server.Program} {masterSocket : Int} {history : List Server.Event}
  {system next : System clients α μ}

theorem attached_begin (medium : Medium α μ ν) (plan : Fin clients → List (Command α)) :
    Attached program masterSocket [] (begin medium masterSocket plan) where
  ran := rfl
  lawful := lawful_nil
  descriptors := rfl
  mem_live := by simp [begin]
  alone := by simp [begin]

theorem attached_unserved (attached : Attached program masterSocket history system) (server : next.server = system.server)
    (descriptors : next.descriptors = system.descriptors)
    (opened : ∀ connection sd, next.phase connection = .opened sd ↔ system.phase connection = .opened sd) :
    Attached program masterSocket history next := by
  obtain ⟨ran,lawful,listed,mem_live,alone⟩ := attached
  refine ⟨by rw [server]; exact ran,lawful,by rw [descriptors]; exact listed,?_,?_⟩
  · intro sd
    simp only [opened]
    exact mem_live sd
  · intro first second sd
    rw [opened,opened]
    exact alone first second sd

theorem attached_served (attached : Attached program masterSocket history system) {event : Server.Event}
    (served : Server.step program masterSocket system.server event = some next.server)
    (succeeds : Succeeds masterSocket history event) (kept : follow (live history) event = live history)
    (descriptors : next.descriptors = system.descriptors) (phase : next.phase = system.phase) :
    Attached program masterSocket (history ++ [event]) next := by
  obtain ⟨ran,lawful,listed,mem_live,alone⟩ := attached
  refine ⟨?_,(lawful_concat _ _).mpr ⟨lawful,succeeds⟩,?_,?_,?_⟩
  · rw [run_concat,ran]
    exact served
  · rw [descriptors,live_concat,kept]
    exact listed
  · rw [phase,live_concat,kept]
    exact mem_live
  · rw [phase]
    exact alone

theorem opened_other (attached : Attached program masterSocket history system) {connection : Connection clients}
    {sd : Int} (opened : system.phase connection = .opened sd) : sd ≠ masterSocket :=
  have tidy := (counts_run attached.lawful attached.ran).1
  (tidy.positive sd ((attached.mem_live sd).mpr ⟨connection,opened⟩)).2

theorem attached_accepted (attached : Attached program masterSocket history system) {connection : Connection clients}
    {newSocket : Int} (succeeds : Succeeds masterSocket history (.accepted newSocket))
    (pending : system.phase connection = .pending)
    (served : Server.step program masterSocket system.server (.accepted newSocket) = some next.server)
    (descriptors : next.descriptors = insert newSocket system.descriptors)
    (phase : next.phase = Function.update system.phase connection (.opened newSocket)) :
    Attached program masterSocket (history ++ [.accepted newSocket]) next := by
  obtain ⟨ran,lawful,listed,mem_live,alone⟩ := attached
  have new := succeeds.2.2.1
  have phases (other : Connection clients) (sd : Int) : next.phase other = .opened sd ↔
      other = connection ∧ sd = newSocket ∨ system.phase other = .opened sd := by
    rw [phase]
    by_cases here : other = connection
    · subst here
      simp [pending,eq_comm]
    · simp [here]
  refine ⟨?_,(lawful_concat _ _).mpr ⟨lawful,succeeds⟩,?_,?_,?_⟩
  · rw [run_concat,ran]
    exact served
  · rw [descriptors,listed,live_concat]
    exact Finset.insert_comm _ _ _
  · intro sd
    simp only [phases,live_concat,follow,Finset.mem_insert,mem_live]
    constructor
    · rintro (rfl | ⟨owner,opened⟩)
      · exact ⟨connection,Or.inl ⟨rfl,rfl⟩⟩
      · exact ⟨owner,Or.inr opened⟩
    · rintro ⟨owner,⟨_,rfl⟩ | opened⟩
      · exact Or.inl rfl
      · exact Or.inr ⟨owner,opened⟩
  · intro first second sd a b
    rcases (phases first sd).mp a with ⟨rfl,rfl⟩ | older
    · rcases (phases second sd).mp b with ⟨rfl,_⟩ | older
      · rfl
      · exact absurd ((mem_live sd).mpr ⟨second,older⟩) new
    · rcases (phases second sd).mp b with ⟨rfl,rfl⟩ | older_too
      · exact absurd ((mem_live sd).mpr ⟨first,older⟩) new
      · exact alone first second sd older older_too

theorem attached_disconnected (attached : Attached program masterSocket history system)
    {connection : Connection clients} {sd : Int} {total : Int32} (opened : system.phase connection = .opened sd)
    (served : Server.step program masterSocket system.server (.disconnected sd total) = some next.server)
    (descriptors : next.descriptors = system.descriptors.erase sd)
    (phase : next.phase = Function.update system.phase connection (.reported total)) :
    Attached program masterSocket (history ++ [.disconnected sd total]) next := by
  have other_socket := opened_other attached opened
  obtain ⟨ran,lawful,listed,mem_live,alone⟩ := attached
  have phases (other : Connection clients) (sd' : Int) :
      next.phase other = .opened sd' ↔ other ≠ connection ∧ system.phase other = .opened sd' := by
    rw [phase]
    by_cases here : other = connection
    · subst here
      simp
    · simp [here]
  refine ⟨?_,(lawful_concat _ _).mpr ⟨lawful,other_socket⟩,?_,?_,?_⟩
  · rw [run_concat,ran]
    exact served
  · rw [descriptors,listed,live_concat]
    exact Finset.erase_insert_of_ne other_socket.symm
  · intro sd'
    simp only [phases,live_concat,follow,Finset.mem_erase,mem_live]
    constructor
    · rintro ⟨apart,owner,owns⟩
      refine ⟨owner,?_,owns⟩
      rintro rfl
      rw [opened] at owns
      exact apart (Phase.opened.inj owns).symm
    · rintro ⟨owner,apart,owns⟩
      refine ⟨?_,owner,owns⟩
      rintro rfl
      exact apart (alone owner connection sd' owns opened)
  · intro first second sd' a b
    exact alone first second sd' ((phases first sd').mp a).2 ((phases second sd').mp b).2

end attached

section commands
variable {medium : Medium α μ ν} {admitted : α → Prop} {intact : μ → Prop} (behaves : Behaves medium admitted intact)

theorem enter_idle (command : Command α) (channel : Nat) (phase : Phase) :
    command.enter channel phase ≠ .idle ↔ phase ≠ .idle ∨ command = .connect channel := by
  cases command with
  | connect other =>
    by_cases same : other = channel
    · simp [Command.enter,same]
    · simp [Command.enter,same]
  | _ => simp [Command.enter]

theorem enter_cases {command : Command α} {phase : Nat → Phase} (possible : command.Possible phase) (channel : Nat) :
    command.enter channel (phase channel) = phase channel ∨
      phase channel = .idle ∧ command.enter channel (phase channel) = .pending := by
  cases command with
  | connect other =>
    by_cases same : other = channel
    · subst same
      exact Or.inr ⟨possible,if_pos rfl⟩
    · exact Or.inl (if_neg same)
  | _ => exact Or.inl rfl

include behaves

theorem act_closed (command : Command α) (channel : Nat) (state : μ) :
    medium.closed (command.act medium channel state) = true ↔ medium.closed state = true ∨ command = .close channel := by
  cases command with
  | put other item =>
    by_cases same : other = channel
    · simp [Command.act,same,behaves.closed_put]
    · simp [Command.act,same]
  | close other =>
    by_cases same : other = channel
    · simp [Command.act,same,behaves.closed_close]
    · simp [Command.act,same]
  | _ => simp [Command.act]

theorem act_intact {command : Command α} {channel : Nat} {state : μ} (before : intact state)
    (admits : ∀ item, command = .put channel item → admitted item) : intact (command.act medium channel state) := by
  cases command with
  | put other item =>
    by_cases same : other = channel
    · subst same
      simp only [Command.act,if_true]
      exact behaves.intact_put state item before (admits item rfl)
    · simpa [Command.act,same] using before
  | close other =>
    by_cases same : other = channel
    · simpa [Command.act,same] using behaves.intact_close state before
    · simpa [Command.act,same] using before
  | _ => exact before

theorem act_held (command : Command α) (channel : Nat) (state : μ) :
    medium.held (command.act medium channel state) + medium.lost (command.act medium channel state) =
      medium.held state + medium.lost state + command.bytes medium channel := by
  cases command with
  | put other item =>
    by_cases same : other = channel
    · simp only [Command.act,Command.bytes,same,if_true]
      exact behaves.held_put state item
    · simp [Command.act,Command.bytes,same]
  | close other =>
    by_cases same : other = channel
    · simp [Command.act,Command.bytes,same,behaves.held_close state]
    · simp [Command.act,Command.bytes,same]
  | _ => simp [Command.act,Command.bytes]

/-- Only a put changes what a medium holds. -/
theorem act_unsent {command : Command α} {channel : Nat} (unsent : ∀ item, command ≠ .put channel item) (state : μ) :
    medium.held (command.act medium channel state) = medium.held state := by
  cases command with
  | put other item =>
    have apart : other ≠ channel := by
      rintro rfl
      exact unsent item rfl
    simp [Command.act,apart]
  | close other =>
    by_cases same : other = channel
    · simp [Command.act,same,behaves.held_close state]
    · simp [Command.act,same]
  | _ => rfl

end commands

section clients
variable {medium : Medium α μ ν} {admitted : α → Prop} {intact : μ → Prop} (behaves : Behaves medium admitted intact)
  {channels : Nat} {masterSocket : Int} {plan : Fin clients → List (Command α)} {history : List Server.Event}
  {system next : System clients α μ}

include behaves in
theorem along_begin : Along medium channels plan (begin medium masterSocket plan) where
  progress := fun client => ⟨[],rfl,by simp [begin,behaves.closed_empty]⟩
  outside := fun _ _ => rfl

theorem along_kept (along : Along medium channels plan system) (remaining : next.remaining = system.remaining)
    (idle : ∀ connection, next.phase connection = .idle ↔ system.phase connection = .idle)
    (closed : ∀ connection, medium.closed (next.between connection) = medium.closed (system.between connection))
    (outside : ∀ connection, channels ≤ connection.2 → next.between connection = system.between connection) :
    Along medium channels plan next := by
  refine ⟨fun client => ?_,fun connection beyond => (outside connection beyond).trans (along.outside connection beyond)⟩
  obtain ⟨done,whole,shows⟩ := along.progress client
  refine ⟨done,by rw [remaining]; exact whole,fun channel => ?_⟩
  rw [ne_eq,idle,closed]
  exact shows channel

include behaves in
theorem along_called (proper : Proper medium admitted channels plan) (along : Along medium channels plan system)
    {client : Fin clients} {command : Command α} {rest : List (Command α)}
    (current : system.remaining client = command :: rest) :
    Along medium channels plan (called medium system client command rest) := by
  obtain ⟨done,whole,shows⟩ := along.progress client
  rw [current] at whole
  refine ⟨fun other => ?_,fun connection beyond => ?_⟩
  · by_cases same : other = client
    · subst same
      refine ⟨done ++ [command],by simp [called,whole],fun channel => ?_⟩
      simp only [called,if_true,enter_idle,act_closed behaves,List.mem_append,List.mem_singleton]
      rw [(shows channel).1,(shows channel).2,eq_comm (a := command),eq_comm (a := command)]
      exact ⟨Iff.rfl,Iff.rfl⟩
    · obtain ⟨done,whole,shows⟩ := along.progress other
      refine ⟨done,by simpa [called,same] using whole,fun channel => ?_⟩
      simp only [called,same,if_false]
      exact shows channel
  · have here : command ∈ plan client := by
      rw [whole]
      simp
    have elsewhere (channel : Nat) (named : command.channel? = some channel) : channel ≠ connection.2 := by
      have bound := proper.inside client command here channel named
      omega
    have unused (state : μ) : command.act medium connection.2 state = state := by
      cases command with
      | put other item => exact if_neg (elsewhere other rfl)
      | close other => exact if_neg (elsewhere other rfl)
      | _ => rfl
    simp only [called,unused,ite_self]
    exact along.outside connection beyond

include behaves in
theorem balanced_begin : Balanced medium intact plan [] (begin medium masterSocket plan) where
  intact := fun _ => behaves.intact_empty
  sum := by simp [begin,counted,behaves.held_empty]
  reported := by simp [begin]

theorem unsent_behind (proper : Proper medium admitted channels plan) (along : Along medium channels plan system)
    {connection : Connection clients} (closed : medium.closed (system.between connection) = true) (item : α) :
    .put connection.2 item ∉ system.remaining connection.1 := by
  obtain ⟨done,whole,shows⟩ := along.progress connection.1
  exact proper.closing _ _ item done _ whole ((shows connection.2).2.mp closed)

include behaves in
theorem balanced_called (proper : Proper medium admitted channels plan) (along : Along medium channels plan system)
    (balanced : Balanced medium intact plan history system) {client : Fin clients} {command : Command α}
    {rest : List (Command α)} (current : system.remaining client = command :: rest)
    (possible : command.Possible fun channel => system.phase (client,channel)) :
    Balanced medium intact plan history (called medium system client command rest) := by
  obtain ⟨done,whole,_⟩ := along.progress client
  have here : command ∈ plan client := by
    rw [whole,current]
    simp
  refine ⟨fun connection => ?_,fun connection => ?_,fun connection total reported => ?_⟩
  · simp only [called]
    split
    next same =>
      refine act_intact behaves (balanced.intact connection) fun item put => ?_
      exact proper.admits client connection.2 item (put ▸ here)
    next => exact balanced.intact connection
  · have before := balanced.sum connection
    simp only [called]
    by_cases same : connection.1 = client
    · obtain ⟨owner,channel⟩ := connection
      obtain rfl : owner = client := same
      have held := act_held behaves command channel (system.between (owner,channel))
      have count : counted history (command.enter channel (system.phase (owner,channel))) =
          counted history (system.phase (owner,channel)) := by
        rcases enter_cases possible channel with still | ⟨idle,pending⟩
        · rw [still]
        · rw [pending,idle]
          rfl
      rw [current,due_cons] at before
      rw [if_pos rfl,if_pos rfl,Function.update_self]
      dsimp only at before ⊢
      rw [count]
      omega
    · rw [if_neg same,if_neg same,Function.update_of_ne same]
      exact before
  · simp only [called] at reported ⊢
    by_cases same : connection.1 = client
    · obtain ⟨owner,channel⟩ := connection
      obtain rfl : owner = client := same
      rw [if_pos rfl] at reported ⊢
      have already : system.phase (owner,channel) = .reported total := by
        rcases enter_cases possible channel with still | ⟨_,pending⟩
        · rwa [still] at reported
        · rw [pending] at reported
          cases reported
      obtain ⟨closed,none_held⟩ := balanced.reported _ _ already
      have unsent (item : α) : command ≠ .put channel item := by
        rintro rfl
        have unsent := unsent_behind proper along closed item
        rw [current] at unsent
        exact unsent List.mem_cons_self
      exact ⟨(act_closed behaves _ _ _).mpr (Or.inl closed),(act_unsent behaves unsent _).trans none_held⟩
    · rw [if_neg same] at reported ⊢
      exact balanced.reported connection total reported

theorem balanced_local (balanced : Balanced medium intact plan history system) (connection : Connection clients)
    {later : List Server.Event} (remaining : next.remaining = system.remaining)
    (elsewhere : ∀ other, other ≠ connection → next.between other = system.between other ∧
      next.phase other = system.phase other ∧ counted later (next.phase other) = counted history (system.phase other))
    (intact_here : intact (next.between connection))
    (sum_here : counted later (next.phase connection) + medium.held (next.between connection) +
        medium.lost (next.between connection) =
      counted history (system.phase connection) + medium.held (system.between connection) +
        medium.lost (system.between connection))
    (reported_here : ∀ total, next.phase connection = .reported total →
      medium.closed (next.between connection) = true ∧ medium.held (next.between connection) = 0) :
    Balanced medium intact plan later next := by
  refine ⟨fun other => ?_,fun other => ?_,fun other total reported => ?_⟩
  · by_cases here : other = connection
    · rw [here]
      exact intact_here
    · rw [(elsewhere other here).1]
      exact balanced.intact other
  · rw [← balanced.sum other,remaining]
    by_cases here : other = connection
    · rw [here,sum_here]
    · obtain ⟨between,_,count⟩ := elsewhere other here
      rw [between,count]
  · by_cases here : other = connection
    · subst here
      exact reported_here total reported
    · obtain ⟨between,phase,_⟩ := elsewhere other here
      rw [phase] at reported
      rw [between]
      exact balanced.reported other total reported

theorem inside_channels (proper : Proper medium admitted channels plan) (along : Along medium channels plan system)
    (connection : Connection clients) (busy : system.phase connection ≠ .idle) : connection.2 < channels := by
  obtain ⟨done,whole,shows⟩ := along.progress connection.1
  have connected := (shows connection.2).1.mp busy
  refine proper.inside connection.1 (.connect connection.2) ?_ connection.2 rfl
  rw [whole]
  exact List.mem_append_left _ connected

theorem room_left {program : Server.Program} (proper : Proper medium admitted channels plan)
    (along : Along medium channels plan system) (attached : Attached program masterSocket history system)
    {connection : Connection clients} (pending : system.phase connection = .pending) :
    (live history).card < Server.MAX_CLIENTS := by
  let descriptor (connection : Connection clients) : Int :=
    match system.phase connection with
    | .opened sd => sd
    | _ => 0
  have mine : connection ∈ (Finset.univ : Finset (Fin clients)) ×ˢ Finset.range channels := by
    have bound := inside_channels proper along connection (by rw [pending]; exact Phase.noConfusion)
    exact Finset.mem_product.mpr ⟨Finset.mem_univ _,Finset.mem_range.mpr bound⟩
  have covered : live history ⊆
      (((Finset.univ : Finset (Fin clients)) ×ˢ Finset.range channels).erase connection).image descriptor := by
    intro sd member
    obtain ⟨owner,opened⟩ := (attached.mem_live sd).mp member
    have bound := inside_channels proper along owner (by rw [opened]; exact Phase.noConfusion)
    refine Finset.mem_image.mpr ⟨owner,Finset.mem_erase.mpr ⟨?_,?_⟩,?_⟩
    · rintro rfl
      rw [opened] at pending
      cases pending
    · exact Finset.mem_product.mpr ⟨Finset.mem_univ _,Finset.mem_range.mpr bound⟩
    · simp only [descriptor,opened]
  have size := (Finset.card_le_card covered).trans Finset.card_image_le
  have some_slot := Finset.card_pos.mpr ⟨connection,mine⟩
  have room := proper.room
  rw [Finset.card_erase_of_mem mine] at size
  rw [Finset.card_product,Finset.card_univ,Fintype.card_fin,Finset.card_range] at size some_slot
  omega

end clients

/-- What holds after every run. -/
structure Sound (medium : Medium α μ ν) (intact : μ → Prop) (channels : Nat) (program : Server.Program)
    (masterSocket : Int) (plan : Fin clients → List (Command α)) (history : List Server.Event)
    (system : System clients α μ) : Prop where
  attached : Attached program masterSocket history system
  along : Along medium channels plan system
  balanced : Balanced medium intact plan history system

section steps
variable {medium : Medium α μ ν} {admitted : α → Prop} {intact : μ → Prop} (behaves : Behaves medium admitted intact)
  (narrow : medium.limit < 2^31) {channels : Nat} {program : Server.Program} {masterSocket : Int} {plan : Fin clients → List (Command α)}
  {history : List Server.Event} {system : System clients α μ} (proper : Proper medium admitted channels plan)
  (sound : Sound medium intact channels program masterSocket plan history system)

theorem onMedium_here (system : System clients α μ) (connection : Connection clients) (state : μ) :
    (onMedium system connection state).between connection = state := Function.update_self ..

theorem onMedium_apart (system : System clients α μ) {connection other : Connection clients} (state : μ)
    (apart : other ≠ connection) : (onMedium system connection state).between other = system.between other :=
  Function.update_of_ne apart ..

theorem enter_here (system : System clients α μ) (connection : Connection clients) (phase : Phase) :
    (enter system connection phase).phase connection = phase := Function.update_self ..

theorem enter_apart (system : System clients α μ) {connection other : Connection clients} (phase : Phase)
    (apart : other ≠ connection) : (enter system connection phase).phase other = system.phase other :=
  Function.update_of_ne apart ..

include behaves sound

theorem sound_moved {connection : Connection clients} {motion : ν} {state : μ}
    (moved : medium.move (system.between connection) motion = some state) :
    Sound medium intact channels program masterSocket plan history (onMedium system connection state) := by
  obtain ⟨attached,along,balanced⟩ := sound
  have here := onMedium_here system connection state
  have closed := behaves.closed_move _ _ _ moved
  have held := behaves.held_move _ _ _ moved
  refine ⟨attached_unserved attached rfl rfl fun _ _ => Iff.rfl,?_,?_⟩
  · refine along_kept along rfl (fun _ => Iff.rfl) (fun other => ?_) fun other beyond => ?_
    · by_cases same : other = connection
      · rw [same,here,closed]
      · rw [onMedium_apart system state same]
    · refine onMedium_apart system state fun same => ?_
      have empty := along.outside other beyond
      rw [← same,empty,behaves.still motion] at moved
      cases moved
  · refine balanced_local balanced connection rfl
      (fun other apart => ⟨onMedium_apart system state apart,rfl,rfl⟩) ?_ ?_ fun total reported => ?_
    · rw [here]
      exact behaves.intact_move _ _ _ (balanced.intact connection) moved
    · rw [here]
      change counted history (system.phase connection) + _ + _ = _
      omega
    · obtain ⟨was_closed,none_held⟩ := balanced.reported connection total reported
      rw [here]
      exact ⟨closed.trans was_closed,by omega⟩

include proper

omit behaves in
theorem accepts {connection : Connection clients} {newSocket : Int} (pending : system.phase connection = .pending)
    (positive : 0 < newSocket) (unused : newSocket ∉ system.descriptors) :
    Succeeds masterSocket history (.accepted newSocket) := by
  rw [sound.attached.descriptors,Finset.mem_insert] at unused
  push Not at unused
  exact ⟨positive,unused.1,unused.2,room_left proper sound.along sound.attached pending⟩

omit behaves in
theorem sound_accepted {connection : Connection clients} {newSocket : Int} {server : Server.State}
    (pending : system.phase connection = .pending) (positive : 0 < newSocket) (unused : newSocket ∉ system.descriptors)
    (served : Server.step program masterSocket system.server (.accepted newSocket) = some server) :
    Sound medium intact channels program masterSocket plan (history ++ [.accepted newSocket])
      {enter system connection (.opened newSocket) with
        server
        descriptors := insert newSocket system.descriptors} := by
  have succeeds := accepts proper sound pending positive unused
  obtain ⟨attached,along,balanced⟩ := sound
  have new := succeeds.2.2.1
  refine ⟨attached_accepted attached succeeds pending served rfl rfl,?_,?_⟩
  · refine along_kept along rfl (fun other => ?_) (fun _ => rfl) fun _ _ => rfl
    by_cases same : other = connection
    · subst same
      simp [enter,pending]
    · exact Eq.congr_left (enter_apart system _ same)
  · have here : (enter system connection (.opened newSocket)).phase connection = .opened newSocket := enter_here ..
    refine balanced_local balanced connection rfl
      (fun other apart => ⟨rfl,enter_apart system _ apart,?_⟩) (balanced.intact connection) ?_ fun total reported => ?_
    · refine (congrArg _ (enter_apart system _ apart)).trans (counted_concat fun sd opened => if_neg ?_)
      rintro rfl
      exact new ((attached.mem_live newSocket).mpr ⟨other,opened⟩)
    · change counted _ ((enter system connection (.opened newSocket)).phase connection) + _ + _ = _
      rw [here,pending,counted,received_concat,addTo,if_pos rfl]
      rfl
    · change (enter system connection (.opened newSocket)).phase connection = _ at reported
      rw [here] at reported
      cases reported

include narrow

omit proper in
theorem reads {connection : Connection clients} {sd : Int} {n : Nat} {state : μ}
    (opened : system.phase connection = .opened sd) (some_bytes : n ≠ 0)
    (taken : medium.read (system.between connection) n = some state) :
    (Int32.ofNat n).toInt = n ∧ Succeeds masterSocket history (.read sd (Int32.ofNat n)) := by
  have bytes : (Int32.ofNat n).toInt = n :=
    Int32.toInt_ofNat_of_lt (lt_of_le_of_lt (behaves.read_limit _ _ _ taken) narrow)
  refine ⟨bytes,opened_other sound.attached opened,?_⟩
  rw [Int32.lt_iff_toInt_lt,bytes]
  exact Int.natCast_pos.mpr (Nat.pos_of_ne_zero some_bytes)

theorem sound_read {connection : Connection clients} {sd : Int} {n : Nat} {state : μ} {server : Server.State}
    (opened : system.phase connection = .opened sd) (some_bytes : n ≠ 0)
    (taken : medium.read (system.between connection) n = some state)
    (served : Server.step program masterSocket system.server (.read sd (Int32.ofNat n)) = some server) :
    Sound medium intact channels program masterSocket plan (history ++ [.read sd (Int32.ofNat n)])
      {onMedium system connection state with server} := by
  obtain ⟨bytes,succeeds⟩ := reads behaves narrow sound opened some_bytes taken
  obtain ⟨attached,along,balanced⟩ := sound
  have here := onMedium_here system connection state
  have held := behaves.held_read _ _ _ taken
  refine ⟨attached_served attached served succeeds rfl rfl rfl,?_,?_⟩
  · refine along_kept along rfl (fun _ => Iff.rfl) (fun other => ?_) fun other beyond => ?_
    · by_cases same : other = connection
      · subst same
        rw [here]
        exact behaves.closed_read _ _ _ taken
      · rw [onMedium_apart system state same]
    · refine onMedium_apart system state fun same => ?_
      have bound := inside_channels proper along connection (by rw [opened]; exact Phase.noConfusion)
      rw [same] at beyond
      omega
  · refine balanced_local balanced connection rfl
      (fun other apart => ⟨onMedium_apart system state apart,rfl,counted_concat fun sd' owns => if_neg ?_⟩) ?_ ?_
      fun total reported => ?_
    · rintro rfl
      exact apart (attached.alone other connection sd owns opened)
    · rw [here]
      exact behaves.intact_read _ _ _ (balanced.intact connection) taken
    · change counted _ (system.phase connection) + medium.held ((onMedium system connection state).between connection) +
        medium.lost ((onMedium system connection state).between connection) = _
      rw [here,opened,counted,counted,received_concat,addTo,if_pos rfl,bytes]
      omega
    · rw [show system.phase connection = .reported total from reported] at opened
      cases opened

omit narrow

theorem sound_disconnected {connection : Connection clients} {sd : Int} {total : Int32} {state : μ}
    {server : Server.State} (opened : system.phase connection = .opened sd)
    (taken : medium.read (system.between connection) 0 = some state)
    (served : Server.step program masterSocket system.server (.disconnected sd total) = some server) :
    Sound medium intact channels program masterSocket plan (history ++ [.disconnected sd total])
      {enter (onMedium system connection state) connection (.reported total) with
        server
        descriptors := system.descriptors.erase sd} := by
  obtain ⟨attached,along,balanced⟩ := sound
  have other_socket := opened_other attached opened
  have lawful : Lawful (Succeeds masterSocket) (history ++ [.disconnected sd total]) :=
    (lawful_concat _ _).mpr ⟨attached.lawful,other_socket⟩
  have small : received sd history < 2^31 := by
    have sum := balanced.sum connection
    have inside := inside_channels proper along connection (by rw [opened]; exact Phase.noConfusion)
    have bound := proper.small connection.1 connection.2 inside
    rw [opened,counted] at sum
    omega
  have exact_total := (total_received lawful attached.ran served).1 small
  have here := onMedium_here system connection state
  have held := behaves.held_read _ _ _ taken
  obtain ⟨closed,none_held⟩ := behaves.read_zero _ _ (balanced.intact connection) taken
  have phase_here : (enter (onMedium system connection state) connection (.reported total)).phase connection =
      .reported total := enter_here ..
  refine ⟨attached_disconnected attached opened served rfl rfl,?_,?_⟩
  · refine along_kept along rfl (fun other => ?_) (fun other => ?_) fun other beyond => ?_
    · by_cases same : other = connection
      · subst same
        simp [enter,opened]
      · exact Eq.congr_left (enter_apart _ _ same)
    · by_cases same : other = connection
      · subst same
        change medium.closed ((onMedium system other state).between other) = _
        rw [here]
        exact behaves.closed_read _ _ _ taken
      · exact congrArg medium.closed (onMedium_apart system state same)
    · refine onMedium_apart system state fun same => ?_
      have bound := inside_channels proper along connection (by rw [opened]; exact Phase.noConfusion)
      rw [same] at beyond
      omega
  · refine balanced_local balanced connection rfl (fun other apart => ⟨onMedium_apart system state apart,
      enter_apart _ _ apart,?_⟩) ?_ ?_ fun _ _ => ?_
    · exact (congrArg _ (enter_apart _ _ apart)).trans (counted_concat fun _ _ => rfl)
    · change intact ((onMedium system connection state).between connection)
      rw [here]
      exact behaves.intact_read _ _ _ (balanced.intact connection) taken
    · change counted _ ((enter (onMedium system connection state) connection (.reported total)).phase connection) +
        medium.held ((onMedium system connection state).between connection) +
        medium.lost ((onMedium system connection state).between connection) = _
      rw [here,phase_here,opened,counted,counted,exact_total]
      omega
    · change medium.closed ((onMedium system connection state).between connection) = true ∧
        medium.held ((onMedium system connection state).between connection) = 0
      rw [here]
      exact ⟨(behaves.closed_read _ _ _ taken).trans closed,by omega⟩

end steps

section runs
variable {medium : Medium α μ ν} {admitted : α → Prop} {intact : μ → Prop} (behaves : Behaves medium admitted intact)
  (narrow : medium.limit < 2^31) {channels : Nat} {program : Server.Program} {masterSocket : Int} {plan : Fin clients → List (Command α)}
  (proper : Proper medium admitted channels plan) {acts : List (Act clients ν)} {system : System clients α μ}
include behaves narrow proper

theorem sound_step {next : System clients α μ} {act : Act clients ν}
    (sound : Sound medium intact channels program masterSocket plan (events acts) system)
    (stepped : step medium program masterSocket system act = some next) :
    Sound medium intact channels program masterSocket plan (events (acts ++ [act])) next := by
  have history : events (acts ++ [act]) = events acts ++ act.event?.toList := by
    simp only [events,List.filterMap_append,List.filterMap_cons,List.filterMap_nil]
    cases act.event? <;> rfl
  rw [history]
  cases step_transition medium program masterSocket stepped with
  | call client command rest current possible =>
    simp only [Act.event?,Option.toList_none,List.append_nil]
    have opened (connection : Connection clients) (sd : Int) :
        (called medium system client command rest).phase connection = .opened sd ↔ system.phase connection = .opened sd := by
      simp only [called]
      split
      next same =>
        subst same
        rcases enter_cases possible connection.2 with still | ⟨idle,pending⟩
        · exact Eq.congr_left still
        · rw [pending,idle]
          simp
      next => rfl
    exact ⟨attached_unserved sound.attached rfl rfl opened,along_called behaves proper sound.along current,
      balanced_called behaves proper sound.along sound.balanced current possible⟩
  | move connection motion state moved =>
    simp only [Act.event?,Option.toList_none,List.append_nil]
    exact sound_moved behaves sound moved
  | selected readfds server served =>
    obtain ⟨attached,along,balanced⟩ := sound
    refine ⟨attached_served attached served trivial rfl rfl rfl,along_kept along rfl (fun _ => Iff.rfl) (fun _ => rfl)
      fun _ _ => rfl,balanced.intact,fun connection => ?_,balanced.reported⟩
    rw [← balanced.sum connection]
    exact congrArg (fun count : Int => count + _ + _ + _) (counted_concat fun _ _ => rfl)
  | accepted connection newSocket server pending positive unused served =>
    exact sound_accepted proper sound pending positive unused served
  | read connection sd n state server opened some_bytes taken served =>
    exact sound_read behaves narrow proper sound opened some_bytes taken served
  | disconnected connection sd total state server opened taken served =>
    exact sound_disconnected behaves proper sound opened taken served

theorem sound_run (ran : run (step medium program masterSocket) (begin medium masterSocket plan) acts = some system) :
    Sound medium intact channels program masterSocket plan (events acts) system :=
  invariant (fun _ _ => True) (fun acts => Sound medium intact channels program masterSocket plan (events acts))
    ⟨attached_begin medium plan,along_begin behaves,balanced_begin behaves⟩
    (fun _ _ _ _ sound _ stepped => sound_step behaves narrow proper sound stepped) (fun _ _ _ => trivial) ran

/-- A total is reported when everything has been put in, and only what the medium lost is missing. -/
theorem reported_due (ran : run (step medium program masterSocket) (begin medium masterSocket plan) acts = some system)
    {connection : Connection clients} {total : Int32} (reported : system.phase connection = .reported total) :
    total.toInt + medium.lost (system.between connection) = due medium connection.2 (plan connection.1) := by
  obtain ⟨_,along,balanced⟩ := sound_run behaves narrow proper ran
  obtain ⟨closed,none_held⟩ := balanced.reported connection total reported
  have nothing_left := due_unsent medium fun item => unsent_behind proper along closed item
  have sum := balanced.sum connection
  rw [reported,counted,none_held,nothing_left] at sum
  omega

/-- Only a connection that its client asks for can be reported. -/
theorem reported_connects (ran : run (step medium program masterSocket) (begin medium masterSocket plan) acts = some system)
    {connection : Connection clients} {total : Int32} (reported : system.phase connection = .reported total) :
    .connect connection.2 ∈ plan connection.1 := by
  obtain ⟨_,along,_⟩ := sound_run behaves narrow proper ran
  obtain ⟨done,whole,shows⟩ := along.progress connection.1
  rw [whole]
  exact List.mem_append_left _ ((shows connection.2).1.mp (by rw [reported]; exact Phase.noConfusion))

end runs

section reports

def report? : Act clients ν → Option (Connection clients × Int32)
  | .disconnected connection _ total => some (connection,total)
  | _ => none

/-- What the server prints in the course of a run. -/
def reports (acts : List (Act clients ν)) : List (Connection clients × Int32) := acts.filterMap report?

theorem reports_concat (acts : List (Act clients ν)) (act : Act clients ν) :
    reports (acts ++ [act]) = reports acts ++ (report? act).toList := by
  rw [reports,List.filterMap_append]
  cases shape : report? act <;> simp [reports,shape]

/-- Every connection is reported once, and stays so. -/
structure Recorded (acts : List (Act clients ν)) (system : System clients α μ) : Prop where
  once : ((reports acts).map Prod.fst).Nodup
  phases : ∀ connection total, (connection,total) ∈ reports acts ↔ system.phase connection = .reported total

variable {medium : Medium α μ ν} {program : Server.Program} {masterSocket : Int} {plan : Fin clients → List (Command α)}
  {acts : List (Act clients ν)} {system next : System clients α μ}

theorem recorded_silent (recorded : Recorded acts system) {act : Act clients ν} (silent : report? act = none)
    (phases : ∀ connection total, next.phase connection = .reported total ↔ system.phase connection = .reported total) :
    Recorded (acts ++ [act]) next := by
  have same : reports (acts ++ [act]) = reports acts := by
    rw [reports_concat,silent]
    exact List.append_nil _
  refine ⟨by rw [same]; exact recorded.once,fun connection total => ?_⟩
  rw [same,recorded.phases,phases]

theorem recorded_disconnected (recorded : Recorded acts system) {connection : Connection clients} {sd : Int}
    {total : Int32} (opened : system.phase connection = .opened sd)
    (phase : next.phase = Function.update system.phase connection (.reported total)) :
    Recorded (acts ++ [.disconnected connection sd total]) next := by
  have grown : reports (acts ++ [.disconnected connection sd total]) = reports acts ++ [(connection,total)] :=
    reports_concat _ _
  have unreported (total : Int32) : (connection,total) ∉ reports acts := by
    rw [recorded.phases,opened]
    exact Phase.noConfusion
  refine ⟨?_,fun other amount => ?_⟩
  · rw [grown,List.map_append,List.nodup_append]
    refine ⟨recorded.once,List.nodup_singleton _,?_⟩
    rintro first member second here rfl
    obtain ⟨⟨_,amount⟩,reported,rfl⟩ := List.mem_map.mp member
    obtain rfl := List.mem_singleton.mp here
    exact unreported amount reported
  · rw [grown,List.mem_append,List.mem_singleton,phase]
    by_cases same : other = connection
    · subst same
      simp [unreported,eq_comm]
    · rw [Function.update_of_ne same,← recorded.phases]
      simp [same]

theorem recorded_step (recorded : Recorded acts system) {act : Act clients ν}
    (stepped : step medium program masterSocket system act = some next) : Recorded (acts ++ [act]) next := by
  cases step_transition medium program masterSocket stepped with
  | call client command rest current possible =>
    refine recorded_silent recorded rfl fun connection total => ?_
    simp only [called]
    split
    next same =>
      subst same
      rcases enter_cases possible connection.2 with still | ⟨idle,pending⟩
      · exact Eq.congr_left still
      · rw [pending,idle]
        simp
    next => exact Iff.rfl
  | accepted connection newSocket server pending positive unused served =>
    refine recorded_silent recorded rfl fun other total => ?_
    by_cases same : other = connection
    · subst same
      simp [enter,pending]
    · simp [enter,same]
  | disconnected connection sd total state server opened taken served => exact recorded_disconnected recorded opened rfl
  | _ => exact recorded_silent recorded rfl fun _ _ => Iff.rfl

theorem recorded_run (ran : run (step medium program masterSocket) (begin medium masterSocket plan) acts = some system) :
    Recorded acts system :=
  invariant (fun _ _ => True) Recorded ⟨List.nodup_nil,by simp [reports,begin]⟩
    (fun _ _ _ _ recorded _ stepped => recorded_step recorded stepped) (fun _ _ _ => trivial) ran

end reports

end ProtocolTests.ConnectionTotals
