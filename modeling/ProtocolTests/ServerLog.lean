import ProtocolTests.Library.ByteMemory
import ProtocolTests.Library.CString
import ProtocolTests.Server

/-! The lines that the servers print about their peers. The variable `address` is passed both as
the buffer of the address and as its length, so the length is stored over the family and the port. -/
namespace ProtocolTests.ServerLog
open Library.ByteMemory Library.CString Library.Run Server

def AF_INET : Nat := 2

def INADDR_ANY : Nat := 0

def SERVER_PORT : Nat := 3007

/-- An address and a port as numbers in the byte order of the machine. -/
@[ext] structure Peer where
  sinAddr : UInt32
  sinPort : UInt16
  deriving DecidableEq

/-- The family is in the order of the machine, the port and the address in that of the network. -/
def Peer.sockaddrIn (peer : Peer) : Bytes :=
  littleEndian 2 AF_INET ++ (bigEndian 2 peer.sinPort.toNat ++ (bigEndian 4 peer.sinAddr.toNat ++
    List.replicate 8 0))

/-- What a successful `accept`, `getpeername` or `recvfrom` stores. -/
def answer (memory : Memory) (address addressLen : Nat) (peer : Peer) : Memory :=
  store (store memory address peer.sockaddrIn) addressLen (littleEndian 4 16)

def setup (memory : Memory) (address : Nat) : Memory :=
  let memory := store memory address (List.replicate 16 0)
  let memory := store memory address (littleEndian 2 AF_INET)
  let memory := store memory (address + 4) (bigEndian 4 INADDR_ANY)
  store memory (address + 2) (bigEndian 2 SERVER_PORT)

/-- What `address.sin_addr` and `ntohs(address.sin_port)` give. -/
def shown (memory : Memory) (address : Nat) : Peer where
  sinAddr := UInt32.ofNat (bigValue (load memory (address + 4) 4))
  sinPort := UInt16.ofNat (bigValue (load memory (address + 2) 2))

def inetNtoa (sinAddr : UInt32) : Text :=
  ['.'].intercalate ((bigEndian 4 sinAddr.toNat).map fun byte => decimal byte.toNat)

def Peer.name (peer : Peer) : Text := inetNtoa peer.sinAddr ++ ':' :: decimal peer.sinPort.toNat

inductive Report
  | newConnection
  | read (bytesRead : Int32)
  | disconnected (total : Int32)
  deriving DecidableEq

def newConnectionText : Text := ": New connection: ".toList

def readText : Text := ": Read ".toList

def fromText : Text := "bytes from ".toList

def disconnectedText : Text := ": Disconnected: ".toList

def totalText : Text := "total ".toList

def bytesText : Text := " bytes\n".toList

def Report.line (protocol name : Text) : Report → Text
  | .newConnection => protocol ++ (newConnectionText ++ (name ++ ['\n']))
  | .read bytesRead => protocol ++ (readText ++ (decimal bytesRead.toInt ++ ' ' :: (fromText ++ (name ++ ['\n']))))
  | .disconnected total =>
    protocol ++ (disconnectedText ++ (name ++ ' ' :: (totalText ++ (decimal total.toInt ++ bytesText))))

/-- A line about a peer. Whether the call that was to store the address succeeded
is not looked at by the program in the case of `getpeername`. -/
structure Contact where
  peer : Peer
  answered : Bool
  report : Report
  deriving DecidableEq

def receive (address : Nat) (memory : Memory) (contact : Contact) : Memory :=
  if contact.answered then answer memory address address contact.peer else memory

def log (protocol : Text) (address : Nat) : Memory → List Contact → List Text
  | _, [] => []
  | memory, contact :: contacts =>
    let memory := receive address memory contact
    contact.report.line protocol (shown memory address).name :: log protocol address memory contacts

/-- The events of the loop that print a line about a connection, with the peer that `accept`
brought and with whether `getpeername` succeeded. -/
inductive Happening
  | accepted (newSocket : Int) (peer : Peer)
  | read (sd : Int) (bytesRead : Int32) (answered : Bool)
  | disconnected (sd : Int) (total : Int32) (answered : Bool)
  deriving DecidableEq

def Happening.event : Happening → Event
  | .accepted newSocket _ => .accepted newSocket
  | .read sd bytesRead _ => .read sd bytesRead
  | .disconnected sd total _ => .disconnected sd total

def prints : Event → Bool
  | .accepted _ => true
  | .read _ _ => true
  | .disconnected _ _ => true
  | _ => false

/-- The contacts when the descriptors have these peers. A descriptor without one is no connection. -/
def contactsFrom (peers : Int → Option Peer) : List Happening → List Contact
  | [] => []
  | .accepted newSocket peer :: happenings =>
    ⟨peer,true,.newConnection⟩ :: contactsFrom (Function.update peers newSocket (some peer)) happenings
  | .read sd bytesRead answered :: happenings =>
    (peers sd).toList.map (fun peer => ⟨peer,answered,.read bytesRead⟩) ++ contactsFrom peers happenings
  | .disconnected sd total answered :: happenings =>
    (peers sd).toList.map (fun peer => ⟨peer,answered,.disconnected total⟩) ++ contactsFrom peers happenings

def contacts (happenings : List Happening) : List Contact := contactsFrom (fun _ => none) happenings

def connectionLog (protocol : Text) (memory : Memory) (address : Nat) (happenings : List Happening) : List Text :=
  log protocol address (setup memory address) (contacts happenings)

namespace Tcp

def protocol : Text := "TCP".toList

def log : Memory → Nat → List Happening → List Text := connectionLog protocol

end Tcp

namespace Dccp

def protocol : Text := "DCCP".toList

def log : Memory → Nat → List Happening → List Text := connectionLog protocol

end Dccp

namespace Sctp

def protocol : Text := "SCTP".toList

def log : Memory → Nat → List Happening → List Text := connectionLog protocol

end Sctp

namespace Udp

def protocol : Text := "UDP".toList

/-- A failing `recvfrom` ends the program, so every datagram has stored its address. -/
def contacts (datagrams : List (Peer × Int32)) : List Contact :=
  datagrams.map fun datagram => ⟨datagram.1,true,.read datagram.2⟩

def log (memory : Memory) (address : Nat) (datagrams : List (Peer × Int32)) : List Text :=
  ServerLog.log protocol address (setup memory address) (contacts datagrams)

end Udp

def ownLine (protocol : Text) (contact : Contact) : Text := contact.report.line protocol contact.peer.name

/-- Every line names the peer it is about, so lines about different peers differ. -/
structure Named (protocol : Text) (contacts : List Contact) (lines : List Text) : Prop where
  own : lines = contacts.map (ownLine protocol)
  apart : ∀ (i j : Nat) (contact other : Contact), contacts[i]? = some contact → contacts[j]? = some other →
    contact.peer ≠ other.peer → lines[i]? ≠ lines[j]?

def latest (contacts : List Contact) : Option UInt32 :=
  contacts.foldl (fun last contact => if contact.answered then some contact.peer.sinAddr else last) none

/-- The peer has no port to lose, and a failed call leaves the address of the same host. -/
def Portless (past : List Contact) (contact : Contact) : Prop :=
  contact.peer.sinPort = 0 ∧ (contact.answered ∨ latest past = some contact.peer.sinAddr)

section bytes
variable (memory : Memory) (address addressLen : Nat) (peer : Peer)

theorem sockaddrIn_length : peer.sockaddrIn.length = 16 := by simp [Peer.sockaddrIn]

theorem sockaddrIn_port : (peer.sockaddrIn.drop 2).take 2 = bigEndian 2 peer.sinPort.toNat := by
  rw [Peer.sockaddrIn,List.drop_left' (littleEndian_length _ _),List.take_left' (bigEndian_length _ _)]

theorem sockaddrIn_address : (peer.sockaddrIn.drop 4).take 4 = bigEndian 4 peer.sinAddr.toNat := by
  have before : (littleEndian 2 AF_INET ++ bigEndian 2 peer.sinPort.toNat).length = 4 := by simp
  rw [Peer.sockaddrIn,← List.append_assoc,List.drop_left' before,List.take_left' (bigEndian_length _ _)]

theorem port_value (port : UInt16) : UInt16.ofNat (bigValue (bigEndian 2 port.toNat)) = port := by
  have bound : port.toNat < 256^2 := port.toNat_lt
  rw [bigValue_bigEndian,Nat.mod_eq_of_lt bound,UInt16.ofNat_toNat]

theorem address_value (sinAddr : UInt32) : UInt32.ofNat (bigValue (bigEndian 4 sinAddr.toNat)) = sinAddr := by
  have bound : sinAddr.toNat < 256^4 := sinAddr.toNat_lt
  rw [bigValue_bigEndian,Nat.mod_eq_of_lt bound,UInt32.ofNat_toNat]

theorem answer_address (apart : addressLen + 4 ≤ address + 4 ∨ address + 8 ≤ addressLen) :
    load (answer memory address addressLen peer) (address + 4) 4 = bigEndian 4 peer.sinAddr.toNat := by
  have length := littleEndian_length 4 16
  have size := sockaddrIn_length peer
  rw [answer,load_outside _ _ _ _ _ (by omega),load_inside _ _ _ _ _ (by omega),sockaddrIn_address]

/-- With the length anywhere else the peer would be read back as it is. -/
theorem shown_apart (apart : addressLen + 4 ≤ address + 2 ∨ address + 8 ≤ addressLen) :
    shown (answer memory address addressLen peer) address = peer := by
  have length := littleEndian_length 4 16
  have size := sockaddrIn_length peer
  have port : load (answer memory address addressLen peer) (address + 2) 2 = bigEndian 2 peer.sinPort.toNat := by
    rw [answer,load_outside _ _ _ _ _ (by omega),load_inside _ _ _ _ _ (by omega),sockaddrIn_port]
  rw [shown,port,answer_address _ _ _ _ (by omega),port_value,address_value]

/-- The upper half of the length, which is zero, lands on the port. -/
theorem shown_answer : shown (answer memory address address peer) address = ⟨peer.sinAddr,0⟩ := by
  have length := littleEndian_length 4 16
  have port : load (answer memory address address peer) (address + 2) 2 = [0,0] := by
    rw [answer,load_inside _ _ _ _ _ (by omega)]
    rfl
  rw [shown,port,answer_address _ _ _ _ (Or.inl (le_refl _)),address_value]
  rfl

end bytes

theorem inetNtoa_letters (sinAddr : UInt32) : ∀ c ∈ inetNtoa sinAddr, c = '.' ∨ c.isDigit := by
  intro c member
  rcases mem_intercalate member with dot | ⟨part,inside,letter⟩
  · exact Or.inl (List.mem_singleton.mp dot)
  · obtain ⟨byte,_,rfl⟩ := List.mem_map.mp inside
    exact Or.inr (decimal_natCast_digit letter)

theorem inetNtoa_injective : Function.Injective inetNtoa := by
  intro first second same
  have parts (sinAddr : UInt32) : (inetNtoa sinAddr).splitOn '.' =
      (bigEndian 4 sinAddr.toNat).map fun byte => decimal byte.toNat := by
    apply List.splitOn_intercalate
    · intro part inside dot
      obtain ⟨byte,_,rfl⟩ := List.mem_map.mp inside
      exact absurd (decimal_natCast_digit dot) (by decide)
    · exact List.ne_nil_of_length_pos (by simp)
  have printed : Function.Injective fun byte : UInt8 => decimal byte.toNat := fun left right equal =>
    UInt8.toNat_inj.mp (Int.ofNat_inj.mp (decimal_injective equal))
  have bytes : bigEndian 4 first.toNat = bigEndian 4 second.toNat :=
    List.map_injective_iff.mpr printed (by rw [← parts,same,parts])
  rw [← address_value first,bytes,address_value]

theorem name_no_space (peer : Peer) : ' ' ∉ peer.name := by
  intro member
  rcases List.mem_append.mp member with host | rest
  · rcases inetNtoa_letters _ _ host with dot | digit
    · cases dot
    · exact absurd digit (by decide)
  · rcases List.mem_cons.mp rest with colon | port
    · cases colon
    · exact absurd (decimal_natCast_digit port) (by decide)

theorem name_injective : Function.Injective Peer.name := by
  intro first second same
  have host (peer : Peer) : ':' ∉ inetNtoa peer.sinAddr := by
    intro member
    rcases inetNtoa_letters _ _ member with dot | digit
    · cases dot
    · exact absurd digit (by decide)
  obtain ⟨address,port⟩ := (joined_iff _ _ _ _ (host first) (host second)).mp same
  have value : first.sinPort = second.sinPort := UInt16.toNat_inj.mp (Int.ofNat_inj.mp (decimal_injective port))
  exact Peer.ext (inetNtoa_injective address) value

theorem decimal_no_space (value : Int) : ' ' ∉ decimal value := by
  intro member
  rcases decimal_letters member with sign | digit
  · cases sign
  · exact absurd digit (by decide)

/-- A line can be read in one way only. -/
theorem line_inj {protocol : Text} {first second : Report} {peer other : Peer}
    (same : first.line protocol peer.name = second.line protocol other.name) : first = second ∧ peer = other := by
  have heads (left right : Text) (equal : protocol ++ left = protocol ++ right) : left = right :=
    List.append_cancel_left equal
  cases first with
  | newConnection =>
    cases second with
    | newConnection =>
      have names := List.append_cancel_right (List.append_cancel_left (List.append_cancel_left same))
      exact ⟨rfl,name_injective names⟩
    | read bytesRead => cases heads _ _ same
    | disconnected total => cases heads _ _ same
  | read bytesRead =>
    cases second with
    | newConnection => cases heads _ _ same
    | read bytesRead' =>
      obtain ⟨count,rest⟩ := (joined_iff _ _ _ _ (decimal_no_space _) (decimal_no_space _)).mp
        (List.append_cancel_left (List.append_cancel_left same))
      have names := List.append_cancel_right (List.append_cancel_left rest)
      exact ⟨by rw [Int32.toInt_inj.mp (decimal_injective count)],name_injective names⟩
    | disconnected total => cases heads _ _ same
  | disconnected total =>
    cases second with
    | newConnection => cases heads _ _ same
    | read bytesRead => cases heads _ _ same
    | disconnected total' =>
      obtain ⟨names,rest⟩ := (joined_iff _ _ _ _ (name_no_space _) (name_no_space _)).mp
        (List.append_cancel_left (List.append_cancel_left same))
      have count := List.append_cancel_right (List.append_cancel_left rest)
      exact ⟨by rw [Int32.toInt_inj.mp (decimal_injective count)],name_injective names⟩

section runs
variable (protocol : Text) (memory : Memory) (address : Nat)

@[simp] theorem log_length (contacts : List Contact) : (log protocol address memory contacts).length = contacts.length := by
  induction contacts generalizing memory with
  | nil => rfl
  | cons contact contacts ih => rw [log,List.length_cons,List.length_cons,ih]

theorem log_concat (contacts : List Contact) (contact : Contact) :
    log protocol address memory (contacts ++ [contact]) = log protocol address memory contacts ++
      [contact.report.line protocol
        (shown ((contacts ++ [contact]).foldl (receive address) memory) address).name] := by
  induction contacts generalizing memory with
  | nil => rfl
  | cons first contacts ih =>
    rw [List.cons_append,log,ih]
    rfl

@[simp] theorem latest_concat (past : List Contact) (contact : Contact) :
    latest (past ++ [contact]) = if contact.answered then some contact.peer.sinAddr else latest past :=
  List.foldl_concat ..

theorem shown_latest (contacts : List Contact) (sinAddr : UInt32) (stored : latest contacts = some sinAddr) :
    shown (contacts.foldl (receive address) memory) address = ⟨sinAddr,0⟩ := by
  induction contacts using List.reverseRecOn with
  | nil => cases stored
  | append_singleton past contact ih =>
    rw [latest_concat] at stored
    rw [List.foldl_concat,receive]
    split at stored
    next answered =>
      obtain rfl := Option.some.inj stored
      rw [if_pos answered,shown_answer]
    next failed =>
      rw [if_neg failed,ih stored]

theorem latest_started (contacts : List Contact) (nonempty : contacts ≠ [])
    (started : ∀ contact ∈ contacts.head?, contact.answered = true) : ∃ sinAddr, latest contacts = some sinAddr := by
  induction contacts using List.reverseRecOn with
  | nil => exact absurd rfl nonempty
  | append_singleton past contact ih =>
    rw [latest_concat]
    cases past with
    | nil =>
      have answered := started contact (by simp)
      exact ⟨_,if_pos answered⟩
    | cons first past =>
      obtain ⟨sinAddr,stored⟩ := ih (by simp) (by simpa using started)
      split
      · exact ⟨_,rfl⟩
      · exact ⟨sinAddr,stored⟩

theorem own_iff (contacts : List Contact) (started : ∀ contact ∈ contacts.head?, contact.answered = true) :
    log protocol address memory contacts = contacts.map (ownLine protocol) ↔ Lawful Portless contacts := by
  induction contacts using List.reverseRecOn with
  | nil => exact ⟨fun _ => lawful_nil,fun _ => rfl⟩
  | append_singleton past contact ih =>
    obtain ⟨sinAddr,stored⟩ := latest_started (past ++ [contact]) (by simp) started
    have before : ∀ contact ∈ past.head?, contact.answered = true := by
      intro first head
      exact started first (by rw [List.head?_append,Option.mem_def.mp head]; rfl)
    have last : Portless past contact ↔ contact.peer = ⟨sinAddr,0⟩ := by
      rw [latest_concat] at stored
      rw [Portless,Peer.ext_iff,and_comm]
      split at stored
      next answered => simp [answered,Option.some.inj stored]
      next failed => simp [failed,stored,eq_comm]
    rw [log_concat,List.map_append,lawful_concat,← ih before,last,shown_latest _ _ _ _ stored]
    constructor
    · intro same
      obtain ⟨front,line⟩ := List.append_inj same (by simp)
      exact ⟨front,(line_inj (List.singleton_inj.mp line)).2.symm⟩
    · rintro ⟨front,peer⟩
      rw [front,List.map_singleton,ownLine,peer]

theorem named_lawful (contacts : List Contact) (started : ∀ contact ∈ contacts.head?, contact.answered = true) :
    Named protocol contacts (log protocol address memory contacts) ↔ Lawful Portless contacts := by
  constructor
  · intro named
    exact (own_iff protocol memory address contacts started).mp named.own
  · intro lawful
    have own := (own_iff protocol memory address contacts started).mpr lawful
    refine ⟨own,?_⟩
    intro i j contact other here there different same
    rw [own,List.getElem?_map,List.getElem?_map,here,there] at same
    exact different (line_inj (Option.some.inj same)).2

end runs

theorem contacts_started (happenings : List Happening) :
    ∀ contact ∈ (contacts happenings).head?, contact.answered = true := by
  induction happenings with
  | nil => simp [contacts,contactsFrom]
  | cons happening happenings ih =>
    cases happening with
    | accepted newSocket peer => simp [contacts,contactsFrom]
    | read sd bytesRead answered => exact ih
    | disconnected sd total answered => exact ih

theorem portless_answered (contacts : List Contact) (answered : ∀ contact ∈ contacts, contact.answered = true) :
    Lawful Portless contacts ↔ ∀ contact ∈ contacts, contact.peer.sinPort = 0 := by
  induction contacts using List.reverseRecOn with
  | nil => exact ⟨fun _ _ absent => absurd absent List.not_mem_nil,fun _ => lawful_nil⟩
  | append_singleton past contact ih =>
    have last := answered contact (by simp)
    rw [lawful_concat,ih fun other member => answered other (List.mem_append_left _ member)]
    simp [Portless,last,or_imp,forall_and]

theorem udp_answered (datagrams : List (Peer × Int32)) :
    ∀ contact ∈ Udp.contacts datagrams, contact.answered = true :=
  List.forall_mem_map.mpr fun _ _ => rfl

theorem udp_portless (datagrams : List (Peer × Int32)) :
    Lawful Portless (Udp.contacts datagrams) ↔ ∀ datagram ∈ datagrams, datagram.1.sinPort = 0 := by
  rw [portless_answered _ (udp_answered datagrams)]
  exact List.forall_mem_map

theorem named_iff (memory : Memory) (address : Nat) (happenings : List Happening) (datagrams : List (Peer × Int32)) :
    (Named Tcp.protocol (contacts happenings) (Tcp.log memory address happenings) ↔
      Lawful Portless (contacts happenings)) ∧
    (Named Dccp.protocol (contacts happenings) (Dccp.log memory address happenings) ↔
      Lawful Portless (contacts happenings)) ∧
    (Named Sctp.protocol (contacts happenings) (Sctp.log memory address happenings) ↔
      Lawful Portless (contacts happenings)) ∧
    (Named Udp.protocol (Udp.contacts datagrams) (Udp.log memory address datagrams) ↔
      ∀ datagram ∈ datagrams, datagram.1.sinPort = 0) := by
  have started := contacts_started happenings
  have datagrams_started : ∀ contact ∈ (Udp.contacts datagrams).head?, contact.answered = true :=
    fun contact head => udp_answered datagrams contact (List.mem_of_head? head)
  rw [← udp_portless]
  exact ⟨named_lawful _ _ _ _ started,named_lawful _ _ _ _ started,named_lawful _ _ _ _ started,
    named_lawful _ _ _ _ datagrams_started⟩

def visitor : Peer := ⟨0x0A000001,49153⟩

def neighbour : Peer := ⟨0x0A000001,49154⟩

def visits : List Happening :=
  [.accepted 4 visitor,.read 4 10 true,.disconnected 4 10 true,
    .accepted 4 neighbour,.read 4 10 true,.disconnected 4 10 true]

/-- Two clients of one host come one after the other. -/
theorem visits_alike :
    run (step Server.Tcp.main 3) start (visit ++ visit) = some start ∧
      (visit ++ visit).filter prints = visits.map Happening.event ∧
      (Tcp.log (fun _ => 0) 0 visits)[0]? = (Tcp.log (fun _ => 0) 0 visits)[3]? ∧
      ¬Named Tcp.protocol (contacts visits) (Tcp.log (fun _ => 0) 0 visits) := by
  have alike : (Tcp.log (fun _ => 0) 0 visits)[0]? = (Tcp.log (fun _ => 0) 0 visits)[3]? := by decide
  refine ⟨?_,by decide,alike,fun named => ?_⟩
  · rw [run_append,visit_run,Option.bind_some,visit_run]
  · exact named.apart 0 3 ⟨visitor,true,.newConnection⟩ ⟨neighbour,true,.newConnection⟩ rfl rfl (by decide) alike

end ProtocolTests.ServerLog
