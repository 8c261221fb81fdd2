import ProtocolTests.Library.FileStore
import ProtocolTests.Simulator
import ProtocolTests.SummaryColumns

/-! The main program of the simulator: a sweep over the amount of data. Every pass simulates
each protocol once, adds a row to its summary file and clears what the pass has left. -/
namespace ProtocolTests.Campaign
open Library.CString Library.Fields Library.FileStore GraphColumns Simulator SummaryColumns

inductive Protocol
  | SCTP
  | TCP
  | UDP
  | DCCP
  deriving DecidableEq

def getNameForProtocol : Protocol → Text
  | .SCTP => "sctp".toList
  | .TCP => "tcp".toList
  | .UDP => "udp".toList
  | .DCCP => "dccp".toList

def getClientForProtocol : Protocol → Text
  | .SCTP => "dce-client-sctp".toList
  | .TCP => "dce-client-tcp".toList
  | .UDP => "dce-client-udp".toList
  | .DCCP => "dce-client-dccp".toList

def getServerForProtocol : Protocol → Text
  | .SCTP => "dce-server-sctp".toList
  | .TCP => "dce-server-tcp".toList
  | .UDP => "dce-server-udp".toList
  | .DCCP => "dce-server-dccp".toList

/-- A program that is installed on a node, with the time of its start. -/
structure Program where
  node : Nat
  binary : Text
  arguments : List Text
  milliseconds : Nat

/-- The three calls of `RunIp` for a node. -/
def statistics (n : Nat) : List Program :=
  [⟨n,"ip".toList,["link".toList,"show".toList],200⟩,
    ⟨n,"ip".toList,["route".toList,"show".toList,"table".toList,"all".toList],300⟩,
    ⟨n,"ip".toList,["addr".toList,"list".toList],400⟩]

def numberOfNodes (settings : SimSettings) : Nat := (settings.numberOfClients + 1).toInt.toNat

def clientPrograms (protocol : Protocol) (settings : SimSettings) : List Program :=
  (List.range' 1 (numberOfNodes settings - 1)).map fun i =>
    ⟨i,getClientForProtocol protocol,clientArguments settings,4500⟩

def programs (protocol : Protocol) (settings : SimSettings) : List Program :=
  (List.range (numberOfNodes settings)).flatMap statistics ++
    (⟨0,getServerForProtocol protocol,[],4000⟩ :: clientPrograms protocol settings)

def outputName : Text := "my-simulator-output".toList

def outputDir : Text := outputName ++ "/".toList

def traceDir : Text := "files-".toList

def pcapEnd : Text := ".pcap".toList

def textEnd : Text := ".txt".toList

def parseEnd : Text := "-parse.txt".toList

def netanimEnd : Text := "netanim.xml".toList

def outputFilename (protocol : Protocol) (settings : SimSettings) (simId : Int) : Text :=
  outputDir ++ (getNameForProtocol protocol ++ ("-data-".toList ++ (decimal settings.transferDataBytes.toInt ++
    ("-sim-".toList ++ (decimal simId ++ "-node".toList)))))

def captureName (outputFilename : Text) (node device : Nat) : Text :=
  outputFilename ++ ('-' :: decimal node ++ ('-' :: decimal device ++ pcapEnd))

def serverPcap (outputFilename : Text) : Text := outputFilename ++ "-0-0".toList

def simtotal (protocol : Protocol) : Text :=
  outputDir ++ getNameForProtocol protocol ++ "_simtotal".toList

def datEnd : Text := ".dat".toList

/-- The files that the main program removes, each kind under a flag of its own. -/
structure Removal where
  outputDir : Bool
  dceFileSystem : Bool
  pcapFiles : Bool
  parseFiles : Bool
  netanimFiles : Bool

/-- The commands behind the four simulations of a pass. -/
def Removal.clean (removal : Removal) (files : Files) : Files :=
  let files := if removal.dceFileSystem then files.removeFront traceDir else files
  let files := if removal.pcapFiles then files.removeFiles (glob Campaign.outputDir pcapEnd) else files
  let files := if removal.parseFiles then files.removeFiles (glob Campaign.outputDir textEnd) else files
  if removal.netanimFiles then files.removeFiles (glob Campaign.outputDir netanimEnd) else files

section simulator
-- What tshark prints about what it finds at a path.
variable (tshark : Option Entry → Text) (special : Column → Text)

/-- The output of tshark is lost if its file cannot be opened. A source that cannot be opened is an
exit; the row is added to the summary otherwise. -/
def startDataParser (protocol : Text) (numClients dataBytesPerClient numberOfStreamsPerClient : Int32)
    (sourceFile summaryTargetFile : Text) (files : Files) : Option Files := do
  let files := files.write (sourceFile ++ textEnd) (tshark (files.entry (sourceFile ++ pcapEnd)))
  let parser := Parser.startDataParser protocol numClients dataBytesPerClient numberOfStreamsPerClient
  let reader ← files.read (sourceFile ++ textEnd)
  let files := files.remove (sourceFile ++ parseEnd)
  let parser := parser.packetExtractor (getlines reader)
  return files.append (summaryTargetFile ++ datEnd) (rowText special parser ++ ['\n'])

-- What ns-3 and DCE make of the files in a run, for its nodes, the programs on them and the front of
-- its file names, and the time at which each run takes its number.
variable (network : Nat → Nat → List Program → Text → Files → Option Files) (clock : Nat → Int)

def runSimulation (run : Nat) (protocol : Protocol) (settings : SimSettings) (files : Files) : Option Files := do
  let outputFilename := outputFilename protocol settings (clock run)
  let files ← network run (numberOfNodes settings) (programs protocol settings) outputFilename files
  startDataParser tshark special (getNameForProtocol protocol) settings.numberOfClients
    (settings.transferDataBytes * settings.numCycles) settings.numSocketsStreams (serverPcap outputFilename)
    (simtotal protocol) files

/-- The body of the loop over the amounts of data. -/
def pass (removal : Removal) (run : Nat) (settings : SimSettings) (files : Files) : Option Files := do
  let files ← runSimulation tshark special network clock run .DCCP settings files
  let files ← runSimulation tshark special network clock (run+1) .UDP settings files
  let files ← runSimulation tshark special network clock (run+2) .TCP settings files
  let files ← runSimulation tshark special network clock (run+3) .SCTP settings files
  return removal.clean files

/-- `for (*var = min; *var <= max; *var += inc)` from a value of the variable on. Without a result
a simulation has exited, or there was not enough fuel. -/
def sweep (removal : Removal) (settings : SimSettings) (inc max : Int32) :
    Nat → Nat → Int32 → Files → Option Files
  | 0, _, _, _ => none
  | fuel+1, run, var, files =>
    if var ≤ max then do
      let files ← pass tshark special network clock removal run {settings with transferDataBytes := var} files
      sweep removal settings inc max fuel (run+4) (var+inc) files
    else some files

def main (removal : Removal) (fuel : Nat) (files : Files) : Option Files :=
  let files := if removal.outputDir then (files.removeDirectory outputName).mkdir outputName else files
  sweep tshark special network clock removal orderedSettings (1048576 * 5) (1048576 * 100) fuel 0 (1048576 * 1) files

end simulator

/-- What a pass may leave behind apart from the summary files. -/
def disposable (path : Text) : Bool :=
  traceDir.isPrefixOf path || glob outputDir pcapEnd path || glob outputDir textEnd path ||
    glob outputDir netanimEnd path

def Removal.cleared (removal : Removal) (path : Text) : Bool :=
  removal.dceFileSystem && traceDir.isPrefixOf path || removal.pcapFiles && glob Campaign.outputDir pcapEnd path ||
    removal.parseFiles && glob Campaign.outputDir textEnd path ||
    removal.netanimFiles && glob Campaign.outputDir netanimEnd path

theorem cleared_disposable (removal : Removal) {path : Text} (cleared : removal.cleared path = true) :
    disposable path = true := by
  unfold Removal.cleared at cleared
  unfold disposable
  grind

def summaryName (protocol : Protocol) : Text := simtotal protocol ++ datEnd

theorem summaryName_injective : Function.Injective summaryName := by
  intro p q same
  cases p <;> cases q <;> first | rfl | exact absurd same (by decide)

theorem summaryName_kept (protocol : Protocol) : disposable (summaryName protocol) = false := by
  cases protocol <;> decide

theorem name_plain (protocol : Protocol) : '/' ∉ getNameForProtocol protocol ∧
    ∃ c rest, getNameForProtocol protocol = c :: rest ∧ c ≠ '.' := by
  cases protocol <;> exact ⟨by decide,_,_,rfl,by decide⟩

theorem decimal_plain (value : Int) : '/' ∉ decimal value := by
  intro member
  rcases decimal_letters member with sign | digit
  · exact absurd sign (by decide)
  · exact absurd digit (by decide)

/-- The patterns of the main program find every file whose name starts as those of a run do. -/
theorem glob_output (protocol : Protocol) (settings : SimSettings) (simId : Int) {rest back : Text}
    (whole : '/' ∉ rest) : glob outputDir back (outputFilename protocol settings simId ++ (rest ++ back)) = true := by
  obtain ⟨plain,c,tail,shape,shown⟩ := name_plain protocol
  have split : outputFilename protocol settings simId ++ (rest ++ back) = outputDir ++
      ((getNameForProtocol protocol ++ ("-data-".toList ++ (decimal settings.transferDataBytes.toInt ++
        ("-sim-".toList ++ (decimal simId ++ ("-node".toList ++ rest)))))) ++ back) := by
    simp only [outputFilename,List.append_assoc]
  rw [split]
  refine glob_match ?_ ?_
  · simp only [List.mem_append,not_or]
    exact ⟨plain,by decide,decimal_plain _,by decide,decimal_plain _,by decide,whole⟩
  · rintro ⟨_,dot⟩
    rw [shape] at dot
    exact shown (Option.some.inj dot)

/-- The paths of a run of the network: the captures of its devices, the animation, and the file
systems of the nodes. -/
def Own (outputFilename path : Text) : Prop :=
  traceDir <+: path ∨ (∃ node device : Nat, path = captureName outputFilename node device) ∨
    path = outputFilename ++ ('-' :: netanimEnd)

/-- The network can open its files, and no file is in the way of the directories of its nodes. -/
structure Room (outputFilename : Text) (files : Files) : Prop where
  opens : ∀ path, Own outputFilename path → ¬traceDir <+: path → files.Writable path
  nodes : ∀ path, traceDir <+: path → files.refused path = false ∧ ('/' ∉ path → files.isFile path = false)

/-- What the program relies on: a run that has room comes to its end with the packets of the
server's device in a capture, and no run writes anywhere but at its own paths. -/
structure Simulates (network : Nat → Nat → List Program → Text → Files → Option Files)
    (captures : Nat → List Program → Text) : Prop where
  ends : ∀ run nodes programs outputFilename files, outputDir <+: outputFilename → Room outputFilename files →
    (network run nodes programs outputFilename files).isSome
  server : ∀ {run nodes programs outputFilename files after}, outputDir <+: outputFilename →
    network run nodes programs outputFilename files = some after → 0 < nodes → Room outputFilename files →
    after.entry (captureName outputFilename 0 0) = some (.file (captures run programs))
  nodes : ∀ {run nodes programs outputFilename files after}, outputDir <+: outputFilename →
    network run nodes programs outputFilename files = some after → Room outputFilename files →
    ∀ path, traceDir <+: path → '/' ∉ path → after.isFile path = false
  elsewhere : ∀ {run nodes programs outputFilename files after}, outputDir <+: outputFilename →
    network run nodes programs outputFilename files = some after →
    after.refused = files.refused ∧ ∀ path, ¬Own outputFilename path → after.entry path = files.entry path
  directories : ∀ {run nodes programs outputFilename files after}, outputDir <+: outputFilename →
    network run nodes programs outputFilename files = some after →
    ∀ path, ¬traceDir <+: path → after.entry path = some .directory → files.entry path = some .directory

/-- The output directory is there, with files in it that may be written. -/
structure Ready (files : Files) : Prop where
  output : files.entry outputName = some .directory
  plain : ∀ path, outputDir <+: path → files.entry path ≠ some .directory
  nodes : ∀ path, traceDir <+: path → '/' ∉ path → files.isFile path = false
  allowed : ∀ path, outputDir <+: path ∨ traceDir <+: path → files.refused path = false

theorem disposable_of_glob {back path : Text} (kind : back = pcapEnd ∨ back = textEnd ∨ back = netanimEnd)
    (found : glob outputDir back path = true) : disposable path = true := by
  unfold disposable
  rcases kind with rfl | rfl | rfl <;> simp [found]

section run
variable (protocol : Protocol) (settings : SimSettings) (simId : Int)

/-- The name of a file of a run within the output directory. -/
theorem output_name : ∃ name, outputFilename protocol settings simId = outputName ++ '/' :: name ∧ '/' ∉ name := by
  obtain ⟨plain,_⟩ := name_plain protocol
  refine ⟨getNameForProtocol protocol ++ ("-data-".toList ++ (decimal settings.transferDataBytes.toInt ++
    ("-sim-".toList ++ (decimal simId ++ "-node".toList)))),List.append_assoc outputName ['/'] _,?_⟩
  simp only [List.mem_append,not_or]
  exact ⟨plain,by decide,decimal_plain _,by decide,decimal_plain _,by decide⟩

theorem capture_plain (node device : Nat) : '/' ∉ '-' :: decimal node ++ ('-' :: decimal device ++ pcapEnd) := by
  simp only [List.cons_append,List.mem_cons,List.mem_append,not_or]
  exact ⟨by decide,decimal_plain _,by decide,decimal_plain _,by decide⟩

theorem own_disposable {path : Text} (own : Own (outputFilename protocol settings simId) path) : disposable path = true := by
  rcases own with traces | ⟨node,device,rfl⟩ | rfl
  · simp [disposable,List.isPrefixOf_iff_prefix.mpr traces]
  · refine disposable_of_glob (.inl rfl) ?_
    have whole : '/' ∉ '-' :: decimal node ++ ('-' :: decimal device) := by
      have plain := capture_plain node device
      simp only [List.cons_append,List.mem_cons,List.mem_append,not_or] at plain ⊢
      exact ⟨plain.1,plain.2.1,plain.2.2.1,plain.2.2.2.1⟩
    have split : captureName (outputFilename protocol settings simId) node device =
        outputFilename protocol settings simId ++ (('-' :: decimal node ++ ('-' :: decimal device)) ++ pcapEnd) := by
      simp only [captureName,List.append_assoc]
    rw [split]
    exact glob_output protocol settings simId whole
  · have whole : '/' ∉ ['-'] := by decide
    exact disposable_of_glob (.inr (.inr rfl)) (glob_output protocol settings simId whole)

theorem text_disposable : disposable (serverPcap (outputFilename protocol settings simId) ++ textEnd) = true := by
  refine disposable_of_glob (.inr (.inl rfl)) ?_
  rw [serverPcap,List.append_assoc]
  exact glob_output protocol settings simId (by decide)

theorem parse_disposable : disposable (serverPcap (outputFilename protocol settings simId) ++ parseEnd) = true := by
  refine disposable_of_glob (.inr (.inl rfl)) ?_
  have split : serverPcap (outputFilename protocol settings simId) ++ parseEnd =
      outputFilename protocol settings simId ++ ("-0-0-parse".toList ++ textEnd) := by
    rw [serverPcap,List.append_assoc]
    rfl
  rw [split]
  exact glob_output protocol settings simId (by decide)

theorem outputFilename_front : outputDir <+: outputFilename protocol settings simId := List.prefix_append _ _

theorem inside_output (rest : Text) : outputDir <+: outputFilename protocol settings simId ++ rest := by
  rw [outputFilename,List.append_assoc]
  exact List.prefix_append _ _

end run

theorem serverPcap_capture (outputFilename : Text) :
    serverPcap outputFilename ++ pcapEnd = captureName outputFilename 0 0 := by
  rw [serverPcap,List.append_assoc]
  rfl

theorem outputName_kept : disposable outputName = false := by decide

theorem traceDir_apart {path : Text} (inside : outputDir <+: path) : ¬traceDir <+: path := by
  rintro ⟨rest,same⟩
  obtain ⟨other,rfl⟩ := inside
  cases (List.cons.inj same).1

theorem summaryName_place (protocol : Protocol) : outputDir <+: summaryName protocol := by
  rw [summaryName,simtotal,List.append_assoc,List.append_assoc]
  exact List.prefix_append _ _

section ready
variable {files after : Files}

/-- A file in the output directory can be written. -/
theorem Ready.writable (ready : Ready files) {name : Text} (plain : '/' ∉ name) :
    files.Writable (outputName ++ '/' :: name) := by
  have inside : outputDir <+: outputName ++ '/' :: name := ⟨name,List.append_assoc outputName ['/'] name⟩
  exact ⟨ready.allowed _ (.inl inside),ready.plain _ inside,files.placed_inside (by decide) plain ready.output⟩

theorem Ready.run (ready : Ready files) (protocol : Protocol) (settings : SimSettings) (simId : Int) {rest : Text}
    (plain : '/' ∉ rest) : files.Writable (outputFilename protocol settings simId ++ rest) := by
  obtain ⟨name,shape,whole⟩ := output_name protocol settings simId
  rw [shape,List.append_assoc,List.cons_append]
  exact ready.writable (by simp [whole,plain])

theorem Ready.summary (ready : Ready files) (protocol : Protocol) : files.Writable (summaryName protocol) := by
  have shape : summaryName protocol = outputName ++ '/' :: (getNameForProtocol protocol ++ ("_simtotal".toList ++ datEnd)) := by
    rw [summaryName,simtotal,outputDir]
    simp only [List.append_assoc]
    rfl
  obtain ⟨plain,_⟩ := name_plain protocol
  rw [shape]
  refine ready.writable ?_
  simp only [List.mem_append,not_or]
  exact ⟨plain,by decide,by decide⟩

theorem Ready.room (ready : Ready files) (protocol : Protocol) (settings : SimSettings) (simId : Int) :
    Room (outputFilename protocol settings simId) files where
  opens := by
    rintro path (traces | ⟨node,device,rfl⟩ | rfl) apart
    · exact absurd traces apart
    · exact ready.run protocol settings simId (capture_plain node device)
    · exact ready.run protocol settings simId (by decide)
  nodes path traces := ⟨ready.allowed path (.inr traces),ready.nodes path traces⟩

theorem Ready.write (ready : Ready files) {path : Text} (inside : outputDir <+: path) (text : Text) :
    Ready (files.write path text) where
  output := by
    refine (files.write_other ?_ text).trans ready.output
    rintro rfl
    exact absurd inside (by decide)
  plain other below directory := ready.plain other below (files.write_directory directory)
  nodes other traces top := by
    have apart : other ≠ path := by
      rintro rfl
      exact traceDir_apart inside traces
    rw [Files.isFile,files.write_other apart]
    exact ready.nodes other traces top
  allowed other place := by
    rw [files.write_refused]
    exact ready.allowed other place

theorem Ready.append (ready : Ready files) {path : Text} (inside : outputDir <+: path) (text : Text) :
    Ready (files.append path text) := ready.write inside _

/-- A row makes the same of files that agree on what is to be kept. -/
theorem Ready.append_kept (ready : Ready files) (readyAfter : Ready after)
    (same : ∀ path, disposable path = false → after.entry path = files.entry path) (protocol : Protocol) (text : Text)
    {path : Text} (kept : disposable path = false) :
    (after.append (summaryName protocol) text).entry path = (files.append (summaryName protocol) text).entry path := by
  by_cases here : path = summaryName protocol
  · subst here
    rw [files.append_same (ready.summary protocol),after.append_same (readyAfter.summary protocol),
      Files.contents_congr (same _ kept)]
  · rw [files.append_other here,after.append_other here,same path kept]

theorem Ready.shrinks (ready : Ready files) (shrinks : Files.Shrinks files after)
    (output : after.entry outputName = files.entry outputName) : Ready after where
  output := output.trans ready.output
  plain path inside directory := ready.plain path inside (shrinks.entry directory)
  nodes path traces top := by
    have before := ready.nodes path traces top
    rcases shrinks.2 path with gone | same
    · rw [Files.isFile,gone]
    · rwa [Files.isFile,same]
  allowed path place := by
    rw [shrinks.1]
    exact ready.allowed path place

theorem Ready.network {network : Nat → Nat → List Program → Text → Files → Option Files}
    {captures : Nat → List Program → Text} (simulates : Simulates network captures) (ready : Ready files) {run : Nat}
    {protocol : Protocol} {settings : SimSettings} {simId : Int}
    (made : network run (numberOfNodes settings) (programs protocol settings) (outputFilename protocol settings simId) files =
      some after) : Ready after where
  output := by
    rw [(simulates.elsewhere (outputFilename_front protocol settings simId) made).2 outputName,ready.output]
    intro own
    have cleared := own_disposable protocol settings simId own
    rw [outputName_kept] at cleared
    cases cleared
  plain path inside directory := by
    have front := outputFilename_front protocol settings simId
    exact ready.plain path inside (simulates.directories front made path (traceDir_apart inside) directory)
  nodes := simulates.nodes (outputFilename_front protocol settings simId) made (ready.room protocol settings simId)
  allowed path place := by
    rw [(simulates.elsewhere (outputFilename_front protocol settings simId) made).1]
    exact ready.allowed path place

end ready

section clean
variable {removal : Removal} {files : Files} {path : Text}

/-- One of the commands, under its flag. -/
theorem optional_shrinks (flag : Bool) {after : Files} (shrinks : Files.Shrinks files after) :
    Files.Shrinks files (if flag then after else files) := by
  cases flag
  · exact .refl files
  · exact shrinks

theorem optional_spared {flag chosen : Bool} (spared : (flag && chosen) = false) {after : Files}
    (same : chosen = false → after.entry path = files.entry path) :
    (if flag then after else files).entry path = files.entry path := by
  cases flag
  · rfl
  · exact same spared

theorem optional_removes {flag chosen : Bool} (cleared : (flag && chosen) = true) {after : Files}
    (gone : chosen = true → after.entry path = none) : (if flag then after else files).entry path = none := by
  obtain ⟨rfl,here⟩ := (Bool.and_eq_true _ _).mp cleared
  exact gone here

theorem clean_shrinks : Files.Shrinks files (removal.clean files) := by
  have traces := optional_shrinks removal.dceFileSystem (files.removeFront_shrinks traceDir)
  have pcaps := traces.trans
    (optional_shrinks removal.pcapFiles (Files.removeFiles_shrinks _ (glob outputDir pcapEnd)))
  have texts := pcaps.trans
    (optional_shrinks removal.parseFiles (Files.removeFiles_shrinks _ (glob outputDir textEnd)))
  exact texts.trans (optional_shrinks removal.netanimFiles (Files.removeFiles_shrinks _ (glob outputDir netanimEnd)))

theorem clean_spared (spared : removal.cleared path = false) : (removal.clean files).entry path = files.entry path := by
  simp only [Removal.cleared,Bool.or_eq_false_iff] at spared
  obtain ⟨⟨⟨traces,pcap⟩,text⟩,netanim⟩ := spared
  unfold Removal.clean
  rw [optional_spared netanim (Files.removeFiles_spared _),optional_spared text (Files.removeFiles_spared _),
    optional_spared pcap (Files.removeFiles_spared _),optional_spared traces]
  intro apart
  exact files.removeFront_spared fun prefixed => by
    rw [List.isPrefixOf_iff_prefix.mpr prefixed] at apart
    cases apart

theorem clean_removes (ready : Ready files) (cleared : removal.cleared path = true) :
    (removal.clean files).entry path = none := by
  have plain {after : Files} (shrinks : Files.Shrinks files after) {back : Text} (matched : glob outputDir back path = true) :
      after.entry path ≠ some .directory := fun directory => ready.plain path (glob_front matched) (shrinks.entry directory)
  simp only [Removal.cleared,Bool.or_eq_true] at cleared
  unfold Removal.clean
  dsimp only
  have traces := optional_shrinks removal.dceFileSystem (files.removeFront_shrinks traceDir)
  have traced (here : (removal.dceFileSystem && traceDir.isPrefixOf path) = true) := @optional_removes files path _ _ here _
    fun prefixed => files.removeFront_chosen (List.isPrefixOf_iff_prefix.mp prefixed)
  generalize (if removal.dceFileSystem then files.removeFront traceDir else files) = first at traces traced ⊢
  have pcaps := optional_shrinks removal.pcapFiles (first.removeFiles_shrinks (glob outputDir pcapEnd))
  have captured (here : (removal.pcapFiles && glob outputDir pcapEnd path) = true) := @optional_removes first path _ _ here _
    fun matched => first.removeFiles_chosen matched (plain traces matched)
  generalize (if removal.pcapFiles then first.removeFiles (glob outputDir pcapEnd) else first) = second at pcaps captured ⊢
  have texts := optional_shrinks removal.parseFiles (second.removeFiles_shrinks (glob outputDir textEnd))
  have written (here : (removal.parseFiles && glob outputDir textEnd path) = true) := @optional_removes second path _ _ here _
    fun matched => second.removeFiles_chosen matched (plain (traces.trans pcaps) matched)
  generalize (if removal.parseFiles then second.removeFiles (glob outputDir textEnd) else second) = third at texts written ⊢
  have last := optional_shrinks removal.netanimFiles (third.removeFiles_shrinks (glob outputDir netanimEnd))
  rcases cleared with ((here | here) | here) | here
  · exact last.gone (texts.gone (pcaps.gone (traced here)))
  · exact last.gone (texts.gone (captured here))
  · exact last.gone (written here)
  · exact optional_removes here fun matched => third.removeFiles_chosen matched (plain ((traces.trans pcaps).trans texts) matched)

theorem clean_kept (kept : disposable path = false) : (removal.clean files).entry path = files.entry path := by
  refine clean_spared ?_
  by_contra cleared
  rw [cleared_disposable removal (by simpa using cleared)] at kept
  cases kept

theorem Ready.clean (ready : Ready files) (removal : Removal) : Ready (removal.clean files) :=
  ready.shrinks clean_shrinks (clean_kept outputName_kept)

end clean

def silentNode (outputFilename : Text) (files : Files) (node : Nat) : Files :=
  (files.write (captureName outputFilename node 0) []).mkdir (traceDir ++ decimal node)

/-- A network in which nothing is sent: captures without a packet, empty file systems of the
nodes, and an animation. -/
def silent : Nat → Nat → List Program → Text → Files → Option Files := fun _ nodes _ outputFilename files =>
  some (((List.range nodes).foldl (silentNode outputFilename) files).write (outputFilename ++ ('-' :: netanimEnd)) [])

/-- What no step of a run does to the files. -/
structure Respects (outputFilename : Text) (files after : Files) : Prop where
  refused : after.refused = files.refused
  elsewhere : ∀ path, ¬Own outputFilename path → after.entry path = files.entry path
  directories : ∀ path, ¬traceDir <+: path → after.entry path = some .directory → files.entry path = some .directory
  nodes : ∀ path, traceDir <+: path → files.isFile path = false → after.isFile path = false
  empty : ∀ path, files.entry path = some (.file []) → after.entry path = some (.file [])

section silent
variable {outputFilename : Text} {files middle after : Files}

theorem Respects.refl : Respects outputFilename files files :=
  ⟨rfl,fun _ _ => rfl,fun _ _ here => here,fun _ _ here => here,fun _ here => here⟩

theorem Respects.trans (first : Respects outputFilename files middle) (second : Respects outputFilename middle after) :
    Respects outputFilename files after where
  refused := second.refused.trans first.refused
  elsewhere path apart := (second.elsewhere path apart).trans (first.elsewhere path apart)
  directories path apart here := first.directories path apart (second.directories path apart here)
  nodes path traces here := second.nodes path traces (first.nodes path traces here)
  empty path here := second.empty path (first.empty path here)

theorem Respects.write {path : Text} (own : Own outputFilename path) (apart : ¬traceDir <+: path) :
    Respects outputFilename files (files.write path []) where
  refused := files.write_refused path []
  elsewhere other foreign := files.write_other (by rintro rfl; exact foreign own) []
  directories _ _ here := files.write_directory here
  nodes other traces here := by
    have different : other ≠ path := by
      rintro rfl
      exact apart traces
    rwa [Files.isFile,files.write_other different]
  empty other here := by
    by_cases same : other = path
    · subst same
      by_cases writable : files.Writable other
      · exact files.write_same writable []
      · rwa [files.write_blocked writable]
    · rwa [files.write_other same]

theorem Respects.mkdir {path : Text} (traces : traceDir <+: path) :
    Respects outputFilename files (files.mkdir path) where
  refused := files.mkdir_refused path
  elsewhere other foreign := files.mkdir_other (by rintro rfl; exact foreign (.inl traces))
  directories other apart here := by
    have different : other ≠ path := by
      rintro rfl
      exact apart traces
    rwa [files.mkdir_other different] at here
  nodes other _ here := files.mkdir_isFile here
  empty other here := by rwa [files.mkdir_present (by rw [here]; rfl)]

section steps
variable (front : outputDir <+: outputFilename)
include front

theorem run_apart (rest : Text) : ¬traceDir <+: outputFilename ++ rest :=
  traceDir_apart (front.trans (List.prefix_append _ _))

theorem silentNode_respects (node : Nat) : Respects outputFilename files (silentNode outputFilename files node) :=
  (Respects.write (.inr (.inl ⟨node,0,rfl⟩)) (run_apart front _)).trans (.mkdir (List.prefix_append _ _))

theorem silentNodes_respect (nodes : List Nat) :
    Respects outputFilename files (nodes.foldl (silentNode outputFilename) files) := by
  induction nodes generalizing files with
  | nil => exact .refl
  | cons node nodes ih => exact (silentNode_respects front node).trans ih

theorem silent_respects {run nodes : Nat} {programs : List Program}
    (made : silent run nodes programs outputFilename files = some after) : Respects outputFilename files after := by
  obtain rfl := Option.some.inj made
  exact (silentNodes_respect front _).trans (.write (.inr (.inr rfl)) (run_apart front _))

/-- The capture of the first node is written, and stays. -/
theorem silent_server {run nodes : Nat} {programs : List Program}
    (made : silent run (nodes+1) programs outputFilename files = some after)
    (opens : files.Writable (captureName outputFilename 0 0)) :
    after.entry (captureName outputFilename 0 0) = some (.file []) := by
  obtain rfl := Option.some.inj made
  have first : (silentNode outputFilename files 0).entry (captureName outputFilename 0 0) = some (.file []) := by
    rw [silentNode,Files.mkdir_present]
    all_goals rw [files.write_same opens]
    rfl
  rw [List.range_succ_eq_map,List.foldl_cons]
  refine (Respects.write (.inr (.inr rfl)) (run_apart front _)).empty _ ?_
  exact (silentNodes_respect front _).empty _ first

end steps

theorem silent_simulates : Simulates silent fun _ _ => [] where
  ends _ _ _ _ _ _ _ := rfl
  server front made server room := by
    obtain ⟨nodes,rfl⟩ := Nat.exists_eq_add_of_lt server
    rw [Nat.zero_add] at made
    exact silent_server front made (room.opens _ (.inr (.inl ⟨0,0,rfl⟩)) (run_apart front _))
  nodes front made room path traces top := (silent_respects front made).nodes path traces ((room.nodes path traces).2 top)
  elsewhere front made := ⟨(silent_respects front made).refused,(silent_respects front made).elsewhere⟩
  directories front made := (silent_respects front made).directories

end silent

def nothing : Files := ⟨fun _ => none,fun _ => false,fun _ _ there => by cases there⟩

theorem nothing_ready : Ready (nothing.mkdir outputName) where
  output := nothing.mkdir_same rfl rfl (by decide)
  plain path inside := by
    rw [nothing.mkdir_other]
    · exact (Option.some_ne_none _).symm
    · rintro rfl
      exact absurd inside (by decide)
  nodes _ _ _ := nothing.mkdir_isFile rfl
  allowed _ _ := by
    rw [nothing.mkdir_refused]
    rfl

section runs
variable (tshark : Option Entry → Text) (special : Column → Text)
  {network : Nat → Nat → List Program → Text → Files → Option Files} {captures : Nat → List Program → Text}
  (clock : Nat → Int)

section parser
variable (protocol : Text) (numClients dataBytesPerClient numberOfStreamsPerClient : Int32)
  (sourceFile summaryTargetFile : Text) (files : Files)

theorem startDataParser_some (writable : files.Writable (sourceFile ++ textEnd)) :
    let text := tshark (files.entry (sourceFile ++ pcapEnd))
    let parser := Parser.startDataParser protocol numClients dataBytesPerClient numberOfStreamsPerClient
    startDataParser tshark special protocol numClients dataBytesPerClient numberOfStreamsPerClient sourceFile
        summaryTargetFile files =
      some (((files.write (sourceFile ++ textEnd) text).remove (sourceFile ++ parseEnd)).append
        (summaryTargetFile ++ datEnd) (rowText special (parser.packetExtractor (getlines text)) ++ ['\n'])) := by
  intro text parser
  rw [startDataParser,Files.read,files.write_same writable]
  rfl

/-- The exit behind a transcript that could not be written. -/
theorem startDataParser_exits : startDataParser tshark special protocol numClients dataBytesPerClient
      numberOfStreamsPerClient sourceFile summaryTargetFile files = none ↔
    ¬files.Writable (sourceFile ++ textEnd) ∧ files.entry (sourceFile ++ textEnd) = none := by
  by_cases writable : files.Writable (sourceFile ++ textEnd)
  · rw [startDataParser_some tshark special _ _ _ _ _ _ files writable]
    simp [writable]
  · rw [startDataParser,files.write_blocked writable]
    simp only [Files.read]
    cases there : files.entry (sourceFile ++ textEnd) with
    | none => simp [writable]
    | some entry => cases entry <;> simp

end parser

/-- The parser whose row is added by a run: that of the run's own capture of the server. -/
def result (captures : Nat → List Program → Text) (run : Nat) (protocol : Protocol) (settings : SimSettings) :
    Parser.DataParser :=
  (resultParser (getNameForProtocol protocol) settings).packetExtractor
    (getlines (tshark (some (.file (captures run (programs protocol settings))))))

def row (captures : Nat → List Program → Text) (run : Nat) (protocol : Protocol) (settings : SimSettings) : Text :=
  rowText special (result tshark captures run protocol settings) ++ ['\n']

/-- What the parser makes of the files behind a run with this capture of the server. -/
theorem startDataParser_files {captures : Nat → List Program → Text} {run : Nat} (protocol : Protocol)
    (settings : SimSettings) (simId : Int) {files : Files} (ready : Ready files)
    (capture : files.entry (captureName (outputFilename protocol settings simId) 0 0) =
      some (.file (captures run (programs protocol settings)))) :
    ∃ after, startDataParser tshark special (getNameForProtocol protocol) settings.numberOfClients
        (settings.transferDataBytes * settings.numCycles) settings.numSocketsStreams
        (serverPcap (outputFilename protocol settings simId)) (simtotal protocol) files = some after ∧ Ready after ∧
      ∀ path, disposable path = false →
        after.entry path = (files.append (summaryName protocol) (row tshark special captures run protocol settings)).entry path := by
  have text := text_disposable protocol settings simId
  have parse := parse_disposable protocol settings simId
  have plain : '/' ∉ "-0-0".toList ++ textEnd := by decide
  have place : serverPcap (outputFilename protocol settings simId) ++ textEnd =
      outputFilename protocol settings simId ++ ("-0-0".toList ++ textEnd) := List.append_assoc ..
  have opens := ready.run protocol settings simId plain
  have inside := inside_output protocol settings simId ("-0-0".toList ++ textEnd)
  rw [← place] at opens inside
  have ran := startDataParser_some tshark special (getNameForProtocol protocol) settings.numberOfClients
    (settings.transferDataBytes * settings.numCycles) settings.numSocketsStreams _ (simtotal protocol) files opens
  rw [serverPcap_capture,capture] at ran
  have apart {path name : Text} (kept : disposable path = false) (written : disposable name = true) : path ≠ name := by
    rintro rfl
    rw [kept] at written
    cases written
  have parsed : Ready ((files.write (serverPcap (outputFilename protocol settings simId) ++ textEnd)
      (tshark (some (.file (captures run (programs protocol settings)))))).remove
        (serverPcap (outputFilename protocol settings simId) ++ parseEnd)) :=
    (ready.write inside _).shrinks (Files.removeFiles_shrinks _ _) (Files.remove_other _ (apart outputName_kept parse))
  refine ⟨_,ran,parsed.append (summaryName_place protocol) _,fun path kept => ?_⟩
  refine ready.append_kept parsed (fun other spared => ?_) protocol _ kept
  rw [Files.remove_other _ (apart spared parse),Files.write_other _ (apart spared text)]

/-- What is kept of the files: each summary is longer by its rows, all else is as it was. -/
structure Extends (files after : Files) (rows : Protocol → Text) : Prop where
  summaries : ∀ protocol, after.entry (summaryName protocol) =
    some (.file (files.contents (summaryName protocol) ++ rows protocol))
  others : ∀ path, disposable path = false → (∀ protocol, path ≠ summaryName protocol) →
    after.entry path = files.entry path

theorem Extends.trans {files middle after : Files} {rows later : Protocol → Text} (first : Extends files middle rows)
    (second : Extends middle after later) : Extends files after fun protocol => rows protocol ++ later protocol where
  summaries protocol := by
    rw [second.summaries,Files.contents_eq _ (first.summaries protocol),List.append_assoc]
  others path kept apart := (second.others path kept apart).trans (first.others path kept apart)

theorem Extends.clean {files after : Files} {rows : Protocol → Text} (extended : Extends files after rows)
    (removal : Removal) : Extends files (removal.clean after) rows where
  summaries protocol := (clean_kept (summaryName_kept protocol)).trans (extended.summaries protocol)
  others path kept apart := (clean_kept kept).trans (extended.others path kept apart)

/-- The place of a simulation in its pass. -/
def place : Protocol → Nat
  | .DCCP => 0
  | .UDP => 1
  | .TCP => 2
  | .SCTP => 3

section sweep
variable (removal : Removal) (settings : SimSettings) (min inc max : Int32)

/-- The settings of a pass, counted from zero. -/
def swept (i : Nat) : SimSettings := {settings with transferDataBytes := min + inc * Int32.ofNat i}

/-- The rows that the passes from `first` on add to the summary of a protocol. -/
def results (captures : Nat → List Program → Text) (first count : Nat) (protocol : Protocol) : List Parser.DataParser :=
  (List.range' first count).map fun i =>
    result tshark captures (4*i + place protocol) protocol (swept settings min inc i)

theorem swept_next (first : Nat) :
    (swept settings min inc first).transferDataBytes + inc = (swept settings min inc (first+1)).transferDataBytes := by
  simp only [swept]
  rw [Int32.ofNat_add,Int32.mul_add,← Int32.add_assoc]
  simp

theorem sweep_pass {fuel run : Nat} {var : Int32} {files middle : Files} (inside : var ≤ max)
    (passed : pass tshark special network clock removal run {settings with transferDataBytes := var} files = some middle) :
    sweep tshark special network clock removal settings inc max (fuel+1) run var files =
      sweep tshark special network clock removal settings inc max fuel (run+4) (var+inc) middle := by
  rw [sweep,if_pos inside,passed]
  rfl

theorem sweep_end {fuel run : Nat} {var : Int32} (files : Files) (beyond : ¬var ≤ max) :
    sweep tshark special network clock removal settings inc max (fuel+1) run var files = some files := by
  rw [sweep,if_neg beyond]

/-- How often the body of the loop runs when it runs at all. -/
def passes : Nat := ((max.toInt - min.toInt) / inc.toInt).toNat + 1

theorem swept_toInt (i : Nat) (low : 0 ≤ inc.toInt) (bound : min.toInt + inc.toInt * i < 2^31) :
    (swept settings min inc i).transferDataBytes.toInt = min.toInt + inc.toInt * i := by
  have positive := mul_nonneg low (Int.natCast_nonneg i)
  have least := min.le_toInt
  simp only [swept,Int32.toInt_add,Int32.toInt_mul,Int32.toInt_ofNat',Int32.size]
  simp only [Int.add_bmod_bmod,Int.mul_bmod_bmod]
  exact Int.bmod_eq_of_le (by omega) (by omega)

theorem numberOfNodes_pos (clients : 0 ≤ settings.numberOfClients) (few : settings.numberOfClients.toInt < 2^31-1) :
    0 < numberOfNodes settings := by
  have nonnegative : 0 ≤ settings.numberOfClients.toInt := Int32.le_iff_toInt_le.mp clients
  have one : (1 : Int32).toInt = 1 := by decide
  have next : (settings.numberOfClients + 1).toInt = settings.numberOfClients.toInt + 1 := by
    rw [Int32.toInt_add,one]
    exact Int.bmod_eq_of_le (by omega) (by omega)
  rw [numberOfNodes,next]
  omega

section span
variable {min inc max} (rising : 0 < inc) (made : min ≤ max) (ends : max.toInt + inc.toInt < 2^31)
include rising made ends

/-- The variable is at most `max` in the counted passes, and greater behind them. -/
theorem passes_span : (∀ i < passes min inc max, (swept settings min inc i).transferDataBytes ≤ max) ∧
    ¬(swept settings min inc (passes min inc max)).transferDataBytes ≤ max := by
  have step : 0 < inc.toInt := Int32.lt_iff_toInt_lt.mp rising
  have span : min.toInt ≤ max.toInt := Int32.le_iff_toInt_le.mp made
  obtain ⟨more,count⟩ : ∃ more, passes min inc max = more + 1 := ⟨_,rfl⟩
  have quotient : (more : Int) = (max.toInt - min.toInt) / inc.toInt := by
    rw [passes,Nat.add_right_cancel_iff] at count
    rw [← count]
    exact Int.toNat_of_nonneg (Int.ediv_nonneg (by omega) (by omega))
  have low : inc.toInt * more ≤ max.toInt - min.toInt := by
    rw [quotient]
    exact Int.mul_ediv_self_le (by omega)
  have high : max.toInt - min.toInt < inc.toInt * more + inc.toInt := by
    rw [quotient,mul_comm,← add_one_mul]
    exact Int.lt_ediv_add_one_mul_self _ step
  rw [count]
  constructor
  · intro i inside
    have below : inc.toInt * i ≤ inc.toInt * more := by gcongr; omega
    rw [Int32.le_iff_toInt_le,swept_toInt _ _ _ _ step.le (by omega)]
    omega
  · have reach : inc.toInt * ((more + 1 : Nat) : Int) = inc.toInt * more + inc.toInt := by
      push_cast
      ring
    rw [Int32.le_iff_toInt_le,swept_toInt _ _ _ _ step.le (by omega),reach]
    omega

end span

section simulated
variable (simulates : Simulates network captures)
include simulates

/-- A run of the network leaves what is to be kept. -/
theorem network_kept {run : Nat} {protocol : Protocol} {settings : SimSettings} {simId : Int} {files left : Files}
    (made : network run (numberOfNodes settings) (programs protocol settings) (outputFilename protocol settings simId) files =
      some left) {path : Text} (kept : disposable path = false) : left.entry path = files.entry path := by
  refine (simulates.elsewhere (outputFilename_front protocol settings simId) made).2 path fun own => ?_
  rw [own_disposable protocol settings simId own] at kept
  cases kept

/-- A simulation adds its row, and changes nothing else that is to be kept. -/
theorem runSimulation_files (run : Nat) (protocol : Protocol) (settings : SimSettings) {files : Files}
    (ready : Ready files) (server : 0 < numberOfNodes settings) :
    ∃ after, runSimulation tshark special network clock run protocol settings files = some after ∧ Ready after ∧
      ∀ path, disposable path = false →
        after.entry path = (files.append (summaryName protocol) (row tshark special captures run protocol settings)).entry path := by
  have front := outputFilename_front protocol settings (clock run)
  have room := ready.room protocol settings (clock run)
  obtain ⟨left,made⟩ := Option.isSome_iff_exists.mp
    (simulates.ends run (numberOfNodes settings) (programs protocol settings) _ files front room)
  have readyLeft := ready.network simulates made
  obtain ⟨after,ran,readyAfter,kept⟩ := startDataParser_files tshark special protocol settings (clock run) readyLeft
    (simulates.server front made server room)
  refine ⟨after,?_,readyAfter,fun path spared => (kept path spared).trans ?_⟩
  · simp only [runSimulation,made,Option.bind_eq_bind,Option.bind_some]
    exact ran
  · exact ready.append_kept readyLeft (fun _ spared => network_kept simulates made spared) protocol _ spared

/-- A simulation extends its own summary, and no other. -/
theorem runSimulation_summaries (run : Nat) (protocol : Protocol) (settings : SimSettings) {files : Files}
    (ready : Ready files) (server : 0 < numberOfNodes settings) :
    ∃ after, runSimulation tshark special network clock run protocol settings files = some after ∧ Ready after ∧
      after.entry (summaryName protocol) =
        some (.file (files.contents (summaryName protocol) ++ row tshark special captures run protocol settings)) ∧
      ∀ path, disposable path = false → path ≠ summaryName protocol → after.entry path = files.entry path := by
  obtain ⟨after,made,readyAfter,kept⟩ :=
    runSimulation_files tshark special clock simulates run protocol settings ready server
  refine ⟨after,made,readyAfter,?_,fun path spared apart => ?_⟩
  · rw [kept _ (summaryName_kept protocol)]
    exact files.append_same (ready.summary protocol) _
  · rw [kept path spared]
    exact files.append_other apart _

theorem pass_files (removal : Removal) (run : Nat) (settings : SimSettings) {files : Files} (ready : Ready files)
    (server : 0 < numberOfNodes settings) :
    ∃ after, pass tshark special network clock removal run settings files = some after ∧ Ready after ∧
      Extends files after (fun protocol => row tshark special captures (run + place protocol) protocol settings) ∧
      ∀ path, removal.cleared path = true → after.entry path = none := by
  obtain ⟨dccp,madeDccp,readyDccp,addedDccp,restDccp⟩ :=
    runSimulation_summaries tshark special clock simulates run .DCCP settings ready server
  obtain ⟨udp,madeUdp,readyUdp,addedUdp,restUdp⟩ :=
    runSimulation_summaries tshark special clock simulates (run+1) .UDP settings readyDccp server
  obtain ⟨tcp,madeTcp,readyTcp,addedTcp,restTcp⟩ :=
    runSimulation_summaries tshark special clock simulates (run+2) .TCP settings readyUdp server
  obtain ⟨sctp,madeSctp,readySctp,addedSctp,restSctp⟩ :=
    runSimulation_summaries tshark special clock simulates (run+3) .SCTP settings readyTcp server
  have apart {p q : Protocol} (different : p ≠ q) : summaryName p ≠ summaryName q := summaryName_injective.ne different
  have extended : Extends files sctp
      fun protocol => row tshark special captures (run + place protocol) protocol settings := by
    refine ⟨fun protocol => ?_,fun path kept others => ?_⟩
    -- the other three simulations leave the summary alone, before its own and behind it
    · have kept := summaryName_kept protocol
      cases protocol with
      | DCCP =>
        rw [restSctp _ kept (apart (by decide)),restTcp _ kept (apart (by decide)),restUdp _ kept (apart (by decide))]
        exact addedDccp
      | UDP =>
        rw [restSctp _ kept (apart (by decide)),restTcp _ kept (apart (by decide)),addedUdp,
          Files.contents_congr (restDccp _ kept (apart (by decide)))]
        rfl
      | TCP =>
        rw [restSctp _ kept (apart (by decide)),addedTcp,Files.contents_congr (restUdp _ kept (apart (by decide))),
          Files.contents_congr (restDccp _ kept (apart (by decide)))]
        rfl
      | SCTP =>
        rw [addedSctp,Files.contents_congr (restTcp _ kept (apart (by decide))),
          Files.contents_congr (restUdp _ kept (apart (by decide))),Files.contents_congr (restDccp _ kept (apart (by decide)))]
        rfl
    · rw [restSctp path kept (others _),restTcp path kept (others _),restUdp path kept (others _),
        restDccp path kept (others _)]
  refine ⟨removal.clean sctp,?_,readySctp.clean removal,extended.clean removal,fun path cleared => ?_⟩
  · simp only [pass,madeDccp,madeUdp,madeTcp,madeSctp,Option.bind_eq_bind,Option.bind_some,Option.pure_def]
  · exact clean_removes readySctp cleared

/-- The loop from a pass on that is made, when `more` passes follow it. -/
theorem sweep_from (server : 0 < numberOfNodes settings) (more first fuel : Nat) {files : Files} (ready : Ready files)
    (enough : more + 1 < fuel)
    (inside : ∀ i, first ≤ i → i ≤ first + more → (swept settings min inc i).transferDataBytes ≤ max)
    (beyond : ¬(swept settings min inc (first + more + 1)).transferDataBytes ≤ max) :
    ∃ after, sweep tshark special network clock removal settings inc max fuel (4*first)
        (swept settings min inc first).transferDataBytes files = some after ∧ Ready after ∧
      Extends files after (fun protocol =>
        summaryFile special (results tshark settings min inc captures first (more+1) protocol)) ∧
      ∀ path, removal.cleared path = true → after.entry path = none := by
  have here := inside first (Nat.le_refl _) (Nat.le_add_right _ _)
  obtain ⟨middle,passed,readyMiddle,extended,cleared⟩ := pass_files tshark special clock simulates removal (4*first)
    (swept settings min inc first) ready server
  induction more generalizing first fuel files middle with
  | zero =>
    obtain ⟨fuel,rfl⟩ : ∃ rest, fuel = rest + 2 := ⟨fuel-2,by omega⟩
    refine ⟨middle,?_,readyMiddle,?_,cleared⟩
    · rw [sweep_pass tshark special clock removal settings inc max here passed,swept_next]
      exact sweep_end tshark special clock removal settings inc max middle beyond
    · have rows (protocol : Protocol) :
          summaryFile special (results tshark settings min inc captures first 1 protocol) =
            row tshark special captures (4*first + place protocol) protocol (swept settings min inc first) := by
        simp [results,summaryFile,row]
      simpa only [Nat.zero_add,rows] using extended
  | succ more ih =>
    obtain ⟨fuel,rfl⟩ : ∃ rest, fuel = rest + 1 := ⟨fuel-1,by omega⟩
    have next := inside (first+1) (by omega) (by omega)
    obtain ⟨later,passedNext,readyNext,extendedNext,clearedNext⟩ := pass_files tshark special clock simulates removal
      (4*(first+1)) (swept settings min inc (first+1)) readyMiddle server
    obtain ⟨after,made,readyAfter,extendedAfter,clearedAfter⟩ := ih (first+1) fuel readyMiddle (by omega)
      (fun i low high => inside i (by omega) (by omega)) (by rwa [show first + 1 + more + 1 = first + (more+1) + 1 by omega])
      next later passedNext readyNext extendedNext clearedNext
    refine ⟨after,?_,readyAfter,?_,clearedAfter⟩
    · rw [sweep_pass tshark special clock removal settings inc max here passed,swept_next]
      exact made
    · have rows (protocol : Protocol) :
          summaryFile special (results tshark settings min inc captures first (more+1+1) protocol) =
            row tshark special captures (4*first + place protocol) protocol (swept settings min inc first) ++
              summaryFile special (results tshark settings min inc captures (first+1) (more+1) protocol) := by
        simp [results,summaryFile,row,List.range'_succ]
      simpa only [rows] using extended.trans extendedAfter

end simulated

end sweep

end runs

def keepAll : Removal := ⟨false,false,false,false,false⟩

/-- The flags as the main program sets them. -/
def removeEverything : Removal := ⟨true,true,true,true,true⟩

theorem removeEverything_cleared : removeEverything.cleared = disposable := by
  funext path
  simp [Removal.cleared,disposable,removeEverything]

theorem disposable_place {path : Text} (cleared : disposable path = true) : outputDir <+: path ∨ traceDir <+: path := by
  simp only [disposable,Bool.or_eq_true,List.isPrefixOf_iff_prefix] at cleared
  rcases cleared with ((traces | pcap) | text) | netanim
  · exact .inr traces
  · exact .inl (glob_front pcap)
  · exact .inl (glob_front text)
  · exact .inl (glob_front netanim)

/-- Nobody else keeps the program from its own paths. -/
structure Clear (files : Files) : Prop where
  allowed : ∀ path, path = outputName ∨ outputDir <+: path ∨ traceDir <+: path → files.refused path = false
  nodes : ∀ path, traceDir <+: path → '/' ∉ path → files.isFile path = false

section fresh
variable {files : Files} {path : Text}

theorem inside_under (inside : outputDir <+: path) : Files.under outputName path = true := by
  rw [Files.under,Bool.or_eq_true]
  exact .inr (List.isPrefixOf_iff_prefix.mpr inside)

/-- `rm -rf` leaves nothing in the directory, and no directory. -/
theorem removed_inside (inside : path = outputName ∨ outputDir <+: path) (blocked : files.isFile outputName = false) :
    (files.removeDirectory outputName).entry path = none := by
  have under : Files.under outputName path = true := by
    rcases inside with rfl | below
    · simp [Files.under]
    · exact inside_under below
  unfold Files.removeDirectory
  split
  next => exact if_pos under
  next missing =>
    rcases inside with rfl | ⟨name,rfl⟩
    · cases there : files.entry outputName with
      | none => rfl
      | some entry =>
        cases entry with
        | file text => simp [Files.isFile,there] at blocked
        | directory => exact absurd there missing
    · rw [outputDir,List.append_assoc]
      exact (files.unplaced missing).2

theorem removed_outside (outside : ¬outputDir <+: path) (apart : path ≠ outputName) :
    (files.removeDirectory outputName).entry path = files.entry path := by
  unfold Files.removeDirectory
  split
  next =>
    refine if_neg ?_
    rw [Files.under,Bool.or_eq_true,List.isPrefixOf_iff_prefix]
    rintro (same | below)
    · exact apart (by simpa using same)
    · exact outside below
  next => rfl

/-- What the main program makes is empty. -/
theorem made_inside (inside : outputDir <+: path) (blocked : files.isFile outputName = false) :
    ((files.removeDirectory outputName).mkdir outputName).entry path = none := by
  have apart : path ≠ outputName := by
    rintro rfl
    exact absurd inside (by decide)
  rw [Files.mkdir_other _ apart,removed_inside (.inr inside) blocked]

theorem Clear.ready (clear : Clear files) (blocked : files.isFile outputName = false) :
    Ready ((files.removeDirectory outputName).mkdir outputName) := by
  have shrinks := files.removeDirectory_shrinks outputName
  refine ⟨Files.mkdir_same _ ?_ (removed_inside (.inl rfl) blocked) (Files.placed_top _ (by decide)),fun path inside => ?_,
    fun path traces top => ?_,fun path place => ?_⟩
  · rw [shrinks.1]
    exact clear.allowed outputName (.inl rfl)
  · rw [made_inside inside blocked]
    exact (Option.some_ne_none _).symm
  · refine Files.mkdir_isFile _ ?_
    have before := clear.nodes path traces top
    rcases shrinks.2 path with gone | same
    · rw [Files.isFile,gone]
    · rwa [Files.isFile,same]
  · rw [Files.mkdir_refused,shrinks.1]
    exact clear.allowed path (.inr place)

/-- A file in the place of the directory is not removed, and `mkdir` fails. -/
theorem blocked_stays (blocked : files.isFile outputName = true) :
    (files.removeDirectory outputName).mkdir outputName = files := by
  have file : files.entry outputName ≠ some .directory := by
    intro directory
    rw [files.directory_not_file directory] at blocked
    cases blocked
  have present : files.entry outputName ≠ none := by
    intro missing
    simp [Files.isFile,missing] at blocked
  rw [Files.removeDirectory,if_neg file,Files.mkdir,dif_neg]
  exact fun free => present free.1.2

end fresh

section main
variable (tshark : Option Entry → Text) (special : Column → Text)
  {network : Nat → Nat → List Program → Text → Files → Option Files} {captures : Nat → List Program → Text}
  (clock : Nat → Int)

/-- The amounts of the main program: from 1 to 96 megabytes in steps of five. -/
def measured (captures : Nat → List Program → Text) (protocol : Protocol) : List Parser.DataParser :=
  results tshark orderedSettings (1048576 * 1) (1048576 * 5) captures 0 20 protocol

/-- The files behind the main program: the four summaries, and nothing else in its own directories. -/
structure Measured (captures : Nat → List Program → Text) (files after : Files) : Prop where
  summaries : ∀ protocol,
    after.entry (summaryName protocol) = some (.file (summaryFile special (measured tshark captures protocol)))
  output : after.entry outputName = some .directory
  others : ∀ path, path ≠ outputName → (∀ protocol, path ≠ summaryName protocol) →
    after.entry path = if outputDir <+: path ∨ traceDir <+: path then none else files.entry path

section simulated
variable (simulates : Simulates network captures) (fuel : Nat) {files : Files}
include simulates

theorem main_extends (enough : 20 < fuel) (clear : Clear files) (blocked : files.isFile outputName = false) :
    ∃ after, main tshark special network clock removeEverything fuel files = some after ∧ Ready after ∧
      Extends ((files.removeDirectory outputName).mkdir outputName) after
        (fun protocol => summaryFile special (measured tshark captures protocol)) ∧
      ∀ path, disposable path = true → after.entry path = none := by
  have count : passes (1048576 * 1) (1048576 * 5) (1048576 * 100) = 19 + 1 := by decide
  obtain ⟨inside,beyond⟩ := passes_span orderedSettings (show (0 : Int32) < 1048576 * 5 by decide)
    (show (1048576 * 1 : Int32) ≤ 1048576 * 100 by decide) (by decide)
  rw [count] at inside beyond
  have start : (swept orderedSettings (1048576 * 1) (1048576 * 5) 0).transferDataBytes = 1048576 * 1 := by decide
  have looped := sweep_from tshark special clock removeEverything orderedSettings (1048576 * 1) (1048576 * 5)
    (1048576 * 100) simulates (by decide) 19 0 fuel (clear.ready blocked) enough (fun i _ here => inside i (by omega)) beyond
  rw [start,removeEverything_cleared] at looped
  rw [main,removeEverything,if_pos rfl]
  exact looped

/-- The first simulation of a store without the output directory is the last. -/
theorem runSimulation_unplaced (run : Nat) (protocol : Protocol) (settings : SimSettings)
    (missing : files.entry outputName ≠ some .directory) :
    runSimulation tshark special network clock run protocol settings files = none := by
  cases made : network run (numberOfNodes settings) (programs protocol settings)
      (outputFilename protocol settings (clock run)) files with
  | none =>
    rw [runSimulation,made]
    rfl
  | some left =>
    have still : left.entry outputName ≠ some .directory := by
      rw [(simulates.elsewhere (outputFilename_front protocol settings (clock run)) made).2 outputName]
      · exact missing
      · intro own
        have cleared := own_disposable protocol settings (clock run) own
        rw [outputName_kept] at cleared
        cases cleared
    obtain ⟨name,shape,_⟩ := output_name protocol settings (clock run)
    simp only [runSimulation,made,Option.bind_eq_bind,Option.bind_some]
    rw [startDataParser_exits,serverPcap,shape]
    simp only [List.append_assoc,List.cons_append]
    exact left.unplaced still

theorem main_blocked (blocked : files.isFile outputName = true) :
    runSimulation tshark special network clock 0 .DCCP {orderedSettings with transferDataBytes := 1048576 * 1}
        ((files.removeDirectory outputName).mkdir outputName) = none ∧
      main tshark special network clock removeEverything (fuel+1) files = none := by
  have missing : files.entry outputName ≠ some .directory := by
    intro directory
    rw [files.directory_not_file directory] at blocked
    cases blocked
  have first := runSimulation_unplaced tshark special clock simulates 0 .DCCP
    {orderedSettings with transferDataBytes := 1048576 * 1} missing
  rw [main,removeEverything,if_pos rfl,blocked_stays blocked]
  refine ⟨first,?_⟩
  rw [sweep,if_pos (by decide),pass,first]
  rfl

omit simulates in
theorem measured_of_extends {after : Files} (blocked : files.isFile outputName = false) (ready : Ready after)
    (extended : Extends ((files.removeDirectory outputName).mkdir outputName) after
      fun protocol => summaryFile special (measured tshark captures protocol))
    (cleared : ∀ path, disposable path = true → after.entry path = none) : Measured tshark special captures files after where
  summaries protocol := by
    rw [extended.summaries,Files.contents_none _ (made_inside (summaryName_place protocol) blocked),List.nil_append]
  output := ready.output
  others path top apart := by
    cases kind : disposable path with
    | true => rw [cleared path kind,if_pos (disposable_place kind)]
    | false =>
      have untraced : ¬traceDir <+: path := by
        intro traces
        rw [disposable,List.isPrefixOf_iff_prefix.mpr traces] at kind
        cases kind
      rw [extended.others path kind apart]
      split
      next inside => exact made_inside (inside.resolve_right untraced) blocked
      next outside => rw [Files.mkdir_other _ top,removed_outside (fun inside => outside (.inl inside)) top]

end simulated

end main

end ProtocolTests.Campaign
