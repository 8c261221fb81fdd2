import ProtocolTests.GraphColumns
import ProtocolTests.Summary

/-! The columns of the summary file, as the parser writes them and as the plotting program
reads them. -/
namespace ProtocolTests.SummaryColumns
open Library.CString Library.Fields Library.Printf ProtocolTests.Parser Summary GraphColumns

/-- What `insertTotalData` writes. -/
inductive Column
  | packetCounter
  | totalTime
  | totalData
  | totalUsefulData
  | expectedData
  | dataPercentage
  | dataLossPercent
  | speed
  | frameSizeAvg
  | dataChunks
  | dataChunkAvg
  | numClients
  | numberOfStreamsPerClient
  deriving DecidableEq

/-- The order of both row forms. -/
def columns : List Column := [.packetCounter,.totalTime,.totalData,.totalUsefulData,.expectedData,.dataPercentage,
  .dataLossPercent,.speed,.frameSizeAvg,.dataChunks,.dataChunkAvg,.numClients,.numberOfStreamsPerClient]

/-- What a stream writes for a column, where the double there is a number. -/
def printed (row : Row) : Column → Option Text
  | .packetCounter => some (decimal row.packetCounter.toInt)
  | .totalTime => row.totalTime.map general
  | .totalData => row.totalData.map general
  | .totalUsefulData => some (general row.totalUsefulData)
  | .expectedData => some (general row.expectedData)
  | .dataPercentage => row.dataPercentage.map general
  | .dataLossPercent => row.dataLossPercent.map general
  | .speed => row.speed.map general
  | .frameSizeAvg => row.frameSizeAvg.map general
  | .dataChunks =>
    match row.dataChunks with
    | some dataChunks => some (decimal dataChunks.toInt)
    | none => some "NaN".toList
  | .dataChunkAvg =>
    match row.dataChunks with
    | some _ => row.dataChunkAvg.map general
    | none => some "NaN".toList
  | .numClients => some (decimal row.numClients.toInt)
  | .numberOfStreamsPerClient => some (decimal row.numberOfStreamsPerClient.toInt)

/-- The quantity that a name of the menu stands for. -/
def meant (name : Text) : Column :=
  if name = "Frame number".toList then .packetCounter
  else if name = "Time".toList then .totalTime
  else if name = "Data with headers".toList then .totalData
  else if name = "Data no headers".toList then .totalUsefulData
  else if name = "Data percentage".toList then .dataPercentage
  else if name = "Transmission speed".toList then .speed
  else if name = "Frame size".toList then .frameSizeAvg
  else if name = "Data chunks".toList then .dataChunks
  else .dataChunkAvg

/-- The column that the plotting program takes for a parameter. -/
def taken (parameter : Parameter) : Column := columns.getD (parameter.col.toInt.toNat - 1) .numClients

section file
variable (special : Column → Text)

/-- The text of a column; a double that is no number is printed in a way of its own. -/
def print (parser : DataParser) (column : Column) : Text :=
  (printed (insertTotalData parser).1 column).getD (special column)

def rowText (parser : DataParser) : Text := List.intercalate [' '] (columns.map (print special parser))

/-- The file to which a row is appended for each of the states. -/
def summaryFile (parsers : List DataParser) : Text := parsers.flatMap fun parser => rowText special parser ++ ['\n']

/-- On each axis stand the printed values of the quantity that was asked for by name or number. -/
def Agree (first second : Parameter) : Prop :=
  ∀ parsers : List DataParser, parsers.length < 2^31 → ∀ typedA typedB,
    typedA = first.name ∨ typedA = first.number → typedB = second.name ∨ typedB = second.number →
    ∃ graph final, GraphCreator.create (summaryFile special parsers) typedA typedB = some graph ∧
      graph.selectData (summaryFile special parsers) = some (final,dataFile (parsers.map fun parser =>
        (print special parser (meant first.name),print special parser (meant second.name))))

variable (plain : ∀ column, ' ' ∉ special column ∧ '\n' ∉ special column)
include plain

theorem print_plain (parser : DataParser) (column : Column) :
    ' ' ∉ print special parser column ∧ '\n' ∉ print special parser column := by
  have numeral (text : Text) (letters : ∀ c ∈ text, Numeral c) : ' ' ∉ text ∧ '\n' ∉ text :=
    ⟨fun member => absurd (letters _ member) (by decide),fun member => absurd (letters _ member) (by decide)⟩
  have whole (value : Int) : ' ' ∉ decimal value ∧ '\n' ∉ decimal value := by
    refine numeral _ fun c member => ?_
    rcases decimal_letters member with rfl | digit
    · exact Or.inr (by decide)
    · exact Or.inl digit
  have double (value : Double) : ' ' ∉ (value.map general).getD (special column) ∧
      '\n' ∉ (value.map general).getD (special column) := by
    cases value with
    | none => exact plain column
    | some value => exact numeral _ general_letters
  have nan : ' ' ∉ "NaN".toList ∧ '\n' ∉ "NaN".toList := by decide
  rw [print]
  cases column with
  | packetCounter => exact whole _
  | totalTime => exact double _
  | totalData => exact double _
  | totalUsefulData => exact double (some _)
  | expectedData => exact double (some _)
  | dataPercentage => exact double _
  | dataLossPercent => exact double _
  | speed => exact double _
  | frameSizeAvg => exact double _
  | dataChunks =>
    rw [printed]
    split
    next => exact whole _
    next => exact nan
  | dataChunkAvg =>
    rw [printed]
    split
    next => exact double _
    next => exact nan
  | numClients => exact whole _
  | numberOfStreamsPerClient => exact whole _

theorem rowText_split (parser : DataParser) :
    (rowText special parser).splitOn ' ' = columns.map (print special parser) := by
  refine List.splitOn_intercalate ' ' ?_ (List.cons_ne_nil _ _)
  rintro text member
  obtain ⟨column,_,rfl⟩ := List.mem_map.mp member
  exact (print_plain special plain parser column).1

theorem rowText_line (parser : DataParser) : '\n' ∉ rowText special parser := by
  intro newline
  rcases mem_intercalate newline with separator | ⟨text,member,inside⟩
  · exact absurd separator (by decide)
  · obtain ⟨column,_,rfl⟩ := List.mem_map.mp member
    exact (print_plain special plain parser column).2 inside

theorem row_taken (graph : GraphCreator) {first second : Parameter} (a : first ∈ parameters) (b : second ∈ parameters)
    (colA : graph.colA = first.col) (colB : graph.colB = second.col) (parser : DataParser) :
    graph.row (rowText special parser) =
      (print special parser (taken first),print special parser (taken second)) := by
  have inside : ∀ parameter ∈ parameters, parameter.col.toInt.toNat - 1 < columns.length := by decide
  have piece (place : Nat) (bound : place < columns.length) : (columns.map (print special parser)).getD place [] =
      print special parser (columns.getD place .numClients) := by
    rw [List.getD_eq_getElem?_getD,List.getElem?_map,List.getD_eq_getElem?_getD,List.getElem?_eq_getElem bound]
    rfl
  have onMenuA : 1 ≤ graph.colA := by rw [colA]; exact parameters_col _ a
  have onMenuB : 1 ≤ graph.colB := by rw [colB]; exact parameters_col _ b
  rw [row_eq graph onMenuA onMenuB,rowText_split special plain,colA,colB,piece _ (inside _ a),piece _ (inside _ b)]
  rfl

/-- What the plotting program selects from the rows of any states. -/
theorem rows_selected {first second : Parameter} (a : first ∈ parameters) (b : second ∈ parameters)
    (parsers : List DataParser) (few : parsers.length < 2^31) {typedA typedB : Text}
    (namedA : typedA = first.name ∨ typedA = first.number) (namedB : typedB = second.name ∨ typedB = second.number) :
    ∃ graph final, GraphCreator.create (summaryFile special parsers) typedA typedB = some graph ∧
      graph.selectData (summaryFile special parsers) = some (final,dataFile (parsers.map fun parser =>
        (print special parser (taken first),print special parser (taken second)))) := by
  have lines : getlines (summaryFile special parsers) = parsers.map (rowText special) :=
    getlines_flatMap parsers _ fun parser _ => rowText_line special plain parser
  obtain ⟨height,counted,_⟩ := computeHeight_some (summaryFile special parsers)
    (by rw [lines,List.length_map]; exact few)
  have created := create_some counted a b namedA namedB
  have narrow : ∀ line ∈ getlines (summaryFile special parsers), Narrow line := by
    rw [lines]
    rintro line member
    obtain ⟨parser,_,rfl⟩ := List.mem_map.mp member
    rw [Narrow,rowText_split special plain,List.length_map]
    decide
  have selected := selectData_some (.onMenu height first second) _ counted narrow
  have taken_rows : (parsers.map (rowText special)).map (GraphCreator.onMenu height first second).row =
      parsers.map fun parser => (print special parser (taken first),print special parser (taken second)) := by
    rw [List.map_map]
    exact List.map_congr_left fun parser _ => row_taken special plain _ a b rfl rfl parser
  rw [lines,taken_rows] at selected
  exact ⟨_,_,created,selected⟩

theorem agree_of_same {first second : Parameter} (a : first ∈ parameters) (b : second ∈ parameters)
    (sameA : taken first = meant first.name) (sameB : taken second = meant second.name) :
    Agree special first second := by
  intro parsers few typedA typedB namedA namedB
  have selected := rows_selected special plain a b parsers few namedA namedB
  rwa [sameA,sameB] at selected

theorem agree_telling {first second : Parameter} (a : first ∈ parameters) (b : second ∈ parameters)
    (agree : Agree special first second) (parser : DataParser) :
    print special parser (taken first) = print special parser (meant first.name) ∧
      print special parser (taken second) = print special parser (meant second.name) := by
  have few : [parser].length < 2^31 := by rw [List.length_singleton]; decide
  obtain ⟨graph,final,created,meantRows⟩ := agree [parser] few first.name second.name (.inl rfl) (.inl rfl)
  obtain ⟨graph',final',created',takenRows⟩ := rows_selected special plain a b [parser] few (.inl rfl) (.inl rfl)
  obtain rfl := Option.some.inj (created.symm.trans created')
  have files := (Prod.mk.inj (Option.some.inj (takenRows.symm.trans meantRows))).2
  simp only [dataFile,List.map_cons,List.map_nil,List.flatMap_cons,List.flatMap_nil,List.append_nil,List.append_assoc,
    List.cons_append,List.append_cancel_left_eq] at files
  obtain ⟨sameA,rest⟩ := (joined_iff _ _ _ _ (print_plain special plain parser _).1
    (print_plain special plain parser _).1).mp files
  exact ⟨sameA,List.append_cancel_right rest⟩

end file

/-- A state all of whose columns are printed differently. -/
def telling : DataParser where
  protocol := "sctp".toList
  timeFix := some 0
  totalUsefulData := 2^20
  totalData := some (2^22)
  dataChunks := 3
  totalTime := some 4
  numberOfStreamsPerClient := 7
  packetCounter := 5
  expectedData := 2^21
  numClients := 6

theorem telling_printed : ∀ parameter ∈ parameters,
    (printed (insertTotalData telling).1 (taken parameter)).isSome ∧
      (printed (insertTotalData telling).1 (meant parameter.name)).isSome ∧
      (printed (insertTotalData telling).1 (taken parameter) =
        printed (insertTotalData telling).1 (meant parameter.name) → parameter.col ≤ 4) := by decide +kernel

theorem meant_taken : ∀ parameter ∈ parameters, parameter.col ≤ 4 → taken parameter = meant parameter.name := by
  decide

theorem telling_col (special : Column → Text) {parameter : Parameter} (member : parameter ∈ parameters)
    (same : print special telling (taken parameter) = print special telling (meant parameter.name)) :
    parameter.col ≤ 4 := by
  obtain ⟨someTaken,someMeant,apart⟩ := telling_printed parameter member
  obtain ⟨takenText,takenHere⟩ := Option.isSome_iff_exists.mp someTaken
  obtain ⟨meantText,meantHere⟩ := Option.isSome_iff_exists.mp someMeant
  rw [print,print,takenHere,meantHere] at same
  exact apart (by rw [takenHere,meantHere]; exact congrArg some same)

/-- The plotting program shows what was asked for on both axes, for all states, exactly if
both parameters are among the first four of the menu. -/
theorem agree_iff (special : Column → Text) (plain : ∀ column, ' ' ∉ special column ∧ '\n' ∉ special column)
    (first second : Parameter) (a : first ∈ parameters) (b : second ∈ parameters) :
    Agree special first second ↔ first.col ≤ 4 ∧ second.col ≤ 4 := by
  constructor
  · intro agree
    obtain ⟨sameA,sameB⟩ := agree_telling special plain a b agree telling
    exact ⟨telling_col special a sameA,telling_col special b sameB⟩
  · rintro ⟨smallA,smallB⟩
    exact agree_of_same special plain a b (meant_taken first a smallA) (meant_taken second b smallB)

def framesParameter : Parameter := ⟨"Frame number".toList,"1".toList,"Number of frames".toList,1⟩

def timeParameter : Parameter := ⟨"Time".toList,"2".toList,"Time [s]".toList,2⟩

theorem agree_frames_time : Agree (fun _ => "nan".toList) framesParameter timeParameter :=
  (agree_iff (fun _ => "nan".toList) (fun _ => by decide) framesParameter timeParameter (by decide) (by decide)).mpr
    ⟨by decide,by decide⟩

def percentageParameter : Parameter := ⟨"Data percentage".toList,"5".toList,"Data percentage".toList,5⟩

/-- The percentage of useful data is 25, but what is shown under its name are the 2
megabytes that were expected. -/
theorem percentage_disagrees : percentageParameter ∈ parameters ∧
    print (fun _ => "nan".toList) telling (taken percentageParameter) = "2".toList ∧
    print (fun _ => "nan".toList) telling (meant percentageParameter.name) = "25".toList ∧
    ¬Agree (fun _ => "nan".toList) percentageParameter percentageParameter := by
  have shown : print (fun _ => "nan".toList) telling (taken percentageParameter) = "2".toList := by decide +kernel
  have asked : print (fun _ => "nan".toList) telling (meant percentageParameter.name) = "25".toList := by
    decide +kernel
  refine ⟨by decide,shown,asked,fun agree => ?_⟩
  have same := (agree_telling (fun _ => "nan".toList) (fun _ => by decide) (by decide) (by decide) agree telling).1
  rw [shown,asked] at same
  exact absurd same (by decide)

end ProtocolTests.SummaryColumns
