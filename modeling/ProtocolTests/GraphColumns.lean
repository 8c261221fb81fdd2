import ProtocolTests.Library.Fields
import ProtocolTests.Library.Printf

/-! The plotting program that takes two columns out of a file of rows. A file is its text,
and is there and stays as it is. An `int` that overflows, an array of negative length and
a write outside the array are undefined and have no result. (So is an overflow elsewhere. Where a
counter only goes into the output, the other modules let it wrap around as the machine does, and
their theorems name the bound 2^31.) Console output is left out. -/
namespace ProtocolTests.GraphColumns
open Library.CString Library.Fields Library.Printf

def increment (counter : Int32) : Option Int32 := if counter = Int32.maxValue then none else some (counter + 1)

structure GraphCreator where
  height : Int32
  colA : Int32 := -1
  colB : Int32 := -1
  labelA : Text
  labelB : Text
  maxX : ℚ := 0
  maxY : ℚ := 0
  minX : ℚ := 1000
  minY : ℚ := 1000

def computeHeight (file : Text) : Option Int32 := (getlines file).foldlM (fun numberOfRows _ => increment numberOfRows) 0

/-- A parameter of the menu: its name and its number there, the label of the axis and the column. -/
structure Parameter where
  name : Text
  number : Text
  axis : Text
  col : Int32
  deriving DecidableEq

/-- The branches of `setSelectionVars` in their order. -/
def parameters : List Parameter := [
  ⟨"Frame number".toList,"1".toList,"Number of frames".toList,1⟩,
  ⟨"Time".toList,"2".toList,"Time [s]".toList,2⟩,
  ⟨"Data with headers".toList,"3".toList,"Data with headers [bytes]".toList,3⟩,
  ⟨"Data no headers".toList,"4".toList,"Data no headers [bytes]".toList,4⟩,
  ⟨"Data percentage".toList,"5".toList,"Data percentage".toList,5⟩,
  ⟨"Transmission speed".toList,"6".toList,"Transmission speed [Mbytes/s]".toList,6⟩,
  ⟨"Frame size".toList,"7".toList,"Frame size [bytes]".toList,7⟩,
  ⟨"Data chunks".toList,"8".toList,"Data chunks".toList,8⟩,
  ⟨"Chunk size".toList,"9".toList,"Chunk size [bytes]".toList,9⟩]

/-- The column of a parameter, with the label of its axis set. Any other label ends the program. -/
def GraphCreator.setSelectionVars (graph : GraphCreator) (label : Text) (labelID : Int) :
    Option (Int32 × GraphCreator) := do
  let parameter ← parameters.find? fun parameter => label = parameter.name ∨ label = parameter.number
  return (parameter.col,
    if labelID = 1 then {graph with labelA := parameter.axis} else {graph with labelB := parameter.axis})

/-- The constructor, with the two lines typed at the prompts. -/
def GraphCreator.create (file typedA typedB : Text) : Option GraphCreator := do
  let graph : GraphCreator := {height := ← computeHeight file,labelA := typedA,labelB := typedB}
  let (colA,graph) ← graph.setSelectionVars graph.labelA 1
  let graph := {graph with colA := colA}
  let (colB,graph) ← graph.setSelectionVars graph.labelB 2
  return {graph with colB := colB}

/-- The loop over the characters of a line, with the strings `dataA` and `dataB`. -/
def selectFields (colA colB : Int32) : Int32 → Text → Text → Text → Option (Text × Text)
  | _, dataA, dataB, [] => some (dataA,dataB)
  | paramCount, dataA, dataB, c :: rest => do
    let dataA := if paramCount = colA then (if c ≠ ' ' then dataA ++ [c] else dataA) else dataA
    let dataB := if paramCount = colB then (if c ≠ ' ' then dataB ++ [c] else dataB) else dataB
    let paramCount ← if c = ' ' then increment paramCount else some paramCount
    selectFields colA colB paramCount dataA dataB rest

def store (data : List (Text × Text)) (lineCount : Int32) (row : Text × Text) : Option (List (Text × Text)) :=
  if 0 ≤ lineCount.toInt ∧ lineCount.toInt < data.length then some (data.set lineCount.toInt.toNat row) else none

def GraphCreator.update (graph : GraphCreator) (valueA valueB : ℚ) : GraphCreator :=
  {graph with
    maxX := if valueA > graph.maxX then valueA else graph.maxX
    maxY := if valueB > graph.maxY then valueB else graph.maxY
    minX := if valueA < graph.minX then valueA else graph.minX
    minY := if valueB < graph.minY then valueB else graph.minY}

/-- The loop over the lines, with the array `data`. -/
def readRows : GraphCreator → Int32 → List (Text × Text) → List Text → Option (GraphCreator × List (Text × Text))
  | graph, _, data, [] => some (graph,data)
  | graph, lineCount, data, line :: rest => do
    let (dataA,dataB) ← selectFields graph.colA graph.colB 1 [] [] line
    let data ← store data lineCount (dataA,dataB)
    let graph := graph.update (atof dataA) (atof dataB)
    readRows graph (← increment lineCount) data rest

def newArray (height : Int32) : Option (List (Text × Text)) :=
  if height < 0 then none else some (List.replicate height.toInt.toNat ([],[]))

def commentLine : Text := "# X Y \n".toList

/-- The object after the call and the text of `graph_data.dat`. -/
def GraphCreator.selectData (graph : GraphCreator) (file : Text) : Option (GraphCreator × Text) := do
  let data ← newArray graph.height
  let (graph,data) ← readRows graph 0 data (getlines file)
  return (graph,commentLine ++ data.flatMap fun row => row.1 ++ ' ' :: row.2 ++ ['\n'])

/-- The variables that are exported to the plotting script. -/
structure Environment where
  maxX : Text
  minX : Text
  maxY : Text
  minY : Text
  labelX : Text
  labelY : Text

def GraphCreator.setGnuplotParams (graph : GraphCreator) : Environment where
  maxX := fixed (graph.maxX * (11/10))
  minX := decimal 0
  maxY := fixed (graph.maxY * (11/10))
  minY := decimal 0
  labelX := graph.labelA
  labelY := graph.labelB

theorem setSelectionVars_some {graph next : GraphCreator} {label : Text} {labelID : Int} {col : Int32}
    (selected : graph.setSelectionVars label labelID = some (col,next)) :
    ∃ parameter ∈ parameters, (label = parameter.name ∨ label = parameter.number) ∧ parameter.col = col ∧
      next = if labelID = 1 then {graph with labelA := parameter.axis} else {graph with labelB := parameter.axis} := by
  obtain ⟨parameter,found,made⟩ := Option.bind_eq_some_iff.mp selected
  obtain ⟨rfl,rfl⟩ := Prod.mk.inj (Option.some.inj made)
  exact ⟨parameter,List.mem_of_find?_eq_some found,by simpa using List.find?_some found,rfl,rfl⟩

theorem parameters_col : ∀ parameter ∈ parameters, 1 ≤ parameter.col := by decide

theorem parameters_found : ∀ parameter ∈ parameters, ∀ label ∈ [parameter.name,parameter.number],
    parameters.find? (fun other => label = other.name ∨ label = other.number) = some parameter := by decide

theorem setSelectionVars_named (graph : GraphCreator) {label : Text} (labelID : Int) {parameter : Parameter}
    (member : parameter ∈ parameters) (named : label = parameter.name ∨ label = parameter.number) :
    graph.setSelectionVars label labelID = some (parameter.col,
      if labelID = 1 then {graph with labelA := parameter.axis} else {graph with labelB := parameter.axis}) := by
  rw [GraphCreator.setSelectionVars,parameters_found parameter member label (by simpa using named)]
  rfl

def GraphCreator.onMenu (height : Int32) (first second : Parameter) : GraphCreator where
  height := height
  colA := first.col
  colB := second.col
  labelA := first.axis
  labelB := second.axis

/-- A label that names a parameter of the menu, or gives its number, selects its column. -/
theorem create_some {file typedA typedB : Text} {height : Int32} (counted : computeHeight file = some height)
    {first second : Parameter} (a : first ∈ parameters) (b : second ∈ parameters)
    (namedA : typedA = first.name ∨ typedA = first.number)
    (namedB : typedB = second.name ∨ typedB = second.number) :
    GraphCreator.create file typedA typedB = some (.onMenu height first second) := by
  simp only [GraphCreator.create,counted,Option.bind_eq_bind,Option.bind_some,
    setSelectionVars_named _ 1 a namedA,if_true,setSelectionVars_named _ 2 b namedB]
  rfl

/-- The object that the constructor leaves: both columns are on the menu, and nothing is read yet. -/
structure Created (graph : GraphCreator) (file : Text) : Prop where
  height : computeHeight file = some graph.height
  colA : 1 ≤ graph.colA
  colB : 1 ≤ graph.colB
  maxX : graph.maxX = 0
  maxY : graph.maxY = 0
  minX : graph.minX = 1000
  minY : graph.minY = 1000

theorem create_created {file typedA typedB : Text} {graph : GraphCreator}
    (created : GraphCreator.create file typedA typedB = some graph) : Created graph file := by
  obtain ⟨height,counted,created⟩ := Option.bind_eq_some_iff.mp created
  obtain ⟨⟨colA,afterA⟩,first,created⟩ := Option.bind_eq_some_iff.mp created
  obtain ⟨⟨colB,afterB⟩,second,created⟩ := Option.bind_eq_some_iff.mp created
  obtain ⟨parameterA,memberA,_,rfl,rfl⟩ := setSelectionVars_some first
  obtain ⟨parameterB,memberB,_,rfl,rfl⟩ := setSelectionVars_some second
  obtain rfl := Option.some.inj created
  exact ⟨counted,parameters_col _ memberA,parameters_col _ memberB,rfl,rfl,rfl,rfl⟩

theorem increment_some (counter : Int32) (room : counter.toInt + 1 < 2^31) :
    ∃ next, increment counter = some next ∧ next.toInt = counter.toInt + 1 := by
  have lower := counter.le_toInt
  have bounded : counter ≠ Int32.maxValue := by
    rintro rfl
    exact absurd room (by decide)
  refine ⟨counter + 1,if_neg bounded,?_⟩
  rw [Int32.toInt_add]
  exact Int.bmod_eq_of_le (by rw [Int32.toInt_one]; omega) (by rw [Int32.toInt_one]; omega)

theorem increment_none (counter : Int32) (full : 2^31 ≤ counter.toInt + 1) : increment counter = none := by
  have upper := counter.toInt_lt
  have greatest : counter = Int32.maxValue := by
    rw [← Int32.toInt_inj,Int32.toInt_maxValue]
    omega
  exact if_pos greatest

theorem countRows_some (lines : List Text) (start : Int32) (room : start.toInt + lines.length < 2^31) :
    ∃ final, lines.foldlM (fun numberOfRows _ => increment numberOfRows) start = some final ∧
      final.toInt = start.toInt + lines.length := by
  induction lines generalizing start with
  | nil => exact ⟨start,rfl,by simp⟩
  | cons line lines ih =>
    rw [List.length_cons] at room ⊢
    obtain ⟨next,stepped,value⟩ := increment_some start (by omega)
    obtain ⟨final,counted,total⟩ := ih next (by omega)
    refine ⟨final,?_,by omega⟩
    rw [List.foldlM_cons,stepped]
    exact counted

theorem countRows_none (lines : List Text) (start : Int32) (full : 2^31 ≤ start.toInt + lines.length) :
    lines.foldlM (fun numberOfRows _ => increment numberOfRows) start = none := by
  induction lines generalizing start with
  | nil =>
    have upper := start.toInt_lt
    simp only [List.length_nil] at full
    omega
  | cons line lines ih =>
    rw [List.length_cons] at full
    rw [List.foldlM_cons]
    by_cases room : start.toInt + 1 < 2^31
    · obtain ⟨next,stepped,value⟩ := increment_some start room
      rw [stepped]
      exact ih next (by omega)
    · rw [increment_none start (by omega)]
      rfl

theorem computeHeight_some (file : Text) (rows : (getlines file).length < 2^31) :
    ∃ height, computeHeight file = some height ∧ height.toInt = (getlines file).length := by
  obtain ⟨height,counted,total⟩ := countRows_some (getlines file) 0 (by rw [Int32.toInt_zero]; omega)
  rw [Int32.toInt_zero,Int.zero_add] at total
  exact ⟨height,counted,total⟩

theorem computeHeight_none (file : Text) (rows : 2^31 ≤ (getlines file).length) : computeHeight file = none := by
  apply countRows_none
  rw [Int32.toInt_zero]
  omega

/-- What the rest of a line adds to the string of a column when field `paramCount` begins it. -/
def fieldFrom (paramCount col : Int32) (line : Text) : Text :=
  if paramCount.toInt ≤ col.toInt then field line (col.toInt - paramCount.toInt).toNat else []

@[simp] theorem fieldFrom_nil (paramCount col : Int32) : fieldFrom paramCount col [] = [] := by
  simp [fieldFrom]

theorem fieldFrom_space (paramCount next col : Int32) (rest : Text) (stepped : next.toInt = paramCount.toInt + 1) :
    fieldFrom paramCount col (' ' :: rest) = fieldFrom next col rest := by
  rw [fieldFrom,fieldFrom,stepped]
  rcases Int.lt_trichotomy paramCount.toInt col.toInt with before | here | behind
  · have place : (col.toInt - paramCount.toInt).toNat = (col.toInt - (paramCount.toInt + 1)).toNat + 1 := by omega
    rw [if_pos (by omega),if_pos (by omega),place,field_space_succ]
  · rw [if_pos (by omega),if_neg (by omega),here,Int.sub_self,Int.toNat_zero,field_space_zero]
  · rw [if_neg (by omega),if_neg (by omega)]

theorem fieldFrom_letter (paramCount col : Int32) {c : Char} (letter : c ≠ ' ') (rest : Text) :
    fieldFrom paramCount col (c :: rest) =
      if paramCount = col then c :: fieldFrom paramCount col rest else fieldFrom paramCount col rest := by
  simp only [fieldFrom,field_letter letter,← Int32.toInt_inj]
  rcases Int.lt_trichotomy paramCount.toInt col.toInt with before | here | behind
  · rw [if_pos (by omega),if_neg (by omega),if_neg (by omega),if_pos (by omega)]
  · rw [if_pos (by omega),if_pos (by omega),if_pos here,here,Int.sub_self,Int.toNat_zero]
    simp
  · rw [if_neg (by omega),if_neg (by omega),if_neg (by omega)]

theorem fieldFrom_one (col : Int32) (positive : 1 ≤ col) (line : Text) :
    fieldFrom 1 col line = (line.splitOn ' ').getD (col.toInt.toNat - 1) [] := by
  have bound := Int32.le_iff_toInt_le.mp positive
  have place : (col.toInt - (1 : Int32).toInt).toNat = col.toInt.toNat - 1 := by
    rw [Int32.toInt_one]
    omega
  rw [fieldFrom,if_pos bound,place,field]

theorem selectFields_some (colA colB paramCount : Int32) (dataA dataB line : Text)
    (room : paramCount.toInt + line.count ' ' < 2^31) :
    selectFields colA colB paramCount dataA dataB line =
      some (dataA ++ fieldFrom paramCount colA line,dataB ++ fieldFrom paramCount colB line) := by
  induction line generalizing paramCount dataA dataB with
  | nil => simp [selectFields]
  | cons c rest ih =>
    rw [selectFields]
    by_cases space : c = ' '
    · subst space
      rw [List.count_cons_self] at room
      obtain ⟨next,stepped,value⟩ := increment_some paramCount (by omega)
      have onward := ih next dataA dataB (by omega)
      simpa [stepped,fieldFrom_space _ next _ rest value] using onward
    · rw [List.count_cons_of_ne space] at room
      simp only [space,if_false,ne_eq,not_false_eq_true,if_true,Option.bind_eq_bind,Option.bind_some,ih _ _ _ room,
        fieldFrom_letter _ _ space]
      split <;> split <;> simp

theorem selectFields_none (colA colB paramCount : Int32) (dataA dataB line : Text)
    (full : 2^31 ≤ paramCount.toInt + line.count ' ') : selectFields colA colB paramCount dataA dataB line = none := by
  induction line generalizing paramCount dataA dataB with
  | nil =>
    have upper := paramCount.toInt_lt
    simp only [List.count_nil] at full
    omega
  | cons c rest ih =>
    rw [selectFields]
    by_cases space : c = ' '
    · subst space
      rw [List.count_cons_self] at full
      by_cases room : paramCount.toInt + 1 < 2^31
      · obtain ⟨next,stepped,value⟩ := increment_some paramCount room
        simp only [if_true,stepped,Option.bind_eq_bind,Option.bind_some]
        exact ih next _ _ (by omega)
      · simp only [if_true,increment_none paramCount (by omega),Option.bind_eq_bind,Option.bind_none]
    · rw [List.count_cons_of_ne space] at full
      simp only [space,if_false,Option.bind_eq_bind,Option.bind_some]
      exact ih _ _ _ full

def GraphCreator.row (graph : GraphCreator) (line : Text) : Text × Text :=
  (fieldFrom 1 graph.colA line,fieldFrom 1 graph.colB line)

def GraphCreator.scan (graph : GraphCreator) (row : Text × Text) : GraphCreator :=
  graph.update (atof row.1) (atof row.2)

def Narrow (line : Text) : Prop := (line.splitOn ' ').length < 2^31

theorem narrow_iff (line : Text) : Narrow line ↔ (1 : Int32).toInt + line.count ' ' < 2^31 := by
  rw [Narrow,splitOn_length,Int32.toInt_one]
  omega

theorem store_next (finished blank : List (Text × Text)) (old row : Text × Text) (lineCount : Int32)
    (count : lineCount.toInt = finished.length) :
    store (finished ++ old :: blank) lineCount row = some (finished ++ row :: blank) := by
  have place : lineCount.toInt.toNat = finished.length := by omega
  have inside : 0 ≤ lineCount.toInt ∧ lineCount.toInt < (finished ++ old :: blank).length := by
    rw [List.length_append,List.length_cons]
    omega
  rw [store,if_pos inside,place,List.set_append_right _ _ (Nat.le_refl _),Nat.sub_self,List.set_cons_zero]

/-- The loop fills the rows that are still blank, one for each line. -/
theorem readRows_some (graph : GraphCreator) (lineCount : Int32) (finished blank : List (Text × Text))
    (lines : List Text) (count : lineCount.toInt = finished.length) (sized : blank.length = lines.length)
    (room : lineCount.toInt + lines.length < 2^31) (narrow : ∀ line ∈ lines, Narrow line) :
    readRows graph lineCount (finished ++ blank) lines =
      some ((lines.map graph.row).foldl GraphCreator.scan graph,finished ++ lines.map graph.row) := by
  induction lines generalizing graph lineCount finished blank with
  | nil =>
    obtain rfl := List.eq_nil_of_length_eq_zero sized
    rfl
  | cons line lines ih =>
    obtain ⟨old,blank,rfl⟩ := List.exists_cons_of_length_eq_add_one sized
    rw [List.length_cons] at room
    obtain ⟨next,stepped,value⟩ := increment_some lineCount (by omega)
    have selected := selectFields_some graph.colA graph.colB 1 [] [] line
      ((narrow_iff line).mp (narrow line List.mem_cons_self))
    have rest := ih (graph.scan (graph.row line)) next (finished ++ [graph.row line]) blank
      (by rw [List.length_append,List.length_singleton]; omega) (Nat.succ.inj sized) (by omega)
      fun other member => narrow other (List.mem_cons_of_mem _ member)
    rw [List.append_assoc,List.append_assoc,List.singleton_append,List.singleton_append] at rest
    have same : (graph.scan (graph.row line)).row = graph.row := rfl
    rw [same] at rest
    rw [readRows,selected,List.map_cons,List.foldl_cons]
    simp only [List.nil_append,Option.bind_eq_bind,Option.bind_some,store_next finished blank old _ _ count,stepped]
    exact rest

theorem readRows_narrow (graph : GraphCreator) (lineCount : Int32) (data : List (Text × Text)) (lines : List Text)
    (result : GraphCreator × List (Text × Text)) (ran : readRows graph lineCount data lines = some result) :
    ∀ line ∈ lines, Narrow line := by
  induction lines generalizing graph lineCount data with
  | nil => simp
  | cons line lines ih =>
    by_cases narrow : Narrow line
    · rw [readRows] at ran
      obtain ⟨_,_,ran⟩ := Option.bind_eq_some_iff.mp ran
      obtain ⟨_,_,ran⟩ := Option.bind_eq_some_iff.mp ran
      obtain ⟨_,_,ran⟩ := Option.bind_eq_some_iff.mp ran
      exact List.forall_mem_cons.mpr ⟨narrow,ih _ _ _ ran⟩
    · have full := selectFields_none graph.colA graph.colB 1 [] [] line
        (by have wide := (narrow_iff line).not.mp narrow; omega)
      rw [readRows,full] at ran
      cases ran

def dataFile (rows : List (Text × Text)) : Text :=
  commentLine ++ rows.flatMap fun row => row.1 ++ ' ' :: row.2 ++ ['\n']

theorem selectData_some (graph : GraphCreator) (file : Text) (height : computeHeight file = some graph.height)
    (narrow : ∀ line ∈ getlines file, Narrow line) :
    graph.selectData file = some (((getlines file).map graph.row).foldl GraphCreator.scan graph,
      dataFile ((getlines file).map graph.row)) := by
  have rows : (getlines file).length < 2^31 := by
    by_contra full
    rw [computeHeight_none file (by omega)] at height
    cases height
  obtain ⟨counted,found,total⟩ := computeHeight_some file rows
  obtain rfl := Option.some.inj (found.symm.trans height)
  have nonnegative : ¬graph.height < 0 := by
    rw [Int32.lt_iff_toInt_lt,Int32.toInt_zero]
    omega
  have filled := readRows_some graph 0 [] (List.replicate graph.height.toInt.toNat ([],[])) (getlines file) rfl
    (by rw [List.length_replicate]; omega) (by rw [Int32.toInt_zero]; omega) narrow
  rw [List.nil_append,List.nil_append] at filled
  rw [GraphCreator.selectData,newArray,if_neg nonnegative,Option.bind_eq_bind,Option.bind_some,filled]
  rfl

theorem selectData_iff (graph : GraphCreator) (file : Text) (height : computeHeight file = some graph.height) :
    (∃ result, graph.selectData file = some result) ↔ ∀ line ∈ getlines file, Narrow line := by
  constructor
  · rintro ⟨result,ran⟩
    obtain ⟨_,_,ran⟩ := Option.bind_eq_some_iff.mp ran
    obtain ⟨_,read,_⟩ := Option.bind_eq_some_iff.mp ran
    exact readRows_narrow graph 0 _ _ _ read
  · exact fun narrow => ⟨_,selectData_some graph file height narrow⟩

theorem row_eq (graph : GraphCreator) (first : 1 ≤ graph.colA) (second : 1 ≤ graph.colB) (line : Text) :
    graph.row line = ((line.splitOn ' ').getD (graph.colA.toInt.toNat - 1) [],
      (line.splitOn ' ').getD (graph.colB.toInt.toNat - 1) []) := by
  rw [GraphCreator.row,fieldFrom_one _ first,fieldFrom_one _ second]

/-- A file whose lines, and the fields of each line, an `int` can count is selected line by
line, whatever the object holds besides its height and its columns. -/
theorem selectData_lines (file : Text) (rows : (getlines file).length < 2^31)
    (fields : ∀ line ∈ getlines file, (line.splitOn ' ').length < 2^31) :
    ∃ height, computeHeight file = some height ∧ ∀ graph : GraphCreator, graph.height = height →
      1 ≤ graph.colA → 1 ≤ graph.colB → ∃ final, graph.selectData file = some (final,
        commentLine ++ (getlines file).flatMap fun line =>
          (line.splitOn ' ').getD (graph.colA.toInt.toNat - 1) [] ++
            ' ' :: (line.splitOn ' ').getD (graph.colB.toInt.toNat - 1) [] ++ ['\n']) := by
  obtain ⟨height,counted,_⟩ := computeHeight_some file rows
  refine ⟨height,counted,?_⟩
  rintro graph rfl first second
  have selected := selectData_some graph file counted fields
  simp only [dataFile,List.flatMap_map,row_eq graph first second] at selected
  exact ⟨_,selected⟩

theorem selectData_two_lines :
    ∃ height, computeHeight "1 2\n3".toList = some height ∧ ∀ graph : GraphCreator, graph.height = height →
      1 ≤ graph.colA → 1 ≤ graph.colB → ∃ final, graph.selectData "1 2\n3".toList = some (final,
        commentLine ++ (getlines "1 2\n3".toList).flatMap fun line =>
          (line.splitOn ' ').getD (graph.colA.toInt.toNat - 1) [] ++
            ' ' :: (line.splitOn ' ').getD (graph.colB.toInt.toNat - 1) [] ++ ['\n']) :=
  selectData_lines "1 2\n3".toList (by decide) (by decide)

/-- 2^31 empty lines, or one line of as many spaces, are too many for an `int`. -/
theorem selectData_overflow :
    (¬∃ height, computeHeight (List.replicate (2^31) '\n') = some height) ∧
      computeHeight (List.replicate (2^31) ' ') = some 1 ∧
      ∀ graph : GraphCreator, graph.height = 1 → graph.selectData (List.replicate (2^31) ' ') = none := by
  have rows (n : Nat) (many : 2^31 ≤ n) : computeHeight (List.replicate n '\n') = none :=
    computeHeight_none _ (by rw [getlines_replicate,List.length_replicate]; exact many)
  have wide (n : Nat) (some_space : 0 < n) : getlines (List.replicate n ' ') = [List.replicate n ' '] := by
    refine getlines_single _ (List.ne_nil_of_length_pos (by rwa [List.length_replicate])) fun newline => ?_
    exact absurd (List.eq_of_mem_replicate newline) (by decide)
  have single (n : Nat) (some_space : 0 < n) : computeHeight (List.replicate n ' ') = some 1 := by
    rw [computeHeight,wide n some_space]
    rfl
  have fields (n : Nat) (many : 2^31 ≤ n) (graph : GraphCreator) (height : graph.height = 1) :
      graph.selectData (List.replicate n ' ') = none := by
    have counted := single n (by omega)
    rw [← height] at counted
    refine Option.eq_none_iff_forall_ne_some.mpr fun result selected => ?_
    have narrow := (selectData_iff graph _ counted).mp ⟨result,selected⟩ (List.replicate n ' ')
      (by rw [wide n (by omega)]; exact List.mem_singleton_self _)
    rw [Narrow,splitOn_length,List.count_replicate_self] at narrow
    omega
  have two : 0 < 2^31 := Nat.two_pow_pos 31
  exact ⟨fun ⟨height,counted⟩ => absurd ((rows _ (Nat.le_refl _)).symm.trans counted) (by simp),
    single _ two,fields _ (Nat.le_refl _)⟩

end ProtocolTests.GraphColumns
