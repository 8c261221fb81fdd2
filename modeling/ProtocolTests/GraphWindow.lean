import ProtocolTests.GraphColumns
import ProtocolTests.Library.Extremes

/-! The extremes that the plotting program keeps of its two columns, and the window that
it exports for the plot. -/
namespace ProtocolTests.GraphWindow
open Library.CString Library.Fields Library.Printf Library.Extremes GraphColumns

def field (col : Int32) (line : Text) : Text := (line.splitOn ' ').getD (col.toInt.toNat - 1) []

def numbers (col : Int32) (file : Text) : List ℚ := (getlines file).map fun line => atof (field col line)

/-- The columns are of decimal numbers. -/
def Numeric (graph : GraphCreator) (file : Text) : Prop :=
  ∀ line ∈ getlines file, unusual (field graph.colA line) = false ∧ unusual (field graph.colB line) = false

instance (graph : GraphCreator) (file : Text) : Decidable (Numeric graph file) := inferInstanceAs (Decidable (∀ _ ∈ _, _))

/-- The extremes after `selectData` are those of the columns, and every point lies in the window. -/
def Framed (graph : GraphCreator) (file : Text) : Prop :=
  ∃ final output, graph.selectData file = some (final,output) ∧
    (IsGreatest {x | x ∈ numbers graph.colA file} final.maxX ∧ IsLeast {x | x ∈ numbers graph.colA file} final.minX) ∧
    (IsGreatest {y | y ∈ numbers graph.colB file} final.maxY ∧ IsLeast {y | y ∈ numbers graph.colB file} final.minY) ∧
    (∀ x ∈ numbers graph.colA file,
      atof final.setGnuplotParams.minX ≤ x ∧ x ≤ atof final.setGnuplotParams.maxX) ∧
    ∀ y ∈ numbers graph.colB file, atof final.setGnuplotParams.minY ≤ y ∧ y ≤ atof final.setGnuplotParams.maxY

/-- No number is negative, one is at most 1000, and the greatest is not so small that a
tenth more, in whole millionths, is less than it. -/
def Fits (column : List ℚ) : Prop :=
  (∀ x ∈ column, 0 ≤ x) ∧ (∃ x ∈ column, x ≤ 1000) ∧
    ∀ top, IsGreatest {x | x ∈ column} top → top ≤ nearest (top * (11/10) * 10^6) / 10^6

theorem update_extremes (graph : GraphCreator) (valueA valueB : ℚ) :
    ((graph.update valueA valueB).maxX = max graph.maxX valueA ∧
      (graph.update valueA valueB).minX = min graph.minX valueA) ∧
    (graph.update valueA valueB).maxY = max graph.maxY valueB ∧
      (graph.update valueA valueB).minY = min graph.minY valueB := by
  rw [max_def_lt,max_def_lt,min_comm graph.minX,min_comm graph.minY,min_def_lt,min_def_lt]
  exact ⟨⟨rfl,rfl⟩,rfl,rfl⟩

theorem scan_extremes (graph : GraphCreator) (rows : List (Text × Text)) :
    ((rows.foldl GraphCreator.scan graph).maxX = (rows.map fun row => atof row.1).foldl max graph.maxX ∧
      (rows.foldl GraphCreator.scan graph).minX = (rows.map fun row => atof row.1).foldl min graph.minX) ∧
    (rows.foldl GraphCreator.scan graph).maxY = (rows.map fun row => atof row.2).foldl max graph.maxY ∧
      (rows.foldl GraphCreator.scan graph).minY = (rows.map fun row => atof row.2).foldl min graph.minY := by
  induction rows generalizing graph with
  | nil => exact ⟨⟨rfl,rfl⟩,rfl,rfl⟩
  | cons row rows ih =>
    obtain ⟨⟨maxX,minX⟩,maxY,minY⟩ := update_extremes graph (atof row.1) (atof row.2)
    simp only [List.foldl_cons,List.map_cons,← maxX,← minX,← maxY,← minY]
    exact ih (graph.scan row)

theorem atof_zero : atof (decimal 0) = 0 := by exact_mod_cast atof_toDigits 0

/-- One axis: the window that is exported for a running maximum from zero. -/
theorem window_iff (column : List ℚ) :
    (IsGreatest {x | x ∈ column} (column.foldl max 0) ∧ IsLeast {x | x ∈ column} (column.foldl min 1000)) ∧
      (∀ x ∈ column, atof (decimal 0) ≤ x ∧ x ≤ atof (fixed (column.foldl max 0 * (11/10)))) ↔ Fits column := by
  have start : 0 ≤ column.foldl max 0 := (foldl_max_isGreatest column 0).2 (Set.mem_insert _ _)
  rw [running_max_iff,running_min_iff,atof_zero,atof_fixed (by linarith)]
  constructor
  · rintro ⟨⟨reached,small⟩,inside⟩
    refine ⟨fun x member => (inside x member).1,small,fun top greatest => ?_⟩
    have same := greatest.unique ((running_max_iff column 0).mpr reached)
    rw [← same] at inside
    exact (inside top greatest.1).2
  · rintro ⟨nonnegative,small,roomy⟩
    obtain ⟨x,member,bound⟩ := small
    have reached : ∃ x ∈ column, 0 ≤ x := ⟨x,member,nonnegative x member⟩
    have greatest := (running_max_iff column 0).mpr reached
    refine ⟨⟨reached,x,member,bound⟩,fun y other => ⟨nonnegative y other,(greatest.2 other).trans (roomy _ greatest)⟩⟩

theorem numbers_eq (col : Int32) (positive : 1 ≤ col) (file : Text) :
    ((getlines file).map fun line => atof (fieldFrom 1 col line)) = numbers col file := by
  rw [numbers]
  apply List.map_congr_left
  intro line _
  rw [fieldFrom_one col positive,field]

theorem created_framed_iff (graph : GraphCreator) (file : Text) (fresh : Created graph file) :
    Framed graph file ↔ (∀ line ∈ getlines file, Narrow line) ∧
      Fits (numbers graph.colA file) ∧ Fits (numbers graph.colB file) := by
  have first : (((getlines file).map graph.row).map fun row => atof row.1) = numbers graph.colA file := by
    rw [List.map_map]
    exact numbers_eq graph.colA fresh.colA file
  have second : (((getlines file).map graph.row).map fun row => atof row.2) = numbers graph.colB file := by
    rw [List.map_map]
    exact numbers_eq graph.colB fresh.colB file
  obtain ⟨⟨maxX,minX⟩,maxY,minY⟩ := scan_extremes graph ((getlines file).map graph.row)
  rw [first,fresh.maxX] at maxX
  rw [first,fresh.minX] at minX
  rw [second,fresh.maxY] at maxY
  rw [second,fresh.minY] at minY
  rw [← window_iff,← window_iff]
  constructor
  · rintro ⟨final,output,selected,extremesX,extremesY,insideX,insideY⟩
    have narrow := (selectData_iff graph file fresh.height).mp ⟨_,selected⟩
    obtain ⟨rfl,rfl⟩ := Prod.mk.inj (Option.some.inj ((selectData_some graph file fresh.height narrow).symm.trans selected))
    simp only [GraphCreator.setGnuplotParams,maxX,minX,maxY,minY] at extremesX extremesY insideX insideY
    exact ⟨narrow,⟨extremesX,insideX⟩,extremesY,insideY⟩
  · rintro ⟨narrow,⟨extremesX,insideX⟩,extremesY,insideY⟩
    refine ⟨_,_,selectData_some graph file fresh.height narrow,?_⟩
    simp only [GraphCreator.setGnuplotParams,maxX,minX,maxY,minY]
    exact ⟨extremesX,extremesY,insideX,insideY⟩

/-- For any file with numeric columns and any two parameters of the menu. -/
theorem framed_iff (file typedA typedB : Text) (graph : GraphCreator)
    (created : GraphCreator.create file typedA typedB = some graph) :
    Numeric graph file → (Framed graph file ↔ (∀ line ∈ getlines file, (line.splitOn ' ').length < 2^31) ∧
      Fits (numbers graph.colA file) ∧ Fits (numbers graph.colB file)) :=
  fun _ => created_framed_iff graph file (create_created created)

/-- The object for the first two parameters. -/
def framesAndTime (height : Int32) : GraphCreator where
  height := height
  colA := 1
  colB := 2
  labelA := "Number of frames".toList
  labelB := "Time [s]".toList

theorem framed_two_rows : Framed (framesAndTime 2) "1 2\n3 4".toList ↔
    (∀ line ∈ getlines "1 2\n3 4".toList, (line.splitOn ' ').length < 2^31) ∧
      Fits (numbers 1 "1 2\n3 4".toList) ∧ Fits (numbers 2 "1 2\n3 4".toList) :=
  framed_iff "1 2\n3 4".toList "1".toList "Time".toList (framesAndTime 2) rfl (by decide)

/-- A column above 1000 has not the minimum that is kept, and a negative point lies outside. -/
theorem unframed :
    (GraphCreator.create "2000 1".toList "1".toList "2".toList = some (framesAndTime 1) ∧
      Numeric (framesAndTime 1) "2000 1".toList ∧ ¬Framed (framesAndTime 1) "2000 1".toList) ∧
    GraphCreator.create "-5 1".toList "1".toList "2".toList = some (framesAndTime 1) ∧
      Numeric (framesAndTime 1) "-5 1".toList ∧ ¬Framed (framesAndTime 1) "-5 1".toList := by
  have large : numbers 1 "2000 1".toList = [2000] := by decide +kernel
  have negative : numbers 1 "-5 1".toList = [-5] := by decide +kernel
  have first : GraphCreator.create "2000 1".toList "1".toList "2".toList = some (framesAndTime 1) := rfl
  have second : GraphCreator.create "-5 1".toList "1".toList "2".toList = some (framesAndTime 1) := rfl
  refine ⟨⟨first,by decide,fun framed => ?_⟩,second,by decide,fun framed => ?_⟩
  · obtain ⟨_,⟨_,⟨x,member,bound⟩,_⟩,_⟩ := (created_framed_iff _ _ (create_created first)).mp framed
    have value : x = 2000 := List.mem_singleton.mp (large ▸ member)
    rw [value] at bound
    exact absurd bound (by norm_num)
  · obtain ⟨_,⟨nonnegative,_⟩,_⟩ := (created_framed_iff _ _ (create_created second)).mp framed
    have bound := nonnegative (-5) (negative ▸ List.mem_singleton_self _)
    exact absurd bound (by norm_num)

end ProtocolTests.GraphWindow
