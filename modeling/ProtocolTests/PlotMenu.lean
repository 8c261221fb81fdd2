import ProtocolTests.Library.CString
import ProtocolTests.Library.Endings

/-! The plotting program for several files, from its arguments to the commands it leaves for
gnuplot. An argument that is not there and a row outside the table of parameters are undefined. -/
namespace ProtocolTests.PlotMenu
open Library.CString Library.Endings

/-- The error and help functions, which all end the program. -/
inductive Message
  | DIM_ERR_MSG
  | FNF_ERR_MSG
  | HLP_MSG
  | ARG_ERR_MSG
  deriving DecidableEq

def parameters : List (Text × Text) := [
  ("Frames".toList,[]),("Transmission time".toList,"[s]".toList),("Data with headers".toList,"[MB]".toList),
  ("Data no headers".toList,"[MB]".toList),("Data expected".toList,"[MB]".toList),
  ("Data percentage".toList,"[%]".toList),("Data loss".toList,"[%]".toList),
  ("Transmission speed".toList,"[Mbytes/s]".toList),("Avg. frame size".toList,"[bytes]".toList),
  ("Data chunks".toList,[]),("Avg chunk size".toList,"[bytes]".toList),("Clients".toList,[]),
  ("Streams/sockets per client".toList,[])]

/-- The character -1 that the constructor puts into the three columns. -/
def unset : Text := ['\xff']

structure NSplot where
  colA : Text := unset
  colB : Text := unset
  colC : Text := unset
  labelA : Text := []
  labelB : Text := []
  labelC : Text := []
  action : Text := "plot ".toList
  output : Text
  dimensions : Int

/-- `getline(cin, target)`: the first call at the end of the lines leaves an empty string,
and the later ones leave the target as it is. -/
def getline (input : Option (List Text)) (target : Text) : Text × Option (List Text) :=
  match input with
  | some (line :: rest) => (line,some rest)
  | some [] => ([],none)
  | none => (target,none)

def row? (index : Int) : Option (Text × Text) := if 0 ≤ index then parameters[index.toNat]? else none

/-- The name printed for the chosen axis is that of the same row. -/
def setLabel (column : Text) : Ending Message Text := do
  let row ← need (row? ((atoi column).toInt - 1))
  return row.1 ++ ' ' :: row.2

def NSplot.selectColumns (graph : NSplot) (input : Option (List Text)) : Ending Message NSplot := do
  let (colA,input) := getline input graph.colA
  let labelA ← setLabel colA
  let (colB,input) := getline input graph.colB
  let labelB ← setLabel colB
  let graph := {graph with colA := colA,labelA := labelA,colB := colB,labelB := labelB}
  if graph.dimensions = 3 then
    let colC := (getline input graph.colC).1
    let labelC ← setLabel colC
    return {graph with colC := colC,labelC := labelC}
  else return graph

def flag2d : Text := "-2d".toList

def flag3d : Text := "-3d".toList

def helpFlag : Text := "-help".toList

/-- The constructor, with the lines that are typed at the prompts. -/
def NSplot.create (out dim : Text) (typed : List Text) : Ending Message NSplot :=
  if dim = flag2d then NSplot.selectColumns {output := out,dimensions := 2} (some typed)
  else if dim = flag3d then NSplot.selectColumns {output := out,dimensions := 3} (some typed)
  else .exit .DIM_ERR_MSG

def quoted (file : Text) : Text := '\'' :: file ++ ['\'']

/-- `valid` says which files can be opened. -/
def NSplot.setAction (graph : NSplot) (valid : Text → Bool) (nextFile : Text) : Ending Message NSplot :=
  if valid nextFile = false then .exit .FNF_ERR_MSG
  else if graph.dimensions = 2 then
    return {graph with
      action := graph.action ++ ' ' :: quoted nextFile ++ " using ".toList ++ graph.colA ++ ':' :: graph.colB ++
        " title ".toList ++ quoted nextFile ++ [',']}
  else if graph.dimensions = 3 then
    return {graph with
      action := "splot ".toList ++ quoted nextFile ++ " using ".toList ++ graph.colA ++ ':' :: graph.colB ++
        ':' :: graph.colC ++ " title ".toList ++ quoted nextFile}
  else .exit .DIM_ERR_MSG

/-- The object whose labels, action and output are exported before gnuplot is started. -/
def main (argv : List Text) (valid : Text → Bool) (typed : List Text) : Ending Message NSplot := do
  let first ← need argv[1]?
  if first = helpFlag then .exit .HLP_MSG
  else if argv.length = 1 then .exit .ARG_ERR_MSG
  else
    let dimension ← need argv[argv.length - 1]?
    let graph ← NSplot.create first dimension typed
    let files := (argv.drop 2).dropLast
    let graph ← files.foldlM (fun graph file => graph.setAction valid file) graph
    if dimension = flag2d then return graph
    else if dimension = flag3d then
      if argv.length ≠ 4 then .exit .DIM_ERR_MSG else return graph
    else .exit .DIM_ERR_MSG

def Existing (column : Text) : Prop := 1 ≤ (atoi column).toInt ∧ (atoi column).toInt ≤ 13

instance (column : Text) : Decidable (Existing column) := inferInstanceAs (Decidable (_ ∧ _))

/-- The axes that the last argument asks for. -/
def axes (dimension : Text) : Nat := if dimension = flag2d then 2 else if dimension = flag3d then 3 else 0

/-- Every axis of the requested dimension has a column of the table. -/
def Selected (dimension : Text) (graph : NSplot) : Prop :=
  graph.dimensions = axes dimension ∧ Existing graph.colA ∧ Existing graph.colB ∧
    (graph.dimensions = 3 → Existing graph.colC)

/-- A label for any column, blank where the table has no row. -/
def label (column : Text) : Text :=
  let row := (row? ((atoi column).toInt - 1)).getD ([],[])
  row.1 ++ ' ' :: row.2

theorem ends_setLabel (column : Text) (wanted : Text → Prop) :
    Ends wanted (setLabel column) ↔ Existing column ∧ wanted (label column) := by
  have size : parameters.length = 13 := by decide
  rw [setLabel,ends_bind,ends_need,label]
  constructor
  · rintro ⟨row,found,holds⟩
    rw [found]
    refine ⟨?_,holds⟩
    unfold row? at found
    split at found
    next lower =>
      have upper := (List.getElem?_eq_some_iff.mp found).1
      exact ⟨by omega,by omega⟩
    next => cases found
  · rintro ⟨⟨lower,upper⟩,holds⟩
    have inside : ((atoi column).toInt - 1).toNat < parameters.length := by omega
    have found : row? ((atoi column).toInt - 1) = some parameters[((atoi column).toInt - 1).toNat] := by
      rw [row?,if_pos (by omega),List.getElem?_eq_getElem inside]
    rw [found] at holds ⊢
    exact ⟨_,rfl,holds⟩

theorem nothing_existing : ¬Existing [] := by decide

/-- With lines for all prompts, the columns of the axes exist; a missing line names none. -/
theorem ends_selectColumns (graph : NSplot) (typed : List Text) (wanted : NSplot → Prop) :
    Ends wanted (graph.selectColumns (some typed)) ↔
      (Existing (typed.getD 0 []) ∧ Existing (typed.getD 1 []) ∧
        (graph.dimensions = 3 → Existing (typed.getD 2 []))) ∧
      wanted {graph with
        colA := typed.getD 0 []
        colB := typed.getD 1 []
        colC := if graph.dimensions = 3 then typed.getD 2 [] else graph.colC
        labelA := label (typed.getD 0 [])
        labelB := label (typed.getD 1 [])
        labelC := if graph.dimensions = 3 then label (typed.getD 2 []) else graph.labelC} := by
  rw [NSplot.selectColumns]
  rcases typed with _ | ⟨first,_ | ⟨second,rest⟩⟩
  · simp [getline,ends_bind,ends_setLabel,nothing_existing]
  · simp [getline,ends_bind,ends_setLabel,nothing_existing]
  · by_cases solid : graph.dimensions = 3
    · cases rest with
      | nil => simp [getline,ends_bind,ends_setLabel,nothing_existing,solid]
      | cons third rest => simp [getline,ends_bind,ends_setLabel,solid,and_assoc]
    · simp [getline,ends_bind,ends_setLabel,solid,and_assoc]

theorem create_cases (out dim : Text) (typed : List Text) :
    (axes dim = 0 ∧ NSplot.create out dim typed = .exit .DIM_ERR_MSG) ∨
      ∃ dimensions : Nat, (dimensions = 2 ∨ dimensions = 3) ∧ axes dim = dimensions ∧
        NSplot.create out dim typed = NSplot.selectColumns {output := out,dimensions := dimensions} (some typed) := by
  rw [NSplot.create,axes]
  split
  next => exact Or.inr ⟨2,Or.inl rfl,rfl,rfl⟩
  next =>
    split
    next => exact Or.inr ⟨3,Or.inr rfl,rfl,rfl⟩
    next => exact Or.inl ⟨rfl,rfl⟩

theorem below_axes {dimensions : Nat} (flat_or_solid : dimensions = 2 ∨ dimensions = 3) (holds : Nat → Prop) :
    (∀ n < dimensions, holds n) ↔ holds 0 ∧ holds 1 ∧ ((dimensions : Int) = 3 → holds 2) := by
  constructor
  · intro all
    exact ⟨all 0 (by omega),all 1 (by omega),fun solid => all 2 (by omega)⟩
  · rintro ⟨first,second,third⟩ n axis
    rcases n with _ | _ | n
    · exact first
    · exact second
    · obtain rfl : n = 0 := by omega
      exact third (by omega)

theorem create_existing (out dim : Text) (typed : List Text) (wanted : NSplot → Prop)
    (ends : Ends wanted (NSplot.create out dim typed)) : ∀ n < axes dim, Existing (typed.getD n []) := by
  rcases create_cases out dim typed with ⟨none_asked,_⟩ | ⟨dimensions,flat_or_solid,asked,made⟩
  · intro n axis
    omega
  · rw [made] at ends
    rw [asked]
    exact (below_axes flat_or_solid fun n => Existing (typed.getD n [])).mpr ((ends_selectColumns _ _ _).mp ends).1

theorem create_selected (out dim : Text) (typed : List Text) (existing : ∀ n < axes dim, Existing (typed.getD n [])) :
    Ends (Selected dim) (NSplot.create out dim typed) := by
  rcases create_cases out dim typed with ⟨_,message⟩ | ⟨dimensions,flat_or_solid,asked,made⟩
  · rw [message]
    trivial
  · rw [asked] at existing
    have columns := (below_axes flat_or_solid fun n => Existing (typed.getD n [])).mp existing
    rw [made]
    apply (ends_selectColumns _ _ _).mpr
    refine ⟨columns,?_,columns.1,columns.2.1,fun solid => ?_⟩
    · rw [asked]
    · simp only [if_pos solid]
      exact columns.2.2 solid

theorem setAction_selected (valid : Text → Bool) (dimension : Text) (graph : NSplot) (nextFile : Text)
    (selected : Selected dimension graph) : Ends (Selected dimension) (graph.setAction valid nextFile) := by
  rw [NSplot.setAction]
  split
  next => trivial
  next =>
    split
    next => exact selected
    next =>
      split
      next => exact selected
      next => trivial

/-- Nothing undefined happens, and without a message every axis gets a column of the table. -/
def Safe (argv : List Text) (valid : Text → Bool) (typed : List Text) : Prop :=
  Ends (Selected (argv.getLast?.getD [])) (main argv valid typed)

/-- The program is safe exactly if it has an argument, and that asks for help, or each axis
that the last argument stands for gets a number from 1 to 13. -/
theorem safe_iff (argv : List Text) (valid : Text → Bool) (typed : List Text) : Safe argv valid typed ↔
    2 ≤ argv.length ∧ (argv[1]? = some helpFlag ∨
      ∀ n < axes (argv.getLast?.getD []), Existing (typed.getD n [])) := by
  rw [Safe,main,ends_bind,ends_need]
  constructor
  · rintro ⟨first,found,ends⟩
    have two := (List.getElem?_eq_some_iff.mp found).1
    refine ⟨two,?_⟩
    by_cases help : first = helpFlag
    · exact Or.inl (help ▸ found)
    · rw [if_neg help,if_neg (by omega),ends_bind,ends_need] at ends
      obtain ⟨dimension,last,ends⟩ := ends
      rw [ends_bind] at ends
      rw [List.getLast?_eq_getElem?,last]
      exact Or.inr (create_existing first dimension typed _ ends)
  · rintro ⟨two,condition⟩
    have found : argv[1]? = some argv[1] := List.getElem?_eq_getElem _
    refine ⟨argv[1],found,?_⟩
    split
    next => trivial
    next help =>
      rw [if_neg (by omega),ends_bind,ends_need]
      have last : argv[argv.length - 1]? = some argv[argv.length - 1] := List.getElem?_eq_getElem (by omega)
      rw [List.getLast?_eq_getElem?,last,Option.getD_some] at condition ⊢
      refine ⟨_,rfl,?_⟩
      have existing := condition.resolve_left fun asked => help (Option.some.inj (found.symm.trans asked))
      rw [ends_bind]
      refine ends_mono (create_selected _ _ typed existing) fun graph selected => ?_
      rw [ends_bind]
      refine ends_mono (ends_foldlM _ _ (setAction_selected valid _) _ graph selected) fun final kept => ?_
      split
      next => exact kept
      next =>
        split
        next =>
          split
          next => trivial
          next => exact kept
        next => trivial

/-- Without an argument the first one is read all the same, and column 0 is before the table. -/
theorem unsafe_runs : ¬Safe ["NSplot".toList] (fun _ => true) [] ∧
    ¬Safe ["NSplot".toList,"out.png".toList,"data".toList,"-2d".toList] (fun _ => true) ["0".toList,"1".toList] := by
  have missing : main ["NSplot".toList] (fun _ => true) [] = .undefined := rfl
  have before : main ["NSplot".toList,"out.png".toList,"data".toList,"-2d".toList] (fun _ => true)
      ["0".toList,"1".toList] = .undefined := rfl
  rw [Safe,Safe,missing,before]
  exact ⟨id,id⟩

end ProtocolTests.PlotMenu
