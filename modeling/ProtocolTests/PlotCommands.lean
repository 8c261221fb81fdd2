import ProtocolTests.Library.Marks
import ProtocolTests.PlotMenu

/-! What gnuplot is told in the end: the script with the exported variables in their places. -/
namespace ProtocolTests.PlotCommands
open Library.CString Library.Endings Library.Marks PlotMenu

/-- The part of the action about one file. -/
def clause (colA colB file : Text) : Text :=
  ' ' :: quoted file ++ " using ".toList ++ colA ++ ':' :: colB ++ " title ".toList ++ quoted file ++ [',']

def solidAction (colA colB colC file : Text) : Text :=
  "splot ".toList ++ quoted file ++ " using ".toList ++ colA ++ ':' :: colB ++ ':' :: colC ++ " title ".toList ++ quoted file

def setOutput : Text := " set term png\n set output ".toList

def setXlabel : Text := "\n set xlabel ".toList

def setYlabel : Text := "\n set ylabel ".toList

def setZlabel : Text := "\n set zlabel ".toList

def rotate : Text := " rotate parallel".toList

def setGrid : Text := "\n set grid\n set key above\n ".toList

/-- The here-documents of `PLOT2D` and `PLOT3D`, as the shell expands them. The marks around
a variable are part of the text. -/
def script (graph : NSplot) : Text :=
  setOutput ++ quoted graph.output ++ setXlabel ++ quoted graph.labelA ++ setYlabel ++ quoted graph.labelB ++
    (if graph.dimensions = 3 then setZlabel ++ quoted graph.labelC ++ rotate else []) ++ setGrid ++ graph.action ++ ['\n']

/-- What gnuplot reads, where the program comes to start it. -/
def plot (argv : List Text) (valid : Text → Bool) (typed : List Text) : Ending Message Text := do
  let graph ← main argv valid typed
  return script graph

/-- The data files among the arguments. -/
def files (argv : List Text) : List Text := (argv.drop 2).dropLast

theorem row_existing {column : Text} (existing : Existing column) :
    ∃ row ∈ parameters, row? ((atoi column).toInt - 1) = some row := by
  have size : parameters.length = 13 := by decide
  obtain ⟨lower,upper⟩ := existing
  have inside : ((atoi column).toInt - 1).toNat < parameters.length := by omega
  refine ⟨_,List.getElem_mem inside,?_⟩
  rw [row?,if_pos (by omega),List.getElem?_eq_getElem inside]

theorem setLabel_done (column made : Text) : setLabel column = .done made ↔ Existing column ∧ made = label column := by
  have size : parameters.length = 13 := by decide
  rw [setLabel,bind_done]
  simp only [need_done]
  constructor
  · rintro ⟨row,found,same⟩
    have written := Ending.done.inj same
    rw [label,found,Option.getD_some]
    refine ⟨?_,written.symm⟩
    unfold row? at found
    split at found
    next lower =>
      have upper := (List.getElem?_eq_some_iff.mp found).1
      exact ⟨by omega,by omega⟩
    next => cases found
  · rintro ⟨existing,rfl⟩
    obtain ⟨row,_,found⟩ := row_existing existing
    exact ⟨row,found,by rw [label,found]; rfl⟩

theorem selectColumns_done (graph final : NSplot) (typed : List Text) :
    graph.selectColumns (some typed) = .done final ↔
      (Existing (typed.getD 0 []) ∧ Existing (typed.getD 1 []) ∧
        (graph.dimensions = 3 → Existing (typed.getD 2 []))) ∧
      final = {graph with
        colA := typed.getD 0 []
        colB := typed.getD 1 []
        colC := if graph.dimensions = 3 then typed.getD 2 [] else graph.colC
        labelA := label (typed.getD 0 [])
        labelB := label (typed.getD 1 [])
        labelC := if graph.dimensions = 3 then label (typed.getD 2 []) else graph.labelC} := by
  rw [NSplot.selectColumns]
  rcases typed with _ | ⟨first,_ | ⟨second,rest⟩⟩
  · simp [getline,bind_done,setLabel_done,nothing_existing]
  · simp [getline,bind_done,setLabel_done,nothing_existing]
  · by_cases solid : graph.dimensions = 3
    · cases rest with
      | nil => simp [getline,bind_done,setLabel_done,nothing_existing,solid]
      | cons third rest => simp [getline,bind_done,setLabel_done,solid,and_assoc,pure_done]
    · simp [getline,bind_done,setLabel_done,solid,and_assoc,pure_done]

def adding (graph : NSplot) (file : Text) : NSplot :=
  {graph with action := graph.action ++ clause graph.colA graph.colB file}

def only (graph : NSplot) (file : Text) : NSplot :=
  {graph with action := solidAction graph.colA graph.colB graph.colC file}

theorem setAction_eq (valid : Text → Bool) (graph : NSplot) (file : Text) : graph.setAction valid file =
    if valid file = false then .exit .FNF_ERR_MSG
    else if graph.dimensions = 2 then .done (adding graph file)
    else if graph.dimensions = 3 then .done (only graph file)
    else .exit .DIM_ERR_MSG := by
  have same : adding graph file = {graph with
      action := graph.action ++ ' ' :: quoted file ++ " using ".toList ++ graph.colA ++ ':' :: graph.colB ++
        " title ".toList ++ quoted file ++ [',']} := by
    simp only [adding,clause,List.append_assoc,List.cons_append]
  rw [same]
  rfl

theorem foldl_adding (data : List Text) (graph : NSplot) : data.foldl adding graph =
    {graph with action := graph.action ++ data.flatMap (clause graph.colA graph.colB)} := by
  induction data generalizing graph with
  | nil => simp
  | cons file data ih =>
    rw [List.foldl_cons,ih]
    simp only [adding,List.flatMap_cons,List.append_assoc]

/-- In two dimensions every file adds its part of the action. -/
theorem setActions_flat (valid : Text → Bool) (data : List Text) (graph final : NSplot) (flat : graph.dimensions = 2) :
    data.foldlM (fun graph file => graph.setAction valid file) graph = .done final ↔
      (∀ file ∈ data, valid file = true) ∧ final = data.foldl adding graph := by
  induction data generalizing graph with
  | nil => simp [pure_done]
  | cons file data ih =>
    rw [List.foldlM_cons,setAction_eq,List.forall_mem_cons,List.foldl_cons]
    cases opens : valid file with
    | false => simp [bind_done]
    | true =>
      rw [if_neg (by decide),if_pos flat,bind_done]
      have later := ih (adding graph file) flat
      constructor
      · rintro ⟨next,here,rest⟩
        obtain rfl := Ending.done.inj here
        have both := later.mp rest
        exact ⟨⟨rfl,both.1⟩,both.2⟩
      · rintro ⟨⟨_,others⟩,same⟩
        exact ⟨_,rfl,later.mpr ⟨others,same⟩⟩

theorem setActions_solid (valid : Text → Bool) (file : Text) (graph final : NSplot) (solid : graph.dimensions = 3) :
    [file].foldlM (fun graph file => graph.setAction valid file) graph = .done final ↔
      valid file = true ∧ final = only graph file := by
  rw [List.foldlM_cons,setAction_eq]
  cases valid file with
  | false => simp [bind_done]
  | true =>
    rw [if_neg (by decide),if_neg (by omega),if_pos solid,bind_done]
    constructor
    · rintro ⟨next,here,rest⟩
      obtain rfl := Ending.done.inj here
      exact ⟨rfl,(pure_done _ _).mp rest⟩
    · rintro ⟨_,same⟩
      exact ⟨_,rfl,(pure_done _ _).mpr same⟩

/-- The object behind the prompts. -/
def chosen (out dim : Text) (typed : List Text) : NSplot where
  output := out
  dimensions := axes dim
  colA := typed.getD 0 []
  colB := typed.getD 1 []
  colC := if axes dim = 3 then typed.getD 2 [] else unset
  labelA := label (typed.getD 0 [])
  labelB := label (typed.getD 1 [])
  labelC := if axes dim = 3 then label (typed.getD 2 []) else []

theorem create_done (out dim : Text) (typed : List Text) (graph : NSplot) :
    NSplot.create out dim typed = .done graph ↔
      (dim = flag2d ∨ dim = flag3d) ∧ (∀ n < axes dim, Existing (typed.getD n [])) ∧ graph = chosen out dim typed := by
  have apart : flag3d ≠ flag2d := by decide
  rw [NSplot.create]
  by_cases flat : dim = flag2d
  · have two : axes dim = 2 := if_pos flat
    rw [if_pos flat,selectColumns_done,two,below_axes (Or.inl rfl) fun n => Existing (typed.getD n []),chosen,two]
    simp [flat]
  · by_cases solid : dim = flag3d
    · have three : axes dim = 3 := by rw [axes,if_neg flat,if_pos solid]
      rw [if_neg flat,if_pos solid,selectColumns_done,three,
        below_axes (Or.inr rfl) fun n => Existing (typed.getD n []),chosen,three]
      simp [solid]
    · rw [if_neg flat,if_neg solid]
      simp [flat,solid]

/-- What has to hold for the arguments, the typed lines and the files to get to gnuplot. -/
structure Startable (argv : List Text) (valid : Text → Bool) (typed : List Text) (out dim : Text) : Prop where
  help : out ≠ helpFlag
  flat_or_solid : dim = flag2d ∨ dim = flag3d ∧ argv.length = 4
  columns : ∀ n < axes dim, Existing (typed.getD n [])
  opened : ∀ file ∈ files argv, valid file = true

/-- The object after the loop over the files. -/
def drawn (argv : List Text) (typed : List Text) (out dim : Text) : NSplot :=
  (files argv).foldl (if dim = flag3d then only else adding) (chosen out dim typed)

theorem axes_flat : axes flag2d = 2 := by decide

theorem axes_solid : axes flag3d = 3 := by decide

theorem chosen_flat (out : Text) (typed : List Text) : (chosen out flag2d typed).dimensions = 2 :=
  congrArg Int.ofNat axes_flat

theorem chosen_solid (out : Text) (typed : List Text) : (chosen out flag3d typed).dimensions = 3 :=
  congrArg Int.ofNat axes_solid

theorem flags_apart : flag3d ≠ flag2d := by decide

theorem files_single {argv : List Text} (four : argv.length = 4) : ∃ file, files argv = [file] := by
  apply List.length_eq_one_iff.mp
  rw [files,List.length_dropLast,List.length_drop]
  omega

theorem main_done {argv : List Text} (valid : Text → Bool) (typed : List Text) {out dim : Text} (graph : NSplot)
    (first : argv[1]? = some out) (last : argv.getLast? = some dim) :
    main argv valid typed = .done graph ↔ Startable argv valid typed out dim ∧ graph = drawn argv typed out dim := by
  have two := (List.getElem?_eq_some_iff.mp first).1
  rw [List.getLast?_eq_getElem?] at last
  rw [main,first,last]
  by_cases help : out = helpFlag
  · refine iff_of_false (fun ran => ?_) fun both => both.1.help help
    rw [bind_done] at ran
    obtain ⟨_,same,ran⟩ := ran
    obtain rfl := Ending.done.inj same
    rw [if_pos help] at ran
    cases ran
  · have start : (need (some out) : Ending Message Text) = .done out := rfl
    have stop : (need (some dim) : Ending Message Text) = .done dim := rfl
    simp only [bind_done,start,stop,Ending.done.injEq,exists_eq_left',help,if_false,show argv.length ≠ 1 by omega,
      create_done]
    constructor
    · rintro ⟨_,⟨_,columns,rfl⟩,final,looped,ending⟩
      by_cases flat : dim = flag2d
      · subst flat
        rw [if_pos rfl,pure_done] at ending
        obtain ⟨opened,made⟩ := (setActions_flat valid _ _ _ (chosen_flat out typed)).mp looped
        exact ⟨⟨help,Or.inl rfl,columns,opened⟩,by rw [ending,made,drawn,if_neg flags_apart.symm]; rfl⟩
      · rw [if_neg flat] at ending
        by_cases solid : dim = flag3d
        · subst solid
          by_cases four : argv.length = 4
          · simp only [if_true,four,ne_eq,not_true_eq_false,if_false,pure_done] at ending
            obtain ⟨file,single⟩ := files_single four
            rw [show (argv.drop 2).dropLast = [file] from single] at looped
            obtain ⟨opens,made⟩ := (setActions_solid valid file _ _ (chosen_solid out typed)).mp looped
            refine ⟨⟨help,Or.inr ⟨rfl,four⟩,columns,?_⟩,?_⟩
            · rw [single]
              exact List.forall_mem_singleton.mpr opens
            · rw [ending,made,drawn,single,if_pos rfl]
              rfl
          · simp [four] at ending
        · simp [solid] at ending
    · rintro ⟨⟨_,flat_or_solid,columns,opened⟩,rfl⟩
      refine ⟨chosen out dim typed,⟨flat_or_solid.imp_right And.left,columns,rfl⟩,drawn argv typed out dim,?_⟩
      rcases flat_or_solid with rfl | ⟨rfl,four⟩
      · refine ⟨(setActions_flat valid _ _ _ (chosen_flat out typed)).mpr ⟨opened,?_⟩,?_⟩
        · rw [drawn,if_neg flags_apart.symm]
          rfl
        · rw [if_pos rfl]
          rfl
      · obtain ⟨file,single⟩ := files_single four
        rw [single] at opened
        refine ⟨?_,?_⟩
        · rw [show (argv.drop 2).dropLast = [file] from single]
          refine (setActions_solid valid file _ _ (chosen_solid out typed)).mpr ⟨opened file (by simp),?_⟩
          rw [drawn,single,if_pos rfl]
          rfl
        · simp only [flags_apart,if_false,if_true,four,ne_eq,not_true_eq_false,pure_done]

/-- The texts that the script should have between its marks. -/
def named (data : List Text) (typed : List Text) (out dim : Text) : List Text :=
  out :: (List.range (axes dim)).map (fun n => label (typed.getD n [])) ++ data.flatMap fun file => [file,file]

def prelude (typed : List Text) (out dim : Text) : List (Segment Char) :=
  [.plain setOutput,.part out,.plain setXlabel,.part (label (typed.getD 0 [])),.plain setYlabel,
    .part (label (typed.getD 1 []))] ++
  (if dim = flag3d then [.plain setZlabel,.part (label (typed.getD 2 [])),.plain rotate] else []) ++ [.plain setGrid]

def plotWord : Text := "plot ".toList

def flatSegments (colA colB file : Text) : List (Segment Char) :=
  [.plain [' '],.part file,.plain " using ".toList,.plain colA,.plain [':'],.plain colB,.plain " title ".toList,
    .part file,.plain [',']]

def solidSegments (colA colB colC file : Text) : List (Segment Char) :=
  [.plain "splot ".toList,.part file,.plain " using ".toList,.plain colA,.plain [':'],.plain colB,.plain [':'],
    .plain colC,.plain " title ".toList,.part file]

def drawing (data : List Text) (typed : List Text) (dim : Text) : List (Segment Char) :=
  if dim = flag3d then data.flatMap (solidSegments (typed.getD 0 []) (typed.getD 1 []) (typed.getD 2 []))
  else .plain plotWord :: data.flatMap (flatSegments (typed.getD 0 []) (typed.getD 1 []))

theorem marked_append (first second : List (Segment Char)) :
    marked '\'' (first ++ second) = marked '\'' first ++ marked '\'' second := by
  induction first with
  | nil => rfl
  | cons segment first ih => cases segment <;> simp [marked,ih]

theorem parts_append (first second : List (Segment Char)) : parts (first ++ second) = parts first ++ parts second := by
  induction first with
  | nil => rfl
  | cons segment first ih => cases segment <;> simp [parts,ih]

theorem marked_flat (colA colB : Text) (data : List Text) :
    marked '\'' (data.flatMap (flatSegments colA colB)) = data.flatMap (clause colA colB) := by
  induction data with
  | nil => rfl
  | cons file data ih =>
    rw [List.flatMap_cons,marked_append,ih,List.flatMap_cons]
    simp [flatSegments,marked,clause,quoted]

theorem marked_solid (colA colB colC file : Text) :
    marked '\'' (solidSegments colA colB colC file) = solidAction colA colB colC file := by
  unfold solidSegments solidAction
  simp only [marked,quoted,List.append_assoc,List.cons_append,List.nil_append]

theorem script_prelude (typed : List Text) {out dim : Text} (flat_or_solid : dim = flag2d ∨ dim = flag3d) (action : Text) :
    script {chosen out dim typed with action := action} = marked '\'' (prelude typed out dim) ++ (action ++ ['\n']) := by
  unfold script prelude
  rw [marked_append,marked_append]
  rcases flat_or_solid with rfl | rfl
  · have two : (chosen out flag2d typed).dimensions ≠ 3 := by rw [chosen_flat]; decide
    simp only [two,flags_apart.symm,if_false,marked,quoted,List.append_assoc,List.cons_append,List.nil_append,
      List.append_nil]
    rfl
  · have solid : (chosen out flag3d typed).labelC = label (typed.getD 2 []) := by
      simp only [chosen,axes_solid,if_true]
    simp only [chosen_solid,solid,if_true,marked,quoted,List.append_assoc,List.cons_append,List.nil_append,List.append_nil]
    rfl

def segments (data : List Text) (typed : List Text) (out dim : Text) : List (Segment Char) :=
  prelude typed out dim ++ (drawing data typed dim ++ [.plain ['\n']])

theorem script_marked {argv : List Text} {valid : Text → Bool} {typed : List Text} {out dim : Text}
    (startable : Startable argv valid typed out dim) :
    script (drawn argv typed out dim) = marked '\'' (segments (files argv) typed out dim) := by
  rw [segments,marked_append,marked_append,drawn,drawing]
  rcases startable.flat_or_solid with rfl | ⟨rfl,four⟩
  · rw [if_neg flags_apart.symm,if_neg flags_apart.symm,foldl_adding,script_prelude typed (Or.inl rfl),marked,marked_flat]
    rfl
  · obtain ⟨file,single⟩ := files_single four
    have columns : (chosen out flag3d typed).colC = typed.getD 2 [] := by simp only [chosen,axes_solid,if_true]
    rw [single,if_pos rfl,if_pos rfl,List.foldl_cons,List.foldl_nil,only,script_prelude typed (Or.inr rfl),columns,
      List.flatMap_cons,List.flatMap_nil,List.append_nil,marked_solid]
    rfl

theorem parts_flat (colA colB : Text) (data : List Text) :
    parts (data.flatMap (flatSegments colA colB)) = data.flatMap fun file => [file,file] := by
  induction data with
  | nil => rfl
  | cons file data ih =>
    rw [List.flatMap_cons,parts_append,ih,List.flatMap_cons]
    rfl

theorem parts_segments {argv : List Text} {valid : Text → Bool} {typed : List Text} {out dim : Text}
    (startable : Startable argv valid typed out dim) :
    parts (segments (files argv) typed out dim) = named (files argv) typed out dim := by
  rw [segments,parts_append,parts_append,prelude,parts_append,parts_append,drawing,named]
  rcases startable.flat_or_solid with rfl | ⟨rfl,four⟩
  · have later : parts (.plain plotWord :: (files argv).flatMap (flatSegments (typed.getD 0 []) (typed.getD 1 []))) =
        (files argv).flatMap fun file => [file,file] := parts_flat _ _ _
    rw [if_neg flags_apart.symm,if_neg flags_apart.symm,axes_flat,later]
    simp [parts,List.range_succ]
  · obtain ⟨file,single⟩ := files_single four
    rw [single,if_pos rfl,if_pos rfl,axes_solid]
    rfl

theorem label_clean {column : Text} (existing : Existing column) : '\'' ∉ label column := by
  have table : ∀ row ∈ parameters, '\'' ∉ row.1 ++ ' ' :: row.2 := by decide
  obtain ⟨row,member,found⟩ := row_existing existing
  rw [label,found]
  exact table row member

theorem flatSegments_clean (colA colB file : Text) :
    (∀ segment ∈ flatSegments colA colB file, '\'' ∉ segment.content) ↔ '\'' ∉ file ∧ '\'' ∉ colA ∧ '\'' ∉ colB := by
  have words : '\'' ∉ [' '] ∧ '\'' ∉ " using ".toList ∧ '\'' ∉ [':'] ∧ '\'' ∉ " title ".toList ∧ '\'' ∉ [','] := by
    decide
  unfold flatSegments
  simp only [List.forall_mem_cons,content_plain,content_part,words,not_false_eq_true,true_and,List.not_mem_nil,false_imp_iff,
    implies_true,and_true]
  exact ⟨fun all => ⟨all.1,all.2.1,all.2.2.1⟩,fun all => ⟨all.1,all.2.1,all.2.2,all.1⟩⟩

theorem solidSegments_clean (colA colB colC file : Text) :
    (∀ segment ∈ solidSegments colA colB colC file, '\'' ∉ segment.content) ↔
      '\'' ∉ file ∧ '\'' ∉ colA ∧ '\'' ∉ colB ∧ '\'' ∉ colC := by
  have words : '\'' ∉ "splot ".toList ∧ '\'' ∉ " using ".toList ∧ '\'' ∉ [':'] ∧ '\'' ∉ " title ".toList := by decide
  unfold solidSegments
  simp only [List.forall_mem_cons,content_plain,content_part,words,not_false_eq_true,true_and,List.not_mem_nil,false_imp_iff,
    implies_true,and_true]
  exact ⟨fun all => ⟨all.1,all.2.1,all.2.2.1,all.2.2.2.1⟩,fun all => ⟨all.1,all.2.1,all.2.2.1,all.2.2.2,all.1⟩⟩

/-- The marks that matter are those of the arguments and of the columns as they were typed. -/
theorem segments_clean {argv : List Text} {valid : Text → Bool} {typed : List Text} {out dim : Text}
    (startable : Startable argv valid typed out dim) :
    (∀ segment ∈ segments (files argv) typed out dim, '\'' ∉ segment.content) ↔
      '\'' ∉ out ∧ ∀ file ∈ files argv, '\'' ∉ file ∧ ∀ n < axes dim, '\'' ∉ typed.getD n [] := by
  have clean : '\'' ∉ setOutput ∧ '\'' ∉ setXlabel ∧ '\'' ∉ setYlabel ∧ '\'' ∉ setZlabel ∧ '\'' ∉ rotate ∧
      '\'' ∉ setGrid ∧ '\'' ∉ plotWord ∧ '\'' ∉ ['\n'] := by decide
  obtain ⟨_,flat_or_solid,columns,_⟩ := startable
  have labels : ∀ n < axes dim, '\'' ∉ label (typed.getD n []) := fun n axis => label_clean (columns n axis)
  unfold segments prelude drawing
  rcases flat_or_solid with rfl | ⟨rfl,four⟩
  · rw [axes_flat] at labels
    simp only [flags_apart.symm,if_false,List.forall_mem_append,List.forall_mem_cons,content_plain,content_part,clean,
      labels 0 (by decide),labels 1 (by decide),List.forall_mem_flatMap,flatSegments_clean,axes_flat,
      below_axes (Or.inl rfl) fun n => '\'' ∉ typed.getD n []]
    simp
  · obtain ⟨file,single⟩ := files_single four
    rw [axes_solid] at labels
    simp only [if_true,single,List.forall_mem_append,List.forall_mem_cons,content_plain,content_part,clean,
      labels 0 (by decide),labels 1 (by decide),labels 2 (by decide),List.forall_mem_flatMap,solidSegments_clean,axes_solid,
      below_axes (Or.inr rfl) fun n => '\'' ∉ typed.getD n []]
    simp

theorem plot_done {argv : List Text} (valid : Text → Bool) (typed : List Text) {out dim : Text} (text : Text)
    (first : argv[1]? = some out) (last : argv.getLast? = some dim) :
    plot argv valid typed = .done text ↔
      Startable argv valid typed out dim ∧ text = marked '\'' (segments (files argv) typed out dim) := by
  rw [plot,bind_done]
  simp only [main_done valid typed _ first last,pure_done]
  constructor
  · rintro ⟨_,⟨startable,rfl⟩,rfl⟩
    exact ⟨startable,script_marked startable⟩
  · rintro ⟨startable,rfl⟩
    exact ⟨_,⟨startable,rfl⟩,(script_marked startable).symm⟩

/-- What starts gnuplot, and when its script has exactly the intended texts between its marks. -/
theorem plot_names {argv : List Text} (valid : Text → Bool) (typed : List Text) {out dim : Text}
    (first : argv[1]? = some out) (last : argv.getLast? = some dim) :
    ((∃ text, plot argv valid typed = .done text) ↔ Startable argv valid typed out dim) ∧
      ∀ text, plot argv valid typed = .done text →
        (inside '\'' text = named (files argv) typed out dim ↔
          '\'' ∉ out ∧ ∀ file ∈ files argv, '\'' ∉ file ∧ ∀ n < axes dim, '\'' ∉ typed.getD n []) := by
  constructor
  · constructor
    · rintro ⟨text,started⟩
      exact ((plot_done valid typed text first last).mp started).1
    · intro startable
      exact ⟨_,(plot_done valid typed _ first last).mpr ⟨startable,rfl⟩⟩
  · intro text started
    obtain ⟨startable,rfl⟩ := (plot_done valid typed text first last).mp started
    rw [← parts_segments startable,inside_marked_iff,segments_clean startable]

def plotArguments : List Text := ["NSplot".toList,"out.png".toList,"tcp_simtotal.dat".toList,"user's.dat".toList,flag2d]

def plotColumns : List Text := ["5".toList,"8".toList]

/-- With an apostrophe in the name of a file other parts are between the marks. -/
theorem plot_names_apostrophe : ∃ text, plot plotArguments (fun _ => true) plotColumns = .done text ∧
    inside '\'' text ≠ named (files plotArguments) plotColumns "out.png".toList flag2d := by
  have startable : Startable plotArguments (fun _ => true) plotColumns "out.png".toList flag2d :=
    ⟨by decide,Or.inl rfl,by decide,fun _ _ => rfl⟩
  have names := plot_names (fun _ => true) plotColumns (show plotArguments[1]? = some "out.png".toList by decide)
    (show plotArguments.getLast? = some flag2d by decide)
  obtain ⟨text,started⟩ := names.1.mpr startable
  refine ⟨text,started,fun same => ?_⟩
  have clean := (names.2 text started).mp same
  exact absurd (clean.2 "user's.dat".toList (by decide)).1 (by decide)

end ProtocolTests.PlotCommands
