import ProtocolTests.Library.CString
import Mathlib.Data.List.Basic
import Mathlib.Logic.Function.Basic

/-! Files and directories by their paths, what programs and shell commands do to them, and
shell patterns with one star. Paths start at the current directory, there are no links, and
nothing is protected from being removed. -/
namespace ProtocolTests.Library.FileStore
open CString

inductive Entry
  | file (text : Text)
  | directory
  deriving DecidableEq

/-- The directories that a path leads through. -/
def ancestors (path : Text) : List Text :=
  ((List.range path.length).filter fun i => path[i]? = some '/').map path.take

theorem mem_ancestors {dir path : Text} : dir ∈ ancestors path ↔ ∃ name, path = dir ++ '/' :: name := by
  simp only [ancestors,List.mem_map,List.mem_filter,List.mem_range,decide_eq_true_eq]
  constructor
  · rintro ⟨i,⟨inside,slash⟩,rfl⟩
    obtain ⟨_,here⟩ := List.getElem?_eq_some_iff.mp slash
    refine ⟨path.drop (i+1),?_⟩
    rw [← here,List.getElem_cons_drop,List.take_append_drop]
  · rintro ⟨name,rfl⟩
    exact ⟨dir.length,⟨by simp,by simp⟩,by simp⟩

/-- Nothing lies below a file. `refused` are the paths at which the system lets nobody write. -/
structure Files where
  entry : Text → Option Entry
  refused : Text → Bool
  rooted : ∀ dir name, (entry (dir ++ '/' :: name)).isSome → entry dir = some .directory

namespace Files
variable (files : Files) {path other : Text}

def Placed (path : Text) : Prop := ∀ dir ∈ ancestors path, files.entry dir = some .directory

def Writable (path : Text) : Prop :=
  files.refused path = false ∧ files.entry path ≠ some .directory ∧ files.Placed path

instance : Decidable (files.Placed path) := inferInstanceAs (Decidable (∀ dir ∈ _, _))

instance : Decidable (files.Writable path) := inferInstanceAs (Decidable (_ ∧ _))

theorem rooted_update (placed : files.Placed path) (unused : files.entry path ≠ some .directory) (new : Entry)
    (dir name : Text) (there : (Function.update files.entry path (some new) (dir ++ '/' :: name)).isSome) :
    Function.update files.entry path (some new) dir = some .directory := by
  have above : files.entry dir = some .directory := by
    by_cases same : dir ++ '/' :: name = path
    · exact placed dir (mem_ancestors.mpr ⟨name,same.symm⟩)
    · rw [Function.update_of_ne same] at there
      exact files.rooted dir name there
  have apart : dir ≠ path := by
    rintro rfl
    exact unused above
  rw [Function.update_of_ne apart]
  exact above

/-- A file that cannot be opened for writing stays as it is. -/
def write (path text : Text) : Files :=
  if writable : files.Writable path then
    {files with
      entry := Function.update files.entry path (some (.file text))
      rooted := files.rooted_update writable.2.2 writable.2.1 _}
  else files

def mkdir (path : Text) : Files :=
  if free : (files.refused path = false ∧ files.entry path = none) ∧ files.Placed path then
    {files with
      entry := Function.update files.entry path (some .directory)
      rooted := files.rooted_update free.2 (by rw [free.1.2]; exact (Option.some_ne_none _).symm) _}
  else files

/-- A directory can be opened, but there is nothing to read. -/
def read (path : Text) : Option Text :=
  match files.entry path with
  | some (.file text) => some text
  | some .directory => some []
  | none => none

def contents (path : Text) : Text := (files.read path).getD []

def append (path text : Text) : Files := files.write path (files.contents path ++ text)

def isFile (path : Text) : Bool :=
  match files.entry path with
  | some (.file _) => true
  | _ => false

theorem directory_not_file (here : files.entry path = some .directory) : files.isFile path = false := by
  rw [isFile,here]

/-- `rm` without an option leaves directories alone. -/
def removeFiles (chosen : Text → Bool) : Files where
  entry path := if files.isFile path && chosen path then none else files.entry path
  refused := files.refused
  rooted := by
    intro dir name there
    split at there
    next => cases there
    next =>
      have above := files.rooted dir name there
      rw [files.directory_not_file above]
      exact above

/-- The C function takes an empty directory as well; here it is for files. -/
def remove (path : Text) : Files := files.removeFiles (· = path)

/-- Whole trees are removed: what lies below a chosen path is chosen as well. -/
def removeTree (chosen : Text → Bool) (closed : ∀ dir name, chosen dir = true → chosen (dir ++ '/' :: name) = true) :
    Files where
  entry path := if chosen path then none else files.entry path
  refused := files.refused
  rooted := by
    intro dir name there
    split at there
    next => cases there
    next spared =>
      rw [if_neg fun here => spared (closed dir name here)]
      exact files.rooted dir name there

/-- `rm -rf front*` -/
def removeFront (front : Text) : Files :=
  files.removeTree front.isPrefixOf fun _ _ prefixed =>
    List.isPrefixOf_iff_prefix.mpr ((List.isPrefixOf_iff_prefix.mp prefixed).trans (List.prefix_append _ _))

def under (dir path : Text) : Bool := path = dir || (dir ++ ['/']).isPrefixOf path

/-- `rm -rf dir/` does not take a file for a directory. -/
def removeDirectory (dir : Text) : Files :=
  if files.entry dir = some .directory then
    files.removeTree (under dir) fun path name inside => by
      simp only [under,Bool.or_eq_true,decide_eq_true_eq,List.isPrefixOf_iff_prefix] at inside ⊢
      rcases inside with rfl | below
      · exact .inr (by simp)
      · exact .inr (below.trans (List.prefix_append _ _))
  else files

section frame

@[simp] theorem write_refused (path text : Text) : (files.write path text).refused = files.refused := by
  unfold write
  split <;> rfl

theorem write_same (writable : files.Writable path) (text : Text) : (files.write path text).entry path = some (.file text) := by
  rw [write,dif_pos writable]
  exact Function.update_self ..

theorem write_other (apart : other ≠ path) (text : Text) : (files.write path text).entry other = files.entry other := by
  unfold write
  split
  next => exact Function.update_of_ne apart ..
  next => rfl

theorem write_blocked (blocked : ¬files.Writable path) (text : Text) : files.write path text = files := dif_neg blocked

/-- Writing makes no directory. -/
theorem write_directory {text : Text} (directory : (files.write path text).entry other = some .directory) :
    files.entry other = some .directory := by
  by_cases same : other = path
  · subst same
    by_cases writable : files.Writable other
    · rw [files.write_same writable] at directory
      cases directory
    · rwa [files.write_blocked writable] at directory
  · rwa [files.write_other same] at directory

@[simp] theorem append_refused (path text : Text) : (files.append path text).refused = files.refused :=
  files.write_refused path _

theorem append_same (writable : files.Writable path) (text : Text) :
    (files.append path text).entry path = some (.file (files.contents path ++ text)) := files.write_same writable _

theorem append_other (apart : other ≠ path) (text : Text) : (files.append path text).entry other = files.entry other :=
  files.write_other apart _

@[simp] theorem mkdir_refused (path : Text) : (files.mkdir path).refused = files.refused := by
  unfold mkdir
  split <;> rfl

theorem mkdir_other (apart : other ≠ path) : (files.mkdir path).entry other = files.entry other := by
  unfold mkdir
  split
  next => exact Function.update_of_ne apart ..
  next => rfl

theorem mkdir_same (allowed : files.refused path = false) (free : files.entry path = none) (placed : files.Placed path) :
    (files.mkdir path).entry path = some .directory := by
  rw [mkdir,dif_pos ⟨⟨allowed,free⟩,placed⟩]
  exact Function.update_self ..

theorem mkdir_present (present : (files.entry other).isSome) : (files.mkdir path).entry other = files.entry other := by
  by_cases same : other = path
  · subst same
    rw [mkdir,dif_neg]
    rintro ⟨⟨_,free⟩,_⟩
    rw [free] at present
    cases present
  · exact files.mkdir_other same

theorem mkdir_isFile (here : files.isFile other = false) : (files.mkdir path).isFile other = false := by
  by_cases same : other = path
  · subst same
    unfold mkdir
    split
    next => exact Files.directory_not_file _ (Function.update_self ..)
    next => exact here
  · rwa [isFile,files.mkdir_other same]

theorem contents_eq {text : Text} (same : files.entry path = some (.file text)) : files.contents path = text := by
  rw [contents,read,same]
  rfl

theorem contents_none (nothing : files.entry path = none) : files.contents path = [] := by
  rw [contents,read,nothing]
  rfl

theorem contents_congr {files after : Files} (same : after.entry path = files.entry path) :
    after.contents path = files.contents path := by
  rw [contents,contents,read,read,same]

/-- What removing leaves is what was there. -/
def Shrinks (files after : Files) : Prop :=
  after.refused = files.refused ∧ ∀ path, after.entry path = none ∨ after.entry path = files.entry path

theorem Shrinks.refl : Shrinks files files := ⟨rfl,fun _ => .inr rfl⟩

theorem Shrinks.trans {files middle after : Files} (first : Shrinks files middle) (second : Shrinks middle after) :
    Shrinks files after := by
  refine ⟨second.1.trans first.1,fun path => ?_⟩
  rcases second.2 path with gone | same
  · exact .inl gone
  · rw [same]
    exact first.2 path

theorem Shrinks.entry {files after : Files} (shrinks : Shrinks files after) {entry : Entry}
    (here : after.entry path = some entry) : files.entry path = some entry := by
  rcases shrinks.2 path with gone | same
  · rw [gone] at here
    cases here
  · rwa [← same]

theorem Shrinks.gone {files after : Files} (shrinks : Shrinks files after) (nothing : files.entry path = none) :
    after.entry path = none := by
  rcases shrinks.2 path with gone | same
  · exact gone
  · rwa [same]

theorem removeFiles_shrinks (chosen : Text → Bool) : Shrinks files (files.removeFiles chosen) := by
  refine ⟨rfl,fun path => ?_⟩
  simp only [removeFiles]
  split
  · exact .inl rfl
  · exact .inr rfl

theorem removeTree_shrinks (chosen : Text → Bool) (closed) : Shrinks files (files.removeTree chosen closed) := by
  refine ⟨rfl,fun path => ?_⟩
  simp only [removeTree]
  split
  · exact .inl rfl
  · exact .inr rfl

theorem removeFiles_spared {chosen : Text → Bool} (spared : chosen path = false) :
    (files.removeFiles chosen).entry path = files.entry path := by
  simp [removeFiles,spared]

theorem removeFiles_chosen {chosen : Text → Bool} (here : chosen path = true)
    (plain : files.entry path ≠ some .directory) : (files.removeFiles chosen).entry path = none := by
  simp only [removeFiles,isFile,here,Bool.and_true]
  cases there : files.entry path with
  | none => simp
  | some entry =>
    cases entry with
    | file text => simp
    | directory => exact absurd there plain

theorem remove_other (apart : other ≠ path) : (files.remove path).entry other = files.entry other :=
  files.removeFiles_spared (decide_eq_false apart)

theorem removeFront_chosen {front : Text} (here : front <+: path) : (files.removeFront front).entry path = none :=
  if_pos (List.isPrefixOf_iff_prefix.mpr here)

theorem removeFront_spared {front : Text} (spared : ¬front <+: path) :
    (files.removeFront front).entry path = files.entry path :=
  if_neg fun prefixed => spared (List.isPrefixOf_iff_prefix.mp prefixed)

theorem removeFront_shrinks (front : Text) : Shrinks files (files.removeFront front) := files.removeTree_shrinks _ _

theorem removeDirectory_shrinks (dir : Text) : Shrinks files (files.removeDirectory dir) := by
  unfold removeDirectory
  split
  · exact files.removeTree_shrinks _ _
  · exact .refl files

end frame

theorem placed_top (top : '/' ∉ path) : files.Placed path := by
  intro dir through
  obtain ⟨name,rfl⟩ := mem_ancestors.mp through
  simp at top

/-- A path in a directory of the current directory leads through nothing else. -/
theorem placed_inside {dir name : Text} (top : '/' ∉ dir) (plain : '/' ∉ name) (here : files.entry dir = some .directory) :
    files.Placed (dir ++ '/' :: name) := by
  intro other through
  obtain ⟨rest,same⟩ := mem_ancestors.mp through
  obtain ⟨rfl,_,_⟩ := (List.append_cons_inj_of_notMem top plain).mp same
  exact here

/-- Without a directory nothing can be written below it, and there is nothing. -/
theorem unplaced {dir name : Text} (missing : files.entry dir ≠ some .directory) :
    ¬files.Writable (dir ++ '/' :: name) ∧ files.entry (dir ++ '/' :: name) = none := by
  constructor
  · rintro ⟨_,_,placed⟩
    exact missing (placed dir (mem_ancestors.mpr ⟨name,rfl⟩))
  · cases there : files.entry (dir ++ '/' :: name) with
    | none => rfl
    | some entry => exact absurd (files.rooted dir name (by rw [there]; rfl)) missing

end Files

/-- The name that a match with `front` starts may be a hidden one. -/
def atName (front : Text) : Bool := front = [] ∨ front.getLast? = some '/'

def starred (front back path : Text) : Text := (path.drop front.length).take (path.length - front.length - back.length)

/-- `front*back`: the star stands for any text without a slash, but for no leading dot. -/
def glob (front back path : Text) : Bool :=
  let star := starred front back path
  path = front ++ (star ++ back) ∧ '/' ∉ star ∧ ¬(atName front ∧ (star ++ back).head? = some '.')

theorem glob_match {front back star : Text} (whole : '/' ∉ star)
    (shown : ¬(atName front ∧ (star ++ back).head? = some '.')) : glob front back (front ++ (star ++ back)) = true := by
  have middle : starred front back (front ++ (star ++ back)) = star := by
    have length : (front ++ (star ++ back)).length - front.length - back.length = star.length := by
      simp only [List.length_append]
      omega
    rw [starred,length,List.drop_left,List.take_left]
  simp only [glob,middle,decide_eq_true_eq]
  exact ⟨trivial,whole,shown⟩

theorem glob_front {front back path : Text} (matched : glob front back path = true) : front <+: path := by
  simp only [glob,decide_eq_true_eq] at matched
  rw [matched.1]
  exact List.prefix_append _ _

end ProtocolTests.Library.FileStore
