import Cordon.Lib.Text
import Mathlib.Data.List.Nodup
import Mathlib.Data.List.Sort
import Mathlib.Logic.Function.Basic

/-!
# The audit directory

A directory is a list of distinct file names, a content for each, and whether the writer lock is
held. Files are opened for **appending**: opening creates a missing file and leaves an existing one
as it is, and bytes are only ever added at the end. The lock is an operating-system lock, released
when its holder goes away, so it is a flag and not a file.

Only files with the segment extension are log data. `logFiles` lists them in name order, and the two
lemmas at the end say how the two operations change that list and the contents behind it; every
invariant of the log is carried through them.

A file that cannot be created, opened or written is an answer of the input that goes with each
operation, not a state of the directory: what an operation that fails leaves behind is said where it
fails, in `Audit.Log`. Two directories with the same segments (`SameSegments`) are told apart by the
lock and by other files only, and no reader of the log looks at those.
-/

namespace Cordon

/-- The part of a file name after its last dot, if a non-empty stem stands before that dot. -/
def extension (name : String) : Option String :=
  let reversed := name.toList.reverse
  match reversed.dropWhile (· ≠ '.') with
  | [] => none
  | _ :: stem =>
    if stem = [] then none else some (String.ofList (reversed.takeWhile (· ≠ '.')).reverse)

/-- Whether a file name is that of a log segment. -/
def isSegment (name : String) : Bool :=
  extension name == some "jsonl"

/-- A name made of a non-empty stem and the segment extension is a segment name. -/
theorem isSegment_of_stem {stem : List Char} (h : stem ≠ []) :
    isSegment (String.ofList (stem ++ ".jsonl".toList)) = true := by
  have hrev : (stem ++ ".jsonl".toList).reverse = "lnosj".toList ++ '.' :: stem.reverse := by
    simp
  have hdrop : ((stem ++ ".jsonl".toList).reverse).dropWhile (· ≠ '.') = '.' :: stem.reverse := by
    rw [hrev]
    rfl
  have htake : ((stem ++ ".jsonl".toList).reverse).takeWhile (· ≠ '.') = "lnosj".toList := by
    rw [hrev]
    rfl
  simp only [isSegment, extension, String.toList_ofList, hdrop, htake]
  rw [if_neg (by simpa using h)]
  decide

/-- The contents of an audit directory. -/
structure Dir where
  names : List String
  nodup : names.Nodup
  content : String → Bytes
  /-- Whether a live writer holds the lock on the directory. -/
  locked : Bool

namespace Dir

/-- A new, empty directory. -/
def empty : Dir where
  names := []
  nodup := List.nodup_nil
  content := fun _ ↦ []
  locked := false

/-- Open a file for appending, creating it if it is missing. -/
def create (d : Dir) (name : String) : Dir :=
  if h : name ∈ d.names then d
  else
    { d with
      names := d.names ++ [name]
      nodup := List.nodup_append.2 ⟨d.nodup, List.nodup_singleton _, fun _ ha _ hb ↦ by
        rw [List.mem_singleton] at hb
        exact fun hab ↦ h (hb ▸ hab ▸ ha)⟩
      content := Function.update d.content name [] }

/-- Add bytes at the end of a file. -/
def append (d : Dir) (name : String) (bytes : Bytes) : Dir :=
  { d with content := Function.update d.content name (d.content name ++ bytes) }

/-- Write a file whole, creating it if it is missing. -/
def replace (d : Dir) (name : String) (bytes : Bytes) : Dir :=
  { d.create name with content := Function.update (d.create name).content name bytes }

/-- Every log segment of the directory, in name order. -/
def logFiles (d : Dir) : List String :=
  (d.names.filter isSegment).insertionSort (· ≤ ·)

theorem mem_logFiles {d : Dir} {name : String} :
    name ∈ d.logFiles ↔ name ∈ d.names ∧ isSegment name = true := by
  rw [logFiles, List.mem_insertionSort, List.mem_filter]

theorem nodup_logFiles (d : Dir) : d.logFiles.Nodup :=
  (List.perm_insertionSort _ _).nodup_iff.2 (d.nodup.filter _)

@[simp] theorem append_names (d : Dir) (name : String) (bs : Bytes) :
    (d.append name bs).names = d.names := rfl

@[simp] theorem append_locked (d : Dir) (name : String) (bs : Bytes) :
    (d.append name bs).locked = d.locked := rfl

@[simp] theorem logFiles_append (d : Dir) (name : String) (bs : Bytes) :
    (d.append name bs).logFiles = d.logFiles := rfl

@[simp]
theorem content_append_self (d : Dir) (name : String) (bs : Bytes) :
    (d.append name bs).content name = d.content name ++ bs := by
  simp [append]

theorem content_append_of_ne (d : Dir) {name other : String} (bs : Bytes) (h : other ≠ name) :
    (d.append name bs).content other = d.content other := by
  simp [append, h]

@[simp]
theorem append_nil (d : Dir) (name : String) : d.append name [] = d := by
  simp [append]

/-! ### Opening a segment -/

theorem mem_names_create (d : Dir) (name : String) : name ∈ (d.create name).names := by
  unfold create
  split_ifs with h
  · exact h
  · simp

@[simp]
theorem create_locked (d : Dir) (name : String) : (d.create name).locked = d.locked := by
  unfold create
  split_ifs <;> rfl

theorem create_of_mem {d : Dir} {name : String} (h : name ∈ d.names) : d.create name = d := by
  simp [create, h]

theorem content_create_of_ne (d : Dir) {name other : String} (h : other ≠ name) :
    (d.create name).content other = d.content other := by
  unfold create
  split_ifs <;> simp [h]

theorem content_create_of_not_mem {d : Dir} {name : String} (h : name ∉ d.names) :
    (d.create name).content name = [] := by
  simp [create, h]

/-- Opening a missing segment adds it to the segments and changes nothing else about them. -/
theorem logFiles_create_perm {d : Dir} {name : String} (h : name ∉ d.names)
    (hs : isSegment name = true) : (d.create name).logFiles.Perm (name :: d.logFiles) := by
  have hnames : (d.create name).names = d.names ++ [name] := by simp [create, h]
  have hfilter : ((d.create name).names.filter isSegment).Perm
      (name :: d.names.filter isSegment) := by
    rw [hnames, List.filter_append, List.filter_singleton, hs]
    exact (List.perm_append_singleton _ _)
  calc (d.create name).logFiles.Perm ((d.create name).names.filter isSegment) :=
        List.perm_insertionSort _ _
    _ |>.Perm (name :: d.names.filter isSegment) := hfilter
    _ |>.Perm (name :: d.logFiles) := (List.perm_insertionSort _ _).symm.cons _

/-- **A new segment behind all others** is the last one in name order. -/
theorem logFiles_create_last {d : Dir} {name : String} (hs : isSegment name = true)
    (hlast : ∀ f ∈ d.logFiles, f < name) : (d.create name).logFiles = d.logFiles ++ [name] := by
  have hnot : name ∉ d.names := fun hmem ↦
    List.lt_irrefl name.toList (hlast name (mem_logFiles.2 ⟨hmem, hs⟩))
  have htotal : Std.Total (α := String) (· ≤ ·) := ⟨String.le_total⟩
  have htrans : IsTrans String (· ≤ ·) := ⟨fun _ _ _ ↦ String.le_trans⟩
  have hnew : (d.create name).logFiles.Pairwise (· ≤ ·) := List.pairwise_insertionSort _ _
  have hold : (d.logFiles ++ [name]).Pairwise (· ≤ ·) := by
    rw [List.pairwise_append]
    refine ⟨List.pairwise_insertionSort _ _, List.pairwise_singleton _ _, fun f hf g hg ↦ ?_⟩
    rw [List.mem_singleton.1 hg]
    exact List.le_of_lt (hlast f hf)
  have hperm : (d.create name).logFiles.Perm (d.logFiles ++ [name]) :=
    (logFiles_create_perm hnot hs).trans (List.perm_append_singleton _ _).symm
  exact hperm.eq_of_pairwise (fun _ _ _ _ ↦ String.le_antisymm) hnew hold

/-- Opening a file that is not a segment leaves the segments alone. -/
theorem logFiles_create_of_not_segment {d : Dir} {name : String} (hs : isSegment name = false) :
    (d.create name).logFiles = d.logFiles := by
  unfold create
  split_ifs
  · rfl
  · simp [logFiles, List.filter_append, hs]

end Dir

end Cordon
