import Mathlib.Data.List.Basic

/-!
# Paths, read as Unix reads them

A path is a text cut at its slashes. `components` reads it the usual way: repeated slashes and dots
in the middle mean nothing, a leading slash is the root, a leading dot is kept, and `..` goes up.
Nothing is looked up on a disk, so a symbolic link is a name like any other.

What is proved is about joining. A path that starts at the root replaces what it is joined to, and
any other is appended behind one slash (`join_of_relative`), so two relative paths that are joined
to one directory are the same if their joins are (`join_inj`). Where a path leads is left to
`Lib.PathLocation`.
-/

namespace UnixPath

/-- One component of a path. -/
inductive Component
  | rootDir
  | curDir
  | parentDir
  | normal (name : String)
  deriving DecidableEq, Repr

/-- Whether a component names an entry of the directory it is read in. -/
def Component.isNormal : Component → Bool
  | .normal _ => true
  | _ => false

/-- Whether a path starts at the root. -/
def isAbsolute (path : String) : Bool :=
  path.toList.head? = some '/'

/-- What stands between two slashes, if it means anything. -/
def component (part : String) : Option Component :=
  if part = "" ∨ part = "." then none
  else if part = ".." then some .parentDir
  else some (.normal part)

/-- The texts between the slashes of a path. -/
def parts (path : String) : List String :=
  (path.toList.splitOn '/').map String.ofList

/-- The components of a path. -/
def components (path : String) : List Component :=
  if isAbsolute path then .rootDir :: (parts path).filterMap component
  else
    match parts path with
    | "." :: rest => .curDir :: rest.filterMap component
    | parts => parts.filterMap component

/-- A path read in a directory: an absolute one replaces it. -/
def join (dir path : String) : String :=
  if isAbsolute path then path
  else if dir = "" ∨ dir.toList.getLast? = some '/' then dir ++ path
  else dir ++ "/" ++ path

/-! ### Relative paths -/

/-- What a relative path is appended to. -/
def asPrefix (dir : String) : String :=
  if dir = "" ∨ dir.toList.getLast? = some '/' then dir else dir ++ "/"

theorem join_of_relative {path : String} (h : isAbsolute path = false) (dir : String) :
    join dir path = asPrefix dir ++ path := by
  rw [join, asPrefix, if_neg (by simp [h])]
  split <;> rfl

/-- Different relative paths name different files of a directory. -/
theorem join_inj {dir path path' : String} (h : isAbsolute path = false)
    (h' : isAbsolute path' = false) (heq : join dir path = join dir path') : path = path' := by
  rw [join_of_relative h, join_of_relative h'] at heq
  exact (String.append_right_inj _).1 heq

/-- A name in a directory of a directory. -/
theorem join_join {sub name : String} (hsub : isAbsolute sub = false) (hne : sub ≠ "")
    (hlast : sub.toList.getLast? ≠ some '/') (hname : isAbsolute name = false) (dir : String) :
    join (join dir sub) name = join dir (sub ++ "/" ++ name) := by
  have hsubList : sub.toList ≠ [] := fun hnil ↦ hne (String.toList_eq_nil_iff.1 hnil)
  have hrelative : isAbsolute (sub ++ "/" ++ name) = false := by
    rw [isAbsolute, String.toList_append, String.toList_append, List.append_assoc,
      List.head?_append_of_ne_nil _ hsubList]
    exact hsub
  have hprefix : asPrefix (asPrefix dir ++ sub) = asPrefix dir ++ sub ++ "/" := by
    have hend : (asPrefix dir ++ sub).toList.getLast? = sub.toList.getLast? := by
      rw [String.toList_append, List.getLast?_append_of_ne_nil _ hsubList]
    have hfull : asPrefix dir ++ sub ≠ "" := by
      intro hempty
      have hnil := congrArg String.toList hempty
      rw [String.toList_append] at hnil
      exact hsubList (List.append_eq_nil_iff.1 hnil).2
    rw [asPrefix, if_neg (not_or.2 ⟨hfull, by rw [hend]; exact hlast⟩)]
  rw [join_of_relative hsub, join_of_relative hname, join_of_relative hrelative, hprefix]
  simp only [String.append_assoc]

example : components "a//./b/../c" = [.normal "a", .normal "b", .parentDir, .normal "c"] := by
  decide +kernel

end UnixPath
