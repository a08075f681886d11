import Cordon.Lib.UnixPath

/-!
# Where a path leads

A location is the list of names from the root on. `locate` walks the components of a path from a
working directory: a name goes down, `..` goes up and stops at the root, the root starts over. A
path that is joined to a directory is walked **from the directory** (`locate_join`), whatever the
two look like, so that where it leads depends on its components alone: names only go down
(`walk_of_isNormal`), and `..` or a root may lead anywhere.

A path in a set of components that are all names leads to a descendant, and to the place itself only
if there are none. The converse is decided for one component (`step_childOf_iff`): of the four kinds
only a name leads to a child. Symbolic links are not followed.
-/

namespace UnixPath

/-- Where one component leads. -/
def Component.step (location : List String) : Component → List String
  | .rootDir => []
  | .curDir => location
  | .parentDir => location.dropLast
  | .normal name => location ++ [name]

/-- Where components lead, one after the other. -/
def walk (location : List String) (cs : List Component) : List String :=
  cs.foldl Component.step location

/-- Where a path leads from a working directory. -/
def locate (cwd : List String) (path : String) : List String :=
  walk cwd (components path)

/-- A location strictly below another. -/
def Below (location base : List String) : Prop :=
  ∃ names, names ≠ [] ∧ location = base ++ names

/-- A location directly below another. -/
def ChildOf (location base : List String) : Prop :=
  ∃ name, location = base ++ [name]

/-! ### Walking -/

theorem walk_append (location : List String) (cs ds : List Component) :
    walk location (cs ++ ds) = walk (walk location cs) ds :=
  List.foldl_append

/-- What the parts of a path mean, without the dot in front. -/
def steps (path : String) : List Component :=
  (parts path).filterMap component

theorem components_of_absolute {path : String} (h : isAbsolute path = true) :
    components path = .rootDir :: steps path := by
  rw [components, if_pos h]
  rfl

/-- A dot in front leads nowhere. -/
theorem walk_components_of_relative {path : String} (h : isAbsolute path = false)
    (location : List String) : walk location (components path) = walk location (steps path) := by
  rw [components, if_neg (by simp [h]), steps]
  split
  · next rest hparts =>
    rw [hparts, List.filterMap_cons_none (by decide : component "." = none)]
    rfl
  · rfl

/-- A slash between two paths is where their parts meet. -/
theorem steps_slash (dir path : String) :
    steps (dir ++ "/" ++ path) = steps dir ++ steps path := by
  have hlist : (dir ++ "/" ++ path).toList = dir.toList ++ '/' :: path.toList := by
    rw [String.toList_append, String.toList_append, List.append_assoc]
    rfl
  rw [steps, steps, steps, parts, parts, parts, hlist, List.splitOn_append_cons_self,
    List.map_append, List.filterMap_append]

/-- A slash at the end adds nothing. -/
theorem steps_slash_end (dir : String) : steps (dir ++ "/") = steps dir := by
  have h := steps_slash dir ""
  rw [String.append_empty] at h
  rw [h, show steps "" = [] from rfl, List.append_nil]

theorem isAbsolute_append {dir : String} (hdir : dir ≠ "") (path : String) :
    isAbsolute (dir ++ path) = isAbsolute dir := by
  have hne : dir.toList ≠ [] := fun hnil ↦ hdir (String.toList_eq_nil_iff.1 hnil)
  rw [isAbsolute, isAbsolute, String.toList_append, List.head?_append_of_ne_nil _ hne]

/-- The steps of a relative path come behind those of the directory it is joined to. -/
theorem steps_asPrefix (dir path : String) :
    steps (asPrefix dir ++ path) = steps dir ++ steps path := by
  rw [asPrefix]
  split
  · next h =>
    rcases h with rfl | hlast
    · rw [String.empty_append]
      rfl
    · -- the directory ends with the slash itself
      obtain ⟨front, hfront⟩ := List.getLast?_eq_some_iff.1 hlast
      have hdir : dir = String.ofList front ++ "/" := by
        rw [← String.toList_inj, String.toList_append, hfront, String.toList_ofList]
        rfl
      rw [hdir, steps_slash, steps_slash_end]
  · exact steps_slash dir path

theorem isAbsolute_asPrefix_append {dir : String} (hdir : dir ≠ "") (path : String) :
    isAbsolute (asPrefix dir ++ path) = isAbsolute dir := by
  rw [asPrefix]
  split
  · exact isAbsolute_append hdir path
  · rw [String.append_assoc]
    exact isAbsolute_append hdir _

/-- Where a path leads by its steps. -/
theorem locate_eq (cwd : List String) (path : String) :
    locate cwd path = walk (if isAbsolute path then [] else cwd) (steps path) := by
  rcases hpath : isAbsolute path with - | -
  · rw [locate, walk_components_of_relative hpath, if_neg Bool.false_ne_true]
  · rw [locate, components_of_absolute hpath, if_pos rfl]
    rfl

/-- **A joined path is walked from the directory.** -/
theorem locate_join (cwd : List String) (dir path : String) :
    locate cwd (join dir path) = walk (locate cwd dir) (components path) := by
  rcases hpath : isAbsolute path with - | -
  · rw [join_of_relative hpath, walk_components_of_relative hpath]
    rcases eq_or_ne dir "" with rfl | hdir
    · rw [show asPrefix "" = "" from rfl, String.empty_append, locate_eq, hpath]
      rfl
    · rw [locate_eq, locate_eq, isAbsolute_asPrefix_append hdir, steps_asPrefix, walk_append]
  · rw [join, if_pos hpath, locate, components_of_absolute hpath]
    rfl

/-! ### What the components of a path say -/

/-- **Names only go down.** -/
theorem walk_of_isNormal {cs : List Component} (h : ∀ c ∈ cs, c.isNormal = true)
    (location : List String) :
    ∃ names, names.length = cs.length ∧ walk location cs = location ++ names := by
  induction cs generalizing location with
  | nil => exact ⟨[], rfl, (List.append_nil _).symm⟩
  | cons c cs ih =>
    obtain ⟨hc, hcs⟩ := List.forall_mem_cons.1 h
    rcases c with - | - | - | name
    · exact absurd hc Bool.false_ne_true
    · exact absurd hc Bool.false_ne_true
    · exact absurd hc Bool.false_ne_true
    · obtain ⟨names, hlength, hwalk⟩ := ih hcs (location ++ [name])
      refine ⟨name :: names, by rw [List.length_cons, List.length_cons, hlength], ?_⟩
      exact hwalk.trans (List.append_assoc _ _ _)

/-- Names lead strictly below if there are any. -/
theorem walk_below_iff {cs : List Component} (h : ∀ c ∈ cs, c.isNormal = true)
    (location : List String) : Below (walk location cs) location ↔ cs ≠ [] := by
  obtain ⟨names, hlength, hwalk⟩ := walk_of_isNormal h location
  rw [Below, hwalk]
  constructor
  · rintro ⟨names', hne, heq⟩ rfl
    rw [List.eq_nil_of_length_eq_zero hlength] at heq
    exact hne (List.append_cancel_left heq).symm
  · intro hne
    refine ⟨names, fun hnil ↦ hne ?_, rfl⟩
    rw [hnil] at hlength
    exact List.eq_nil_of_length_eq_zero hlength.symm

/-- **One component leads to a child exactly if it is a name.** -/
theorem step_childOf_iff (location : List String) (c : Component) :
    ChildOf (c.step location) location ↔ c.isNormal = true := by
  have hlength : ∀ names : List String, names.length ≤ location.length →
      ¬ChildOf names location := by
    rintro names hle ⟨name, rfl⟩
    rw [List.length_append, List.length_singleton] at hle
    omega
  rcases c with - | - | - | name
  · exact iff_of_false (hlength _ (Nat.zero_le _)) Bool.false_ne_true
  · exact iff_of_false (hlength _ (Nat.le_refl _)) Bool.false_ne_true
  · refine iff_of_false (hlength _ ?_) Bool.false_ne_true
    show location.dropLast.length ≤ _
    rw [List.length_dropLast]
    exact Nat.sub_le _ _
  · exact iff_of_true ⟨name, rfl⟩ rfl

/-- The first part of a relative path is not empty, if the path is not. -/
theorem exists_parts_eq_cons {path : String} (hpath : isAbsolute path = false) (hne : path ≠ "") :
    ∃ part rest, parts path = part :: rest ∧ part ≠ "" := by
  rcases hlist : path.toList with - | ⟨c, cs⟩
  · exact absurd (String.toList_eq_nil_iff.1 hlist) hne
  · have hc : ¬(c == '/') = true := by
      rw [isAbsolute, hlist, List.head?_cons, decide_eq_false_iff_not, Option.some.injEq] at hpath
      simpa using hpath
    obtain ⟨part, rest, hsplit⟩ := List.exists_cons_of_ne_nil (List.splitOn_ne_nil '/' cs)
    refine ⟨String.ofList (c :: part), rest.map String.ofList, ?_, ?_⟩
    · rw [parts, hlist, List.splitOn_cons_eq_if_modifyHead, if_neg hc, hsplit]
      rfl
    · intro hempty
      have hnil := congrArg String.toList hempty
      rw [String.toList_ofList] at hnil
      exact List.cons_ne_nil _ _ hnil

/-- Only the empty path has no component. -/
theorem components_eq_nil_iff {path : String} : components path = [] ↔ path = "" := by
  constructor
  · intro h
    by_contra hne
    rcases hpath : isAbsolute path with - | -
    · obtain ⟨part, rest, hparts, hpart⟩ := exists_parts_eq_cons hpath hne
      rw [components, if_neg (by simp [hpath]), hparts] at h
      split at h
      · exact List.cons_ne_nil _ _ h
      · next hdot =>
        have hdot : part ≠ "." := fun heq ↦ hdot rest (by rw [heq])
        have hsome : ∃ c, component part = some c := by
          rw [component, if_neg (not_or.2 ⟨hpart, hdot⟩)]
          split <;> exact ⟨_, rfl⟩
        obtain ⟨c, hc⟩ := hsome
        rw [List.filterMap_cons_some hc] at h
        exact List.cons_ne_nil _ _ h
    · rw [components_of_absolute hpath] at h
      exact List.cons_ne_nil _ _ h
  · rintro rfl
    rfl

end UnixPath
