import Cordon.Crypto.SevSnp

/-!
# The two walks along a chain of certificates

`verify_report` walks a chain with a flag and a break, and the chain that it is given ends in the
pinned root. `verify_chain_to_root` walks the intermediates, returns at the first link that does not
hold, and checks the pinned root apart. Both are written here as the loops they are, over any
function that checks a link.

**The two walks are one** (`walks_agree`): they give the same verdict or the same first error, and
the verdict is positive exactly if each certificate is signed by the next, up to the root.

Both loops are compared with `walk`, the recursion they share. The flag and the break amount to it
once the chain is not empty (`certificateChainValid_eq_walk`); the walk to the root is it with the
root at the end (`walk_append_singleton`). The empty chain, which the first loop refuses, does not
occur where a root is pinned. `chainHolds_eq` and `verifyChainToRoot_eq` say that these are the
loops of the two verifiers.
-/

namespace Cordon

namespace ChainWalks

variable {α ε : Type} (verifySignedBy : α → α → Except ε Bool)

/-- The loop of `verify_report`. An empty chain means that nothing was checked. -/
def certificateChainValid (vcekDer : α) (chainDer : List α) : Except ε Bool := do
  if chainDer.isEmpty then
    return false
  else
    let mut child := vcekDer
    let mut valid := true
    for parent in chainDer do
      if !(← verifySignedBy child parent) then
        valid := false
        break
      child := parent
    return valid

/-- The loop of `verify_chain_to_root`. -/
def verifyChainToRoot (leafDer : α) (intermediatesDer : List α) (rootDer : α) :
    Except ε Bool := do
  let mut child := leafDer
  for parent in intermediatesDer do
    if !(← verifySignedBy child parent) then
      return false
    child := parent
  verifySignedBy child rootDer

/-- The walk, by recursion. -/
def walk (child : α) : List α → Except ε Bool
  | [] => .ok true
  | parent :: parents => do
    if ← verifySignedBy child parent then walk parent parents else return false

variable {verifySignedBy}

/-- One link of a walk. -/
theorem walk_cons (child parent : α) (parents : List α) :
    walk verifySignedBy child (parent :: parents) = do
      if ← verifySignedBy child parent then walk verifySignedBy parent parents else return false :=
  rfl

/-- A walk that ends in a root is the walk to what is signed by the root, and that link. -/
theorem walk_append_singleton (child root : α) (parents : List α) :
    walk verifySignedBy child (parents ++ [root]) =
      verifyChainToRoot verifySignedBy child parents root := by
  induction parents generalizing child with
  | nil =>
    show (do if ← verifySignedBy child root then Except.ok true else return false) =
      verifySignedBy child root
    rcases verifySignedBy child root with e | - | -
    · rfl
    · rfl
    · rfl
  | cons parent parents ih =>
    rw [List.cons_append, walk_cons]
    simp only [ih, verifyChainToRoot, List.forIn_cons]
    rcases verifySignedBy child parent with e | - | -
    · rfl
    · rfl
    · rfl

/-- The flag and the break of a chain that is not empty. -/
theorem certificateChainValid_eq_walk (child : α) {parents : List α} (hne : parents ≠ []) :
    certificateChainValid verifySignedBy child parents = walk verifySignedBy child parents := by
  have hloop : ∀ (l : List α) (child : α),
      (do
        let mut child := child
        let mut valid := true
        for parent in l do
          if !(← verifySignedBy child parent) then
            valid := false
            break
          child := parent
        return valid) = walk verifySignedBy child l := by
    intro l
    induction l with
    | nil =>
      intro child
      rfl
    | cons parent l ih =>
      intro child
      rw [walk_cons, ← ih]
      simp only [List.forIn_cons]
      rcases verifySignedBy child parent with e | - | -
      · rfl
      · rfl
      · rfl
  rw [certificateChainValid, if_neg (by simpa using hne)]
  exact hloop parents child

/-- **A walk holds exactly if each certificate is signed by the next.** -/
theorem walk_eq_true_iff {child : α} {parents : List α} :
    walk verifySignedBy child parents = .ok true ↔
      (child :: parents).IsChain fun child parent ↦ verifySignedBy child parent = .ok true := by
  induction parents generalizing child with
  | nil => simp [walk]
  | cons parent parents ih =>
    rw [List.isChain_cons_cons, ← ih, walk_cons]
    rcases verifySignedBy child parent with e | - | -
    · simp
    · simp
    · simp

/-- **The two walks agree**, in the verdict or in the first error, and the verdict is positive
exactly if each certificate is signed by the next and the last one by the root. -/
theorem walks_agree (verifySignedBy : α → α → Except ε Bool) (leafDer : α)
    (intermediatesDer : List α) (rootDer : α) :
    certificateChainValid verifySignedBy leafDer (intermediatesDer ++ [rootDer]) =
        verifyChainToRoot verifySignedBy leafDer intermediatesDer rootDer ∧
      (verifyChainToRoot verifySignedBy leafDer intermediatesDer rootDer = .ok true ↔
        (leafDer :: intermediatesDer ++ [rootDer]).IsChain fun child parent ↦
          verifySignedBy child parent = .ok true) := by
  rw [← walk_append_singleton, walk_eq_true_iff]
  exact ⟨certificateChainValid_eq_walk leafDer (by simp), Iff.rfl⟩

/-! ### The walks of attestation -/

theorem isSome_walkChain (X : PlatformEngine) (child : Bytes) (parents : List Bytes) :
    (do return (← walkChain X child parents).isSome) =
      walk (Cordon.verifySignedBy X) child parents := by
  induction parents generalizing child with
  | nil => rfl
  | cons parent parents ih =>
    rw [walk_cons, ← ih, walkChain]
    rcases Cordon.verifySignedBy X child parent with e | - | -
    · rfl
    · rfl
    · rfl

/-- The first loop is the one over the chain of a SEV-SNP report. -/
theorem chainHolds_eq (X : PlatformEngine) (vcekDer : Bytes) (chainDer : List Bytes) :
    SevSnp.chainHolds X vcekDer chainDer =
      certificateChainValid (Cordon.verifySignedBy X) vcekDer chainDer := by
  rcases chainDer with - | ⟨parent, parents⟩
  · rfl
  · rw [certificateChainValid_eq_walk vcekDer (List.cons_ne_nil _ _), ← isSome_walkChain]
    rfl

/-- The second is the one over the intermediates of a Nitro document. -/
theorem verifyChainToRoot_eq (X : PlatformEngine) (leafDer : Bytes) (intermediatesDer : List Bytes)
    (rootDer : Bytes) : Cordon.verifyChainToRoot X leafDer intermediatesDer rootDer =
      verifyChainToRoot (Cordon.verifySignedBy X) leafDer intermediatesDer rootDer := by
  rw [← walk_append_singleton]
  induction intermediatesDer generalizing leafDer with
  | nil =>
    show Cordon.verifySignedBy X leafDer rootDer =
      do if ← Cordon.verifySignedBy X leafDer rootDer then Except.ok true else return false
    rcases Cordon.verifySignedBy X leafDer rootDer with e | - | -
    · rfl
    · rfl
    · rfl
  | cons parent parents ih =>
    rw [List.cons_append, walk_cons, ← ih, Cordon.verifyChainToRoot, walkChain]
    rcases Cordon.verifySignedBy X leafDer parent with e | - | -
    · rfl
    · rfl
    · rfl

end ChainWalks

end Cordon
