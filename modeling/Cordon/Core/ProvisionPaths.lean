import Cordon.Core.SealedReaders
import Cordon.Core.Admin
import Cordon.Lib.PathLocation

/-!
# Where a provisioned bundle lies

A request to provision a model names a directory of the store, and its manifest names the shards.
Two validators keep these inside: the handler **counts** the components of the directory, and
`validateRelativePath` asks of every shard path that its components are names.

Counting is not enough. `.`, `..` and `/` are one component each and lead to the store itself, above
it, and to the root. And no component is a component that is not a name: the empty shard path is
accepted, and names the directory itself. What is left is inside (`provisioned_paths_inside_iff`).

Both halves are read off the walk that the standard library takes along a path (`Lib.PathLocation`):
a name leads one level down, and components that are all names lead strictly below where they start,
if there are any. What a registration has checked is said once (`registerProvisioned_eq_ok`), and
this is all that the proof knows of it.
-/

namespace Cordon

/-- The handler's check of `bundle_directory`: a single path component. -/
def checkBundleDirectory (bundleDirectory : String) : Except CordonError Unit :=
  .ensure (!bundleDirectory.isEmpty && (UnixPath.components bundleDirectory).length == 1)
    (.validationFailed "bundle_directory must be a single directory name inside the model store")

namespace BundleStore

section Handler

variable (H : BundleHost) (E : Ed25519)

/-- The part of `provision_model` that checks and registers: the manifest that is registered. A
manifest is what reading it as one makes of the JSON value in the request. -/
def registerProvisioned (store : BundleStore) (storeDir bundleDirectory : String)
    (manifest : Except String BundleManifest) : BundleStore × Except CordonError BundleManifest :=
  match checkBundleDirectory bundleDirectory with
  | .error e => (store, .error e)
  | .ok () =>
    match manifest with
    | .error e => (store, .error (.validationFailed ("invalid manifest: " ++ e)))
    | .ok m =>
      match store.registerBundle H E m (UnixPath.join storeDir bundleDirectory) none with
      | (store, .error e) => (store, .error e)
      | (store, .ok ()) => (store, .ok m)

/-- `provision_model`, for a caller that `authenticated_client` has let in: the identifier of the
bundle and whether it is intact. -/
def provisionModel (T : HostText) (registry : IdentityRegistry) (keys : AdminKeys)
    (store : BundleStore) (storeDir : String) (now : ℤ) (client : ClientIdentity)
    (bundleDirectory : String) (manifest : Except String BundleManifest) (adminSignature : String)
    (read : ShardReads) : BundleStore × Except CordonError (String × Bool) :=
  match clientMayAdminister T registry now client with
  | .error e => (store, .error e)
  | .ok () =>
    match authorizeAdmin E keys "provision-model" bundleDirectory adminSignature with
    | .error e => (store, .error e)
    | .ok () =>
      match store.registerProvisioned H E storeDir bundleDirectory manifest with
      | (store, .error e) => (store, .error e)
      | (store, .ok m) =>
        -- a verdict now, so that the bundle is servable at once
        match store.runIntegrityCheck H E now read m.bundleId with
        | (store, .error e) => (store, .error e)
        | (store, .ok integrityOk) => (store, .ok (m.bundleId, integrityOk))

end Handler

variable {H : BundleHost} {E : Ed25519} {store store' : BundleStore}
  {storeDir bundleDirectory : String} {manifest : Except String BundleManifest}
  {m : BundleManifest}

/-- What a registration has checked, and what it has stored. -/
theorem registerProvisioned_eq_ok
    (h : store.registerProvisioned H E storeDir bundleDirectory manifest = (store', .ok m)) :
    (UnixPath.components bundleDirectory).length = 1 ∧ m.validateStructure H = .ok () ∧
      store'.bundles.lookup m.bundleId =
        some (registered m (UnixPath.join storeDir bundleDirectory)) := by
  rcases hdirectory : checkBundleDirectory bundleDirectory with e | ⟨⟩
  · simp only [registerProvisioned, hdirectory] at h
    exact nomatch (Prod.mk.inj h).2
  rcases manifest with e | m'
  · simp only [registerProvisioned, hdirectory] at h
    exact nomatch (Prod.mk.inj h).2
  rcases hregister : store.registerBundle H E m' (UnixPath.join storeDir bundleDirectory) none
    with ⟨store₁, e | ⟨⟩⟩
  · simp only [registerProvisioned, hdirectory, hregister] at h
    exact nomatch (Prod.mk.inj h).2
  simp only [registerProvisioned, hdirectory, hregister] at h
  obtain ⟨rfl, hm⟩ := Prod.mk.inj h
  obtain rfl := Except.ok.inj hm
  rcases registerBundle_cases hregister with ⟨e, habsurd, -⟩ | ⟨-, hcheck, rfl⟩
  · exact nomatch habsurd
  refine ⟨?_, ?_, AList.lookup_insert _⟩
  · rw [checkBundleDirectory, Except.ensure_eq_ok, Bool.and_eq_true, beq_iff_eq] at hdirectory
    exact hdirectory.2
  · simp only [checkManifest, Except.bind_eq_ok] at hcheck
    obtain ⟨_, hvalid, -⟩ := hcheck
    exact hvalid

end BundleStore

/-! ### What the validators leave -/

/-- The components of a shard path that has been validated are names. -/
theorem isNormal_of_validateRelativePath {path bundleId : String}
    (h : validateRelativePath path bundleId = .ok ()) :
    ∀ c ∈ UnixPath.components path, c.isNormal = true := by
  rw [validateRelativePath, Except.bind_eq_ok] at h
  obtain ⟨_, -, hall⟩ := h
  rw [Except.ensure_eq_ok, List.all_eq_true] at hall
  exact hall

theorem validateRelativePath_of_mem {H : BundleHost} {m : BundleManifest}
    (hvalid : m.validateStructure H = .ok ()) {shard : ShardDescriptor}
    (hshard : shard ∈ m.shards) :
    validateRelativePath shard.path m.bundleId = .ok () := by
  simp only [BundleManifest.validateStructure, Except.bind_eq_ok] at hvalid
  obtain ⟨_, -, _, -, _, -, _, -, _, -, _, hshards, -⟩ := hvalid
  have hmem : shard ∈ m.shards.zipIdx.map Prod.fst := by rwa [List.zipIdx_map_fst]
  obtain ⟨e, he, rfl⟩ := List.mem_map.1 hmem
  have hone := validateShards_eq_ok.1 hshards e he
  rw [validateShard, Except.bind_eq_ok] at hone
  obtain ⟨_, hpath, -⟩ := hone
  exact hpath

/-- **The paths of a bundle stay inside the store**, read from a working directory: its directory is
a child of the store's, and every shard lies strictly below that. -/
structure PathsInside (cwd : List String) (storeDir : String) (b : StoredBundle) : Prop where
  bundleDir : UnixPath.ChildOf (UnixPath.locate cwd b.bundleDir) (UnixPath.locate cwd storeDir)
  shards : ∀ shard ∈ b.manifest.shards,
    UnixPath.Below (UnixPath.locate cwd (UnixPath.join b.bundleDir shard.path))
      (UnixPath.locate cwd b.bundleDir)

/-- **When provisioned paths stay inside the model store**: the one component of the directory is a
name, and no shard path is empty. -/
theorem provisioned_paths_inside_iff (H : BundleHost) (E : Ed25519) (store store' : BundleStore)
    (cwd : List String) (storeDir bundleDirectory : String)
    (manifest : Except String BundleManifest) (m : BundleManifest)
    (h : store.registerProvisioned H E storeDir bundleDirectory manifest = (store', .ok m)) :
    ∃ b, store'.bundles.lookup m.bundleId = some b ∧ b.manifest = m ∧
      (PathsInside cwd storeDir b ↔
        (∃ name, UnixPath.components bundleDirectory = [.normal name]) ∧
          ∀ shard ∈ m.shards, shard.path ≠ "") := by
  obtain ⟨hcount, hvalid, hstored⟩ := BundleStore.registerProvisioned_eq_ok h
  refine ⟨_, hstored, rfl, ?_⟩
  obtain ⟨c, hc⟩ := List.length_eq_one_iff.1 hcount
  have hdir : UnixPath.locate cwd (UnixPath.join storeDir bundleDirectory) =
      c.step (UnixPath.locate cwd storeDir) := by
    rw [UnixPath.locate_join, hc]
    rfl
  have hchild : UnixPath.ChildOf (UnixPath.locate cwd (UnixPath.join storeDir bundleDirectory))
      (UnixPath.locate cwd storeDir) ↔ ∃ name, UnixPath.components bundleDirectory =
        [.normal name] := by
    rw [hdir, UnixPath.step_childOf_iff, hc]
    rcases c with - | - | - | name
    · exact iff_of_false Bool.false_ne_true nofun
    · exact iff_of_false Bool.false_ne_true nofun
    · exact iff_of_false Bool.false_ne_true nofun
    · exact iff_of_true rfl ⟨name, rfl⟩
  have hbelow : ∀ shard ∈ m.shards,
      (UnixPath.Below (UnixPath.locate cwd (UnixPath.join
        (UnixPath.join storeDir bundleDirectory) shard.path))
        (UnixPath.locate cwd (UnixPath.join storeDir bundleDirectory)) ↔ shard.path ≠ "") := by
    intro shard hshard
    have hnormal := isNormal_of_validateRelativePath (validateRelativePath_of_mem hvalid hshard)
    rw [UnixPath.locate_join, UnixPath.walk_below_iff hnormal, ne_eq,
      UnixPath.components_eq_nil_iff]
  constructor
  · rintro ⟨hinside, hshards⟩
    exact ⟨hchild.1 hinside, fun shard hshard ↦ (hbelow shard hshard).1 (hshards shard hshard)⟩
  · rintro ⟨hname, hpaths⟩
    exact ⟨hchild.2 hname, fun shard hshard ↦ (hbelow shard hshard).2 (hpaths shard hshard)⟩

/-! ### Two requests -/

namespace SampleBundle

/-- Registering the sample manifest with a directory passes if the directory does. -/
theorem registerProvisioned_eq {bundleDirectory : String}
    (h : checkBundleDirectory bundleDirectory = .ok ()) :
    store.registerProvisioned host ed25519 "/models" bundleDirectory (.ok manifest) =
      ({ store with
          bundles := store.bundles.insert manifest.bundleId
            (BundleStore.registered manifest (UnixPath.join "/models" bundleDirectory)) },
        .ok manifest) := by
  simp only [BundleStore.registerProvisioned, h, BundleStore.registerBundle, checkManifest_eq]

end SampleBundle

open SampleBundle in
/-- A name in the store is inside. -/
theorem provisioned_paths_inside_sample :
    ∃ b, (store.registerProvisioned host ed25519 "/models" "sample" (.ok manifest)).1.bundles.lookup
        "sample" = some b ∧ PathsInside [] "/models" b := by
  have hdirectory : checkBundleDirectory "sample" = .ok () := by decide +kernel
  obtain ⟨b, hb, -, hinside⟩ := provisioned_paths_inside_iff host ed25519 store _ [] "/models"
    "sample" (.ok manifest) manifest (registerProvisioned_eq hdirectory)
  refine ⟨b, ?_, hinside.2 ⟨⟨"sample", by decide +kernel⟩, by decide⟩⟩
  rw [registerProvisioned_eq hdirectory]
  exact hb

open SampleBundle in
/-- **The parent directory is one component too**, and a bundle is registered with it. -/
theorem parent_directory_is_registered :
    checkBundleDirectory ".." = .ok () ∧
      ∃ store' b, store.registerProvisioned host ed25519 "/models" ".." (.ok manifest) =
          (store', .ok manifest) ∧
        store'.bundles.lookup manifest.bundleId = some b ∧
        UnixPath.locate [] b.bundleDir = [] ∧ ¬PathsInside [] "/models" b := by
  have hdirectory : checkBundleDirectory ".." = .ok () := by decide +kernel
  have hlocation : UnixPath.locate [] (UnixPath.join "/models" "..") = [] := by decide +kernel
  refine ⟨hdirectory, _, BundleStore.registered manifest (UnixPath.join "/models" ".."),
    registerProvisioned_eq hdirectory, AList.lookup_insert _, hlocation, ?_⟩
  rintro ⟨⟨name, hchild⟩, -⟩
  have hnil : [] = UnixPath.locate [] "/models" ++ [name] := hlocation.symm.trans hchild
  exact List.append_ne_nil_of_right_ne_nil _ (List.cons_ne_nil name []) hnil.symm

end Cordon
