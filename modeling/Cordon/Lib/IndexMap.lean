import Cordon.Lib.Association
import Mathlib.Data.List.Pairwise

/-!
# Maps from bytes in ascending order of the key

A sorted map is its list of entries with strictly ascending keys. Being sorted is part of the type,
so iterating over a map is a function of the map alone, and an entry is found by its key exactly
when it is there (`get_eq_some_iff`).

`insert` replaces an entry under the same key and keeps the order, so a map can be built from any
list (`ofList`), and a list that is in order already is its own map (`entries_ofList`). Looking up
takes the first entry; that it is the only one rests on the keys being distinct (`Lib.Association`).
-/

/-- A map from bytes, iterated in ascending order of the key. -/
structure IndexMap (V : Type) where
  entries : List (UInt8 × V)
  sorted : entries.Pairwise fun a b ↦ a.1 < b.1

namespace IndexMap

variable {V : Type} (m : IndexMap V)

instance [DecidableEq V] : DecidableEq (IndexMap V) := fun a b ↦
  decidable_of_iff (a.entries = b.entries)
    ⟨fun h ↦ by rcases a with ⟨a, ha⟩; rcases b with ⟨b, hb⟩; subst h; rfl, congrArg entries⟩

/-- The map without entries. -/
def empty : IndexMap V :=
  ⟨[], .nil⟩

/-- The map with one entry. -/
def single (index : UInt8) (value : V) : IndexMap V :=
  ⟨[(index, value)], List.pairwise_singleton _ _⟩

/-- Whether there is no entry. -/
def isEmpty : Bool :=
  m.entries.isEmpty

/-- The value at a key. -/
def get (index : UInt8) : Option V :=
  m.entries.lookup index

theorem isEmpty_iff : m.isEmpty = true ↔ m.entries = [] :=
  List.isEmpty_iff

theorem nodup_keys : (m.entries.map Prod.fst).Nodup :=
  List.pairwise_map.2 (m.sorted.imp fun hlt heq ↦ absurd (heq ▸ hlt) (UInt8.lt_irrefl _))

/-- **An entry is found by its key exactly when it is there.** -/
theorem get_eq_some_iff {index : UInt8} {value : V} :
    m.get index = some value ↔ (index, value) ∈ m.entries := by
  rw [get, Association.lookup_eq_some_iff m.nodup_keys, Association.occursOnce_iff_mem m.nodup_keys]

/-- The entries that survive a function on the values, still in order. -/
theorem pairwise_filterMap {W : Type} (f : V → Option W) :
    (m.entries.filterMap fun entry ↦ (f entry.2).map fun w ↦ (entry.1, w)).Pairwise
      fun a b ↦ a.1 < b.1 := by
  refine List.Pairwise.filterMap _ ?_ m.sorted
  rintro ⟨i, v⟩ ⟨j, v'⟩ hlt b hb b' hb'
  obtain ⟨w, -, rfl⟩ := Option.map_eq_some_iff.1 hb
  obtain ⟨w', -, rfl⟩ := Option.map_eq_some_iff.1 hb'
  exact hlt

/-! ### Inserting -/

/-- A list of entries with one more, in place of an entry with the same key. -/
def insertEntry (index : UInt8) (value : V) : List (UInt8 × V) → List (UInt8 × V)
  | [] => [(index, value)]
  | e :: es =>
    if index < e.1 then (index, value) :: e :: es
    else if index = e.1 then (index, value) :: es
    else e :: insertEntry index value es

theorem mem_insertEntry {index : UInt8} {value : V} {es : List (UInt8 × V)} {e : UInt8 × V}
    (h : e ∈ insertEntry index value es) : e = (index, value) ∨ e ∈ es := by
  induction es with
  | nil => exact Or.inl (List.mem_singleton.1 h)
  | cons a es ih =>
    rw [insertEntry] at h
    split_ifs at h
    · exact List.mem_cons.1 h
    · exact (List.mem_cons.1 h).imp_right (List.mem_cons_of_mem _)
    · rcases List.mem_cons.1 h with rfl | h
      · exact Or.inr List.mem_cons_self
      · exact (ih h).imp_right (List.mem_cons_of_mem _)

theorem pairwise_insertEntry (index : UInt8) (value : V) {es : List (UInt8 × V)}
    (h : es.Pairwise fun a b ↦ a.1 < b.1) :
    (insertEntry index value es).Pairwise fun a b ↦ a.1 < b.1 := by
  induction es with
  | nil => exact List.pairwise_singleton _ _
  | cons a es ih =>
    obtain ⟨ha, hes⟩ := List.pairwise_cons.1 h
    rw [insertEntry]
    split_ifs with hlt heq
    · refine List.pairwise_cons.2 ⟨fun b hb ↦ ?_, h⟩
      rcases List.mem_cons.1 hb with rfl | hb
      · exact hlt
      · exact UInt8.lt_trans hlt (ha b hb)
    · exact List.pairwise_cons.2 ⟨fun b hb ↦ heq ▸ ha b hb, hes⟩
    · refine List.pairwise_cons.2 ⟨fun b hb ↦ ?_, ih hes⟩
      rcases mem_insertEntry hb with rfl | hb
      · exact UInt8.lt_of_le_of_ne (UInt8.not_lt.1 hlt) (Ne.symm heq)
      · exact ha b hb

/-- `BTreeMap::insert`. -/
def insert (index : UInt8) (value : V) : IndexMap V :=
  ⟨insertEntry index value m.entries, pairwise_insertEntry index value m.sorted⟩

/-- An entry behind all others goes to the end. -/
theorem insertEntry_of_lt {index : UInt8} (value : V) {es : List (UInt8 × V)}
    (h : ∀ e ∈ es, e.1 < index) : insertEntry index value es = es ++ [(index, value)] := by
  induction es with
  | nil => rfl
  | cons a es ih =>
    have ha : a.1 < index := h a List.mem_cons_self
    rw [insertEntry, if_neg (UInt8.lt_asymm ha), if_neg (UInt8.ne_of_lt ha).symm,
      ih fun e he ↦ h e (List.mem_cons_of_mem _ he)]
    rfl

/-- The map with the entries of a list, the last of each key. -/
def ofList (es : List (UInt8 × V)) : IndexMap V :=
  es.foldl (fun m e ↦ m.insert e.1 e.2) empty

/-- A list in strictly ascending order is the map it makes. -/
theorem entries_ofList {es : List (UInt8 × V)} (h : es.Pairwise fun a b ↦ a.1 < b.1) :
    (ofList es).entries = es := by
  have hfold : ∀ (es : List (UInt8 × V)) (m : IndexMap V),
      (m.entries ++ es).Pairwise (fun a b ↦ a.1 < b.1) →
      (es.foldl (fun m e ↦ m.insert e.1 e.2) m).entries = m.entries ++ es := by
    intro es
    induction es with
    | nil => exact fun m _ ↦ (List.append_nil _).symm
    | cons e es ih =>
      intro m hm
      have hlast : (m.insert e.1 e.2).entries = m.entries ++ [e] :=
        insertEntry_of_lt e.2 fun a ha ↦
          (List.pairwise_append.1 hm).2.2 a ha e List.mem_cons_self
      have happend : m.entries ++ e :: es = (m.insert e.1 e.2).entries ++ es := by
        rw [hlast, List.append_assoc, List.singleton_append]
      rw [List.foldl_cons, ih _ (happend ▸ hm), ← happend]
  exact hfold es empty h

end IndexMap
