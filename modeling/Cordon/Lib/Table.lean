import Mathlib.Data.Finset.Card
import Mathlib.Data.Finset.Dedup
import Mathlib.Data.Finset.Insert
import Mathlib.Data.List.AList

/-!
# Tables: counting, updating in place, dropping many keys, looking at a part, building

What programs do with a hash map beyond inserting, looking up and removing one key, over association
lists without duplicate keys. The order of the entries is never used.

`count` is the number of entries whose value has a property, so the size of a table is the count of
everything. Its rules say what each operation does to it: **only inserting can make a count grow**,
by the one value that is inserted (`count_insert_le`), and not when that value replaces one that was
counted already (`count_insert_of_lookup_eq_some`).

Further parts follow. `update` changes the value under one key, and `mapValues` and
`filterMapValues` go over all of them; `eraseAll` drops a list of keys; `ofValues` builds a table
from a list of values, each under its own key. The lemmas are about `lookup`, the length and
`count`, so that a proof about a program's table never looks at a list.
-/

namespace AList

variable {K V W : Type}

/-! ### Counting entries -/

/-- The number of entries whose value has a property. -/
def count (p : V → Bool) (s : AList fun _ : K ↦ V) : ℕ :=
  s.entries.countP fun e ↦ p e.2

variable {p : V → Bool} {s : AList fun _ : K ↦ V} {a b : K} {v w : V}

theorem length_entries_eq_count (s : AList fun _ : K ↦ V) :
    s.entries.length = s.count fun _ ↦ true := by
  simp [count]

@[simp]
theorem count_empty : (∅ : AList fun _ : K ↦ V).count p = 0 :=
  rfl

variable [DecidableEq K]

theorem count_erase_le : (s.erase a).count p ≤ s.count p :=
  (List.kerase_sublist a s.entries).countP_le

theorem length_entries_erase_le : (s.erase a).entries.length ≤ s.entries.length :=
  (List.kerase_sublist a s.entries).length_le

theorem count_insert_le : (s.insert a v).count p ≤ s.count p + if p v then 1 else 0 := by
  rw [count, entries_insert, List.countP_cons]
  exact Nat.add_le_add_right count_erase_le _

/-- A value that is replaced gives its place to the new one. -/
theorem count_insert_of_lookup_eq_some (h : s.lookup a = some w) (hp : p v = p w) :
    (s.insert a v).count p = s.count p := by
  have hmem : a ∈ s.entries.keys := lookup_isSome.1 (by simp [h])
  obtain ⟨w', l₁, l₂, hnot, hentries, hkerase⟩ := List.exists_of_kerase hmem
  have hw : w' = w := by
    have hfound : s.entries.dlookup a = some w := h
    rw [hentries, List.dlookup_append, List.dlookup_eq_none.2 hnot] at hfound
    simpa using hfound
  rw [count, entries_insert, count, hkerase, hentries, hw]
  simp [List.countP_cons, hp]
  omega

/-- A value under a key that is there takes no more room. -/
theorem length_entries_insert_of_isSome (h : (s.lookup a).isSome) :
    (s.insert a v).entries.length = s.entries.length := by
  obtain ⟨w, hw⟩ := Option.isSome_iff_exists.1 h
  rw [length_entries_eq_count, length_entries_eq_count]
  exact count_insert_of_lookup_eq_some hw rfl

/-- A value under a new key takes one place. -/
theorem length_entries_insert_of_isNone (h : (s.lookup a).isNone) :
    (s.insert a v).entries.length = s.entries.length + 1 := by
  have hnot : a ∉ s.entries.keys := lookup_eq_none.1 (Option.isNone_iff_eq_none.1 h)
  rw [entries_insert, List.kerase_of_notMem_keys hnot, List.length_cons]

/-- **A table at its bound takes no new key.** -/
theorem length_entries_insert_le_iff {n : ℕ} (h : s.entries.length ≤ n) :
    (s.insert a v).entries.length ≤ n ↔ (s.lookup a).isSome ∨ s.entries.length < n := by
  rcases hfound : s.lookup a with - | w
  · rw [length_entries_insert_of_isNone (by rw [hfound]; rfl)]
    simp only [Option.isSome_none, Bool.false_eq_true, false_or]
    exact Nat.add_one_le_iff
  · rw [length_entries_insert_of_isSome (by rw [hfound]; rfl)]
    simp [h]

/-- Every value in the table has a property. -/
def AllValues (P : V → Prop) (s : AList fun _ : K ↦ V) : Prop :=
  ∀ e ∈ s.entries, P e.2

theorem AllValues.of_lookup {P : V → Prop} (h : s.AllValues P) (ha : s.lookup a = some v) : P v :=
  h ⟨a, v⟩ (mem_lookup_iff.1 ha)

theorem AllValues.insert {P : V → Prop} (h : s.AllValues P) (hv : P v) :
    (s.insert a v).AllValues P := by
  intro e he
  rw [entries_insert] at he
  rcases List.mem_cons.1 he with rfl | he
  · exact hv
  · exact h e ((List.kerase_sublist a s.entries).subset he)

/-- A table is empty when nothing can be found in it. -/
theorem entries_eq_nil_iff : s.entries = [] ↔ ∀ a, s.lookup a = none := by
  constructor
  · intro h a
    have hempty : s = ∅ := ext h
    rw [hempty, lookup_empty]
  · intro h
    rcases hentries : s.entries with - | ⟨⟨a, v⟩, rest⟩
    · rfl
    · have hfound : s.lookup a = some v := mem_lookup_iff.2 (by simp [hentries])
      rw [h a] at hfound
      simp at hfound

/-- A table whose keys are in a set, and that lacks one of the set, is smaller than the set. -/
theorem length_entries_lt_card {S : Finset K} (hkeys : ∀ b, (s.lookup b).isSome → b ∈ S)
    (ha : a ∈ S) (hnew : s.lookup a = none) : s.entries.length < S.card := by
  have hnot : a ∉ s.entries.keys := lookup_eq_none.1 hnew
  have hsub : Insert.insert a s.entries.keys.toFinset ⊆ S := by
    intro b hb
    rcases Finset.mem_insert.1 hb with rfl | hb
    · exact ha
    · exact hkeys b (lookup_isSome.2 (List.mem_toFinset.1 hb))
  have hcard := Finset.card_le_card hsub
  rw [Finset.card_insert_of_notMem (mt List.mem_toFinset.1 hnot),
    List.toFinset_card_of_nodup s.nodupKeys, List.keys, List.length_map] at hcard
  exact hcard

/-! ### Updating in place -/

/-- Change the value at a key, if there is one. -/
def update (f : V → V) (a : K) (s : AList fun _ : K ↦ V) : AList fun _ : K ↦ V :=
  match s.lookup a with
  | some v => s.insert a (f v)
  | none => s

theorem lookup_update_self (f : V → V) : (s.update f a).lookup a = (s.lookup a).map f := by
  rw [update]
  split
  · next v h => rw [lookup_insert, h, Option.map_some]
  · next h => rw [h, Option.map_none]

theorem lookup_update_of_ne (f : V → V) (h : b ≠ a) : (s.update f a).lookup b = s.lookup b := by
  rw [update]
  split
  · exact lookup_insert_ne h
  · rfl

/-! ### Dropping many keys -/

/-- The table without any of the keys. -/
def eraseAll (keys : List K) (s : AList fun _ : K ↦ V) : AList fun _ : K ↦ V :=
  keys.foldl (fun s a ↦ s.erase a) s

theorem count_eraseAll_le (keys : List K) (s : AList fun _ : K ↦ V) :
    (s.eraseAll keys).count p ≤ s.count p := by
  induction keys generalizing s with
  | nil => exact le_rfl
  | cons a keys ih => exact le_trans (ih (s.erase a)) count_erase_le

theorem lookup_eraseAll_of_notMem {keys : List K} (h : a ∉ keys) (s : AList fun _ : K ↦ V) :
    (s.eraseAll keys).lookup a = s.lookup a := by
  induction keys generalizing s with
  | nil => rfl
  | cons b keys ih =>
    obtain ⟨hne, hnot⟩ : a ≠ b ∧ a ∉ keys := by simpa using h
    exact (ih hnot (s.erase b)).trans (lookup_erase_ne hne)

theorem lookup_eraseAll_of_mem {keys : List K} (h : a ∈ keys) (s : AList fun _ : K ↦ V) :
    (s.eraseAll keys).lookup a = none := by
  induction keys generalizing s with
  | nil => simp at h
  | cons b keys ih =>
    by_cases hmem : a ∈ keys
    · exact ih hmem (s.erase b)
    · obtain rfl : a = b := (List.mem_cons.1 h).resolve_right hmem
      exact (lookup_eraseAll_of_notMem hmem _).trans (lookup_erase a s)

/-- Dropping keys brings no value into the table. -/
theorem lookup_of_lookup_erase (h : (s.erase b).lookup a = some v) : s.lookup a = some v := by
  by_cases hab : a = b
  · subst hab
    rw [lookup_erase] at h
    simp at h
  · rwa [lookup_erase_ne hab] at h

theorem lookup_of_lookup_eraseAll {keys : List K} (h : (s.eraseAll keys).lookup a = some v) :
    s.lookup a = some v := by
  by_cases hmem : a ∈ keys
  · rw [lookup_eraseAll_of_mem hmem] at h
    simp at h
  · rwa [lookup_eraseAll_of_notMem hmem] at h

/-! ### Retaining a part of the entries -/

omit [DecidableEq K] in
theorem keys_filterMap_sublist (f : V → Option W) (entries : List (Sigma fun _ : K ↦ V)) :
    (entries.filterMap fun e ↦ (f e.2).map (Sigma.mk (β := fun _ : K ↦ W) e.1)).keys.Sublist
      entries.keys := by
  induction entries with
  | nil => exact List.Sublist.slnil
  | cons e entries ih =>
    rcases hf : f e.2 with - | w
    · rw [List.filterMap_cons_none (by rw [hf]; rfl)]
      exact ih.cons _
    · rw [List.filterMap_cons_some (by rw [hf]; rfl)]
      exact ih.cons_cons _

/-- The table of the values that a function lets through, as it leaves them. -/
def filterMapValues (f : V → Option W) (s : AList fun _ : K ↦ V) : AList fun _ : K ↦ W where
  entries := s.entries.filterMap fun e ↦ (f e.2).map (Sigma.mk e.1)
  nodupKeys := List.Nodup.sublist (keys_filterMap_sublist f s.entries) s.nodupKeys

omit [DecidableEq K] in
theorem length_entries_filterMapValues_le (f : V → Option W) :
    (s.filterMapValues f).entries.length ≤ s.entries.length :=
  List.length_filterMap_le _ _

omit [DecidableEq K] in
theorem AllValues.filterMapValues {P : W → Prop} {f : V → Option W}
    (h : s.AllValues fun v ↦ ∀ w, f v = some w → P w) : (s.filterMapValues f).AllValues P := by
  intro e he
  obtain ⟨d, hd, hfound⟩ := List.mem_filterMap.1 he
  obtain ⟨w, hw, rfl⟩ := Option.map_eq_some_iff.1 hfound
  exact h d hd w hw

theorem lookup_filterMapValues (f : V → Option W) (s : AList fun _ : K ↦ V) :
    (s.filterMapValues f).lookup a = (s.lookup a).bind f := by
  obtain ⟨entries, hnodup⟩ := s
  show (entries.filterMap fun e ↦ (f e.2).map (Sigma.mk (β := fun _ : K ↦ W) e.1)).dlookup a =
    (entries.dlookup a).bind f
  induction entries with
  | nil => rfl
  | cons e entries ih =>
    obtain ⟨k, v⟩ := e
    have hrest := ih (List.nodupKeys_cons.1 hnodup).2
    rcases hf : f v with - | w
    · rw [List.filterMap_cons_none (by rw [hf]; rfl), hrest]
      by_cases h : k = a
      · -- the key stands in no other entry
        subst h
        rw [List.dlookup_cons_eq, Option.bind_some, hf,
          List.dlookup_eq_none.2 (List.nodupKeys_cons.1 hnodup).1, Option.bind_none]
      · rw [List.dlookup_cons_ne _ _ (Ne.symm h)]
    · rw [List.filterMap_cons_some (by rw [hf]; rfl)]
      by_cases h : k = a
      · subst h
        rw [List.dlookup_cons_eq, List.dlookup_cons_eq, Option.bind_some, hf]
      · rw [List.dlookup_cons_ne _ _ (Ne.symm h), List.dlookup_cons_ne _ _ (Ne.symm h), hrest]

/-! ### Looking at a part of each value -/

/-- The table with a function applied to every value. -/
def mapValues (f : V → W) (s : AList fun _ : K ↦ V) : AList fun _ : K ↦ W where
  entries := s.entries.map fun e ↦ ⟨e.1, f e.2⟩
  nodupKeys := by
    have hkeys : (s.entries.map fun e ↦ (⟨e.1, f e.2⟩ : Sigma fun _ : K ↦ W)).keys =
        s.entries.keys := by
      simp [List.keys]
    rw [List.NodupKeys, hkeys]
    exact s.nodupKeys

theorem lookup_mapValues (f : V → W) (s : AList fun _ : K ↦ V) :
    (s.mapValues f).lookup a = (s.lookup a).map f := by
  obtain ⟨entries, hnodup⟩ := s
  show (entries.map fun e ↦ (⟨e.1, f e.2⟩ : Sigma fun _ : K ↦ W)).dlookup a =
    (entries.dlookup a).map f
  clear hnodup
  induction entries with
  | nil => rfl
  | cons e entries ih =>
    obtain ⟨k, v⟩ := e
    by_cases h : k = a
    · subst h
      simp
    · rw [List.map_cons, List.dlookup_cons_ne _ _ (Ne.symm h), List.dlookup_cons_ne _ _ (Ne.symm h),
        ih]

omit [DecidableEq K] in
theorem entries_mapValues_eq_nil (f : V → W) : (s.mapValues f).entries = [] ↔ s.entries = [] :=
  List.map_eq_nil_iff

/-! ### Values that carry their keys -/

/-- The table of some values under the keys they carry. A later value replaces an earlier one. -/
def ofValues (key : V → K) (values : List V) : AList fun _ : K ↦ V :=
  values.foldl (fun s v ↦ s.insert (key v) v) ∅

/-- **Where no two values carry one key, the table holds them all.** -/
theorem lookup_ofValues_eq_some_iff {key : V → K} {values : List V}
    (hnodup : (values.map key).Nodup) :
    (ofValues key values).lookup a = some v ↔ v ∈ values ∧ key v = a := by
  induction values using List.reverseRecOn with
  | nil => simp [ofValues]
  | append_singleton values w ih =>
    rw [List.map_append, List.nodup_append] at hnodup
    obtain ⟨hvalues, -, hdisjoint⟩ := hnodup
    have hother : ∀ u ∈ values, key u ≠ key w := fun u hu ↦
      hdisjoint (key u) (List.mem_map_of_mem hu) (key w) (by simp)
    have hinsert : ofValues key (values ++ [w]) = (ofValues key values).insert (key w) w := by
      simp [ofValues, List.foldl_append]
    rw [hinsert, List.mem_append, List.mem_singleton]
    by_cases h : a = key w
    · subst h
      rw [lookup_insert, Option.some.injEq]
      constructor
      · rintro rfl
        exact ⟨.inr rfl, rfl⟩
      · rintro ⟨hv | rfl, hkey⟩
        · exact absurd hkey (hother v hv)
        · rfl
    · rw [lookup_insert_ne h, ih hvalues]
      constructor
      · rintro ⟨hv, hkey⟩
        exact ⟨.inl hv, hkey⟩
      · rintro ⟨hv | rfl, hkey⟩
        · exact ⟨hv, hkey⟩
        · exact absurd hkey.symm h

end AList
