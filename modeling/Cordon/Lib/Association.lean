import Mathlib.Data.List.Nodup
import Mathlib.Data.List.Basic

/-!
# Keys that occur once in a list of entries

A list of entries as it was read need not be a map: a key may stand in it twice. `OccursOnce` is
what a reader may rely on, and it determines the value (`OccursOnce.unique`). Two ways of finding an
entry find such a key. Filtering finds nothing else (`filter_eq_singleton_iff`); looking a key up
finds the first entry, which is the only one where no key is repeated (`lookup_eq_some_iff`).

A key that may be missing still must not be repeated: `OccursAtMostOnce` says so of one key, and a
filter sees it (`length_filter_le_one_iff`). A key that is found and is not repeated occurs once.

None of this needs an order of the keys or a decoder: the lists are those that some reader has
returned, and the values are of any type.
-/

namespace Association

variable {K V L W : Type} {entries : List (K × V)} {key : K} {value value' : V}

/-- The key stands in exactly one entry, with the value. -/
def OccursOnce (entries : List (K × V)) (key : K) (value : V) : Prop :=
  ∃ before after, entries = before ++ (key, value) :: after ∧ ∀ e ∈ before ++ after, e.1 ≠ key

theorem OccursOnce.mem (h : OccursOnce entries key value) : (key, value) ∈ entries := by
  obtain ⟨before, after, rfl, -⟩ := h
  simp

/-- A key that occurs once has one value. -/
theorem OccursOnce.unique (h : OccursOnce entries key value) (h' : OccursOnce entries key value') :
    value' = value := by
  obtain ⟨before, after, rfl, hothers⟩ := h
  have hmem := h'.mem
  rw [List.mem_append, List.mem_cons, Prod.mk.injEq] at hmem
  rcases hmem with hmem | ⟨-, rfl⟩ | hmem
  · exact absurd rfl (hothers _ (List.mem_append_left _ hmem))
  · rfl
  · exact absurd rfl (hothers _ (List.mem_append_right _ hmem))

/-- No two entries have the key. -/
def OccursAtMostOnce (entries : List (K × V)) (key : K) : Prop :=
  entries.Pairwise fun e e' ↦ ¬(e.1 = key ∧ e'.1 = key)

theorem occursAtMostOnce_of_forall_ne (h : ∀ e ∈ entries, e.1 ≠ key) :
    OccursAtMostOnce entries key :=
  List.pairwise_of_forall_mem_list fun e he _ _ heq ↦ h e he heq.1

theorem OccursOnce.occursAtMostOnce (h : OccursOnce entries key value) :
    OccursAtMostOnce entries key := by
  obtain ⟨before, after, rfl, hothers⟩ := h
  have hbefore : ∀ e ∈ before, e.1 ≠ key := fun e he ↦ hothers e (List.mem_append_left _ he)
  have hafter : ∀ e ∈ after, e.1 ≠ key := fun e he ↦ hothers e (List.mem_append_right _ he)
  refine List.pairwise_append.2 ⟨?_, List.pairwise_cons.2 ⟨?_, ?_⟩, ?_⟩
  · exact occursAtMostOnce_of_forall_ne hbefore
  · exact fun e he h ↦ hafter e he h.2
  · exact occursAtMostOnce_of_forall_ne hafter
  · exact fun e he _ _ h ↦ hbefore e he h.1

theorem OccursAtMostOnce.occursOnce (h : OccursAtMostOnce entries key)
    (hmem : (key, value) ∈ entries) : OccursOnce entries key value := by
  obtain ⟨before, after, rfl⟩ := List.append_of_mem hmem
  obtain ⟨-, hcons, hcross⟩ := List.pairwise_append.1 h
  refine ⟨before, after, rfl, fun e he heq ↦ ?_⟩
  rcases List.mem_append.1 he with he | he
  · exact hcross e he _ List.mem_cons_self ⟨heq, rfl⟩
  · exact List.rel_of_pairwise_cons hcons he ⟨rfl, heq⟩

/-- Where no key is repeated, this one is not. -/
theorem occursAtMostOnce_of_nodup (hnodup : (entries.map Prod.fst).Nodup) (key : K) :
    OccursAtMostOnce entries key := by
  refine (List.pairwise_map.1 hnodup).imp ?_
  rintro e e' hne ⟨rfl, heq⟩
  exact hne heq.symm

/-- **A filter finds more than one entry exactly when the key is repeated.** -/
theorem length_filter_le_one_iff {p : K → Bool} (hp : ∀ e ∈ entries, p e.1 = true ↔ e.1 = key) :
    (entries.filter fun e ↦ p e.1).length ≤ 1 ↔ OccursAtMostOnce entries key := by
  induction entries with
  | nil => simp [OccursAtMostOnce]
  | cons e entries ih =>
    obtain ⟨hfirst, hrest⟩ := List.forall_mem_cons.1 hp
    rw [OccursAtMostOnce, List.pairwise_cons, ← OccursAtMostOnce, ← ih hrest]
    by_cases he : e.1 = key
    · have hnone : (∀ e' ∈ entries, ¬(e.1 = key ∧ e'.1 = key)) ↔
          (entries.filter fun e ↦ p e.1).length = 0 := by
        rw [List.length_eq_zero_iff, List.filter_eq_nil_iff]
        exact forall₂_congr fun e' he' ↦ by simp [he, hrest e' he']
      have hfilter : ((e :: entries).filter fun e ↦ p e.1) = e :: entries.filter fun e ↦ p e.1 :=
        List.filter_cons_of_pos (hfirst.2 he)
      rw [hfilter, List.length_cons, hnone]
      omega
    · have hfilter : ((e :: entries).filter fun e ↦ p e.1) = entries.filter fun e ↦ p e.1 :=
        List.filter_cons_of_neg (mt hfirst.1 he)
      rw [hfilter]
      simp [he]

/-- **Filtering by a key finds one entry exactly when the key occurs once.** -/
theorem filter_eq_singleton_iff {p : K → Bool} (hp : ∀ k, p k = true ↔ k = key)
    {e : K × V} :
    entries.filter (fun e ↦ p e.1) = [e] ↔ e.1 = key ∧ OccursOnce entries key e.2 := by
  rw [List.filter_eq_cons_iff]
  constructor
  · rintro ⟨before, after, rfl, hbefore, hkey, hafter⟩
    obtain rfl := (hp _).1 hkey
    refine ⟨rfl, before, after, rfl, fun e' he' ↦ ?_⟩
    rcases List.mem_append.1 he' with he' | he'
    · exact fun heq ↦ hbefore e' he' ((hp _).2 heq)
    · exact fun heq ↦ List.filter_eq_nil_iff.1 hafter e' he' ((hp _).2 heq)
  · rintro ⟨rfl, before, after, rfl, hothers⟩
    refine ⟨before, after, rfl, fun e' he' h ↦ ?_, (hp _).2 rfl, List.filter_eq_nil_iff.2 ?_⟩
    · exact hothers e' (List.mem_append_left _ he') ((hp _).1 h)
    · exact fun e' he' h ↦ hothers e' (List.mem_append_right _ he') ((hp _).1 h)

/-- Where no key is repeated, every key that occurs does so once. -/
theorem occursOnce_iff_mem (hnodup : (entries.map Prod.fst).Nodup) :
    OccursOnce entries key value ↔ (key, value) ∈ entries := by
  refine ⟨OccursOnce.mem, fun hmem ↦ ?_⟩
  obtain ⟨before, after, rfl⟩ := List.append_of_mem hmem
  refine ⟨before, after, rfl, fun e he heq ↦ ?_⟩
  rw [List.map_append, List.map_cons, List.nodup_middle, List.nodup_cons] at hnodup
  refine hnodup.1 ?_
  rw [← List.map_append]
  exact List.mem_map.2 ⟨e, he, heq⟩

/-- **Looking a key up finds it exactly when it occurs**, where no key is repeated. -/
theorem lookup_eq_some_iff [DecidableEq K] (hnodup : (entries.map Prod.fst).Nodup) :
    entries.lookup key = some value ↔ OccursOnce entries key value := by
  rw [occursOnce_iff_mem hnodup]
  induction entries with
  | nil => simp
  | cons e entries ih =>
    obtain ⟨k, v⟩ := e
    obtain ⟨hk, hnodup⟩ := List.nodup_cons.1 hnodup
    rw [List.lookup_cons, List.mem_cons, Prod.mk.injEq]
    by_cases heq : key = k
    · subst heq
      have hnot : (key, value) ∉ entries := fun hmem ↦ hk (List.mem_map.2 ⟨_, hmem, rfl⟩)
      simp [hnot, eq_comm]
    · rw [beq_false_of_ne heq]
      simp [heq, ih hnodup]

/-- Entries that are rewritten one by one keep the keys that occur once. -/
theorem occursOnce_map_iff {f : K → L} {g : V → W} (hf : Function.Injective f)
    (hnodup : (entries.map Prod.fst).Nodup) {w : W} :
    OccursOnce (entries.map (Prod.map f g)) (f key) w ↔
      ∃ value, OccursOnce entries key value ∧ g value = w := by
  have hnodup' : ((entries.map (Prod.map f g)).map Prod.fst).Nodup := by
    have hkeys : (entries.map (Prod.map f g)).map Prod.fst = (entries.map Prod.fst).map f := by
      simp
    rw [hkeys]
    exact hnodup.map hf
  rw [occursOnce_iff_mem hnodup']
  simp only [occursOnce_iff_mem hnodup, List.mem_map, Prod.exists, Prod.map_apply, Prod.mk.injEq,
    hf.eq_iff]
  constructor
  · rintro ⟨k, v, hmem, rfl, rfl⟩
    exact ⟨v, hmem, rfl⟩
  · rintro ⟨v, hmem, rfl⟩
    exact ⟨key, v, hmem, rfl, rfl⟩

end Association
