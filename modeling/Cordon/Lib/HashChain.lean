import Mathlib.Data.List.Basic
import Mathlib.Data.List.Induction
import Mathlib.Data.Set.Basic

/-!
# Hash chains and what a signature on every link is worth

A chain over bodies `β` starts from a genesis value and links each body to the hash before it:
`links link g [b₁, b₂, …] = [link g b₁, link (link g b₁) b₂, …]`.

The adversary of this file presents **any** list of bodies whose links were all signed. The signer
signs only the links of one run, so each presented link is one of the run's; the theorem
`prefix_of_signed` says the presented bodies are then a prefix of the run's. Three facts each close
a different forgery, and all three are hypotheses:

* `link` is injective **on the pairs that actually occur** (`InjOnPairs`), so a link fixes both its
  predecessor and its body;
* the genesis value is not a link of the run, so a presented list cannot start in the middle;
* from these two, the links of a run are pairwise distinct (`links_nodup`), so a presented link sits
  at one place of the run only, and a list cannot skip or repeat.
-/

namespace HashChain

variable {H β : Type*}

/-- The links of a chain of bodies, from a genesis value on. -/
def links (link : H → β → H) : H → List β → List H
  | _, [] => []
  | g, b :: bs => link g b :: links link (link g b) bs

/-- The pairs of predecessor and body that a chain links. -/
def pairs (link : H → β → H) : H → List β → List (H × β)
  | _, [] => []
  | g, b :: bs => (g, b) :: pairs link (link g b) bs

/-- `link` takes no two distinct pairs of `S` to one value. -/
def InjOnPairs (link : H → β → H) (S : Set (H × β)) : Prop :=
  ∀ p ∈ S, ∀ q ∈ S, link p.1 p.2 = link q.1 q.2 → p = q

variable {link : H → β → H} {g : H}

@[simp] theorem links_nil : links link g [] = [] := rfl

@[simp]
theorem links_cons (b : β) (bs : List β) :
    links link g (b :: bs) = link g b :: links link (link g b) bs :=
  rfl

/-- The links are the values of `link` on the chain's pairs. -/
theorem links_eq_map_pairs (bs : List β) :
    links link g bs = (pairs link g bs).map fun p ↦ link p.1 p.2 := by
  induction bs generalizing g with
  | nil => rfl
  | cons b bs ih => simp [pairs, ih]

@[simp]
theorem length_links (bs : List β) : (links link g bs).length = bs.length := by
  induction bs generalizing g with
  | nil => rfl
  | cons b bs ih => simp [ih]

/-- The value the next body of a chain will be linked to. -/
def tail (link : H → β → H) (g : H) (bs : List β) : H :=
  bs.foldl link g

/-- Extending a chain by one body links it to the tail. -/
theorem links_append_singleton (bs : List β) (b : β) :
    links link g (bs ++ [b]) = links link g bs ++ [link (tail link g bs) b] := by
  induction bs generalizing g with
  | nil => rfl
  | cons c bs ih => rw [List.cons_append, links_cons, ih, links_cons, List.cons_append]; rfl

theorem pairs_append_singleton (bs : List β) (b : β) :
    pairs link g (bs ++ [b]) = pairs link g bs ++ [(tail link g bs, b)] := by
  induction bs generalizing g with
  | nil => rfl
  | cons c bs ih => rw [List.cons_append, pairs, ih, pairs, List.cons_append]; rfl

/-- The predecessors of a chain's pairs, and after them its tail, are the genesis value and the
links. -/
theorem map_fst_pairs_append_tail (bs : List β) :
    (pairs link g bs).map Prod.fst ++ [tail link g bs] = g :: links link g bs := by
  induction bs generalizing g with
  | nil => rfl
  | cons b bs ih =>
    rw [pairs, List.map_cons, List.cons_append, links_cons, ← ih]
    rfl

/-- A link of a chain comes from a pair whose predecessor is the genesis value or an earlier
link: the step that walks a chain backwards. -/
theorem exists_pair_of_mem_links {bs : List β} {h : H} (hh : h ∈ links link g bs) :
    ∃ p ∈ pairs link g bs, link p.1 p.2 = h := by
  rw [links_eq_map_pairs] at hh
  obtain ⟨p, hp, rfl⟩ := List.mem_map.1 hh
  exact ⟨p, hp, rfl⟩

/-- The predecessor of every pair but the first is a link. -/
theorem fst_mem_of_mem_pairs {bs : List β} {p : H × β} (hp : p ∈ pairs link g bs) :
    p.1 = g ∨ p.1 ∈ links link g bs := by
  induction bs generalizing g with
  | nil => simp [pairs] at hp
  | cons b bs ih =>
    rcases List.mem_cons.1 hp with rfl | hp
    · exact Or.inl rfl
    · right
      rcases ih hp with h | h
      · rw [h]
        exact List.mem_cons_self
      · exact List.mem_cons_of_mem _ h

/-- **A presented chain whose first link lies on a run is that run's continuation.** The induction
is on the presented bodies; the invariant is that presentation and run stand at the same link `g`,
that every further presented link is a link of the run from here on, and that `g` itself is not
one of those. -/
theorem prefix_of_mem_links {S : Set (H × β)} (hinj : InjOnPairs link S) {run forged : List β}
    (hrun : ∀ p ∈ pairs link g run, p ∈ S) (hforged : ∀ p ∈ pairs link g forged, p ∈ S)
    (hnodup : (g :: links link g run).Nodup)
    (hmem : ∀ h ∈ links link g forged, h ∈ links link g run) : forged <+: run := by
  induction forged generalizing g run with
  | nil => exact List.nil_prefix
  | cons c forged ih =>
    -- the first presented link is some link of the run, so it has the run's pair
    obtain ⟨p, hp, hpc⟩ := exists_pair_of_mem_links (hmem (link g c) List.mem_cons_self)
    have hpair : p = (g, c) := hinj p (hrun p hp) (g, c) (hforged _ List.mem_cons_self) hpc
    rcases run with - | ⟨b, run⟩
    · simp [pairs] at hp
    have hb : b = c := by
      rcases List.mem_cons.1 hp with hhead | htail
      · rw [hpair] at hhead
        exact (congrArg Prod.snd hhead).symm
      · -- a later pair would have `g` as a predecessor, hence as a link
        exfalso
        have hg : g = link g b ∨ g ∈ links link (link g b) run := by
          have := fst_mem_of_mem_pairs htail
          rwa [hpair] at this
        have hnot : g ∉ links link g (b :: run) := (List.nodup_cons.1 hnodup).1
        rcases hg with h | h
        · exact hnot (by rw [links_cons, ← h]; exact List.mem_cons_self)
        · exact hnot (List.mem_cons_of_mem _ h)
    subst hb
    refine List.prefix_cons_inj b |>.2 (ih (fun p hp ↦ hrun p (List.mem_cons_of_mem _ hp))
      (fun p hp ↦ hforged p (List.mem_cons_of_mem _ hp)) (List.nodup_cons.1 hnodup).2 ?_)
    intro h hh
    have hmem' := hmem h (List.mem_cons_of_mem _ hh)
    rcases List.mem_cons.1 hmem' with rfl | hlater
    · -- a presented link equal to the current one would again point back into the chain
      exfalso
      obtain ⟨q, hq, hql⟩ := exists_pair_of_mem_links hh
      have hqp : q = (g, b) := hinj q (hforged q (List.mem_cons_of_mem _ hq)) (g, b)
        (hforged _ List.mem_cons_self) hql
      have hfst := fst_mem_of_mem_pairs hq
      rw [hqp] at hfst
      have hnot : g ∉ links link g (b :: run) := (List.nodup_cons.1 hnodup).1
      rcases hfst with h | h
      · exact hnot (by rw [links_cons, ← h]; exact List.mem_cons_self)
      · exact hnot (hmem g (List.mem_cons_of_mem _ h))
    · exact hlater

/-- The links of a run are pairwise distinct and differ from the genesis value, as soon as the
genesis value is not one of them: two equal links would have equal predecessors, back to the
genesis value. -/
theorem links_nodup {S : Set (H × β)} (hinj : InjOnPairs link S) {run : List β}
    (hrun : ∀ p ∈ pairs link g run, p ∈ S) (hg : g ∉ links link g run) :
    (g :: links link g run).Nodup := by
  induction run using List.reverseRecOn with
  | nil => simp
  | append_singleton run b ih =>
    rw [links_append_singleton] at hg ⊢
    have hnd := ih
      (fun p hp ↦ hrun p (by rw [pairs_append_singleton]; exact List.mem_append_left _ hp))
      (fun h ↦ hg (List.mem_append_left _ h))
    have hlast : (tail link g run, b) ∈ S :=
      hrun _ (by rw [pairs_append_singleton]; exact List.mem_append_right _ (by simp))
    -- the new link repeats no earlier one: its predecessor would be an earlier predecessor
    have hnew : link (tail link g run) b ∉ links link g run := by
      intro hmem
      obtain ⟨p, hp, hpl⟩ := exists_pair_of_mem_links hmem
      have hpS : p ∈ S :=
        hrun p (by rw [pairs_append_singleton]; exact List.mem_append_left _ hp)
      have hpt : p.1 = tail link g run := congrArg Prod.fst (hinj p hpS _ hlast hpl)
      rw [← map_fst_pairs_append_tail] at hnd
      exact (List.nodup_append.1 hnd).2.2 p.1 (List.mem_map_of_mem hp) _ (by simp) hpt
    rw [← List.cons_append, List.nodup_append]
    refine ⟨hnd, by simp, ?_⟩
    intro x hx y hy hxy
    rw [List.mem_singleton] at hy
    subst hy hxy
    rcases List.mem_cons.1 hx with h | h
    · exact hg (List.mem_append_right _ (by simp [h]))
    · exact hnew h

/-- **Tamper evidence.** A presented list of bodies, each of whose links is a link of one run, is a
prefix of that run. -/
theorem prefix_of_signed {S : Set (H × β)} (hinj : InjOnPairs link S) {run forged : List β}
    (hrun : ∀ p ∈ pairs link g run, p ∈ S) (hforged : ∀ p ∈ pairs link g forged, p ∈ S)
    (hg : g ∉ links link g run) (hmem : ∀ h ∈ links link g forged, h ∈ links link g run) :
    forged <+: run :=
  prefix_of_mem_links hinj hrun hforged (links_nodup hinj hrun hg) hmem

end HashChain
