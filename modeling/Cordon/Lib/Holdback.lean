import Mathlib.Data.List.Basic
import Mathlib.Data.List.Infix

/-!
# Releasing a text piece by piece behind a held-back tail

A producer looks at successive versions of a text that is still growing, and after each look hands
over what it has not handed over yet, but for the last `h` characters of the version at hand.
Nothing that was handed over can be taken back, so the question is when the pieces make up the
beginning of the final text.

`released_isPrefix_iff` answers it **exactly**: each position must carry its final character in the
first version that is long enough to hand it over. Later versions may say something else there
without harm, and this is why the exact condition is about first versions and not about all of
them. `released_isPrefix` is the usual sufficient form: every version, but for its tail, is the
beginning of the final text.

All three are inductions over the looks. The versions are a function of what has been looked at, so
a text may be scanned again at every look and come out different each time; nothing is asked of it
between looks.
-/

namespace Holdback

variable {α : Type*} {h : ℕ} {r out final : List α}

/-- What a version lets go of: all but its last `h` characters. -/
def releasable (h : ℕ) (out : List α) : List α :=
  out.take (out.length - h)

@[simp] theorem length_releasable (h : ℕ) (out : List α) :
    (releasable h out).length = out.length - h := by
  rw [releasable, List.length_take]
  omega

theorem releasable_isPrefix (h : ℕ) (out : List α) : releasable h out <+: out :=
  List.take_prefix _ _

/-- A beginning of a version lets go of no more than the version does. -/
theorem releasable_isPrefix_of_isPrefix {h : ℕ} {a out : List α} (ha : a <+: out) :
    releasable h a <+: releasable h out := by
  have hle := ha.length_le
  refine List.prefix_take_iff.2 ⟨(releasable_isPrefix h a).trans ha, ?_⟩
  rw [length_releasable]
  omega

/-- What has been handed over after a look at the version `out`, with `r` handed over before. -/
def extend (h : ℕ) (r out : List α) : List α :=
  r ++ (releasable h out).drop r.length

theorem length_extend (h : ℕ) (r out : List α) :
    (extend h r out).length = max r.length (out.length - h) := by
  rw [extend, List.length_append, List.length_drop, length_releasable]
  omega

/-- Two lists of which one begins the other, compared position by position. -/
theorem isPrefix_iff_getElem? {a b : List α} :
    a <+: b ↔ ∀ j < a.length, a[j]? = b[j]? := by
  refine ⟨?_, fun hall ↦ ?_⟩
  · rintro ⟨c, rfl⟩ j hj
    rw [List.getElem?_append_left hj]
  · refine List.prefix_iff_eq_take.2 (List.ext_getElem? fun j ↦ ?_)
    rw [List.getElem?_take]
    split
    · next hj => exact hall j hj
    · next hj => exact List.getElem?_eq_none (by omega)

/-- **One look**: what was handed over must be right, and so must what is handed over now. -/
theorem extend_isPrefix_iff : extend h r out <+: final ↔
    r <+: final ∧ ∀ j, r.length ≤ j → j < out.length - h → out[j]? = final[j]? := by
  rw [isPrefix_iff_getElem?, isPrefix_iff_getElem?, length_extend, extend]
  have hnew : ∀ j, r.length ≤ j → j < out.length - h →
      (r ++ (releasable h out).drop r.length)[j]? = out[j]? := by
    intro j hrj hj
    rw [List.getElem?_append_right hrj, List.getElem?_drop, releasable,
      List.getElem?_take_of_lt (by omega), Nat.add_sub_cancel' hrj]
  refine ⟨fun hall ↦ ⟨fun j hj ↦ ?_, fun j hrj hj ↦ ?_⟩, fun hall j hj ↦ ?_⟩
  · rw [← hall j (by omega), List.getElem?_append_left hj]
  · rw [← hall j (by omega), hnew j hrj hj]
  · rcases Nat.lt_or_ge j r.length with hjr | hjr
    · rw [List.getElem?_append_left hjr, hall.1 j hjr]
    · rw [hnew j hjr (by omega), hall.2 j hjr (by omega)]

/-- What has been handed over after a look at each of the versions. -/
def released (h : ℕ) (outs : List (List α)) : List α :=
  outs.foldl (extend h) []

theorem released_append_singleton (h : ℕ) (outs : List (List α)) (out : List α) :
    released h (outs ++ [out]) = extend h (released h outs) out := by
  rw [released, List.foldl_append]
  rfl

/-- The longest version decides how much has been handed over. -/
theorem length_released_le {outs : List (List α)} {j : ℕ} :
    (released h outs).length ≤ j ↔ ∀ out ∈ outs, out.length - h ≤ j := by
  induction outs using List.reverseRecOn with
  | nil => simp [released]
  | append_singleton outs out ih =>
    rw [released_append_singleton, length_extend, Nat.max_le, ih]
    simp only [List.mem_append, List.mem_singleton]
    exact ⟨fun hall o ho ↦ ho.elim (hall.1 o) fun heq ↦ heq ▸ hall.2,
      fun hall ↦ ⟨fun o ho ↦ hall o (Or.inl ho), hall out (Or.inr rfl)⟩⟩

/-- **When the pieces make up the beginning of the final text**: each position carries its final
character in the first version that hands it over. The version at a look is `F p`, with `p` what is
looked at. -/
theorem released_isPrefix_iff {β : Type*} {F : β → List α} {ps : List β} :
    released h (ps.map F) <+: final ↔
      ∀ before p, before ++ [p] <+: ps → ∀ j, (∀ q ∈ before, (F q).length - h ≤ j) →
        j < (F p).length - h → (F p)[j]? = final[j]? := by
  induction ps using List.reverseRecOn with
  | nil => simp [released]
  | append_singleton ps p ih =>
    have hlength : ∀ j, (released h (ps.map F)).length ≤ j ↔ ∀ q ∈ ps, (F q).length - h ≤ j := by
      intro j
      rw [length_released_le, List.forall_mem_map]
    rw [List.map_append, List.map_singleton, released_append_singleton, extend_isPrefix_iff, ih]
    refine ⟨fun hall before q hq j hbefore hj ↦ ?_, fun hall ↦ ⟨fun before q hq ↦ ?_, ?_⟩⟩
    · rcases List.prefix_concat_iff.1 hq with heq | hlt
      · obtain ⟨rfl, heq'⟩ := List.append_inj' heq rfl
        obtain rfl : q = p := by simpa using heq'
        exact hall.2 j ((hlength j).2 hbefore) hj
      · exact hall.1 before q hlt j hbefore hj
    · exact hall before q (hq.trans (List.prefix_append _ _))
    · intro j hrj hj
      exact hall ps p List.prefix_rfl j ((hlength j).1 hrj) hj

/-- **Versions that are right but for their tails are enough.** -/
theorem released_isPrefix {outs : List (List α)} (hall : ∀ out ∈ outs, releasable h out <+: final) :
    released h outs <+: final := by
  rw [← List.map_id outs]
  refine released_isPrefix_iff.2 fun before out hout j _ hj ↦ ?_
  have hmem : out ∈ outs := hout.subset (by simp)
  rw [id_eq] at hj ⊢
  rw [← isPrefix_iff_getElem?.1 (hall out hmem) j (by simpa using hj), releasable,
    List.getElem?_take_of_lt hj]

/-- **The last piece closes the gap** exactly when the pieces before it begin the final text. -/
theorem append_drop_eq_iff : r ++ final.drop r.length = final ↔ r <+: final :=
  ⟨fun heq ↦ ⟨_, heq⟩, fun hr ↦ (List.prefix_iff_eq_append.1 hr)⟩

end Holdback
