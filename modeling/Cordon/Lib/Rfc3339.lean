import Cordon.Lib.Text
import Mathlib.Data.Nat.Log

/-!
# UTC timestamps and their RFC 3339 form

A timestamp is the broken-down civil time a date-time library keeps: a date, a time of day, and
nanoseconds that run past one second only in a leap second. The printed form is the one such a
library writes by default: four year digits (with a sign outside the years 0 to 9999), as many
fractional digits as the value needs out of none, three, six or nine, and a numeric offset.

The printed form is **injective** (`toRfc3339_injective`). That is what lets a digest over it stand
for the timestamp. The one place it could fail is the leap second, printed as the sixtieth; the
field `leap` records that nanoseconds exceed a second only in the last second of a minute, so no
ordinary second is printed that way.

The proof goes through the fields from left to right: each has one width (`length_pad`), or is ended
by a character that cannot stand in it. That a time of day is in its range is part of the type;
whether a month has a thirty-first plays no part, and neither does which instant a timestamp is.
-/

/-- A UTC timestamp. -/
structure DateTime where
  year : ℤ
  month : ℕ
  day : ℕ
  hour : ℕ
  minute : ℕ
  second : ℕ
  nanosecond : ℕ
  month_le : month ≤ 12 := by decide
  day_le : day ≤ 31 := by decide
  hour_lt : hour < 24 := by decide
  minute_lt : minute < 60 := by decide
  second_lt : second < 60 := by decide
  nanosecond_lt : nanosecond < 2000000000 := by decide
  /-- Nanoseconds exceed one second only in a leap second. -/
  leap : 1000000000 ≤ nanosecond → second = 59 := by decide
  deriving DecidableEq

namespace DateTime

/-- The first instant of a year, to try things on. -/
def startOf2026 : DateTime where
  year := 2026
  month := 1
  day := 1
  hour := 0
  minute := 0
  second := 0
  nanosecond := 0

/-! ### Decimal fields of fixed width -/

/-- The `w` low-order decimal digits of `n`. -/
def pad : ℕ → ℕ → List Char
  | 0, _ => []
  | w + 1, n => pad w (n / 10) ++ [Nat.digitChar (n % 10)]

@[simp]
theorem length_pad (w n : ℕ) : (pad w n).length = w := by
  induction w generalizing n with
  | zero => rfl
  | succ w ih => simp [pad, ih]

theorem digitChar_inj {m n : ℕ} (hm : m < 10) (hn : n < 10)
    (h : Nat.digitChar m = Nat.digitChar n) : m = n := by
  have hall : ∀ i < 10, ∀ j < 10, Nat.digitChar i = Nat.digitChar j → i = j := by decide
  exact hall m hm n hn h

theorem pad_inj {w m n : ℕ} (hm : m < 10 ^ w) (hn : n < 10 ^ w) (h : pad w m = pad w n) :
    m = n := by
  induction w generalizing m n with
  | zero => simp at hm hn; omega
  | succ w ih =>
    obtain ⟨hinit, hlast⟩ := List.append_inj' h rfl
    have hq : m / 10 = n / 10 :=
      ih (by rw [pow_succ] at hm; omega) (by rw [pow_succ] at hn; omega) hinit
    have hr : m % 10 = n % 10 :=
      digitChar_inj (Nat.mod_lt _ (by decide)) (Nat.mod_lt _ (by decide)) (by simpa using hlast)
    omega

/-- **With a fixed number of digits, texts are in the order of the numbers.** -/
theorem pad_lt_pad {w m n : ℕ} (h : m < n) (hn : n < 10 ^ w) : pad w m < pad w n := by
  induction w generalizing m n with
  | zero =>
    rw [pow_zero] at hn
    omega
  | succ w ih =>
    rw [pow_succ] at hn
    rcases Nat.lt_or_ge (m / 10) (n / 10) with hlt | hge
    · exact Text.append_lt_append (by simp) (ih hlt (by omega)) _ _
    · have hq : m / 10 = n / 10 := by omega
      have hall : ∀ i < 10, ∀ j < 10, i < j → Nat.digitChar i < Nat.digitChar j := by decide
      have hlast : [Nat.digitChar (m % 10)] < [Nat.digitChar (n % 10)] :=
        List.Lex.rel (hall _ (Nat.mod_lt _ (by decide)) _ (Nat.mod_lt _ (by decide)) (by omega))
      rw [pad, pad, hq]
      exact Text.append_left_lt _ hlast

/-- Decimal digits are digits: in particular none is a separator of the format. -/
theorem isDigit_of_mem_pad {w n : ℕ} {c : Char} (h : c ∈ pad w n) : c.isDigit = true := by
  induction w generalizing n with
  | zero => simp [pad] at h
  | succ w ih =>
    rcases List.mem_append.1 h with h | h
    · exact ih h
    · rw [List.mem_singleton] at h
      have hlt : n % 10 < 10 := Nat.mod_lt _ (by decide)
      subst h
      generalize n % 10 = k at hlt
      revert k
      decide

/-! ### The printed form -/

/-- The number of decimal digits a year outside the four-digit range is printed with. -/
def yearWidth (n : ℕ) : ℕ :=
  max 4 (Nat.log 10 n + 1)

/-- The year field: four digits, or a sign and at least four digits. -/
def yearField (y : ℤ) : List Char :=
  if 0 ≤ y ∧ y ≤ 9999 then pad 4 y.toNat
  else if y < 0 then '-' :: pad (yearWidth y.natAbs) y.natAbs
  else '+' :: pad (yearWidth y.natAbs) y.natAbs

/-- The fractional seconds: the shortest of none, three, six or nine digits that loses nothing. -/
def fractionField (nano : ℕ) : List Char :=
  if nano = 0 then []
  else if nano % 1000000 = 0 then '.' :: pad 3 (nano / 1000000)
  else if nano % 1000 = 0 then '.' :: pad 6 (nano / 1000)
  else '.' :: pad 9 nano

/-- The second as printed: a leap second is the sixtieth. -/
def printedSecond (t : DateTime) : ℕ :=
  if 1000000000 ≤ t.nanosecond then t.second + 1 else t.second

/-- The nanoseconds as printed. -/
def printedNano (t : DateTime) : ℕ :=
  if 1000000000 ≤ t.nanosecond then t.nanosecond - 1000000000 else t.nanosecond

/-- The date half of the printed form. -/
def dateField (t : DateTime) : List Char :=
  yearField t.year ++ ('-' :: pad 2 t.month ++ '-' :: pad 2 t.day)

/-- The time half of the printed form, up to the offset. -/
def timeField (t : DateTime) : List Char :=
  (pad 2 t.hour ++ ':' :: pad 2 t.minute ++ ':' :: pad 2 t.printedSecond) ++
    fractionField t.printedNano

/-- The characters of the RFC 3339 form. -/
def rfc3339Chars (t : DateTime) : List Char :=
  t.dateField ++ 'T' :: (t.timeField ++ "+00:00".toList)

/-- The RFC 3339 form of a timestamp. -/
def toRfc3339 (t : DateTime) : String :=
  String.ofList t.rfc3339Chars

example : toRfc3339 ⟨2024, 2, 29, 23, 59, 59, 1500000000, by decide, by decide, by decide,
    by decide, by decide, by decide, by decide⟩ = "2024-02-29T23:59:60.500+00:00" := by
  decide +kernel

/-- The compact form `%Y%m%dT%H%M%S`, to the second and without an offset. -/
def compactChars (t : DateTime) : List Char :=
  yearField t.year ++ pad 2 t.month ++ pad 2 t.day ++ 'T' :: (pad 2 t.hour ++ pad 2 t.minute ++
    pad 2 t.printedSecond)

/-! ### Injectivity -/

theorem lt_pow_yearWidth (n : ℕ) : n < 10 ^ yearWidth n :=
  lt_of_lt_of_le (Nat.lt_pow_succ_log_self (by decide) n)
    (Nat.pow_le_pow_right (by decide) (le_max_right _ _))

/-- A year is never printed as another one: a sign marks the years outside the four-digit range,
and the width of the digits is determined by their number. -/
theorem yearField_inj {y z : ℤ} (h : yearField y = yearField z) : y = z := by
  have hsign : ∀ {w n : ℕ} {c : Char} {l : List Char}, c = '-' ∨ c = '+' →
      pad w n ≠ c :: l := by
    intro w n c l hc heq
    have hd : c.isDigit = true := isDigit_of_mem_pad (heq ▸ List.mem_cons_self)
    rcases hc with rfl | rfl <;> exact absurd hd (by decide)
  have habs : ∀ {a b : ℕ}, pad (yearWidth a) a = pad (yearWidth b) b → a = b := by
    intro a b hab
    have hw : yearWidth a = yearWidth b := by simpa using congrArg List.length hab
    rw [← hw] at hab
    exact pad_inj (lt_pow_yearWidth a) (hw ▸ lt_pow_yearWidth b) hab
  unfold yearField at h
  split_ifs at h with h1 h2 h3 h4 h5 h6 h7
  · have := pad_inj (by omega) (by omega) h
    omega
  · exact absurd h (hsign (Or.inl rfl))
  · exact absurd h (hsign (Or.inr rfl))
  · exact absurd h.symm (hsign (Or.inl rfl))
  · have := habs (List.cons.inj h).2
    omega
  · simp at h
  · exact absurd h.symm (hsign (Or.inr rfl))
  · simp at h
  · have := habs (List.cons.inj h).2
    omega

theorem fractionField_inj {m n : ℕ} (hm : m < 1000000000) (hn : n < 1000000000)
    (h : fractionField m = fractionField n) : m = n := by
  have hlen := congrArg List.length h
  unfold fractionField at h hlen
  split_ifs at h hlen with h1 h2 h3 h4 h5 h6 h7 h8 h9 h10 h11 h12 <;>
    simp only [List.length_cons, List.length_nil, length_pad] at hlen <;> try omega
  · have := pad_inj (by omega) (by omega) (List.cons.inj h).2
    omega
  · have := pad_inj (by omega) (by omega) (List.cons.inj h).2
    omega
  · exact pad_inj (by omega) (by omega) (List.cons.inj h).2

theorem printed_inj {s t : DateTime} (hsec : s.printedSecond = t.printedSecond)
    (hnano : s.printedNano = t.printedNano) :
    s.second = t.second ∧ s.nanosecond = t.nanosecond := by
  have hs := s.leap
  have ht := t.leap
  have hs' := s.second_lt
  have ht' := t.second_lt
  unfold printedSecond at hsec
  unfold printedNano at hnano
  split_ifs at hsec hnano with h1 h2 h3 <;> grind

theorem timeField_inj {s t : DateTime} (h : s.timeField = t.timeField) :
    s.hour = t.hour ∧ s.minute = t.minute ∧ s.second = t.second ∧ s.nanosecond = t.nanosecond := by
  have hps : ∀ u : DateTime, u.printedSecond < 10 ^ 2 ∧ u.printedNano < 1000000000 := by
    intro u
    have := u.second_lt
    have := u.nanosecond_lt
    unfold printedSecond printedNano
    constructor <;> split_ifs <;> omega
  obtain ⟨hclock, hfrac⟩ := List.append_inj h (by simp)
  obtain ⟨hhm, hsec⟩ := List.append_inj' hclock (by simp)
  obtain ⟨hhour, hmin⟩ := List.append_inj' hhm (by simp)
  have hsec' := pad_inj (hps s).1 (hps t).1 (List.cons.inj hsec).2
  have hnano := fractionField_inj (hps s).2 (hps t).2 hfrac
  obtain ⟨h3, h4⟩ := printed_inj hsec' hnano
  refine ⟨pad_inj ?_ ?_ hhour, pad_inj ?_ ?_ (List.cons.inj hmin).2, h3, h4⟩
  · exact s.hour_lt.trans (by norm_num)
  · exact t.hour_lt.trans (by norm_num)
  · exact s.minute_lt.trans (by norm_num)
  · exact t.minute_lt.trans (by norm_num)

theorem dateField_inj {s t : DateTime} (h : s.dateField = t.dateField) :
    s.year = t.year ∧ s.month = t.month ∧ s.day = t.day := by
  obtain ⟨hyear, hmd⟩ := List.append_inj' h (by simp)
  obtain ⟨hmonth, hday⟩ := List.append_inj' hmd (by simp)
  refine ⟨yearField_inj hyear, pad_inj ?_ ?_ (List.cons.inj hmonth).2,
    pad_inj ?_ ?_ (List.cons.inj hday).2⟩
  · exact s.month_le.trans_lt (by norm_num)
  · exact t.month_le.trans_lt (by norm_num)
  · exact s.day_le.trans_lt (by norm_num)
  · exact t.day_le.trans_lt (by norm_num)

/-- The date half never contains the letter that ends it. -/
theorem not_mem_dateField (t : DateTime) : 'T' ∉ t.dateField := by
  have hpad : ∀ w n, 'T' ∉ pad w n := fun w n h ↦
    absurd (isDigit_of_mem_pad h) (by decide)
  have hyear : 'T' ∉ yearField t.year := by
    unfold yearField
    split_ifs <;> simp [hpad]
  simp [dateField, hpad, hyear]

/-- **The printed form determines the timestamp.** -/
theorem toRfc3339_injective : Function.Injective toRfc3339 := by
  intro s t h
  have hchars : s.rfc3339Chars = t.rfc3339Chars := by
    have := congrArg String.toList h
    simpa [toRfc3339] using this
  obtain ⟨hdate, hrest⟩ :=
    Text.cut_inj s.not_mem_dateField t.not_mem_dateField hchars
  obtain ⟨htime, -⟩ := List.append_inj' hrest rfl
  obtain ⟨h1, h2, h3⟩ := dateField_inj hdate
  obtain ⟨h4, h5, h6, h7⟩ := timeField_inj htime
  cases s
  cases t
  simp_all

end DateTime
