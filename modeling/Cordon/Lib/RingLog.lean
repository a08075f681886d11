import Mathlib.Data.List.DropRight

/-!
# A bounded ring with numbered entries, and a reader who comes back

A ring keeps the last entries that were pushed, up to its capacity, and counts all of them. The
number of an entry is its place in what was ever pushed, which the ring itself no longer holds:
`Holds` is the relation of a ring to that log.

A reader asks for what came after a number and is told the number of the last entry, to ask with the
next time. It shows the last entries it was given. `since_eq` says what one question is answered
with. An answer may reach the reader when the log has long grown, so what it says is stated of the
log as it was (`Answers`), and stays true (`Answers.append`).

**A reader who asks with the number of the last answer it has received** is given each entry once
and in order, except for those that the ring has lost in between, and shows the end of the log that
its last answer knew (`Gathered.receive`). Nothing of this holds of a reader who asks again before
it has the answer: it is given the same entries twice.
-/

/-- The entries that are held, and the count of all that were pushed. -/
structure RingLog (α : Type) where
  items : List α
  written : ℕ
  deriving DecidableEq, Repr

namespace RingLog

variable {α : Type} {capacity : ℕ} {ring : RingLog α} {log : List α}

/-- Nothing was pushed yet. -/
def empty : RingLog α := ⟨[], 0⟩

/-- Push an entry; a full ring loses its first. -/
def push (capacity : ℕ) (ring : RingLog α) (x : α) : RingLog α :=
  ⟨(if capacity ≤ ring.items.length then ring.items.tail else ring.items) ++ [x], ring.written + 1⟩

/-- Push some entries in order. -/
def pushAll (capacity : ℕ) (ring : RingLog α) (xs : List α) : RingLog α :=
  xs.foldl (push capacity) ring

/-- The entries after a number, with the number of the last. -/
def since (ring : RingLog α) (after : ℕ) : ℕ × List α :=
  let held := ring.items.length
  let firstHeld := ring.written - held
  (ring.written, ring.items.drop (min (after - firstHeld) held))

/-- A ring holds the end of a log, and its length. -/
structure Holds (capacity : ℕ) (ring : RingLog α) (log : List α) : Prop where
  items : ring.items = log.rtake capacity
  written : ring.written = log.length

theorem holds_empty : Holds capacity (empty : RingLog α) [] :=
  ⟨(List.rtake_nil ..).symm, rfl⟩

/-- **One push** keeps the relation. -/
theorem Holds.push (h : Holds capacity ring log) (hpos : 0 < capacity) (x : α) :
    Holds capacity (ring.push capacity x) (log ++ [x]) := by
  obtain ⟨n, rfl⟩ := Nat.exists_eq_succ_of_ne_zero hpos.ne'
  refine ⟨?_, by simp [RingLog.push, h.written]⟩
  rw [RingLog.push, List.rtake_concat_succ]
  show (if _ then _ else _) ++ [x] = _
  have hlength : ring.items.length = min (n + 1) log.length := by
    rw [h.items, List.rtake, List.length_drop]
    omega
  congr 1
  split_ifs with hfull
  · -- the ring is full, so the log is at least as long
    have hlog : n + 1 ≤ log.length := by omega
    rw [h.items, List.rtake, List.rtake, List.tail_drop]
    congr 1
    omega
  · have hlog : log.length - (n + 1) = 0 ∧ log.length - n = 0 := by omega
    rw [h.items, List.rtake, List.rtake, hlog.1, hlog.2]

/-- So do several. -/
theorem Holds.pushAll (h : Holds capacity ring log) (hpos : 0 < capacity) (xs : List α) :
    Holds capacity (ring.pushAll capacity xs) (log ++ xs) := by
  induction xs generalizing ring log with
  | nil => simpa [RingLog.pushAll] using h
  | cons x xs ih =>
    rw [← List.singleton_append, ← List.append_assoc]
    exact ih (h.push hpos x)

/-- **What one question is answered with**: all that came after the number and is still held. -/
theorem Holds.since_eq (h : Holds capacity ring log) (after : ℕ) :
    ring.since after = (log.length, log.drop (max after (log.length - capacity))) := by
  have hlength : ring.items.length = min capacity log.length := by
    rw [h.items, List.rtake, List.length_drop]
    omega
  rw [since]
  refine Prod.ext h.written ?_
  show ring.items.drop (min (after - (ring.written - ring.items.length)) ring.items.length) = _
  rw [hlength, h.written, h.items, List.rtake, List.drop_drop]
  by_cases hafter : after ≤ log.length
  · congr 1
    omega
  · -- the number is of an entry that does not exist yet
    rw [List.drop_eq_nil_of_le (by omega), List.drop_eq_nil_of_le (by omega)]

/-! ### A reader -/

/-- An answer that was given when the log was so long: the entries after a number that the ring held
then. -/
structure Answers (capacity : ℕ) (log : List α) (after : ℕ) (answer : ℕ × List α) : Prop where
  le : answer.1 ≤ log.length
  batch : answer.2 = (log.take answer.1).drop (max after (answer.1 - capacity))

/-- The ring answers. -/
theorem Holds.answers (h : Holds capacity ring log) (after : ℕ) :
    Answers capacity log after (ring.since after) := by
  rw [h.since_eq]
  exact ⟨le_rfl, by rw [List.take_length]⟩

variable {after : ℕ} {answer : ℕ × List α}

/-- The log may grow before the answer arrives. -/
theorem Answers.append (h : Answers capacity log after answer) (xs : List α) :
    Answers capacity (log ++ xs) after answer where
  le := by
    rw [List.length_append]
    exact h.le.trans (Nat.le_add_right _ _)
  batch := by rw [List.take_append_of_le_length h.le, h.batch]

/-- The number a reader asks with, what it was given each time, and what it shows. -/
@[ext]
structure Reader (α : Type) where
  mark : ℕ
  batches : List (List α)
  shown : List α
  deriving DecidableEq, Repr

/-- A reader that has not asked yet. -/
def Reader.start : Reader α := ⟨0, [], []⟩

/-- Receive an answer. Of what was given, the last entries are shown. -/
def Reader.receive (room : ℕ) (reader : Reader α) (answer : ℕ × List α) : Reader α :=
  ⟨answer.1, reader.batches ++ [answer.2],
    if answer.2.isEmpty then reader.shown else (reader.shown ++ answer.2).rtake room⟩

@[simp]
theorem Reader.mark_receive (room : ℕ) (reader : Reader α) (answer : ℕ × List α) :
    (reader.receive room answer).mark = answer.1 :=
  rfl

@[simp]
theorem Reader.batches_receive (room : ℕ) (reader : Reader α) (answer : ℕ × List α) :
    (reader.receive room answer).batches = reader.batches ++ [answer.2] :=
  rfl

/-- What a reader has gathered of a log that a ring of a capacity numbers. -/
structure Gathered (capacity room : ℕ) (reader : Reader α) (log : List α) : Prop where
  mark_le : reader.mark ≤ log.length
  /-- Each entry was given at most once, and in order. -/
  inOrder : reader.batches.flatten.Sublist (log.take reader.mark)
  /-- Where no batch fills the ring, nothing was missed. -/
  complete : (∀ batch ∈ reader.batches, batch.length < capacity) →
    reader.batches.flatten = log.take reader.mark
  shown : reader.shown = (log.take reader.mark).rtake room

variable {room : ℕ} {reader : Reader α}

theorem gathered_start : Gathered capacity room (Reader.start : Reader α) [] :=
  ⟨le_rfl, List.Sublist.slnil, fun _ ↦ rfl, (List.rtake_nil ..).symm⟩

/-- What was gathered of a log was gathered of a longer one. -/
theorem Gathered.append (h : Gathered capacity room reader log) (xs : List α) :
    Gathered capacity room reader (log ++ xs) := by
  have htake : (log ++ xs).take reader.mark = log.take reader.mark :=
    List.take_append_of_le_length h.mark_le
  refine ⟨?_, htake ▸ h.inOrder, fun hshort ↦ htake ▸ h.complete hshort, htake ▸ h.shown⟩
  rw [List.length_append]
  exact h.mark_le.trans (Nat.le_add_right _ _)

/-- The end of a list, from the end of a part of it and the end of the rest. -/
theorem rtake_rtake_append_drop (xs : List α) {m : ℕ} (hm : m ≤ xs.length)
    (hroom : room ≤ capacity) :
    ((xs.take m).rtake room ++ xs.drop (max m (xs.length - capacity))).rtake room =
      xs.rtake room := by
  rcases Nat.le_total (xs.length - capacity) m with hall | hlost
  · -- nothing is missing between the parts
    have hparts : (xs.take m).rtake room ++ xs.drop m = xs.drop (m - room) := by
      rw [List.rtake, List.length_take, Nat.min_eq_left hm]
      conv_rhs => rw [← List.take_append_drop m xs]
      rw [List.drop_append_of_le_length (by rw [List.length_take]; omega)]
    rw [Nat.max_eq_left hall, hparts, List.rtake, List.rtake, List.drop_drop, List.length_drop]
    congr 1
    omega
  · -- the rest alone is long enough
    rw [Nat.max_eq_right hlost, List.rtake, List.drop_append, List.rtake, List.rtake,
      List.drop_drop, List.drop_drop, List.length_append, List.length_drop, List.length_drop,
      List.length_take,
      Nat.min_eq_left hm, List.drop_eq_nil_of_le (by rw [List.length_take]; omega),
      List.nil_append]
    congr 1
    omega

/-- **An answer to the last number** adds what is new and was not lost. -/
theorem Gathered.receive (h : Gathered capacity room reader log) (hroom : room ≤ capacity)
    (hanswer : Answers capacity log reader.mark answer) (hmark : reader.mark ≤ answer.1) :
    Gathered capacity room (reader.receive room answer) log := by
  obtain ⟨mark, batch⟩ := answer
  obtain ⟨hle, hbatch⟩ := hanswer
  obtain rfl : batch = (log.take mark).drop (max reader.mark (mark - capacity)) := hbatch
  have hlength : (log.take mark).length = mark := by
    rw [List.length_take, Nat.min_eq_left hle]
  have htaken : (log.take mark).take reader.mark = log.take reader.mark := by
    rw [List.take_take, Nat.min_eq_left hmark]
  have hparts : log.take reader.mark ++ (log.take mark).drop reader.mark = log.take mark := by
    rw [← htaken, List.take_append_drop]
  have hflatten : (reader.batches ++
        [(log.take mark).drop (max reader.mark (mark - capacity))]).flatten =
      reader.batches.flatten ++ (log.take mark).drop (max reader.mark (mark - capacity)) := by
    rw [List.flatten_append, List.flatten_singleton]
  refine ⟨hle, ?_, fun hshort ↦ ?_, ?_⟩
  · have hsublist := h.inOrder.append
      (List.drop_sublist_drop_left (log.take mark) (Nat.le_max_left reader.mark (mark - capacity)))
    rw [hparts, ← hflatten] at hsublist
    exact hsublist
  · have hshort' : ∀ batch ∈ reader.batches ++
        [(log.take mark).drop (max reader.mark (mark - capacity))], batch.length < capacity :=
      hshort
    rw [List.forall_mem_append, List.forall_mem_singleton, List.length_drop, hlength] at hshort'
    have hall : max reader.mark (mark - capacity) = reader.mark := by omega
    refine hflatten.trans ?_
    rw [h.complete hshort'.1, hall]
    exact hparts
  · have hshown := rtake_rtake_append_drop (log.take mark) (hlength.symm ▸ hmark) hroom
    rw [htaken, ← h.shown, hlength] at hshown
    rw [Reader.receive]
    split
    · next hempty =>
      -- nothing is new, so what is shown stays
      have hnone : (log.take mark).drop (max reader.mark (mark - capacity)) = [] :=
        List.isEmpty_iff.1 hempty
      have hroomy : reader.shown.length - room = 0 := by
        rw [h.shown, List.rtake, List.length_drop]
        omega
      rw [hnone, List.append_nil, List.rtake, hroomy, List.drop_zero] at hshown
      exact hshown
    · exact hshown

/-- What an answer brings: the end of what has been added to the log. -/
theorem Holds.since_eq_rtake (h : Holds capacity ring log) (after : ℕ) :
    ring.since after = (log.length, (log.drop after).rtake capacity) := by
  rw [h.since_eq, List.rtake, List.length_drop, List.drop_drop]
  congr 2
  omega

end RingLog
