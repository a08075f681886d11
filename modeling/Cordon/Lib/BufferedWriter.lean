import Mathlib.Data.List.Basic

/-!
# A buffered writer over a file that may run out of room

A `Sink` is a file together with the length from which on the file system refuses more. A
`BufferedWriter` gathers what it is given in a buffer and hands it on when the buffer is full, when
it is flushed, and **when it is dropped**: dropping hands on what is left and tells nobody whether
that went well.

So an error does not undo anything. Whatever a writer has been given, and whichever of its calls has
failed, the file that stays behind holds all of it up to the file's room (`dropped_writeAll`,
`dropped_flush`).

The lemmas follow a writer by what it has been `given`: a call that succeeds adds to it, and a call
that fails leaves a file that is full (`makeSpace_of_eq_false`). The capacity of the buffer is a
parameter, and no result depends on it.
-/

/-- A file, and the length from which on the file system refuses more. -/
structure Sink (α : Type*) where
  contents : List α
  room : ℕ
  length_le : contents.length ≤ room

namespace Sink

variable {α : Type*}

/-- A new file. -/
def empty (room : ℕ) : Sink α :=
  ⟨[], room, Nat.zero_le room⟩

/-- The file takes what it has room for. -/
def writeAll (f : Sink α) (chunk : List α) : Sink α where
  contents := (f.contents ++ chunk).take f.room
  room := f.room
  length_le := List.length_take_le _ _

/-- Whether the file has room for all of a chunk. -/
def fits (f : Sink α) (chunk : List α) : Bool :=
  decide (f.contents.length + chunk.length ≤ f.room)

@[simp] theorem room_writeAll (f : Sink α) (chunk : List α) : (f.writeAll chunk).room = f.room :=
  rfl

theorem contents_writeAll_of_fits {f : Sink α} {chunk : List α} (h : f.fits chunk = true) :
    (f.writeAll chunk).contents = f.contents ++ chunk := by
  refine List.take_of_length_le ?_
  rw [List.length_append]
  exact of_decide_eq_true h

end Sink

/-- A writer that gathers up to `capacity` elements before it hands them to its file. -/
structure BufferedWriter (α : Type*) (capacity : ℕ) where
  file : Sink α
  buffer : List α
  buffer_le : buffer.length ≤ capacity

namespace BufferedWriter

variable {α : Type*} {capacity : ℕ}

/-- A writer that has been given nothing yet. -/
def new (capacity : ℕ) (file : Sink α) : BufferedWriter α capacity :=
  ⟨file, [], Nat.zero_le capacity⟩

/-- Hand the buffer to the file. What the file refuses stays in the buffer. -/
def flush (w : BufferedWriter α capacity) : BufferedWriter α capacity × Bool :=
  ({ file := w.file.writeAll w.buffer
     buffer := w.buffer.drop (w.file.room - w.file.contents.length)
     buffer_le := by
      rw [List.length_drop]
      exact Nat.le_trans (Nat.sub_le _ _) w.buffer_le }, w.file.fits w.buffer)

/-- Make sure that a chunk fits into the buffer beside what is there, if it can. -/
def makeSpace (w : BufferedWriter α capacity) (chunk : List α) : BufferedWriter α capacity × Bool :=
  if capacity - w.buffer.length < chunk.length then w.flush else (w, true)

/-- Put a chunk into the buffer, or hand it on at once if it is as long as the buffer is. -/
def put (w : BufferedWriter α capacity) (chunk : List α) : BufferedWriter α capacity × Bool :=
  if h : chunk.length < capacity ∧ w.buffer.length + chunk.length ≤ capacity then
    (⟨w.file, w.buffer ++ chunk, by rw [List.length_append]; exact h.2⟩, true)
  else (⟨w.file.writeAll chunk, w.buffer, w.buffer_le⟩, w.file.fits chunk)

/-- Write all of a chunk. -/
def writeAll (w : BufferedWriter α capacity) (chunk : List α) : BufferedWriter α capacity × Bool :=
  if h : chunk.length < capacity - w.buffer.length then
    (⟨w.file, w.buffer ++ chunk, by rw [List.length_append]; omega⟩, true)
  else
    match w.makeSpace chunk with
    | (w, false) => (w, false)
    | (w, true) => w.put chunk

/-- Everything the writer has been given and has not been refused. -/
def given (w : BufferedWriter α capacity) : List α :=
  w.file.contents ++ w.buffer

/-- What the file holds once the writer has been dropped. -/
def dropped (w : BufferedWriter α capacity) : List α :=
  w.flush.1.file.contents

/-! ### What a flush does -/

variable {w w' : BufferedWriter α capacity} {chunk : List α}

theorem dropped_eq (w : BufferedWriter α capacity) : w.dropped = w.given.take w.file.room :=
  rfl

@[simp] theorem room_flush (w : BufferedWriter α capacity) : w.flush.1.file.room = w.file.room :=
  rfl

/-- What a flush moves, it moves from the buffer to the end of the file. -/
theorem given_flush (w : BufferedWriter α capacity) : w.flush.1.given = w.given := by
  show (w.file.contents ++ w.buffer).take w.file.room ++ _ = w.file.contents ++ w.buffer
  rw [List.take_append, List.take_of_length_le w.file.length_le, List.append_assoc]
  exact congrArg _ (List.take_append_drop _ _)

/-- A flush goes through if the file has room for everything. -/
theorem flush_eq_true_iff : w.flush.2 = true ↔ w.given.length ≤ w.file.room := by
  show decide (_ ≤ _) = true ↔ _
  rw [decide_eq_true_iff, given, List.length_append]

theorem buffer_flush_of_eq_true (h : w.flush.2 = true) : w.flush.1.buffer = [] := by
  have hfits : w.file.contents.length + w.buffer.length ≤ w.file.room := of_decide_eq_true h
  refine List.drop_of_length_le ?_
  omega

/-! ### What a write does -/

theorem makeSpace_of_eq_true (h : w.makeSpace chunk = (w', true)) :
    w'.given = w.given ∧ w'.file.room = w.file.room ∧
      (w'.buffer = [] ∨ w'.buffer.length + chunk.length ≤ capacity) := by
  rw [makeSpace] at h
  split at h
  · next hfull =>
    have hok : w.flush.2 = true := congrArg Prod.snd h
    obtain rfl : w.flush.1 = w' := congrArg Prod.fst h
    exact ⟨given_flush w, room_flush w, Or.inl (buffer_flush_of_eq_true hok)⟩
  · next hspare =>
    obtain ⟨rfl, -⟩ := Prod.mk.inj h
    refine ⟨rfl, rfl, Or.inr ?_⟩
    have hle := w.buffer_le
    omega

theorem makeSpace_of_eq_false (h : w.makeSpace chunk = (w', false)) :
    w' = w.flush.1 ∧ w.flush.2 = false := by
  rw [makeSpace] at h
  split at h
  · exact ⟨(congrArg Prod.fst h).symm, congrArg Prod.snd h⟩
  · exact absurd (Prod.mk.inj h).2 (by decide)

/-- **What a write comes to**: the chunk is what the writer has been given last; or it was refused,
and then the file is full and what is left behind is all that it had room for. -/
theorem writeAll_spec (w : BufferedWriter α capacity) (chunk : List α) :
    (w.writeAll chunk).1.file.room = w.file.room ∧
      ((w.writeAll chunk).2 = true → (w.writeAll chunk).1.given = w.given ++ chunk) ∧
      ((w.writeAll chunk).2 = false → w.file.room < (w.given ++ chunk).length ∧
        (w.writeAll chunk).1.dropped = (w.given ++ chunk).take w.file.room) := by
  rw [writeAll]
  split
  · exact ⟨rfl, fun _ ↦ (List.append_assoc _ _ _).symm, nofun⟩
  · rcases hspace : w.makeSpace chunk with ⟨w₁, - | -⟩
    · -- the buffer could not be emptied: the file is full of what came before the chunk
      obtain ⟨rfl, hfailed⟩ := makeSpace_of_eq_false hspace
      have hfull : w.file.room < w.given.length := by
        by_contra hroom
        exact absurd (flush_eq_true_iff.2 (Nat.le_of_not_lt hroom)) (by simp [hfailed])
      refine ⟨rfl, nofun, fun _ ↦ ⟨?_, ?_⟩⟩
      · rw [List.length_append]
        exact Nat.lt_of_lt_of_le hfull (Nat.le_add_right _ _)
      · show w.flush.1.dropped = _
        rw [dropped_eq, given_flush, room_flush, List.take_append_of_le_length (Nat.le_of_lt hfull)]
    · obtain ⟨hgiven, hroom, hbuffer⟩ := makeSpace_of_eq_true hspace
      rw [← hgiven, ← hroom]
      simp only [put]
      split
      · exact ⟨rfl, fun _ ↦ (List.append_assoc _ _ _).symm, nofun⟩
      · next hlong =>
        have hempty : w₁.buffer = [] := by
          rcases hbuffer with hnil | hfits
          · exact hnil
          · refine List.eq_nil_of_length_eq_zero ?_
            omega
        have hcontents : w₁.given = w₁.file.contents := by rw [given, hempty, List.append_nil]
        rw [hcontents]
        refine ⟨rfl, fun hok ↦ ?_, fun hfailed ↦ ⟨?_, ?_⟩⟩
        · show (w₁.file.writeAll chunk).contents ++ w₁.buffer = _
          rw [hempty, List.append_nil, Sink.contents_writeAll_of_fits hok]
        · have hover := of_decide_eq_false hfailed
          rw [List.length_append]
          omega
        · show ((w₁.file.contents ++ chunk).take w₁.file.room ++ w₁.buffer).take w₁.file.room = _
          rw [hempty, List.append_nil, List.take_take, Nat.min_self]

@[simp] theorem room_writeAll (w : BufferedWriter α capacity) (chunk : List α) :
    (w.writeAll chunk).1.file.room = w.file.room :=
  (writeAll_spec w chunk).1

/-- **An error does not undo anything.** -/
theorem dropped_writeAll (w : BufferedWriter α capacity) (chunk : List α) :
    (w.writeAll chunk).1.dropped = (w.given ++ chunk).take w.file.room := by
  obtain ⟨hroom, hok, hfailed⟩ := writeAll_spec w chunk
  rcases hcall : (w.writeAll chunk).2 with - | -
  · exact (hfailed hcall).2
  · rw [dropped_eq, hok hcall, hroom]

theorem dropped_flush (w : BufferedWriter α capacity) : w.flush.1.dropped = w.dropped := by
  rw [dropped_eq, given_flush, room_flush, dropped_eq]

end BufferedWriter
