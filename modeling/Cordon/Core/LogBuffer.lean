import Cordon.Lib.RingLog
import Cordon.Lib.Text
import Cordon.Lib.Transition

/-!
# The log the launcher reads

Each event is formatted into a writer of its own, which hands the whole text over when it is
dropped: first to the file, under one lock, then to a ring of the last lines, under another. Any
number of events are formatted and dropped at the same time, and meanwhile the launcher asks for
what is new. **A refresh is three events**: it asks with the number of the last line it knows of, it
is answered by the app, and the answer reaches the launcher, which then knows of more lines. A timer
starts it, and every button that may have changed something, so a second may begin before the first
has its answer.

However these are interleaved, the ring numbers the lines of whole events one after another. If no
refresh begins while another is under way, the launcher is given each line once and in order, except
for what the ring had to drop before a refresh was answered, and it shows the end of the log as of
its last answer (`polled_log`). Where two overlap, both are given the same lines
(`overlapping_refreshes`).

The first rests on what the ring holds (`RingLog.Holds`), the second on the mark: while a refresh is
under way, the number it has asked with is still the launcher's (`LogSystem.Inv`).
-/

namespace Cordon

open Transition

/-- Lines kept in memory for the launcher. -/
def ringCapacity : ℕ := 400

/-- Lines kept by the launcher. -/
def shownCapacity : ℕ := 400

/-- The shared log sink. The file is there if it could be opened. -/
structure LogBuffer where
  ring : RingLog (List Char)
  file : Option Bytes
  deriving DecidableEq

/-- `LogBuffer::new`. -/
def LogBuffer.new (file : Option Bytes) : LogBuffer := ⟨.empty, file⟩

/-- The lines of an event that go into the ring. -/
def eventLines (text : List Char) : List (List Char) :=
  (Text.lines text).filter fun l ↦ !Text.isBlank l

/-- The first part of `push`: the file gets the text. As many bytes of it arrive as the disk takes;
an error is ignored. -/
def LogBuffer.pushFile (buffer : LogBuffer) (text : List Char) (arrived : ℕ) : LogBuffer :=
  { buffer with file := buffer.file.map fun bs ↦ bs ++ (Utf8.encode text).take arrived }

/-- The second part: the ring gets the lines. -/
def LogBuffer.pushRing (buffer : LogBuffer) (text : List Char) : LogBuffer :=
  { buffer with ring := buffer.ring.pushAll ringCapacity (eventLines text) }

/-- An event on its way: bytes that the formatter wrote, or a text that the file has and the ring
has not. -/
inductive EventWriter
  | pending (bytes : Bytes)
  | filed (text : List Char)
  deriving DecidableEq

/-- A refresh of the launcher: it has asked with a number, or was answered and waits for the answer
to arrive. -/
inductive Refresh
  | idle
  | asked (after : ℕ)
  | answered (answer : ℕ × List (List Char))
  deriving DecidableEq

/-- What the threads of the app and the launcher do with the log. Writers are numbered, and so are
refreshes; a number is used again once the ring has the last event, or the launcher the last
answer. -/
inductive LogAction
  /-- `EventWriter::write`. -/
  | write (writer : ℕ) (buf : Bytes)
  /-- `EventWriter::drop`, up to the file. -/
  | drop (writer : ℕ) (arrived : ℕ)
  /-- `EventWriter::drop`, the ring. -/
  | push (writer : ℕ)
  /-- `refresh`, up to the call of `snapshot`. -/
  | ask (refresh : ℕ)
  /-- `LogBuffer::since`, for `snapshot`. -/
  | answer (refresh : ℕ)
  /-- `refresh`, with the answer. -/
  | receive (refresh : ℕ)
  /-- `refresh`, where the call has failed. -/
  | fail (refresh : ℕ)

/-- The log, the writers, the launcher and its refreshes, with the events that the ring has got so
far. -/
structure LogSystem where
  buffer : LogBuffer
  writers : ℕ → EventWriter
  launcher : RingLog.Reader (List Char)
  refreshes : ℕ → Refresh
  events : List (List Char)

namespace LogSystem

/-- Nothing is written yet. -/
def init (file : Option Bytes) : LogSystem :=
  ⟨.new file, fun _ ↦ .pending [], .start, fun _ ↦ .idle, []⟩

/-- What an action makes of the log. -/
def step (s : LogSystem) : LogAction → LogSystem
  | .write w buf =>
    match s.writers w with
    | .pending bytes =>
      { s with writers := Function.update s.writers w (.pending (bytes ++ buf)) }
    | .filed _ => s
  | .drop w arrived =>
    match s.writers w with
    | .pending [] => s
    | .pending bytes =>
      { s with
        buffer := s.buffer.pushFile (Utf8.decodeLossy bytes) arrived
        writers := Function.update s.writers w (.filed (Utf8.decodeLossy bytes)) }
    | .filed _ => s
  | .push w =>
    match s.writers w with
    | .filed text =>
      { s with
        buffer := s.buffer.pushRing text
        writers := Function.update s.writers w (.pending [])
        events := s.events ++ [text] }
    | .pending _ => s
  | .ask n =>
    match s.refreshes n with
    | .idle => { s with refreshes := Function.update s.refreshes n (.asked s.launcher.mark) }
    | _ => s
  | .answer n =>
    match s.refreshes n with
    | .asked after =>
      { s with
        refreshes := Function.update s.refreshes n (.answered (s.buffer.ring.since after)) }
    | _ => s
  | .receive n =>
    match s.refreshes n with
    | .answered answer =>
      { s with
        launcher := s.launcher.receive shownCapacity answer
        refreshes := Function.update s.refreshes n .idle }
    | _ => s
  | .fail n => { s with refreshes := Function.update s.refreshes n .idle }

/-- The lines of all events, in the order in which the ring got them. -/
def log (s : LogSystem) : List (List Char) :=
  s.events.flatMap eventLines

/-- No refresh is under way. -/
def Quiet (s : LogSystem) : Prop :=
  ∀ n, s.refreshes n = .idle

/-- No refresh begins while another is under way. -/
def OneAtATime (s : LogSystem) : LogAction → Prop
  | .ask _ => s.Quiet
  | _ => True

end LogSystem

/-- Whether an action is a writer's. -/
def LogAction.IsWriters : LogAction → Prop
  | .write _ _ | .drop _ _ | .push _ => True
  | _ => False

namespace LogSystem

variable {s : LogSystem} {n : ℕ}

/-! ### Writers -/

/-- **What a writer can do**: the ring gets some lines, and the log with it; or neither does. -/
theorem step_writer (s : LogSystem) {a : LogAction} (ha : a.IsWriters) :
    (s.step a).launcher = s.launcher ∧ (s.step a).refreshes = s.refreshes ∧
      ∃ lines, (s.step a).log = s.log ++ lines ∧
        (s.step a).buffer.ring = s.buffer.ring.pushAll ringCapacity lines := by
  have hnothing : ∃ lines, s.log = s.log ++ lines ∧
      s.buffer.ring = s.buffer.ring.pushAll ringCapacity lines := ⟨[], by simp, rfl⟩
  rcases a with ⟨w, buf⟩ | ⟨w, arrived⟩ | w | n | n | n | n
  · rw [step]
    split <;> exact ⟨rfl, rfl, hnothing⟩
  · rw [step]
    split <;> exact ⟨rfl, rfl, hnothing⟩
  · rw [step]
    split
    · next text _ => exact ⟨rfl, rfl, eventLines text, by simp [log], rfl⟩
    · exact ⟨rfl, rfl, hnothing⟩
  all_goals exact ha.elim

/-! ### What every interleaving keeps -/

/-- The ring holds the end of the log. -/
theorem holds_step (h : RingLog.Holds ringCapacity s.buffer.ring s.log) (a : LogAction) :
    RingLog.Holds ringCapacity (s.step a).buffer.ring (s.step a).log := by
  by_cases ha : a.IsWriters
  · obtain ⟨-, -, lines, hlog, hring⟩ := s.step_writer ha
    rw [hlog, hring]
    exact h.pushAll (by decide) lines
  · rcases a with ⟨w, buf⟩ | ⟨w, arrived⟩ | w | n | n | n | n
    · exact absurd trivial ha
    · exact absurd trivial ha
    · exact absurd trivial ha
    · rw [step]
      split <;> exact h
    · rw [step]
      split <;> exact h
    · rw [step]
      split <;> exact h
    · exact h

/-! ### One refresh at a time -/

/-- What is asked is asked with the launcher's number, and answered with what came after it. -/
def RefreshInv (s : LogSystem) : Refresh → Prop
  | .idle => True
  | .asked after => after = s.launcher.mark
  | .answered answer => RingLog.Answers ringCapacity s.log s.launcher.mark answer ∧
      s.launcher.mark ≤ answer.1

/-- The ring holds the end of the log, the launcher has gathered what it could, and at most one
refresh is under way. -/
structure Inv (s : LogSystem) : Prop where
  holds : RingLog.Holds ringCapacity s.buffer.ring s.log
  gathered : RingLog.Gathered ringCapacity shownCapacity s.launcher s.log
  refreshes : ∀ n, s.RefreshInv (s.refreshes n)
  alone : ∀ m n, s.refreshes m ≠ .idle → s.refreshes n ≠ .idle → m = n

theorem inv_init (file : Option Bytes) : (init file).Inv :=
  ⟨RingLog.holds_empty, RingLog.gathered_start, fun _ ↦ trivial, fun _ _ h ↦ absurd rfl h⟩

/-- Where only one refresh can be under way, the others have nothing to say. -/
theorem Inv.idle_of_ne (h : s.Inv) (hn : s.refreshes n ≠ .idle) {m : ℕ} (hne : m ≠ n) :
    s.refreshes m = .idle := by
  by_contra hm
  exact hne (h.alone m n hm hn)

/-- A refresh begins, goes on or ends while no other is under way. -/
theorem Inv.update (h : s.Inv) (hothers : ∀ m, m ≠ n → s.refreshes m = .idle)
    {launcher : RingLog.Reader (List Char)}
    (hgathered : RingLog.Gathered ringCapacity shownCapacity launcher s.log) {r : Refresh}
    (hr : ({ s with launcher } : LogSystem).RefreshInv r) :
    ({ s with launcher, refreshes := Function.update s.refreshes n r } : LogSystem).Inv := by
  have honly : ∀ m, Function.update s.refreshes n r m ≠ .idle → m = n := by
    intro m hm
    by_contra hne
    rw [Function.update_of_ne hne] at hm
    exact hm (hothers m hne)
  refine ⟨h.holds, hgathered, fun m ↦ ?_, fun m k hm hk ↦ (honly m hm).trans (honly k hk).symm⟩
  by_cases hmn : m = n
  · subst hmn
    simp only [Function.update_self]
    exact hr
  · simp only [Function.update_of_ne hmn, hothers m hmn]
    trivial

/-- **Every action keeps it.** -/
theorem Inv.step (h : s.Inv) {a : LogAction} (ha : s.OneAtATime a) : (s.step a).Inv := by
  by_cases hwriters : a.IsWriters
  · -- the log grows under what was gathered and answered
    obtain ⟨hlauncher, hrefreshes, lines, hlog, -⟩ := s.step_writer hwriters
    refine ⟨holds_step h.holds a, ?_, fun n ↦ ?_, ?_⟩
    · rw [hlauncher, hlog]
      exact h.gathered.append lines
    · have hold := h.refreshes n
      rw [hrefreshes]
      rcases hn : s.refreshes n with - | after | answer
      · trivial
      · rw [hn] at hold
        exact hold.trans (congrArg RingLog.Reader.mark hlauncher.symm)
      · rw [hn] at hold
        rw [RefreshInv, hlauncher, hlog]
        exact ⟨hold.1.append lines, hold.2⟩
    · rw [hrefreshes]
      exact h.alone
  rcases a with ⟨w, buf⟩ | ⟨w, arrived⟩ | w | n | n | n | n
  · exact absurd trivial hwriters
  · exact absurd trivial hwriters
  · exact absurd trivial hwriters
  · -- a refresh begins, and is the only one
    have hquiet : s.Quiet := ha
    rw [LogSystem.step, hquiet n]
    exact h.update (fun m _ ↦ hquiet m) h.gathered rfl
  · -- it is answered
    rw [LogSystem.step]
    split
    · next after hasked =>
      have hafter := h.refreshes n
      rw [hasked] at hafter
      obtain rfl : after = s.launcher.mark := hafter
      refine h.update (fun m hm ↦ h.idle_of_ne (by simp [hasked]) hm) h.gathered
        ⟨h.holds.answers _, ?_⟩
      rw [h.holds.since_eq]
      exact h.gathered.mark_le
    · exact h
  · -- the answer is received, and the refresh ends
    rw [LogSystem.step]
    split
    · next answer hanswered =>
      have hanswer := h.refreshes n
      rw [hanswered] at hanswer
      exact h.update (fun m hm ↦ h.idle_of_ne (by simp [hanswered]) hm)
        (h.gathered.receive le_rfl hanswer.1 hanswer.2) trivial
    · exact h
  · -- its call has failed: it is over, and whatever else is under way stays so
    rw [LogSystem.step]
    refine ⟨h.holds, h.gathered, fun m ↦ ?_, fun m k hm hk ↦ ?_⟩
    · by_cases hmn : m = n
      · subst hmn
        simp only [Function.update_self]
        trivial
      · simp only [Function.update_of_ne hmn]
        exact h.refreshes m
    · have hold : ∀ j, Function.update s.refreshes n .idle j ≠ .idle → s.refreshes j ≠ .idle := by
        intro j hj
        by_cases hjn : j = n
        · subst hjn
          simp at hj
        · rwa [Function.update_of_ne hjn] at hj
      exact h.alone m k (hold m hm) (hold k hk)

/-! ### One refresh from its beginning to its end -/

theorem step_ask (h : s.refreshes n = .idle) : s.step (.ask n) =
    { s with refreshes := Function.update s.refreshes n (.asked s.launcher.mark) } := by
  rw [step, h]

theorem step_answer {after : ℕ} (h : s.refreshes n = .asked after) : s.step (.answer n) =
    { s with
      refreshes := Function.update s.refreshes n (.answered (s.buffer.ring.since after)) } := by
  rw [step, h]

theorem step_receive {answer : ℕ × List (List Char)} (h : s.refreshes n = .answered answer) :
    s.step (.receive n) =
      { s with
        launcher := s.launcher.receive shownCapacity answer
        refreshes := Function.update s.refreshes n .idle } := by
  rw [step, h]

/-- Writers, however many, add to the log and change nothing of what the launcher knows. -/
theorem final_writers (s : LogSystem) {run : List LogAction} (hrun : ∀ a ∈ run, a.IsWriters) :
    (final step s run).launcher = s.launcher ∧ (final step s run).refreshes = s.refreshes ∧
      ∃ lines, (final step s run).log = s.log ++ lines := by
  induction run generalizing s with
  | nil => exact ⟨rfl, rfl, [], (List.append_nil _).symm⟩
  | cons a run ih =>
    obtain ⟨hlauncher, hrefreshes, lines, hlog, -⟩ := s.step_writer (hrun a List.mem_cons_self)
    obtain ⟨ihlauncher, ihrefreshes, more, ihlog⟩ :=
      ih (s.step a) fun b hb ↦ hrun b (List.mem_cons_of_mem _ hb)
    refine ⟨ihlauncher.trans hlauncher, ihrefreshes.trans hrefreshes, lines ++ more, ?_⟩
    rw [← List.append_assoc, ← hlog]
    exact ihlog

/-- A refresh has begun, and the writers go on. -/
theorem final_ask (hidle : s.refreshes n = .idle) {asking : List LogAction}
    (hasking : ∀ a ∈ asking, a.IsWriters) :
    (final step s (.ask n :: asking)).launcher = s.launcher ∧
      (final step s (.ask n :: asking)).refreshes n = .asked s.launcher.mark ∧
      ∃ lines, (final step s (.ask n :: asking)).log = s.log ++ lines := by
  have hbegin : final step s (.ask n :: asking) = final step (s.step (.ask n)) asking := rfl
  rw [hbegin, step_ask hidle]
  obtain ⟨hlauncher, hrefreshes, hlog⟩ := final_writers { s with
    refreshes := Function.update s.refreshes n (.asked s.launcher.mark) } hasking
  exact ⟨hlauncher, (congrFun hrefreshes n).trans (Function.update_self ..), hlog⟩

/-- **What one refresh brings**, whatever is written while it is under way: the launcher receives
what the ring had after its number when the refresh was answered. -/
theorem launcher_refresh (hidle : s.refreshes n = .idle) {asking answering : List LogAction}
    (hasking : ∀ a ∈ asking, a.IsWriters) (hanswering : ∀ a ∈ answering, a.IsWriters) :
    let asked := final step s (.ask n :: asking)
    (final step asked (.answer n :: answering ++ [.receive n])).launcher =
      s.launcher.receive shownCapacity (asked.buffer.ring.since s.launcher.mark) := by
  intro asked
  obtain ⟨hlauncher, hrefreshes, -⟩ := final_ask hidle hasking
  obtain ⟨hkept, hanswered, -⟩ := (asked.step (.answer n)).final_writers hanswering
  rw [step_answer hrefreshes] at hkept hanswered
  have hwaits := (congrFun hanswered n).trans (Function.update_self ..)
  rw [final_append]
  show ((final step (asked.step (.answer n)) answering).step (.receive n)).launcher = _
  rw [step_answer hrefreshes, step_receive hwaits]
  simp only
  rw [hkept, hlauncher]

end LogSystem

/-- **The launcher is given each line once and in order.** In every interleaving of writers and
refreshes the ring answers any question with the lines after that number that are among the last
400. In those where no refresh begins while another is under way, the launcher shows the last 400 of
the lines up to its mark; it was given each of these at most once and in order, and all of them if
no batch had 400 lines. And a refresh that begins then, and during which the writers go on, brings
the last 400 of the lines that were added up to its answer, which the mark then stands at. -/
theorem polled_log (file : Option Bytes) (run : List LogAction) :
    let s := final LogSystem.step (LogSystem.init file) run
    (∀ after, s.buffer.ring.since after =
      (s.log.length, s.log.drop (max after (s.log.length - ringCapacity)))) ∧
    (AllSteps LogSystem.step LogSystem.OneAtATime (LogSystem.init file) run →
      s.launcher.shown = (s.log.take s.launcher.mark).rtake shownCapacity ∧
      s.launcher.batches.flatten.Sublist (s.log.take s.launcher.mark) ∧
      ((∀ batch ∈ s.launcher.batches, batch.length < ringCapacity) →
        s.launcher.batches.flatten = s.log.take s.launcher.mark) ∧
      ∀ n asking answering, s.Quiet → (∀ a ∈ asking, a.IsWriters) →
        (∀ a ∈ answering, a.IsWriters) →
        let asked := final LogSystem.step s (.ask n :: asking)
        let received := final LogSystem.step asked (.answer n :: answering ++ [.receive n])
        received.launcher.mark = asked.log.length ∧
        received.launcher.batches =
          s.launcher.batches ++ [(asked.log.drop s.launcher.mark).rtake ringCapacity] ∧
        received.launcher.shown = asked.log.rtake shownCapacity) := by
  intro s
  have hring : ∀ {s : LogSystem}, RingLog.Holds ringCapacity s.buffer.ring s.log → ∀ run,
      RingLog.Holds ringCapacity (final LogSystem.step s run).buffer.ring
        (final LogSystem.step s run).log :=
    fun h run ↦ final_invariant
      (fun s : LogSystem ↦ RingLog.Holds ringCapacity s.buffer.ring s.log)
      (fun _ a h ↦ LogSystem.holds_step h a) h run
  have hholds : RingLog.Holds ringCapacity s.buffer.ring s.log := hring RingLog.holds_empty run
  refine ⟨hholds.since_eq, fun hone ↦ ?_⟩
  have hinv : s.Inv := (reachable_final hone .start).invariant LogSystem.Inv
    (LogSystem.inv_init file) fun _ _ _ ha h ↦ h.step ha
  refine ⟨hinv.gathered.shown, hinv.gathered.inOrder, hinv.gathered.complete, ?_⟩
  intro n asking answering hquiet hasking hanswering asked received
  have hanswers : RingLog.Holds ringCapacity asked.buffer.ring asked.log :=
    hring hholds (.ask n :: asking)
  obtain ⟨-, -, lines, hlog⟩ := LogSystem.final_ask (hquiet n) hasking
  have hgathered : RingLog.Gathered ringCapacity shownCapacity s.launcher asked.log :=
    hlog ▸ hinv.gathered.append lines
  have hlauncher : received.launcher = s.launcher.receive shownCapacity
      (asked.buffer.ring.since s.launcher.mark) :=
    LogSystem.launcher_refresh (hquiet n) hasking hanswering
  have hmarks : s.launcher.mark ≤ (asked.buffer.ring.since s.launcher.mark).1 := by
    rw [hanswers.since_eq]
    exact hgathered.mark_le
  have hshown := (hgathered.receive le_rfl (hanswers.answers _) hmarks).shown
  rw [← hlauncher] at hshown
  rw [hanswers.since_eq_rtake] at hlauncher
  have hmark : received.launcher.mark = asked.log.length := by
    rw [hlauncher, RingLog.Reader.mark_receive]
  refine ⟨hmark, by rw [hlauncher, RingLog.Reader.batches_receive], ?_⟩
  rw [hshown, hmark, List.take_length]

/-- What a writer does with one event. -/
def sampleEvent (writer : ℕ) (text : String) : List LogAction :=
  [.write writer (Utf8.encode text.toList), .drop writer 0, .push writer]

/-- One event, and a refresh that brings it. -/
def sampleLogRun : List LogAction :=
  sampleEvent 0 "started\n" ++ [.ask 0, .answer 0, .receive 0]

/-- The next refresh brings the event that was pushed before its answer, and not the one that was
pushed before it arrived. -/
theorem polled_log_sample :
    (final LogSystem.step (LogSystem.init none) (sampleLogRun ++
      (.ask 1 :: sampleEvent 1 "listening\n") ++
      (.answer 1 :: sampleEvent 0 "served\n" ++ [.receive 1]))).launcher =
    ⟨2, [["started".toList], ["listening".toList]], ["started".toList, "listening".toList]⟩ := by
  have hone : AllSteps LogSystem.step LogSystem.OneAtATime (LogSystem.init none) sampleLogRun :=
    ⟨trivial, trivial, trivial, fun _ ↦ rfl, trivial, trivial, trivial⟩
  have hquiet : (final LogSystem.step (LogSystem.init none) sampleLogRun).Quiet := by
    intro n
    rcases n with - | n
    · rfl
    · rfl
  have hwriters : ∀ writer text, ∀ a ∈ sampleEvent writer text, a.IsWriters := by
    intro writer text a ha
    simp only [sampleEvent, List.mem_cons, List.not_mem_nil, or_false] at ha
    rcases ha with rfl | rfl | rfl <;> trivial
  obtain ⟨hmark, hbatches, hshown⟩ := ((polled_log none sampleLogRun).2 hone).2.2.2 1
    (sampleEvent 1 "listening\n") (sampleEvent 0 "served\n") hquiet (hwriters _ _) (hwriters _ _)
  rw [final_append, final_append]
  have hlog : (final LogSystem.step (final LogSystem.step (LogSystem.init none) sampleLogRun)
      (.ask 1 :: sampleEvent 1 "listening\n")).log = ["started".toList, "listening".toList] := by
    decide +kernel
  have hfirst : (final LogSystem.step (LogSystem.init none) sampleLogRun).launcher =
      ⟨1, [["started".toList]], ["started".toList]⟩ := by
    decide +kernel
  rw [hlog] at hmark hshown
  rw [hlog, hfirst] at hbatches
  exact RingLog.Reader.ext hmark hbatches hshown

/-- **Two refreshes that overlap are given the same lines.** -/
theorem overlapping_refreshes {s : LogSystem} (hquiet : s.Quiet) {m n : ℕ} (hne : m ≠ n) :
    (final LogSystem.step s
      [.ask m, .ask n, .answer m, .answer n, .receive m, .receive n]).launcher.batches =
        s.launcher.batches ++ [(s.buffer.ring.since s.launcher.mark).2,
          (s.buffer.ring.since s.launcher.mark).2] := by
  simp [final, LogSystem.step, hquiet m, hquiet n, Function.update_of_ne hne,
    Function.update_of_ne hne.symm, RingLog.Reader.receive]

end Cordon
