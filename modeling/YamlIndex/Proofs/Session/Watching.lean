import YamlIndex.Proofs.OtherFiles
import YamlIndex.Proofs.Session.Questions

/-!
# Answers about a file that changes

Nobody tells a session when a file changes from outside, so until a record expires a question is
answered from it, and what is made from this answer is remembered from then on as if it were new.
Lines that are nearly expired may so give entries that live for another lifetime, and a tree that
comes between the two adds a third one.

A *moment* is a time together with the volume that there was.  `Watched` follows a run in which a
session is only asked about one file, together with the moments of the run.  Each record was made
from lines that the file held at one moment and from the tree of lines that it held at another one,
and how much younger than these moments the record may be is known for each slot, its *lag*.  This
needs no clock that goes forward: a record is read only while the time is less than a lifetime ahead
of it, and a clock that is set back does not carry the time further ahead.

## Main results

* `IsDated.lines`, `IsDated.tree`, `IsDated.entries`: from which moments an answer stems.
* `isDated_of_watched`: the lag of every record along a run.
-/

namespace YamlIndex

/-! ## What a file holds -/

/-- The lines of the file at a location, if there is one that is a text. -/
def Volume.linesAt? (volume : Volume) (location : Location) : Option (List String) :=
  (volume.readText location).toOption.map Text.linesOf

/-- Whether a source stands for the file at a location. -/
def Source.IsAt (source : Source) (editor : Editor) (location : Location) : Prop :=
  ∃ path, editor.pathOf source = .ok path ∧ Editor.locationOf path = .ok location

theorem Editor.linesAt?_of_readLines {editor : Editor} {source : Source} {location : Location}
    (hAt : source.IsAt editor location) {lines : List String}
    (h : editor.readLines source = .ok lines) :
    editor.volume.linesAt? location = some lines := by
  obtain ⟨path, hPath, hLocation⟩ := hAt
  obtain ⟨place, text, hOpen, rfl⟩ := openText_cases h
  obtain ⟨own, hOwn, hPlace, -, hRead⟩ := openText_eq_ok_iff.mp hOpen
  obtain rfl : path = own := Except.ok.inj (hPath.symm.trans hOwn)
  obtain rfl : location = place := Except.ok.inj (hLocation.symm.trans hPlace)
  rw [Volume.linesAt?, hRead]
  rfl

/-- A time, in milliseconds, with the volume that there was. -/
structure Moment where
  time : Nat
  volume : Volume

/-- Whether a result is made from the lines that the file at a location held at one moment and from
the tree of the lines that it held at another one. -/
def Slot.StemsFrom (reader : Option Reader) (location : Location) (read parsed : Moment)
    (slot : Slot) (value : slot.Content) : Prop :=
  ∃ lines treeLines, read.volume.linesAt? location = some lines ∧
    parsed.volume.linesAt? location = some treeLines ∧ slot.IsMade reader lines treeLines value

/-- How many lifetimes a record may be younger than the lines and than the tree that it was made
from. -/
def Slot.lag : Slot → Nat × Nat
  | lines => (0, 0)
  | tree => (1, 1)
  | entries _ => (1, 2)

/-- The question that an action consists of, if it is a query about a source. -/
def Action.query? : Action → Option Session.Question
  | .entries kind source => some (.entries kind source)
  | .keys source _ _ => some (.lines source)
  | .find source _ _ => some (.lines source)
  | _ => none

namespace Session

theorem perform_of_query? (session : Session) {action : Action} {question : Question}
    (h : action.query? = some question) : session.perform action = session.asked question := by
  cases action with
  | entries kind source =>
      cases h
      rfl
  | keys source text limit =>
      cases h
      exact after_keysStartingWith session source text limit
  | find source query limit =>
      cases h
      exact after_find session source query limit
  | _ => exact absurd h (by simp [Action.query?])

/-! ## Runs -/

/-- The present time and the present volume. -/
def present (session : Session) : Moment :=
  ⟨session.cache.now, session.editor.volume⟩

/-- The session with another volume in its editor. -/
def onVolume (session : Session) (volume : Volume) : Session :=
  { session with editor := { session.editor with volume } }

/-- The sessions that begin with nothing remembered and are asked about the file at a location only,
with the moments that there were.  Questions are among the given ones, time goes by as it may, and
the volume changes unannounced. -/
inductive Watched (location : Location) (asks : Question → Prop) (passes : Nat → Nat → Prop) :
    Session → List Moment → Prop where
  | start {session : Session} (hEmpty : ∀ slot key, session.cache.record? slot key = none) :
      Watched location asks passes session [session.present]
  | ask {session : Session} {moments : List Moment} {action : Action} {question : Question}
      (hSession : Watched location asks passes session moments)
      (hQuery : action.query? = some question) (hAsks : asks question)
      (hAt : question.source.IsAt session.editor location) :
      Watched location asks passes (session.perform action) moments
  | wait {session : Session} {moments : List Moment} {span : Nat}
      (hSession : Watched location asks passes session moments)
      (hPasses : passes session.cache.now (session.advance span).cache.now) :
      Watched location asks passes (session.advance span)
        ((session.advance span).present :: moments)
  | change {session : Session} {moments : List Moment}
      (hSession : Watched location asks passes session moments) (volume : Volume) :
      Watched location asks passes (session.onVolume volume)
        ((session.onVolume volume).present :: moments)

/-! ## Questions take no time -/

section Clock

variable {session after : Session}

theorem clock_remember (session : Session) (slot : Slot) (key : String) (value : slot.Content) :
    (session.remember slot key value).cache.now = session.cache.now ∧
      (session.remember slot key value).cache.lifetime = session.cache.lifetime :=
  Cache.clock_put session.cache slot key value

theorem clock_lines {source : Source} {lines : List String}
    (h : session.lines source = .ok (lines, after)) :
    after.cache.now = session.cache.now ∧ after.cache.lifetime = session.cache.lifetime := by
  rcases lines_cases session source with ⟨_, -, hEq⟩ | ⟨-, read, -, hEq⟩ | ⟨-, _, -, hEq⟩
  · rw [hEq] at h
    cases h
    exact ⟨rfl, rfl⟩
  · rw [hEq] at h
    cases h
    exact clock_remember session .lines source.key lines
  · rw [hEq] at h
    exact absurd h (by simp)

theorem clock_tree (session : Session) (key : String) (lines : List String) :
    (session.tree key lines).2.cache.now = session.cache.now ∧
      (session.tree key lines).2.cache.lifetime = session.cache.lifetime := by
  rcases snd_tree_cases session key lines with hEq | ⟨tree, hEq⟩
  · rw [hEq]
    exact ⟨rfl, rfl⟩
  · rw [hEq]
    exact clock_remember session .tree key tree

theorem clock_entries {kind : EntryKind} {source : Source} {entries : List kind.Entry}
    (h : session.entries kind source = .ok (entries, after)) :
    after.cache.now = session.cache.now ∧ after.cache.lifetime = session.cache.lifetime := by
  rcases entries_cases session kind source with
    ⟨_, -, hEq⟩ | ⟨-, lines, opened, hLines, hEq⟩ | ⟨-, _, -, hEq⟩
  · rw [hEq] at h
    cases h
    exact ⟨rfl, rfl⟩
  · rw [hEq] at h
    cases h
    obtain ⟨hNow, hLifetime⟩ := clock_lines hLines
    obtain ⟨hTreeNow, hTreeLifetime⟩ := clock_tree opened source.key lines
    obtain ⟨hPutNow, hPutLifetime⟩ := clock_remember (opened.tree source.key lines).2
      (.entries kind) source.key (entriesWith (opened.tree source.key lines).1 lines kind)
    exact ⟨hPutNow.trans (hTreeNow.trans hNow),
      hPutLifetime.trans (hTreeLifetime.trans hLifetime)⟩
  · rw [hEq] at h
    exact absurd h (by simp)

theorem clock_asked (session : Session) (question : Question) :
    (session.asked question).cache.now = session.cache.now ∧
      (session.asked question).cache.lifetime = session.cache.lifetime := by
  cases question with
  | lines source =>
      rw [asked]
      cases hLines : session.lines source with
      | error error => exact ⟨rfl, rfl⟩
      | ok result => exact clock_lines hLines
  | entries kind source =>
      rw [asked]
      cases hEntries : session.entries kind source with
      | error error => exact ⟨rfl, rfl⟩
      | ok result => exact clock_entries hEntries

end Clock

/-! ## Questions that nothing is remembered for -/

/-- Lines that are not remembered are read, and remembered from then on. -/
theorem lines_of_get?_none {session opened : Session} {source : Source} {lines : List String}
    (h : session.cache.get? .lines source.key = none)
    (hLines : session.lines source = .ok (lines, opened)) :
    session.editor.readLines source = .ok lines ∧
      opened = session.remember .lines source.key lines := by
  rcases lines_cases session source with ⟨_, hGet, -⟩ | ⟨-, read, hRead, hEq⟩ | ⟨-, _, -, hEq⟩
  · rw [h] at hGet
    exact absurd hGet (by simp)
  · rw [hEq] at hLines
    cases hLines
    exact ⟨hRead, rfl⟩
  · rw [hEq] at hLines
    exact absurd hLines (by simp)

/-- A tree that is not remembered is that of the lines at hand. -/
theorem fst_tree_of_get?_none {session : Session} {key : String}
    (h : session.cache.get? .tree key = none) (lines : List String) :
    (session.tree key lines).1 = readTree session.reader lines := by
  rcases tree_cases session key lines with ⟨hReader, hEq⟩ | ⟨_, tree, -, hGet, -⟩ |
    ⟨-, hNone, hEq⟩ | ⟨tree, -, hSome, hEq⟩
  · rw [hEq, hReader]
    rfl
  · rw [h] at hGet
    exact absurd hGet (by simp)
  · rw [hEq, hNone]
  · rw [hEq, hSome]

/-! ## The age of records -/

/-- Whether a result stems from moments that are at most so many lifetimes before the given time:
the one of its lines and the one of its tree. -/
def StemsWithin (session : Session) (location : Location) (moments : List Moment) (slot : Slot)
    (value : slot.Content) (time linesLag treeLag : Nat) : Prop :=
  ∃ read ∈ moments, ∃ parsed ∈ moments,
    slot.StemsFrom session.reader location read parsed value ∧
      time ≤ read.time + linesLag * (session.cache.lifetime - 1) ∧
        time ≤ parsed.time + treeLag * (session.cache.lifetime - 1)

/-- No record is younger than what it was made from by more than the lag of its slot. -/
def IsDated (session : Session) (location : Location) (moments : List Moment) : Prop :=
  ∀ slot key record, session.cache.record? slot key = some record →
    session.StemsWithin location moments slot record.value record.stamp slot.lag.1 slot.lag.2

section IsDated

variable {session after : Session} {location : Location} {moments : List Moment}

/-- What is read from a record stems from moments that are one lifetime more before the present. -/
theorem IsDated.get? (h : session.IsDated location moments) {slot : Slot} {key : String}
    {value : slot.Content} (hGet : session.cache.get? slot key = some value) :
    session.StemsWithin location moments slot value session.cache.now (slot.lag.1 + 1)
      (slot.lag.2 + 1) := by
  obtain ⟨record, hRecord, hAlive, rfl⟩ := Cache.get?_eq_some_iff.mp hGet
  obtain ⟨read, hRead, parsed, hParsed, hStems, hLines, hTree⟩ := h slot key record hRecord
  rw [Cache.isAlive_iff] at hAlive
  refine ⟨read, hRead, parsed, hParsed, hStems, ?_, ?_⟩
  · rw [Nat.add_mul, Nat.one_mul]
    omega
  · rw [Nat.add_mul, Nat.one_mul]
    omega

theorem IsDated.remember (h : session.IsDated location moments) {slot : Slot}
    {value : slot.Content}
    (hStems : session.StemsWithin location moments slot value session.cache.now slot.lag.1
      slot.lag.2) (key : String) :
    (session.remember slot key value).IsDated location moments := by
  intro other otherKey record hRecord
  rw [StemsWithin, (clock_remember session slot key value).2]
  rcases Cache.record?_put_cases hRecord with ⟨rfl, rfl, -⟩ | ⟨-, hOld⟩
  · rw [Cache.eq_of_record?_put_self hRecord]
    exact hStems
  · exact h other otherKey record hOld

/-- The lines of a source are those that its file held less than a lifetime ago. -/
theorem IsDated.lines (h : session.IsDated location moments) (hPresent : session.present ∈ moments)
    {source : Source} (hAt : source.IsAt session.editor location) {lines : List String}
    (hLines : session.lines source = .ok (lines, after)) :
    session.StemsWithin location moments .lines lines session.cache.now 1 1 ∧
      after.IsDated location moments := by
  rcases lines_cases session source with ⟨_, hGet, hEq⟩ | ⟨-, read, hRead, hEq⟩ | ⟨-, _, -, hEq⟩
  · rw [hEq] at hLines
    cases hLines
    exact ⟨h.get? hGet, h⟩
  · rw [hEq] at hLines
    cases hLines
    have hHeld := Editor.linesAt?_of_readLines hAt hRead
    have hNow : ∀ lag, session.StemsWithin location moments .lines lines session.cache.now lag
        lag := by
      intro lag
      exact ⟨session.present, hPresent, session.present, hPresent,
        ⟨lines, lines, hHeld, hHeld, rfl⟩, Nat.le_add_right _ _, Nat.le_add_right _ _⟩
    exact ⟨hNow 1, h.remember (hNow 0) source.key⟩
  · rw [hEq] at hLines
    exact absurd hLines (by simp)

/-- The tree that goes with lines from less than a lifetime ago is that of lines which the file held
less than two lifetimes ago. -/
theorem IsDated.tree (h : session.IsDated location moments) {read : Moment} (hRead : read ∈ moments)
    {lines : List String} (hHeld : read.volume.linesAt? location = some lines)
    (hAge : session.cache.now ≤ read.time + 1 * (session.cache.lifetime - 1)) (key : String) :
    (∃ parsed ∈ moments, ∃ treeLines, parsed.volume.linesAt? location = some treeLines ∧
        (session.tree key lines).1 = readTree session.reader treeLines ∧
          session.cache.now ≤ parsed.time + 2 * (session.cache.lifetime - 1)) ∧
      (session.tree key lines).2.IsDated location moments := by
  have hOwn : ∃ parsed ∈ moments, ∃ treeLines, parsed.volume.linesAt? location = some treeLines ∧
      readTree session.reader lines = readTree session.reader treeLines ∧
        session.cache.now ≤ parsed.time + 2 * (session.cache.lifetime - 1) :=
    ⟨read, hRead, lines, hHeld, rfl, by omega⟩
  rcases tree_cases session key lines with ⟨hReader, hEq⟩ | ⟨_, tree, -, hGet, hEq⟩ |
    ⟨-, hNone, hEq⟩ | ⟨tree, -, hSome, hEq⟩
  · have hNone : readTree session.reader lines = none := by
      rw [hReader]
      rfl
    rw [hEq, ← hNone]
    exact ⟨hOwn, h⟩
  · obtain ⟨_, -, parsed, hParsed, ⟨_, treeLines, -, hTreeHeld, hMade⟩, -, hTreeAge⟩ := h.get? hGet
    rw [hEq]
    exact ⟨⟨parsed, hParsed, treeLines, hTreeHeld, hMade.symm, hTreeAge⟩, h⟩
  · rw [hEq, ← hNone]
    exact ⟨hOwn, h⟩
  · rw [hEq, ← hSome]
    refine ⟨hOwn, h.remember ?_ key⟩
    exact ⟨read, hRead, read, hRead, ⟨lines, lines, hHeld, hHeld, hSome⟩, hAge, hAge⟩

/-- The entries of a source are made from lines of less than two lifetimes ago and from the tree of
lines of less than three lifetimes ago. -/
theorem IsDated.entries (h : session.IsDated location moments)
    (hPresent : session.present ∈ moments) {source : Source}
    (hAt : source.IsAt session.editor location) {kind : EntryKind} {entries : List kind.Entry}
    (hEntries : session.entries kind source = .ok (entries, after)) :
    session.StemsWithin location moments (.entries kind) entries session.cache.now 2 3 ∧
      after.IsDated location moments := by
  rcases entries_cases session kind source with
    ⟨_, hGet, hEq⟩ | ⟨-, lines, opened, hLines, hEq⟩ | ⟨-, _, -, hEq⟩
  · rw [hEq] at hEntries
    cases hEntries
    exact ⟨h.get? hGet, h⟩
  · rw [hEq] at hEntries
    cases hEntries
    obtain ⟨hStems, hOpened⟩ := h.lines hPresent hAt hLines
    obtain ⟨read, hRead, -, -, ⟨_, _, hHeld, -, rfl⟩, hAge, -⟩ := hStems
    obtain ⟨hNow, hLifetime⟩ := clock_lines hLines
    obtain ⟨hTreeNow, hTreeLifetime⟩ := clock_tree opened source.key lines
    have hReader : opened.reader = session.reader := (extends_lines hLines).reader
    have hTreeReader := (extends_tree opened source.key lines).reader
    rw [← hNow, ← hLifetime] at hAge
    obtain ⟨⟨parsed, hParsed, treeLines, hTreeHeld, hTree, hTreeAge⟩, hAfter⟩ :=
      hOpened.tree hRead hHeld hAge source.key
    rw [hNow, hLifetime] at hAge hTreeAge
    rw [hReader] at hTree
    have hMade : Slot.StemsFrom session.reader location read parsed (.entries kind)
        (entriesWith (opened.tree source.key lines).1 lines kind) :=
      ⟨lines, treeLines, hHeld, hTreeHeld, by rw [hTree]; rfl⟩
    refine ⟨⟨read, hRead, parsed, hParsed, hMade, by omega, by omega⟩, hAfter.remember ?_ _⟩
    rw [StemsWithin, hTreeReader, hReader, hTreeNow, hNow, hTreeLifetime, hLifetime]
    exact ⟨read, hRead, parsed, hParsed, hMade, hAge, hTreeAge⟩
  · rw [hEq] at hEntries
    exact absurd hEntries (by simp)

theorem IsDated.asked (h : session.IsDated location moments) (hPresent : session.present ∈ moments)
    {question : Question} (hAt : question.source.IsAt session.editor location) :
    (session.asked question).IsDated location moments := by
  cases question with
  | lines source =>
      rw [Session.asked]
      cases hLines : session.lines source with
      | error error => exact h
      | ok result => exact (h.lines hPresent hAt hLines).2
  | entries kind source =>
      rw [Session.asked]
      cases hEntries : session.entries kind source with
      | error error => exact h
      | ok result => exact (h.entries hPresent hAt hEntries).2

/-- More moments keep the age of what there is. -/
theorem IsDated.cons (h : session.IsDated location moments) (moment : Moment)
    (hRecords : ∀ slot key, after.cache.record? slot key = session.cache.record? slot key)
    (hReader : after.reader = session.reader)
    (hLifetime : after.cache.lifetime = session.cache.lifetime) :
    after.IsDated location (moment :: moments) := by
  intro slot key record hRecord
  rw [hRecords] at hRecord
  obtain ⟨read, hRead, parsed, hParsed, hStems⟩ := h slot key record hRecord
  rw [StemsWithin, hReader, hLifetime]
  exact ⟨read, List.mem_cons_of_mem _ hRead, parsed, List.mem_cons_of_mem _ hParsed, hStems⟩

end IsDated

/-! ## Along a run -/

section Watched

variable {location : Location} {asks : Question → Prop} {passes : Nat → Nat → Prop}
  {session : Session} {moments : List Moment}

theorem present_asked (session : Session) (question : Question) :
    (session.asked question).present = session.present := by
  rw [present, present, (clock_asked session question).1, (extends_asked session question).editor]

theorem present_mem_of_watched (h : Watched location asks passes session moments) :
    session.present ∈ moments := by
  induction h with
  | start hEmpty => exact List.mem_singleton_self _
  | @ask session moments action question hSession hQuery hAsks hAt ih =>
      rw [perform_of_query? session hQuery, present_asked]
      exact ih
  | wait hSession hPasses ih => exact List.mem_cons_self
  | change hSession volume ih => exact List.mem_cons_self

/-- Along a run no record is younger than what it was made from by more than its lag. -/
theorem isDated_of_watched (h : Watched location asks passes session moments) :
    session.IsDated location moments := by
  induction h with
  | start hEmpty =>
      intro slot key record hRecord
      rw [hEmpty] at hRecord
      exact absurd hRecord (by simp)
  | @ask session moments action question hSession hQuery hAsks hAt ih =>
      rw [perform_of_query? session hQuery]
      exact ih.asked (present_mem_of_watched hSession) hAt
  | @wait session moments span hSession hPasses ih =>
      exact ih.cons _ (Cache.record?_advance session.cache span) rfl rfl
  | change hSession volume ih => exact ih.cons _ (fun _ _ => rfl) rfl rfl

/-- No moment of a run lies ahead when the clock never goes back. -/
theorem time_le_of_watched (h : Watched location asks passes session moments)
    (hPasses : ∀ {now time}, passes now time → now ≤ time) :
    ∀ moment ∈ moments, moment.time ≤ session.cache.now := by
  induction h with
  | start hEmpty =>
      intro moment hMoment
      rw [List.mem_singleton.mp hMoment]
      exact Nat.le_refl _
  | @ask session moments action question hSession hQuery hAsks hAt ih =>
      rw [perform_of_query? session hQuery, (clock_asked session question).1]
      exact ih
  | @wait session moments span hSession hTime ih =>
      intro moment hMoment
      rcases List.mem_cons.mp hMoment with rfl | hOld
      · exact Nat.le_refl _
      · exact (ih moment hOld).trans (hPasses hTime)
  | change hSession volume ih =>
      intro moment hMoment
      rcases List.mem_cons.mp hMoment with rfl | hOld
      · exact Nat.le_refl _
      · exact ih moment hOld

end Watched

end Session

end YamlIndex
