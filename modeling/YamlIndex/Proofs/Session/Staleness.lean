import YamlIndex.Proofs.Session.Watching

/-!
# How old an answer may be

A record counts its age from when it was written, not from when the file was read, so entries that
are made from remembered lines start a lifetime of their own.  An answer may therefore be nearly two
lifetimes old, and the tree that it was made with nearly three.  It stays within one lifetime when a
session is asked for entries of one kind only: these are then written last of all under their key,
and once they have expired nothing else is left to make them from.

## Main results

* `IsLedBy.entries`: entries of the only kind that is asked for are those of one recent moment.
* `age_of_entries`: how old an answer may be along a run.
-/

namespace YamlIndex.Session

variable {session after : Session} {location : Location} {moments : List Moment}

/-! ## Entries of one kind -/

/-- No record under the key is from the future. -/
def IsPast (session : Session) (key : String) : Prop :=
  ∀ slot record, session.cache.record? slot key = some record → record.stamp ≤ session.cache.now

theorem IsPast.remember {key : String} (h : session.IsPast key) (slot : Slot)
    (value : slot.Content) : (session.remember slot key value).IsPast key := by
  intro other record hRecord
  rw [(clock_remember session slot key value).1]
  by_cases hSlot : other = slot
  · subst hSlot
    rw [Cache.eq_of_record?_put_self hRecord]
  · rw [show (session.remember slot key value).cache = session.cache.put slot key value from rfl,
      Cache.record?_put_slot session.cache hSlot] at hRecord
    exact h other record hRecord

theorem IsPast.tree {key : String} (h : session.IsPast key) (lines : List String) :
    (session.tree key lines).2.IsPast key := by
  rcases snd_tree_cases session key lines with hEq | ⟨tree, hEq⟩
  · rw [hEq]
    exact h
  · rw [hEq]
    exact h.remember .tree tree

/-- Under each key the entries of the kind were written last, from what the file held then. -/
def IsLedBy (session : Session) (location : Location) (moments : List Moment)
    (kind : EntryKind) : Prop :=
  ∀ slot key record, session.cache.record? slot key = some record →
    ∃ newest, session.cache.record? (.entries kind) key = some newest ∧
      record.stamp ≤ newest.stamp ∧ ∃ moment ∈ moments, moment.time = newest.stamp ∧
        Slot.StemsFrom session.reader location moment moment (.entries kind) newest.value

section IsLedBy

variable {kind : EntryKind}

/-- When the entries have expired, so has everything under their key. -/
theorem IsLedBy.get?_eq_none (h : session.IsLedBy location moments kind) {key : String}
    (hNone : session.cache.get? (.entries kind) key = none) (slot : Slot) :
    session.cache.get? slot key = none := by
  refine Cache.get?_eq_none_iff.mpr fun record hRecord => ?_
  obtain ⟨newest, hNewest, hLe, -⟩ := h slot key record hRecord
  have hDead := Cache.get?_eq_none_iff.mp hNone newest hNewest
  rw [← Bool.not_eq_true, Cache.isAlive_iff] at hDead ⊢
  omega

/-- When the entries have expired, the file is read and its tree is made anew. -/
theorem IsLedBy.made (h : session.IsLedBy location moments kind)
    (hLifetime : 0 < session.cache.lifetime) {source : Source}
    (hNone : session.cache.get? (.entries kind) source.key = none)
    (hAt : source.IsAt session.editor location) {opened : Session} {lines : List String}
    (hLines : session.lines source = .ok (lines, opened)) :
    Slot.StemsFrom session.reader location session.present session.present (.entries kind)
        (entriesWith (opened.tree source.key lines).1 lines kind) ∧
      (opened.tree source.key lines).2.IsPast source.key := by
  obtain ⟨hRead, rfl⟩ := lines_of_get?_none (h.get?_eq_none hNone .lines) hLines
  have hTree : ((session.remember .lines source.key lines).tree source.key lines).1 =
      readTree session.reader lines := by
    have hSlot : Slot.tree ≠ Slot.lines := by decide
    refine fst_tree_of_get?_none ?_ lines
    exact (Cache.get?_put_slot session.cache hSlot _ _ lines).trans (h.get?_eq_none hNone _)
  have hPast : session.IsPast source.key := by
    intro slot record hRecord
    have hDead := Cache.get?_eq_none_iff.mp (h.get?_eq_none hNone slot) record hRecord
    rw [← Bool.not_eq_true, Cache.isAlive_iff] at hDead
    omega
  have hHeld := Editor.linesAt?_of_readLines hAt hRead
  refine ⟨⟨lines, lines, hHeld, hHeld, ?_⟩, (hPast.remember .lines lines).tree lines⟩
  rw [hTree]
  rfl

/-- Entries that are written behind the other records of their key lead it. -/
theorem IsLedBy.remember (h : session.IsLedBy location moments kind) {asked : Session}
    {key : String} (hExtends : Extends key session asked) (hPast : asked.IsPast key)
    {moment : Moment} (hMoment : moment ∈ moments) (hTime : moment.time = asked.cache.now)
    {entries : List kind.Entry}
    (hStems : Slot.StemsFrom session.reader location moment moment (.entries kind) entries) :
    (asked.remember (.entries kind) key entries).IsLedBy location moments kind := by
  intro slot other record hRecord
  have hReader : (asked.remember (.entries kind) key entries).reader = session.reader :=
    hExtends.reader
  rw [hReader]
  by_cases hKey : other = key
  · subst hKey
    have hLe := hPast.remember (.entries kind) entries slot record hRecord
    have hKeeps : asked.cache.keeps other = true := by
      rw [← Cache.keeps_put asked.cache (.entries kind) other other entries]
      exact Cache.keeps_of_record? hRecord
    refine ⟨⟨entries, asked.cache.now⟩, ?_, ?_, moment, hMoment, hTime, hStems⟩
    · exact (Cache.record?_put_self _ _ _ _).trans (if_pos hKeeps)
    · exact hLe.trans (Nat.le_of_eq (clock_remember asked (.entries kind) other entries).1)
  · have hSame := (hExtends.trans (extends_remember asked (.entries kind) key entries)).others
    rw [hSame slot other hKey] at hRecord
    obtain ⟨newest, hNewest, hMade⟩ := h slot other record hRecord
    exact ⟨newest, (hSame _ other hKey).trans hNewest, hMade⟩

/-- Entries of the kind are those of a moment of less than a lifetime ago, and they are again what
was written last. -/
theorem IsLedBy.entries (h : session.IsLedBy location moments kind)
    (hLifetime : 0 < session.cache.lifetime) (hPresent : session.present ∈ moments)
    {source : Source} (hAt : source.IsAt session.editor location) {entries : List kind.Entry}
    (hEntries : session.entries kind source = .ok (entries, after)) :
    (∃ moment ∈ moments, Slot.StemsFrom session.reader location moment moment (.entries kind)
        entries ∧ session.cache.now < moment.time + session.cache.lifetime) ∧
      after.IsLedBy location moments kind := by
  rcases entries_cases session kind source with
    ⟨_, hGet, hEq⟩ | ⟨hNone, lines, opened, hLines, hEq⟩ | ⟨-, _, -, hEq⟩
  · rw [hEq] at hEntries
    cases hEntries
    obtain ⟨record, hRecord, hAlive, rfl⟩ := Cache.get?_eq_some_iff.mp hGet
    obtain ⟨newest, hNewest, -, moment, hMoment, hTime, hStems⟩ :=
      h (.entries kind) source.key record hRecord
    rw [hRecord] at hNewest
    cases hNewest
    rw [Cache.isAlive_iff, ← hTime] at hAlive
    exact ⟨⟨moment, hMoment, hStems, by omega⟩, h⟩
  · rw [hEq] at hEntries
    cases hEntries
    obtain ⟨hStems, hPast⟩ := h.made hLifetime hNone hAt hLines
    have hNow : (opened.tree source.key lines).2.cache.now = session.cache.now :=
      (clock_tree opened source.key lines).1.trans (clock_lines hLines).1
    have hExtends := (extends_lines hLines).trans (extends_tree opened source.key lines)
    refine ⟨⟨session.present, hPresent, hStems, ?_⟩,
      h.remember hExtends hPast hPresent hNow.symm hStems⟩
    exact Nat.lt_add_of_pos_right hLifetime
  · rw [hEq] at hEntries
    exact absurd hEntries (by simp)

theorem IsLedBy.cons (h : session.IsLedBy location moments kind) (moment : Moment)
    (hRecords : ∀ slot key, after.cache.record? slot key = session.cache.record? slot key)
    (hReader : after.reader = session.reader) :
    after.IsLedBy location (moment :: moments) kind := by
  intro slot key record hRecord
  rw [hRecords] at hRecord
  obtain ⟨newest, hNewest, hLe, made, hMade, hTime, hStems⟩ := h slot key record hRecord
  rw [hReader]
  exact ⟨newest, (hRecords _ key).trans hNewest, hLe, made, List.mem_cons_of_mem _ hMade, hTime,
    hStems⟩

end IsLedBy

/-! ## Along a run -/

section Watched

variable {asks : Question → Prop} {passes : Nat → Nat → Prop} {kind : EntryKind}

/-- Along a run with questions for one kind of entries, these lead the records of their key. -/
theorem isLedBy_of_watched (h : Watched location asks passes session moments)
    (hLifetime : 0 < session.cache.lifetime)
    (hKind : ∀ question, asks question → ∃ source, question = .entries kind source) :
    session.IsLedBy location moments kind := by
  induction h with
  | start hEmpty =>
      intro slot key record hRecord
      rw [hEmpty] at hRecord
      exact absurd hRecord (by simp)
  | @ask session moments action question hSession hQuery hAsks hAt ih =>
      rw [perform_of_query? session hQuery] at hLifetime ⊢
      rw [(clock_asked session question).2] at hLifetime
      obtain ⟨source, rfl⟩ := hKind question hAsks
      rw [asked]
      cases hEntries : session.entries kind source with
      | error error => exact ih hLifetime
      | ok result =>
          have hPresent := present_mem_of_watched hSession
          exact ((ih hLifetime).entries hLifetime hPresent hAt hEntries).2
  | @wait session moments span hSession hPasses ih =>
      exact (ih hLifetime).cons _ (Cache.record?_advance session.cache span) rfl
  | change hSession volume ih => exact (ih hLifetime).cons _ (fun _ _ => rfl) rfl

/-- Along a run with a clock that never goes back, entries are made from lines that the file held
less than two lifetimes ago and from the tree of lines that it held less than three lifetimes ago.
When entries of one kind are all that is asked for, they are those of what the file held at one
moment of less than a lifetime ago. -/
theorem age_of_entries (h : Watched location asks (· ≤ ·) session moments)
    (hLifetime : 0 < session.cache.lifetime) {source : Source}
    (hAt : source.IsAt session.editor location) {entries : List kind.Entry}
    (hEntries : session.entries kind source = .ok (entries, after)) :
    let now := session.cache.now
    let lifetime := session.cache.lifetime
    (∃ read ∈ moments, ∃ parsed ∈ moments,
      Slot.StemsFrom session.reader location read parsed (.entries kind) entries ∧
        (read.time ≤ now ∧ now < read.time + 2 * lifetime) ∧
          parsed.time ≤ now ∧ now < parsed.time + 3 * lifetime) ∧
      ((∀ question, asks question → ∃ source, question = .entries kind source) →
        ∃ moment ∈ moments,
          Slot.StemsFrom session.reader location moment moment (.entries kind) entries ∧
            moment.time ≤ now ∧ now < moment.time + lifetime) := by
  intro now lifetime
  have hPresent := present_mem_of_watched h
  have hPast := time_le_of_watched h id
  constructor
  · obtain ⟨⟨read, hRead, parsed, hParsed, hStems, hLines, hTree⟩, -⟩ :=
      (isDated_of_watched h).entries hPresent hAt hEntries
    refine ⟨read, hRead, parsed, hParsed, hStems, ⟨hPast read hRead, ?_⟩, hPast parsed hParsed, ?_⟩
    · omega
    · omega
  · intro hKind
    obtain ⟨⟨moment, hMoment, hStems, hAge⟩, -⟩ :=
      (isLedBy_of_watched h hLifetime hKind).entries hLifetime hPresent hAt hEntries
    exact ⟨moment, hMoment, hStems, hPast moment hMoment, hAge⟩

end Watched

/-- Lines are read at once, the file changes, and entries are made when the lines have nearly
expired.  The entries are still the answer in their own lifetime, when the file has held something
else for longer than a lifetime. -/
theorem age_of_entries_from_old_lines :
    let old : Volume := { tree := .directory [("a.yaml", .file (.text "a: 1\n"))] }
    let new : Volume := { tree := .directory [("a.yaml", .file (.text "b: 2\n"))] }
    let source : Source := .file "/a.yaml"
    let start : Session := { editor := { volume := old }, cache := { lifetime := 10 } }
    let read := start.perform (.keys source "" none)
    let changed := (read.advance 5).onVolume new
    let listed := (changed.advance 4).perform (.entries .path source)
    let late := listed.advance 9
    ∃ moments, Watched ["a.yaml"] (fun _ => True) (· ≤ ·) late moments ∧
      (late.entries .path source).map Prod.fst = .ok (scanPaths ["a: 1"]) ∧
      (∃ before ∈ moments, before.volume.linesAt? ["a.yaml"] = some ["a: 1"] ∧
        late.cache.now < before.time + 2 * late.cache.lifetime) ∧
      ∀ moment ∈ moments, late.cache.now < moment.time + late.cache.lifetime →
        moment.volume.linesAt? ["a.yaml"] = some ["b: 2"] := by
  intro old new source start read changed listed late
  have hAt : ∀ editor : Editor, source.IsAt editor ["a.yaml"] :=
    fun _ => ⟨"/a.yaml", rfl, by decide⟩
  have hStart : Watched ["a.yaml"] (fun _ => True) (· ≤ ·) start _ :=
    .start fun slot key => Cache.record?_clear { lifetime := 10 } slot key
  have hRead : Watched ["a.yaml"] (fun _ => True) (· ≤ ·) read _ :=
    .ask hStart rfl trivial (hAt _)
  have hLater : Watched ["a.yaml"] (fun _ => True) (· ≤ ·) (read.advance 5) _ :=
    .wait hRead (by decide)
  have hChanged : Watched ["a.yaml"] (fun _ => True) (· ≤ ·) changed _ := .change hLater new
  have hNearly : Watched ["a.yaml"] (fun _ => True) (· ≤ ·) (changed.advance 4) _ :=
    .wait hChanged (by decide)
  have hListed : Watched ["a.yaml"] (fun _ => True) (· ≤ ·) listed _ :=
    .ask hNearly rfl trivial (hAt _)
  obtain ⟨moments, hMoments, hLate⟩ : ∃ moments,
      moments = [late.present, (changed.advance 4).present, changed.present,
        (read.advance 5).present, start.present] ∧
      Watched ["a.yaml"] (fun _ => True) (· ≤ ·) late moments :=
    ⟨_, rfl, .wait hListed (by decide)⟩
  have hAnswer : (late.entries .path source).map Prod.fst = .ok (scanPaths ["a: 1"]) := by decide
  have hHeld : ∀ moment ∈ moments, moment.volume.linesAt? ["a.yaml"] = some ["a: 1"] ∨
      moment.volume.linesAt? ["a.yaml"] = some ["b: 2"] := by
    rw [hMoments]
    decide
  refine ⟨moments, hLate, hAnswer, ?_, ?_⟩
  · cases hEntries : late.entries .path source with
    | error error =>
        rw [hEntries] at hAnswer
        exact absurd hAnswer (by simp [Except.map])
    | ok result =>
        obtain ⟨⟨before, hBefore, _, -, ⟨lines, _, hLines, -, hMade⟩, ⟨-, hAge⟩, -⟩, -⟩ :=
          age_of_entries hLate (by decide) (hAt _) hEntries
        refine ⟨before, hBefore, ?_, hAge⟩
        rcases hHeld before hBefore with hOld | hNew
        · exact hOld
        · rw [hNew] at hLines
          cases hLines
          have hSame : scanPaths ["a: 1"] = scanPaths ["b: 2"] := by
            rw [hEntries] at hAnswer
            exact (Except.ok.inj hAnswer).symm.trans hMade
          exact absurd hSame (by decide)
  · rw [hMoments]
    decide

end YamlIndex.Session
