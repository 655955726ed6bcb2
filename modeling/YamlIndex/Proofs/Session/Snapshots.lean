import YamlIndex.Proofs.Session.Watching

/-!
# Lines and trees of one moment

Lines and trees are remembered apart, each with a time of its own, and a tree is looked up by its
key and not by the lines it was made from.  Entries that are asked for while the tree is still there
and the lines are not, or the other way round, are put together from what the file held at two
moments.

Only entries ask for a tree.  While nothing else is asked for and the clock never goes back, lines
and their tree are always written at the same time, so they expire together, and a question finds
both of them or neither.

## Main results

* `IsPaired.read`: lines and tree that are asked for one after the other belong together.
* `snapshots_of_entries`: from which moments entries stem along a run.
-/

namespace YamlIndex.Session

variable {session after : Session} {location : Location} {moments : List Moment}

/-! ## Lines with their tree -/

/-- Under the key a tree that is alive goes with the remembered lines, and remembered lines that are
alive and have a tree go with it; both were written at the same time. -/
structure IsPaired (session : Session) (key : String) : Prop where
  ofTree : ∀ parsed, session.cache.record? .tree key = some parsed →
    session.cache.isAlive parsed.stamp = true →
      ∃ read, session.cache.record? .lines key = some read ∧ read.stamp = parsed.stamp ∧
        readTree session.reader read.value = some parsed.value
  ofLines : ∀ read, session.cache.record? .lines key = some read →
    session.cache.isAlive read.stamp = true →
      ∀ tree, readTree session.reader read.value = some tree →
        session.cache.record? .tree key = some ⟨tree, read.stamp⟩

section IsPaired

variable {key : String}

/-- Lines that have expired have no tree that is alive. -/
theorem IsPaired.get?_tree_eq_none (h : session.IsPaired key)
    (hNone : session.cache.get? .lines key = none) : session.cache.get? .tree key = none := by
  refine Cache.get?_eq_none_iff.mpr fun parsed hParsed => ?_
  rw [← Bool.not_eq_true]
  intro hAlive
  obtain ⟨read, hRead, hStamp, -⟩ := h.ofTree parsed hParsed hAlive
  have hDead := Cache.get?_eq_none_iff.mp hNone read hRead
  rw [hStamp, hAlive] at hDead
  exact absurd hDead (by decide)

/-- The tree that goes with remembered lines is theirs, and asking for it writes nothing. -/
theorem IsPaired.tree (h : session.IsPaired key) {lines : List String}
    (hLines : session.cache.get? .lines key = some lines) :
    session.tree key lines = (readTree session.reader lines, session) := by
  obtain ⟨read, hRead, hAlive, rfl⟩ := Cache.get?_eq_some_iff.mp hLines
  rcases tree_cases session key read.value with ⟨hReader, hEq⟩ | ⟨_, tree, -, hGet, hEq⟩ |
    ⟨-, hNone, hEq⟩ | ⟨tree, hGet, hSome, hEq⟩
  · rw [hEq, hReader]
    rfl
  · obtain ⟨parsed, hParsed, hTreeAlive, rfl⟩ := Cache.get?_eq_some_iff.mp hGet
    obtain ⟨own, hOwn, -, hTree⟩ := h.ofTree parsed hParsed hTreeAlive
    rw [hRead] at hOwn
    cases hOwn
    rw [hEq, hTree]
  · rw [hEq, hNone]
  · have hParsed := h.ofLines read hRead hAlive tree hSome
    have hDead := Cache.get?_eq_none_iff.mp hGet _ hParsed
    rw [hAlive] at hDead
    exact absurd hDead (by decide)

/-- Lines that were just read are written together with their tree, if they have one. -/
theorem IsPaired.written (hNone : session.cache.get? .tree key = none) (lines : List String) :
    ((session.remember .lines key lines).tree key lines).2.IsPaired key := by
  have hSlot : Slot.tree ≠ Slot.lines := by decide
  have hTree : (session.remember .lines key lines).cache.get? .tree key = none :=
    (Cache.get?_put_slot session.cache hSlot key key lines).trans hNone
  have hBare : readTree session.reader lines = none →
      (session.remember .lines key lines).IsPaired key := by
    intro hUnread
    constructor
    · intro parsed hParsed hAlive
      rw [Cache.get?_eq_none_iff.mp hTree parsed hParsed] at hAlive
      exact absurd hAlive (by decide)
    · intro read hRead _ tree hSome
      rw [Cache.eq_of_record?_put_self hRead] at hSome
      exact absurd (hUnread.symm.trans hSome) (by simp)
  rcases tree_cases (session.remember .lines key lines) key lines with ⟨hReader, hEq⟩ |
    ⟨_, tree, -, hGet, -⟩ | ⟨-, hUnread, hEq⟩ | ⟨tree, -, hSome, hEq⟩
  · rw [hEq]
    refine hBare ?_
    rw [show session.reader = none from hReader]
    rfl
  · rw [hTree] at hGet
    exact absurd hGet (by simp)
  · rw [hEq]
    exact hBare hUnread
  · rw [hEq]
    have hNow := (clock_remember session .lines key lines).1
    have hLines : ((session.remember .lines key lines).remember .tree key tree).cache.record? .lines
        key = (session.remember .lines key lines).cache.record? .lines key :=
      Cache.record?_put_slot _ hSlot.symm key key tree
    constructor
    · intro parsed hParsed _
      have hKeeps : session.cache.keeps key = true := by
        have hBoth := Cache.keeps_of_record? hParsed
        rwa [remember, Cache.keeps_put, remember, Cache.keeps_put] at hBoth
      rw [Cache.eq_of_record?_put_self hParsed]
      refine ⟨⟨lines, session.cache.now⟩, ?_, hNow.symm, hSome⟩
      rw [hLines]
      exact (Cache.record?_put_self _ _ _ _).trans (if_pos hKeeps)
    · intro read hRead _ other hOther
      rw [hLines] at hRead
      have hKeeps := Cache.keeps_of_record? hRead
      rw [Cache.eq_of_record?_put_self hRead] at hOther ⊢
      obtain rfl : tree = other := Option.some.inj (hSome.symm.trans hOther)
      rw [← hNow]
      exact (Cache.record?_put_self _ _ _ _).trans (if_pos hKeeps)

/-- Lines and the tree that is asked for behind them belong together. -/
theorem IsPaired.read {source : Source} (h : session.IsPaired source.key) {opened : Session}
    {lines : List String} (hLines : session.lines source = .ok (lines, opened)) :
    (opened.tree source.key lines).1 = readTree session.reader lines ∧
      (opened.tree source.key lines).2.IsPaired source.key := by
  cases hGet : session.cache.get? .lines source.key with
  | some remembered =>
      rw [cached_lines hGet] at hLines
      cases hLines
      rw [h.tree hGet]
      exact ⟨rfl, h⟩
  | none =>
      have hNone := h.get?_tree_eq_none hGet
      obtain ⟨-, rfl⟩ := lines_of_get?_none hGet hLines
      have hSlot : Slot.tree ≠ Slot.lines := by decide
      exact ⟨fst_tree_of_get?_none
        ((Cache.get?_put_slot session.cache hSlot _ _ lines).trans hNone) lines,
        .written hNone lines⟩

/-- Lines and trees stay together while they are left alone and what is dead stays dead. -/
theorem IsPaired.of_records (h : session.IsPaired key)
    (hLines : after.cache.record? .lines key = session.cache.record? .lines key)
    (hTree : after.cache.record? .tree key = session.cache.record? .tree key)
    (hReader : after.reader = session.reader)
    (hAlive : ∀ stamp, after.cache.isAlive stamp = true → session.cache.isAlive stamp = true) :
    after.IsPaired key where
  ofTree parsed hParsed hIs := by
    rw [hTree] at hParsed
    rw [hLines, hReader]
    exact h.ofTree parsed hParsed (hAlive _ hIs)
  ofLines read hRead hIs tree hSome := by
    rw [hLines] at hRead
    rw [hReader] at hSome
    rw [hTree]
    exact h.ofLines read hRead (hAlive _ hIs) tree hSome

end IsPaired

/-! ## Entries of one moment -/

/-- All remembered lines go with their tree, and all remembered entries are those of one moment. -/
structure IsInStep (session : Session) (location : Location) (moments : List Moment) : Prop where
  paired : ∀ key, session.IsPaired key
  single : ∀ kind key record, session.cache.record? (.entries kind) key = some record →
    ∃ moment ∈ moments,
      Slot.StemsFrom session.reader location moment moment (.entries kind) record.value

section IsInStep

/-- Lines and trees that are asked for leave the entries that are remembered. -/
theorem record?_entries_of_read {source : Source} {opened : Session} {lines : List String}
    (hLines : session.lines source = .ok (lines, opened)) (kind : EntryKind) (key : String) :
    (opened.tree source.key lines).2.cache.record? (.entries kind) key =
      session.cache.record? (.entries kind) key := by
  have hOpened : opened.cache.record? (.entries kind) key =
      session.cache.record? (.entries kind) key := by
    rcases lines_cases session source with ⟨_, -, hEq⟩ | ⟨-, read, -, hEq⟩ | ⟨-, _, -, hEq⟩
    · rw [hEq] at hLines
      cases hLines
      rfl
    · rw [hEq] at hLines
      cases hLines
      exact Cache.record?_put_slot session.cache (by simp) _ _ _
    · rw [hEq] at hLines
      exact absurd hLines (by simp)
  rcases snd_tree_cases opened source.key lines with hEq | ⟨tree, hEq⟩
  · rw [hEq, hOpened]
  · rw [hEq, ← hOpened]
    exact Cache.record?_put_slot opened.cache (by simp) _ _ _

/-- Entries are those of one moment, and so are all that are remembered afterwards. -/
theorem IsInStep.entries (h : session.IsInStep location moments)
    (hDated : session.IsDated location moments) (hPresent : session.present ∈ moments)
    {source : Source} (hAt : source.IsAt session.editor location) {kind : EntryKind}
    {entries : List kind.Entry} (hEntries : session.entries kind source = .ok (entries, after)) :
    (∃ moment ∈ moments,
        Slot.StemsFrom session.reader location moment moment (.entries kind) entries) ∧
      after.IsInStep location moments := by
  have hClock := clock_entries hEntries
  have hExtends := extends_entries hEntries
  rcases entries_cases session kind source with
    ⟨_, hGet, hEq⟩ | ⟨-, lines, opened, hLines, hEq⟩ | ⟨-, _, -, hEq⟩
  · rw [hEq] at hEntries
    cases hEntries
    obtain ⟨record, hRecord, -, rfl⟩ := Cache.get?_eq_some_iff.mp hGet
    exact ⟨h.single kind source.key record hRecord, h⟩
  · rw [hEq] at hEntries
    cases hEntries
    obtain ⟨hTree, hPaired⟩ := (h.paired source.key).read hLines
    obtain ⟨⟨read, hRead, _, -, ⟨_, _, hHeld, -, rfl⟩, -⟩, -⟩ := hDated.lines hPresent hAt hLines
    have hStems : Slot.StemsFrom session.reader location read read (.entries kind)
        (entriesWith (opened.tree source.key lines).1 lines kind) :=
      ⟨lines, lines, hHeld, hHeld, by rw [hTree]; rfl⟩
    refine ⟨⟨read, hRead, hStems⟩, fun key => ?_, fun other key record hRecord => ?_⟩
    · by_cases hKey : key = source.key
      · subst hKey
        refine hPaired.of_records ?_ ?_ rfl fun stamp hIs => ?_
        · exact Cache.record?_put_slot _ (by simp) _ _ _
        · exact Cache.record?_put_slot _ (by simp) _ _ _
        · exact (Cache.isAlive_put _ _ _ _ _).symm.trans hIs
      · refine (h.paired key).of_records (hExtends.others _ key hKey) (hExtends.others _ key hKey)
          hExtends.reader fun stamp hIs => ?_
        rw [Cache.isAlive_iff, hClock.1, hClock.2] at hIs
        exact Cache.isAlive_iff.mpr hIs
    · rw [hExtends.reader]
      rcases Cache.record?_put_cases hRecord with ⟨hSlot, -, hValue⟩ | ⟨-, hOld⟩
      · cases hSlot
        rw [hValue]
        exact ⟨read, hRead, hStems⟩
      · rw [record?_entries_of_read hLines] at hOld
        exact h.single other key record hOld
  · rw [hEq] at hEntries
    exact absurd hEntries (by simp)

/-- More moments and a later time keep what is remembered in step. -/
theorem IsInStep.cons (h : session.IsInStep location moments) (moment : Moment)
    (hRecords : ∀ slot key, after.cache.record? slot key = session.cache.record? slot key)
    (hReader : after.reader = session.reader)
    (hAlive : ∀ stamp, after.cache.isAlive stamp = true → session.cache.isAlive stamp = true) :
    after.IsInStep location (moment :: moments) where
  paired key := (h.paired key).of_records (hRecords _ key) (hRecords _ key) hReader hAlive
  single kind key record hRecord := by
    rw [hRecords] at hRecord
    obtain ⟨made, hMade, hStems⟩ := h.single kind key record hRecord
    rw [hReader]
    exact ⟨made, List.mem_cons_of_mem _ hMade, hStems⟩

end IsInStep

/-! ## Along a run -/

section Watched

variable {asks : Question → Prop} {passes : Nat → Nat → Prop}

/-- Along a run with questions for entries only and a clock that never goes back, all that is
remembered is in step. -/
theorem isInStep_of_watched (h : Watched location asks passes session moments)
    (hPasses : ∀ now time, passes now time → now ≤ time)
    (hEntries : ∀ question, asks question → ∃ kind source, question = .entries kind source) :
    session.IsInStep location moments := by
  induction h with
  | start hEmpty =>
      refine ⟨fun key => ⟨fun parsed hParsed => ?_, fun read hRead => ?_⟩,
        fun kind key record hRecord => ?_⟩
      · rw [hEmpty] at hParsed
        exact absurd hParsed (by simp)
      · rw [hEmpty] at hRead
        exact absurd hRead (by simp)
      · rw [hEmpty] at hRecord
        exact absurd hRecord (by simp)
  | @ask session moments action question hSession hQuery hAsks hAt ih =>
      rw [perform_of_query? session hQuery]
      obtain ⟨kind, source, rfl⟩ := hEntries question hAsks
      rw [asked]
      cases hAnswer : session.entries kind source with
      | error error => exact ih
      | ok result =>
          exact (ih.entries (isDated_of_watched hSession) (present_mem_of_watched hSession) hAt
            hAnswer).2
  | @wait session moments span hSession hTime ih =>
      refine ih.cons _ (Cache.record?_advance session.cache span) rfl fun stamp hIs => ?_
      have hLater := hPasses _ _ hTime
      rw [Cache.isAlive_iff] at hIs ⊢
      exact (Nat.sub_le_sub_right hLater stamp).trans_lt hIs
  | change hSession volume ih => exact ih.cons _ (fun _ _ => rfl) rfl fun _ hIs => hIs

/-- Along a run entries are made from lines that the file held at one moment and from the tree of
lines that it held at one moment.  When only entries are asked for and the clock never goes back,
this is the same moment. -/
theorem snapshots_of_entries (h : Watched location asks passes session moments) {source : Source}
    (hAt : source.IsAt session.editor location) {kind : EntryKind} {entries : List kind.Entry}
    (hEntries : session.entries kind source = .ok (entries, after)) :
    (∃ read ∈ moments, ∃ parsed ∈ moments,
        Slot.StemsFrom session.reader location read parsed (.entries kind) entries) ∧
      ((∀ now time, passes now time → now ≤ time) →
        (∀ question, asks question → ∃ kind source, question = .entries kind source) →
          ∃ moment ∈ moments,
            Slot.StemsFrom session.reader location moment moment (.entries kind) entries) := by
  have hPresent := present_mem_of_watched h
  have hDated := isDated_of_watched h
  constructor
  · obtain ⟨⟨read, hRead, parsed, hParsed, hStems, -⟩, -⟩ := hDated.entries hPresent hAt hEntries
    exact ⟨read, hRead, parsed, hParsed, hStems⟩
  · intro hPasses hAsks
    exact ((isInStep_of_watched h hPasses hAsks).entries hDated hPresent hAt hEntries).1

end Watched

/-- Lines are read at once and a tree is made from them later, so the tree outlives them.  The file
changes in between, and the values that are asked for when the lines have expired have the path and
the value of the old text and the line of the new one: they are those of no moment. -/
theorem snapshots_of_entries_two_texts :
    let old : Volume := { tree := .directory [("a.yaml", .file (.text "old:\n  name: x\n"))] }
    let new : Volume := { tree := .directory [("a.yaml", .file (.text "new:\n  name: y\n"))] }
    let source : Source := .file "/a.yaml"
    let start : Session :=
      { editor := { volume := old }, cache := { lifetime := 10 }, reader := some Yaml.read }
    let read := start.perform (.keys source "" none)
    let listed := (read.advance 5).perform (.entries .path source)
    let late := (listed.onVolume new).advance 5
    let answer : List ValueEntry :=
      [{ line := 2, key := "name", path := [.key "old", .key "name"], value := "x"
         text := "name: y" }]
    ∃ moments, Watched ["a.yaml"] (fun _ => True) (· ≤ ·) late moments ∧
      (late.entries .value source).map Prod.fst = .ok answer ∧
      (∃ read ∈ moments, ∃ parsed ∈ moments,
        Slot.StemsFrom late.reader ["a.yaml"] read parsed (.entries .value) answer) ∧
      ∀ moment ∈ moments,
        ¬ Slot.StemsFrom late.reader ["a.yaml"] moment moment (.entries .value) answer := by
  intro old new source start read listed late answer
  have hAt : ∀ editor : Editor, source.IsAt editor ["a.yaml"] :=
    fun _ => ⟨"/a.yaml", rfl, by decide⟩
  have hStart : Watched ["a.yaml"] (fun _ => True) (· ≤ ·) start _ :=
    .start fun slot key => Cache.record?_clear { lifetime := 10 } slot key
  have hRead : Watched ["a.yaml"] (fun _ => True) (· ≤ ·) read _ :=
    .ask hStart rfl trivial (hAt _)
  have hLater : Watched ["a.yaml"] (fun _ => True) (· ≤ ·) (read.advance 5) _ :=
    .wait hRead (by decide)
  have hListed : Watched ["a.yaml"] (fun _ => True) (· ≤ ·) listed _ :=
    .ask hLater rfl trivial (hAt _)
  obtain ⟨moments, hMoments, hLate⟩ : ∃ moments,
      moments = [late.present, (listed.onVolume new).present, (read.advance 5).present,
        start.present] ∧
      Watched ["a.yaml"] (fun _ => True) (· ≤ ·) late moments :=
    ⟨_, rfl, .wait (.change hListed new) (by decide +kernel)⟩
  have hAnswer : (late.entries .value source).map Prod.fst = .ok answer := by decide +kernel
  refine ⟨moments, hLate, hAnswer, ?_, ?_⟩
  · cases hEntries : late.entries .value source with
    | error error =>
        rw [hEntries] at hAnswer
        exact absurd hAnswer (by simp [Except.map])
    | ok result =>
        rw [hEntries] at hAnswer
        rw [← Except.ok.inj hAnswer]
        exact (snapshots_of_entries hLate (hAt _) hEntries).1
  · have hHeld : ∀ moment ∈ moments,
        moment.volume.linesAt? ["a.yaml"] = some ["old:", "  name: x"] ∨
          moment.volume.linesAt? ["a.yaml"] = some ["new:", "  name: y"] := by
      rw [hMoments]
      decide
    rintro moment hMoment ⟨lines, treeLines, hLines, hTreeLines, hMade⟩
    rcases hHeld moment hMoment with hOld | hNew
    · cases hLines.symm.trans hOld
      cases hTreeLines.symm.trans hOld
      have hOther : answer ≠ entriesWith (readTree late.reader ["old:", "  name: x"])
        ["old:", "  name: x"] .value := by decide +kernel
      exact hOther hMade
    · cases hLines.symm.trans hNew
      cases hTreeLines.symm.trans hNew
      have hOther : answer ≠ entriesWith (readTree late.reader ["new:", "  name: y"])
        ["new:", "  name: y"] .value := by decide +kernel
      exact hOther hMade

end YamlIndex.Session
