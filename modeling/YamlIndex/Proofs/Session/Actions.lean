import YamlIndex.Proofs.Session.Records
import YamlIndex.Session.Edit
import YamlIndex.Session.Jump
import YamlIndex.Session.Project

/-!
# Actions on a session

Everything that can be done to a session is an `Action`, and `Session.perform` does it.  What an
action can do to the session is said here once: a jump is a query followed by a landing, an edit is
a write followed by forgetting, and all else leaves the editor alone.

## Main results

* `Editor.moveTo_eq`: where the focus, the cursor and the loaded files are after a move.
* `jumpTo_cases`, `jumpBack_cases`, `edit_cases`: the ways an action can go.
* `Lands.volume`, `Lands.current`: a landing writes nothing and moves the focus.
* `find?_forgetEdited`: an edit forgets its source under each of its names, and nothing else.
-/

namespace YamlIndex

namespace Editor

/-! ## What a move does -/

/-- The editor with a file at hand: it is loaded unless it was at hand before. -/
def holding (editor : Editor) (path : String) : Editor :=
  if editor.hasOpen path then editor else { editor with loaded := editor.loaded ++ [path] }

/-- The editor with the focus and the cursor on a line of a file. -/
def onLine (editor : Editor) (path : String) (line : Nat) : Editor :=
  { editor.holding path with current := some path, cursor := some (path, line) }

theorem load_eq {editor loaded : Editor} {source : Source} (h : editor.load source = .ok loaded) :
    ∃ path, editor.pathOf source = .ok path ∧ loaded = editor.holding path := by
  simp only [load, bind, Except.bind, pure, Except.pure] at h
  cases hPath : editor.pathOf source with
  | error error =>
      rw [hPath] at h
      exact absurd h (by simp)
  | ok path =>
      rw [hPath] at h
      dsimp only at h
      cases hLocate : editor.locate path with
      | error error =>
          rw [hLocate] at h
          exact absurd h (by simp)
      | ok location =>
          rw [hLocate] at h
          exact ⟨path, rfl, (Except.ok.inj h).symm⟩

/-- A move puts the focus and the cursor on the line, in the file that the source stood for. -/
theorem moveTo_eq {editor moved : Editor} {source : Source} {line : Nat}
    (h : editor.moveTo source line = .ok moved) :
    ∃ path, editor.pathOf source = .ok path ∧ moved = editor.onLine path line := by
  simp only [moveTo, bind, Except.bind, pure, Except.pure] at h
  cases hLoad : editor.load source with
  | error error =>
      rw [hLoad] at h
      exact absurd h (by simp)
  | ok loaded =>
      obtain ⟨path, hPath, rfl⟩ := load_eq hLoad
      rw [hLoad, hPath] at h
      exact ⟨path, hPath, (Except.ok.inj h).symm⟩

/-! ## The names of a source -/

/-- The keys under which results about the file of a source are remembered: the one of the source,
and both names of the focus when the file has it. -/
def namesOf (editor : Editor) (source : Source) : List String :=
  match editor.pathOf source with
  | .ok path =>
    if editor.isFocus path then [source.key, Source.focusKey, path] else [source.key]
  | .error _ => [source.key]

theorem isFocus_of_current {editor : Editor} {path : String} (h : editor.current = some path) :
    editor.isFocus path = true := by
  rw [isFocus, h, Option.any_some, FilePath.same, beq_self_eq_true]

/-- The names of the focus are its key and the path of its file. -/
theorem mem_namesOf_focus {editor : Editor} {key : String} :
    key ∈ editor.namesOf .focus ↔ key = Source.focusKey ∨ editor.current = some key := by
  cases hCurrent : editor.current with
  | none => simp [namesOf, pathOf, hCurrent, Source.key]
  | some path => simp [namesOf, pathOf, hCurrent, isFocus_of_current hCurrent, Source.key, eq_comm]

/-- The names of a file are its path and, if it has the focus, the key of the focus. -/
theorem mem_namesOf_file {editor : Editor} {path key : String} :
    key ∈ editor.namesOf (.file path) ↔
      key = path ∨ editor.isFocus path = true ∧ key = Source.focusKey := by
  by_cases hFocus : editor.isFocus path = true
  · by_cases hKey : key = path <;> simp [namesOf, pathOf, hFocus, hKey, Source.key]
  · simp [namesOf, pathOf, hFocus, Source.key]

theorem key_mem_namesOf (editor : Editor) (source : Source) :
    source.key ∈ editor.namesOf source := by
  cases source with
  | focus => exact mem_namesOf_focus.mpr (.inl rfl)
  | file path => exact mem_namesOf_file.mpr (.inl rfl)

/-- The path of the file of a source is a name of the source. -/
theorem path_mem_namesOf {editor : Editor} {source : Source} {path : String}
    (h : editor.pathOf source = .ok path) : path ∈ editor.namesOf source := by
  cases source with
  | focus =>
      rw [pathOf] at h
      split at h
      · rename_i current hCurrent
        cases h
        exact mem_namesOf_focus.mpr (.inr hCurrent)
      · exact absurd h (by simp)
  | file name =>
      cases h
      exact key_mem_namesOf editor (.file path)

end Editor

/-! ## Actions -/

/-- Something that is done to a session. -/
inductive Action where
  | entries (kind : EntryKind) (source : Source)
  | keys (source : Source) (text : String) (limit : Option Nat)
  | find (source : Source) (query : String) (limit : Option Nat)
  | pick (kind : EntryKind) (source : Source) (entries : List kind.Entry) (picker : Picker)
  | jumpTo (kind : EntryKind) (source : Source) (picker : Picker)
  | jumpBack (source : Source) (picker : Picker)
  | edit (source : Source) (line : Nat) (ask : String → Option String)
  | saved (path : String)
  | forget (source : Option Source)
  | advance (span : Nat)
  | project (kind : EntryKind) (scanner : Project.Scanner)

namespace Session

/-- The session after a question, which stays as it is when the question fails. -/
def after {ε α : Type} (session : Session) : Except ε (α × Session) → Session
  | .ok (_, session) => session
  | .error _ => session

/-- The session after an action. -/
def perform (session : Session) : Action → Session
  | .entries kind source => session.after (session.entries kind source)
  | .keys source text limit => session.after (session.keysStartingWith source text limit)
  | .find source query limit => session.after (session.find source query limit)
  | .pick kind source entries picker => (session.pick kind source entries picker).2
  | .jumpTo kind source picker => (session.jumpTo kind source picker).2
  | .jumpBack source picker => (session.jumpBack source picker).2
  | .edit source line ask => (session.edit source line ask).2
  | .saved path => session.fileSaved path
  | .forget source => session.forget source
  | .advance span => session.advance span
  | .project kind scanner => session.after (session.projectEntries kind scanner)

theorem after_map {ε α β : Type} (session : Session) (answer : Except ε (α × Session))
    (f : α → β) :
    session.after (answer.map fun result => (f result.1, result.2)) = session.after answer := by
  cases answer <;> rfl

theorem after_keysStartingWith (session : Session) (source : Source) (text : String)
    (limit : Option Nat) :
    session.after (session.keysStartingWith source text limit) =
      session.after (session.lines source) :=
  after_map session (session.lines source) fun lines =>
    YamlIndex.keysStartingWith text lines limit

theorem after_find (session : Session) (source : Source) (query : String) (limit : Option Nat) :
    session.after (session.find source query limit) = session.after (session.lines source) :=
  after_map session (session.lines source) fun lines =>
    findPath (Path.ofDotted query) lines limit

/-! ## Landings -/

/-- The second session is the first one after the cursor was moved to some line of the source. -/
def Lands (source : Source) (before after : Session) : Prop :=
  ∃ line editor target, before.editor.moveTo source line = .ok editor ∧
    after = { before with editor, ledger := before.ledger.add target }

/-- A landing fails when the cursor cannot be moved, and then leaves the session as it was. -/
theorem landed_land (session : Session) (offer : Offer) (source : Source) (line : Nat)
    (action : PickAction) (target : Target) :
    (∃ error, session.editor.moveTo source line = .error error ∧
        session.landed offer (session.land source line action target) =
          (⟨some offer, .error (.editor error)⟩, session)) ∨
      ∃ editor, session.editor.moveTo source line = .ok editor ∧
        session.landed offer (session.land source line action target) =
          (⟨some offer, .ok (some ⟨source, line, action⟩)⟩,
            { session with editor, ledger := session.ledger.add target }) := by
  rw [land]
  cases session.editor.moveTo source line with
  | error error => exact .inl ⟨error, rfl, rfl⟩
  | ok editor => exact .inr ⟨editor, rfl, rfl⟩

section Lands

variable {source : Source} {before after : Session}

theorem Lands.volume (h : Lands source before after) :
    after.editor.volume = before.editor.volume := by
  obtain ⟨line, editor, target, hMove, rfl⟩ := h
  exact Editor.moveTo_volume hMove

theorem Lands.current (h : Lands source before after) :
    ∃ path, before.editor.pathOf source = .ok path ∧ after.editor.current = some path := by
  obtain ⟨line, editor, target, hMove, rfl⟩ := h
  obtain ⟨path, hPath, rfl⟩ := Editor.moveTo_eq hMove
  exact ⟨path, hPath, rfl⟩

theorem Lands.cache (h : Lands source before after) : after.cache = before.cache := by
  obtain ⟨line, editor, target, -, rfl⟩ := h
  rfl

theorem Lands.reader (h : Lands source before after) : after.reader = before.reader := by
  obtain ⟨line, editor, target, -, rfl⟩ := h
  rfl

end Lands

/-! ## Ways an action can go -/

/-- A pick leaves the session as it was, or it lands on the entry that the picker has taken. -/
theorem pick_spec (session : Session) (kind : EntryKind) (source : Source)
    (entries : List kind.Entry) (picker : Picker) :
    (∃ attempt, session.pick kind source entries picker = (attempt, session) ∧
        ∀ jump, attempt.result ≠ .ok (some jump)) ∨
      ∃ selection entry editor,
        picker ⟨kind.prompt, Choice.ofEntries kind entries, kind.actions⟩ = some selection ∧
          entries[selection.choice.index]? = some entry ∧
            session.editor.moveTo (sourceOf source (kind.file entry)) (kind.line entry) =
              .ok editor ∧
              session.pick kind source entries picker =
                (⟨some ⟨kind.prompt, Choice.ofEntries kind entries, kind.actions⟩,
                  .ok (some ⟨sourceOf source (kind.file entry), kind.line entry,
                    selection.action⟩)⟩,
                  { session with editor, ledger := session.ledger.add ⟨kind, kind.target entry⟩ })
    := by
  rw [pick]
  by_cases hEmpty : entries.isEmpty = true
  · rw [if_pos hEmpty]
    exact .inl ⟨_, rfl, by simp⟩
  · rw [if_neg hEmpty]
    dsimp only
    cases hPicker : picker ⟨kind.prompt, Choice.ofEntries kind entries, kind.actions⟩ with
    | none => exact .inl ⟨_, rfl, by simp⟩
    | some selection =>
        dsimp only
        cases hEntry : entries[selection.choice.index]? with
        | none => exact .inl ⟨_, rfl, by simp⟩
        | some entry =>
            dsimp only
            rcases landed_land session ⟨kind.prompt, Choice.ofEntries kind entries, kind.actions⟩
              (sourceOf source (kind.file entry)) (kind.line entry) selection.action
              ⟨kind, kind.target entry⟩ with ⟨error, -, hLanded⟩ | ⟨editor, hMove, hLanded⟩
            · exact .inl ⟨_, hLanded, by simp⟩
            · exact .inr ⟨selection, entry, editor, rfl, hEntry, hMove, hLanded⟩

theorem pick_cases (session : Session) (kind : EntryKind) (source : Source)
    (entries : List kind.Entry) (picker : Picker) :
    (session.pick kind source entries picker).2 = session ∨
      ∃ entry ∈ entries, Lands (sourceOf source (kind.file entry)) session
        (session.pick kind source entries picker).2 := by
  rcases pick_spec session kind source entries picker with
    ⟨attempt, hPick, -⟩ | ⟨selection, entry, editor, -, hEntry, hMove, hPick⟩
  · rw [hPick]
    exact .inl rfl
  · rw [hPick]
    exact .inr ⟨entry, List.mem_of_getElem? hEntry, kind.line entry, editor, _, hMove, rfl⟩

/-- A pick that ends in a jump has gone to the file of one of the entries, or to the given source if
this entry has no file. -/
theorem exists_of_pick {session : Session} {kind : EntryKind} {source : Source}
    {entries : List kind.Entry} {picker : Picker} {jump : Jump}
    (h : (session.pick kind source entries picker).1.result = .ok (some jump)) :
    ∃ entry ∈ entries, jump.source = sourceOf source (kind.file entry) ∧
      jump.line = kind.line entry := by
  rcases pick_spec session kind source entries picker with
    ⟨attempt, hPick, hNone⟩ | ⟨selection, entry, editor, -, hEntry, -, hPick⟩
  · rw [hPick] at h
    exact absurd h (hNone jump)
  · rw [hPick] at h
    cases h
    exact ⟨entry, List.mem_of_getElem? hEntry, rfl, rfl⟩

theorem jumpTo_cases (session : Session) (kind : EntryKind) (source : Source)
    (picker : Picker) :
    (∃ error, session.entries kind source = .error error ∧
        (session.jumpTo kind source picker).2 = session) ∨
      ∃ entries asked, session.entries kind source = .ok (entries, asked) ∧
        (session.jumpTo kind source picker).2 = (asked.pick kind source entries picker).2 := by
  rw [jumpTo]
  cases hEntries : session.entries kind source with
  | error error => exact .inl ⟨error, rfl, rfl⟩
  | ok result => exact .inr ⟨result.1, result.2, rfl, rfl⟩

/-- The earlier target that a picker takes. -/
def recalled? (session : Session) (picker : Picker) : Option Target :=
  let recent := session.ledger.records.reverse
  if recent.isEmpty then none
  else (picker ⟨"YAML history", Choice.ofTargets recent, [.jump]⟩).bind fun selection =>
    recent[selection.choice.index]?

/-- The session after an earlier target has been looked for in a source. -/
def lookedFor (session : Session) (source : Source) (target : Target) : Session :=
  session.after (session.lineOf source target)

theorem lookedFor_eq (session : Session) (source : Source) (target : Target) :
    session.lookedFor source target =
      match target.kind with
      | .path => session.after (session.lines source)
      | .value => session.after (session.entries .value source) := by
  rw [lookedFor, lineOf]
  cases target.kind with
  | path =>
      dsimp only
      rw [after_map _ _ fun found : List PathEntry => found.head?.map PathEntry.line]
      exact after_find session source target.text (some 1)
  | value =>
      exact after_map session (session.entries .value source) fun values =>
        (values.find? fun entry => entry.value == target.text).map ValueEntry.line

/-- With no target taken there is no jump back. -/
theorem jumpBack_of_none {session : Session} {picker : Picker}
    (h : session.recalled? picker = none) (source : Source) :
    ∃ offer, session.jumpBack source picker = (⟨offer, .ok none⟩, session) := by
  rw [jumpBack]
  rw [recalled?] at h
  by_cases hEmpty : session.ledger.records.reverse.isEmpty = true
  · dsimp only
    rw [if_pos hEmpty]
    exact ⟨_, rfl⟩
  · dsimp only at h ⊢
    rw [if_neg hEmpty] at h ⊢
    cases hPicker : picker
        ⟨"YAML history", Choice.ofTargets session.ledger.records.reverse, [.jump]⟩ with
    | none => exact ⟨_, rfl⟩
    | some selection =>
        rw [hPicker, Option.bind_some] at h
        dsimp only
        rw [h]
        exact ⟨_, rfl⟩

/-- A target that is taken is looked for, and the jump lands where it is found. -/
theorem jumpBack_of_some {session : Session} {picker : Picker} {target : Target}
    (h : session.recalled? picker = some target) (source : Source) :
    let offer : Offer := ⟨"YAML history", Choice.ofTargets session.ledger.records.reverse, [.jump]⟩
    ∃ selection, picker offer = some selection ∧
      session.ledger.records.reverse[selection.choice.index]? = some target ∧
        session.jumpBack source picker =
          match session.lineOf source target with
          | .error error => (⟨some offer, .error (.editor error)⟩, session)
          | .ok (none, session) => (⟨some offer, .error (.gone target)⟩, session)
          | .ok (some line, session) =>
            session.landed offer (session.land source line selection.action target) := by
  intro offer
  rw [recalled?] at h
  by_cases hEmpty : session.ledger.records.reverse.isEmpty = true
  · rw [if_pos hEmpty] at h
    exact absurd h (by simp)
  · rw [if_neg hEmpty, Option.bind_eq_some_iff] at h
    obtain ⟨selection, hPicker, hTarget⟩ := h
    refine ⟨selection, hPicker, hTarget, ?_⟩
    rw [jumpBack, if_neg hEmpty]
    dsimp only
    rw [hPicker]
    dsimp only
    generalize session.ledger.records.reverse[selection.choice.index]? = taken at hTarget ⊢
    cases hTarget
    rfl

theorem jumpBack_cases (session : Session) (source : Source) (picker : Picker) :
    (session.recalled? picker = none ∧ (session.jumpBack source picker).2 = session) ∨
      ∃ target, session.recalled? picker = some target ∧
        ((session.jumpBack source picker).2 = session.lookedFor source target ∨
          Lands source (session.lookedFor source target)
            (session.jumpBack source picker).2) := by
  cases hRecalled : session.recalled? picker with
  | none =>
      obtain ⟨offer, hBack⟩ := jumpBack_of_none hRecalled source
      rw [hBack]
      exact .inl ⟨rfl, rfl⟩
  | some target =>
      refine .inr ⟨target, rfl, ?_⟩
      obtain ⟨selection, -, -, hBack⟩ := jumpBack_of_some hRecalled source
      rw [hBack, lookedFor]
      cases session.lineOf source target with
      | error error => exact .inl rfl
      | ok result =>
          obtain ⟨found, asked⟩ := result
          cases found with
          | none => exact .inl rfl
          | some line =>
              dsimp only
              rcases landed_land asked _ source line selection.action target with
                ⟨error, -, hLanded⟩ | ⟨editor, hMove, hLanded⟩
              · rw [hLanded]
                exact .inl rfl
              · rw [hLanded]
                exact .inr ⟨line, editor, target, hMove, rfl⟩

/-- An edit that reports no change makes none, or a line is written and its source forgotten. -/
theorem edit_spec (session : Session) (source : Source) (line : Nat)
    (ask : String → Option String) :
    ((session.edit source line ask).1.result ≠ .ok true ∧
        (session.edit source line ask).2 = session) ∨
      ∃ new editor, session.editor.replaceLine source line new = .ok editor ∧
        (session.edit source line ask).1.result = .ok true ∧
          (session.edit source line ask).2 = { session with editor }.forgetEdited source := by
  rw [edit]
  cases session.assignmentAt source line with
  | error error => exact .inl ⟨by simp, rfl⟩
  | ok assignment =>
      dsimp only
      cases replacement? assignment.2 (ask assignment.2) with
      | none => exact .inl ⟨by simp, rfl⟩
      | some new =>
          dsimp only
          cases hReplace : session.editor.replaceLine source line
              (assignment.1 ++ " " ++ new) with
          | error error => exact .inl ⟨by simp, rfl⟩
          | ok editor => exact .inr ⟨_, editor, hReplace, rfl, rfl⟩

theorem edit_cases (session : Session) (source : Source) (line : Nat)
    (ask : String → Option String) :
    (session.edit source line ask).2 = session ∨
      ∃ new editor, session.editor.replaceLine source line new = .ok editor ∧
        (session.edit source line ask).2 = { session with editor }.forgetEdited source := by
  rcases edit_spec session source line ask with
    ⟨-, hSame⟩ | ⟨new, editor, hReplace, -, hEdited⟩
  · exact .inl hSame
  · exact .inr ⟨new, editor, hReplace, hEdited⟩

/-! ## What an edit forgets -/

theorem forgetEdited_same (session : Session) (source : Source) :
    (session.forgetEdited source).editor = session.editor ∧
      (session.forgetEdited source).ledger = session.ledger ∧
        (session.forgetEdited source).reader = session.reader := by
  cases source with
  | focus =>
      rw [forgetEdited]
      cases session.editor.current with
      | none => exact ⟨rfl, rfl, rfl⟩
      | some path => exact ⟨rfl, rfl, rfl⟩
  | file path =>
      rw [forgetEdited]
      split
      · exact ⟨rfl, rfl, rfl⟩
      · exact ⟨rfl, rfl, rfl⟩

/-- A cache from which some keys were erased has no records under them and all others. -/
theorem find?_foldl_erase (names : List String) (cache : Cache) (slot : Slot) (key : String) :
    ((names.foldl Cache.erase cache).store slot).find? key =
      if key ∈ names then none else (cache.store slot).find? key := by
  induction names generalizing cache with
  | nil => simp
  | cons name names ih =>
      rw [List.foldl_cons, ih, Cache.store_erase, Store.find?_erase]
      by_cases hName : key = name <;> simp [hName]

/-- The keys that are erased are the names of the source. -/
theorem cache_forgetEdited (session : Session) (source : Source) :
    ∃ names : List String, (∀ key, key ∈ names ↔ key ∈ session.editor.namesOf source) ∧
      (session.forgetEdited source).cache = names.foldl Cache.erase session.cache := by
  cases source with
  | focus =>
      rw [forgetEdited]
      cases hCurrent : session.editor.current with
      | none =>
          refine ⟨[Source.focusKey], fun key => ?_, rfl⟩
          simp [Editor.mem_namesOf_focus, hCurrent]
      | some path =>
          refine ⟨[Source.focusKey, path], fun key => ?_, rfl⟩
          simp [Editor.mem_namesOf_focus, hCurrent, eq_comm]
  | file path =>
      rw [forgetEdited]
      by_cases hFocus : session.editor.isFocus path = true
      · refine ⟨[path, Source.focusKey], fun key => ?_, by rw [if_pos hFocus]; rfl⟩
        simp [Editor.mem_namesOf_file, hFocus]
      · refine ⟨[path], fun key => ?_, by rw [if_neg hFocus]; rfl⟩
        simp [Editor.mem_namesOf_file, hFocus]

/-- A source is forgotten under its names, and nothing else is. -/
theorem find?_forgetEdited (session : Session) (source : Source) (slot : Slot) (key : String) :
    ((session.forgetEdited source).cache.store slot).find? key =
      if key ∈ session.editor.namesOf source then none
      else (session.cache.store slot).find? key := by
  obtain ⟨names, hNames, hCache⟩ := cache_forgetEdited session source
  rw [hCache, find?_foldl_erase]
  simp only [hNames]

theorem keeps_forgetEdited (session : Session) (source : Source) (key : String) :
    (session.forgetEdited source).cache.keeps key = session.cache.keeps key := by
  cases source with
  | focus =>
      rw [forgetEdited]
      cases session.editor.current <;> rfl
  | file path =>
      rw [forgetEdited]
      split <;> rfl

/-- A record that an edit leaves was there before, and not under a name of the source. -/
theorem record?_of_forgetEdited {session : Session} {source : Source} {slot : Slot} {key : String}
    {record : Stamped slot.Content}
    (h : (session.forgetEdited source).cache.record? slot key = some record) :
    session.cache.record? slot key = some record ∧ key ∉ session.editor.namesOf source := by
  rw [Cache.record?, keeps_forgetEdited, find?_forgetEdited] at h
  by_cases hName : key ∈ session.editor.namesOf source
  · rw [if_pos hName, ite_self] at h
    exact absurd h (by simp)
  · rw [if_neg hName] at h
    exact ⟨h, hName⟩

/-- A record that is left when a file was saved was there before, and not under its path. -/
theorem record?_of_fileSaved {session : Session} {path : String} {slot : Slot} {key : String}
    {record : Stamped slot.Content}
    (h : (session.fileSaved path).cache.record? slot key = some record) :
    session.cache.record? slot key = some record ∧ key ≠ path := by
  rw [fileSaved] at h
  dsimp only at h
  split at h
  · obtain ⟨-, hErased⟩ := Cache.record?_of_erase h
    obtain ⟨hKey, hRecord⟩ := Cache.record?_of_erase hErased
    exact ⟨hRecord, hKey⟩
  · obtain ⟨hKey, hRecord⟩ := Cache.record?_of_erase h
    exact ⟨hRecord, hKey⟩

/-- A record that is left when results were forgotten was there before. -/
theorem record?_of_forget {session : Session} {source : Option Source} {slot : Slot}
    {key : String} {record : Stamped slot.Content}
    (h : (session.forget source).cache.record? slot key = some record) :
    session.cache.record? slot key = some record := by
  cases source with
  | none =>
      have hClear : session.cache.clear.record? slot key = some record := h
      rw [Cache.record?_clear] at hClear
      exact absurd hClear (by simp)
  | some source => exact (Cache.record?_of_erase h).2

theorem forget_same (session : Session) (source : Option Source) :
    (session.forget source).editor = session.editor ∧
      (session.forget source).reader = session.reader := by
  cases source with
  | none => exact ⟨rfl, rfl⟩
  | some source => exact ⟨rfl, rfl⟩

end Session

end YamlIndex
