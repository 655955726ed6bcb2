import YamlIndex.Proofs.Project.Index
import YamlIndex.Proofs.Session.Questions

/-!
# Two ways to index a project

A scanner indexes a project by itself and remembers nothing; a session asks for the entries of a
project and remembers lines, trees and entries under the path of each file.  What is remembered may
be used in the same pass already, the tree of a file for its values after its paths, say.  As long
as every record under the path of a listed file is what the scanner finds in that file, `Agrees`,
both give the same, and asking keeps it so: records are told apart by paths, and the paths of a
listing tell its files apart.

## Main results

* `collect_of_agrees`: what a session collects is what the scanner finds, file by file.
* `project_agrees_with_scan`: both ways to index a project agree.
-/

namespace YamlIndex

open Project (Index Scanner)

/-! ## Records that agree with a scanner -/

/-- Whether a slot holds what a scanner finds in a file. -/
def Slot.IsFound (scanner : Scanner) (reader : Option Reader) (location : Location) :
    (slot : Slot) → slot.Content → Prop
  | .lines, value => scanner.readLines location = .ok value
  | .tree, value => ∃ lines, scanner.readLines location = .ok lines ∧
      readTree reader lines = some value
  | .entries kind, value => value = scanner.entriesAt reader kind location

namespace Session

variable {session : Session} {scanner : Scanner} {locations : List Location}

/-- Each record under the path of one of the files is what the scanner finds in that file. -/
def Agrees (session : Session) (scanner : Scanner) (locations : List Location) : Prop :=
  ∀ location ∈ locations, ∀ slot record,
    session.cache.record? slot (scanner.pathOf location) = some record →
      slot.IsFound scanner session.reader location record.value

/-- No two of the files have the same path. -/
def HasOwnPaths (scanner : Scanner) (locations : List Location) : Prop :=
  ∀ location ∈ locations, ∀ other ∈ locations,
    scanner.pathOf location = scanner.pathOf other → location = other

theorem agrees_of_empty (h : ∀ slot key, session.cache.record? slot key = none)
    (scanner : Scanner) (locations : List Location) : session.Agrees scanner locations := by
  intro location _ slot record hRecord
  rw [h] at hRecord
  exact absurd hRecord (by simp)

theorem Agrees.get? (h : session.Agrees scanner locations) {location : Location}
    (hLocation : location ∈ locations) {slot : Slot} {value : slot.Content}
    (hGet : session.cache.get? slot (scanner.pathOf location) = some value) :
    slot.IsFound scanner session.reader location value := by
  obtain ⟨record, hRecord, rfl⟩ := Cache.exists_record?_of_get? hGet
  exact h location hLocation slot record hRecord

/-- Remembering what the scanner finds keeps records that agree. -/
theorem Agrees.remember (h : session.Agrees scanner locations)
    (hPaths : HasOwnPaths scanner locations) {location : Location}
    (hLocation : location ∈ locations) {slot : Slot} {result : slot.Content}
    (hFound : slot.IsFound scanner session.reader location result) :
    (session.remember slot (scanner.pathOf location) result).Agrees scanner locations := by
  intro other hOther otherSlot record hRecord
  have hReader : (session.remember slot (scanner.pathOf location) result).reader =
      session.reader := rfl
  rw [hReader]
  rcases Cache.record?_put_cases hRecord with ⟨rfl, hPath, hValue⟩ | ⟨-, hOld⟩
  · obtain rfl := hPaths other hOther location hLocation hPath
    rw [hValue]
    exact hFound
  · exact h other hOther otherSlot record hOld

/-- Lines that are asked for are what the scanner reads, and records still agree. -/
theorem Agrees.fileLines (h : session.Agrees scanner locations)
    (hPaths : HasOwnPaths scanner locations) {location : Location}
    (hLocation : location ∈ locations) :
    (session.fileLines scanner location = none ∧ scanner.textAt? location = none) ∨
      ∃ lines opened, session.fileLines scanner location = some (lines, opened) ∧
        scanner.readLines location = .ok lines ∧ opened.Agrees scanner locations ∧
          opened.reader = session.reader := by
  rw [Session.fileLines, Scanner.path_metaOf]
  cases hGet : session.cache.get? .lines (scanner.pathOf location) with
  | some lines => exact .inr ⟨lines, session, rfl, h.get? hLocation hGet, h, rfl⟩
  | none =>
      cases hRead : scanner.readLines location with
      | error error => exact .inl ⟨rfl, Scanner.textAt?_of_error hRead⟩
      | ok lines => exact .inr ⟨lines, _, rfl, rfl, h.remember hPaths hLocation hRead, rfl⟩

/-- The tree that is asked for is the one that the reader gives, and records still agree. -/
theorem Agrees.tree (h : session.Agrees scanner locations)
    (hPaths : HasOwnPaths scanner locations) {location : Location}
    (hLocation : location ∈ locations) {lines : List String}
    (hRead : scanner.readLines location = .ok lines) :
    (session.tree (scanner.pathOf location) lines).1 = readTree session.reader lines ∧
      (session.tree (scanner.pathOf location) lines).2.Agrees scanner locations := by
  rcases tree_cases session (scanner.pathOf location) lines with ⟨hReader, hEq⟩ |
    ⟨read, tree, hReader, hGet, hEq⟩ | ⟨hGet, hTree, hEq⟩ | ⟨tree, hGet, hTree, hEq⟩
  · rw [hEq, hReader]
    exact ⟨rfl, h⟩
  · obtain ⟨lines', hRead', hTree⟩ := h.get? hLocation hGet
    rw [hRead, Except.ok.injEq] at hRead'
    rw [hEq, hRead', hTree]
    exact ⟨rfl, h⟩
  · rw [hEq, hTree]
    exact ⟨rfl, h⟩
  · rw [hEq, hTree]
    exact ⟨rfl, h.remember hPaths hLocation ⟨lines, hRead, hTree⟩⟩

/-- The entries that are asked for are what the scanner finds, and records still agree. -/
theorem Agrees.fileEntries (h : session.Agrees scanner locations)
    (hPaths : HasOwnPaths scanner locations) {location : Location}
    (hLocation : location ∈ locations) {lines : List String}
    (hRead : scanner.readLines location = .ok lines) (kind : EntryKind) :
    let result := session.fileEntries kind (scanner.metaOf location) lines
    result.1 = scanner.entriesAt session.reader kind location ∧
      result.2.Agrees scanner locations ∧ result.2.reader = session.reader := by
  dsimp only
  have hPath := Scanner.path_metaOf scanner location
  rcases fileEntries_cases session kind (scanner.metaOf location) lines with
    ⟨entries, hGet, hEq⟩ | ⟨entries, -, hMade, hEq⟩
  · rw [hPath] at hGet
    rw [hEq]
    exact ⟨h.get? hLocation hGet, h, rfl⟩
  · obtain ⟨s, hText, hLines⟩ := Scanner.textAt?_of_readLines hRead
    have hReader := (extends_tree session (scanner.pathOf location) lines).reader
    obtain ⟨hTree, hAgrees⟩ := h.tree hPaths hLocation hRead
    have hFound : entries = scanner.entriesAt session.reader kind location := by
      rw [hMade, hPath, Scanner.entriesAt, hText, hTree, hLines]
    rw [hEq, hPath]
    refine ⟨hFound, hAgrees.remember hPaths hLocation ?_, hReader⟩
    rw [hReader]
    exact hFound

/-- What a session collects is what the scanner finds, file by file, and records still agree. -/
theorem collect_of_agrees (h : session.Agrees scanner locations)
    (hPaths : HasOwnPaths scanner locations) (kind : EntryKind) {rest : List Location}
    (hRest : ∀ location ∈ rest, location ∈ locations) :
    (collect kind scanner rest session).1 =
        rest.flatMap (scanner.entriesAt session.reader kind) ∧
      (collect kind scanner rest session).2.Agrees scanner locations ∧
        (collect kind scanner rest session).2.reader = session.reader := by
  induction rest generalizing session with
  | nil => exact ⟨rfl, h, rfl⟩
  | cons location rest ih =>
      have hHere := hRest location List.mem_cons_self
      have hLater : ∀ other ∈ rest, other ∈ locations :=
        fun other hOther => hRest other (List.mem_cons_of_mem _ hOther)
      rw [List.flatMap_cons, collect]
      rcases h.fileLines hPaths hHere with
        ⟨hNone, hText⟩ | ⟨lines, opened, hSome, hRead, hOpened, hReader⟩
      · rw [hNone, Scanner.entriesAt, hText, List.nil_append]
        exact ih h hLater
      · obtain ⟨hEntries, hAgrees, hSame⟩ := hOpened.fileEntries hPaths hHere hRead kind
        obtain ⟨hMore, hAfter, hLast⟩ := ih hAgrees hLater
        rw [hSome]
        dsimp only
        rw [hMore, hEntries, hSame, hReader]
        exact ⟨rfl, hAfter, hLast.trans (hSame.trans hReader)⟩

/-- Asking for a project gives what the scanner finds in the files of its listing, and records still
agree. -/
theorem projectEntries_of_agrees {listing : Volume.Listing} (hList : scanner.list = .ok listing)
    (hPaths : HasOwnPaths scanner listing.files) (h : session.Agrees scanner listing.files)
    (kind : EntryKind) :
    (session.projectEntries kind scanner).map Prod.fst =
        .ok (listing.files.flatMap (scanner.entriesAt session.reader kind)) ∧
      (session.perform (.project kind scanner)).Agrees scanner listing.files ∧
        (session.perform (.project kind scanner)).reader = session.reader := by
  obtain ⟨hEntries, hAgrees, hReader⟩ := collect_of_agrees h hPaths kind fun _ hIn => hIn
  have hAnswer : session.projectEntries kind scanner =
      .ok (collect kind scanner listing.files session) := by
    rw [projectEntries, hList]
    rfl
  rw [perform, hAnswer]
  exact ⟨congrArg Except.ok hEntries, hAgrees, hReader⟩

/-! ## Both ways agree -/

section Listing

variable {listing : Volume.Listing}

theorem hasOwnPaths_listing (hTree : scanner.volume.tree.IsWellFormed)
    (hList : scanner.list = .ok listing) : HasOwnPaths scanner listing.files := by
  intro location hLocation other hOther hPath
  exact List.inj_on_of_nodup_map (Scanner.nodup_map_pathOf hTree hList)
    (List.mem_append_right _ hLocation) (List.mem_append_right _ hOther) hPath

/-- The session after it was asked for entries of a project, one kind after the other. -/
def afterProjects (session : Session) (scanner : Scanner) (kinds : List EntryKind) : Session :=
  kinds.foldl (fun session kind => session.perform (.project kind scanner)) session

/-- Asking for a project any number of times leaves records that agree. -/
theorem Agrees.afterProjects (h : session.Agrees scanner listing.files)
    (hList : scanner.list = .ok listing) (hPaths : HasOwnPaths scanner listing.files)
    (kinds : List EntryKind) :
    (session.afterProjects scanner kinds).Agrees scanner listing.files ∧
      (session.afterProjects scanner kinds).reader = session.reader := by
  induction kinds generalizing session with
  | nil => exact ⟨h, rfl⟩
  | cons kind kinds ih =>
      obtain ⟨-, hAgrees, hReader⟩ := projectEntries_of_agrees hList hPaths h kind
      obtain ⟨hAfter, hSame⟩ := ih hAgrees
      exact ⟨hAfter, hSame.trans hReader⟩

/-- A session that remembers nothing, be it new or with its cache turned off, gives the paths and
the values of a project as the index of the scanner has them, whatever it was asked of the project
before, and fails when the scanner does.  The index has the entries of each listed file that is not
too large and is a text, in the order of the walk and each as one of its file, and every listed file
is in it or skipped. -/
theorem project_agrees_with_scan (hEmpty : ∀ slot key, session.cache.record? slot key = none)
    (hTree : scanner.volume.tree.IsWellFormed) (earlier : List EntryKind) :
    let now := session.afterProjects scanner earlier
    (now.projectEntries .path scanner).map Prod.fst =
        (scanner.scan session.reader).map Index.paths ∧
      (now.projectEntries .value scanner).map Prod.fst =
        (scanner.scan session.reader).map Index.values ∧
      ∀ index, scanner.scan session.reader = .ok index →
        ∃ listing, scanner.list = .ok listing ∧
          index.IsMadeOf scanner session.reader listing.files := by
  intro now
  cases hList : scanner.list with
  | error error =>
      have hFails (kind : EntryKind) : now.projectEntries kind scanner = .error error := by
        rw [projectEntries, hList]
        rfl
      rw [hFails, hFails, Scanner.scan_of_error hList]
      exact ⟨rfl, rfl, fun index hIndex => absurd hIndex (by simp)⟩
  | ok listing =>
      have hPaths := hasOwnPaths_listing hTree hList
      obtain ⟨hAgrees, hReader⟩ :=
        (agrees_of_empty hEmpty scanner listing.files).afterProjects hList hPaths earlier
      have hAnswer (kind : EntryKind) := (projectEntries_of_agrees hList hPaths hAgrees kind).1
      rw [hAnswer, hAnswer, hReader, Scanner.scan_of_list session.reader hList]
      refine ⟨?_, ?_, fun index hIndex => ⟨listing, rfl, ?_⟩⟩
      · exact congrArg Except.ok (Scanner.entries_indexFor .path).symm
      · exact congrArg Except.ok (Scanner.entries_indexFor .value).symm
      · rw [← Except.ok.inj hIndex]
        exact Scanner.isMadeOf_indexFor hTree hList

end Listing

/-- A project of two files, one of which is no text. -/
def mixed : Scanner where
  volume :=
    { tree := .directory
        [("a.yaml", .file (.text "a: 1")), ("b.yaml", .file (.binary [0xff]))] }
  base := "/p"

theorem isWellFormed_mixed : mixed.volume.tree.IsWellFormed := by
  refine .directory (by decide) (by decide) fun entry hEntry => ?_
  simp only [List.mem_cons, List.not_mem_nil, or_false] at hEntry
  rcases hEntry with rfl | rfl
  · exact .file _
  · exact .file _

theorem list_mixed : mixed.list = .ok ⟨[["a.yaml"], ["b.yaml"]], []⟩ := by
  have hOpens : mixed.volume.Opens mixed.options.walk [] := by
    refine ⟨by decide, fun _ octets h => ?_⟩
    have hNone : mixed.volume.find? ([] ++ [ignoreFileName]) = none := rfl
    rw [hNone] at h
    exact absurd h (by simp)
  have hFiles : ∀ entry ∈ mixed.volume.tree.entries, entry.2.isDirectory = false := by
    simp [mixed, FileTree.entries, FileTree.isDirectory]
  have hSorted : Walk.inOrder mixed.volume.tree.entries = mixed.volume.tree.entries :=
    List.mergeSort_of_pairwise (by decide)
  have hWanted : (mixed.volume.tree.entries.map fun entry => [] ++ [entry.1]).filter
      (fun location => Walk.admits mixed.options.walk [mixed.volume.scopeAt mixed.options.walk []]
        location false && mixed.options.admits location.text) = [["a.yaml"], ["b.yaml"]] := by
    rw [List.filter_eq_self.mpr]
    · rfl
    · simp only [mixed, FileTree.entries, List.map_cons, List.map_nil, List.mem_cons,
        List.not_mem_nil, or_false, forall_eq_or_imp, forall_eq]
      decide +kernel
  have hListed := Volume.listFiles_of_files rfl hOpens hFiles
    fun location => mixed.options.admits location.text
  rw [hSorted, hWanted] at hListed
  rw [Scanner.list]
  exact congrArg (Except.mapError ScanError.walk) hListed

/-- The values of the project are asked for first, so its paths come from remembered lines. -/
theorem project_agrees_with_scan_mixed :
    let session : Session := { editor := { volume := {} }, cache := { lifetime := 1000 } }
    ((session.afterProjects mixed [.value]).projectEntries .path mixed).map Prod.fst =
        .ok [{ line := 1, key := "a", text := "a: 1", path := [.key "a"], isItem := false,
               position := none, file := some ⟨"/p/a.yaml", "a.yaml", "a.yaml"⟩ }] ∧
      (mixed.scan none).map Index.skipped = .ok ["/p/b.yaml"] := by
  intro session
  have hEmpty : ∀ slot key, session.cache.record? slot key = none :=
    Cache.record?_clear { lifetime := 1000 }
  have hEntries : mixed.entriesAt none .path ["a.yaml"] =
      [{ line := 1, key := "a", text := "a: 1", path := [.key "a"], isItem := false,
         position := none, file := some ⟨"/p/a.yaml", "a.yaml", "a.yaml"⟩ }] := by decide +kernel
  have hNone : mixed.entriesAt none .path ["b.yaml"] = [] := rfl
  have hLeft : [["a.yaml"], ["b.yaml"]].filter
      (fun location => !(mixed.textAt? location).isSome) = [["b.yaml"]] := by decide +kernel
  have hPath : mixed.pathOf ["b.yaml"] = "/p/b.yaml" := by decide +kernel
  obtain ⟨hPaths, -, -⟩ := project_agrees_with_scan hEmpty isWellFormed_mixed [.value]
  have hScan := Scanner.scan_of_list none list_mixed
  constructor
  · refine hPaths.trans ((congrArg (Except.map Index.paths) hScan).trans (congrArg Except.ok ?_))
    refine (Scanner.entries_indexFor .path).trans ?_
    simp only [List.flatMap_cons, List.flatMap_nil, hEntries, hNone, List.append_nil]
  · refine (congrArg (Except.map Index.skipped) hScan).trans (congrArg Except.ok ?_)
    rw [Scanner.skipped_indexFor, hLeft, List.map_singleton, hPath]
    rfl

end Session

end YamlIndex
