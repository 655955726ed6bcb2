import YamlIndex.Proofs.Ancestry
import YamlIndex.Proofs.Line.Exchange
import YamlIndex.Proofs.Line.Grammar
import YamlIndex.Proofs.Matching.Greedy
import YamlIndex.Proofs.Values

/-!
# Entries stand on their lines

Entries are made by the scan or from a tree, and the tree may be of another document altogether.
Either way a jump goes to the line of an entry and an edit takes this line apart, so what both rely
on is said of entries without asking where they are from: the line is there and has structure, the
text is that of the line, and key and path end in what the line carries.

The scan has this from the lines it reads.  A tied entry has it from its claim: the entry ends in
the key of the line, whatever the path in front of it and whatever the tree.

## Main results

* `mem_scanEntries_isOn`: entries of the scan stand on their lines.
* `Tied.IsOn.entryOf?`: so do those of a tree.
* `entries_point_at_lines`: both, with the order of the lines and when the tree plays no part.
-/

namespace YamlIndex

/-! ## What an entry shows of a line -/

/-- Whether a key, a text and a path are those of a line with structure: the text is the trimmed
line; key and path end in the key that the line carries, or else in one position. -/
structure Line.IsShownBy (raw key text : String) (path : Path) : Prop where
  text : text = Text.trimmed raw
  structural : (Line.classify raw).isStructural = true
  keyed : ∀ name, (Line.classify raw).key? = some name →
    key = name ∧ path.getLast? = some (.key name)
  keyless : (Line.classify raw).key? = none →
    ∃ n, key = "[" ++ Text.decimal n ++ "]" ∧ path.getLast? = some (.index n)

/-- Whether an entry stands on a line of the document and shows it. -/
def PathEntry.IsOn (entry : PathEntry) (lines : List String) : Prop :=
  1 ≤ entry.line ∧ entry.line ≤ lines.length ∧ ∃ raw, lines[entry.line - 1]? = some raw ∧
    Line.IsShownBy raw entry.key entry.text entry.path

/-- Whether an entry with a value stands on a line of the document that carries a key, and shows it.
-/
def ValueEntry.IsOn (entry : ValueEntry) (lines : List String) : Prop :=
  1 ≤ entry.line ∧ entry.line ≤ lines.length ∧ entry.value ≠ "" ∧
    ∃ raw, lines[entry.line - 1]? = some raw ∧ (Line.classify raw).key?.isSome = true ∧
      Line.IsShownBy raw entry.key entry.text entry.path

/-- Whether an entry of a kind stands on a line of the document and shows it. -/
def EntryKind.IsOn : (kind : EntryKind) → kind.Entry → List String → Prop
  | path, entry, lines => PathEntry.IsOn entry lines
  | value, entry, lines => ValueEntry.IsOn entry lines

/-- A line with a key is shown by this key, its text and a path that ends in the key. -/
theorem Line.IsShownBy.of_key {raw name : String} {path : Path}
    (hKey : (Line.classify raw).key? = some name) (hLast : path.getLast? = some (.key name)) :
    Line.IsShownBy raw name (Text.trimmed raw) path where
  text := rfl
  structural := Line.isStructural_of_key hKey
  keyed other hOther := by
    obtain rfl : name = other := Option.some.inj (hKey.symm.trans hOther)
    exact ⟨rfl, hLast⟩
  keyless hNone := absurd (hKey.symm.trans hNone) (by simp)

theorem length_of_getElem? {lines : List String} {number : Nat} {raw : String}
    (hFirst : 1 ≤ number) (hAt : lines[number - 1]? = some raw) : number ≤ lines.length := by
  have hLess := (List.getElem?_eq_some_iff.mp hAt).1
  omega

/-! ## Entries of the scan -/

section Scan

variable {lines : List String}

/-- The path of a line with structure ends in its key, or else in its position. -/
theorem Document.getLast?_path {doc : List Line} {i : Nat}
    (h : (lineAt doc i).isStructural = true) :
    (path doc i).getLast? = some (((lineAt doc i).key?.map Segment.key).getD
      (.index (position doc i))) := by
  rw [path]
  cases hLine : lineAt doc i with
  | blank => exact absurd h (by simp [hLine, Line.isStructural])
  | unparsed => exact absurd h (by simp [hLine, Line.isStructural])
  | mapping line => exact List.getLast?_concat
  | item line =>
      obtain ⟨indent, key, keyIndent, value⟩ := line
      cases key with
      | none => exact List.getLast?_concat
      | some key =>
          rw [List.getLast?_append]
          rfl

theorem mem_scanPaths_isOn {entry : PathEntry} (h : entry ∈ scanPaths lines) :
    entry.IsOn lines := by
  obtain ⟨i, hi, hStructural, rfl⟩ := Document.mem_scanPaths_iff.mp h
  have hRaw : lines[i]? = some lines[i] := List.getElem?_eq_getElem hi
  have hLine := Document.lineAt_map_classify hRaw
  have hLast := Document.getLast?_path hStructural
  have hText : (Document.entryAt lines i).text = Text.trimmed lines[i] := by
    rw [Document.entryAt, List.getD_eq_getElem?_getD, hRaw, Option.getD_some]
  rw [hLine] at hStructural hLast
  refine ⟨Nat.le_add_left 1 i, hi, lines[i], hRaw, hText, hStructural, ?_, ?_⟩
  · intro name hName
    rw [hName] at hLast
    exact ⟨by simp only [Document.entryAt, hLine, hName, Option.getD_some], hLast⟩
  · intro hNone
    rw [hNone] at hLast
    exact ⟨_, by simp only [Document.entryAt, hLine, hNone, Option.getD_none], hLast⟩

theorem exists_leafAt {entry : ValueEntry} (h : entry ∈ scanValues lines) :
    ∃ i < lines.length, Document.leafAt lines i = some entry := by
  rw [scanValues, (Document.describesValues lines).found, eraseDupsBy_filterMap_range] at h
  obtain ⟨i, hi, hLeaf⟩ := List.mem_filterMap.mp h
  exact ⟨i, List.mem_range.mp hi, (Option.filter_eq_some_iff.mp hLeaf).1⟩

/-- The value on a mapping line is not empty. -/
theorem Line.value_ne_of_mapping {raw value : String} {line : MappingLine}
    (h : Line.classify raw = .mapping line) (hValue : line.value = some value) : value ≠ "" := by
  have hReads := Line.reads_ofChars raw.toList
  rw [show Line.ofChars raw.toList = .mapping line from h] at hReads
  cases hReads with
  | mapping hAside hItem hFront hKey hText =>
      cases hText with
      | absent hNone => exact absurd hValue (by simp)
      | present hText =>
          intro hEmpty
          rw [hEmpty, Option.some.injEq] at hValue
          exact hText (.inl (String.ofList_injective hValue))

theorem mem_scanValues_isOn {entry : ValueEntry} (h : entry ∈ scanValues lines) :
    entry.IsOn lines := by
  obtain ⟨i, hi, hLeaf⟩ := exists_leafAt h
  have hRaw : lines[i]? = some lines[i] := List.getElem?_eq_getElem hi
  rw [Document.leafAt, Document.lineAt_map_classify hRaw] at hLeaf
  cases hLine : Line.classify lines[i] with
  | mapping line =>
      rw [hLine] at hLeaf
      obtain ⟨value, hValue, rfl⟩ := Option.map_eq_some_iff.mp hLeaf
      have hKey : (Line.classify lines[i]).key? = some line.key := by rw [hLine]; rfl
      refine ⟨Nat.le_add_left 1 i, hi, Line.value_ne_of_mapping hLine hValue, lines[i], hRaw,
        by rw [hKey]; rfl, ?_⟩
      rw [List.getD_eq_getElem?_getD, hRaw, Option.getD_some]
      exact .of_key hKey List.getLast?_concat
  | _ =>
      rw [hLine] at hLeaf
      exact absurd hLeaf (by simp)

theorem mem_scanEntries_isOn {kind : EntryKind} {entry : kind.Entry}
    (h : entry ∈ scanEntries lines kind) : kind.IsOn entry lines := by
  cases kind with
  | path => exact mem_scanPaths_isOn h
  | value => exact mem_scanValues_isOn h

theorem pairwise_line_scanEntries (lines : List String) (kind : EntryKind) :
    (scanEntries lines kind).Pairwise fun entry later => kind.line entry < kind.line later := by
  cases kind with
  | path => exact List.pairwise_map.mpr (Scan.pairwise_steps lines)
  | value => exact pairwise_line_scanValues lines

end Scan

/-! ## Entries of a tree -/

namespace Tied.IsOn

variable {tied : Tied} {lines : List String}

theorem name_of_getLast? {entry : OutlineEntry} {key : String}
    (h : entry.path.getLast? = some (.key key)) : entry.name = key := by
  rw [OutlineEntry.name, h]
  rfl

theorem asPath (h : tied.IsOn lines) : tied.asPath.IsOn lines := by
  obtain ⟨raw, key, hFirst, hAt, hText, hKey, hLast⟩ := h
  refine ⟨hFirst, length_of_getElem? hFirst hAt, raw, hAt, ?_⟩
  rw [Tied.asPath, hText, name_of_getLast? hLast]
  exact .of_key hKey hLast

theorem asValue? (h : tied.IsOn lines) {entry : ValueEntry} (hEntry : tied.asValue? = some entry) :
    entry.IsOn lines := by
  obtain ⟨raw, key, hFirst, hAt, hText, hKey, hLast⟩ := h
  obtain ⟨hNe, -, hEq⟩ := Tied.of_asValue? hEntry
  rw [hEq]
  refine ⟨hFirst, length_of_getElem? hFirst hAt, hNe, raw, hAt, by rw [hKey]; rfl, ?_⟩
  rw [hText, name_of_getLast? hLast]
  exact .of_key hKey hLast

theorem entryOf? (h : tied.IsOn lines) {kind : EntryKind} {entry : kind.Entry}
    (hEntry : tied.entryOf? kind = some entry) : kind.IsOn entry lines := by
  cases kind with
  | path => exact Option.some.inj hEntry ▸ h.asPath
  | value => exact h.asValue? hEntry

end Tied.IsOn

/-! ## Keys of a tree -/

/-- Whether some node below the root of a tree stands under a key. -/
def Node.HasKey (root : Node) (key : String) : Prop :=
  ∃ (address : List Nat) (path : Path) (node : Node),
    root.follow? address = some (path.child (.key key), node)

theorem Node.hasKey_of_mem_outline {root : Node} {entry : OutlineEntry} {key : String}
    (h : entry ∈ root.outline) (hLast : entry.path.getLast? = some (.key key)) :
    root.HasKey key := by
  have hOutline : root.outline =
      root.descendants.map fun located => Node.entryAt located.path located.node :=
    Node.outlineBelow_eq_map [] root
  rw [hOutline] at h
  obtain ⟨located, hLocated, rfl⟩ := List.mem_map.mp h
  obtain ⟨front, hFront⟩ := List.getLast?_eq_some_iff.mp hLast
  refine ⟨located.address, front, located.node, ?_⟩
  rw [(Node.mem_descendants_iff.mp hLocated).2]
  exact congrArg (fun path => some (path, located.node)) hFront

/-- Nothing is tied when no line carries a key of the tree. -/
theorem associate_eq_nil {root : Node} {lines : List String}
    (h : ∀ key, root.HasKey key → linesCarrying key lines = []) :
    associate root.outline lines = [] := by
  refine List.eq_nil_iff_forall_not_mem.mpr fun tied hTied => ?_
  obtain ⟨-, -, -, hEntries⟩ := exists_chosen_associate root.outline lines
  have hEntry : tied.entry ∈ root.outline := hEntries.subset (List.mem_map_of_mem hTied)
  obtain ⟨raw, key, -, -, -, -, hLast⟩ := isOn_of_mem_associate hTied
  have hLine : tied.line ∈ linesCarrying key lines :=
    ((isOn_of_mem_associate hTied).mem_linesCarrying_iff key).mpr
      (OutlineEntry.key?_eq_some_iff.mpr hLast)
  rw [h key (Node.hasKey_of_mem_outline hEntry hLast)] at hLine
  exact absurd hLine List.not_mem_nil

/-! ## Either way -/

section Either

variable (tree : Option Node) (lines : List String)

theorem entriesWith_isOn (kind : EntryKind) :
    (entriesWith tree lines kind).Pairwise
        (fun entry later => kind.line entry < kind.line later) ∧
      ∀ entry ∈ entriesWith tree lines kind, kind.IsOn entry lines := by
  rcases entriesWith_cases tree lines kind with ⟨-, hScan⟩ | ⟨root, -, -, hTree⟩
  · rw [hScan]
    exact ⟨pairwise_line_scanEntries lines kind, fun _ => mem_scanEntries_isOn⟩
  · rw [hTree]
    constructor
    · refine (pairwise_associate root.outline lines).filterMap (·.entryOf? kind) ?_
      intro tied later hLess entry hEntry other hOther
      rwa [(Tied.of_entryOf? hEntry).1, (Tied.of_entryOf? hOther).1]
    · intro entry hEntry
      obtain ⟨tied, hTied, hEntry⟩ := List.mem_filterMap.mp hEntry
      exact (isOn_of_mem_associate hTied).entryOf? hEntry

variable {tree lines}

theorem entriesWith_of_nil (h : ∀ root, tree = some root → associate root.outline lines = [])
    (kind : EntryKind) : entriesWith tree lines kind = scanEntries lines kind := by
  rcases entriesWith_cases tree lines kind with ⟨-, hScan⟩ | ⟨root, hRoot, hSome, -⟩
  · exact hScan
  · exact absurd (h root hRoot) hSome

end Either

/-- **Entries point at their lines, whatever the reader makes of the text.**  Paths and values go up
from line to line, each stands on a line with structure and shows it, and a value stands on a line
with a key and is not empty.  Without a tree, or when no line carries a key of the tree, both are
those of the scan. -/
theorem entries_point_at_lines (reader : Option Reader) (lines : List String) :
    (extractPaths reader lines).Pairwise (fun entry later => entry.line < later.line) ∧
    (∀ entry ∈ extractPaths reader lines, entry.IsOn lines) ∧
    (extractValues reader lines).Pairwise (fun entry later => entry.line < later.line) ∧
    (∀ entry ∈ extractValues reader lines, entry.IsOn lines) ∧
    ((∀ root, readTree reader lines = some root →
        ∀ key, root.HasKey key → linesCarrying key lines = []) →
      extractPaths reader lines = scanPaths lines ∧
        extractValues reader lines = scanValues lines) := by
  obtain ⟨hPathOrder, hPaths⟩ := entriesWith_isOn (readTree reader lines) lines .path
  obtain ⟨hValueOrder, hValues⟩ := entriesWith_isOn (readTree reader lines) lines .value
  refine ⟨hPathOrder, hPaths, hValueOrder, hValues, fun hApart => ?_⟩
  have hNil (root : Node) (hRoot : readTree reader lines = some root) :
      associate root.outline lines = [] := associate_eq_nil (hApart root hRoot)
  exact ⟨entriesWith_of_nil hNil .path, entriesWith_of_nil hNil .value⟩

/-- The tree of another document gives its own value to a line with its key. -/
example :
    (extractValues (some fun _ => some (.mapping [("b", .scalar "9")])) ["a: 1", "b: 2"]).map
      (fun entry => (entry.line, entry.text, entry.value)) = [(2, "b: 2", "9")] := by
  decide +kernel

end YamlIndex
