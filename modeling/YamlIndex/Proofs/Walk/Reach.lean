import YamlIndex.Proofs.Volume.WellFormed
import YamlIndex.Proofs.Walk.Recursion

/-!
# What a walk comes by

A walk carries the rules of the directories above a place and otherwise knows nothing of them.
Whether it comes by the place is said here without a walk, of the names that lead there: none of
them is left out, no directory above the place is ignored by one above it in turn, all of them can
be entered, and there are not too many.  The first names of such a place lead to one, so the walk
and this description meet step by step, from the root down.

## Main results

* `reaches_concat`: a place is reached when the directory above it is entered and it is admitted.
* `enter_eq_ok_iff`: which directories are entered, and with which rules.
* `admits_iff`: the rules that a walk carries are those of the directories above.
-/

namespace YamlIndex

namespace Volume

variable {volume : Volume} {options : Walk.Options} {root : Location}

/-! ## What the names of a place say -/

/-- Whether a directory can be listed and, where files of rules are heeded, its own one read. -/
def Opens (volume : Volume) (options : Walk.Options) (location : Location) : Prop :=
  volume.isLocked location = false ∧
    (options.heedIgnoreFiles = true →
      ∀ octets, volume.find? (location ++ [ignoreFileName]) ≠ some (.file (.binary octets)))

theorem Opens.of_text {location : Location} (text : String)
    (hLocked : volume.isLocked location = false)
    (hFind : volume.find? (location ++ [ignoreFileName]) = some (.file (.text text))) :
    volume.Opens options location :=
  ⟨hLocked, fun _ octets hOctets => by simp [hFind] at hOctets⟩

/-- The rules of a directory: those of its file of rules, if it has one. -/
def rulesAt (volume : Volume) (options : Walk.Options) (location : Location) : Walk.Rules :=
  match volume.readText (location ++ [ignoreFileName]) with
  | .ok text => options.readRules text
  | .error _ => Walk.Rules.none

/-- Whether the rules of a directory above a place, from the root on, say to ignore it. -/
def IsIgnored (volume : Volume) (options : Walk.Options) (root : Location) (names : List String)
    (isDirectory : Bool) : Prop :=
  options.heedIgnoreFiles = true ∧
    ∃ above rest, names = above ++ rest ∧ rest ≠ [] ∧
      volume.rulesAt options (root ++ above) rest isDirectory = some .ignored

/-- Whether directories at a depth may be entered. -/
def DescendsFrom (options : Walk.Options) (depth : Nat) : Prop :=
  ∀ limit, options.maxDepth = some limit → depth < limit

/-- Whether a walk from a root comes by the place that names lead to from there. -/
structure Reaches (volume : Volume) (options : Walk.Options) (root : Location)
    (names : List String) (isDirectory : Bool) : Prop where
  visible : options.includeHidden = false → ∀ name ∈ names, name.toList.head? ≠ some '.'
  not_standard : options.skipStandard = true → ∀ name ∈ names, name ∉ standardNames
  not_ignored_above : ∀ above rest, names = above ++ rest → above ≠ [] → rest ≠ [] →
    ¬volume.IsIgnored options root above true
  not_ignored : ¬volume.IsIgnored options root names isDirectory
  opens_above : ∀ above rest, names = above ++ rest → rest ≠ [] →
    volume.Opens options (root ++ above)
  within : ∀ limit, options.maxDepth = some limit → names.length ≤ limit

/-- Whether a walk from a root enters the directory that names lead to from there. -/
structure Enters (volume : Volume) (options : Walk.Options) (root : Location)
    (names : List String) : Prop where
  reaches : volume.Reaches options root names true
  opens : volume.Opens options (root ++ names)
  descends : DescendsFrom options names.length

theorem DescendsFrom.maxDepth_ne_zero {depth : Nat} (h : DescendsFrom options depth) :
    options.maxDepth ≠ some 0 :=
  fun hZero => Nat.not_lt_zero depth (h 0 hZero)

theorem not_isIgnored_nil (isDirectory : Bool) : ¬volume.IsIgnored options root [] isDirectory := by
  rintro ⟨-, above, rest, hNames, hRest, -⟩
  exact hRest (List.append_eq_nil_iff.mp hNames.symm).2

theorem isIgnored_singleton {name : String} {isDirectory : Bool} :
    volume.IsIgnored options root [name] isDirectory ↔
      options.heedIgnoreFiles = true ∧
        volume.rulesAt options root [name] isDirectory = some .ignored := by
  refine and_congr_right fun _ =>
    ⟨?_, fun h => ⟨[], [name], rfl, by simp, by rwa [List.append_nil]⟩⟩
  rintro ⟨above, rest, hNames, hRest, hVerdict⟩
  rcases List.singleton_eq_append_iff.mp hNames with ⟨rfl, rfl⟩ | ⟨rfl, rfl⟩
  · rwa [List.append_nil] at hVerdict
  · exact absurd rfl hRest

theorem reaches_nil (isDirectory : Bool) : volume.Reaches options root [] isDirectory where
  visible _ name h := absurd h (by simp)
  not_standard _ name h := absurd h (by simp)
  not_ignored_above above rest h hAbove := absurd (List.append_eq_nil_iff.mp h.symm).1 hAbove
  not_ignored := not_isIgnored_nil isDirectory
  opens_above above rest h hRest := absurd (List.append_eq_nil_iff.mp h.symm).2 hRest
  within limit _ := Nat.zero_le limit

/-- The directories above a place that is reached are entered. -/
theorem Reaches.front {names : List String} {name : String} {rest : List String}
    {isDirectory : Bool} (h : volume.Reaches options root (names ++ name :: rest) isDirectory) :
    volume.Enters options root names := by
  refine ⟨⟨?_, ?_, ?_, ?_, ?_, ?_⟩, h.opens_above names (name :: rest) rfl (by simp), ?_⟩
  · exact fun hHidden other hOther => h.visible hHidden other (List.mem_append_left _ hOther)
  · exact fun hSkip other hOther => h.not_standard hSkip other (List.mem_append_left _ hOther)
  · intro above between hNames hAbove _
    refine h.not_ignored_above above (between ++ name :: rest) ?_ hAbove (by simp)
    rw [hNames, List.append_assoc]
  · cases names with
    | nil => exact not_isIgnored_nil true
    | cons first others => exact h.not_ignored_above _ (name :: rest) rfl (by simp) (by simp)
  · intro above between hNames _
    refine h.opens_above above (between ++ name :: rest) ?_ (by simp)
    rw [hNames, List.append_assoc]
  · intro limit hLimit
    have hWithin := h.within limit hLimit
    rw [List.length_append] at hWithin
    exact Nat.le_trans (Nat.le_add_right _ _) hWithin
  · intro limit hLimit
    have hWithin := h.within limit hLimit
    rw [List.length_append, List.length_cons] at hWithin
    omega

theorem skipsName_eq_false_iff (name : String) :
    Walk.skipsName options name = false ↔
      (options.includeHidden = false → name.toList.head? ≠ some '.') ∧
        (options.skipStandard = true → name ∉ standardNames) := by
  cases hHidden : options.includeHidden <;> cases hStandard : options.skipStandard <;>
    simp [Walk.skipsName, hHidden, hStandard]

theorem reaches_concat {names : List String} {name : String} {isDirectory : Bool} :
    volume.Reaches options root (names ++ [name]) isDirectory ↔
      volume.Enters options root names ∧ Walk.skipsName options name = false ∧
        ¬volume.IsIgnored options root (names ++ [name]) isDirectory := by
  rw [skipsName_eq_false_iff]
  constructor
  · intro h
    refine ⟨h.front, ⟨fun hHidden => ?_, fun hSkip => ?_⟩, h.not_ignored⟩
    · exact h.visible hHidden name (by simp)
    · exact h.not_standard hSkip name (by simp)
  · rintro ⟨⟨hFront, hOpens, hDepth⟩, ⟨hVisible, hStandard⟩, hIgnored⟩
    -- What is above the place is the front itself or above the front.
    have hAbove (above rest : List String) (hNames : names ++ [name] = above ++ rest)
        (hRest : rest ≠ []) : ∃ between, names = above ++ between := by
      obtain ⟨between, last, rfl⟩ := (List.eq_nil_or_concat rest).resolve_left hRest
      rw [List.concat_eq_append, ← List.append_assoc] at hNames
      exact ⟨between, (List.append_inj' hNames rfl).1⟩
    refine ⟨fun hHidden other hOther => ?_, fun hSkip other hOther => ?_, ?_, hIgnored, ?_, ?_⟩
    · rcases List.mem_append.mp hOther with hIn | hIn
      · exact hFront.visible hHidden other hIn
      · exact List.mem_singleton.mp hIn ▸ hVisible hHidden
    · rcases List.mem_append.mp hOther with hIn | hIn
      · exact hFront.not_standard hSkip other hIn
      · exact List.mem_singleton.mp hIn ▸ hStandard hSkip
    · intro above rest hNames hNe hRest
      obtain ⟨between, rfl⟩ := hAbove above rest hNames hRest
      cases between with
      | nil => exact List.append_nil above ▸ hFront.not_ignored
      | cons first others => exact hFront.not_ignored_above above _ rfl hNe (by simp)
    · intro above rest hNames hRest
      obtain ⟨between, rfl⟩ := hAbove above rest hNames hRest
      cases between with
      | nil => exact List.append_nil above ▸ hOpens
      | cons first others => exact hFront.opens_above above _ rfl (by simp)
    · intro limit hLimit
      have hLess := hDepth limit hLimit
      rw [List.length_append, List.length_singleton]
      exact hLess

/-! ## The rules in force -/

/-- The rules that a walk has from a directory. -/
def scopeAt (volume : Volume) (options : Walk.Options) (location : Location) : Walk.Scope :=
  ⟨location.length,
    if options.heedIgnoreFiles then volume.rulesAt options location else Walk.Rules.none⟩

/-- Whether rules are those of the directories from a root to the one that names lead to. -/
def HasScopes (volume : Volume) (options : Walk.Options) (root : Location) (names : List String)
    (scopes : List Walk.Scope) : Prop :=
  ∀ scope, scope ∈ scopes ↔
    ∃ above rest, names = above ++ rest ∧ scope = volume.scopeAt options (root ++ above)

theorem rulesOf_eq {location : Location} {tree : FileTree}
    (hFind : volume.find? location = some tree) (hHeed : options.heedIgnoreFiles = true) :
    Walk.rulesOf options location tree.entries =
      match volume.find? (location ++ [ignoreFileName]) with
      | some (.file (.text s)) => .ok (options.readRules s)
      | some (.file (.binary _)) => .error (.notText (location ++ [ignoreFileName]))
      | _ => .ok Walk.Rules.none := by
  rw [find?, FileTree.find?_concat hFind]
  exact if_pos hHeed

/-- A directory that opens is entered with its rules. -/
theorem enter_of_opens {location : Location} {tree : FileTree}
    (hFind : volume.find? location = some tree) (h : volume.Opens options location) :
    Walk.enter options volume.isLocked location tree.entries =
      .ok (volume.scopeAt options location) := by
  rw [Walk.enter, h.1, if_neg (by simp), scopeAt]
  cases hHeed : options.heedIgnoreFiles with
  | false =>
      rw [Walk.rulesOf, hHeed]
      rfl
  | true =>
      have hText := h.2 hHeed
      rw [rulesOf_eq hFind hHeed, rulesAt, readText]
      cases hFile : volume.find? (location ++ [ignoreFileName]) with
      | none => rfl
      | some file =>
          cases file with
          | directory entries => rfl
          | file contents =>
              cases contents with
              | text s => rfl
              | binary octets => exact absurd hFile (hText octets)

/-- A directory that does not open is not entered. -/
theorem enter_of_not_opens {location : Location} {tree : FileTree}
    (hFind : volume.find? location = some tree) (h : ¬volume.Opens options location) :
    ∃ error, Walk.enter options volume.isLocked location tree.entries = .error error := by
  rw [Walk.enter]
  cases hLocked : volume.isLocked location with
  | true => exact ⟨_, rfl⟩
  | false =>
      have hText : options.heedIgnoreFiles = true ∧ ∃ octets,
          volume.find? (location ++ [ignoreFileName]) = some (.file (.binary octets)) := by
        simpa [Opens, hLocked] using h
      obtain ⟨hHeed, octets, hFile⟩ := hText
      rw [rulesOf_eq hFind hHeed, hFile]
      exact ⟨_, rfl⟩

theorem enter_eq_ok_iff {location : Location} {tree : FileTree} {scope : Walk.Scope}
    (hFind : volume.find? location = some tree) :
    Walk.enter options volume.isLocked location tree.entries = .ok scope ↔
      volume.Opens options location ∧ scope = volume.scopeAt options location := by
  by_cases h : volume.Opens options location
  · rw [enter_of_opens hFind h, Except.ok.injEq]
    exact ⟨fun hEq => ⟨h, hEq.symm⟩, fun hEq => hEq.2.symm⟩
  · obtain ⟨error, hError⟩ := enter_of_not_opens hFind h
    simp [hError, h]

theorem hasScopes_nil : volume.HasScopes options root [] [volume.scopeAt options root] := by
  intro scope
  rw [List.mem_singleton]
  constructor
  · rintro rfl
    exact ⟨[], [], rfl, by rw [List.append_nil]⟩
  · rintro ⟨above, rest, hNames, rfl⟩
    rw [(List.append_eq_nil_iff.mp hNames.symm).1, List.append_nil]

theorem HasScopes.concat {names : List String} {scopes : List Walk.Scope}
    (h : volume.HasScopes options root names scopes) (name : String) :
    volume.HasScopes options root (names ++ [name])
      (volume.scopeAt options (root ++ (names ++ [name])) :: scopes) := by
  intro scope
  rw [List.mem_cons, h scope]
  constructor
  · rintro (rfl | ⟨above, rest, rfl, rfl⟩)
    · exact ⟨names ++ [name], [], by rw [List.append_nil], rfl⟩
    · exact ⟨above, rest ++ [name], by rw [List.append_assoc], rfl⟩
  · rintro ⟨above, rest, hNames, rfl⟩
    have hPrefix : above <+: names ++ [name] := ⟨rest, hNames.symm⟩
    rcases List.prefix_concat_iff.mp hPrefix with rfl | ⟨between, rfl⟩
    · exact .inl rfl
    · exact .inr ⟨above, between, rfl, rfl⟩

theorem scopeAt_ignores_iff (above rest : List String) (isDirectory : Bool) :
    (volume.scopeAt options (root ++ above)).ignores (root ++ (above ++ rest)) isDirectory = true ↔
      options.heedIgnoreFiles = true ∧
        volume.rulesAt options (root ++ above) rest isDirectory = some .ignored := by
  have hDrop : (root ++ (above ++ rest)).drop (root ++ above).length = rest := by
    rw [← List.append_assoc, List.drop_left]
  rw [Walk.Scope.ignores, scopeAt, hDrop]
  cases hHeed : options.heedIgnoreFiles with
  | false => simp [Walk.Rules.none]
  | true => simp

/-- An entry is admitted when its name is not left out and nothing above it says to ignore it. -/
theorem admits_iff {names : List String} {scopes : List Walk.Scope}
    (h : volume.HasScopes options root names scopes) (name : String) (isDirectory : Bool) :
    Walk.admits options scopes (root ++ (names ++ [name])) isDirectory = true ↔
      Walk.skipsName options name = false ∧
        ¬volume.IsIgnored options root (names ++ [name]) isDirectory := by
  have hLast : (root ++ (names ++ [name])).getLastD "" = name := by
    rw [← List.append_assoc, List.getLastD_concat]
  have hAny : (scopes.any fun scope =>
      scope.ignores (root ++ (names ++ [name])) isDirectory) = true ↔
        volume.IsIgnored options root (names ++ [name]) isDirectory := by
    rw [List.any_eq_true]
    constructor
    · rintro ⟨scope, hScope, hIgnores⟩
      obtain ⟨above, rest, rfl, rfl⟩ := (h scope).mp hScope
      rw [List.append_assoc, scopeAt_ignores_iff] at hIgnores
      exact ⟨hIgnores.1, above, rest ++ [name], by rw [List.append_assoc], by simp, hIgnores.2⟩
    · rintro ⟨hHeed, above, rest, hNames, hRest, hVerdict⟩
      obtain ⟨between, last, rfl⟩ := (List.eq_nil_or_concat rest).resolve_left hRest
      have hFront : names = above ++ between := by
        rw [List.concat_eq_append, ← List.append_assoc] at hNames
        exact (List.append_inj' hNames rfl).1
      refine ⟨_, (h _).mpr ⟨above, between, hFront, rfl⟩, ?_⟩
      rw [hNames, scopeAt_ignores_iff]
      exact ⟨hHeed, hVerdict⟩
  rw [Walk.admits, hLast, Bool.and_eq_true, Bool.not_eq_true', Bool.not_eq_true', ← hAny]
  simp

end Volume

end YamlIndex
