import YamlIndex.FilePath
import YamlIndex.Proofs.Text.Splitting
import YamlIndex.Volume.Location

/-!
# Paths below a directory

A path that descends is made of names alone: none of its steps stays or goes up.  Joined to a
directory, whichever text that directory has, its names stand behind the pieces of the directory, so
the directory can be taken away again and the last name is the name of the file.  Doubled slashes
and inner dots of the directory are carried along as text and never reach what is left.

## Main results

* `exists_pieces_join`: the pieces of a descending path joined to a directory.
* `relativeTo?_join`: taking the directory away again gives the path.
* `fileName?_join`: the file has the last name of the path.
* `Location.follow?_of_descends`: a descending path is followed name by name.
-/

namespace YamlIndex

/-- Whether a step of a path goes down: it is not empty and is neither one dot nor two. -/
def GoesDown (step : List Char) : Prop :=
  step ≠ [] ∧ step ≠ ['.'] ∧ step ≠ ['.', '.']

/-- Whether every step of a path goes down. -/
def Descends (path : String) : Prop :=
  ∀ step ∈ Text.splitAll '/' path.toList, GoesDown step

namespace Descends

variable {path : String}

theorem ne_nil (h : Descends path) : path.toList ≠ [] := by
  intro hNil
  rw [Descends, hNil] at h
  exact (h [] List.mem_cons_self).1 rfl

theorem head?_ne (h : Descends path) : path.toList.head? ≠ some '/' := by
  intro hHead
  obtain ⟨rest, hCons⟩ := List.head?_eq_some_iff.mp hHead
  rw [Descends, hCons, Text.splitAll_cons_self] at h
  exact (h [] List.mem_cons_self).1 rfl

theorem getLast?_ne (h : Descends path) : path.toList.getLast? ≠ some '/' := by
  intro hLast
  obtain ⟨front, hConcat⟩ := List.getLast?_eq_some_iff.mp hLast
  rw [Descends, hConcat, Text.splitAll_append_cons] at h
  exact (h [] (List.mem_append_right _ List.mem_cons_self)).1 rfl

end Descends

namespace Location

theorem foldl_step_of_goesDown (location : Location) {steps : List (List Char)}
    (h : ∀ step ∈ steps, GoesDown step) :
    steps.foldl step location = location ++ steps.map String.ofList := by
  induction steps generalizing location with
  | nil => exact (List.append_nil location).symm
  | cons first steps ih =>
      obtain ⟨⟨hEmpty, hHere, hUp⟩, hSteps⟩ := List.forall_mem_cons.mp h
      have hFirst : location.step first = location ++ [String.ofList first] := by
        simp [step, hEmpty, hHere, hUp]
      rw [List.foldl_cons, hFirst, ih _ hSteps, List.append_assoc]
      rfl

/-- A descending path is followed name by name. -/
theorem follow?_of_descends (location : Location) {path : String} (h : Descends path) :
    location.follow? path =
      some (location ++ (Text.splitAll '/' path.toList).map String.ofList) := by
  have hLoose : hasLooseEnd path.toList = false := by simp [hasLooseEnd, h.getLast?_ne]
  rw [follow?]
  dsimp only
  rw [hLoose, if_neg Bool.false_ne_true, if_neg h.head?_ne, foldl_step_of_goesDown location h]

end Location

namespace FilePath

/-! ## Pieces -/

/-- The piece for a name. -/
def namePiece (name : List Char) : Piece :=
  (some (.name name), name)

/-- The piece for the text in front of the first slash of a relative path. -/
def frontPiece (s : List Char) : Piece :=
  if s = ['.'] then (some .here, s) else innerPiece s

theorem relativePieces_eq {s first : List Char} {others : List (List Char)}
    (h : Text.splitAll '/' s = first :: others) :
    relativePieces s = frontPiece first :: others.map innerPiece := by
  rw [relativePieces, h, frontPiece]
  by_cases hDot : first = ['.']
  · rw [hDot]
    rfl
  · rw [if_neg hDot]
    split
    · rename_i hEq
      exact absurd (List.cons.inj hEq).1 hDot
    · rfl

theorem pieces_cons_of_ne {c : Char} (h : c ≠ '/') (s : List Char) :
    pieces (c :: s) = relativePieces (c :: s) := by
  rw [pieces]
  rintro rest ⟨⟩
  exact h rfl

theorem innerPiece_of_goesDown {step : List Char} (h : GoesDown step) :
    innerPiece step = namePiece step := by
  obtain ⟨hEmpty, hHere, hUp⟩ := h
  simp [innerPiece, namePiece, hEmpty, hHere, hUp]

theorem map_innerPiece {steps : List (List Char)} (h : ∀ step ∈ steps, GoesDown step) :
    steps.map innerPiece = steps.map namePiece :=
  List.map_congr_left fun step hStep => innerPiece_of_goesDown (h step hStep)

/-- What stands behind a slash adds inner pieces to the ones in front of it; in front of the slash
at the start stands the root. -/
theorem exists_pieces_append_cons (front : List Char) :
    ∃ run, (front ≠ [] → run = pieces front) ∧ ∀ rest,
      pieces (front ++ '/' :: rest) = run ++ (Text.splitAll '/' rest).map innerPiece := by
  cases front with
  | nil => exact ⟨[(some .root, [])], fun h => absurd rfl h, fun _ => rfl⟩
  | cons c front =>
      refine ⟨pieces (c :: front), fun _ => rfl, fun rest => ?_⟩
      rw [List.cons_append]
      by_cases hc : c = '/'
      · rw [hc, pieces, pieces, Text.splitAll_append_cons, List.map_append]
        rfl
      · obtain ⟨first, others, hFirst⟩ :=
          List.exists_cons_of_ne_nil (Text.splitAll_ne_nil '/' (c :: front))
        have hSplit := Text.splitAll_append_cons '/' (c :: front) rest
        rw [hFirst, List.cons_append, List.cons_append] at hSplit
        rw [pieces_cons_of_ne hc, pieces_cons_of_ne hc, relativePieces_eq hSplit,
          relativePieces_eq hFirst, List.map_append]
        rfl

/-- A path that is not empty has a component: its first piece carries meaning. -/
theorem components_ne_nil {s : List Char} (h : s ≠ []) : components s ≠ [] := by
  obtain ⟨c, rest, rfl⟩ := List.exists_cons_of_ne_nil h
  rw [components]
  by_cases hc : c = '/'
  · rw [hc, pieces]
    simp
  · obtain ⟨first, others, hRest⟩ := List.exists_cons_of_ne_nil (Text.splitAll_ne_nil '/' rest)
    rw [pieces_cons_of_ne hc, relativePieces_eq (Text.splitAll_cons_of_ne hc hRest)]
    have hFront : (frontPiece (c :: first)).1 ≠ none := by
      rw [frontPiece, innerPiece]
      split
      · simp
      · rename_i hDot
        rw [if_neg (by simpa using hDot)]
        split <;> simp
    obtain ⟨component, hComponent⟩ := Option.ne_none_iff_exists'.mp hFront
    rw [List.filterMap_cons_some hComponent]
    exact List.cons_ne_nil _ _

/-- The pieces of a descending path are its names. -/
theorem pieces_of_descends {path : String} (h : Descends path) :
    pieces path.toList = (Text.splitAll '/' path.toList).map namePiece := by
  obtain ⟨c, rest, hCons⟩ := List.exists_cons_of_ne_nil h.ne_nil
  have hc : c ≠ '/' := by
    rintro rfl
    exact h.head?_ne (by rw [hCons]; rfl)
  obtain ⟨first, others, hFirst⟩ :=
    List.exists_cons_of_ne_nil (Text.splitAll_ne_nil '/' path.toList)
  rw [Descends, hFirst] at h
  obtain ⟨hDown, hOthers⟩ := List.forall_mem_cons.mp h
  rw [hFirst, hCons, pieces_cons_of_ne hc, ← hCons, relativePieces_eq hFirst, frontPiece,
    if_neg hDown.2.1, innerPiece_of_goesDown hDown, map_innerPiece hOthers, List.map_cons]

/-! ## Joining -/

/-- The text of a descending path joined to a directory: there is a slash between the two, which is
the last character of the directory if that is one, unless the directory is the empty text. -/
theorem toList_join {path : String} (h : Descends path) {base : String} (hBase : base ≠ "") :
    ∃ front, (join base path).toList = front ++ '/' :: path.toList ∧
      (base.toList = front ++ ['/'] ∨ base.toList = front ∧ front ≠ []) := by
  rw [join, if_neg h.head?_ne]
  cases hLast : base.toList.getLast? with
  | none =>
      rw [List.getLast?_eq_none_iff] at hLast
      exact absurd (String.toList_inj.mp hLast) hBase
  | some c =>
      obtain ⟨front, hConcat⟩ := List.getLast?_eq_some_iff.mp hLast
      by_cases hc : c = '/'
      · subst hc
        exact ⟨front, by simp [hConcat], .inl hConcat⟩
      · exact ⟨base.toList, by simp [hc], .inr ⟨rfl, by simp [hConcat]⟩⟩

/-- A descending path joined to a directory has its names behind the pieces of the directory. -/
theorem exists_pieces_join (base : String) {path : String} (h : Descends path) :
    ∃ run, components base.toList = run.filterMap Prod.fst ∧
      (components base.toList = [] → run = []) ∧
      pieces (join base path).toList =
        run ++ (Text.splitAll '/' path.toList).map namePiece := by
  by_cases hBase : base = ""
  · subst hBase
    refine ⟨[], rfl, fun _ => rfl, ?_⟩
    have hJoin : join "" path = path := by
      rw [join, if_neg h.head?_ne]
      exact String.empty_append
    rw [List.nil_append, hJoin, pieces_of_descends h]
  · obtain ⟨front, hJoin, hFront⟩ := toList_join h hBase
    obtain ⟨run, hRun, hBehind⟩ := exists_pieces_append_cons front
    have hNe : components base.toList ≠ [] :=
      components_ne_nil fun hNil => hBase (String.toList_inj.mp hNil)
    refine ⟨run, ?_, fun hNil => absurd hNil hNe, ?_⟩
    · rcases hFront with hSlash | ⟨hSame, hFront⟩
      · rw [components, hSlash, hBehind, List.filterMap_append]
        exact List.append_nil _
      · rw [components, hSame, hRun hFront]
    · rw [hJoin, hBehind, map_innerPiece h]

/-! ## Taking the directory away again -/

theorem textOf_map_namePiece (names : List (List Char)) :
    textOf (names.map namePiece) = ['/'].intercalate names := by
  have hTexts : (names.map namePiece).map Prod.snd = names := by
    rw [List.map_map]
    exact List.map_id names
  cases names with
  | nil => rfl
  | cons name names => exact congrArg (['/'].intercalate ·) hTexts

/-- Meeting the components of a run leaves what is behind it, and the idle pieces at its end. -/
theorem exists_afterComponents (run below : List Piece) :
    ∃ idle, (∀ piece ∈ idle, isIdle piece = true) ∧
      afterComponents (run.filterMap Prod.fst) (run ++ below) = some (idle ++ below) := by
  induction run with
  | nil => exact ⟨[], by simp, by cases below <;> rfl⟩
  | cons piece run ih =>
      obtain ⟨component, text⟩ := piece
      obtain ⟨idle, hIdle, hAfter⟩ := ih
      cases component with
      | some component => exact ⟨idle, hIdle, by simpa [afterComponents] using hAfter⟩
      | none =>
          rw [List.filterMap_cons_none rfl, List.cons_append]
          cases hRest : run.filterMap Prod.fst with
          | cons first others =>
              -- an idle piece before a component is passed over
              exact ⟨idle, hIdle, by rw [afterComponents, ← hRest, hAfter]⟩
          | nil =>
              -- nothing is looked for any more, so the whole run is left
              refine ⟨(none, text) :: run, fun other hOther => ?_, rfl⟩
              rcases List.mem_cons.mp hOther with rfl | hOther
              · rfl
              · rw [isIdle, List.filterMap_eq_nil_iff.mp hRest other hOther]
                rfl

/-- Names at the end of a run are not idle. -/
theorem trimIdleEnd_append_names (front : List Piece) {names : List (List Char)}
    (h : names ≠ []) :
    trimIdleEnd (front ++ names.map namePiece) = front ++ names.map namePiece := by
  obtain ⟨others, last, rfl⟩ := (List.eq_nil_or_concat' names).resolve_left h
  simp [trimIdleEnd, isIdle, namePiece]

theorem dropWhile_append_names {idle : List Piece} (h : ∀ piece ∈ idle, isIdle piece = true)
    (names : List (List Char)) :
    (idle ++ names.map namePiece).dropWhile isIdle = names.map namePiece := by
  rw [List.dropWhile_append_of_pos h]
  cases names with
  | nil => rfl
  | cons name names => rfl

/-- A descending path is found again below the directory that it was joined to. -/
theorem relativeTo?_join (base : String) {path : String} (h : Descends path) :
    relativeTo? base (join base path) = some path := by
  obtain ⟨run, hBase, hEmpty, hPieces⟩ := exists_pieces_join base h
  have hNe := Text.splitAll_ne_nil '/' path.toList
  have hText : String.ofList (textOf ((Text.splitAll '/' path.toList).map namePiece)) = path := by
    rw [textOf_map_namePiece, Text.intercalate_splitAll, String.ofList_toList]
  rw [relativeTo?, hPieces]
  split
  · rename_i hNil
    rw [trimIdleEnd_append_names _ hNe, hEmpty hNil, List.nil_append, hText]
  · obtain ⟨idle, hIdle, hAfter⟩ := exists_afterComponents run
      ((Text.splitAll '/' path.toList).map namePiece)
    rw [hBase, hAfter, Option.map_some, trimIdleEnd_append_names _ hNe,
      dropWhile_append_names hIdle, hText]

/-- A file has the last name of its path, whatever the path was joined to. -/
theorem fileName?_join (base : String) {path : String} (h : Descends path) :
    fileName? (join base path) =
      (Text.splitAll '/' path.toList).getLast?.map String.ofList := by
  obtain ⟨run, -, -, hPieces⟩ := exists_pieces_join base h
  have hNames : ((Text.splitAll '/' path.toList).map namePiece).filterMap Prod.fst =
      (Text.splitAll '/' path.toList).map Component.name := by
    rw [List.filterMap_map, ← List.filterMap_eq_map]
    rfl
  have hNe := Text.splitAll_ne_nil '/' path.toList
  obtain ⟨front, last, hLast⟩ := (List.eq_nil_or_concat' _).resolve_left hNe
  rw [fileName?, components, hPieces, List.filterMap_append, hNames, hLast]
  simp

end FilePath

end YamlIndex
