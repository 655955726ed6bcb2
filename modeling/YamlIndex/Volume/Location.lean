import YamlIndex.Text.Blank

/-!
# Locations on a volume

A location is the chain of names that leads from the root of a volume to a file or a directory.  Its
text has a slash in front of each name, so the root has the empty text.

A text is followed from a location step by step.  Empty steps and single dots stay, two dots go up
and stay at the root, any other step goes down.  A text that begins with a slash starts at the root;
one that ends in a slash, the lone slash aside, leads nowhere.

## Main results

* `mem_above_iff`: a directory is above a place when further names lead from it to the place.
-/

namespace YamlIndex

/-- The names that lead from the root of a volume to a place on it. -/
abbrev Location := List String

namespace Location

/-- The text of a location. -/
def text (location : Location) : String :=
  String.join (location.map fun name => "/" ++ name)

/-- The directories above a place, the closest one first; the last one has no names. -/
def above (location : Location) : List Location :=
  (List.range location.length).reverse.map fun n => location.take n

theorem mem_above_iff {location directory : Location} :
    directory ∈ location.above ↔ ∃ rest, location = directory ++ rest ∧ rest ≠ [] := by
  simp only [above, List.mem_map, List.mem_reverse, List.mem_range]
  constructor
  · rintro ⟨depth, hDepth, rfl⟩
    refine ⟨location.drop depth, (List.take_append_drop depth location).symm, fun hNil => ?_⟩
    have hLength := List.drop_eq_nil_iff.mp hNil
    omega
  · rintro ⟨rest, rfl, hRest⟩
    refine ⟨directory.length, ?_, List.take_left⟩
    rw [List.length_append]
    exact Nat.lt_add_of_pos_right (List.length_pos_iff.mpr hRest)

/-- One step from a location. -/
def step (location : Location) (name : List Char) : Location :=
  if name.isEmpty || name == ['.'] then location
  else if name == ['.', '.'] then location.dropLast
  else location ++ [String.ofList name]

/-- Whether a text ends in a slash that is not all of it. -/
def hasLooseEnd (s : List Char) : Bool :=
  s != ['/'] && s.getLast? == some '/'

/-- The location that a text leads to from another one; none if it leads nowhere. -/
def follow? (location : Location) (path : String) : Option Location :=
  let s := path.toList
  if hasLooseEnd s then none
  else
    let start := if s.head? = some '/' then [] else location
    some ((Text.splitAll '/' s).foldl step start)

end Location

end YamlIndex
