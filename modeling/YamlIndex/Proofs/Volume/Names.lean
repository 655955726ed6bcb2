import YamlIndex.Proofs.Text.Splitting
import YamlIndex.Volume.Location

/-!
# Names without slashes

A name below a directory is not empty and has no slash in it: it is one step of a path.  The names
of a location can then be read off its text, so locations with the same text are the same.  A path
that is followed leads through such names only.

## Main results

* `Location.text_injective`: the text of a location tells its names.
* `Location.isName_of_follow?`: a path that is followed leads through names.
-/

namespace YamlIndex

/-- Whether a text is one step of a path. -/
def IsName (name : String) : Prop :=
  name ≠ "" ∧ '/' ∉ name.toList

instance : DecidablePred IsName := fun name =>
  inferInstanceAs (Decidable (name ≠ "" ∧ '/' ∉ name.toList))

namespace Location

theorem text_cons (name : String) (rest : Location) :
    (text (name :: rest)).toList = '/' :: (name.toList ++ (text rest).toList) := by
  simp [text]

theorem splitAll_text {location : Location} (h : ∀ name ∈ location, IsName name) :
    Text.splitAll '/' location.text.toList = [] :: location.map String.toList := by
  induction location with
  | nil => rfl
  | cons name rest ih =>
      have hRest := ih fun other hOther => h other (List.mem_cons_of_mem _ hOther)
      have hName := (h name List.mem_cons_self).2
      rw [text_cons, Text.splitAll_cons_self, Text.splitAll_append_of_notMem hName hRest,
        List.append_nil]
      rfl

/-- The text of a location tells its names. -/
theorem text_injective {location other : Location} (hNames : ∀ name ∈ location, IsName name)
    (hOther : ∀ name ∈ other, IsName name) (h : location.text = other.text) :
    location = other := by
  have hSplit := splitAll_text hNames
  rw [h, splitAll_text hOther, List.cons.injEq] at hSplit
  have hInjective : Function.Injective String.toList := fun _ _ hEq => String.toList_inj.mp hEq
  exact (List.map_injective_iff.mpr hInjective hSplit.2).symm

theorem isName_of_step {location : Location} {piece : List Char} (hPiece : '/' ∉ piece)
    (h : ∀ name ∈ location, IsName name) : ∀ name ∈ location.step piece, IsName name := by
  intro name hName
  rw [step] at hName
  split at hName
  · exact h name hName
  · rename_i hStay
    split at hName
    · exact h name ((List.dropLast_sublist location).subset hName)
    · rcases List.mem_append.mp hName with hOld | hNew
      · exact h name hOld
      · rw [List.mem_singleton] at hNew
        have hNe : piece ≠ [] := fun hNil => hStay (by rw [hNil]; rfl)
        refine ⟨fun hEmpty => hNe ?_, ?_⟩
        · rw [← String.toList_ofList (l := piece), ← hNew, hEmpty]
          rfl
        · rw [hNew, String.toList_ofList]
          exact hPiece

/-- A path that is followed from names leads to names. -/
theorem isName_of_follow? {start location : Location} {path : String}
    (hStart : ∀ name ∈ start, IsName name) (h : start.follow? path = some location) :
    ∀ name ∈ location, IsName name := by
  have hSteps (pieces : List (List Char)) (place : Location)
      (hPieces : ∀ piece ∈ pieces, '/' ∉ piece) (hPlace : ∀ name ∈ place, IsName name) :
      ∀ name ∈ pieces.foldl step place, IsName name := by
    induction pieces generalizing place with
    | nil => exact hPlace
    | cons piece pieces ih =>
        exact ih _ (fun other hOther => hPieces other (List.mem_cons_of_mem _ hOther))
          (isName_of_step (hPieces piece List.mem_cons_self) hPlace)
  simp only [follow?] at h
  split at h
  · exact absurd h (by simp)
  · rw [← Option.some.inj h]
    refine hSteps _ _ (fun piece hPiece => Text.notMem_of_mem_splitAll hPiece) ?_
    split
    · simp
    · exact hStart

end Location

end YamlIndex
