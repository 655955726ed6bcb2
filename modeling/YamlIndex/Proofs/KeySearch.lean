import YamlIndex.Proofs.Text.FinalSigma
import YamlIndex.Scan

/-!
# Searching keys by a longer text

A key is found by a text when its lower-case form begins with that of the text.  A longer text finds
a part of what a shorter one finds, as long as the form of the shorter one stays in front of that of
the longer one.  Where it does not, since a final sigma is lost, the two find no key in common; and
a key that begins with the shorter text, letter by letter, is not found by it.

## Main results

* `keyMatch?_longer_iff`: when a line that a longer text finds is found by the shorter one.
* `keys_narrow_iff`: when a longer text finds a part of what the shorter one finds.
-/

namespace YamlIndex

/-- A mapping line is found by its key. -/
theorem keyMatch?_eq_some_iff {form : List Char} {line : String × Nat} {entry : PathEntry} :
    keyMatch? form line = some entry ↔
      ∃ mapping, Line.classify line.1 = .mapping mapping ∧
        form <+: Text.lower mapping.key.toList ∧
          entry =
            ⟨line.2, mapping.key, Text.trimmed line.1, [.key mapping.key], false, none, none⟩ := by
  rw [keyMatch?]
  cases hLine : Line.classify line.1 with
  | blank => simp
  | unparsed => simp
  | item item => simp
  | mapping mapping =>
      simp only [Option.ite_none_right_eq_some, List.isPrefixOf_iff_prefix, Option.some.injEq,
        Line.mapping.injEq, exists_eq_left']
      exact and_congr_right fun _ => eq_comm

/-- A line that a longer text finds is found by the shorter one when no final sigma is lost. -/
theorem keyMatch?_longer_iff {s t : List Char} {line : String × Nat} {entry : PathEntry}
    (h : keyMatch? (Text.lower (s ++ t)) line = some entry) :
    keyMatch? (Text.lower s) line = some entry ↔ Text.losesFinalSigma s t = false := by
  obtain ⟨mapping, hLine, hLonger, rfl⟩ := keyMatch?_eq_some_iff.mp h
  rw [← Text.lower_prefix_iff_of_prefix hLonger, keyMatch?_eq_some_iff]
  constructor
  · rintro ⟨other, hOther, hShorter, -⟩
    rw [hLine, Line.mapping.injEq] at hOther
    rwa [hOther]
  · exact fun hShorter => ⟨mapping, hLine, hShorter, rfl⟩

theorem line_of_keyMatch? {form : List Char} {line : String × Nat} {entry : PathEntry}
    (h : keyMatch? form line = some entry) : entry.line = line.2 := by
  obtain ⟨mapping, -, -, rfl⟩ := keyMatch?_eq_some_iff.mp h
  rfl

theorem mem_keysStartingWith {text : String} {lines : List String} {entry : PathEntry} :
    entry ∈ keysStartingWith text lines none ↔
      ∃ i raw, lines[i]? = some raw ∧
        keyMatch? (Text.lower text.toList) (raw, i + 1) = some entry := by
  rw [keysStartingWith, limited, List.mem_filterMap]
  constructor
  · rintro ⟨⟨raw, number⟩, hLine, hMatch⟩
    obtain ⟨hFirst, hAt⟩ := List.mk_mem_zipIdx_iff_le_and_getElem?_sub.mp hLine
    exact ⟨number - 1, raw, hAt, by rwa [Nat.sub_add_cancel hFirst]⟩
  · rintro ⟨i, raw, hAt, hMatch⟩
    refine ⟨_, List.mk_mem_zipIdx_iff_le_and_getElem?_sub.mpr ⟨Nat.le_add_left 1 i, ?_⟩, hMatch⟩
    rwa [Nat.add_sub_cancel]

/-- What is found on a line is a matter of this line alone. -/
theorem mem_keysStartingWith_at {text : String} {lines : List String} {i : Nat} {raw : String}
    (hAt : lines[i]? = some raw) {entry : PathEntry} (hLine : entry.line = i + 1) :
    entry ∈ keysStartingWith text lines none ↔
      keyMatch? (Text.lower text.toList) (raw, i + 1) = some entry := by
  rw [mem_keysStartingWith]
  constructor
  · rintro ⟨j, other, hAt', hMatch⟩
    obtain rfl : i = j := Nat.succ.inj (hLine.symm.trans (line_of_keyMatch? hMatch))
    obtain rfl : raw = other := Option.some.inj (hAt.symm.trans hAt')
    exact hMatch
  · exact fun hMatch => ⟨i, raw, hAt, hMatch⟩

/-- A choice that keeps all that another one keeps, as it is, keeps it in the same order. -/
theorem filterMap_sublist_filterMap {α β : Type} {f g : α → Option β} {xs : List α}
    (h : ∀ x ∈ xs, ∀ y, f x = some y → g x = some y) :
    (xs.filterMap f).Sublist (xs.filterMap g) := by
  induction xs with
  | nil => exact List.Sublist.refl []
  | cons x xs ih =>
      obtain ⟨hHead, hTail⟩ := List.forall_mem_cons.mp h
      cases hf : f x with
      | none =>
          rw [List.filterMap_cons_none hf]
          refine (ih hTail).trans ?_
          exact (List.sublist_cons_self x xs).filterMap g
      | some y =>
          rw [List.filterMap_cons_some hf, List.filterMap_cons_some (hHead y hf)]
          exact (ih hTail).cons_cons y

/-- A longer text finds a part of what the shorter one finds just if no final sigma is lost, or if
it finds nothing at all.  In particular a key that begins with a text, letter by letter, is found by
it just if what stands behind the text in the key leaves the text its final sigma. -/
theorem keys_narrow_iff (text more : String) (lines : List String) :
    ((keysStartingWith (text ++ more) lines none).Sublist (keysStartingWith text lines none) ↔
      Text.losesFinalSigma text.toList more.toList = false ∨
        keysStartingWith (text ++ more) lines none = []) ∧
      ∀ i raw mapping, lines[i]? = some raw → Line.classify raw = .mapping mapping →
        mapping.key = text ++ more →
          ((∃ entry ∈ keysStartingWith text lines none, entry.line = i + 1) ↔
            Text.losesFinalSigma text.toList more.toList = false) := by
  constructor
  · constructor
    · intro hSublist
      refine or_iff_not_imp_right.mpr fun hSome => ?_
      obtain ⟨entry, hLonger⟩ := List.exists_mem_of_ne_nil _ hSome
      obtain ⟨i, raw, hAt, hMatch⟩ := mem_keysStartingWith.mp hLonger
      have hShorter := (mem_keysStartingWith_at hAt (line_of_keyMatch? hMatch)).mp
        (hSublist.subset hLonger)
      rw [String.toList_append] at hMatch
      exact (keyMatch?_longer_iff hMatch).mp hShorter
    · rintro (hKept | hNone)
      · rw [keysStartingWith, keysStartingWith, limited, limited, String.toList_append]
        exact filterMap_sublist_filterMap fun line _ entry hMatch =>
          (keyMatch?_longer_iff hMatch).mpr hKept
      · rw [hNone]
        exact List.nil_sublist _
  · intro i raw mapping hAt hLine hKey
    have hMatch : keyMatch? (Text.lower (text.toList ++ more.toList)) (raw, i + 1) = some
        ⟨i + 1, mapping.key, Text.trimmed raw, [.key mapping.key], false, none, none⟩ := by
      refine keyMatch?_eq_some_iff.mpr ⟨mapping, hLine, ?_, rfl⟩
      rw [hKey, String.toList_append]
    rw [← keyMatch?_longer_iff hMatch]
    constructor
    · rintro ⟨entry, hEntry, hNumber⟩
      obtain ⟨other, hOther, hForm, -⟩ :=
        keyMatch?_eq_some_iff.mp ((mem_keysStartingWith_at hAt hNumber).mp hEntry)
      obtain rfl : mapping = other := Line.mapping.inj (hLine.symm.trans hOther)
      exact keyMatch?_eq_some_iff.mpr ⟨mapping, hLine, hForm, rfl⟩
    · exact fun hShorter => ⟨_, (mem_keysStartingWith_at hAt rfl).mpr hShorter, rfl⟩

/-- The key is found by all of it, and not by the front part that ends in a final sigma. -/
theorem keys_narrow_iff_word :
    Line.classify "ΑΣΑ: 1" = .mapping ⟨0, "ΑΣΑ", some "1"⟩ ∧
      keysStartingWith "ΑΣΑ" ["ΑΣΑ: 1"] none ≠ [] ∧
      ¬(keysStartingWith "ΑΣΑ" ["ΑΣΑ: 1"] none).Sublist (keysStartingWith "ΑΣ" ["ΑΣΑ: 1"] none) ∧
        ¬∃ entry ∈ keysStartingWith "ΑΣ" ["ΑΣΑ: 1"] none, entry.line = 1 := by
  have hLine : Line.classify "ΑΣΑ: 1" = .mapping ⟨0, "ΑΣΑ", some "1"⟩ := by decide +kernel
  have hLost : Text.losesFinalSigma "ΑΣ".toList "Α".toList = true := by decide +kernel
  have hFound : keysStartingWith "ΑΣΑ" ["ΑΣΑ: 1"] none ≠ [] := by decide +kernel
  obtain ⟨hPart, hOwn⟩ := keys_narrow_iff "ΑΣ" "Α" ["ΑΣΑ: 1"]
  refine ⟨hLine, hFound, fun hSublist => ?_, fun hOne => ?_⟩
  · rcases hPart.mp hSublist with hKept | hNone
    · rw [hLost] at hKept
      exact absurd hKept (by simp)
    · exact hFound hNone
  · have hKept := (hOwn 0 "ΑΣΑ: 1" _ rfl hLine rfl).mp hOne
    rw [hLost] at hKept
    exact absurd hKept (by simp)

end YamlIndex
