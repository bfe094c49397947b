import LiveMarkup.Html.Reference
import Mathlib.Data.List.Find
import Mathlib.Data.List.Infix

/-!
# Complete names

A name is complete where no longer name starts with it.  Then it does not matter what follows the
name in a text: the name is read up to its end and stands for what it stands for.  The names that
markup is written with are complete.

Main definitions:

- `Reference.Complete`: complete names.
- `Reference.writtenNames`: the names that markup is written with.

Main results:

- `Reference.Complete.longest?_append`: a complete name before any text.
- `Reference.complete_of_written`: the names in writing are complete.
-/

namespace LiveMarkup
namespace Html
namespace Reference

variable {read name text : List Char}

/-- Names that may begin like a text may begin like the front of it. -/
theorem Section.fits_of_append {s : Section} {more : List Char} (h : s.fits (read ++ more)) :
    s.fits read := by
  match read, more, h with
  | [], _, _ => rfl
  | [_], [], h => exact h
  | [_], _ :: _, h => exact (Bool.and_eq_true_iff.mp h).1
  | _ :: _ :: _, _, h => exact h

/-- The front of a text that some name starts with. -/
theorem startsName_of_append {more : List Char} (h : startsName (read ++ more)) :
    startsName read := by
  simp only [startsName, namesFor, List.any_eq_true, List.mem_flatMap, List.mem_filter,
    List.isPrefixOf_iff_prefix] at h ⊢
  obtain ⟨entry, ⟨s, ⟨hs, hfits⟩, hentry⟩, hprefix⟩ := h
  exact ⟨entry, ⟨s, ⟨hs, Section.fits_of_append hfits⟩, hentry⟩,
    (List.prefix_append _ _).trans hprefix⟩

/-- A name, of two letters at least, that stands for a text and that no longer name starts with. -/
structure Complete (name text : List Char) : Prop where
  two_le_length : 2 ≤ name.length
  longest : longest? name = some (String.ofList name, text, [])
  only : ∀ entry ∈ namesFor name, name.isPrefixOf entry.1.toList → entry.1.toList = name

namespace Complete

/-- The first two letters select the names. -/
theorem namesFor_append (h : Complete name text) (rest : List Char) :
    namesFor (name ++ rest) = namesFor name := by
  match name, h.two_le_length with
  | _ :: _ :: _, _ => rfl

/-- The entry that says what a complete name stands for. -/
theorem exists_entry (h : Complete name text) :
    ∃ entry, (namesFor name).find? (fun entry => entry.1.toList.isPrefixOf name) = some entry ∧
      entry.1 = String.ofList name ∧ entry.2.toList = text := by
  obtain ⟨entry, hfound, heq⟩ := Option.map_eq_some_iff.mp h.longest
  simp only [Prod.mk.injEq] at heq
  exact ⟨entry, hfound, heq.1, heq.2.1⟩

/-- A complete name starts one. -/
theorem startsName (h : Complete name text) : startsName name := by
  obtain ⟨entry, hfound, hname, -⟩ := h.exists_entry
  refine List.any_eq_true.mpr ⟨entry, List.mem_of_find?_eq_some hfound, ?_⟩
  rw [hname, String.toList_ofList, List.isPrefixOf_iff_prefix]

/-- No name goes on after a complete one. -/
theorem startsName_concat (h : Complete name text) (c : Char) :
    Reference.startsName (name ++ [c]) = false := by
  refine List.any_eq_false.mpr fun entry hentry hprefix => ?_
  rw [h.namesFor_append] at hentry
  rw [List.isPrefixOf_iff_prefix] at hprefix
  have hsame := h.only entry hentry
    (List.isPrefixOf_iff_prefix.mpr ((List.prefix_append _ _).trans hprefix))
  have hlength := hprefix.length_le
  rw [hsame, List.length_append] at hlength
  exact absurd hlength (Nat.not_succ_le_self _)

/-- A name that some text after a complete one starts with is a front of the complete one. -/
theorem isPrefixOf_append (h : Complete name text) {entry : String × String}
    (hentry : entry ∈ namesFor name) (rest : List Char) :
    entry.1.toList.isPrefixOf (name ++ rest) = entry.1.toList.isPrefixOf name := by
  rw [Bool.eq_iff_iff, List.isPrefixOf_iff_prefix, List.isPrefixOf_iff_prefix]
  constructor
  · intro hprefix
    rcases List.prefix_or_prefix_of_prefix hprefix (List.prefix_append name rest) with
      hshort | hlong
    · exact hshort
    · rw [h.only entry hentry (List.isPrefixOf_iff_prefix.mpr hlong)]
  · exact fun hprefix => hprefix.trans (List.prefix_append name rest)

/-- Whatever follows a complete name is left over. -/
theorem longest?_append (h : Complete name text) (rest : List Char) :
    longest? (name ++ rest) = some (String.ofList name, text, rest) := by
  obtain ⟨entry, hfound, hname, htext⟩ := h.exists_entry
  rw [longest?, h.namesFor_append,
    List.find?_congr fun entry hentry => h.isPrefixOf_append hentry rest, hfound,
    Option.map_some, hname, htext, String.length_ofList, List.drop_left]

end Complete

/-! ## Names in writing -/

/-- The names that markup is written with. -/
def writtenNames : List (List Char × Char) :=
  [(['a', 'm', 'p', ';'], '&'), (['l', 't', ';'], '<'), (['g', 't', ';'], '>'),
    (['n', 'b', 's', 'p', ';'], '\u00a0'), (['q', 'u', 'o', 't', ';'], '"')]

/-- The references that are written are complete. -/
theorem complete_of_written {name : List Char} {c : Char} (h : (name, c) ∈ writtenNames) :
    Complete name [c] := by
  simp only [writtenNames, List.mem_cons, Prod.mk.injEq, List.not_mem_nil, or_false] at h
  rcases h with ⟨rfl, rfl⟩ | ⟨rfl, rfl⟩ | ⟨rfl, rfl⟩ | ⟨rfl, rfl⟩ | ⟨rfl, rfl⟩
  all_goals
    exact {
      two_le_length := by decide
      longest := by decide +kernel
      only := by decide +kernel }

end Reference
end Html
end LiveMarkup
