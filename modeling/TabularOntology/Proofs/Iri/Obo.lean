import Mathlib.Data.List.Basic
import TabularOntology.Iri.Identifier
import TabularOntology.Text.Alphanumeric

/-! OBO identifiers and their IRIs. A colon joins the halves of an identifier, and an underscore
joins the same halves in its IRI. No half has a colon and no number has an underscore, so that both
joints are found again: the colon as the first one, the underscore as the last one although the id
space may have one as well. Each side is therefore known by the other. -/

namespace TabularOntology

namespace Obo

open Text

section
variable {cs space number : List Char} {c : Char} {id iri : String}

/-! ### Halves -/

theorem notMem_letters (h : isLetters cs) (hc : c.isAlpha = false) : c ∉ cs := by
  simp only [isLetters, Bool.and_eq_true, List.all_eq_true] at h
  intro member
  exact absurd (h.2 c member) (by simp [hc])

theorem notMem_digits (h : isDigits cs) (hc : c.isDigit = false) : c ∉ cs := by
  simp only [isDigits, Bool.and_eq_true, List.all_eq_true] at h
  intro member
  exact absurd (h.2 c member) (by simp [hc])

theorem notMem_idSpace (h : isIdSpace cs) (hc : c.isAlpha = false) (other : c ≠ '_') :
    c ∉ cs := by
  unfold isIdSpace at h
  split at h
  · exact notMem_letters h hc
  · next l r cut =>
    simp only [Bool.and_eq_true] at h
    rw [(cutFirst?_eq_some cut).1]
    simpa using ⟨notMem_letters h.1 hc, other, notMem_letters h.2 hc⟩

theorem halves?_eq_some : halves? id = some (space, number) ↔
    isIdSpace space ∧ isDigits number ∧ id.toList = space ++ ':' :: number := by
  unfold halves?
  constructor
  · intro h
    split at h
    · next cut =>
      split at h
      · next formed =>
        cases h
        simp only [Bool.and_eq_true] at formed
        exact ⟨formed.1, formed.2, (cutFirst?_eq_some cut).1⟩
      · cases h
    · cases h
  · rintro ⟨hspace, hnumber, joined⟩
    have cut : cutFirst? ':' id.toList = some (space, number) := by
      rw [joined]
      exact cutFirst?_append (notMem_idSpace hspace (by decide) (by decide))
    simp [cut, hspace, hnumber]

theorem isId_iff : isId id ↔ ∃ space number, halves? id = some (space, number) := by
  rw [isId, Option.isSome_iff_exists, Prod.exists]

/-! ### Identifiers and IRIs -/

/-- The halves of the identifier stand below the namespace in the IRI. -/
def Names (id iri : String) : Prop :=
  ∃ space number, halves? id = some (space, number) ∧
    iri.toList = Vocabulary.obo.toList ++ (space ++ '_' :: number)

theorem Names.isId (h : Names id iri) : isId id := by
  obtain ⟨space, number, cut, -⟩ := h
  exact isId_iff.2 ⟨space, number, cut⟩

theorem toIri?_eq_some {x : Iri} : toIri? id = some x ↔ Names id x.text := by
  simp only [toIri?, Option.map_eq_some_iff, Prod.exists, Names]
  refine exists_congr fun space => exists_congr fun number => and_congr_right fun _ => ?_
  constructor
  · rintro rfl
    simp
  · intro joined
    cases x
    simp [← String.toList_inj, joined]

/-- A colon between an id space and a number is the only one. -/
theorem halves?_of_isId (h : isId id) (joined : id.toList = space ++ ':' :: number) :
    halves? id = some (space, number) := by
  obtain ⟨space', number', formed⟩ := isId_iff.1 h
  obtain ⟨hspace, hnumber, joined'⟩ := halves?_eq_some.1 formed
  have colon : ':' ∉ space' := notMem_idSpace hspace (by decide) (by decide)
  have colon' : ':' ∉ number' := notMem_digits hnumber (by decide)
  obtain ⟨rfl, -, rfl⟩ :=
    (List.append_cons_inj_of_notMem colon colon').1 (joined'.symm.trans joined)
  exact formed

theorem ofIri?_eq_some : ofIri? iri = some id ↔ Names id iri := by
  unfold ofIri?
  constructor
  · intro h
    split at h
    · cases h
    · next tail below =>
      split at h
      · cases h
      · next space number cut =>
        dsimp only at h
        split at h
        · next formed =>
          cases h
          refine ⟨space, number, halves?_of_isId formed (by simp), ?_⟩
          rw [stripStart?_eq_some.1 below, cutLast?_eq_some cut]
        · cases h
  · rintro ⟨space, number, formed, below⟩
    obtain ⟨-, hnumber, joined⟩ := halves?_eq_some.1 formed
    have tail : stripStart? Vocabulary.obo iri = some (String.ofList (space ++ '_' :: number)) :=
      stripStart?_eq_some.2 (by simp [below])
    have cut : cutLast? '_' (space ++ '_' :: number) = some (space, number) :=
      cutLast?_append (notMem_digits hnumber (by decide))
    have same : String.ofList (space ++ ':' :: number) = id := by
      rw [← joined, String.ofList_toList]
    have known : isId id := isId_iff.2 ⟨space, number, formed⟩
    simp [tail, cut, same, known]

/-! ### Reading identifiers -/

theorem isBlank_of_mem (h : isId id) : ∀ c ∈ id.toList, isBlank c = false := by
  intro c hc
  obtain ⟨space, number, formed⟩ := isId_iff.1 h
  obtain ⟨hspace, hnumber, joined⟩ := halves?_eq_some.1 formed
  by_contra blank
  have other : c.isAlphanum = false := by
    by_contra alphanumeric
    exact blank (isBlank_of_isAlphanum (by simpa using alphanumeric))
  rw [Char.isAlphanum, Bool.or_eq_false_iff] at other
  rw [joined] at hc
  rcases List.mem_append.1 hc with hc | hc
  · refine notMem_idSpace hspace other.1 ?_ hc
    rintro rfl
    exact blank rfl
  · rcases List.mem_cons.1 hc with rfl | hc
    · exact blank rfl
    · exact notMem_digits hnumber other.2 hc

theorem bracketed?_of_isId (h : isId id) : IdentifierScope.bracketed? id = none := by
  obtain ⟨space, number, formed⟩ := isId_iff.1 h
  obtain ⟨hspace, hnumber, joined⟩ := halves?_eq_some.1 formed
  unfold IdentifierScope.bracketed?
  split
  · next cs bracket =>
    have member : '<' ∈ space ++ ':' :: number := by
      rw [← joined, bracket]
      exact List.mem_cons_self
    rcases List.mem_append.1 member with hc | hc
    · exact absurd hc (notMem_idSpace hspace (by decide) (by decide))
    · rcases List.mem_cons.1 hc with hc | hc
      · cases hc
      · exact absurd hc (notMem_digits hnumber (by decide))
  · rfl

/-- An identifier is read as what it names, whatever the base and the prefixes are. -/
theorem resolve_of_names {x : Iri} (h : Names id x.text) (scope : IdentifierScope) :
    scope.resolve id = .ok x := by
  have solid : ∀ c ∈ id.toList, isBlank c = false := isBlank_of_mem h.isId
  have trimmed : trim id = id := by
    rw [← String.toList_inj, toList_trim]
    exact trimChars_eq_self (fun c hc => solid c (List.mem_of_mem_head? hc))
      fun c hc => solid c (List.mem_of_mem_getLast? hc)
  have filled : id.isEmpty = false := by
    obtain ⟨space, number, formed, -⟩ := h
    refine Bool.eq_false_iff.2 fun empty => ?_
    have joined := (halves?_eq_some.1 formed).2.2
    simp [String.isEmpty_iff.1 empty] at joined
  simp [IdentifierScope.resolve, trimmed, filled, bracketed?_of_isId h.isId, toIri?_eq_some.2 h]

end

/-- Identifiers and their IRIs correspond one to one. An identifier has an IRI, is got back from it
and is read as it, whatever the base and the prefixes are; what is got from an IRI is an identifier
of just this IRI. So different identifiers never come to the same IRI. -/
theorem ids_correspond :
    (∀ id, isId id → ∃ x, toIri? id = some x ∧ ofIri? x.text = some id ∧
      ∀ scope : IdentifierScope, scope.resolve id = .ok x) ∧
    (∀ iri id, ofIri? iri = some id → isId id ∧ toIri? id = some ⟨iri⟩) ∧
    ∀ id id', isId id → isId id' → id ≠ id' → toIri? id ≠ toIri? id' ∧
      ∀ scope scope' : IdentifierScope, scope.resolve id ≠ scope'.resolve id' := by
  have named (id : String) (h : isId id) : ∃ x : Iri, Names id x.text := by
    obtain ⟨space, number, formed⟩ := isId_iff.1 h
    exact ⟨⟨Vocabulary.obo ++ String.ofList (space ++ '_' :: number)⟩, space, number, formed,
      by simp⟩
  refine ⟨fun id h => ?_, fun iri id h => ?_, fun id id' h h' different => ?_⟩
  · obtain ⟨x, names⟩ := named id h
    exact ⟨x, toIri?_eq_some.2 names, ofIri?_eq_some.2 names, resolve_of_names names⟩
  · have names : Names id iri := ofIri?_eq_some.1 h
    exact ⟨names.isId, toIri?_eq_some.2 names⟩
  · obtain ⟨x, names⟩ := named id h
    obtain ⟨x', names'⟩ := named id' h'
    have apart : x ≠ x' := by
      rintro rfl
      have same := (ofIri?_eq_some.2 names).symm.trans (ofIri?_eq_some.2 names')
      exact different (Option.some.inj same)
    refine ⟨?_, fun scope scope' => ?_⟩
    · rw [toIri?_eq_some.2 names, toIri?_eq_some.2 names']
      simpa using apart
    · rw [resolve_of_names names, resolve_of_names names']
      simpa using apart

/-- An underscore in the id space is not the joint. -/
theorem ids_correspond_underscore :
    isId "NCBI_Taxon:9606" ∧
    ofIri? "http://purl.obolibrary.org/obo/NCBI_Taxon_9606" = some "NCBI_Taxon:9606" ∧
    toIri? "NCBI_Taxon:9606" = some ⟨"http://purl.obolibrary.org/obo/NCBI_Taxon_9606"⟩ ∧
    toIri? "NCBI_Taxon:9606" ≠ toIri? "NCBI:9606" := by
  have compacted :
      ofIri? "http://purl.obolibrary.org/obo/NCBI_Taxon_9606" = some "NCBI_Taxon:9606" := by
    decide
  obtain ⟨-, expanded, apart⟩ := ids_correspond
  obtain ⟨formed, iri⟩ := expanded _ _ compacted
  exact ⟨formed, compacted, iri, (apart _ "NCBI:9606" formed (by decide) (by decide)).1⟩

end Obo

end TabularOntology
