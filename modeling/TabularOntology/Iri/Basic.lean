import Std.Data.TreeSet

/-! IRIs. An IRI is known by its text alone: two IRIs are equal exactly if their
texts are, and they are ordered by code points. No check of the syntax happens
here, since IRIs that come with an ontology are taken as they are. -/

namespace TabularOntology

/-- An IRI, taken as it is. -/
structure Iri where
  text : String
  deriving DecidableEq, Repr, Inhabited

namespace Iri

instance : Ord Iri := ⟨fun a b => compare a.text b.text⟩

theorem compare_eq (a b : Iri) : compare a b = compare a.text b.text := rfl

instance : Std.TransOrd Iri where
  eq_swap {a b} := by
    simpa only [compare_eq] using Std.OrientedOrd.eq_swap (a := a.text) (b := b.text)
  isLE_trans {a b c} := by
    simpa only [compare_eq] using
      Std.TransOrd.isLE_trans (a := a.text) (b := b.text) (c := c.text)

instance : Std.LawfulEqOrd Iri where
  eq_of_compare {a b} h := by
    rw [compare_eq] at h
    have := Std.LawfulEqOrd.eq_of_compare h
    cases a
    cases b
    simp_all

/-- The IRI in angle brackets, as functional syntax and messages write it. -/
def bracketed (iri : Iri) : String := "<" ++ iri.text ++ ">"

theorem bracketed_inj {a b : Iri} : a.bracketed = b.bracketed ↔ a = b := by
  cases a
  cases b
  simp [bracketed, ← String.toList_inj]

end Iri

end TabularOntology
