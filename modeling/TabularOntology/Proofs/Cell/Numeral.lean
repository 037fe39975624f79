import Mathlib.Data.List.Induction
import Mathlib.Data.Nat.Digits.Defs

/-! Numbers as cells write them, in decimal digits with the most significant one first. The digits
can be seen from the characters, so a text writes at most one number. -/

namespace TabularOntology.Cell

/-- The characters of decimal digits, and the number that the digits stand for. -/
def IsNumeral (cs : List Char) (n : Nat) : Prop :=
  ∃ ds : List Nat, ds ≠ [] ∧ (∀ d ∈ ds, d < 10) ∧ cs = ds.map Nat.digitChar ∧
    Nat.ofDigits 10 ds.reverse = n

theorem digitChar_of_isDigit {c : Char} (h : c.isDigit = true) :
    Nat.digitChar (c.toNat - '0'.toNat) = c := by
  obtain ⟨lower, upper⟩ := Char.isDigit_iff_toNat.1 h
  simp only [Char.reduceToNat] at lower upper ⊢
  have small : c.toNat - 48 < 10 := by omega
  have same : 48 + (c.toNat - 48) = c.toNat := by omega
  rw [← Char.toNat_inj, Nat.toNat_digitChar_of_lt_ten small, same]

theorem ofDigitChars_map_digitChar {ds : List Nat} (h : ∀ d ∈ ds, d < 10) :
    Nat.ofDigitChars 10 (ds.map Nat.digitChar) 0 = Nat.ofDigits 10 ds.reverse := by
  -- From the last digit, which is the first of the reversed ones.
  induction ds using List.reverseRecOn with
  | nil => rfl
  | append_singleton ds d ih =>
    obtain ⟨before, last⟩ := List.forall_mem_append.1 h
    have small : d < 10 := last d (List.mem_singleton.2 rfl)
    rw [List.map_append, List.map_singleton, Nat.ofDigitChars_append, ih before,
      Nat.ofDigitChars_cons_digitChar_of_lt_ten small, Nat.ofDigitChars_nil, List.reverse_concat,
      Nat.ofDigits_cons]
    exact Nat.add_comm _ _

theorem isNumeral_iff {cs : List Char} {n : Nat} : IsNumeral cs n ↔
    cs ≠ [] ∧ (∀ c ∈ cs, c.isDigit = true) ∧ Nat.ofDigitChars 10 cs 0 = n := by
  constructor
  · rintro ⟨ds, nonempty, small, rfl, rfl⟩
    refine ⟨by simpa using nonempty, ?_, ofDigitChars_map_digitChar small⟩
    rw [List.forall_mem_map]
    intro d hd
    rw [Nat.isDigit_digitChar, decide_eq_true (small d hd)]
  · rintro ⟨nonempty, digits, value⟩
    have small : ∀ d ∈ cs.map fun c => c.toNat - '0'.toNat, d < 10 := by
      rw [List.forall_mem_map]
      intro c hc
      have upper := (Char.isDigit_iff_toNat.1 (digits c hc)).2
      simp only [Char.reduceToNat] at upper ⊢
      omega
    have chars : cs = (cs.map fun c => c.toNat - '0'.toNat).map Nat.digitChar := by
      rw [List.map_map]
      exact (List.map_id cs).symm.trans
        (List.map_congr_left fun c hc => (digitChar_of_isDigit (digits c hc)).symm)
    exact ⟨_, by simpa using nonempty, small, chars,
      (ofDigitChars_map_digitChar small).symm.trans (chars ▸ value)⟩

/-- A text writes one number. -/
theorem IsNumeral.unique {cs : List Char} {n m : Nat} (hn : IsNumeral cs n)
    (hm : IsNumeral cs m) : n = m :=
  (isNumeral_iff.1 hn).2.2.symm.trans (isNumeral_iff.1 hm).2.2

end TabularOntology.Cell
