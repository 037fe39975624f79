import Mathlib.Data.List.Perm.Subperm
import TabularOntology.Signature

/-! Signatures as sets. A signature is known by what belongs to it: its list and its size follow
from that. Folds that only add to a signature keep what they have. -/

namespace TabularOntology.Signature

variable {s t : Signature} {x : Iri}

theorem nodup_toList (s : Signature) : s.toList.Nodup := by
  refine s.distinct_toList.imp ?_
  rintro x y hne rfl
  exact hne Std.ReflCmp.compare_self

theorem mem_insert_iff {y : Iri} : x ∈ s.insert y ↔ x = y ∨ x ∈ s := by
  rw [Std.TreeSet.mem_insert, Std.LawfulEqOrd.compare_eq_iff_eq, eq_comm]

theorem toList_eq_of_forall_mem (h : ∀ x, x ∈ s ↔ x ∈ t) : s.toList = t.toList :=
  (Std.TreeSet.Equiv.of_forall_mem_iff h).toList_eq

theorem subperm_toList (h : ∀ x ∈ s, x ∈ t) : s.toList.Subperm t.toList :=
  s.nodup_toList.subperm fun y hy => by
    rw [Std.TreeSet.mem_toList] at hy ⊢
    exact h y hy

theorem size_le (h : ∀ x ∈ s, x ∈ t) : s.size ≤ t.size := by
  have := (subperm_toList h).length_le
  rwa [Std.TreeSet.length_toList, Std.TreeSet.length_toList] at this

/-- A signature that is no larger than a part of it has nothing else. -/
theorem mem_of_size_le (h : ∀ x ∈ s, x ∈ t) (hs : t.size ≤ s.size) (hx : x ∈ t) : x ∈ s := by
  have perm : s.toList.Perm t.toList := (subperm_toList h).perm_of_length_le (by
    rwa [Std.TreeSet.length_toList, Std.TreeSet.length_toList])
  rwa [← Std.TreeSet.mem_toList, perm.mem_iff, Std.TreeSet.mem_toList]

section Folds
variable {α : Type} {as : List α}

theorem mem_foldl_union {g : α → Signature} :
    x ∈ as.foldl (fun t a => t ∪ g a) s ↔ x ∈ s ∨ ∃ a ∈ as, x ∈ g a := by
  induction as generalizing s with
  | nil => simp
  | cons a as ih => simp [ih, Std.TreeSet.mem_union_iff, or_assoc]

variable {step : Signature → α → Signature}

theorem mem_foldl_of_mem (grow : ∀ t a, ∀ x ∈ t, x ∈ step t a) (hx : x ∈ s) :
    x ∈ as.foldl step s := by
  induction as generalizing s with
  | nil => exact hx
  | cons a as ih => exact ih (grow s a x hx)

/-- What one step adds to every larger signature is there in the end. -/
theorem mem_foldl_of_step {a : α} (grow : ∀ t a, ∀ x ∈ t, x ∈ step t a) (ha : a ∈ as)
    (hx : ∀ t : Signature, (∀ y ∈ s, y ∈ t) → x ∈ step t a) : x ∈ as.foldl step s := by
  induction as generalizing s with
  | nil => exact absurd ha List.not_mem_nil
  | cons b as ih =>
    rcases List.mem_cons.1 ha with rfl | ha
    · rw [List.foldl_cons]
      exact mem_foldl_of_mem grow (hx s fun _ => id)
    · exact ih ha fun t ht => hx t fun y hy => ht y (grow s b y hy)

end Folds

end TabularOntology.Signature
