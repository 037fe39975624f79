import TabularOntology.Axiom
import TabularOntology.Text.Duration

/-! What a reasoner is asked and what it answers. -/

namespace TabularOntology.Reasoner

structure Options where
  /-- The number of rounds that may be taken to reach a fixpoint. -/
  maxIterations : Nat := 100000
  /-- The time that may be taken, in nanoseconds. -/
  timeout : Option Nat := none
  /-- Inferred axioms are part of the answer. -/
  materialize : Bool := true
  deriving DecidableEq, Repr

/-- The answer of a reasoner. -/
structure Verdict where
  consistent : Bool := false
  /-- The named classes that can have no members. -/
  unsatisfiable : Signature := ∅
  /-- Entailed axioms that are not in the ontology. -/
  inferred : Option (List Axiom) := none
  /-- Why the ontology is inconsistent. -/
  explanation : Option String := none

/-- Why there is no answer. -/
inductive Failure
  | timeout (nanoseconds : Nat)
  /-- The rounds that may be taken were not enough. -/
  | noFixpoint (iterations : Nat)
  | backend (message : String)
  deriving DecidableEq, Repr

def Failure.message : Failure → String
  | .timeout ns => "reasoning did not finish within " ++ Text.durationText ns
  | .noFixpoint n => s!"no fixpoint reached after {n} iterations"
  | .backend m => m

end TabularOntology.Reasoner
