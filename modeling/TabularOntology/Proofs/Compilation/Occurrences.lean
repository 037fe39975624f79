import TabularOntology.Proofs.Compilation.Order

/-! What becomes of the references in an expression. Each reference that a cell writes has to stand
for an IRI before its expression is taken for a class expression or a data range, except for the
names of anonymous individuals; and the IRIs found are the ones that the result mentions, except for
the datatypes of literals. References are collected once from the tree as it is written and once
from what it stands for, and the two collections meet here, constructor by constructor. -/

namespace TabularOntology

namespace Cell

/-- What a reference is there for. -/
inductive Role
  /-- A class, a property or a datatype that a data range is made of. -/
  | entity
  /-- The individual after `value`. -/
  | individual
  /-- The datatype of a literal. -/
  | literalType
  deriving DecidableEq, Repr

/-- A reference at its place in an expression. -/
structure Occurrence where
  role : Role
  reference : TermReference
  deriving DecidableEq, Repr

def Value.occurrences : Value → List Occurrence
  | .individual t => [⟨.individual, t⟩]
  | .literal (.typed _ datatype) => [⟨.literalType, datatype⟩]
  | .literal _ => []

mutual

/-- The references in an expression with their roles, in reading order. -/
def Expression.occurrences : Expression → List Occurrence
  | .term t => [⟨.entity, t⟩]
  | .intersection es | .union es => occurrencesOf es
  | .complement e => e.occurrences
  | .restriction p _ _ f => ⟨.entity, p.term⟩ :: f.occurrences

def Filler.occurrences : Filler → List Occurrence
  | .none => []
  | .expression e => e.occurrences
  | .value v => v.occurrences

def occurrencesOf : List Expression → List Occurrence
  | [] => []
  | e :: es => e.occurrences ++ occurrencesOf es

end

theorem occurrencesOf_eq_flatMap (es : List Expression) :
    occurrencesOf es = es.flatMap Expression.occurrences := by
  induction es with
  | nil => rfl
  | cons e es ih => rw [occurrencesOf, ih, List.flatMap_cons]

theorem Value.map_occurrences (v : Value) :
    v.occurrences.map Occurrence.reference = v.references := by
  cases v with
  | individual => rfl
  | literal l => cases l <;> rfl

/-- The occurrences are the references of the expression. -/
theorem Expression.map_occurrences (e : Expression) :
    e.occurrences.map Occurrence.reference = e.references := by
  induction e with
  | term => rfl
  | intersection es ih | union es ih =>
    rw [occurrences, references, occurrencesOf_eq_flatMap, referencesOf_eq_flatMap,
      List.map_flatMap]
    exact List.flatMap_congr ih
  | complement e ih => exact ih
  | restriction p q n f ih =>
    cases f with
    | none => rfl
    | expression e => exact congrArg (p.term :: ·) (ih e rfl)
    | value v => exact congrArg (p.term :: ·) v.map_occurrences

end Cell

namespace CellScope

variable {s : CellScope} {os ps : List Cell.Occurrence} {xs ys : List Iri} {x : Iri}

/-- The reference stands for an IRI, or it names an anonymous individual after `value`. -/
def Resolves (s : CellScope) (o : Cell.Occurrence) : Prop :=
  (∃ x, s.term o.reference = .ok x) ∨
    o.role = .individual ∧ ∃ name, o.reference = .anonymous name

/-- The IRIs that references stand for, but for the datatypes of literals. -/
def mentioned (s : CellScope) (os : List Cell.Occurrence) : List Iri :=
  (os.filter (·.role ≠ .literalType)).filterMap fun o => (s.term o.reference).toOption

theorem mem_mentioned : x ∈ s.mentioned os ↔
    ∃ o ∈ os, o.role ≠ .literalType ∧ s.term o.reference = .ok x := by
  simp [mentioned, ← mem_toOption, and_assoc]

/-- All references resolve, and the IRIs listed are the ones they stand for. -/
structure Keeps (s : CellScope) (os : List Cell.Occurrence) (xs : List Iri) : Prop where
  resolves : ∀ o ∈ os, s.Resolves o
  iris : xs = s.mentioned os

theorem Keeps.nil : s.Keeps [] [] := ⟨by simp, rfl⟩

theorem Keeps.append (h : s.Keeps os xs) (h' : s.Keeps ps ys) :
    s.Keeps (os ++ ps) (xs ++ ys) where
  resolves := List.forall_mem_append.2 ⟨h.resolves, h'.resolves⟩
  iris := by
    rw [h.iris, h'.iris]
    simp [mentioned]

theorem Keeps.entity {t : Cell.TermReference} (h : s.term t = .ok x) :
    s.Keeps [⟨.entity, t⟩] [x] where
  resolves := by simp [Resolves, h]
  iris := by simp [mentioned, h, Except.toOption]

theorem Keeps.cons {t : Cell.TermReference} (ht : s.term t = .ok x) (h : s.Keeps os xs) :
    s.Keeps (⟨.entity, t⟩ :: os) (x :: xs) :=
  (Keeps.entity ht).append h

/-- Operands are converted one by one. -/
theorem Keeps.flatMap {α : Type} {f : Cell.Expression → Except RecordError α} {g : α → List Iri}
    {es : List Cell.Expression} {as : List α} (h : es.mapM f = .ok as)
    (each : ∀ e ∈ es, ∀ a, f e = .ok a → s.Keeps e.occurrences (g a)) :
    s.Keeps (es.flatMap Cell.Expression.occurrences) (as.flatMap g) := by
  rw [mapM_eq_ok] at h
  induction h with
  | nil => exact .nil
  | cons ha _ ih =>
    obtain ⟨first, rest⟩ := List.forall_mem_cons.1 each
    exact (first _ ha).append (ih rest)

/-! ### Values -/

theorem keeps_individual {t : Cell.TermReference} {i : Individual} (h : s.individual t = .ok i) :
    s.Keeps [⟨.individual, t⟩] i.iris := by
  unfold individual at h
  split at h
  · next name =>
    split at h
    · cases h
      exact ⟨by simp [Resolves], rfl⟩
    · cases h
  · obtain ⟨x, hx, rfl⟩ := map_eq_ok.1 h
    exact ⟨by simp [Resolves, hx], by simp [mentioned, hx, Except.toOption, Individual.iris]⟩

/-- The datatype of a literal must resolve, and it is not mentioned. -/
theorem keeps_literal {l : Cell.LiteralValue} {v : Literal} (h : s.literal l = .ok v) :
    s.Keeps (Cell.Value.literal l).occurrences [] := by
  cases l with
  | typed text datatype =>
    obtain ⟨x, hx, -⟩ := map_eq_ok.1 h
    exact ⟨by simp [Cell.Value.occurrences, Resolves, hx], rfl⟩
  | string | integer | decimal | boolean => exact .nil

/-! ### Expressions -/

theorem keeps_dataRange {e : Cell.Expression} {d : DataRange} (h : s.dataRange e = .ok d) :
    s.Keeps e.occurrences d.iris := by
  induction e generalizing d with
  | term t =>
    obtain ⟨x, hx, rfl⟩ := map_eq_ok.1 h
    exact .entity hx
  | intersection es ih | union es ih =>
    obtain ⟨ds, hds, rfl⟩ := map_eq_ok.1 h
    rw [dataRanges_eq_mapM] at hds
    rw [Cell.Expression.occurrences, Cell.occurrencesOf_eq_flatMap, DataRange.iris,
      DataRange.irisOf_eq_flatMap]
    exact .flatMap hds fun e he d hd => ih e he hd
  | complement e ih =>
    obtain ⟨d, inner, rfl⟩ := map_eq_ok.1 h
    have kept : s.Keeps e.occurrences d.iris := ih inner
    exact kept
  | restriction => cases h

section Restrictions
variable {whole : Cell.Expression} {p : Cell.PropertyReference} {q : Cell.Quantifier}
variable {iri : Iri} {property : ObjectProperty} {n : Nat} {v : Cell.Value} {c : ClassExpression}

theorem iris_ofObjectFiller {filler : Option ClassExpression}
    (h : ofObjectFiller whole property q n filler = .ok c) :
    c.iris = property.iri :: filler.toList.flatMap ClassExpression.iris := by
  cases filler with
  | none =>
    cases q with
    | some | only | value => cases h
    | exactly | min | max =>
      cases h
      rfl
  | some e =>
    cases q with
    | value => cases h
    | some | only | exactly | min | max =>
      cases h
      simp [ClassExpression.iris]

theorem iris_ofDataFiller {filler : Option DataRange}
    (h : ofDataFiller whole iri q n filler = .ok c) :
    c.iris = iri :: filler.toList.flatMap DataRange.iris := by
  cases filler with
  | none =>
    cases q with
    | some | only | value => cases h
    | exactly | min | max =>
      cases h
      rfl
  | some d =>
    cases q with
    | value => cases h
    | some | only | exactly | min | max =>
      cases h
      simp [ClassExpression.iris]

variable (hp : s.term p.term = .ok iri)

include hp

theorem keeps_ofObjectValue (hi : property.iri = iri)
    (h : s.ofObjectValue whole p property q v = .ok c) :
    s.Keeps (⟨.entity, p.term⟩ :: v.occurrences) c.iris := by
  subst hi
  unfold ofObjectValue at h
  split at h
  · obtain ⟨i, hi, rfl⟩ := map_eq_ok.1 h
    exact (keeps_individual hi).cons hp
  · cases h
  · cases h

theorem keeps_ofDataValue (h : s.ofDataValue whole p iri q v = .ok c) :
    s.Keeps (⟨.entity, p.term⟩ :: v.occurrences) c.iris := by
  unfold ofDataValue at h
  split at h
  · obtain ⟨l, hl, rfl⟩ := map_eq_ok.1 h
    exact (keeps_literal hl).cons hp
  · cases h
  · cases h

theorem keeps_dataRestriction {n : Option Nat} {f : Cell.Filler}
    (h : s.dataRestriction p iri q n f = .ok c) :
    s.Keeps (⟨.entity, p.term⟩ :: f.occurrences) c.iris := by
  cases f with
  | none =>
    rw [iris_ofDataFiller h]
    exact .entity hp
  | expression e =>
    obtain ⟨d, hd, h⟩ := bind_eq_ok.1 h
    rw [iris_ofDataFiller h, Option.toList_some, List.flatMap_singleton]
    exact (keeps_dataRange hd).cons hp
  | value v => exact keeps_ofDataValue hp h

theorem keeps_objectRestriction (hi : property.iri = iri) {n : Option Nat} {f : Cell.Filler}
    (hf : ∀ e c, f = .expression e → s.classExpression e = .ok c → s.Keeps e.occurrences c.iris)
    (h : s.objectRestriction p property q n f = .ok c) :
    s.Keeps (⟨.entity, p.term⟩ :: f.occurrences) c.iris := by
  cases f with
  | none =>
    rw [iris_ofObjectFiller h, hi]
    exact .entity hp
  | expression e =>
    obtain ⟨d, hd, h⟩ := bind_eq_ok.1 h
    rw [iris_ofObjectFiller h, hi, Option.toList_some, List.flatMap_singleton]
    exact (hf e d rfl hd).cons hp
  | value v => exact keeps_ofObjectValue hp hi h

end Restrictions

theorem keeps_classExpression {e : Cell.Expression} {c : ClassExpression}
    (h : s.classExpression e = .ok c) : s.Keeps e.occurrences c.iris := by
  induction e generalizing c with
  | term t =>
    obtain ⟨x, hx, rfl⟩ := map_eq_ok.1 h
    exact .entity hx
  | intersection es ih | union es ih =>
    obtain ⟨cs, hcs, rfl⟩ := map_eq_ok.1 h
    rw [classExpressions_eq_mapM] at hcs
    rw [Cell.Expression.occurrences, Cell.occurrencesOf_eq_flatMap, ClassExpression.iris,
      ClassExpression.irisOf_eq_flatMap]
    exact .flatMap hcs fun e he c hc => ih e he hc
  | complement e ih =>
    obtain ⟨c, inner, rfl⟩ := map_eq_ok.1 h
    have kept : s.Keeps e.occurrences c.iris := ih inner
    exact kept
  | restriction p q n f ih =>
    obtain ⟨iri, hp, h⟩ := bind_eq_ok.1 h
    split at h
    · split at h
      · cases h
      · exact keeps_dataRestriction hp h
    · refine keeps_objectRestriction hp ?_ (fun e c same hc => ih e same hc) h
      split <;> rfl

/-! ### What is mentioned -/

/-- Every reference of an expression resolves, except that an individual may be anonymous, and the
IRIs mentioned are those that references resolve to, datatypes of literals left out. The name of an
anonymous individual resolves to nothing. -/
structure Mentions (s : CellScope) (e : Cell.Expression) (xs : List Iri) : Prop where
  resolves : ∀ o ∈ e.occurrences, s.Resolves o
  iff : ∀ x, x ∈ xs ↔ ∃ o ∈ e.occurrences, o.role ≠ .literalType ∧ s.term o.reference = .ok x

theorem Keeps.mentions {e : Cell.Expression} (h : s.Keeps e.occurrences xs) : s.Mentions e xs where
  resolves := h.resolves
  iff x := by rw [h.iris, mem_mentioned]

/-- A class expression mentions what the references of the expression stand for that it was read
from, and so does a data range. -/
theorem mentions_of_conversion (s : CellScope) (e : Cell.Expression) :
    e.occurrences.map Cell.Occurrence.reference = e.references ∧
    (∀ c, s.classExpression e = .ok c → s.Mentions e c.iris) ∧
    ∀ d, s.dataRange e = .ok d → s.Mentions e d.iris :=
  ⟨e.map_occurrences, fun _ h => (keeps_classExpression h).mentions,
    fun _ h => (keeps_dataRange h).mentions⟩

/-- A label, a data property and the base of the other examples. -/
def exampleScope : CellScope where
  references := ⟨Compilation.exampleSettings.scope, .ofPairs [("leaf", ⟨"urn:c"⟩)], ∅⟩
  kindOf? x := if x = ⟨"urn:d"⟩ then some .dataProperty else none
  maxDepth := Cell.defaultDepth
  recordNumber := 0

/-- The expression `inverse <urn:p> some (<urn:q> value _:a and not 'leaf') or
<urn:d> min 2 not xsd:string or <urn:e> value "1"^^<urn:u>`. -/
def restrictedAtDepth : Cell.Expression :=
  .union
    [.restriction ⟨.iri "urn:p", true⟩ .some none (.expression (.intersection
      [.restriction ⟨.iri "urn:q", false⟩ .value none (.value (.individual (.anonymous "a"))),
        .complement (.term (.label none "leaf"))])),
    .restriction ⟨.iri "urn:d", false⟩ .min (some 2)
      (.expression (.complement (.term (.name "xsd:string")))),
    .restriction ⟨.iri "urn:e", false⟩ .value none
      (.value (.literal (.typed "1" (.iri "urn:u"))))]

/-- Neither the anonymous individual nor the datatype of the literal is mentioned. -/
theorem mentions_of_conversion_restricted :
    ∃ c, exampleScope.classExpression restrictedAtDepth = .ok c ∧
      c.iris = [⟨"urn:p"⟩, ⟨"urn:q"⟩, ⟨"urn:c"⟩, ⟨"urn:d"⟩,
        ⟨"http://www.w3.org/2001/XMLSchema#string"⟩, ⟨"urn:e"⟩] ∧
      exampleScope.Mentions restrictedAtDepth c.iris := by
  obtain ⟨c, hc, iris⟩ : ∃ c, exampleScope.classExpression restrictedAtDepth = .ok c ∧
      c.iris = [⟨"urn:p"⟩, ⟨"urn:q"⟩, ⟨"urn:c"⟩, ⟨"urn:d"⟩,
        ⟨"http://www.w3.org/2001/XMLSchema#string"⟩, ⟨"urn:e"⟩] :=
    exists_of_toOption_map (by decide +kernel)
  exact ⟨c, hc, iris, (mentions_of_conversion exampleScope restrictedAtDepth).2.1 c hc⟩

end CellScope

end TabularOntology
