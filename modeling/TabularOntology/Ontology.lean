import TabularOntology.Axiom
import TabularOntology.Iri.Vocabulary

/-! Ontologies as sets of axioms. An axiom is stored once, under its key, and the
axioms are listed in the order of keys. The set of all mentioned IRIs and the set of
declared entities are kept up to date with every change, since both are looked up
far more often than they change; that they are up to date is part of an ontology. -/

namespace TabularOntology

/-! With no axioms stored, each entry of the empty map is under its own key, and the empty
sets are what the axioms mention and declare. -/

theorem key_eq_of_empty (k : String) (a : Axiom) :
    (∅ : Std.TreeMap String Axiom)[k]? = some a → a.key = k := by simp

theorem mem_signature_iff_of_empty (x : Iri) : x ∈ (∅ : Signature) ↔
    ∃ (k : String) (a : Axiom), (∅ : Std.TreeMap String Axiom)[k]? = some a ∧ x ∈ a.iris := by
  simp

theorem mem_declared_iff_of_empty (e : Entity) : e ∈ (∅ : Std.TreeSet Entity) ↔
    ∃ (k : String) (a : Axiom), (∅ : Std.TreeMap String Axiom)[k]? = some a ∧ e ∈ a.declares := by
  simp

/-- A set of axioms with its IRIs; `source` is the ontology it was taken from. -/
structure Ontology where
  iri : Option Iri := none
  versionIri : Option Iri := none
  source : Option Iri := none
  imports : Signature := ∅
  /-- The axioms by key. -/
  byKey : Std.TreeMap String Axiom := ∅
  /-- All IRIs mentioned by the axioms. -/
  signature : Signature := ∅
  /-- All declared entities. -/
  declared : Std.TreeSet Entity := ∅
  /-- An axiom is stored under its own key. -/
  key_eq : ∀ (k : String) (a : Axiom), byKey[k]? = some a → a.key = k := by
    exact key_eq_of_empty
  mem_signature_iff : ∀ x, x ∈ signature ↔
    ∃ (k : String) (a : Axiom), byKey[k]? = some a ∧ x ∈ a.iris := by
      exact mem_signature_iff_of_empty
  mem_declared_iff : ∀ e, e ∈ declared ↔
    ∃ (k : String) (a : Axiom), byKey[k]? = some a ∧ e ∈ a.declares := by
      exact mem_declared_iff_of_empty

namespace Ontology

instance : Inhabited Ontology := ⟨{}⟩

/-- The axioms in the order of their keys. -/
def axioms (o : Ontology) : List Axiom := o.byKey.toList.map Prod.snd

/-- The keys of the axioms in order. -/
def keys (o : Ontology) : List String := o.byKey.keys

def size (o : Ontology) : Nat := o.byKey.size

def contains (o : Ontology) (a : Axiom) : Bool := o.byKey.contains a.key

/-- What is stored after one more axiom is stored under a key that was free. -/
theorem exists_stored_insert {t : Std.TreeMap String Axiom} {a : Axiom} (new : a.key ∉ t)
    (p : Axiom → Prop) :
    (∃ (k : String) (b : Axiom), (t.insert a.key a)[k]? = some b ∧ p b) ↔
      (∃ (k : String) (b : Axiom), t[k]? = some b ∧ p b) ∨ p a := by
  constructor
  · rintro ⟨k, b, hb, hp⟩
    rw [Std.TreeMap.getElem?_insert] at hb
    split at hb
    · exact .inr (Option.some.inj hb ▸ hp)
    · exact .inl ⟨k, b, hb, hp⟩
  · rintro (⟨k, b, hb, hp⟩ | hp)
    · refine ⟨k, b, ?_, hp⟩
      have hk : a.key ≠ k := by
        rintro rfl
        exact new (Std.TreeMap.mem_iff_isSome_getElem?.2 (by simp [hb]))
      rw [Std.TreeMap.getElem?_insert, if_neg (by simpa using hk), hb]
    · exact ⟨a.key, a, Std.TreeMap.getElem?_insert_self, hp⟩

/-- Adds an axiom unless its key is there already. -/
def insert (o : Ontology) (a : Axiom) : Ontology :=
  if new : a.key ∈ o.byKey then o
  else
    { o with
      byKey := o.byKey.insert a.key a
      signature := o.signature.insertMany a.iris
      declared := o.declared.insertMany a.declares
      key_eq := by
        intro k b hb
        rw [Std.TreeMap.getElem?_insert] at hb
        split at hb
        · next hk => simp_all
        · exact o.key_eq k b hb
      mem_signature_iff := by
        intro x
        rw [exists_stored_insert new (fun b => x ∈ b.iris), ← o.mem_signature_iff]
        simp
      mem_declared_iff := by
        intro e
        rw [exists_stored_insert new (fun b => e ∈ b.declares), ← o.mem_declared_iff]
        simp }

/-- Adds axioms in order. -/
def insertAll (o : Ontology) (as : List Axiom) : Ontology := as.foldl insert o

/-- The ontology of a list of axioms, without an IRI. -/
def ofAxioms (as : List Axiom) : Ontology := insertAll {} as

/-- Adds the imports and the axioms of another ontology. -/
def merge (o other : Ontology) : Ontology :=
  { o.insertAll other.axioms with imports := o.imports.insertMany other.imports.toList }

/-- Keeps the axioms that `p` accepts. -/
def retain (o : Ontology) (p : Axiom → Bool) : Ontology :=
  let kept := o.byKey.filter fun _ a => p a
  { o with
    byKey := kept
    signature := .ofList (kept.toList.flatMap fun e => e.2.iris)
    declared := .ofList (kept.toList.flatMap fun e => e.2.declares)
    key_eq := by
      intro k a h
      simp only [kept, Std.TreeMap.getElem?_filter', Option.filter_eq_some_iff] at h
      exact o.key_eq k a h.1
    mem_signature_iff := by simp [kept, Std.TreeSet.mem_ofList]
    mem_declared_iff := by simp [kept, Std.TreeSet.mem_ofList] }

def addImport (o : Ontology) (iri : Iri) : Ontology := { o with imports := o.imports.insert iri }

/-- The kinds that an IRI is declared as, in the order of kinds. -/
def declaredKinds (o : Ontology) (iri : Iri) : List EntityKind :=
  EntityKind.all.filter fun kind => o.declared.contains ⟨iri, kind⟩

/-- The first kind that an IRI is declared as. -/
def kindOf? (o : Ontology) (iri : Iri) : Option EntityKind := (o.declaredKinds iri).head?

def declares (o : Ontology) (iri : Iri) : Bool := !(o.declaredKinds iri).isEmpty

/-- The declared entities in order. -/
def entities (o : Ontology) : List Entity := o.declared.toList

/-- The subjects and values of all labels, in the order of axioms. -/
def labels (o : Ontology) : List (Iri × Literal) :=
  o.axioms.filterMap fun
    | .annotationAssertion p s v => if p = Vocabulary.label then some (s, v) else none
    | _ => none

/-- Equality of ontologies: the same IRIs and the same keys. -/
def agrees (o other : Ontology) : Bool :=
  o.iri == other.iri && o.versionIri == other.versionIri && o.keys == other.keys

def text (o : Ontology) : String :=
  let name := match o.iri with
    | some iri => iri.bracketed
    | none => "anonymous"
  s!"Ontology({name}) [{o.size} axioms]"

end Ontology

/-- Ontologies by name. -/
abbrev Ontologies := Std.TreeMap String Ontology

/-- The ontologies in the order of their names. -/
def Ontologies.all (os : Ontologies) : List Ontology := os.toList.map Prod.snd

end TabularOntology
