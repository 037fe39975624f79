import TabularOntology.Catalog
import TabularOntology.Config
import TabularOntology.Import.Extraction
import TabularOntology.Import.Related

/-! The import closure: one module for each source, such that what a module needs
from another source is in the module of that source. A symbol is routed to a source
if the seed or the module of another source asks for it and the source mentions it.
All sources are extracted again, round by round, until a round routes nothing new;
the symbols that were not routed yet are a measure for this. Terms that are asked for
by name join the routed symbols or are described by themselves, and excluded terms are
taken out of the finished modules. -/

namespace TabularOntology.Import

/-- How the axioms about a term are chosen. -/
inductive ExtractionMethod
  /-- The term joins the seed of the locality module. -/
  | locality
  /-- Only what describes the term itself. -/
  | single
  deriving DecidableEq, Repr

def ExtractionMethod.name : ExtractionMethod → String
  | .locality => "locality"
  | .single => "single"

def ExtractionMethod.ofName (name : String) : Except UnknownName ExtractionMethod :=
  match Text.lowerAscii (Text.trim name) with
  | "locality" | "star" | "bottom" => .ok .locality
  | "single" => .ok .single
  | _ => .error ⟨.extractionMethod, name⟩

/-- A term that is asked for by name, with the terms related to it. -/
structure ImportTerm where
  iri : Iri
  method : ExtractionMethod := .locality
  related : List RelatedType := []
  /-- The term is taken out instead. -/
  excluded : Bool := false
  deriving DecidableEq, Repr

/-- The terms asked for from each source. -/
abbrev ImportTerms := Std.TreeMap String (List ImportTerm)

/-- Adds terms to those asked for from a source. -/
def ImportTerms.add (ts : ImportTerms) (source : String) (terms : List ImportTerm) : ImportTerms :=
  ts.insert source (ts.getD source [] ++ terms)

/-- What the terms asked for from a source amount to. -/
structure Requested where
  /-- Symbols that join the seed. -/
  locality : Signature
  /-- Axioms that are kept whatever the seed is. -/
  axioms : List Axiom
  /-- Symbols whose axioms are taken out. -/
  excluded : Signature

namespace Requested

/-- The entities that a list of terms reaches. -/
def reached (o : Ontology) (terms : List ImportTerm) : Signature :=
  terms.foldl (fun s t => s ∪ reachable o t.iri t.related) ∅

def ofTerms (o : Ontology) (terms : List ImportTerm) : Requested :=
  let kept := terms.filter fun t => !t.excluded
  let singles := reached o (kept.filter fun t => t.method = .single)
  { locality := reached o (kept.filter fun t => t.method = .locality)
    axioms := kept.flatMap (fun t => traversed o t.related (reachable o t.iri t.related)) ++
      (extractSingle o singles).axioms
    excluded := reached o (terms.filter fun t => t.excluded) }

end Requested

/-- A source with what is asked for from it. -/
structure Source where
  name : String
  ontology : Ontology
  requested : Requested

namespace Source

/-- The symbols of what is kept whatever the seed is. -/
def explicit (s : Source) : Signature :=
  s.requested.locality.insertMany (s.requested.axioms.flatMap Axiom.iris)

/-- The symbols that the source needs when it is extracted for what is routed to it. -/
def needs (s : Source) (routed : Signature) : Signature :=
  s.explicit ∪ (extract s.ontology routed).signature

/-- The symbols routed to a source, where `needs` are the needs of all sources by name. -/
def route (s : Source) (seed : Signature) (needs : List (String × Signature)) : Signature :=
  let wanted := (needs.filter fun n => n.1 ≠ s.name).foldl (fun w n => w ∪ n.2) seed
  (wanted ∩ s.ontology.signature) ∪ s.requested.locality

/-- The number of symbols that can be routed to the source and were not yet. -/
def room (s : Source) (routed : Signature) : Nat :=
  (s.ontology.signature ∪ s.requested.locality).toList.countP fun iri => !routed.contains iri

/-- The finished module of the source. -/
def module (s : Source) (base : Option String) (routed : Signature) : Ontology :=
  let o := (extract s.ontology routed).insertAll s.requested.axioms
  { o.retain fun a => !a.signature.intersects s.requested.excluded with
    iri := base.map fun b => ⟨b ++ s.name ++ "_import_module.owl"⟩
    source := s.ontology.versionIri <|> s.ontology.iri }

end Source

/-- Sources, each with the symbols routed to it so far. -/
abbrev Routing := List (Source × Signature)

namespace Routing

/-- Routes to every source what the others need now. -/
def round (seed : Signature) (st : Routing) : Routing :=
  let needs := st.map fun (s, routed) => (s.name, s.needs routed)
  st.map fun (s, routed) => (s, routed ∪ s.route seed needs)

/-- The number of symbols that were not routed yet. -/
def room (st : Routing) : Nat := st.foldr (fun (s, routed) n => s.room routed + n) 0

/-- Repeats rounds until nothing new is routed. -/
def settle (seed : Signature) (st : Routing) : Routing :=
  let next := st.round seed
  if next.room < st.room then settle seed next else st
termination_by st.room

end Routing

/-- The modules of the sources that are not empty, and the symbols that no source has. -/
structure Closure where
  modules : Ontologies := ∅
  missing : Signature := ∅

/-- All symbols of the modules. -/
def Closure.signature (c : Closure) : Signature :=
  c.modules.all.foldl (fun s o => s ∪ o.signature) ∅

/-- The sources of a catalog, nothing being routed to them. -/
def sources (catalog : Catalog) (terms : ImportTerms) : Routing :=
  catalog.toList.map fun (name, o) => (⟨name, o, .ofTerms o (terms.getD name [])⟩, ∅)

/-- The symbols of the seed that no source mentions, and the terms that are asked for from
a source that does not mention them. -/
def missing (catalog : Catalog) (terms : ImportTerms) (seed : Signature) : Signature :=
  let asked := catalog.toList.flatMap fun (name, o) =>
    ((terms.getD name []).map (·.iri)).filter fun iri => !o.signature.contains iri
  (seed.filter fun iri => !catalog.mentions iri).insertMany asked

/-- The import closure of a seed; `base` is what the IRIs of modules start with. -/
def close (catalog : Catalog) (base : Option String) (terms : ImportTerms) (seed : Signature) :
    Except ConfigError Closure :=
  match terms.keys.find? fun name => !catalog.contains name with
  | some name => .error (.unknownSource name)
  | none =>
    let settled := (sources catalog terms).settle seed
    let modules := settled.map fun (s, routed) => (s.name, s.module base routed)
    .ok { modules := .ofList (modules.filter fun m => m.2.size ≠ 0)
          missing := missing catalog terms seed }

end TabularOntology.Import
