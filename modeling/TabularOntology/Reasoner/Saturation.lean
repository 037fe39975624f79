import TabularOntology.Reasoner.Facts

/-! Saturation: the superclasses of every registered class and the classes of every
individual, computed in rounds. A round closes each set once under the told facts, where
the sets that were closed earlier in the round are used in their closed form; saturation
ends with a round that changes nothing. -/

namespace TabularOntology.Reasoner

namespace Facts

/-- Adds the superclasses of the classes in a set. -/
def closeSupers (supers : Links) (s : Signature) : Signature :=
  s.foldl (fun t c => t ∪ supers.of c) s

/-- Adds the classes whose conjunctions are in a set. -/
def closeConjunctions (f : Facts) (s : Signature) : Signature :=
  f.conjunctions.foldl (fun t (cs, d) => if cs.all t.contains then t.insert d else t) s

/-- Adds what follows from the existentials of the classes in a set: the domains of their
properties, and the empty class if the filler is empty. -/
def closeExistentials (f : Facts) (supers : Links) (s : Signature) : Signature :=
  f.existentials.foldl (fun t (c, p, d) =>
    if t.contains c then
      let t := if (supers.of d).contains Vocabulary.nothing then t.insert Vocabulary.nothing else t
      t ∪ f.domains.of p
    else t) s

/-- Adds the empty class if two classes in a set are disjoint. -/
def closeDisjoint (f : Facts) (s : Signature) : Signature :=
  if f.disjoint.any fun (c, d) => s.contains c && s.contains d then s.insert Vocabulary.nothing
  else s

/-- Closes a set of classes that have a member in common, once. -/
def close (f : Facts) (supers : Links) (s : Signature) : Signature :=
  f.closeDisjoint (f.closeExistentials supers (f.closeConjunctions (closeSupers supers s)))

/-- Closes the superclasses of one class; tells whether any set has grown so far. -/
def classifyOne (f : Facts) (supers : Links) (grown : Bool) (c : Iri) : Links × Bool :=
  let closed := f.close supers (supers.of c)
  if closed.size = (supers.of c).size then (supers, grown) else (supers.insert c closed, true)

/-- One round over the superclasses of all registered classes. -/
def classifyRound (f : Facts) (supers : Links) : Links × Bool :=
  f.classes.foldl (fun (supers, grown) c => f.classifyOne supers grown c) (supers, false)

/-- The saturated superclasses, and how many of the given rounds are left. -/
def classify (f : Facts) : (rounds : Nat) → Links → Option (Links × Nat)
  | 0, _ => none
  | rounds + 1, supers =>
    match f.classifyRound supers with
    | (next, true) => f.classify rounds next
    | (next, false) => some (next, rounds)

/-- One round over the classes of all individuals. -/
def realizeRound (f : Facts) (supers : Links) (members : List (Individual × Signature)) :
    List (Individual × Signature) :=
  members.map fun (i, s) => (i, f.close supers s)

/-- Whether a round made some set larger. -/
def hasGrown (members next : List (Individual × Signature)) : Bool :=
  (members.zip next).any fun (m, n) => m.2.size != n.2.size

/-- The saturated classes of the individuals. -/
def realize (f : Facts) (supers : Links) :
    (rounds : Nat) → List (Individual × Signature) → Option (List (Individual × Signature))
  | 0, _ => none
  | rounds + 1, members =>
    let next := f.realizeRound supers members
    if hasGrown members next then f.realize supers rounds next else some members

end Facts

/-- The saturated sets of an ontology. -/
structure Saturation where
  facts : Facts
  /-- The superclasses of each registered class. -/
  supers : Links
  /-- The classes of each individual. -/
  members : List (Individual × Signature)

/-- Saturates an ontology within a number of rounds. -/
def saturate (rounds : Nat) (o : Ontology) : Option Saturation := do
  let facts := Facts.ofOntology o
  let (supers, rest) ← facts.classify rounds facts.supers
  let members ← facts.realize supers rest facts.members
  some ⟨facts, supers, members⟩

end TabularOntology.Reasoner
