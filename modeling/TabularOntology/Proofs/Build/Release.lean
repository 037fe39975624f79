import TabularOntology.Proofs.Build.Steps
import TabularOntology.Proofs.Closure.Terms
import TabularOntology.Proofs.Compilation.Order

/-! What is released is what was checked. A build that is done has put two ontologies together
from what it has compiled and imported: one that the reasoner was asked about, and one that was
handed to the sink. Each of them has the axioms it is made of and no others. Ontologies keep one
axiom for each key, so where two of these axioms share a key only one of them is there. What is
released was checked all the same, but for what the reasoner itself has inferred. -/

namespace TabularOntology

/-! ### Ontologies by what they are made of -/

namespace Ontology

/-- An ontology of the axioms with a property: it has no others, it has the key of each of them,
and so it has all of them where their keys tell them apart. -/
structure IsMadeOf (o : Ontology) (p : Axiom → Prop) : Prop where
  only : ∀ a ∈ o.axioms, p a
  keys : ∀ a, p a → a.key ∈ o.keys
  all : (∀ a b, p a → p b → a.key = b.key → a = b) → ∀ a, p a → a ∈ o.axioms

variable {o : Ontology} {p q : Axiom → Prop} {a : Axiom} {x : Iri}

theorem mem_keys_iff_contains : a.key ∈ o.keys ↔ o.contains a := by
  rw [keys, Std.TreeMap.mem_keys, contains, Std.TreeMap.contains_iff_mem]

theorem isMadeOf (only : ∀ a ∈ o.axioms, p a) (keys : ∀ a, p a → a.key ∈ o.keys) :
    o.IsMadeOf p := by
  refine ⟨only, keys, fun distinct a ha => ?_⟩
  refine mem_of_contains (mem_keys_iff_contains.1 (keys a ha)) fun b hb same => ?_
  exact distinct b a (only b hb) ha same

theorem isMadeOf_axioms (o : Ontology) : o.IsMadeOf (· ∈ o.axioms) :=
  isMadeOf (fun _ => id) fun a ha =>
    mem_keys_iff_contains.2 (contains_iff.2 ⟨a, ha, rfl⟩)

theorem IsMadeOf.congr (h : o.IsMadeOf p) (same : ∀ a, p a ↔ q a) : o.IsMadeOf q :=
  isMadeOf (fun a ha => (same a).1 (h.only a ha)) fun a ha => h.keys a ((same a).2 ha)

theorem IsMadeOf.insertAll (h : o.IsMadeOf p) (as : List Axiom) :
    (o.insertAll as).IsMadeOf fun a => p a ∨ a ∈ as := by
  refine isMadeOf (fun a ha => ?_) fun a ha => mem_keys_insertAll.2 ?_
  · exact (List.mem_append.1 (axioms_insertAll_subset ha)).imp_left (h.only a)
  · exact ha.imp (h.keys a) fun ha => ⟨a, ha, rfl⟩

theorem IsMadeOf.merge (h : o.IsMadeOf p) (m : Ontology) :
    (o.merge m).IsMadeOf fun a => p a ∨ a ∈ m.axioms :=
  let ⟨only, keys, all⟩ := h.insertAll m.axioms
  ⟨only, keys, all⟩

end Ontology

namespace Build

variable {b : Build} {o : Ontology} {modules : Ontologies} {x : Iri} {a : Axiom}

theorem isMadeOf_union (o : Ontology) (modules : Ontologies) :
    (union o modules).IsMadeOf fun a => a ∈ o.axioms ∨ ∃ m ∈ modules.all, a ∈ m.axioms := by
  have run (ms : List Ontology) (p : Ontology) (made : Axiom → Prop) (h : p.IsMadeOf made) :
      (ms.foldl Ontology.merge p).IsMadeOf fun a => made a ∨ ∃ m ∈ ms, a ∈ m.axioms := by
    induction ms generalizing p made with
    | nil => exact h.congr fun a => by simp
    | cons m ms ih => exact (ih _ _ (h.merge m)).congr fun a => by simp [or_assoc]
  exact run _ _ _ o.isMadeOf_axioms

theorem axioms_subset_union (o : Ontology) (modules : Ontologies) :
    o.axioms ⊆ (union o modules).axioms :=
  List.foldlRecOn modules.all _ (motive := fun p : Ontology => o.axioms ⊆ p.axioms)
    (List.Subset.refl _) fun p h m _ => List.Subset.trans h (p.axioms_subset_insertAll m.axioms)

theorem mem_imports_union :
    x ∈ (union o modules).imports ↔ x ∈ o.imports ∨ ∃ m ∈ modules.all, x ∈ m.imports := by
  have run (ms : List Ontology) (p : Ontology) :
      x ∈ (ms.foldl Ontology.merge p).imports ↔ x ∈ p.imports ∨ ∃ m ∈ ms, x ∈ m.imports := by
    induction ms generalizing p with
    | nil => simp
    | cons m ms ih =>
      have merged : x ∈ (p.merge m).imports ↔ x ∈ p.imports ∨ x ∈ m.imports := by
        simp [Ontology.merge]
      rw [List.foldl_cons, ih, merged, or_assoc]
      simp
  exact run _ _

/-- Importing modules changes nothing but the imports. -/
theorem foldl_addImport (o : Ontology) (xs : List Iri) :
    (xs.foldl Ontology.addImport o).axioms = o.axioms ∧
      ∀ x, x ∈ (xs.foldl Ontology.addImport o).imports ↔ x ∈ o.imports ∨ x ∈ xs := by
  induction xs generalizing o with
  | nil => simp
  | cons y xs ih =>
    obtain ⟨axioms, imports⟩ := ih (o.addImport y)
    refine ⟨axioms, fun x => ?_⟩
    have added : x ∈ (o.addImport y).imports ↔ x = y ∨ x ∈ o.imports := by
      rw [Ontology.addImport, Signature.mem_insert_iff]
    rw [List.foldl_cons, imports, added, List.mem_cons]
    tauto

/-- What a release is made of. -/
theorem isMadeOf_release (b : Build) (o : Ontology) (modules : Ontologies) (inferred : List Axiom) :
    (b.release o modules inferred).IsMadeOf fun a => a ∈ o.axioms ∨
      (b.config.mergeImports = true ∧ ∃ m ∈ modules.all, a ∈ m.axioms) ∨
      b.config.addInferred = true ∧ a ∈ inferred := by
  unfold release
  dsimp only
  cases b.config.mergeImports with
  | true =>
    have merged := isMadeOf_union o modules
    cases b.config.addInferred with
    | true => exact (merged.insertAll inferred).congr fun a => by simp [or_assoc]
    | false => exact merged.congr fun a => by simp
  | false =>
    obtain ⟨axioms, _⟩ := foldl_addImport o (modules.all.filterMap (·.iri))
    have kept := Ontology.isMadeOf_axioms ((modules.all.filterMap (·.iri)).foldl .addImport o)
    rw [axioms] at kept
    cases b.config.addInferred with
    | true => exact (kept.insertAll inferred).congr fun a => by simp
    | false => exact kept.congr fun a => by simp

/-- A release has nothing from the tables and the sources but what is in their union. -/
theorem mem_union_of_mem_release {inferred : List Axiom}
    (ha : a ∈ (b.release o modules inferred).axioms) :
    a ∈ (union o modules).axioms ∨ b.config.addInferred = true ∧ a ∈ inferred := by
  have own : (if b.config.mergeImports then union o modules
      else (modules.all.filterMap (·.iri)).foldl Ontology.addImport o).axioms ⊆
      (union o modules).axioms := by
    split
    · exact List.Subset.refl _
    · rw [(foldl_addImport o _).1]
      exact axioms_subset_union o modules
  unfold release at ha
  dsimp only at ha
  split at ha
  · next wanted =>
    exact (List.mem_append.1 (Ontology.axioms_insertAll_subset ha)).imp (fun ha => own ha)
      fun ha => ⟨wanted, ha⟩
  · exact .inl (own ha)

theorem mem_imports_release {inferred : List Axiom} (ho : x ∉ o.imports)
    (hm : ∀ m ∈ modules.all, x ∉ m.imports) : x ∈ (b.release o modules inferred).imports ↔
      b.config.mergeImports = false ∧ ∃ m ∈ modules.all, m.iri = some x := by
  have own : x ∈ (if b.config.mergeImports then union o modules
      else (modules.all.filterMap (·.iri)).foldl Ontology.addImport o).imports ↔
      b.config.mergeImports = false ∧ ∃ m ∈ modules.all, m.iri = some x := by
    split
    · next merged =>
      rw [mem_imports_union]
      simp only [merged, ho, false_or, Bool.true_eq_false, false_and, iff_false, not_exists,
        not_and]
      exact hm
    · next kept =>
      rw [(foldl_addImport o _).2]
      simp [kept, ho]
  unfold release
  dsimp only
  split
  · rw [(Ontology.insertAll_unchanged _ inferred).2.2.2, own]
  · exact own

/-- What a finished build has asked about what it gathered, what it was answered, and what it has
put together and handed over. -/
structure Releases (b : Build) (c : Compilation) (k : Import.Closure) (v : Reasoner.Verdict)
    (question released : Ontology) : Prop where
  checked : b.run.checked = [question]
  asked : question.IsMadeOf fun a => a ∈ c.ontology.axioms ∨ k.Has a
  answer : b.reasoner question = .ok v
  verdict : b.run.verdict = some v
  ontology : b.run.ontology = some released
  shipped : released.IsMadeOf fun a => a ∈ c.ontology.axioms ∨
    (b.config.mergeImports = true ∧ k.Has a) ∨
    b.config.addInferred = true ∧ a ∈ v.inferred.getD []
  known : ∀ a ∈ released.axioms, a ∈ question.axioms ∨
    b.config.addInferred = true ∧ a ∈ v.inferred.getD []
  imports : ∀ x, x ∈ released.imports ↔
    b.config.mergeImports = false ∧ ∃ m ∈ k.modules.all, m.iri = some x
  modules : b.run.modules = k.modules
  accepted : ∀ f ∈ b.config.formats, b.sink ⟨f, released, k.modules⟩ = none
  deliveries : b.run.deliveries = b.config.formats.map fun f => ⟨⟨f, released, k.modules⟩, none⟩

/-- Import modules do not import anything. -/
theorem imports_of_gathers {settings : Settings} {catalog : Catalog} {c : Compilation}
    {k : Import.Closure} (h : b.Gathers settings catalog c k) :
    ∀ m ∈ k.modules.all, m.imports = ∅ := by
  intro m hm
  obtain ⟨name, hm⟩ := Ontologies.mem_all.1 hm
  have finished := Import.Request.isFinished_of_close
    (q := ⟨catalog, b.importTerms, c.externalSignature⟩) h.closed
  obtain ⟨_, _, _, headed, _⟩ := finished.headed name m hm
  exact headed.imports

theorem exists_mem_all_iff_has {k : Import.Closure} :
    (∃ m ∈ k.modules.all, a ∈ m.axioms) ↔ k.Has a := by
  simp only [Ontologies.mem_all, Import.Closure.Has, Import.Closure.HasFrom]
  constructor
  · rintro ⟨m, ⟨name, hm⟩, ha⟩
    exact ⟨name, m, hm, ha⟩
  · rintro ⟨name, m, hm, ha⟩
    exact ⟨m, ⟨name, hm⟩, ha⟩

/-- The formats that are written are the ones asked for, each once and in their order. -/
theorem formats_sublist (c : Config) :
    c.formats.Sublist OutputFormat.all ∧ ∀ f, f ∈ c.formats ↔ f ∈ c.outputFormats := by
  refine ⟨List.filter_sublist, fun f => ?_⟩
  have all : f ∈ OutputFormat.all := by cases f <;> decide
  simp [Config.formats, all]

theorem mem_stages_of_done (done : b.run.stage = .done) : .reasoning ∈ b.run.stages := by
  obtain ⟨o, -, run, h⟩ | ⟨-, n, -, failed⟩ := b.run_ends
  · have entered : .reasoning ∈ o.stages := by
      rw [h.stages]
      decide
    rw [run]
    exact List.mem_append_left _ entered
  · cases done.symm.trans failed.stage_eq

theorem exists_releases (b : Build) (done : b.run.stage = .done) :
    ∃ settings catalog c k v question released, b.Gathers settings catalog c k ∧
      b.Releases c k v question released := by
  obtain ⟨settings, catalog, c, k, gathers, rest⟩ := exists_gathers (mem_stages_of_done done)
  obtain ⟨o, ended, run, -⟩ | ⟨-, n, -, failed⟩ := b.run_ends
  swap
  · cases done.symm.trans failed.stage_eq
  obtain ⟨o', reasoning, writing⟩ := bind_eq_ok.1 (rest.symm.trans ended)
  obtain ⟨v, report, answer, -, rfl⟩ := reason_eq_ok reasoning
  obtain ⟨accepted, rfl⟩ := write_eq_ok writing
  have base : c.ontology.imports = ∅ := by
    obtain ⟨d, finished⟩ := Compilation.exists_finishes gathers.compiled
    rw [finished.ontology, (Ontology.insertAll_unchanged _ _).2.2.2]
    rfl
  have bare := imports_of_gathers gathers
  refine ⟨settings, catalog, c, k, v, union c.ontology k.modules,
    b.release c.ontology k.modules (v.inferred.getD []), gathers, ?_⟩
  exact {
    answer, accepted
    checked := by rw [run]; rfl
    asked := (isMadeOf_union c.ontology k.modules).congr fun a => by rw [exists_mem_all_iff_has]
    verdict := by rw [run]; rfl
    ontology := by rw [run]; rfl
    shipped := (b.isMadeOf_release c.ontology k.modules _).congr fun a => by
      rw [exists_mem_all_iff_has]
    known := fun a => mem_union_of_mem_release
    imports := fun x => mem_imports_release (by simp [base]) fun m hm => by simp [bare m hm]
    modules := by rw [run]; rfl
    deliveries := by rw [run]; rfl }

/-- A build that is done has asked the reasoner once, about what it has compiled together with
what it has imported, and has released what was checked in each of the formats. -/
theorem released_as_checked (b : Build) (done : b.run.stage = .done) :
    (∃ settings catalog c k v question released, b.Gathers settings catalog c k ∧
      b.Releases c k v question released) ∧
    b.config.formats.Sublist OutputFormat.all ∧ b.config.formats.Nodup ∧
    ∀ f, f ∈ b.config.formats ↔ f ∈ b.config.outputFormats := by
  obtain ⟨ordered, asked⟩ := formats_sublist b.config
  exact ⟨exists_releases b done, ordered, nodup_formats b.config, asked⟩

/-! ### Two sources whose axioms may have one key -/

/-- The first class is below the second one. -/
def below (x y : Iri) : Axiom := .subClass (.named x) (.named y)

/-- A build without tables that imports one axiom from each of two sources, of which it asks for
the ancestors of a class, and that releases them as parts of the ontology. -/
def ofSources (x x' y y' : Iri) : Build where
  config := { baseIri := "http://example.org/", mergeImports := true }
  catalog := Import.pairOf (below x x') (below y y')
  reasoner _ := .ok { consistent := true }
  sink _ := none
  tables := []
  importTerms := .gather
    [("left", [{ iri := x, method := .single, related := [.ancestors] }]),
      ("right", [{ iri := y, method := .single, related := [.ancestors] }])]

theorem mem_traversed_below {x x' : Iri} (h : below x x' ∈ o.axioms) :
    below x x' ∈ Import.traversed o [.ancestors] (Import.reachable o x [.ancestors]) := by
  have relates : Import.Relates .ancestors (below x x') x x' := .ancestor (.classes x x')
  exact Import.mem_traversed.2
    ⟨h, .ancestors, List.mem_cons_self, x, x', Import.mem_reachable.2 .refl, relates⟩

/-- Whatever the four classes are, both axioms are imported. -/
theorem has_ofSources {x x' y y' : Iri} {settings : Settings} {catalog : Catalog} {c : Compilation}
    {k : Import.Closure} (h : (ofSources x x' y y').Gathers settings catalog c k) :
    k.Has (below x x') ∧ k.Has (below y y') := by
  let b := ofSources x x' y y'
  obtain rfl : b.catalog = catalog := Except.ok.inj h.sources
  have finished := Import.Request.isFinished_of_close
    (q := ⟨b.catalog, b.importTerms, c.externalSignature⟩) h.closed
  have terms : b.importTerms.getD "left" [] =
        [{ iri := x, method := .single, related := [.ancestors] }] ∧
      b.importTerms.getD "right" [] =
        [{ iri := y, method := .single, related := [.ancestors] }] := by
    simp [b, ofSources, Import.ImportTerms.gather, Import.ImportTerms.add, Std.TreeMap.getD_insert]
  obtain ⟨left, right⟩ := Import.stored_pairOf (below x x') (below y y')
  refine ⟨⟨"left", ?_⟩, "right", ?_⟩
  · exact Import.Request.hasFrom_of_traversed finished (Import.Request.mem_sources_of_stored left)
      (by simp [terms]) (terms.1 ▸ List.mem_cons_self)
      (mem_traversed_below (Import.mem_axioms_single _))
  · exact Import.Request.hasFrom_of_traversed finished (Import.Request.mem_sources_of_stored right)
      (by simp [terms]) (terms.2 ▸ List.mem_cons_self)
      (mem_traversed_below (Import.mem_axioms_single _))

/-- Where the keys of the two axioms are different, both of them are checked and released. -/
theorem released_as_checked_merged :
    let build := ofSources ⟨"urn:a"⟩ ⟨"urn:b"⟩ ⟨"urn:b"⟩ ⟨"urn:c"⟩
    build.run.stage = .done ∧ ∃ released, build.run.ontology = some released ∧
      (below ⟨"urn:a"⟩ ⟨"urn:b"⟩).key ∈ released.keys ∧
      (below ⟨"urn:b"⟩ ⟨"urn:c"⟩).key ∈ released.keys := by
  intro build
  have done : build.run.stage = .done := by decide +kernel
  obtain ⟨⟨_, _, _, _, _, _, released, gathers, releases⟩, -⟩ := released_as_checked build done
  obtain ⟨left, right⟩ := has_ofSources gathers
  exact ⟨done, released, releases.ontology, releases.shipped.keys _ (.inr (.inl ⟨rfl, left⟩)),
    releases.shipped.keys _ (.inr (.inl ⟨rfl, right⟩))⟩

/-- Where the two axioms have the same key, both of them are imported, but only one of them is
checked and released. -/
theorem checked_without_imported :
    let build := ofSources ⟨"urn:a"⟩ ⟨"urn:b> <urn:c"⟩ ⟨"urn:a> <urn:b"⟩ ⟨"urn:c"⟩
    build.run.stage = .done ∧ ∃ imported, (∃ m ∈ build.run.modules.all, imported ∈ m.axioms) ∧
      ∃ question, build.run.checked = [question] ∧ imported ∉ question.axioms ∧
        ∃ released, build.run.ontology = some released ∧ imported ∉ released.axioms := by
  intro build
  have done : build.run.stage = .done := by decide +kernel
  obtain ⟨_, _, _, k, v, question, released, gathers, releases⟩ := exists_releases build done
  obtain ⟨left, right⟩ := has_ofSources gathers
  rw [← exists_mem_all_iff_has, ← releases.modules] at left right
  have key : (below ⟨"urn:a"⟩ ⟨"urn:b> <urn:c"⟩).key = (below ⟨"urn:a> <urn:b"⟩ ⟨"urn:c"⟩).key := by
    decide
  have different : below ⟨"urn:a"⟩ ⟨"urn:b> <urn:c"⟩ ≠ below ⟨"urn:a> <urn:b"⟩ ⟨"urn:c"⟩ := by
    simp [below]
  have unshipped {a : Axiom} (h : a ∉ question.axioms) : a ∉ released.axioms := fun ha => by
    rcases releases.known a ha with ha | ⟨added, -⟩
    · exact h ha
    · cases added
  by_cases first : below ⟨"urn:a"⟩ ⟨"urn:b> <urn:c"⟩ ∈ question.axioms
  · have second := fun h => different (question.distinctKeys _ first _ h key)
    exact ⟨done, _, right, question, releases.checked, second, released, releases.ontology,
      unshipped second⟩
  · exact ⟨done, _, left, question, releases.checked, first, released, releases.ontology,
      unshipped first⟩

end Build

end TabularOntology
