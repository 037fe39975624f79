import Mathlib.Data.List.Dedup
import Mathlib.Logic.Relation
import TabularOntology.Proofs.Ontology.Members

/-! Searches over an index of axioms. An entity that was met is looked up once: the axioms that
mention it are gone through, some of them are picked, and the entities they lead to are met as
well. In whatever order entities are looked up and join, a search ends, has then met just the
entities that some path leads to, and has picked just what one of these picks. -/

namespace TabularOntology.Import

open Relation

/-- What a search makes of an axiom that is found under an entity. Since axioms are found under
what they mention, no other axiom can be picked or lead anywhere. -/
structure Lookup where
  picks : Iri → Axiom → Bool
  leads : Iri → Axiom → List Iri
  mem_of_picks : ∀ {x a}, picks x a → x ∈ a.iris
  mem_of_leads : ∀ {x y a}, y ∈ leads x a → x ∈ a.iris

/-- The axioms that an index lists under an entity. -/
def uses (o : Ontology) (x : Iri) : List Axiom := o.axioms.filter (·.iris.contains x)

theorem mem_uses {o : Ontology} {x : Iri} {a : Axiom} :
    a ∈ uses o x ↔ a ∈ o.axioms ∧ x ∈ a.iris := by
  simp [uses]

namespace Lookup

/-- Some axiom leads from the first entity to the second. -/
def Leads (l : Lookup) (o : Ontology) (x y : Iri) : Prop := ∃ a ∈ o.axioms, y ∈ l.leads x a

/-- Some path leads to the entity. -/
def Reached (l : Lookup) (o : Ontology) (starts : Signature) (y : Iri) : Prop :=
  ∃ x ∈ starts, ReflTransGen (l.Leads o) x y

/-- All that axioms lead to. -/
def ends (l : Lookup) (o : Ontology) : List Iri :=
  o.axioms.flatMap fun a => a.iris.flatMap fun x => l.leads x a

theorem mem_ends {l : Lookup} {o : Ontology} {x y : Iri} (h : l.Leads o x y) : y ∈ l.ends o := by
  obtain ⟨a, ha, hy⟩ := h
  exact List.mem_flatMap.2 ⟨a, ha, List.mem_flatMap.2 ⟨x, l.mem_of_leads hy, hy⟩⟩

end Lookup

/-- The entities met so far, those of them that were not looked up yet, and what was picked. -/
structure Search where
  seen : Signature
  pending : List Iri
  picked : List Axiom

namespace Search

/-- A pending entity is looked up. What its axioms lead to and was not met yet becomes pending. -/
inductive Step (l : Lookup) (o : Ontology) : Search → Search → Prop
  | look {seen : Signature} {x : Iri} {pending rest fresh next : List Iri} {picked : List Axiom}
      (hp : pending.Perm (x :: rest)) (once : fresh.Nodup)
      (hf : ∀ y, y ∈ fresh ↔ y ∉ seen ∧ ∃ a ∈ uses o x, y ∈ l.leads x a)
      (hn : next.Perm (fresh ++ rest)) :
      Step l o ⟨seen, pending, picked⟩
        ⟨seen.insertMany fresh, next, picked ++ (uses o x).filter (l.picks x)⟩

/-- What holds of a search at any time: nothing was met or picked without a reason, and an
entity that is not pending any more has met and picked all that it can. -/
structure Valid (l : Lookup) (o : Ontology) (starts : Signature) (s : Search) : Prop where
  starts_seen : ∀ x ∈ starts, x ∈ s.seen
  reached : ∀ x ∈ s.seen, l.Reached o starts x
  pending_seen : ∀ x ∈ s.pending, x ∈ s.seen
  picked_by : ∀ a ∈ s.picked, a ∈ o.axioms ∧ ∃ x ∈ s.seen, l.picks x a
  looked_up : ∀ x ∈ s.seen, x ∉ s.pending →
    (∀ y, l.Leads o x y → y ∈ s.seen) ∧ ∀ a ∈ o.axioms, l.picks x a → a ∈ s.picked

section
variable {l : Lookup} {o : Ontology} {starts : Signature} {s t : Search} {x : Iri} {a : Axiom}

theorem valid_start {pending : List Iri} (hp : pending.Perm starts.toList) :
    Valid l o starts ⟨starts, pending, []⟩ := by
  have mem_pending : ∀ x, x ∈ pending ↔ x ∈ starts := fun x =>
    hp.mem_iff.trans Std.TreeSet.mem_toList
  refine ⟨fun _ => id, fun x hx => ⟨x, hx, .refl⟩, fun x => (mem_pending x).1, nofun, ?_⟩
  intro x hx done
  exact absurd ((mem_pending x).2 hx) done

theorem exists_uses_iff {x y : Iri} : (∃ a ∈ uses o x, y ∈ l.leads x a) ↔ l.Leads o x y := by
  constructor
  · rintro ⟨a, ha, hy⟩
    exact ⟨a, (mem_uses.1 ha).1, hy⟩
  · rintro ⟨a, ha, hy⟩
    exact ⟨a, mem_uses.2 ⟨ha, l.mem_of_leads hy⟩, hy⟩

theorem mem_filter_uses : a ∈ (uses o x).filter (l.picks x) ↔ a ∈ o.axioms ∧ l.picks x a := by
  rw [List.mem_filter, mem_uses]
  constructor
  · rintro ⟨⟨ha, -⟩, picks⟩
    exact ⟨ha, picks⟩
  · rintro ⟨ha, picks⟩
    exact ⟨⟨ha, l.mem_of_picks picks⟩, picks⟩

theorem Valid.step (hs : Valid l o starts s) (h : Step l o s t) : Valid l o starts t := by
  obtain @⟨seen, x, pending, rest, fresh, next, picked, hp, once, hf, hn⟩ := h
  have mem_pending : ∀ y, y ∈ pending ↔ y = x ∨ y ∈ rest := by simp [hp.mem_iff]
  have mem_next : ∀ y, y ∈ next ↔ y ∈ fresh ∨ y ∈ rest := by simp [hn.mem_iff]
  have mem_seen : ∀ y, y ∈ seen.insertMany fresh ↔ y ∈ seen ∨ y ∈ fresh := by simp
  have mem_fresh : ∀ y, y ∈ fresh ↔ y ∉ seen ∧ l.Leads o x y := fun y =>
    (hf y).trans (and_congr_right fun _ => exists_uses_iff)
  have seen_x : x ∈ seen := hs.pending_seen x ((mem_pending x).2 (.inl rfl))
  refine ⟨fun y hy => ?_, fun y hy => ?_, fun y hy => ?_, fun a ha => ?_, fun y hy done => ?_⟩
  · exact (mem_seen y).2 (.inl (hs.starts_seen y hy))
  · rcases (mem_seen y).1 hy with hy | hy
    · exact hs.reached y hy
    · obtain ⟨z, hz, path⟩ := hs.reached x seen_x
      exact ⟨z, hz, path.tail ((mem_fresh y).1 hy).2⟩
  · rcases (mem_next y).1 hy with hy | hy
    · exact (mem_seen y).2 (.inr hy)
    · exact (mem_seen y).2 (.inl (hs.pending_seen y ((mem_pending y).2 (.inr hy))))
  · rcases List.mem_append.1 ha with ha | ha
    · obtain ⟨ha, y, hy, picks⟩ := hs.picked_by a ha
      exact ⟨ha, y, (mem_seen y).2 (.inl hy), picks⟩
    · obtain ⟨ha, picks⟩ := mem_filter_uses.1 ha
      exact ⟨ha, x, (mem_seen x).2 (.inl seen_x), picks⟩
  · have not_fresh : y ∉ fresh := fun h => done ((mem_next y).2 (.inl h))
    have before : y ∈ seen := ((mem_seen y).1 hy).resolve_right not_fresh
    by_cases same : y = x
    · -- the entity that is looked up now
      subst same
      refine ⟨fun z lead => (mem_seen z).2 ?_, fun a ha picks => ?_⟩
      · exact or_iff_not_imp_left.2 fun hz => (mem_fresh z).2 ⟨hz, lead⟩
      · exact List.mem_append_right _ (mem_filter_uses.2 ⟨ha, picks⟩)
    · have not_pending : y ∉ pending := fun h =>
        done ((mem_next y).2 (.inr (((mem_pending y).1 h).resolve_left same)))
      obtain ⟨leads, picks⟩ := hs.looked_up y before not_pending
      exact ⟨fun z lead => (mem_seen z).2 (.inl (leads z lead)),
        fun a ha pick => List.mem_append_left _ (picks a ha pick)⟩

theorem Valid.run (hs : Valid l o starts s) (h : ReflTransGen (Step l o) s t) :
    Valid l o starts t := by
  induction h with
  | refl => exact hs
  | tail _ h ih => exact ih.step h

/-! ### The end of a search -/

/-- How much is left to do: what can still be met, and what is pending. -/
def remaining (l : Lookup) (o : Ontology) (s : Search) : Nat :=
  ((l.ends o).filter fun x => !s.seen.contains x).length + s.pending.length

/-- Entities that join can not be met any more, and only the one looked up is pending no more. -/
theorem Step.remaining_lt (h : Step l o s t) : remaining l o t < remaining l o s := by
  obtain @⟨seen, x, pending, rest, fresh, next, picked, hp, once, hf, hn⟩ := h
  have joining : fresh.length ≤
      (((l.ends o).filter fun y => !seen.contains y).filter fun y => fresh.contains y).length := by
    refine (once.subperm fun y hy => ?_).length_le
    obtain ⟨new, lead⟩ := (hf y).1 hy
    simp [new, hy, Lookup.mem_ends (exists_uses_iff.1 lead)]
  have others : (l.ends o).filter (fun y => !(seen.insertMany fresh).contains y) =
      ((l.ends o).filter fun y => !seen.contains y).filter fun y => !fresh.contains y := by
    rw [List.filter_filter]
    refine List.filter_congr fun y _ => ?_
    simp [Bool.and_comm]
  have parts := List.length_eq_length_filter_add (l := (l.ends o).filter fun y => !seen.contains y)
    (fun y => fresh.contains y)
  simp only [remaining, others, hn.length_eq, hp.length_eq, List.length_append, List.length_cons]
  omega

theorem acc (l : Lookup) (o : Ontology) (s : Search) : Acc (fun t s => Step l o s t) s :=
  Subrelation.accessible Step.remaining_lt
    (InvImage.accessible (remaining l o) (Nat.lt_wfRel.wf.apply _))

/-- A search that can do nothing more has looked up all entities that it met. -/
theorem pending_eq_nil (h : ∀ t, ¬ Step l o s t) : s.pending = [] := by
  obtain ⟨seen, pending, picked⟩ := s
  cases pending with
  | nil => rfl
  | cons x rest =>
    let found := ((uses o x).flatMap (l.leads x)).filter fun y => !seen.contains y
    have mem_found : ∀ y, y ∈ found.dedup ↔ y ∉ seen ∧ ∃ a ∈ uses o x, y ∈ l.leads x a := by
      simp [found, List.mem_dedup, and_comm]
    exact absurd (.look (.refl _) (List.nodup_dedup found) mem_found (.refl _)) (h _)

theorem Valid.mem_seen_iff (hs : Valid l o starts s) (h : s.pending = []) :
    x ∈ s.seen ↔ l.Reached o starts x := by
  constructor
  · exact hs.reached x
  · rintro ⟨y, hy, path⟩
    induction path with
    | refl => exact hs.starts_seen y hy
    | tail _ lead ih => exact (hs.looked_up _ ih (by rw [h]; nofun)).1 _ lead

theorem Valid.mem_picked_iff (hs : Valid l o starts s) (h : s.pending = []) :
    a ∈ s.picked ↔ a ∈ o.axioms ∧ ∃ x, l.Reached o starts x ∧ l.picks x a := by
  constructor
  · intro ha
    obtain ⟨ha, x, hx, picks⟩ := hs.picked_by a ha
    exact ⟨ha, x, hs.reached x hx, picks⟩
  · rintro ⟨ha, x, hx, picks⟩
    exact (hs.looked_up x ((hs.mem_seen_iff h).2 hx) (by rw [h]; nofun)).2 a ha picks

/-- Whatever a search does, it ends, and then it has met what paths lead to. -/
theorem exact_in_any_order {pending : List Iri} (hp : pending.Perm starts.toList) :
    Acc (fun t s => Step l o s t) ⟨starts, pending, []⟩ ∧
    ∀ s, ReflTransGen (Step l o) ⟨starts, pending, []⟩ s → (∀ t, ¬ Step l o s t) →
      (∀ x, x ∈ s.seen ↔ l.Reached o starts x) ∧
      ∀ a, a ∈ s.picked ↔ a ∈ o.axioms ∧ ∃ x, l.Reached o starts x ∧ l.picks x a := by
  refine ⟨acc l o _, fun s run last => ?_⟩
  have valid := (valid_start (l := l) (o := o) hp).run run
  have done := pending_eq_nil last
  exact ⟨fun x => valid.mem_seen_iff done, fun a => valid.mem_picked_iff done⟩

end

end Search

end TabularOntology.Import
