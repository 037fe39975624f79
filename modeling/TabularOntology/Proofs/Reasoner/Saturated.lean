import TabularOntology.Proofs.Reasoner.Calculus
import TabularOntology.Proofs.Signature
import TabularOntology.Reasoner.Saturation

/-! What saturation computes. A class is put into a set only if it follows from what is in the
set already, and a round that changes nothing leaves sets to which no rule of the calculus
adds anything. So the superclasses of a registered class are just the classes that follow
from it. -/

namespace TabularOntology

theorem Links.of_insert {ls : Links} {c x : Iri} {s : Signature} :
    Links.of (ls.insert c s) x = if x = c then s else ls.of x := by
  rw [Links.of, Std.TreeMap.getD_insert]
  by_cases h : x = c
  · simp [h]
  · simp [h, Links.of, Ne.symm h]

theorem Links.mem_of_insert {ls : Links} {c x d : Iri} {s : Signature} :
    d ∈ Links.of (ls.insert c s) x ↔ (x = c ∧ d ∈ s) ∨ (x ≠ c ∧ d ∈ ls.of x) := by
  rw [Links.of_insert]
  by_cases h : x = c <;> simp [h]

namespace Reasoner

variable {fs : List Fact} {B : Set Iri} {c d e p : Iri} {cs : List Iri} {i : Individual}

/-! ### Sorted facts -/

theorem mem_filterMap_iff {α : Type} {sort : Fact → Option α} {a : α} {f : Fact}
    (h : ∀ g, sort g = some a ↔ g = f) : a ∈ fs.filterMap sort ↔ f ∈ fs := by
  simp [List.mem_filterMap, h]

/-- The classes that facts give an individual directly. -/
inductive Given (fs : List Fact) (i : Individual) : Iri → Prop
  | member {c : Iri} (h : .member i c ∈ fs) : Given fs i c
  | source {p c : Iri} {j : Individual} (h : .related p i j ∈ fs) (hc : .domain p c ∈ fs) :
      Given fs i c
  | target {p c : Iri} {j : Individual} (h : .related p j i ∈ fs) (hc : .range p c ∈ fs) :
      Given fs i c

namespace Facts

theorem mem_classes_ofList : c ∈ (ofList fs).classes ↔
    c = Vocabulary.nothing ∨ .registered c ∈ fs := by
  rw [ofList, Std.TreeSet.mem_ofList, List.contains_iff_mem, List.mem_cons]
  exact or_congr_right (mem_filterMap_iff fun g => by cases g <;> simp)

theorem mem_supers_ofList : d ∈ (ofList fs).supers.of c ↔
    c ∈ (ofList fs).classes ∧ d = c ∨ .subclass c d ∈ fs := by
  rw [ofList, Links.mem_of_ofPairs, List.mem_append]
  refine or_congr ?_ (mem_filterMap_iff fun g => by cases g <;> simp)
  rw [Std.TreeSet.mem_ofList, List.contains_iff_mem]
  simp only [List.mem_map, Prod.mk.injEq]
  constructor
  · rintro ⟨x, hx, rfl, rfl⟩
    exact ⟨hx, rfl⟩
  · rintro ⟨h, rfl⟩
    exact ⟨d, h, rfl, rfl⟩

theorem mem_conjunctions_ofList : (cs, d) ∈ (ofList fs).conjunctions ↔ .conjunction cs d ∈ fs :=
  mem_filterMap_iff fun g => by cases g <;> simp

theorem mem_existentials_ofList :
    (c, p, d) ∈ (ofList fs).existentials ↔ .existential c p d ∈ fs :=
  mem_filterMap_iff fun g => by cases g <;> simp

theorem mem_disjoint_ofList : (c, d) ∈ (ofList fs).disjoint ↔ .disjoint c d ∈ fs :=
  mem_filterMap_iff fun g => by cases g <;> simp

theorem mem_domains_ofList : c ∈ (ofList fs).domains.of p ↔ .domain p c ∈ fs := by
  rw [ofList, Links.mem_of_ofPairs]
  exact mem_filterMap_iff fun g => by cases g <;> simp

theorem mem_nonmembers_ofList : (i, c) ∈ (ofList fs).nonmembers ↔ .nonmember i c ∈ fs :=
  mem_filterMap_iff fun g => by cases g <;> simp

/-- An individual is given just the classes that some fact gives it. -/
theorem exists_mem_classesOf_iff {domains ranges : Links}
    (hd : ∀ p c, c ∈ domains.of p ↔ .domain p c ∈ fs)
    (hr : ∀ p c, c ∈ ranges.of p ↔ .range p c ∈ fs) :
    (∃ f ∈ fs, c ∈ classesOf domains ranges i f) ↔ Given fs i c := by
  constructor
  · rintro ⟨f, hf, hc⟩
    cases f with
    | member k d =>
      rw [classesOf] at hc
      split at hc
      · next same => exact List.mem_singleton.1 hc ▸ same ▸ .member hf
      · exact absurd hc List.not_mem_nil
    | related q k l =>
      rw [classesOf, List.mem_append] at hc
      rcases hc with hc | hc
      · split at hc
        · next same => exact .source (same ▸ hf) ((hd q c).1 (Std.TreeSet.mem_toList.1 hc))
        · exact absurd hc List.not_mem_nil
      · split at hc
        · next same => exact .target (same ▸ hf) ((hr q c).1 (Std.TreeSet.mem_toList.1 hc))
        · exact absurd hc List.not_mem_nil
    | _ => exact absurd hc List.not_mem_nil
  · intro given
    cases given with
    | member hf => exact ⟨_, hf, by simp [classesOf]⟩
    | source hf hp => exact ⟨_, hf, by simp [classesOf, hd, hp]⟩
    | target hf hp => exact ⟨_, hf, by simp [classesOf, hr, hp]⟩

theorem mem_iff_given {s : Signature} (h : (i, s) ∈ (ofList fs).members) :
    c ∈ s ↔ Given fs i c := by
  obtain ⟨j, _, same⟩ := List.mem_map.1 h
  obtain ⟨rfl, rfl⟩ := Prod.mk.inj same
  rw [Std.TreeSet.mem_ofList, List.contains_iff_mem, List.mem_flatMap]
  refine exists_mem_classesOf_iff (fun p c => mem_domains_ofList) fun p c => ?_
  rw [Links.mem_of_ofPairs]
  exact mem_filterMap_iff fun g => by cases g <;> simp

theorem exists_mem_members_iff : (∃ s, (i, s) ∈ (ofList fs).members) ↔ .individual i ∈ fs := by
  have met : i ∈ (ofList fs).members.map Prod.fst ↔ .individual i ∈ fs := by
    rw [ofList, List.map_map]
    simp only [Function.comp_def, List.map_id', List.mem_eraseDups]
    exact mem_filterMap_iff fun g => by cases g <;> simp
  rw [← met, List.mem_map]
  exact ⟨fun ⟨s, h⟩ => ⟨_, h, rfl⟩, fun ⟨⟨_, s⟩, h, same⟩ => ⟨s, same ▸ h⟩⟩

theorem nodup_eraseDups {α : Type} [BEq α] [LawfulBEq α] (as : List α) : as.eraseDups.Nodup := by
  induction hn : as.length using Nat.strong_induction_on generalizing as with
  | _ n ih =>
    cases as with
    | nil => exact List.nodup_nil
    | cons a as =>
      rw [List.eraseDups_cons, List.nodup_cons, List.mem_eraseDups]
      have shorter : (as.filter fun b => !b == a).length < n := by
        have := List.length_filter_le (fun b => !b == a) as
        simp only [List.length_cons] at hn
        omega
      exact ⟨by simp, ih _ shorter _ rfl⟩

theorem nodup_members_ofList (fs : List Fact) : ((ofList fs).members.map Prod.fst).Nodup := by
  rw [ofList, List.map_map]
  simpa only [Function.comp_def, List.map_id'] using nodup_eraseDups _

/-! ### Closing a set once -/

section Closing
variable {f : Facts} {supers : Links} {s : Signature}

theorem mem_closeSupers : d ∈ closeSupers supers s ↔ d ∈ s ∨ ∃ c ∈ s, d ∈ supers.of c := by
  rw [closeSupers, Std.TreeSet.foldl_eq_foldl_toList, Signature.mem_foldl_union]
  simp only [Std.TreeSet.mem_toList]

/-- The step of one conjunction. -/
def conjoin (t : Signature) (r : List Iri × Iri) : Signature :=
  if r.1.all t.contains then t.insert r.2 else t

/-- The step of one existential. -/
def ask (f : Facts) (supers : Links) (t : Signature) (r : Iri × Iri × Iri) : Signature :=
  if t.contains r.1 then
    let t := if (supers.of r.2.2).contains Vocabulary.nothing then t.insert Vocabulary.nothing else t
    t ∪ f.domains.of r.2.1
  else t

theorem closeConjunctions_eq_foldl : f.closeConjunctions s = f.conjunctions.foldl conjoin s := rfl

theorem closeExistentials_eq_foldl :
    f.closeExistentials supers s = f.existentials.foldl (ask f supers) s := rfl

theorem mem_conjoin {r : List Iri × Iri} :
    d ∈ conjoin s r ↔ d ∈ s ∨ d = r.2 ∧ ∀ c ∈ r.1, c ∈ s := by
  have all : r.1.all s.contains ↔ ∀ c ∈ r.1, c ∈ s := by simp
  unfold conjoin
  split
  · next h => rw [Signature.mem_insert_iff, and_iff_left (all.1 h), or_comm]
  · next h => exact (or_iff_left fun hd => h (all.2 hd.2)).symm

theorem mem_ask {r : Iri × Iri × Iri} : e ∈ ask f supers s r ↔ e ∈ s ∨ r.1 ∈ s ∧
    (e = Vocabulary.nothing ∧ Vocabulary.nothing ∈ supers.of r.2.2 ∨ e ∈ f.domains.of r.2.1) := by
  unfold ask
  by_cases asked : r.1 ∈ s
  · rw [if_pos (Std.TreeSet.contains_iff_mem.2 asked), and_iff_right asked, ← or_assoc]
    rw [Std.TreeSet.mem_union_iff]
    refine or_congr_left ?_
    by_cases empty : Vocabulary.nothing ∈ supers.of r.2.2
    · rw [if_pos (Std.TreeSet.contains_iff_mem.2 empty), Signature.mem_insert_iff, and_iff_left empty,
        or_comm]
    · rw [if_neg (mt Std.TreeSet.contains_iff_mem.1 empty)]
      exact (or_iff_left fun h => empty h.2).symm
  · rw [if_neg (mt Std.TreeSet.contains_iff_mem.1 asked)]
    exact (or_iff_left fun h => asked h.1).symm

theorem mem_closeDisjoint : e ∈ f.closeDisjoint s ↔
    e ∈ s ∨ e = Vocabulary.nothing ∧ ∃ c d, (c, d) ∈ f.disjoint ∧ c ∈ s ∧ d ∈ s := by
  have any : (f.disjoint.any fun e => s.contains e.1 && s.contains e.2) ↔
      ∃ c d, (c, d) ∈ f.disjoint ∧ c ∈ s ∧ d ∈ s := by simp
  unfold closeDisjoint
  split
  · next h => rw [Signature.mem_insert_iff, and_iff_left (any.1 h), or_comm]
  · next h => exact (or_iff_left fun hd => h (any.2 hd.2)).symm

theorem mem_conjoin_of_mem (t : Signature) (r : List Iri × Iri) (x : Iri) (hx : x ∈ t) :
    x ∈ conjoin t r :=
  mem_conjoin.2 (.inl hx)

theorem mem_ask_of_mem (t : Signature) (r : Iri × Iri × Iri) (x : Iri) (hx : x ∈ t) :
    x ∈ ask f supers t r :=
  mem_ask.2 (.inl hx)

/-! A set is closed in four steps, each of which keeps what the steps before it have found. -/

theorem mem_close_of_mem_closeExistentials
    (h : c ∈ f.closeExistentials supers (f.closeConjunctions (closeSupers supers s))) :
    c ∈ f.close supers s :=
  mem_closeDisjoint.2 (.inl h)

theorem mem_close_of_mem_closeConjunctions (h : c ∈ f.closeConjunctions (closeSupers supers s)) :
    c ∈ f.close supers s :=
  mem_close_of_mem_closeExistentials (Signature.mem_foldl_of_mem mem_ask_of_mem h)

theorem mem_close_of_mem_closeSupers (h : c ∈ closeSupers supers s) : c ∈ f.close supers s :=
  mem_close_of_mem_closeConjunctions (Signature.mem_foldl_of_mem mem_conjoin_of_mem h)

theorem mem_close_of_mem (h : c ∈ s) : c ∈ f.close supers s :=
  mem_close_of_mem_closeSupers (mem_closeSupers.2 (.inl h))

theorem mem_closeConjunctions_of_mem (h : c ∈ s) :
    c ∈ f.closeConjunctions (closeSupers supers s) :=
  Signature.mem_foldl_of_mem mem_conjoin_of_mem (mem_closeSupers.2 (.inl h))

theorem mem_close_of_super (hc : c ∈ s) (h : d ∈ supers.of c) : d ∈ f.close supers s :=
  mem_close_of_mem_closeSupers (mem_closeSupers.2 (.inr ⟨c, hc, h⟩))

theorem mem_close_of_conjunction (h : (cs, d) ∈ f.conjunctions) (hc : ∀ c ∈ cs, c ∈ s) :
    d ∈ f.close supers s := by
  refine mem_close_of_mem_closeConjunctions ?_
  have grown : ∀ c ∈ cs, c ∈ closeSupers supers s := fun c hcs => mem_closeSupers.2 (.inl (hc c hcs))
  refine Signature.mem_foldl_of_step mem_conjoin_of_mem h fun t ht => ?_
  have all : ∀ c ∈ cs, c ∈ t := fun c hcs => ht c (grown c hcs)
  exact (mem_conjoin (r := (cs, d))).2 (.inr ⟨rfl, all⟩)

/-- What an existential of a class in the set gives is in the closed set. -/
theorem mem_close_of_existential (h : (c, p, d) ∈ f.existentials) (hc : c ∈ s)
    (he : e = Vocabulary.nothing ∧ Vocabulary.nothing ∈ supers.of d ∨ e ∈ f.domains.of p) :
    e ∈ f.close supers s := by
  refine mem_close_of_mem_closeExistentials ?_
  refine Signature.mem_foldl_of_step mem_ask_of_mem h fun t ht => ?_
  have asked : c ∈ t := ht c (mem_closeConjunctions_of_mem hc)
  exact (mem_ask (r := (c, p, d))).2 (.inr ⟨asked, he⟩)

theorem nothing_mem_close_of_disjoint (h : (c, d) ∈ f.disjoint) (hc : c ∈ s) (hd : d ∈ s) :
    Vocabulary.nothing ∈ f.close supers s := by
  have keep {x : Iri} (hx : x ∈ s) :
      x ∈ f.closeExistentials supers (f.closeConjunctions (closeSupers supers s)) :=
    Signature.mem_foldl_of_mem mem_ask_of_mem (mem_closeConjunctions_of_mem hx)
  exact mem_closeDisjoint.2 (.inr ⟨rfl, c, d, h, keep hc, keep hd⟩)

end Closing

/-- A set is saturated if closing it adds nothing. -/
theorem isSaturated_of_close {supers : Links} {s : Signature}
    (h : ∀ d ∈ (ofList fs).close supers s, d ∈ s) :
    IsSaturated fs (fun c => {d | d ∈ supers.of c}) {d | d ∈ s} where
  superclass _ hc _ hd := h _ (mem_close_of_super hc hd)
  conjunction _ _ told hcs := h _ (mem_close_of_conjunction (mem_conjunctions_ofList.2 told) hcs)
  emptyFiller _ _ _ told hc empty :=
    h _ (mem_close_of_existential (mem_existentials_ofList.2 told) hc (.inl ⟨rfl, empty⟩))
  domain _ _ _ _ told he hc :=
    h _ (mem_close_of_existential (mem_existentials_ofList.2 told) hc
      (.inr (mem_domains_ofList.2 he)))
  disjoint _ _ told hc hd := h _ (nothing_mem_close_of_disjoint (mem_disjoint_ofList.2 told) hc hd)

/-- Closing adds only what follows. -/
theorem follows_of_mem_close {supers : Links} {s : Signature}
    (sound : ∀ c d, d ∈ supers.of c → Follows fs {c} d) (hs : ∀ c ∈ s, Follows fs B c) :
    ∀ d ∈ (ofList fs).close supers s, Follows fs B d := by
  have hsupers : ∀ d ∈ closeSupers supers s, Follows fs B d := by
    intro d hd
    rcases mem_closeSupers.1 hd with hd | ⟨c, hc, hd⟩
    · exact hs d hd
    · exact (sound c d hd).trans fun b hb => hb ▸ hs c hc
  have hconjunctions :
      ∀ d ∈ (ofList fs).closeConjunctions (closeSupers supers s), Follows fs B d := by
    rw [closeConjunctions_eq_foldl]
    refine List.foldlRecOn _ _ (motive := fun t => ∀ d ∈ t, Follows fs B d) hsupers ?_
    rintro t ht ⟨cs, d⟩ told e he
    rcases mem_conjoin.1 he with he | ⟨rfl, all⟩
    · exact ht e he
    · exact .conjunction (mem_conjunctions_ofList.1 told) fun c hc => ht c (all c hc)
  have hexistentials : ∀ d ∈ (ofList fs).closeExistentials supers
      ((ofList fs).closeConjunctions (closeSupers supers s)), Follows fs B d := by
    rw [closeExistentials_eq_foldl]
    refine List.foldlRecOn _ _ (motive := fun t => ∀ d ∈ t, Follows fs B d) hconjunctions ?_
    rintro t ht ⟨c, p, d⟩ told e he
    have told := mem_existentials_ofList.1 told
    rcases mem_ask.1 he with he | ⟨hc, ⟨rfl, empty⟩ | he⟩
    · exact ht e he
    · exact .emptyFiller told (ht c hc) (sound d _ empty)
    · exact .domain told (mem_domains_ofList.1 he) (ht c hc)
  intro d hd
  rcases mem_closeDisjoint.1 hd with hd | ⟨rfl, a, b, told, ha, hb⟩
  · exact hexistentials d hd
  · exact .disjoint (mem_disjoint_ofList.1 told) (hexistentials a ha) (hexistentials b hb)

/-! ### Superclasses -/

/-- Superclasses as they are while rounds are taken: they follow from their class, and what
is told is among them. -/
structure IsPartial (fs : List Fact) (supers : Links) : Prop where
  sound : ∀ c d, d ∈ supers.of c → Follows fs {c} d
  self : ∀ c ∈ (ofList fs).classes, c ∈ supers.of c
  told : ∀ c d, .subclass c d ∈ fs → d ∈ supers.of c

theorem isPartial_ofList (fs : List Fact) : IsPartial fs (ofList fs).supers where
  sound c d h := by
    rcases mem_supers_ofList.1 h with ⟨_, rfl⟩ | h
    · exact .given rfl
    · exact .subclass h (.given rfl)
  self c hc := mem_supers_ofList.2 (.inl ⟨hc, rfl⟩)
  told c d h := mem_supers_ofList.2 (.inr h)

section Classifying
variable {supers next : Links} {grown grown' : Bool}

theorem IsPartial.insert_close (h : IsPartial fs supers) (c : Iri) :
    IsPartial fs (supers.insert c ((ofList fs).close supers (supers.of c))) where
  sound x d hd := by
    rcases Links.mem_of_insert.1 hd with ⟨rfl, hd⟩ | ⟨_, hd⟩
    · exact follows_of_mem_close h.sound (h.sound x) d hd
    · exact h.sound x d hd
  self x hx := by
    have kept := h.self x hx
    rw [Links.mem_of_insert]
    by_cases same : x = c
    · subst same
      exact .inl ⟨rfl, mem_close_of_mem kept⟩
    · exact .inr ⟨same, kept⟩
  told x d hd := by
    have kept := h.told x d hd
    rw [Links.mem_of_insert]
    by_cases same : x = c
    · subst same
      exact .inl ⟨rfl, mem_close_of_mem kept⟩
    · exact .inr ⟨same, kept⟩

theorem IsPartial.classifyOne (h : IsPartial fs supers) (grown : Bool) (c : Iri) :
    IsPartial fs ((ofList fs).classifyOne supers grown c).1 := by
  unfold Facts.classifyOne
  dsimp only
  split
  · exact h
  · exact h.insert_close c

theorem classifyRound_eq_foldl {f : Facts} : f.classifyRound supers =
    f.classes.toList.foldl (fun (r : Links × Bool) c => f.classifyOne r.1 r.2 c)
      (supers, false) :=
  Std.TreeSet.foldl_eq_foldl_toList

theorem IsPartial.classifyRound (h : IsPartial fs supers) :
    IsPartial fs ((ofList fs).classifyRound supers).1 := by
  rw [classifyRound_eq_foldl]
  refine List.foldlRecOn _ _ (motive := fun r : Links × Bool => IsPartial fs r.1) h ?_
  intro r hr c _
  exact hr.classifyOne r.2 c

/-- A set that closing once does not make larger is closed. -/
def IsFixed (f : Facts) (supers : Links) (c : Iri) : Prop :=
  ∀ d ∈ f.close supers (supers.of c), d ∈ supers.of c

theorem isFixed_of_classifyOne {f : Facts}
    (h : (f.classifyOne supers grown c).2 = false) :
    f.classifyOne supers grown c = (supers, false) ∧ grown = false ∧ f.IsFixed supers c := by
  unfold classifyOne at h ⊢
  dsimp only at h ⊢
  split at h
  · next size =>
    rw [if_pos size]
    refine ⟨Prod.ext rfl h, h, fun d hd => ?_⟩
    exact Signature.mem_of_size_le (fun _ => mem_close_of_mem) size.le hd
  · exact absurd h Bool.true_eq_false.mp

theorem isFixed_of_foldl {f : Facts} {cs : List Iri}
    (h : cs.foldl (fun (r : Links × Bool) c => f.classifyOne r.1 r.2 c) (supers, grown) =
      (next, false)) :
    next = supers ∧ grown = false ∧ ∀ c ∈ cs, f.IsFixed supers c := by
  induction cs generalizing supers grown with
  | nil =>
    obtain ⟨rfl, rfl⟩ := Prod.mk.inj h
    exact ⟨rfl, rfl, fun c hc => absurd hc List.not_mem_nil⟩
  | cons c cs ih =>
    rw [List.foldl_cons] at h
    have still : (f.classifyOne supers grown c).2 = false := (ih h).2.1
    obtain ⟨same, hgrown, first⟩ := isFixed_of_classifyOne still
    rw [same] at h
    obtain ⟨rfl, _, rest⟩ := ih h
    exact ⟨rfl, hgrown, List.forall_mem_cons.2 ⟨first, rest⟩⟩

/-- A round that changes nothing finds all sets closed. -/
theorem isFixed_of_classifyRound {f : Facts} (h : f.classifyRound supers = (next, false)) :
    ∀ c ∈ f.classes, f.IsFixed next c := by
  rw [classifyRound_eq_foldl] at h
  obtain ⟨rfl, _, fixed⟩ := isFixed_of_foldl h
  exact fun c hc => fixed c (Std.TreeSet.mem_toList.2 hc)

theorem IsPartial.classify {rounds rest : Nat} (h : IsPartial fs supers)
    (hc : (ofList fs).classify rounds supers = some (next, rest)) :
    IsPartial fs next ∧ ∀ c ∈ (ofList fs).classes, (ofList fs).IsFixed next c := by
  induction rounds generalizing supers with
  | zero => exact absurd hc (by simp [Facts.classify])
  | succ rounds ih =>
    have round := h.classifyRound
    unfold Facts.classify at hc
    split at hc
    · next grown =>
      rw [grown] at round
      exact ih round hc
    · next same =>
      obtain ⟨rfl, _⟩ := Prod.mk.inj (Option.some.inj hc)
      rw [same] at round
      exact ⟨round, isFixed_of_classifyRound same⟩

/-- Closed superclasses have everything that follows from their class, when the fillers of
existentials are registered. -/
theorem IsPartial.mem_of_follows (h : IsPartial fs supers)
    (fixed : ∀ c ∈ (ofList fs).classes, (ofList fs).IsFixed supers c)
    (fillers : ∀ c p d, .existential c p d ∈ fs → .registered d ∈ fs) (hd : Follows fs B d) :
    ∀ c ∈ (ofList fs).classes, (∀ b ∈ B, b ∈ supers.of c) → d ∈ supers.of c := by
  intro c hc hB
  refine (isSaturated_of_close (fixed c hc)).mem_of_follows h.told (fun a p b told => ?_) hd hB
  have registered : b ∈ (ofList fs).classes := mem_classes_ofList.2 (.inr (fillers a p b told))
  exact ⟨h.self b registered, isSaturated_of_close (fixed b registered)⟩

theorem IsPartial.mem_iff_follows (h : IsPartial fs supers)
    (fixed : ∀ c ∈ (ofList fs).classes, (ofList fs).IsFixed supers c)
    (fillers : ∀ c p d, .existential c p d ∈ fs → .registered d ∈ fs)
    (hc : c ∈ (ofList fs).classes) : d ∈ supers.of c ↔ Follows fs {c} d := by
  refine ⟨h.sound c d, fun hd => h.mem_of_follows fixed fillers hd c hc fun b hb => ?_⟩
  rw [Set.mem_singleton_iff.1 hb]
  exact h.self c hc

end Classifying

/-! ### Classes of individuals -/

/-- Classes of individuals that follow from those that they are given. -/
def AreSound (fs : List Fact) (members : List (Individual × Signature)) : Prop :=
  ∀ i s, (i, s) ∈ members → ∀ c ∈ s, Follows fs {b | Given fs i b} c

section Realizing
variable {supers : Links} {members next : List (Individual × Signature)}

theorem areSound_members_ofList (fs : List Fact) : AreSound fs (ofList fs).members :=
  fun _ _ h _ hc => .given ((mem_iff_given h).1 hc)

theorem AreSound.realizeRound (h : AreSound fs members)
    (sound : ∀ c d, d ∈ supers.of c → Follows fs {c} d) :
    AreSound fs ((ofList fs).realizeRound supers members) := by
  intro i s hs c hc
  obtain ⟨⟨j, t⟩, ht, same⟩ := List.mem_map.1 hs
  obtain ⟨rfl, rfl⟩ := Prod.mk.inj same
  exact follows_of_mem_close sound (h j t ht) c hc

theorem map_fst_realizeRound (f : Facts) :
    (f.realizeRound supers members).map Prod.fst = members.map Prod.fst := by
  rw [Facts.realizeRound, List.map_map]
  rfl

theorem hasGrown_realizeRound {f : Facts} : hasGrown members (f.realizeRound supers members) ↔
    ∃ m ∈ members, m.2.size ≠ (f.close supers m.2).size := by
  have pairs : members.zip (f.realizeRound supers members) =
      members.map fun m => (m, (m.1, f.close supers m.2)) := by
    have both := List.zip_map' (f := id) (g := fun m => (m.1, f.close supers m.2)) (l := members)
    rwa [List.map_id] at both
  rw [hasGrown, pairs, List.any_map, List.any_eq_true]
  simp only [Function.comp_apply, bne_iff_ne]

/-- Sets that a round does not make larger are closed. -/
theorem mem_of_hasGrown_eq_false {f : Facts} {s : Signature}
    (h : hasGrown members (f.realizeRound supers members) = false) (hm : (i, s) ∈ members) :
    ∀ c ∈ f.close supers s, c ∈ s := by
  have size : s.size = (f.close supers s).size := by
    by_contra grown
    rw [hasGrown_realizeRound.2 ⟨(i, s), hm, grown⟩] at h
    cases h
  exact fun c => Signature.mem_of_size_le (fun _ => mem_close_of_mem) size.ge

/-- Classes of individuals as they are while rounds are taken: they follow from what the
individuals are given, and what is given is among them. -/
structure ArePartial (fs : List Fact) (members : List (Individual × Signature)) : Prop where
  sound : AreSound fs members
  names : members.map Prod.fst = (ofList fs).members.map Prod.fst
  given : ∀ i s, (i, s) ∈ members → ∀ c, Given fs i c → c ∈ s

theorem arePartial_members_ofList (fs : List Fact) : ArePartial fs (ofList fs).members where
  sound := areSound_members_ofList fs
  names := rfl
  given _ _ h _ := (mem_iff_given h).2

theorem ArePartial.realizeRound (h : ArePartial fs members)
    (sound : ∀ c d, d ∈ supers.of c → Follows fs {c} d) :
    ArePartial fs ((ofList fs).realizeRound supers members) where
  sound := h.sound.realizeRound sound
  names := (map_fst_realizeRound _).trans h.names
  given i s hs c hc := by
    obtain ⟨⟨j, t⟩, ht, same⟩ := List.mem_map.1 hs
    obtain ⟨rfl, rfl⟩ := Prod.mk.inj same
    exact mem_close_of_mem (h.given j t ht c hc)

theorem ArePartial.realize {rounds : Nat} (h : ArePartial fs members)
    (sound : ∀ c d, d ∈ supers.of c → Follows fs {c} d)
    (hr : (ofList fs).realize supers rounds members = some next) :
    ArePartial fs next ∧
      ∀ i s, (i, s) ∈ next → ∀ c ∈ (ofList fs).close supers s, c ∈ s := by
  induction rounds generalizing members with
  | zero => exact absurd hr (by simp [Facts.realize])
  | succ rounds ih =>
    unfold Facts.realize at hr
    dsimp only at hr
    split at hr
    · exact ih (h.realizeRound sound) hr
    · next same =>
      obtain rfl := Option.some.inj hr
      exact ⟨h, fun i s => mem_of_hasGrown_eq_false (Bool.eq_false_of_not_eq_true same)⟩

end Realizing

end Facts

/-! ### Saturation -/

/-- The saturated sets of a list of facts. -/
structure Saturation.Fits (s : Saturation) (fs : List Fact) : Prop where
  facts : s.facts = Facts.ofList fs
  supers : Facts.IsPartial fs s.supers
  fixed : ∀ c ∈ s.facts.classes, s.facts.IsFixed s.supers c
  members : Facts.AreSound fs s.members
  nodup : (s.members.map Prod.fst).Nodup

/-- The sets are saturated, and each individual that is met has one. -/
structure Saturation.IsSettled (s : Saturation) (fs : List Fact) : Prop extends s.Fits fs where
  met : ∀ i, (∃ t, (i, t) ∈ s.members) ↔ .individual i ∈ fs
  given : ∀ i t, (i, t) ∈ s.members → ∀ c, Given fs i c → c ∈ t
  closed : ∀ i t, (i, t) ∈ s.members → ∀ c ∈ s.facts.close s.supers t, c ∈ t

theorem isSettled_of_saturate {rounds : Nat} {o : Ontology} {s : Saturation}
    (h : saturate rounds o = some s) : s.IsSettled (o.axioms.flatMap factsOf) := by
  simp only [saturate, Option.bind_eq_bind, Option.bind_eq_some_iff, Option.some.injEq] at h
  obtain ⟨⟨supers, rest⟩, classified, members, realized, rfl⟩ := h
  obtain ⟨part, fixed⟩ := (Facts.isPartial_ofList _).classify classified
  obtain ⟨real, closed⟩ := (Facts.arePartial_members_ofList _).realize part.sound realized
  have named (i : Individual) : (∃ t, (i, t) ∈ members) ↔ i ∈ members.map Prod.fst := by simp
  constructor
  · exact ⟨rfl, part, fixed, real.sound, real.names ▸ Facts.nodup_members_ofList _⟩
  · intro i
    rw [named, real.names, ← Facts.exists_mem_members_iff]
    simp
  · exact real.given
  · exact closed

end Reasoner

end TabularOntology
