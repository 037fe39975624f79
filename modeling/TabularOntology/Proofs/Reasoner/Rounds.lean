import Mathlib.Algebra.Group.Action.Defs
import Mathlib.Algebra.Order.BigOperators.Group.List
import Mathlib.Algebra.Order.Group.Nat
import Mathlib.Algebra.Ring.Nat
import TabularOntology.Proofs.Reasoner.Consequences

/-! How many rounds saturation takes. A round that is not the last one makes some set larger, and
no set ever gets a class that is not registered. So each pair of a registered class and a
superclass, and each pair of an individual and a class, is gained in one round at most, and two
more rounds find that nothing changes. -/

namespace TabularOntology.Reasoner

variable {fs : List Fact} {B : Set Iri} {c : Iri} {i : Individual}

/-! ### Only registered classes are added -/

theorem IsWellFormed.isClass_of_mem_classNames {f : Fact} (h : IsWellFormed fs) (hf : f ∈ fs)
    (hc : c ∈ f.classNames) : IsClass fs c :=
  .inr (h.registered f hf c hc)

theorem IsWellFormed.isClass_of_given (h : IsWellFormed fs) (hc : Given fs i c) :
    IsClass fs c := by
  obtain ⟨f, hf, hc⟩ := hc.mem_classNames
  exact h.isClass_of_mem_classNames hf hc

theorem IsWellFormed.isClass_of_follows (h : IsWellFormed fs) (hc : Follows fs B c)
    (hB : ∀ b ∈ B, IsClass fs b) : IsClass fs c := by
  rcases hc.mem_or_mentioned with hb | rfl | ⟨f, hf, hc⟩
  · exact hB c hb
  · exact .inl rfl
  · exact h.isClass_of_mem_classNames hf hc

namespace Facts

/-- A set of registered classes is no larger than all of them. -/
theorem size_le_of_isClass {s : Signature} (h : ∀ c ∈ s, IsClass fs c) :
    s.size ≤ (ofList fs).classes.size :=
  Signature.size_le fun c hc => mem_classes_ofList.2 (h c hc)

section
variable {f : Facts} {supers next : Links} {s : Signature} {grown : Bool} {cs : List Iri}

theorem size_le_close : s.size ≤ (f.close supers s).size :=
  Signature.size_le fun _ => mem_close_of_mem

/-! ### Superclasses -/

/-- The number of superclasses that the given classes have, together. -/
def weight (cs : List Iri) (supers : Links) : Nat := (cs.map fun c => (supers.of c).size).sum

/-- Where one class gains superclasses and no class loses any, there are more of them. -/
theorem weight_lt (hc : c ∈ cs) (gain : (supers.of c).size < (next.of c).size)
    (keep : ∀ x, (supers.of x).size ≤ (next.of x).size) : weight cs supers < weight cs next :=
  List.sum_lt_sum _ _ (fun x _ => keep x) ⟨c, hc, gain⟩

/-- Closing the superclasses of one class leaves all as it is, or makes just these more. -/
theorem classifyOne_cases (f : Facts) (supers : Links) (grown : Bool) (c : Iri) :
    f.classifyOne supers grown c = (supers, grown) ∨
      ∃ next, f.classifyOne supers grown c = (next, true) ∧
        (supers.of c).size < (next.of c).size ∧ ∀ x, (supers.of x).size ≤ (next.of x).size := by
  unfold classifyOne
  dsimp only
  split
  · exact .inl rfl
  · next size =>
    have larger : (supers.of c).size ≤ (f.close supers (supers.of c)).size := size_le_close
    refine .inr ⟨_, rfl, ?_, fun x => ?_⟩
    · rw [Links.of_insert, if_pos rfl]
      omega
    · rw [Links.of_insert]
      split
      · next same => exact same ▸ larger
      · exact Nat.le_refl _

/-- A part of a round has lost no superclasses, and has found more if it says so. -/
structure Gains (cs : List Iri) (supers : Links) (r : Links × Bool) : Prop where
  keeps : weight cs supers ≤ weight cs r.1
  grows : r.2 = true → weight cs supers < weight cs r.1

theorem Gains.classifyOne {r : Links × Bool} (h : Gains cs supers r) (hc : c ∈ cs) :
    Gains cs supers (f.classifyOne r.1 r.2 c) := by
  rcases f.classifyOne_cases r.1 r.2 c with same | ⟨next, step, gain, keep⟩
  · rwa [same]
  · rw [step]
    have more : weight cs r.1 < weight cs next := weight_lt hc gain keep
    exact ⟨h.keeps.trans more.le, fun _ => h.keeps.trans_lt more⟩

/-- A round that is not the last one finds more superclasses. -/
theorem weight_lt_of_classifyRound (h : f.classifyRound supers = (next, true)) :
    weight f.classes.toList supers < weight f.classes.toList next := by
  have gains : Gains f.classes.toList supers (f.classifyRound supers) := by
    rw [classifyRound_eq_foldl]
    refine List.foldlRecOn _ _ (motive := Gains f.classes.toList supers) ⟨Nat.le_refl _, nofun⟩ ?_
    exact fun r hr c hc => hr.classifyOne hc
  rw [h] at gains
  exact gains.grows rfl

end

section Classifying
variable {supers : Links}

theorem IsPartial.isClass (h : IsPartial fs supers) (hfs : IsWellFormed fs) {d : Iri}
    (hc : IsClass fs c) (hd : d ∈ supers.of c) : IsClass fs d :=
  hfs.isClass_of_follows (h.sound c d hd) fun _ hb => hb ▸ hc

theorem IsPartial.weight_le (h : IsPartial fs supers) (hfs : IsWellFormed fs) :
    weight (ofList fs).classes.toList supers ≤
      (ofList fs).classes.size * (ofList fs).classes.size := by
  have each : ∀ k ∈ (ofList fs).classes.toList.map fun c => (supers.of c).size,
      k ≤ (ofList fs).classes.size := by
    refine List.forall_mem_map.2 fun c hc => size_le_of_isClass fun d hd => ?_
    exact h.isClass hfs (mem_classes_ofList.1 (Std.TreeSet.mem_toList.1 hc)) hd
  have bound := List.sum_le_card_nsmul _ _ each
  rwa [List.length_map, Std.TreeSet.length_toList, smul_eq_mul] at bound

/-- Classification takes at most one round for each pair of classes that is missing, and one
more. -/
theorem IsPartial.exists_classify (h : IsPartial fs supers) (hfs : IsWellFormed fs) (rounds : Nat)
    (enough : (ofList fs).classes.size * (ofList fs).classes.size <
      rounds + weight (ofList fs).classes.toList supers) :
    ∃ next rest, (ofList fs).classify rounds supers = some (next, rest) ∧
      rounds + weight (ofList fs).classes.toList supers ≤
        rest + (ofList fs).classes.size * (ofList fs).classes.size + 1 := by
  induction rounds generalizing supers with
  | zero =>
    have := h.weight_le hfs
    omega
  | succ rounds ih =>
    have round := h.classifyRound
    rw [Facts.classify]
    split
    · next next grown =>
      replace round : IsPartial fs next := by rwa [grown] at round
      have more := weight_lt_of_classifyRound grown
      obtain ⟨final, rest, found, used⟩ := ih round (by omega)
      exact ⟨final, rest, found, by omega⟩
    · next next same =>
      have := h.weight_le hfs
      exact ⟨next, rounds, rfl, by omega⟩

end Classifying

/-! ### Classes of individuals -/

section Realizing
variable {supers : Links} {members : List (Individual × Signature)}

/-- The number of classes that the individuals have, together. -/
def memberWeight (members : List (Individual × Signature)) : Nat :=
  (members.map fun m => m.2.size).sum

theorem memberWeight_realizeRound {f : Facts} :
    memberWeight (f.realizeRound supers members) =
      (members.map fun m => (f.close supers m.2).size).sum := by
  rw [memberWeight, realizeRound, List.map_map]
  rfl

/-- A round that is not the last one finds more classes. -/
theorem memberWeight_lt {f : Facts}
    (h : hasGrown members (f.realizeRound supers members) = true) :
    memberWeight members < memberWeight (f.realizeRound supers members) := by
  obtain ⟨⟨i, s⟩, hm, grown⟩ := hasGrown_realizeRound.1 h
  rw [memberWeight_realizeRound]
  refine List.sum_lt_sum _ _ (fun m _ => size_le_close) ⟨(i, s), hm, ?_⟩
  exact lt_of_le_of_ne size_le_close grown

theorem ArePartial.memberWeight_le (h : ArePartial fs members) (hfs : IsWellFormed fs) :
    memberWeight members ≤ (ofList fs).members.length * (ofList fs).classes.size := by
  have each : ∀ k ∈ members.map fun m => m.2.size, k ≤ (ofList fs).classes.size := by
    refine List.forall_mem_map.2 fun m hm => size_le_of_isClass fun c hc => ?_
    exact hfs.isClass_of_follows (h.sound m.1 m.2 hm c hc) fun b hb => hfs.isClass_of_given hb
  have bound := List.sum_le_card_nsmul _ _ each
  have length : members.length = (ofList fs).members.length := by
    simpa using congrArg List.length h.names
  rwa [List.length_map, length, smul_eq_mul] at bound

/-- Realization takes at most one round for each class that an individual has not got, and one
more. -/
theorem ArePartial.exists_realize (h : ArePartial fs members) (hfs : IsWellFormed fs)
    (sound : ∀ c d, d ∈ supers.of c → Follows fs {c} d) (rounds : Nat)
    (enough : (ofList fs).members.length * (ofList fs).classes.size <
      rounds + memberWeight members) :
    ∃ next, (ofList fs).realize supers rounds members = some next := by
  induction rounds generalizing members with
  | zero =>
    have := h.memberWeight_le hfs
    omega
  | succ rounds ih =>
    rw [Facts.realize]
    split
    · next grown =>
      have more := memberWeight_lt grown
      exact ih (h.realizeRound sound) (by omega)
    · exact ⟨members, rfl⟩

end Realizing

end Facts

/-! ### The verdict -/

/-- The number of registered classes, the empty class among them. -/
def classCount (o : Ontology) : Nat := (Facts.ofOntology o).classes.size

/-- The number of individuals that an ontology is about. -/
def individualCount (o : Ontology) : Nat := (Facts.ofOntology o).members.length

theorem exists_saturate {rounds : Nat} {o : Ontology}
    (enough : classCount o * classCount o + individualCount o * classCount o + 2 ≤ rounds) :
    ∃ s, saturate rounds o = some s := by
  have sorted : Facts.ofOntology o = Facts.ofList (told o) := rfl
  rw [classCount, individualCount, sorted] at enough
  have hfs := isWellFormed_told o
  have start := Facts.isPartial_ofList (told o)
  obtain ⟨supers, rest, classified, left⟩ :=
    start.exists_classify hfs rounds (by omega)
  have sound := (start.classify classified).1.sound
  have given := Facts.arePartial_members_ofList (told o)
  obtain ⟨members, realized⟩ := given.exists_realize hfs sound rest (by omega)
  refine ⟨⟨Facts.ofOntology o, supers, members⟩, ?_⟩
  simp only [saturate, Option.bind_eq_bind, Option.bind_eq_some_iff]
  exact ⟨_, classified, _, realized, rfl⟩

/-- Without a limit in time, the reasoner answers if it may take a round for each pair of classes
and for each pair of an individual and a class, and two more. -/
theorem check_answers {options : Options} {o : Ontology} (untimed : options.timeout = none)
    (enough : classCount o * classCount o + individualCount o * classCount o + 2 ≤
      options.maxIterations) : ∃ v, check options o = .ok v := by
  obtain ⟨s, saturated⟩ := exists_saturate enough
  have untimely : options.timeout ≠ some 0 := by simp [untimed]
  refine ⟨s.verdict options.materialize o, ?_⟩
  rw [check, if_neg untimely, saturated]

/-- Two classes inside each other, one of which asks for itself, a class that everything is in, and
a member. -/
def cyclic : Ontology :=
  .ofAxioms [
    .subClass (.named ⟨"urn:a"⟩) (.named ⟨"urn:b"⟩),
    .subClass (.named ⟨"urn:b"⟩) (.named ⟨"urn:a"⟩),
    .subClass (.named ⟨"urn:a"⟩) (.some (.named ⟨"urn:p"⟩) (.named ⟨"urn:a"⟩)),
    .subClass (.intersection []) (.named ⟨"urn:c"⟩),
    .classAssertion (.named ⟨"urn:a"⟩) (.named ⟨"urn:x"⟩)]

theorem check_answers_cyclic : classCount cyclic = 4 ∧ individualCount cyclic = 1 ∧
    ∃ v, check { maxIterations := 22 } cyclic = .ok v := by
  have classes : classCount cyclic = 4 := by decide +kernel
  have individuals : individualCount cyclic = 1 := by decide +kernel
  refine ⟨classes, individuals, check_answers rfl ?_⟩
  rw [classes, individuals]

end TabularOntology.Reasoner
