import Mathlib.Logic.Relation
import TabularOntology.Proofs.Extraction.Least

/-! The order of extraction. Axioms can be chosen by looking up pending symbols and
classifying the axioms under each of them, in any order of symbols and of axioms, or by
scanning all axioms again and again, each time in any order, until a scan chooses
nothing. Both choose only what the symbols known so far force in, and both stop only
when nothing is forced in any more, so that both end with the least closed set. -/

namespace TabularOntology.Import

/-- What was chosen so far and the symbols known from it. -/
structure Growth where
  known : Signature
  chosen : Ontology

namespace Growth

/-- Nothing chosen yet. -/
def start (seed : Signature) : Growth := ⟨seed, {}⟩

/-- One more axiom chosen. -/
def add (g : Growth) (a : Axiom) : Growth := ⟨g.known.insertMany a.iris, g.chosen.insert a⟩

/-- What is chosen are axioms of the ontology that every closed set has, and their symbols
are the known ones. -/
structure Justified (o : Ontology) (seed : Signature) (g : Growth) : Prop where
  mem_known : ∀ x, x ∈ g.known ↔ x ∈ working seed g.chosen.axioms
  subset : g.chosen.axioms ⊆ o.axioms
  forced : ∀ m, Closed o.axioms seed m → g.chosen.axioms ⊆ m

section
variable {o : Ontology} {seed : Signature} {g : Growth} {a : Axiom}

theorem justified_start (o : Ontology) (seed : Signature) : Justified o seed (start seed) where
  mem_known x := by simp [start]
  subset := by simp [start]
  forced m _ := by simp [start]

theorem Justified.mem_of_contains (hg : Justified o seed g) (ha : a ∈ o.axioms)
    (hc : g.chosen.contains a) : a ∈ g.chosen.axioms :=
  Ontology.mem_of_contains hc fun b hb => o.distinctKeys b (hg.subset hb) a ha

/-- A step that chooses an axiom which known symbols force in. -/
theorem Justified.add (hg : Justified o seed g) (ha : a ∈ o.axioms) {s : Signature}
    (hs : ∀ x ∈ s, x ∈ g.known) (hf : a.IsForced s) (hn : ¬ g.chosen.contains a) :
    Justified o seed (g.add a) where
  mem_known x := by
    have hx := hg.mem_known x
    simp only [mem_working] at hx
    simp only [Growth.add, mem_working, Std.TreeSet.mem_insertMany_list, List.contains_iff_mem,
      Ontology.mem_axioms_insert_new hn, hx, or_and_right, exists_or, exists_eq_left, or_assoc]
  subset b hb := by
    rw [Growth.add, Ontology.mem_axioms_insert_new hn] at hb
    rcases hb with hb | rfl
    · exact hg.subset hb
    · exact ha
  forced m hm b hb := by
    rw [Growth.add, Ontology.mem_axioms_insert_new hn] at hb
    rcases hb with hb | rfl
    · exact hg.forced m hm hb
    · refine hm.mem ha (fun x hx => ?_) hf
      have hx := (hg.mem_known x).1 (hs x hx)
      rw [mem_working] at hx ⊢
      exact hx.imp_right (Exists.imp fun c hc => ⟨hg.forced m hm hc.1, hc.2⟩)

/-- Where nothing is forced in any more, the least closed set is chosen. -/
theorem Justified.isLeastClosed (hg : Justified o seed g)
    (h : ∀ a ∈ o.axioms, a.IsForced g.known → a ∈ g.chosen.axioms) :
    IsLeastClosed o.axioms seed g.chosen.axioms where
  closed a ha hf := h a ha (hf.mono fun x _ => (hg.mem_known x).2)
  least := hg.forced

/-- Then it is the module. -/
theorem Justified.mem_extract_iff (hg : Justified o seed g)
    (h : ∀ a ∈ o.axioms, a.IsForced g.known → a ∈ g.chosen.axioms) :
    a ∈ g.chosen.axioms ↔ a ∈ (extract o seed).axioms := by
  have same := hg.isLeastClosed h
  have least := isLeastClosed_extract o seed
  exact ⟨fun ha => same.least _ least.closed ha, fun ha => least.least _ same.closed ha⟩

theorem Justified.size_le (hg : Justified o seed g) : g.chosen.size ≤ o.size :=
  Ontology.size_le_of_subset hg.subset

theorem size_add (hn : ¬ g.chosen.contains a) : (g.add a).chosen.size = g.chosen.size + 1 :=
  Ontology.size_insert_new hn

end

end Growth

/-! ### Looking up symbols -/

/-- A search by pending symbols; what is due are the axioms that mention the symbol looked
up last and were not classified since. -/
structure Worklist where
  growth : Growth
  pending : List Iri
  due : List Axiom

namespace Worklist

/-- What a search can do next. Symbols and axioms are taken in any order. -/
inductive Step (o : Ontology) : Worklist → Worklist → Prop
  /-- A pending symbol is looked up when nothing is due. -/
  | look {g : Growth} {x : Iri} {pending rest : List Iri} {due : List Axiom}
      (hp : pending.Perm (x :: rest)) (hd : due.Perm (o.axioms.filter (·.iris.contains x))) :
      Step o ⟨g, pending, []⟩ ⟨g, rest, due⟩
  /-- An axiom is passed over if it is chosen already or local. -/
  | skip {g : Growth} {a : Axiom} {pending : List Iri} {due rest : List Axiom}
      (hd : due.Perm (a :: rest)) (h : g.chosen.contains a ∨ a.isLocal g.known) :
      Step o ⟨g, pending, due⟩ ⟨g, pending, rest⟩
  /-- Any other axiom is chosen, and the symbols that join with it become pending. -/
  | choose {g : Growth} {a : Axiom} {pending next : List Iri} {due rest : List Axiom}
      (hd : due.Perm (a :: rest)) (hc : ¬ g.chosen.contains a) (hl : ¬ a.isLocal g.known)
      (hn : next.Perm ((a.signature.toList.filter fun x => !g.known.contains x) ++ pending)) :
      Step o ⟨g, pending, due⟩ ⟨g.add a, next, rest⟩

/-- What holds of a search at any time: all that the known symbols force in is chosen, due, or
to be met under a pending symbol. -/
structure Valid (o : Ontology) (seed : Signature) (w : Worklist) : Prop where
  justified : w.growth.Justified o seed
  pending_known : ∀ x ∈ w.pending, x ∈ w.growth.known
  due_mem : ∀ a ∈ w.due, a ∈ o.axioms
  due_shares : ∀ a ∈ w.due, a.Shares w.growth.known
  covered : ∀ a ∈ o.axioms, a.IsForced w.growth.known →
    a ∈ w.growth.chosen.axioms ∨ a ∈ w.due ∨ ∃ x ∈ a.iris, x ∈ w.pending

section
variable {o : Ontology} {seed : Signature} {v w : Worklist}

theorem valid_start {pending : List Iri} (hp : pending.Perm seed.toList) :
    Valid o seed ⟨.start seed, pending, []⟩ where
  justified := Growth.justified_start o seed
  pending_known x hx := Std.TreeSet.mem_toList.1 (hp.mem_iff.1 hx)
  due_mem a ha := absurd ha List.not_mem_nil
  due_shares a ha := absurd ha List.not_mem_nil
  covered a _ hf := by
    obtain ⟨⟨x, hx, hxs⟩, _⟩ := hf
    exact .inr (.inr ⟨x, hx, hp.mem_iff.2 (Std.TreeSet.mem_toList.2 hxs)⟩)

theorem Valid.look {g : Growth} {x : Iri} {pending rest : List Iri} {due : List Axiom}
    (hw : Valid o seed ⟨g, pending, []⟩) (hp : pending.Perm (x :: rest))
    (hd : due.Perm (o.axioms.filter (·.iris.contains x))) : Valid o seed ⟨g, rest, due⟩ := by
  have mem_due : ∀ a, a ∈ due ↔ a ∈ o.axioms ∧ x ∈ a.iris := by simp [hd.mem_iff]
  have mem_pending : ∀ y, y ∈ pending ↔ y = x ∨ y ∈ rest := by simp [hp.mem_iff]
  refine ⟨hw.justified, fun y hy => hw.pending_known y ((mem_pending y).2 (.inr hy)),
    fun a ha => ((mem_due a).1 ha).1, fun a ha => ?_, fun a ha hf => ?_⟩
  · exact ⟨x, ((mem_due a).1 ha).2, hw.pending_known x ((mem_pending x).2 (.inl rfl))⟩
  · rcases hw.covered a ha hf with h | h | ⟨y, hya, hy⟩
    · exact .inl h
    · exact absurd h List.not_mem_nil
    · rcases (mem_pending y).1 hy with rfl | hy
      · exact .inr (.inl ((mem_due a).2 ⟨ha, hya⟩))
      · exact .inr (.inr ⟨y, hya, hy⟩)

theorem Valid.skip {g : Growth} {a : Axiom} {pending : List Iri} {due rest : List Axiom}
    (hw : Valid o seed ⟨g, pending, due⟩) (hd : due.Perm (a :: rest))
    (h : g.chosen.contains a ∨ a.isLocal g.known) : Valid o seed ⟨g, pending, rest⟩ := by
  have mem_due : ∀ b, b ∈ due ↔ b = a ∨ b ∈ rest := by simp [hd.mem_iff]
  refine ⟨hw.justified, hw.pending_known, fun b hb => hw.due_mem b ((mem_due b).2 (.inr hb)),
    fun b hb => hw.due_shares b ((mem_due b).2 (.inr hb)), fun b hb hf => ?_⟩
  rcases hw.covered b hb hf with hc | hc | hc
  · exact .inl hc
  · rcases (mem_due b).1 hc with rfl | hc
    · exact .inl (h.elim (hw.justified.mem_of_contains hb) fun hl => absurd hl hf.2)
    · exact .inr (.inl hc)
  · exact .inr (.inr hc)

theorem Valid.choose {g : Growth} {a : Axiom} {pending next : List Iri} {due rest : List Axiom}
    (hw : Valid o seed ⟨g, pending, due⟩) (hd : due.Perm (a :: rest)) (hc : ¬ g.chosen.contains a)
    (hl : ¬ a.isLocal g.known)
    (hn : next.Perm ((a.signature.toList.filter fun x => !g.known.contains x) ++ pending)) :
    Valid o seed ⟨g.add a, next, rest⟩ := by
  have mem_due : ∀ b, b ∈ due ↔ b = a ∨ b ∈ rest := by simp [hd.mem_iff]
  have mem_next : ∀ y, y ∈ next ↔ y ∈ a.iris ∧ y ∉ g.known ∨ y ∈ pending := by
    simp [hn.mem_iff, Axiom.signature]
  have mem_known : ∀ y, y ∈ (g.add a).known ↔ y ∈ g.known ∨ y ∈ a.iris := by simp [Growth.add]
  have mem_chosen : ∀ b, b ∈ (g.add a).chosen.axioms ↔ b ∈ g.chosen.axioms ∨ b = a :=
    fun _ => Ontology.mem_axioms_insert_new hc
  have ha : a ∈ due := (mem_due a).2 (.inl rfl)
  refine ⟨hw.justified.add (hw.due_mem a ha) (fun _ => id) ⟨hw.due_shares a ha, hl⟩ hc,
    fun y hy => ?_, fun b hb => hw.due_mem b ((mem_due b).2 (.inr hb)), fun b hb => ?_,
    fun b hb hf => ?_⟩
  · exact (mem_known y).2 (((mem_next y).1 hy).symm.imp (hw.pending_known y) And.left)
  · obtain ⟨y, hy, hyk⟩ := hw.due_shares b ((mem_due b).2 (.inr hb))
    exact ⟨y, hy, (mem_known y).2 (.inl hyk)⟩
  · by_cases hj : ∃ y ∈ b.iris, y ∈ a.iris ∧ y ∉ g.known
    · -- a symbol joins that the axiom mentions, and it will be met there
      obtain ⟨y, hyb, hy⟩ := hj
      exact .inr (.inr ⟨y, hyb, (mem_next y).2 (.inl hy)⟩)
    · -- nothing changes for the axiom, so that it was covered before
      have hf : b.IsForced g.known := isForced_of_insertMany hf fun y hyb hya =>
        Decidable.by_contra fun hy => hj ⟨y, hyb, hya, hy⟩
      rcases hw.covered b hb hf with h | h | ⟨y, hyb, hy⟩
      · exact .inl ((mem_chosen b).2 (.inl h))
      · rcases (mem_due b).1 h with rfl | h
        · exact .inl ((mem_chosen b).2 (.inr rfl))
        · exact .inr (.inl h)
      · exact .inr (.inr ⟨y, hyb, (mem_next y).2 (.inr hy)⟩)

theorem Valid.step (hw : Valid o seed w) (h : Step o w v) : Valid o seed v := by
  cases h with
  | look hp hd => exact hw.look hp hd
  | skip hd h => exact hw.skip hd h
  | choose hd hc hl hn => exact hw.choose hd hc hl hn

/-- A run of a search. -/
theorem Valid.run (hw : Valid o seed w) (h : Relation.ReflTransGen (Step o) w v) :
    Valid o seed v := by
  induction h with
  | refl => exact hw
  | tail _ h ih => exact ih.step h

/-- A search ends: an axiom is chosen, or a symbol is looked up, or an axiom is classified. -/
theorem Valid.acc {w : Worklist} (hw : Valid o seed w) : Acc (fun v u => Step o u v) w :=
  Acc.intro w fun _ h => (hw.step h).acc
termination_by (o.size - w.growth.chosen.size, w.pending.length, w.due.length)
decreasing_by
  cases h with
  | look hp hd =>
    refine Prod.Lex.right _ (Prod.Lex.left _ _ ?_)
    simp [hp.length_eq]
  | skip hd h =>
    refine Prod.Lex.right _ (Prod.Lex.right _ ?_)
    simp [hd.length_eq]
  | choose hd hc hl hn =>
    have bound := (hw.choose hd hc hl hn).justified.size_le
    rw [Growth.size_add hc] at bound
    refine Prod.Lex.left _ _ ?_
    simp only [Growth.size_add hc]
    omega

/-- A search that can do nothing more has looked up all symbols. -/
theorem finished (h : ∀ v, ¬ Step o w v) : w.pending = [] ∧ w.due = [] := by
  obtain ⟨g, pending, due⟩ := w
  cases due with
  | nil =>
    cases pending with
    | nil => exact ⟨rfl, rfl⟩
    | cons x rest => exact absurd (.look (.refl _) (.refl _)) (h ⟨g, rest, _⟩)
  | cons a rest =>
    by_cases hs : g.chosen.contains a ∨ a.isLocal g.known
    · exact absurd (.skip (.refl _) hs) (h ⟨g, pending, rest⟩)
    · rw [not_or] at hs
      exact absurd (.choose (.refl _) hs.1 hs.2 (.refl _)) (h ⟨g.add a, _, rest⟩)

theorem Valid.mem_extract_iff (hw : Valid o seed w) (h : ∀ v, ¬ Step o w v) {a : Axiom} :
    a ∈ w.growth.chosen.axioms ↔ a ∈ (extract o seed).axioms := by
  obtain ⟨hp, hd⟩ := finished h
  refine hw.justified.mem_extract_iff fun b hb hf => ?_
  rcases hw.covered b hb hf with hc | hc | ⟨x, _, hx⟩
  · exact hc
  · exact absurd (hd ▸ hc) List.not_mem_nil
  · exact absurd (hp ▸ hx) List.not_mem_nil

end

end Worklist

/-! ### Scanning all axioms -/

/-- How all axioms are scanned once: in which order, and whether the symbols of what is
chosen join at once or only when the scan is over. -/
structure Scan where
  order : List Axiom
  late : Bool

namespace Growth

/-- Chooses an axiom if the given symbols force it in and it is not chosen yet. -/
def visit (s : Signature) (g : Growth) (a : Axiom) : Growth :=
  if a.iris.any s.contains && !g.chosen.contains a && !a.isLocal s then g.add a else g

/-- One scan after what was chosen before. -/
def scan (g : Growth) (how : Scan) : Growth :=
  how.order.foldl (fun h a => h.visit (if how.late then g.known else h.known) a) g

/-- What is chosen after some scans from the start, each done in its own way. -/
def scans (how : Nat → Scan) (seed : Signature) : Nat → Growth
  | 0 => start seed
  | n + 1 => (scans how seed n).scan (how n)

section
variable {o : Ontology} {seed s : Signature} {g h : Growth} {a : Axiom} {as : List Axiom}

theorem visit_eq : visit s g a = g.add a ∧ a.IsForced s ∧ ¬ g.chosen.contains a ∨
    visit s g a = g ∧ (a.IsForced s → g.chosen.contains a) := by
  have forced : a.iris.any s.contains && !g.chosen.contains a && !a.isLocal s ↔
      a.IsForced s ∧ ¬ g.chosen.contains a := by
    simp [Axiom.IsForced, Axiom.Shares, and_right_comm]
  rw [visit]
  split
  · next h => exact .inl ⟨rfl, forced.1 h⟩
  · next h => exact .inr ⟨rfl, fun hf => Decidable.by_contra fun hc => h (forced.2 ⟨hf, hc⟩)⟩

/-- What a scan chooses is forced in, and a scan that chooses nothing saw only what was
chosen before or was not forced in from the beginning. -/
theorem Justified.foldl_visit (late : Bool) (hh : Justified o seed h) (has : as ⊆ o.axioms)
    (hs : ∀ x ∈ s, x ∈ h.known) :
    let last := as.foldl (fun h a => h.visit (if late then s else h.known) a) h
    Justified o seed last ∧ h.chosen.size ≤ last.chosen.size ∧
      (last.chosen.size = h.chosen.size →
        ∀ a ∈ as, a.IsForced s → a ∈ h.chosen.axioms) := by
  induction as generalizing h with
  | nil => exact ⟨hh, Nat.le_refl _, fun _ a ha => absurd ha List.not_mem_nil⟩
  | cons a as ih =>
    obtain ⟨ha, has⟩ := List.cons_subset.1 has
    have upper : ∀ x ∈ (if late then s else h.known), x ∈ h.known := by
      cases late with
      | false => exact fun _ => id
      | true => exact hs
    have lower : a.IsForced s → a.IsForced (if late then s else h.known) := by
      cases late with
      | false => exact Axiom.IsForced.mono fun x _ => hs x
      | true => exact id
    rw [List.foldl_cons]
    rcases visit_eq (s := if late then s else h.known) (g := h) (a := a) with
      ⟨hv, hf, hc⟩ | ⟨hv, hc⟩
    · rw [hv]
      obtain ⟨hj, grown, _⟩ := ih (hh.add ha upper hf hc) has fun x hx => by
        simp [Growth.add, hs x hx]
      rw [size_add hc] at grown
      exact ⟨hj, by omega, by omega⟩
    · rw [hv]
      obtain ⟨hj, grown, settled⟩ := ih hh has hs
      refine ⟨hj, grown, fun heq => List.forall_mem_cons.2 ⟨fun hf => ?_, settled heq⟩⟩
      exact hh.mem_of_contains ha (hc (lower hf))

theorem Justified.scan (hg : Justified o seed g) (how : Scan) (hp : how.order.Perm o.axioms) :
    Justified o seed (g.scan how) ∧ g.chosen.size ≤ (g.scan how).chosen.size ∧
      ((g.scan how).chosen.size = g.chosen.size →
        ∀ a ∈ o.axioms, a.IsForced g.known → a ∈ g.chosen.axioms) := by
  obtain ⟨hj, grown, settled⟩ := hg.foldl_visit how.late hp.subset fun _ => id
  exact ⟨hj, grown, fun heq a ha => settled heq a (hp.mem_iff.2 ha)⟩

variable {how : Nat → Scan} (hp : ∀ n, (how n).order.Perm o.axioms)
include hp

theorem justified_scans (n : Nat) : Justified o seed (scans how seed n) := by
  induction n with
  | zero => exact justified_start o seed
  | succ n ih => exact (ih.scan (how n) (hp n)).1

/-- Some scan chooses nothing, since as many choose something as there are axioms. -/
theorem exists_settled_scan :
    ∃ n ≤ o.size, (scans how seed (n + 1)).chosen.size = (scans how seed n).chosen.size := by
  by_contra hall
  have rising : ∀ n ≤ o.size + 1, n ≤ (scans how seed n).chosen.size := by
    intro n
    induction n with
    | zero => simp
    | succ n ih =>
      intro hn
      have now : Justified o seed (scans how seed n) := justified_scans hp n
      have grown := (now.scan (how n) (hp n)).2.1
      have new : (scans how seed (n + 1)).chosen.size ≠ (scans how seed n).chosen.size :=
        fun heq => hall ⟨n, by omega, heq⟩
      have before := ih (by omega)
      simp only [scans] at new ⊢
      omega
  have last : Justified o seed (scans how seed (o.size + 1)) := justified_scans hp _
  have bound := last.size_le
  have full := rising (o.size + 1) (Nat.le_refl _)
  omega

theorem mem_scans_iff {n : Nat}
    (h : (scans how seed (n + 1)).chosen.size = (scans how seed n).chosen.size) :
    a ∈ (scans how seed n).chosen.axioms ↔ a ∈ (extract o seed).axioms :=
  (justified_scans hp n).mem_extract_iff (((justified_scans hp n).scan (how n) (hp n)).2.2 h)

end

end Growth

/-- The module of a seed is the least closed set. A search ends with it in whatever order
symbols and axioms are taken, and so does scanning all axioms until a scan chooses
nothing, in whatever way each scan is done. -/
theorem extract_least_in_any_order (o : Ontology) (seed : Signature) :
    IsLeastClosed o.axioms seed (extract o seed).axioms ∧
    (∀ pending : List Iri, pending.Perm seed.toList →
      Acc (fun v w => Worklist.Step o w v) ⟨.start seed, pending, []⟩ ∧
      ∀ w, Relation.ReflTransGen (Worklist.Step o) ⟨.start seed, pending, []⟩ w →
        (∀ v, ¬ Worklist.Step o w v) →
        ∀ a, a ∈ w.growth.chosen.axioms ↔ a ∈ (extract o seed).axioms) ∧
    ∀ how : Nat → Scan, (∀ n, (how n).order.Perm o.axioms) →
      (∃ n ≤ o.size, (Growth.scans how seed (n + 1)).chosen.size =
        (Growth.scans how seed n).chosen.size) ∧
      ∀ n, (Growth.scans how seed (n + 1)).chosen.size = (Growth.scans how seed n).chosen.size →
        ∀ a, a ∈ (Growth.scans how seed n).chosen.axioms ↔ a ∈ (extract o seed).axioms := by
  refine ⟨isLeastClosed_extract o seed, fun pending hp => ?_, fun how hp => ?_⟩
  · have valid := Worklist.valid_start (o := o) hp
    exact ⟨valid.acc, fun w run last a => (valid.run run).mem_extract_iff last⟩
  · exact ⟨Growth.exists_settled_scan hp, fun n h a => Growth.mem_scans_iff hp h⟩

end TabularOntology.Import
