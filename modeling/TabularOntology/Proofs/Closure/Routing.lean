import Mathlib.Algebra.Order.BigOperators.Group.List
import Mathlib.Algebra.Order.Group.Nat
import Mathlib.Algebra.Ring.Nat
import TabularOntology.Import.Closure
import TabularOntology.Proofs.Extraction.Least
import TabularOntology.Proofs.Signature

/-! Rounds of routing. What is routed to a source grows with what is routed to the others,
since larger seeds give larger modules. So rounds that route everything anew only ever
route more when they start with nothing, as do rounds that keep what was routed before,
and both end with the least routing that another round does not change. -/

namespace TabularOntology.Import

/-- Fewer are counted where one no longer is and no other one is new. -/
theorem countP_lt {α : Type} {p q : α → Bool} {xs : List α} (h : ∀ x ∈ xs, q x → p x) {x : α}
    (hx : x ∈ xs) (hp : p x) (hq : ¬ q x) : xs.countP q < xs.countP p := by
  obtain ⟨ys, zs, rfl⟩ := List.append_of_mem hx
  have before : ys.countP q ≤ ys.countP p := List.countP_mono_left fun y hy => h y (by simp [hy])
  have after : zs.countP q ≤ zs.countP p := List.countP_mono_left fun y hy => h y (by simp [hy])
  simp only [List.countP_append, List.countP_cons, hp, hq, if_true, Bool.false_eq_true, if_false]
  omega

namespace Source

variable {s : Source} {seed seed' routed routed' : Signature} {needs : List (String × Signature)}
variable {x : Iri}

theorem mem_explicit : x ∈ s.explicit ↔
    x ∈ s.requested.locality ∨ ∃ a ∈ s.requested.axioms, x ∈ a.iris := by
  simp [Source.explicit]

theorem mem_needs : x ∈ s.needs routed ↔ x ∈ s.requested.locality ∨
    ∃ a, (a ∈ s.requested.axioms ∨ a ∈ (extract s.ontology routed).axioms) ∧ x ∈ a.iris := by
  rw [Source.needs, Std.TreeSet.mem_union_iff, mem_explicit, Ontology.mem_signature, or_assoc]
  simp only [or_and_right, exists_or]

/-- A larger seed needs more. -/
theorem needs_mono (h : ∀ x ∈ routed, x ∈ routed') (hx : x ∈ s.needs routed) :
    x ∈ s.needs routed' := by
  have larger : (extract s.ontology routed).axioms ⊆ (extract s.ontology routed').axioms :=
    (isLeastClosed_extract _ _).subset (isLeastClosed_extract _ _) (List.Subset.refl _) h
  rw [mem_needs] at hx ⊢
  exact hx.imp_right fun ⟨a, ha, hxa⟩ => ⟨a, ha.imp_right fun kept => larger kept, hxa⟩

theorem mem_route : x ∈ s.route seed needs ↔
    (x ∈ seed ∨ ∃ n ∈ needs, n.1 ≠ s.name ∧ x ∈ n.2) ∧ x ∈ s.ontology.signature ∨
      x ∈ s.requested.locality := by
  simp [Source.route, Std.TreeSet.mem_union_iff, Std.TreeSet.mem_inter_iff,
    Signature.mem_foldl_union, and_assoc]

/-- The symbols that can be routed to the source. -/
def usable (s : Source) : Signature := s.ontology.signature ∪ s.requested.locality

theorem mem_usable_of_mem_route (h : x ∈ s.route seed needs) : x ∈ s.usable := by
  rw [mem_route] at h
  rw [usable, Std.TreeSet.mem_union_iff]
  exact h.imp_left And.right

theorem room_mono (h : ∀ x ∈ routed, x ∈ routed') : s.room routed' ≤ s.room routed :=
  List.countP_mono_left fun x _ hx => by
    simp only [Bool.not_eq_true', Signature.contains_eq_false] at hx ⊢
    exact mt (h x) hx

theorem room_lt (h : ∀ x ∈ routed, x ∈ routed') (hu : x ∈ s.usable) (hx : x ∈ routed')
    (hn : x ∉ routed) : s.room routed' < s.room routed := by
  refine countP_lt (fun y _ hy => ?_) (Std.TreeSet.mem_toList.2 hu) (by simpa using hn)
    (by simpa using hx)
  simp only [Bool.not_eq_true', Signature.contains_eq_false] at hy ⊢
  exact mt (h y) hy

end Source

namespace Routing

variable {seed seed' : Signature} {st t : Routing} {s : Source} {r : Signature} {x : Iri}

/-- What all sources need. -/
def needs (st : Routing) : List (String × Signature) := st.map fun (s, r) => (s.name, s.needs r)

/-- Routes everything anew. -/
def reroute (seed : Signature) (st : Routing) : Routing :=
  st.map fun (s, _) => (s, s.route seed st.needs)

/-- A routing that routes no more to any source than another one. -/
def Below (st t : Routing) : Prop := ∀ s r, (s, r) ∈ st → ∃ r', (s, r') ∈ t ∧ ∀ x ∈ r, x ∈ r'

/-- A routing that has all that it asks for. -/
def Settled (seed : Signature) (st : Routing) : Prop :=
  ∀ s r, (s, r) ∈ st → ∀ x ∈ s.route seed st.needs, x ∈ r

/-- A routing that asks for all that it has. -/
def Rising (seed : Signature) (st : Routing) : Prop :=
  ∀ s r, (s, r) ∈ st → ∀ x ∈ r, x ∈ s.route seed st.needs

/-- A routing that another round does not change. -/
def Stable (seed : Signature) (st : Routing) : Prop :=
  ∀ s r, (s, r) ∈ st → ∀ x, x ∈ s.route seed st.needs ↔ x ∈ r

/-- The least routing between the same sources that has all that it asks for. -/
structure IsLeastSettled (seed : Signature) (st : Routing) : Prop where
  settled : Settled seed st
  least : ∀ t : Routing, t.map Prod.fst = st.map Prod.fst → Settled seed t → Below st t

theorem stable_iff : Stable seed st ↔ Settled seed st ∧ Rising seed st := by
  constructor
  · intro h
    exact ⟨fun s r hr x => (h s r hr x).1, fun s r hr x => (h s r hr x).2⟩
  · rintro ⟨hs, hr⟩ s r h x
    exact ⟨hs s r h x, hr s r h x⟩

theorem mem_map_fst : s ∈ st.map Prod.fst ↔ ∃ r, (s, r) ∈ st := by simp

theorem mem_needs {n : String × Signature} :
    n ∈ st.needs ↔ ∃ s r, (s, r) ∈ st ∧ (s.name, s.needs r) = n := by
  simp [needs]

theorem mem_reroute : (s, r) ∈ reroute seed st ↔
    (∃ r', (s, r') ∈ st) ∧ s.route seed st.needs = r := by
  simp only [reroute, List.mem_map, Prod.mk.injEq, Prod.exists]
  constructor
  · rintro ⟨s, r', h, rfl, rfl⟩
    exact ⟨⟨r', h⟩, rfl⟩
  · rintro ⟨⟨r', h⟩, rfl⟩
    exact ⟨s, r', h, rfl, rfl⟩

theorem map_fst_reroute : (reroute seed st).map Prod.fst = st.map Prod.fst := by
  simp [Routing.reroute, Function.comp_def]

theorem mem_round : (s, r) ∈ round seed st ↔
    ∃ r', (s, r') ∈ st ∧ r' ∪ s.route seed st.needs = r := by
  simp only [round, List.mem_map, Prod.mk.injEq, Prod.exists]
  constructor
  · rintro ⟨s, r', h, rfl, rfl⟩
    exact ⟨r', h, rfl⟩
  · rintro ⟨r', h, rfl⟩
    exact ⟨s, r', h, rfl, rfl⟩

/-! ### Order -/

/-- More is asked for where more is routed. -/
theorem Below.route (h : Below st t) (hs : ∀ x ∈ seed, x ∈ seed')
    (hx : x ∈ s.route seed st.needs) : x ∈ s.route seed' t.needs := by
  rw [Source.mem_route] at hx ⊢
  refine hx.imp_left (And.imp_left (Or.imp (hs x) ?_))
  rintro ⟨n, hn, hne, hxn⟩
  obtain ⟨s', r, hr, rfl⟩ := mem_needs.1 hn
  obtain ⟨r', hr', hle⟩ := h s' r hr
  exact ⟨_, mem_needs.2 ⟨s', r', hr', rfl⟩, hne, Source.needs_mono hle hxn⟩

theorem below_reroute (h : Below st t) (ht : Settled seed t) : Below (reroute seed st) t := by
  intro s r hr
  obtain ⟨⟨r₀, h₀⟩, rfl⟩ := mem_reroute.1 hr
  obtain ⟨r', hr', _⟩ := h s r₀ h₀
  exact ⟨r', hr', fun x hx => ht s r' hr' x (h.route (fun _ => id) hx)⟩

theorem below_round (h : Below st t) (ht : Settled seed t) : Below (round seed st) t := by
  intro s r hr
  obtain ⟨r₀, h₀, rfl⟩ := mem_round.1 hr
  obtain ⟨r', hr', hle⟩ := h s r₀ h₀
  refine ⟨r', hr', fun x hx => ?_⟩
  rw [Std.TreeSet.mem_union_iff] at hx
  exact hx.elim (hle x) fun hx => ht s r' hr' x (h.route (fun _ => id) hx)

theorem Rising.below (h : Rising seed st) : Below st (reroute seed st) :=
  fun s r hr => ⟨_, mem_reroute.2 ⟨⟨r, hr⟩, rfl⟩, h s r hr⟩

/-- A least routing asks for all that it has. -/
theorem IsLeastSettled.rising (h : IsLeastSettled seed st) : Rising seed st := by
  have below : Below (reroute seed st) st :=
    below_reroute (fun s r hr => ⟨r, hr, fun _ => id⟩) h.settled
  have settled : Settled seed (reroute seed st) := by
    intro s r hr x hx
    obtain ⟨_, rfl⟩ := mem_reroute.1 hr
    exact below.route (fun _ => id) hx
  intro s r hr x hx
  obtain ⟨r', hr', more⟩ := h.least _ map_fst_reroute settled s r hr
  obtain ⟨_, rfl⟩ := mem_reroute.1 hr'
  exact more x hx

theorem rising_reroute (h : Rising seed st) : Rising seed (reroute seed st) := by
  intro s r hr x hx
  obtain ⟨_, rfl⟩ := mem_reroute.1 hr
  exact h.below.route (fun _ => id) hx

/-! ### Rounds -/

theorem room_eq_sum (st : Routing) : st.room = (st.map fun p => p.1.room p.2).sum := by
  induction st with
  | nil => rfl
  | cons p st ih => exact congrArg (p.1.room p.2 + ·) ih

/-- Where something new is routed, less is left to route. -/
theorem room_lt {f : Source → Signature → Signature}
    (hf : ∀ s r, (s, r) ∈ st → ∀ x ∈ r, x ∈ f s r) (hr : (s, r) ∈ st) (hu : x ∈ s.usable)
    (hx : x ∈ f s r) (hn : x ∉ r) : room (st.map fun (s, r) => (s, f s r)) < room st := by
  rw [room_eq_sum, room_eq_sum, List.map_map]
  refine List.sum_lt_sum _ _ (fun p hp => Source.room_mono (hf p.1 p.2 hp)) ⟨(s, r), hr, ?_⟩
  exact Source.room_lt (hf s r hr) hu hx hn

/-- A routing that does not have all that it asks for asks for something new. -/
theorem exists_new (h : ¬ Settled seed st) :
    ∃ s r, (s, r) ∈ st ∧ ∃ x ∈ s.route seed st.needs, x ∉ r := by
  simpa [Settled] using h

theorem room_reroute_lt (h : Rising seed st) (hn : ¬ Settled seed st) :
    (reroute seed st).room < st.room := by
  obtain ⟨s, r, hr, x, hx, hxr⟩ := exists_new hn
  exact room_lt (f := fun s _ => s.route seed st.needs) h hr
    (Source.mem_usable_of_mem_route hx) hx hxr

theorem room_round_lt (hn : ¬ Settled seed st) : (round seed st).room < st.room := by
  obtain ⟨s, r, hr, x, hx, hxr⟩ := exists_new hn
  refine room_lt (f := fun s r => r ∪ s.route seed st.needs) (fun s r _ y hy => ?_) hr
    (Source.mem_usable_of_mem_route hx) (Std.TreeSet.mem_union_iff.2 (.inr hx)) hxr
  exact Std.TreeSet.mem_union_iff.2 (.inl hy)

/-- Routing everything anew again and again, everything is routed after as many rounds as there
are symbols to route. -/
theorem exists_settled_iterate (h : Rising seed st) :
    ∃ n ≤ st.room, Settled seed ((reroute seed)^[n] st) := by
  induction hk : st.room using Nat.strong_induction_on generalizing st with
  | _ k ih =>
    by_cases hs : Settled seed st
    · exact ⟨0, Nat.zero_le k, hs⟩
    · have less := room_reroute_lt h hs
      obtain ⟨n, hn, settled⟩ := ih _ (hk ▸ less) (rising_reroute h) rfl
      exact ⟨n + 1, by omega, settled⟩

theorem rising_iterate (h : Rising seed st) (n : ℕ) : Rising seed ((reroute seed)^[n] st) := by
  induction n generalizing st with
  | zero => exact h
  | succ n ih => exact ih (rising_reroute h)

theorem below_iterate (h : Below st t) (ht : Settled seed t) (n : ℕ) :
    Below ((reroute seed)^[n] st) t := by
  induction n generalizing st with
  | zero => exact h
  | succ n ih => exact ih (below_reroute h ht)

theorem map_fst_iterate (n : ℕ) : ((reroute seed)^[n] st).map Prod.fst = st.map Prod.fst := by
  induction n generalizing st with
  | zero => rfl
  | succ n ih => exact ih.trans map_fst_reroute

/-- What rounds end with that keep what was routed before. -/
theorem settled_settle : Settled seed (settle seed st) := by
  fun_induction settle seed st with
  | case1 st next _ => assumption
  | case2 st next h => exact Classical.byContradiction fun hn => h (room_round_lt hn)

theorem below_settle (h : Below st t) (ht : Settled seed t) : Below (settle seed st) t := by
  fun_induction Routing.settle seed st with
  | case1 st next _ =>
    rename_i ih
    exact ih (below_round h ht)
  | case2 => exact h

theorem map_fst_settle : (settle seed st).map Prod.fst = st.map Prod.fst := by
  fun_induction settle seed st with
  | case1 st next _ =>
    rename_i ih
    exact ih.trans (by simp [next, Routing.round, Function.comp_def])
  | case2 => rfl

/-! ### The least routing -/

/-- A start where nothing is routed. -/
def Blank (st : Routing) : Prop := ∀ s r, (s, r) ∈ st → ∀ x, x ∉ r

theorem Blank.below (h : Blank st) (ht : t.map Prod.fst = st.map Prod.fst) : Below st t := by
  intro s r hr
  have hs : s ∈ t.map Prod.fst := ht ▸ mem_map_fst.2 ⟨r, hr⟩
  obtain ⟨r', hr'⟩ := mem_map_fst.1 hs
  exact ⟨r', hr', fun x hx => absurd hx (h s r hr x)⟩

theorem Blank.rising (h : Blank st) : Rising seed st := fun s r hr x hx => absurd hx (h s r hr x)

/-- Rounds that keep what was routed end with the least routing. -/
theorem Blank.isLeastSettled_settle (h : Blank st) : IsLeastSettled seed (settle seed st) where
  settled := settled_settle
  least _ ht hs := below_settle (h.below (ht.trans map_fst_settle)) hs

/-- Rounds that route everything anew end with the least routing. -/
theorem Blank.isLeastSettled_iterate (h : Blank st) {n : ℕ}
    (hn : Settled seed ((reroute seed)^[n] st)) : IsLeastSettled seed ((reroute seed)^[n] st) where
  settled := hn
  least _ ht hs := below_iterate (h.below (ht.trans (map_fst_iterate n))) hs n

/-- Rounds that route everything anew change nothing after as many rounds as there are symbols
to route. -/
theorem Blank.exists_stable (h : Blank st) :
    ∃ n ≤ st.room, Stable seed ((reroute seed)^[n] st) := by
  have rising : Rising seed st := h.rising
  obtain ⟨n, hn, settled⟩ := exists_settled_iterate rising
  exact ⟨n, hn, stable_iff.2 ⟨settled, rising_iterate rising n⟩⟩

end Routing

end TabularOntology.Import
