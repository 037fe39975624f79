import TabularOntology.Axiom
import TabularOntology.Proofs.Key.Forms

/-! Keys tell axioms apart. The words of a form and the number of its arguments give the
constructor back, and the atoms give back what it was applied to, so that different
axioms have different forms. The forms of axioms with plain names can be read off their
text, and so different axioms with plain names have different keys. -/

namespace TabularOntology

/-! ### Forms of expressions -/

section Forms

attribute [local simp] Iri.bracketed_inj String.toList_inj

theorem eq_of_map_eq {α β : Type} {f : α → β} {xs ys : List α}
    (h : ∀ x ∈ xs, ∀ y, f x = f y → x = y) (he : xs.map f = ys.map f) : xs = ys := by
  induction xs generalizing ys with
  | nil => exact (List.map_eq_nil_iff.1 he.symm).symm
  | cons x xs ih =>
    obtain ⟨y, ys, rfl, hxy, hs⟩ := List.map_eq_cons_iff.1 he.symm
    rw [h x List.mem_cons_self y hxy.symm, ih (fun z hz => h z (List.mem_cons_of_mem x hz)) hs.symm]

/-- The same for one operand or none. -/
theorem eq_of_toList_map_eq {α β : Type} {f : α → β} {x y : Option α}
    (h : ∀ a ∈ x, ∀ b, f a = f b → a = b) (he : x.toList.map f = y.toList.map f) : x = y := by
  have := eq_of_map_eq (fun a ha => h a (Option.mem_toList.1 ha)) he
  cases x <;> cases y <;> simp_all

@[simp] theorem Literal.text_eq_iff {l m : Literal} : l.text = m.text ↔ l = m :=
  ⟨Literal.text_inj, congrArg _⟩

@[simp] theorem Individual.text_inj {i j : Individual} : i.text = j.text ↔ i = j := by
  have apart : ∀ (x : Iri) (n : String), x.bracketed ≠ "_:" ++ n := by
    intro x n h
    have h := congrArg String.toList h
    rw [toList_bracketed, toList_node] at h
    exact absurd (List.cons.inj h).1 (by decide)
  refine ⟨fun h => ?_, congrArg _⟩
  cases i with
  | named x =>
    cases j with
    | named y => exact congrArg _ (Iri.bracketed_inj.1 h)
    | anonymous n => exact absurd h (apart x n)
  | anonymous m =>
    cases j with
    | named y => exact absurd h.symm (apart y m)
    | anonymous n => simpa [text] using h

@[simp] theorem ObjectProperty.form_inj {p q : ObjectProperty} : p.form = q.form ↔ p = q := by
  cases p <;> cases q <;> simp [form]

@[simp] theorem Bound.word_inj {b c : Bound} : b.word = c.word ↔ b = c := by
  cases b <;> cases c <;> simp [word]

theorem Bound.cardinality_word_inj {sort : String} {b c : Bound}
    (h : sort ++ b.word ++ "Cardinality" = sort ++ c.word ++ "Cardinality") : b = c := by
  rw [String.append_assoc, String.append_assoc] at h
  have h := congrArg String.toList h
  simp only [String.toList_append, List.append_cancel_left_eq, List.append_cancel_right_eq] at h
  exact word_inj.1 (String.toList_inj.1 h)

/-- The words of cardinalities. -/
theorem Bound.cardinality_word_eq {sort w : String} {b : Bound} :
    sort ++ b.word ++ "Cardinality" = w ↔ b = .min ∧ sort ++ "Min" ++ "Cardinality" = w ∨
      b = .max ∧ sort ++ "Max" ++ "Cardinality" = w ∨
      b = .exactly ∧ sort ++ "Exact" ++ "Cardinality" = w := by
  cases b <;> simp [word]

theorem Bound.eq_cardinality_word {sort w : String} {b : Bound} :
    w = sort ++ b.word ++ "Cardinality" ↔ b = .min ∧ sort ++ "Min" ++ "Cardinality" = w ∨
      b = .max ∧ sort ++ "Max" ++ "Cardinality" = w ∨
      b = .exactly ∧ sort ++ "Exact" ++ "Cardinality" = w :=
  eq_comm.trans cardinality_word_eq

theorem Bound.object_ne_data (b c : Bound) :
    "Object" ++ b.word ++ "Cardinality" ≠ "Data" ++ c.word ++ "Cardinality" := by
  cases b <;> cases c <;> decide

@[simp] theorem EntityKind.keyword_inj {k l : EntityKind} : k.keyword = l.keyword ↔ k = l := by
  cases k <;> cases l <;> simp [keyword]

@[simp] theorem Characteristic.word_inj {c d : Characteristic} : c.word = d.word ↔ c = d := by
  cases c <;> cases d <;> simp [word]

@[simp] theorem DataRange.form_inj {d e : DataRange} : d.form = e.form ↔ d = e := by
  refine ⟨fun h => ?_, congrArg _⟩
  induction d generalizing e with
  | datatype x => cases e <;> simp_all [form]
  | intersection ds ih | union ds ih =>
    cases e <;> simp only [form, forms_eq_map, reduceCtorEq, Form.node.injEq] at h <;>
      simp at h
    rw [eq_of_map_eq (fun d hd e => ih d hd) h]
  | complement d ih =>
    cases e <;> simp [form] at h
    rw [ih h]

@[simp] theorem ClassExpression.form_inj {c d : ClassExpression} : c.form = d.form ↔ c = d := by
  refine ⟨fun h => ?_, congrArg _⟩
  induction c generalizing d with
  | named x =>
    cases d with
    | named y => simpa [form] using h
    | _ => simp [form] at h
  | intersection cs ih =>
    cases d with
    | intersection es =>
      simp only [form, forms_eq_map, Form.node.injEq, true_and] at h
      rw [eq_of_map_eq (fun c hc d => ih c hc) h]
    | _ => simp [form, Bound.eq_cardinality_word] at h
  | union cs ih =>
    cases d with
    | union es =>
      simp only [form, forms_eq_map, Form.node.injEq, true_and] at h
      rw [eq_of_map_eq (fun c hc d => ih c hc) h]
    | _ => simp [form, Bound.eq_cardinality_word] at h
  | complement c ih =>
    cases d with
    | complement e =>
      simp only [form, Form.node.injEq, List.cons.injEq, true_and, and_true] at h
      rw [ih h]
    | _ => simp [form, Bound.eq_cardinality_word] at h
  | some p c ih =>
    cases d with
    | some q e =>
      simp only [form, Form.node.injEq, List.cons.injEq, true_and, and_true] at h
      rw [ObjectProperty.form_inj.1 h.1, ih h.2]
    | _ => simp [form, Bound.eq_cardinality_word] at h
  | only p c ih =>
    cases d with
    | only q e =>
      simp only [form, Form.node.injEq, List.cons.injEq, true_and, and_true] at h
      rw [ObjectProperty.form_inj.1 h.1, ih h.2]
    | _ => simp [form, Bound.eq_cardinality_word] at h
  | hasValue p i =>
    cases d with
    | hasValue q j => simpa [form] using h
    | _ => simp [form, Bound.eq_cardinality_word] at h
  | dataSome p d =>
    cases d with
    | dataSome q e => simpa [form] using h
    | _ => simp [form, Bound.eq_cardinality_word] at h
  | dataOnly p d =>
    cases d with
    | dataOnly q e => simpa [form] using h
    | _ => simp [form, Bound.eq_cardinality_word] at h
  | dataHasValue p l =>
    cases d with
    | dataHasValue q m => simpa [form] using h
    | _ => simp [form, Bound.eq_cardinality_word] at h
  | cardinality b n p filler ih =>
    cases d with
    | cardinality b' m q filler' =>
      simp only [form_cardinality, Form.node.injEq, List.cons.injEq, Form.atom.injEq] at h
      obtain ⟨hb, hn, hp, hf⟩ := h
      rw [Bound.cardinality_word_inj hb, Nat.repr_injective hn, ObjectProperty.form_inj.1 hp,
        eq_of_toList_map_eq (fun c hc d => ih c hc) hf]
    | dataCardinality b' m q range =>
      simp only [form_cardinality, form_dataCardinality, Form.node.injEq] at h
      exact absurd h.1 (Bound.object_ne_data b b')
    | _ => simp [form, Bound.cardinality_word_eq] at h
  | dataCardinality b n p filler =>
    cases d with
    | dataCardinality b' m q filler' =>
      simp only [form_dataCardinality, Form.node.injEq, List.cons.injEq, Form.atom.injEq] at h
      obtain ⟨hb, hn, hp, hf⟩ := h
      rw [Bound.cardinality_word_inj hb, Nat.repr_injective hn, Iri.bracketed_inj.1 hp,
        eq_of_toList_map_eq (fun _ _ _ => DataRange.form_inj.1) hf]
    | cardinality b' m q filler' =>
      simp only [form_cardinality, form_dataCardinality, Form.node.injEq] at h
      exact absurd h.1.symm (Bound.object_ne_data b' b)
    | _ => simp [form, Bound.cardinality_word_eq] at h

/-! ### Forms of axioms -/

@[simp] theorem map_form_inj {cs ds : List ClassExpression} :
    cs.map ClassExpression.form = ds.map ClassExpression.form ↔ cs = ds :=
  ⟨eq_of_map_eq fun _ _ _ => ClassExpression.form_inj.1, congrArg _⟩

@[simp] theorem map_bracketed_inj {ps qs : List Iri} :
    (ps.map fun p => Form.atom p.bracketed) = (qs.map fun p => Form.atom p.bracketed) ↔ ps = qs :=
  ⟨eq_of_map_eq fun _ _ _ h => Iri.bracketed_inj.1 (Form.atom.inj h), congrArg _⟩

theorem Characteristic.append_inj {c d : Characteristic}
    (h : c.word ++ "ObjectProperty" = d.word ++ "ObjectProperty") : c = d := by
  have h := congrArg String.toList h
  simp only [String.toList_append, List.append_cancel_right_eq] at h
  exact word_inj.1 (String.toList_inj.1 h)

/-- Different axioms have different forms. -/
theorem Axiom.form_inj {a b : Axiom} (h : a.form = b.form) : a = b := by
  cases a with
  | characteristic c p =>
    cases b with
    | characteristic d q =>
      simp only [form, irisForm, Form.node.injEq, map_bracketed_inj, List.cons.injEq, and_true] at h
      rw [Characteristic.append_inj h.1, h.2]
    | _ => cases c <;> simp [form, irisForm, Characteristic.word] at h
  | _ =>
    cases b with
    | characteristic d q => cases d <;> simp [form, irisForm, Characteristic.word] at h
    | _ => simp_all [form, irisForm]

end Forms

/-! ### Plain axioms -/

mutual

/-- A data range with plain names only. -/
def DataRange.isPlain : DataRange → Bool
  | .datatype d => d.isPlain
  | .intersection ds | .union ds => DataRange.arePlain ds
  | .complement d => d.isPlain

def DataRange.arePlain : List DataRange → Bool
  | [] => true
  | d :: ds => d.isPlain && DataRange.arePlain ds

end

mutual

/-- A class expression with plain names only. -/
def ClassExpression.isPlain : ClassExpression → Bool
  | .named c => c.isPlain
  | .intersection cs | .union cs => ClassExpression.arePlain cs
  | .complement c => c.isPlain
  | .some p c | .only p c => p.iri.isPlain && c.isPlain
  | .hasValue p i => p.iri.isPlain && i.isPlain
  | .cardinality _ _ p none => p.iri.isPlain
  | .cardinality _ _ p (Option.some c) => p.iri.isPlain && c.isPlain
  | .dataSome p d | .dataOnly p d => p.isPlain && d.isPlain
  | .dataHasValue p l => p.isPlain && l.isPlain
  | .dataCardinality _ _ p none => p.isPlain
  | .dataCardinality _ _ p (Option.some d) => p.isPlain && d.isPlain

def ClassExpression.arePlain : List ClassExpression → Bool
  | [] => true
  | c :: cs => c.isPlain && ClassExpression.arePlain cs

end

/-- An axiom with plain names only. -/
def Axiom.isPlain : Axiom → Bool
  | .declaration _ x => x.isPlain
  | .annotationAssertion p s v => p.isPlain && s.isPlain && v.isPlain
  | .subAnnotationProperty p q | .subDataProperty p q | .inverseObjectProperties p q =>
    p.isPlain && q.isPlain
  | .subClass c d => c.isPlain && d.isPlain
  | .equivalentClasses cs | .disjointClasses cs => cs.all ClassExpression.isPlain
  | .subObjectProperty p q => p.iri.isPlain && q.iri.isPlain
  | .equivalentObjectProperties ps | .disjointObjectProperties ps
  | .equivalentDataProperties ps | .disjointDataProperties ps => ps.all Iri.isPlain
  | .objectPropertyDomain p c | .objectPropertyRange p c | .dataPropertyDomain p c =>
    p.isPlain && c.isPlain
  | .characteristic _ p | .functionalDataProperty p => p.isPlain
  | .dataPropertyRange p d => p.isPlain && d.isPlain
  | .classAssertion c i => c.isPlain && i.isPlain
  | .objectPropertyAssertion p i j | .negativeObjectPropertyAssertion p i j =>
    p.isPlain && i.isPlain && j.isPlain
  | .dataPropertyAssertion p i v | .negativeDataPropertyAssertion p i v =>
    p.isPlain && i.isPlain && v.isPlain

theorem DataRange.arePlain_eq_all (ds : List DataRange) : arePlain ds = ds.all isPlain := by
  induction ds with
  | nil => rfl
  | cons d ds ih => rw [arePlain, ih, List.all_cons]

theorem ClassExpression.arePlain_eq_all (cs : List ClassExpression) :
    arePlain cs = cs.all isPlain := by
  induction cs with
  | nil => rfl
  | cons c cs ih => rw [arePlain, ih, List.all_cons]

section Readable

open Form (IsReadable)

theorem isReadable_iri {x : Iri} (h : x.isPlain) : IsReadable (.atom x.bracketed) := .atom (.iri h)

theorem isReadable_individual {i : Individual} (h : i.isPlain) : IsReadable (.atom i.text) :=
  .atom (isAtom_individual h)

theorem isReadable_literal {l : Literal} (h : l.isPlain) : IsReadable (.atom l.text) :=
  .atom (.literal h)

theorem isWord_cardinality {sort : String} (h : isWord sort) (b : Bound) :
    isWord (sort ++ b.word ++ "Cardinality") := by
  have word : isWord b.word := by cases b <;> exact isWord_ofList (by decide)
  exact isWord_append (isWord_append h word) (isWord_ofList (by decide))

theorem isReadable_number (n : Nat) : IsReadable (.atom n.repr) := .atom (.number n)

theorem ObjectProperty.isReadable {p : ObjectProperty} (h : p.iri.isPlain) : p.form.IsReadable := by
  cases p with
  | named p => exact isReadable_iri h
  | inverse p => exact .node₁ (isWord_ofList (by decide)) (isReadable_iri h)

theorem DataRange.isReadable {d : DataRange} (h : d.isPlain) : d.form.IsReadable := by
  induction d with
  | datatype d => exact isReadable_iri h
  | intersection ds ih | union ds ih =>
    simp only [isPlain, arePlain_eq_all, List.all_eq_true] at h
    refine .node (isWord_ofList (by decide)) ?_
    rw [forms_eq_map, List.forall_mem_map]
    exact fun d hd => ih d hd (h d hd)
  | complement d ih => exact .node₁ (isWord_ofList (by decide)) (ih h)

theorem ClassExpression.isReadable {c : ClassExpression} (h : c.isPlain) : c.form.IsReadable := by
  induction c with
  | named c => exact isReadable_iri h
  | intersection cs ih | union cs ih =>
    simp only [isPlain, arePlain_eq_all, List.all_eq_true] at h
    refine .node (isWord_ofList (by decide)) ?_
    rw [forms_eq_map, List.forall_mem_map]
    exact fun c hc => ih c hc (h c hc)
  | complement c ih => exact .node₁ (isWord_ofList (by decide)) (ih h)
  | some p c ih | only p c ih =>
    simp only [isPlain, Bool.and_eq_true] at h
    exact .node₂ (isWord_ofList (by decide)) (ObjectProperty.isReadable h.1) (ih h.2)
  | hasValue p i =>
    simp only [isPlain, Bool.and_eq_true] at h
    exact .node₂ (isWord_ofList (by decide))
      (ObjectProperty.isReadable h.1) (isReadable_individual h.2)
  | dataSome p d | dataOnly p d =>
    simp only [isPlain, Bool.and_eq_true] at h
    exact .node₂ (isWord_ofList (by decide)) (isReadable_iri h.1) (DataRange.isReadable h.2)
  | dataHasValue p l =>
    simp only [isPlain, Bool.and_eq_true] at h
    exact .node₂ (isWord_ofList (by decide)) (isReadable_iri h.1) (isReadable_literal h.2)
  | cardinality b n p filler ih =>
    have sort : isWord "Object" := isWord_ofList (by decide)
    have word := isWord_cardinality sort b
    cases filler with
    | none =>
      exact .node₂ word (isReadable_number n) (ObjectProperty.isReadable h)
    | some c =>
      simp only [isPlain, Bool.and_eq_true] at h
      exact .node₃ word (isReadable_number n) (ObjectProperty.isReadable h.1) (ih c rfl h.2)
  | dataCardinality b n p filler =>
    have sort : isWord "Data" := isWord_ofList (by decide)
    have word := isWord_cardinality sort b
    cases filler with
    | none =>
      exact .node₂ word (isReadable_number n) (isReadable_iri h)
    | some d =>
      simp only [isPlain, Bool.and_eq_true] at h
      exact .node₃ word (isReadable_number n) (isReadable_iri h.1) (DataRange.isReadable h.2)

theorem isReadable_irisForm {word : String} {ps : List Iri} (hw : isWord word)
    (h : ∀ p ∈ ps, p.isPlain) : (Axiom.irisForm word ps).IsReadable := by
  refine .node hw ?_
  rw [List.forall_mem_map]
  exact fun p hp => isReadable_iri (h p hp)

theorem Axiom.isReadable {a : Axiom} (h : a.isPlain) : a.form.IsReadable := by
  cases a with
  | declaration kind x =>
    have word : isWord kind.keyword := by cases kind <;> exact isWord_ofList (by decide)
    have inner : IsReadable (.node kind.keyword [.atom x.bracketed]) :=
      .node₁ word (isReadable_iri h)
    exact .node₁ (isWord_ofList (by decide)) inner
  | annotationAssertion p s v =>
    simp only [isPlain, Bool.and_eq_true] at h
    exact .node₃ (isWord_ofList (by decide))
      (isReadable_iri h.1.1) (isReadable_iri h.1.2) (isReadable_literal h.2)
  | subAnnotationProperty p q | subDataProperty p q | inverseObjectProperties p q =>
    simp only [isPlain, Bool.and_eq_true] at h
    exact isReadable_irisForm (isWord_ofList (by decide)) (by simp [h])
  | subClass c d =>
    simp only [isPlain, Bool.and_eq_true] at h
    exact .node₂ (isWord_ofList (by decide))
      (ClassExpression.isReadable h.1) (ClassExpression.isReadable h.2)
  | equivalentClasses cs | disjointClasses cs =>
    simp only [isPlain, List.all_eq_true] at h
    refine .node (isWord_ofList (by decide)) ?_
    rw [List.forall_mem_map]
    exact fun c hc => ClassExpression.isReadable (h c hc)
  | subObjectProperty p q =>
    simp only [isPlain, Bool.and_eq_true] at h
    exact .node₂ (isWord_ofList (by decide))
      (ObjectProperty.isReadable h.1) (ObjectProperty.isReadable h.2)
  | equivalentObjectProperties ps | disjointObjectProperties ps | equivalentDataProperties ps
  | disjointDataProperties ps =>
    exact isReadable_irisForm (isWord_ofList (by decide)) (List.all_eq_true.1 h)
  | objectPropertyDomain p c | objectPropertyRange p c | dataPropertyDomain p c =>
    simp only [isPlain, Bool.and_eq_true] at h
    exact .node₂ (isWord_ofList (by decide)) (isReadable_iri h.1) (ClassExpression.isReadable h.2)
  | characteristic c p =>
    have word : isWord c.word := by cases c <;> exact isWord_ofList (by decide)
    exact isReadable_irisForm (isWord_append word (isWord_ofList (by decide)))
      (List.forall_mem_singleton.2 h)
  | functionalDataProperty p =>
    exact isReadable_irisForm (isWord_ofList (by decide)) (List.forall_mem_singleton.2 h)
  | dataPropertyRange p d =>
    simp only [isPlain, Bool.and_eq_true] at h
    exact .node₂ (isWord_ofList (by decide)) (isReadable_iri h.1) (DataRange.isReadable h.2)
  | classAssertion c i =>
    simp only [isPlain, Bool.and_eq_true] at h
    exact .node₂ (isWord_ofList (by decide))
      (ClassExpression.isReadable h.1) (isReadable_individual h.2)
  | objectPropertyAssertion p i j | negativeObjectPropertyAssertion p i j =>
    simp only [isPlain, Bool.and_eq_true] at h
    exact .node₃ (isWord_ofList (by decide))
      (isReadable_iri h.1.1) (isReadable_individual h.1.2) (isReadable_individual h.2)
  | dataPropertyAssertion p i v | negativeDataPropertyAssertion p i v =>
    simp only [isPlain, Bool.and_eq_true] at h
    exact .node₃ (isWord_ofList (by decide))
      (isReadable_iri h.1.1) (isReadable_individual h.1.2) (isReadable_literal h.2)

/-- Axioms with plain names are known by their keys. -/
theorem Axiom.eq_of_key_eq {a b : Axiom} (ha : a.isPlain) (hb : b.isPlain) (h : a.key = b.key) :
    a = b :=
  form_inj ((Axiom.isReadable ha).text_inj (Axiom.isReadable hb) h)

/-- Plain axioms have the same key just if they are the same. -/
theorem Axiom.key_eq_key_iff {a b : Axiom} (ha : a.isPlain) (hb : b.isPlain) :
    a.key = b.key ↔ a = b :=
  ⟨eq_of_key_eq ha hb, congrArg key⟩

/-- The order in which disjoint classes are given does not show, the nesting of
intersections does. -/
theorem Axiom.key_eq_key_iff_nested :
    let a : ClassExpression := .named ⟨"urn:a"⟩
    let b : ClassExpression := .named ⟨"urn:b"⟩
    (ofDisjointClasses [a, b]).isPlain ∧ (ofDisjointClasses [b, a]).isPlain ∧
    ofDisjointClasses [a, b] = ofDisjointClasses [b, a] ∧
    (subClass a (.intersection [a, b])).isPlain ∧
    (subClass a (.intersection [.intersection [a, b]])).isPlain ∧
    (subClass a (.intersection [a, b])).key ≠
      (subClass a (.intersection [.intersection [a, b]])).key := by
  intro a b
  have order : (ofDisjointClasses [a, b]).key = (ofDisjointClasses [b, a]).key := by decide
  refine ⟨by decide, by decide, (key_eq_key_iff (by decide) (by decide)).1 order,
    by decide, by decide, fun same => ?_⟩
  have equal := (key_eq_key_iff (by decide) (by decide)).1 same
  simp at equal

end Readable

end TabularOntology
