import TabularOntology.Proofs.Key.Atoms

/-! Forms can be read off their text in one way: after a word comes its parenthesis, after
an argument a blank or the closing parenthesis, and no atom begins like a word. -/

namespace TabularOntology

/-! ### Atoms -/

/-- The atoms that axioms have. -/
inductive IsAtom : String → Prop
  | iri {x : Iri} (h : x.isPlain) : IsAtom x.bracketed
  | node {n : String} (h : isPlainName n) : IsAtom ("_:" ++ n)
  | literal {l : Literal} (h : l.isPlain) : IsAtom l.text
  | number (n : Nat) : IsAtom (toString n)

/-- A character that words can have: none that an atom begins with, no blank and no
parenthesis. -/
def isWordChar (c : Char) : Bool := !c.isDigit && ['<', '_', '"', ' ', '(', ')'].all (· != c)

def isWord (s : String) : Bool := !s.toList.isEmpty && s.toList.all isWordChar

theorem isAtom_individual {i : Individual} (h : i.isPlain) : IsAtom i.text := by
  cases i with
  | named x => exact .iri h
  | anonymous n => exact .node h

section
variable {a b : String} {r t : List Char}

theorem isDigit_of_mem_number {n : Nat} {c : Char} (hc : c ∈ (toString n).toList) : c.isDigit :=
  Nat.isDigit_of_mem_toDigits (b := 10) (n := n) (by decide) (by decide)
    (by simpa [Nat.toString_eq_ofList_toDigits] using hc)

theorem number_append_inj {m n : Nat} (hr : Stops r) (ht : Stops t)
    (h : (toString m).toList ++ r = (toString n).toList ++ t) : m = n ∧ r = t := by
  have digits : ∀ n : Nat, ∀ c ∈ (toString n).toList, ¬ (c = ' ' ∨ c = ')') := by
    rintro n c hc (rfl | rfl) <;> exact absurd (isDigit_of_mem_number hc) (by decide)
  obtain ⟨hmn, h⟩ := append_inj_of_stop (digits m) (digits n) hr ht h
  exact ⟨Nat.repr_injective (String.toList_inj.1 hmn), h⟩

/-- The first characters of numbers are digits, and other atoms begin otherwise. -/
theorem exists_digit (n : Nat) : ∃ c cs, (toString n).toList = c :: cs ∧ c.isDigit := by
  have hn : (toString n).toList ≠ [] := by simp
  obtain ⟨c, cs, h⟩ := List.exists_cons_of_ne_nil hn
  exact ⟨c, cs, h, isDigit_of_mem_number (h ▸ List.mem_cons_self)⟩

theorem toList_bracketed (x : Iri) : x.bracketed.toList = '<' :: (x.text.toList ++ ['>']) := by
  simp [Iri.bracketed]

theorem toList_node (n : String) : ("_:" ++ n).toList = '_' :: ':' :: n.toList := by simp

theorem IsAtom.exists_cons (h : IsAtom a) :
    ∃ c cs, a.toList = c :: cs ∧ c ≠ ')' ∧ ¬ isWordChar c := by
  cases h with
  | @iri x => exact ⟨'<', _, toList_bracketed x, by decide, by decide⟩
  | @node n => exact ⟨'_', _, toList_node n, by decide, by decide⟩
  | @literal l => exact ⟨'"', _, Literal.toList_text l, by decide, by decide⟩
  | number n =>
    obtain ⟨c, cs, h, hd⟩ := exists_digit n
    refine ⟨c, cs, h, ?_, by simp [isWordChar, hd]⟩
    rintro rfl
    exact absurd hd (by decide)

/-- An atom ends where it can end. -/
theorem IsAtom.append_inj (ha : IsAtom a) (hb : IsAtom b) (hr : Stops r) (ht : Stops t)
    (h : a.toList ++ r = b.toList ++ t) : a = b ∧ r = t := by
  have heads : (a.toList ++ r).head? = (b.toList ++ t).head? := congrArg List.head? h
  have number : ∀ (c : Char) (n : Nat) (u : List Char),
      ((toString n).toList ++ u).head? = some c → c.isDigit := by
    intro c n u hc
    obtain ⟨d, ds, hd, digit⟩ := exists_digit n
    rw [hd, List.cons_append, List.head?_cons, Option.some.injEq] at hc
    exact hc ▸ digit
  cases ha with
  | @iri x hx =>
    rw [toList_bracketed] at heads
    cases hb with
    | iri hy => exact (Iri.bracketed_append_inj hx hy h).imp_left (congrArg _)
    | node => simp at heads
    | literal => simp [Literal.toList_text] at heads
    | number n => exact absurd (number _ _ _ heads.symm) (by decide)
  | @node m hm =>
    rw [toList_node] at heads
    cases hb with
    | iri => simp [toList_bracketed] at heads
    | node hn =>
      simp only [toList_node, List.cons_append, List.cons.injEq, true_and] at h
      exact (plainName_append_inj hm hn hr ht h).imp_left (congrArg _)
    | literal => simp [Literal.toList_text] at heads
    | number n => exact absurd (number _ _ _ heads.symm) (by decide)
  | @literal l hl =>
    rw [Literal.toList_text] at heads
    cases hb with
    | iri => simp [toList_bracketed] at heads
    | node => simp at heads
    | literal hm => exact (Literal.text_append_inj hl hm hr ht h).imp_left (congrArg _)
    | number n => exact absurd (number _ _ _ heads.symm) (by decide)
  | number m =>
    cases hb with
    | iri => rw [toList_bracketed] at heads; exact absurd (number _ _ _ heads) (by decide)
    | node => rw [toList_node] at heads; exact absurd (number _ _ _ heads) (by decide)
    | literal => rw [Literal.toList_text] at heads; exact absurd (number _ _ _ heads) (by decide)
    | number n => exact (number_append_inj hr ht h).imp_left (congrArg _)

/-! ### Words -/

theorem isWord_ofList {cs : List Char} (h : !cs.isEmpty && cs.all isWordChar) :
    isWord (String.ofList cs) := by
  rwa [isWord, String.toList_ofList]

theorem isWord_append (ha : isWord a) (hb : isWord b) : isWord (a ++ b) := by
  simp_all [isWord]

theorem exists_cons_of_isWord (h : isWord a) : ∃ c cs, a.toList = c :: cs ∧ isWordChar c := by
  simp only [isWord, Bool.and_eq_true, Bool.not_eq_true', List.isEmpty_eq_false_iff,
    List.all_eq_true] at h
  obtain ⟨c, cs, hc⟩ := List.exists_cons_of_ne_nil h.1
  exact ⟨c, cs, hc, h.2 c (by simp [hc])⟩

/-- A word ends at its parenthesis. -/
theorem word_append_inj (ha : isWord a) (hb : isWord b)
    (h : a.toList ++ '(' :: r = b.toList ++ '(' :: t) : a = b ∧ r = t := by
  have free : ∀ s : String, isWord s → ∀ c ∈ s.toList, ¬ c = '(' := by
    rintro s hs c hc rfl
    simp only [isWord, Bool.and_eq_true, List.all_eq_true] at hs
    exact absurd (hs.2 _ hc) (by decide)
  obtain ⟨hab, hrt⟩ := append_inj_of_stop (free a ha) (free b hb) (by simp) (by simp) h
  exact ⟨String.toList_inj.1 hab, (List.cons.inj hrt).2⟩

end

/-! ### Forms -/

namespace Form

/-- A form of words and atoms. -/
inductive IsReadable : Form → Prop
  | atom {s : String} (h : IsAtom s) : IsReadable (.atom s)
  | node {w : String} {args : List Form} (hw : isWord w) (h : ∀ f ∈ args, IsReadable f) :
      IsReadable (.node w args)

section Arguments
variable {w : String} {f g k : Form}

theorem IsReadable.node₁ (hw : isWord w) (hf : f.IsReadable) : IsReadable (.node w [f]) :=
  .node hw (List.forall_mem_singleton.2 hf)

theorem IsReadable.node₂ (hw : isWord w) (hf : f.IsReadable) (hg : g.IsReadable) :
    IsReadable (.node w [f, g]) :=
  .node hw (List.forall_mem_cons.2 ⟨hf, List.forall_mem_singleton.2 hg⟩)

theorem IsReadable.node₃ (hw : isWord w) (hf : f.IsReadable) (hg : g.IsReadable)
    (hk : k.IsReadable) : IsReadable (.node w [f, g, k]) := by
  have rest : ∀ f ∈ [g, k], IsReadable f :=
    List.forall_mem_cons.2 ⟨hg, List.forall_mem_singleton.2 hk⟩
  exact .node hw (List.forall_mem_cons.2 ⟨hf, rest⟩)

end Arguments

/-- The arguments, each after a blank. -/
def spaced (fs : List Form) : List Char := fs.flatMap fun f => ' ' :: f.text.toList

theorem spaced_cons (f : Form) (fs : List Form) :
    spaced (f :: fs) = ' ' :: (f.text.toList ++ spaced fs) :=
  rfl

theorem toList_join (f : Form) (fs : List Form) :
    (Text.join " " (texts (f :: fs))).toList = f.text.toList ++ spaced fs := by
  induction fs generalizing f with
  | nil => simp [texts, Text.join, spaced]
  | cons g gs ih =>
    have step : Text.join " " (texts (f :: g :: gs)) =
        f.text ++ " " ++ Text.join " " (texts (g :: gs)) := rfl
    simp [step, ih, spaced]

theorem toList_text_node (w : String) (args : List Form) : (node w args).text.toList =
    w.toList ++ '(' :: ((Text.join " " (texts args)).toList ++ [')']) := by
  simp [text]

theorem stops_spaced (fs : List Form) (r : List Char) : Stops (spaced fs ++ ')' :: r) := by
  cases fs <;> simp [spaced, Stops]

section
variable {f g : Form} {fs gs : List Form} {r t : List Char}

theorem IsReadable.exists_cons (h : IsReadable f) : ∃ c cs, f.text.toList = c :: cs ∧ c ≠ ')' := by
  cases h with
  | atom h =>
    obtain ⟨c, cs, hc, hp, _⟩ := h.exists_cons
    exact ⟨c, cs, hc, hp⟩
  | node hw =>
    obtain ⟨c, cs, hc, hp⟩ := exists_cons_of_isWord hw
    refine ⟨c, cs ++ _, by rw [toList_text_node, hc, List.cons_append], ?_⟩
    rintro rfl
    exact absurd hp (by decide)

/-- An atom does not begin like a word. -/
theorem atom_ne_node {a w : String} {args : List Form} (ha : IsAtom a) (hw : isWord w) :
    a.toList ++ r ≠ (node w args).text.toList ++ t := by
  intro h
  obtain ⟨c, cs, hc, _, hn⟩ := ha.exists_cons
  obtain ⟨d, ds, hd, hp⟩ := exists_cons_of_isWord hw
  rw [toList_text_node, hc, hd] at h
  exact hn ((List.cons.inj h).1 ▸ hp)

/-- Arguments that can be read off one by one can be read off together. -/
theorem spaced_inj
    (read : ∀ f ∈ fs, ∀ g r t, IsReadable g → Stops r → Stops t →
      f.text.toList ++ r = g.text.toList ++ t → f = g ∧ r = t)
    (hgs : ∀ g ∈ gs, IsReadable g) (h : spaced fs ++ ')' :: r = spaced gs ++ ')' :: t) :
    fs = gs ∧ r = t := by
  induction fs generalizing gs with
  | nil =>
    cases gs with
    | nil => simpa [spaced] using h
    | cons g gs => simp [spaced] at h
  | cons f fs ih =>
    cases gs with
    | nil => simp [spaced] at h
    | cons g gs =>
      simp only [spaced_cons, List.cons_append, List.append_assoc, List.cons.injEq, true_and] at h
      obtain ⟨rfl, left⟩ := read f List.mem_cons_self g _ _ (hgs g List.mem_cons_self)
        (stops_spaced fs r) (stops_spaced gs t) h
      obtain ⟨rfl, rfl⟩ := ih (fun f hf => read f (List.mem_cons_of_mem _ hf))
        (fun g hg => hgs g (List.mem_cons_of_mem _ hg)) left
      exact ⟨rfl, rfl⟩

theorem join_inj
    (read : ∀ f ∈ fs, ∀ g r t, IsReadable g → Stops r → Stops t →
      f.text.toList ++ r = g.text.toList ++ t → f = g ∧ r = t)
    (hfs : ∀ f ∈ fs, IsReadable f) (hgs : ∀ g ∈ gs, IsReadable g)
    (h : (Text.join " " (texts fs)).toList ++ ')' :: r =
      (Text.join " " (texts gs)).toList ++ ')' :: t) : fs = gs ∧ r = t := by
  have closing : ∀ (f : Form) (fs : List Form) (u v : List Char), IsReadable f →
      ')' :: u ≠ (Text.join " " (texts (f :: fs))).toList ++ ')' :: v := by
    intro f fs u v hf hu
    obtain ⟨c, cs, hc, hp⟩ := hf.exists_cons
    rw [toList_join, hc] at hu
    exact hp (List.cons.inj hu).1.symm
  cases fs with
  | nil =>
    cases gs with
    | nil => simpa [texts, Text.join] using h
    | cons g gs => exact absurd h (closing g gs _ _ (hgs g List.mem_cons_self))
  | cons f fs =>
    cases gs with
    | nil => exact absurd h.symm (closing f fs _ _ (hfs f List.mem_cons_self))
    | cons g gs =>
      rw [toList_join, toList_join] at h
      refine spaced_inj read hgs ?_
      rw [spaced_cons, spaced_cons, List.cons_append, List.cons_append, h]

/-- A form is known by its text, whatever follows it. -/
theorem IsReadable.text_append_inj (hf : IsReadable f) (hg : IsReadable g) (hr : Stops r)
    (ht : Stops t) (h : f.text.toList ++ r = g.text.toList ++ t) : f = g ∧ r = t := by
  induction hf generalizing g r t with
  | @atom a ha =>
    cases hg with
    | atom hb => exact (ha.append_inj hb hr ht h).imp_left (congrArg _)
    | node hw => exact absurd h (atom_ne_node ha hw)
  | @node w args hw hargs ih =>
    cases hg with
    | atom ha => exact absurd h.symm (atom_ne_node ha hw)
    | node hv hbs =>
      simp only [toList_text_node, List.append_assoc, List.cons_append] at h
      obtain ⟨rfl, left⟩ := word_append_inj hw hv h
      obtain ⟨rfl, rfl⟩ := join_inj (fun f hf g r t hg hr ht => ih f hf hg hr ht) hargs hbs left
      exact ⟨rfl, rfl⟩

theorem IsReadable.text_inj (hf : IsReadable f) (hg : IsReadable g) (h : f.text = g.text) :
    f = g :=
  (hf.text_append_inj (r := []) (t := []) hg (by simp [Stops]) (by simp [Stops])
    (by rw [h])).1

end

end Form

end TabularOntology
