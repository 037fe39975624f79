import Std.Data.String.ToNat
import TabularOntology.ClassExpression

/-! The atoms of functional syntax can be read off a text in one way. An IRI ends at its
bracket, the text of a literal at its quote, since quotes inside are escaped, and a blank
node identifier, a language tag or a number at the blank or parenthesis after it. This
needs names without these characters; the first character tells the sorts of atoms
apart. -/

namespace TabularOntology

/-! ### Plain names -/

/-- A name without a blank and without a closing parenthesis. -/
def isPlainName (s : String) : Bool := s.toList.all fun c => c != ' ' && c != ')'

/-- An IRI without a closing bracket. -/
def Iri.isPlain (x : Iri) : Bool := x.text.toList.all (· != '>')

def Individual.isPlain : Individual → Bool
  | .named x => x.isPlain
  | .anonymous node => isPlainName node

def Literal.isPlain : Literal → Bool
  | .plain _ => true
  | .tagged _ language => isPlainName language
  | .typed _ datatype => datatype.isPlain

/-! ### Ends of atoms -/

/-- What can follow an atom: nothing, a blank or a closing parenthesis. -/
def Stops (r : List Char) : Prop := ∀ c ∈ r.head?, c = ' ' ∨ c = ')'

/-- A text can be cut in one way before the first character of some kind. -/
theorem append_inj_of_stop {p : Char → Prop} {a b r t : List Char} (ha : ∀ c ∈ a, ¬ p c)
    (hb : ∀ c ∈ b, ¬ p c) (hr : ∀ c ∈ r.head?, p c) (ht : ∀ c ∈ t.head?, p c)
    (h : a ++ r = b ++ t) : a = b ∧ r = t := by
  induction a generalizing b with
  | nil =>
    cases b with
    | nil => exact ⟨rfl, h⟩
    | cons d b =>
      have first : r.head? = some d := by simpa using congrArg List.head? h
      exact absurd (hr d first) (hb d List.mem_cons_self)
  | cons c a ih =>
    cases b with
    | nil =>
      have first : t.head? = some c := by simpa using congrArg List.head? h.symm
      exact absurd (ht c first) (ha c List.mem_cons_self)
    | cons d b =>
      obtain ⟨rfl, left⟩ := List.cons.inj h
      obtain ⟨rfl, rfl⟩ := ih (fun e he => ha e (List.mem_cons_of_mem c he))
        (fun e he => hb e (List.mem_cons_of_mem c he)) left
      exact ⟨rfl, rfl⟩

section
variable {r t : List Char}

theorem plainName_append_inj {a b : String} (ha : isPlainName a) (hb : isPlainName b)
    (hr : Stops r) (ht : Stops t) (h : a.toList ++ r = b.toList ++ t) : a = b ∧ r = t := by
  have plain : ∀ s : String, isPlainName s → ∀ c ∈ s.toList, ¬ (c = ' ' ∨ c = ')') := by
    intro s hs c hc
    simpa using List.all_eq_true.1 hs c hc
  exact (append_inj_of_stop (plain a ha) (plain b hb) hr ht h).imp_left String.toList_inj.1

theorem Iri.bracketed_append_inj {x y : Iri} (hx : x.isPlain) (hy : y.isPlain)
    (h : x.bracketed.toList ++ r = y.bracketed.toList ++ t) : x = y ∧ r = t := by
  have plain : ∀ z : Iri, z.isPlain → ∀ c ∈ z.text.toList, ¬ c = '>' := by
    intro z hz c hc
    simpa using List.all_eq_true.1 hz c hc
  simp only [bracketed, String.toList_append, List.append_assoc] at h
  obtain ⟨hxy, hrt⟩ := append_inj_of_stop (plain x hx) (plain y hy) (by simp) (by simp)
    (List.append_cancel_left h)
  have hxy : x = y := by
    cases x
    cases y
    simpa [String.toList_inj] using hxy
  exact ⟨hxy, List.append_cancel_left hrt⟩

end

namespace Literal

/-! ### Escapes -/

/-- The characters that are escaped by one other character, after that one. -/
def shortEscapes : List (Char × Char) :=
  [('"', '"'), ('\\', '\\'), ('b', Char.ofNat 8), ('t', Char.ofNat 9), ('n', Char.ofNat 10),
    ('f', Char.ofNat 12), ('r', Char.ofNat 13)]

theorem hex4_inj {m n : Nat} (hm : m < 65536) (hn : n < 65536) (h : hex4 m = hex4 n) : m = n := by
  have digit : ∀ a < 16, ∀ b < 16, hexDigit a = hexDigit b → a = b := by decide
  simp only [hex4, List.cons.injEq, and_true] at h
  obtain ⟨h3, h2, h1, h0⟩ := h
  have h3 := digit _ (Nat.mod_lt _ (by decide)) _ (Nat.mod_lt _ (by decide)) h3
  have h2 := digit _ (Nat.mod_lt _ (by decide)) _ (Nat.mod_lt _ (by decide)) h2
  have h1 := digit _ (Nat.mod_lt _ (by decide)) _ (Nat.mod_lt _ (by decide)) h1
  have h0 := digit _ (Nat.mod_lt _ (by decide)) _ (Nat.mod_lt _ (by decide)) h0
  omega

theorem escape_cases (c : Char) :
    (escape c = [c] ∧ c ≠ '"' ∧ c ≠ '\\') ∨
    (∃ m, escape c = ['\\', m] ∧ (m, c) ∈ shortEscapes) ∨
    (escape c = '\\' :: 'u' :: hex4 c.toNat ∧ c.toNat < 65536) := by
  have code : ∀ n, c.toNat = n → c = Char.ofNat n := fun n hn => hn ▸ (Char.ofNat_toNat c).symm
  unfold escape
  split
  · next h => exact .inr (.inl ⟨'"', rfl, by simp [h, shortEscapes]⟩)
  split
  · next h => exact .inr (.inl ⟨'\\', rfl, by simp [h, shortEscapes]⟩)
  dsimp only
  split
  · next h => exact .inr (.inl ⟨'b', rfl, by simp [code 8 h, shortEscapes]⟩)
  split
  · next h => exact .inr (.inl ⟨'t', rfl, by simp [code 9 h, shortEscapes]⟩)
  split
  · next h => exact .inr (.inl ⟨'n', rfl, by simp [code 10 h, shortEscapes]⟩)
  split
  · next h => exact .inr (.inl ⟨'f', rfl, by simp [code 12 h, shortEscapes]⟩)
  split
  · next h => exact .inr (.inl ⟨'r', rfl, by simp [code 13 h, shortEscapes]⟩)
  split
  · exact .inr (.inr ⟨rfl, by omega⟩)
  · exact .inl ⟨rfl, ‹_›, ‹_›⟩

/-- Escapes are a prefix code. -/
theorem escape_append_inj {c d : Char} {x y : List Char} (h : escape c ++ x = escape d ++ y) :
    c = d ∧ x = y := by
  have short : ∀ e ∈ shortEscapes, ∀ f ∈ shortEscapes, e.1 = f.1 → e.2 = f.2 := by decide
  have long : ∀ e ∈ shortEscapes, e.1 ≠ 'u' := by decide
  rcases escape_cases c with ⟨hc, _, hc'⟩ | ⟨m, hc, hm⟩ | ⟨hc, hcn⟩ <;>
    rcases escape_cases d with ⟨hd, _, hd'⟩ | ⟨k, hd, hk⟩ | ⟨hd, hdn⟩ <;>
    simp only [hc, hd, List.cons_append, List.nil_append, List.cons.injEq, true_and] at h
  · exact h
  · exact absurd h.1 hc'
  · exact absurd h.1 hc'
  · exact absurd h.1.symm hd'
  · exact ⟨short _ hm _ hk h.1, h.2⟩
  · exact absurd h.1 (long _ hm)
  · exact absurd h.1.symm hd'
  · exact absurd h.1.symm (long _ hk)
  · obtain ⟨h, hxy⟩ := List.append_inj h rfl
    have h := hex4_inj hcn hdn h
    rw [← Char.ofNat_toNat c, h, Char.ofNat_toNat]
    exact ⟨rfl, hxy⟩

theorem escape_head_ne (c : Char) : (escape c).head? ≠ some '"' ∧ escape c ≠ [] := by
  rcases escape_cases c with ⟨h, hc, _⟩ | ⟨m, h, _⟩ | ⟨h, _⟩ <;> simp_all

theorem flatMap_escape_inj {s u x y : List Char}
    (h : s.flatMap escape ++ '"' :: x = u.flatMap escape ++ '"' :: y) : s = u ∧ x = y := by
  have first : ∀ (c : Char) (z w : List Char), '"' :: z ≠ escape c ++ w := by
    intro c z w hz
    obtain ⟨hne, hnil⟩ := escape_head_ne c
    obtain ⟨d, ds, hd⟩ := List.exists_cons_of_ne_nil hnil
    rw [hd] at hz hne
    exact hne (congrArg some (List.cons.inj hz).1.symm)
  induction s generalizing u with
  | nil =>
    cases u with
    | nil => simpa using h
    | cons d u =>
      simp only [List.flatMap_nil, List.nil_append, List.flatMap_cons, List.append_assoc] at h
      exact absurd h (first d _ _)
  | cons c s ih =>
    cases u with
    | nil =>
      simp only [List.flatMap_nil, List.nil_append, List.flatMap_cons, List.append_assoc] at h
      exact absurd h.symm (first c _ _)
    | cons d u =>
      simp only [List.flatMap_cons, List.append_assoc] at h
      obtain ⟨rfl, left⟩ := escape_append_inj h
      obtain ⟨rfl, rfl⟩ := ih left
      exact ⟨rfl, rfl⟩

/-! ### Literals -/

/-- What is written after the quoted text. -/
def suffix : Literal → List Char
  | .plain _ => []
  | .tagged _ language => '@' :: language.toList
  | .typed _ datatype => '^' :: '^' :: datatype.bracketed.toList

variable {l m : Literal} {r t : List Char}

theorem toList_text (l : Literal) :
    l.text.toList = '"' :: (l.value.toList.flatMap escape ++ '"' :: l.suffix) := by
  cases l <;> simp [text, quote, value, suffix]

theorem ext_suffix (hv : l.value = m.value) (hs : l.suffix = m.suffix) : l = m := by
  cases l <;> cases m <;> simp_all [value, suffix, String.toList_inj, Iri.bracketed_inj]

theorem text_inj (h : l.text = m.text) : l = m := by
  rw [← String.toList_inj, toList_text, toList_text] at h
  obtain ⟨hv, hs⟩ := flatMap_escape_inj (List.cons.inj h).2
  exact ext_suffix (String.toList_inj.1 hv) hs

theorem suffix_append_inj (hl : l.isPlain) (hm : m.isPlain) (hr : Stops r) (ht : Stops t)
    (h : l.suffix ++ r = m.suffix ++ t) : l.suffix = m.suffix ∧ r = t := by
  have mark : ∀ (c : Char) (z w : List Char), Stops z → c ≠ ' ' → c ≠ ')' → z ≠ c :: w := by
    rintro c z w hz hb hp rfl
    exact (hz c rfl).elim hb hp
  cases l with
  | plain =>
    cases m with
    | plain => exact ⟨rfl, h⟩
    | tagged => exact absurd h (mark '@' _ _ hr (by decide) (by decide))
    | typed => exact absurd h (mark '^' _ _ hr (by decide) (by decide))
  | tagged =>
    cases m with
    | plain => exact absurd h.symm (mark '@' _ _ ht (by decide) (by decide))
    | tagged =>
      obtain ⟨hs, h⟩ := plainName_append_inj hl hm hr ht (List.cons.inj h).2
      exact ⟨by rw [suffix, suffix, hs], h⟩
    | typed => exact absurd (List.cons.inj h).1 (by decide)
  | typed =>
    cases m with
    | plain => exact absurd h.symm (mark '^' _ _ ht (by decide) (by decide))
    | tagged => exact absurd (List.cons.inj h).1 (by decide)
    | typed =>
      obtain ⟨hs, h⟩ := Iri.bracketed_append_inj hl hm (List.cons.inj (List.cons.inj h).2).2
      exact ⟨by rw [suffix, suffix, hs], h⟩

theorem text_append_inj (hl : l.isPlain) (hm : m.isPlain) (hr : Stops r) (ht : Stops t)
    (h : l.text.toList ++ r = m.text.toList ++ t) : l = m ∧ r = t := by
  simp only [toList_text, List.cons_append, List.append_assoc, List.cons.injEq, true_and] at h
  obtain ⟨hv, h⟩ := flatMap_escape_inj h
  obtain ⟨hs, h⟩ := suffix_append_inj hl hm hr ht h
  exact ⟨ext_suffix (String.toList_inj.1 hv) hs, h⟩

end Literal

end TabularOntology
