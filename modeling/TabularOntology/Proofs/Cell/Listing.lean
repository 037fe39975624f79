import TabularOntology.Text.Alphanumeric
import TabularOntology.Proofs.Cell.RoundTrip
import TabularOntology.Proofs.Cell.Splitting

/-! Printed expressions in cells of many values. The text of an expression is one value of a
cell as it stands: its quoted texts close their own sections, its other characters are passed
over, and it neither begins nor ends with a blank. So a cell that lists expressions is split into
their texts, and each of them is read back. -/

namespace TabularOntology.Cell

open Text

/-- Characters other than separators and escapes. -/
def isSafe (c : Char) : Bool := !(c == ';' || c == '\\')

/-- References that a cell of many values keeps as they are written. -/
def TermReference.isListable : TermReference → Bool
  | .iri s => s.toList.all isNeutral
  | .name s => s.toList.all isSafe
  | .label none _ => true
  | .label (some space) _ => space.toList.all isSafe
  | .anonymous s => s.toList.all isSafe

/-- A text that stands as it is, where it is one of several values. -/
structure IsKept (cs : List Char) : Prop where
  yields : Yields cs cs
  head : ∃ c ∈ cs.head?, isBlank c = false
  last : ∃ c ∈ cs.getLast?, isBlank c = false

section
variable {c quote : Char} {cs u v : List Char} {s : String}

theorem IsKept.ofText (h : IsKept cs) (text : s.toList = cs) : IsKept s.toList := by
  rwa [text]

/-- Kept texts with a neutral one between them. -/
theorem IsKept.around {m : List Char} (hu : IsKept u) (hm : m.all isNeutral = true)
    (hv : IsKept v) : IsKept (u ++ (m ++ v)) := by
  obtain ⟨b, hb, headed⟩ := hu.head
  obtain ⟨e, he, ended⟩ := hv.last
  rw [Option.mem_def] at hb he
  refine ⟨hu.yields.append ((yields_of_isNeutral hm).append hv.yields), ⟨b, ?_, headed⟩,
    ⟨e, ?_, ended⟩⟩
  · rw [List.head?_append, hb]
    rfl
  · rw [List.getLast?_append, List.getLast?_append, he]
    rfl

theorem IsKept.append (hu : IsKept u) (hv : IsKept v) : IsKept (u ++ v) :=
  hu.around (m := []) rfl hv

theorem IsKept.blank (hu : IsKept u) (hv : IsKept v) : IsKept (u ++ ' ' :: v) :=
  hu.around (m := [' ']) rfl hv

theorem isKept_of_all (nonempty : cs ≠ [])
    (h : ∀ c ∈ cs, isNeutral c = true ∧ isBlank c = false) : IsKept cs := by
  have neutral : cs.all isNeutral = true := List.all_eq_true.2 fun c hc => (h c hc).1
  refine ⟨yields_of_isNeutral neutral, ⟨cs.head nonempty, ?_, ?_⟩,
    ⟨cs.getLast nonempty, ?_, ?_⟩⟩
  · exact List.head?_eq_some_head nonempty
  · exact (h _ (List.head_mem nonempty)).2
  · exact List.getLast?_eq_some_getLast nonempty
  · exact (h _ (List.getLast_mem nonempty)).2

theorem IsKept.trim (h : IsKept s.toList) : trim s = s := by
  obtain ⟨b, hb, headed⟩ := h.head
  obtain ⟨e, he, ended⟩ := h.last
  rw [← String.toList_inj, toList_trim]
  refine trimChars_eq_self (fun c hc => ?_) fun c hc => ?_
  · rwa [Option.mem_unique hc hb]
  · rwa [Option.mem_unique hc he]

theorem IsKept.ne_empty (h : IsKept s.toList) : s ≠ "" := by
  rintro rfl
  obtain ⟨c, hc, -⟩ := h.head
  cases hc

/-! ### Quoted texts -/

theorem cutCell_inside {m : Mark} (whole : m.IsWhole) (other : m ≠ .plain quote)
    (pos start : Nat) (rest : List Char) :
    cutCell pos (some (quote, start)) (m.chars ++ rest) =
      (cutCell (pos + m.chars.length) (some (quote, start)) rest).map
        (·.modifyHead (m.chars ++ ·)) := by
  have inside : m.sectionAfter pos (some (quote, start)) = some (quote, start) := by
    rcases m with c | c | _
    · exact if_neg fun same => other (congrArg Mark.plain same)
    · rfl
    · rfl
  have step := cutCell_mark whole pos (some (quote, start)) rest
  rw [inside] at step
  exact step

/-- The body of a quoted text ends the section of its quote. -/
theorem cutCell_body (pos start : Nat) (backslash : quote ≠ '\\') (s rest : List Char) :
    cutCell pos (some (quote, start)) (Quoted.body quote s ++ rest) =
      (cutCell (pos + (Quoted.body quote s).length) none rest).map
        (·.modifyHead (Quoted.body quote s ++ ·)) := by
  induction s generalizing pos with
  | nil =>
    have closed : (Mark.plain quote).sectionAfter pos (some (quote, start)) = none := if_pos rfl
    have step := cutCell_mark (Mark.isWhole_plain backslash) pos (some (quote, start)) rest
    rw [closed] at step
    exact step
  | cons c s ih =>
    -- the character is one mark, which does not close the section
    obtain ⟨m, body, whole, other⟩ : ∃ m : Mark,
        Quoted.body quote (c :: s) = m.chars ++ Quoted.body quote s ∧
          m.IsWhole ∧ m ≠ .plain quote := by
      by_cases special : c = quote ∨ c = '\\'
      · exact ⟨.escaped c, if_pos special, Mark.isWhole_escaped c, nofun⟩
      · have distinct := not_or.1 special
        exact ⟨.plain c, if_neg special, Mark.isWhole_plain distinct.2,
          fun same => distinct.1 (Mark.plain.inj same)⟩
    rw [body, List.append_assoc, cutCell_inside whole other, ih, map_map]
    simp only [modifyHead_append, List.length_append, Nat.add_assoc]

theorem getLast?_body (s : List Char) : (Quoted.body quote s).getLast? = some quote := by
  induction s with
  | nil => rfl
  | cons c s ih =>
    rw [Quoted.body]
    split <;> simp [List.getLast?_cons, ih]

theorem isKept_write (hq : quote = '"' ∨ quote = '\'') (s : String) :
    IsKept (Quoted.write quote s).toList := by
  have backslash : quote ≠ '\\' := by rcases hq with rfl | rfl <;> decide
  have semicolon : quote ≠ ';' := by rcases hq with rfl | rfl <;> decide
  have blank : isBlank quote = false := by rcases hq with rfl | rfl <;> decide
  rw [Quoted.write, String.toList_ofList]
  refine ⟨fun pos rest => ?_, ⟨quote, rfl, blank⟩, ⟨quote, ?_, blank⟩⟩
  · have opened : (Mark.plain quote).sectionAfter pos none = some (quote, pos) := if_pos hq
    rw [List.cons_append, cutCell_plain backslash semicolon, opened, cutCell_body _ _ backslash,
      map_map, List.length_cons, Nat.add_assoc, Nat.add_comm 1]
    simp only [modifyHead_append]
    rfl
  · rw [List.getLast?_cons, getLast?_body]
    rfl

/-! ### Leaves -/

theorem isNeutral_of_isWordChar (word : isWordChar c = true) (safe : isSafe c = true) :
    isNeutral c = true := by
  refine isNeutral_iff.2 ⟨?_, ?_, ?_, ?_⟩ <;> rintro rfl
  · cases safe
  · cases safe
  · exact absurd word (by decide)
  · exact absurd word (by decide)

theorem isKept_word (nonempty : cs ≠ []) (word : ∀ c ∈ cs, isWordChar c = true)
    (safe : cs.all isSafe = true) : IsKept cs :=
  isKept_of_all nonempty fun c hc => ⟨isNeutral_of_isWordChar (word c hc)
    (List.all_eq_true.1 safe c hc), isBlank_of_isWordChar (word c hc)⟩

theorem isKept_keyword (k : Keyword) : IsKept k.text.toList := by
  refine isKept_word ?_ (List.all_eq_true.1 ?_) ?_ <;> cases k <;> decide

theorem isKept_tag {tag : String} (h : IsTag tag) : IsKept tag.toList := by
  refine isKept_of_all h.1 fun c hc => ?_
  have ascii : c.toNat < 128 := by
    rcases Bool.or_eq_true_iff.1 (h.2 c hc) with alphanumeric | hyphen
    · exact toNat_lt_of_isAlphanum alphanumeric
    · rw [beq_iff_eq.1 hyphen]
      decide
  exact of_ascii (p := fun c => isTagChar c = true → isNeutral c = true ∧ isBlank c = false)
    (by decide +kernel) ascii (h.2 c hc)

/-- Digits and points after an optional sign. -/
theorem isKept_of_unsigned
    (h : unsigned cs ≠ [] ∧ ∀ c ∈ unsigned cs, c.isDigit = true ∨ c = '.') : IsKept cs := by
  have word := (isWord_of_unsigned h.1 h.2).1
  refine isKept_word word.ne_nil word.all (List.all_eq_true.2 fun c hc => ?_)
  rcases mem_unsigned hc with inside | rfl | rfl
  · rcases h.2 c inside with digit | rfl
    · have semicolon : c ≠ ';' := by rintro rfl; cases digit
      have backslash : c ≠ '\\' := by rintro rfl; cases digit
      simp [isSafe, semicolon, backslash]
    · decide
  · decide
  · decide

theorem TermReference.IsWritten.isKept {t : TermReference} (written : t.IsWritten)
    (h : t.isListable = true) : IsKept t.text.toList := by
  rcases t with s | s | ⟨_ | space, s⟩ | s
  · have inside : IsKept ('<' :: (s.toList ++ ['>'])) := by
      refine isKept_of_all (List.cons_ne_nil _ _) ?_
      rw [List.forall_mem_cons, List.forall_mem_append, List.forall_mem_singleton]
      refine ⟨by decide, fun c hc => ⟨List.all_eq_true.1 h c hc, ?_⟩, by decide⟩
      simpa using (Bool.and_eq_true_iff.1 (written c hc)).2
    exact inside.ofText (by simp [TermReference.text])
  · exact isKept_word written.word.ne_nil written.word.all h
  · exact isKept_write (.inr rfl) s
  · have start : IsKept (space.toList ++ [':']) := by
      refine isKept_word (by simp) ?_ ?_
      · rw [List.forall_mem_append, List.forall_mem_singleton]
        exact ⟨written.1, by decide⟩
      · rw [List.all_append, Bool.and_eq_true]
        exact ⟨h, rfl⟩
    exact (start.append (isKept_write (.inr rfl) s)).ofText (by simp [TermReference.text])
  · have inside : IsKept ('_' :: ':' :: s.toList) := by
      refine isKept_word (List.cons_ne_nil _ _) ?_ h
      rw [List.forall_mem_cons, List.forall_mem_cons]
      exact ⟨by decide, by decide, written.2⟩
    exact inside.ofText (by simp [TermReference.text])

theorem Value.IsWritten.isKept {v : Value} (written : v.IsWritten)
    (h : ∀ t ∈ v.references, t.isListable = true) : IsKept v.text.toList := by
  rcases v with t | l
  · exact TermReference.IsWritten.isKept written.1 (h t List.mem_cons_self)
  rcases l with ⟨s, _ | tag⟩ | ⟨s, datatype⟩ | digits | digits | b
  · exact isKept_write (.inl rfl) s
  · have glued := (isKept_write (.inl rfl) s).around (m := ['@']) rfl (isKept_tag written)
    exact glued.ofText (by simp [Value.text, LiteralValue.text])
  · have kept := TermReference.IsWritten.isKept written (h datatype List.mem_cons_self)
    have glued := (isKept_write (.inl rfl) s).around (m := ['^', '^']) rfl kept
    exact glued.ofText (by simp [Value.text, LiteralValue.text])
  · exact isKept_of_unsigned (unsigned_of_isInteger written)
  · exact isKept_of_unsigned (unsigned_of_isDecimal written)
  · have word := (isName_boolean b).word
    refine isKept_word word.ne_nil word.all ?_
    cases b <;> decide

theorem PropertyReference.isKept {p : PropertyReference} (written : p.term.IsWritten)
    (h : p.term.isListable = true) : IsKept p.text.toList := by
  obtain ⟨t, inverse⟩ := p
  have kept := written.isKept h
  cases inverse with
  | false => exact kept
  | true =>
    exact ((isKept_keyword .inverse).blank kept).ofText (by simp [text, Keyword.text])

/-! ### Expressions -/

theorem isKept_join {separator : String} {us : List String}
    (hs : separator.toList.all isNeutral = true) (nonempty : us ≠ [])
    (h : ∀ u ∈ us, IsKept u.toList) : IsKept (join separator us).toList := by
  induction us with
  | nil => exact absurd rfl nonempty
  | cons u us ih =>
    obtain ⟨hu, hus⟩ := List.forall_mem_cons.1 h
    cases us with
    | nil => exact hu
    | cons v us => exact (hu.around hs (ih nofun hus)).ofText (by simp [join])

theorem Expression.isKept_group {e : Expression} (h : IsKept e.text.toList) :
    IsKept (e.group e.text).toList := by
  unfold group
  split
  · have single (c : Char) (neutral : isNeutral c = true) (solid : isBlank c = false) :
        IsKept [c] :=
      isKept_of_all (List.cons_ne_nil _ _) (List.forall_mem_singleton.2 ⟨neutral, solid⟩)
    have left := single '(' rfl rfl
    have right := single ')' rfl rfl
    exact (left.append (h.append right)).ofText (by simp)
  · exact h

theorem isKept_operandTexts {es : List Expression} (h : ∀ e ∈ es, IsKept e.text.toList) :
    ∀ s ∈ operandTexts es, IsKept s.toList := by
  induction es with
  | nil => exact nofun
  | cons e es ih =>
    obtain ⟨he, hes⟩ := List.forall_mem_cons.1 h
    exact List.forall_mem_cons.2 ⟨Expression.isKept_group he, ih hes⟩

theorem mem_referencesOf {e : Expression} {es : List Expression} {t : TermReference} (he : e ∈ es)
    (ht : t ∈ e.references) : t ∈ referencesOf es := by
  rw [referencesOf_eq_flatMap]
  exact List.mem_flatMap.2 ⟨e, he, ht⟩

theorem isKept_chain {separator : String} {es : List Expression}
    (hs : separator.toList.all isNeutral = true) (several : 2 ≤ es.length)
    (h : ∀ e ∈ es, IsKept e.text.toList) : IsKept (join separator (operandTexts es)).toList := by
  refine isKept_join hs ?_ (isKept_operandTexts h)
  rintro empty
  cases es with
  | nil => cases several
  | cons e es => cases empty

/-- A restriction, by what stands after its quantifier. -/
theorem isKept_restriction {p : PropertyReference} (written : p.term.IsWritten)
    (h : p.term.isListable = true) (q : Quantifier) (hu : IsKept u) :
    IsKept (p.text.toList ++ ' ' :: (q.text.toList ++ ' ' :: u)) := by
  rw [← q.text_keyword]
  exact (p.isKept written h).blank ((isKept_keyword q.keyword).blank hu)

theorem Expression.IsWritten.isKept {e : Expression} (written : e.IsWritten)
    (h : ∀ t ∈ e.references, t.isListable = true) : IsKept e.text.toList := by
  induction written with
  | @term t ht => exact TermReference.IsWritten.isKept ht (h t List.mem_cons_self)
  | @intersection es several hes ih =>
    exact isKept_chain rfl several fun e he => ih e he fun t ht =>
      h t (mem_referencesOf he ht)
  | @union es several hes ih =>
    exact isKept_chain rfl several fun e he => ih e he fun t ht =>
      h t (mem_referencesOf he ht)
  | complement he ih =>
    exact ((isKept_keyword .not).blank (isKept_group (ih h))).ofText (by simp [text, Keyword.text])
  | @filled p q e hp hq he ih =>
    obtain ⟨listable, inner⟩ := List.forall_mem_cons.1 h
    refine (isKept_restriction hp listable q (isKept_group (ih inner))).ofText ?_
    simp [Expression.text, Filler.text]
  | @value p v hp hv =>
    obtain ⟨listable, inner⟩ := List.forall_mem_cons.1 h
    refine (isKept_restriction hp listable .value (hv.isKept inner)).ofText ?_
    simp [Expression.text, Filler.text]
  | @counted p q n hp hq hn =>
    have number := isKept_of_unsigned (unsigned_of_isInteger (isInteger_toString n))
    refine (isKept_restriction hp (h p.term List.mem_cons_self) q number).ofText ?_
    simp [Expression.text, Filler.text]
  | @countedFilled p q n e hp hq hn he ih =>
    obtain ⟨listable, inner⟩ := List.forall_mem_cons.1 h
    have number := isKept_of_unsigned (unsigned_of_isInteger (isInteger_toString n))
    refine (isKept_restriction hp listable q (number.blank (isKept_group (ih inner)))).ofText ?_
    simp [Expression.text, Filler.text]

/-- A cell that lists expressions which can be read is split into their texts, each of which is
read as its expression. -/
theorem splitValues_join_text (es : List Expression)
    (parsed : ∀ e ∈ es, ∃ limit cell, parseExpression limit cell = .ok e)
    (listable : ∀ e ∈ es, ∀ t ∈ e.references, t.isListable = true) :
    splitValues (join "; " (es.map Expression.text)) = .ok (es.map Expression.text) ∧
      ∀ e ∈ es, ∀ limit, e.depth - 1 ≤ limit → parseExpression limit e.text = .ok e := by
  have written (e : Expression) (he : e ∈ es) : e.IsWritten := by
    obtain ⟨limit, cell, h⟩ := parsed e he
    exact isWritten_of_parseExpression h
  constructor
  · have kept (s : String) (hs : s ∈ es.map Expression.text) : IsKept s.toList := by
      obtain ⟨e, he, rfl⟩ := List.mem_map.1 hs
      exact (written e he).isKept (listable e he)
    exact splitValues_join " " rfl (List.forall₂_same.2 fun s hs => (kept s hs).yields)
      fun s hs => ⟨(kept s hs).ne_empty, (kept s hs).trim⟩
  · intro e he limit hlimit
    exact parseExpression_text (written e he) (Nat.le_add_of_sub_le hlimit)

end

/-- A restriction to a string, with separators, escapes and quotes of both kinds. -/
def quotedRestriction : Expression :=
  .restriction ⟨.label none "it's; a \\ \"b", false⟩ .value none
    (.value (.literal (.string "x; 'y\\" none)))

theorem splitValues_join_text_quoted :
    splitValues ("Person and inverse hasPart min 2 ('driver\\'s license' or not <urn:x>); " ++
      "'it\\'s; a \\\\ \"b' value \"x; 'y\\\\\"") =
        .ok [nestedChains.text, quotedRestriction.text] ∧
      parseExpression 0 quotedRestriction.text = .ok quotedRestriction := by
  have nested : ∃ limit cell, parseExpression limit cell = .ok nestedChains :=
    ⟨_, _, parseExpression_text isWritten_nestedChains (Nat.le_succ _)⟩
  have written : quotedRestriction.IsWritten := .value trivial trivial
  have quoted : ∃ limit cell, parseExpression limit cell = .ok quotedRestriction :=
    ⟨_, _, parseExpression_text written (Nat.le_succ _)⟩
  obtain ⟨split, readBack⟩ := splitValues_join_text [nestedChains, quotedRestriction]
    (List.forall_mem_cons.2 ⟨nested, List.forall_mem_singleton.2 quoted⟩) (by decide)
  exact ⟨split, readBack quotedRestriction (by simp) 0 (by decide)⟩

end TabularOntology.Cell
