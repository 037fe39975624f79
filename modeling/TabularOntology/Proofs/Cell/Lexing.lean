import TabularOntology.Proofs.Cell.Written

/-! How written leaves are lexed. A text writes lexemes if it is lexed as them wherever it
stands, as long as a blank, a closing parenthesis or the end of the cell comes next. Texts with
a blank between them, and a text in parentheses, then write what their parts write. -/

namespace TabularOntology.Cell

open Text Grammar

/-- What may come next after a text. -/
def Ends (rest : List Char) : Prop := ∀ c ∈ rest.head?, c = ' ' ∨ c = ')'

theorem ends_nil : Ends [] := nofun

theorem ends_blank (cs : List Char) : Ends (' ' :: cs) := by simp [Ends]

theorem ends_rightParen (cs : List Char) : Ends (')' :: cs) := by simp [Ends]

/-- Characters that are lexed as the given lexemes, wherever they stand. -/
def IsLexed (cs : List Char) (ls : List Lexeme) : Prop :=
  ∀ pos, ∃ ts, scan pos cs = .ok ts ∧ lexemes ts = ls

/-- A text that is lexed as the given lexemes, whatever comes next. -/
def Writes (text : List Char) (ls : List Lexeme) : Prop :=
  ∀ (rest : List Char) (ls' : List Lexeme), Ends rest → IsLexed rest ls' →
    IsLexed (text ++ rest) (ls ++ ls')

section
variable {c : Char} {cs rest : List Char} {ls ls' : List Lexeme}

theorem isLexed_nil : IsLexed [] [] := fun _ => ⟨[], by rw [scan.eq_def], rfl⟩

theorem isLexed_blank (h : IsLexed cs ls) : IsLexed (' ' :: cs) ls := by
  intro pos
  rw [scan_blank (by decide)]
  exact h (pos + 1)

theorem isLexed_piece (ls : List Lexeme) {used : List Char}
    (h : ∀ pos, ∃ ts, Piece pos used ts rest ∧ lexemes ts = ls) (hrest : IsLexed rest ls') :
    IsLexed (used ++ rest) (ls ++ ls') := by
  intro pos
  obtain ⟨ts, piece, rfl⟩ := h pos
  obtain ⟨more, hmore, rfl⟩ := hrest (pos + used.length)
  exact ⟨ts ++ more, scan_eq_ok.2 (.piece piece (scan_eq_ok.1 hmore)), List.map_append⟩

/-- A piece of one token. -/
theorem isLexed_token {used : List Char} {l : Lexeme} (h : ∀ pos, Piece pos used [⟨l, pos⟩] rest)
    (hrest : IsLexed rest ls') : IsLexed (used ++ rest) (l :: ls') :=
  isLexed_piece [l] (fun pos => ⟨_, h pos, rfl⟩) hrest

end

section
variable {u v : List Char} {ls ls' : List Lexeme}

theorem Writes.isLexed (h : Writes u ls) : IsLexed u ls := by
  have := h [] [] ends_nil isLexed_nil
  rwa [List.append_nil, List.append_nil] at this

/-- The same for a text that is known by its characters. -/
theorem Writes.ofText (h : Writes u ls) {s : String} (text : s.toList = u) :
    Writes s.toList ls := by
  rwa [text]

theorem Writes.blank (hu : Writes u ls) (hv : Writes v ls') :
    Writes (u ++ ' ' :: v) (ls ++ ls') := by
  intro rest more ends hrest
  rw [List.append_assoc, List.append_assoc]
  exact hu _ _ (ends_blank _) (isLexed_blank (hv _ _ ends hrest))

theorem Writes.parens (hu : Writes u ls) :
    Writes ('(' :: (u ++ [')'])) (.leftParen :: (ls ++ [.rightParen])) := by
  intro rest more ends hrest
  have close : IsLexed (')' :: rest) (.rightParen :: more) :=
    isLexed_token (fun _ => .rightParen rest) hrest
  have inside := hu _ _ (ends_rightParen rest) close
  have opened := isLexed_token (fun _ => .leftParen _) inside
  simpa using opened

/-! ### Words -/

theorem Ends.noWord {rest : List Char} (h : Ends rest) : StopsAt isWordChar rest := by
  intro c hc
  rcases h c hc with rfl | rfl <;> decide

theorem Ends.noTag {rest : List Char} (h : Ends rest) : StopsAt isTagChar rest := by
  intro c hc
  rcases h c hc with rfl | rfl <;> decide

theorem Ends.head_ne {rest : List Char} (h : Ends rest) {c : Char} (other : c ≠ ' ' ∧ c ≠ ')') :
    rest.head? ≠ some c :=
  fun hc => (h c hc).elim other.1 other.2

theorem writes_word {w : List Char} {l : Lexeme} (hw : IsWord w) (h : classify w = .ok l) :
    Writes w [l] :=
  fun _ _ ends hrest =>
    isLexed_token (fun _ => .word hw ends.noWord (fun _ => ends.head_ne (by decide)) h) hrest

theorem classify_eq {w : List Char} (h : ∀ cs, w ≠ '_' :: ':' :: cs) : classify w = .ok
    (if isInteger w then .integer (String.ofList w)
    else if isDecimal w then .decimal (String.ofList w)
    else match Keyword.ofLower? (lowerAscii (String.ofList w)) with
      | some k => .keyword k
      | none => .term (.name (String.ofList w))) := by
  unfold classify
  split
  · exact absurd rfl (h [])
  · next name _ => exact absurd rfl (h name)
  · dsimp only
    cases isInteger w with
    | true => rfl
    | false =>
      cases isDecimal w with
      | true => rfl
      | false => cases Keyword.ofLower? (lowerAscii (String.ofList w)) <;> rfl

/-! ### Terms -/

theorem writes_name {s : String} (h : IsName s) : Writes s.toList [.term (.name s)] := by
  refine writes_word h.word ((classify_eq h.noIndividual).trans ?_)
  rw [h.noInteger, h.noDecimal, String.ofList_toList, h.noKeyword]
  rfl

theorem writes_anonymous {s : String} (nonempty : s.toList ≠ [])
    (h : ∀ c ∈ s.toList, isWordChar c = true) :
    Writes ('_' :: ':' :: s.toList) [.term (.anonymous s)] := by
  refine writes_word ⟨List.cons_ne_nil _ _, ?_, by simp⟩ ?_
  · rw [List.forall_mem_cons, List.forall_mem_cons]
    exact ⟨by decide, by decide, h⟩
  · obtain ⟨c, cs, hs⟩ := List.exists_cons_of_ne_nil nonempty
    rw [hs]
    change Except.ok (Lexeme.term (.anonymous (String.ofList (c :: cs)))) = _
    rw [← hs, String.ofList_toList]

theorem writes_iri {s : String} (h : ∀ c ∈ s.toList, isIriChar c = true) :
    Writes ('<' :: (s.toList ++ ['>'])) [.term (.iri s)] := by
  intro rest more ends hrest
  have piece (pos : Nat) := @Piece.iri pos _ h rest
  rw [String.ofList_toList] at piece
  exact isLexed_token piece hrest

theorem closes_body {quote : Char} (hq : quote ≠ '\\') (s : String) :
    Quoted.Closes quote (Quoted.body quote s.toList) s.toList :=
  Quoted.read_body hq s.toList

theorem writes_label (s : String) :
    Writes (Quoted.write '\'' s).toList [.term (.label none s)] := by
  intro rest more ends hrest
  have piece (pos : Nat) := @Piece.label pos _ _ (closes_body (by decide) s) rest
  rw [String.ofList_toList] at piece
  rw [Quoted.write, String.toList_ofList]
  exact isLexed_token piece hrest

theorem writes_spacedLabel {space : String} (s : String)
    (h : ∀ c ∈ space.toList, isWordChar c = true) (head : space.toList.head? ≠ some '@') :
    Writes (space.toList ++ ':' :: (Quoted.write '\'' s).toList)
      [.term (.label (some space) s)] := by
  intro rest more ends hrest
  have word : IsWord (space.toList ++ [':']) := by
    refine ⟨by simp, List.forall_mem_append.2 ⟨h,
      List.forall_mem_singleton.2 (by decide)⟩, fun e => ?_⟩
    cases hspace : space.toList with
    | nil =>
      rw [hspace] at e
      cases e
    | cons c cs =>
      rw [hspace] at e head
      exact head e
  have piece (pos : Nat) := @Piece.spaced pos _ _ _ word (closes_body (by decide) s) rest
  rw [String.ofList_toList, String.ofList_toList] at piece
  rw [Quoted.write, String.toList_ofList]
  exact isLexed_token piece hrest

theorem TermReference.IsWritten.writes {t : TermReference} (h : t.IsWritten) :
    Writes t.text.toList [.term t] := by
  rcases t with s | s | ⟨_ | space, s⟩ | s
  · exact (writes_iri h).ofText (by simp [TermReference.text])
  · exact writes_name h
  · exact writes_label s
  · exact (writes_spacedLabel s h.1 h.2).ofText (by simp [TermReference.text])
  · exact (writes_anonymous h.1 h.2).ofText (by simp [TermReference.text])

/-! ### Numbers -/

theorem isWordChar_of_isDigit {c : Char} (h : c.isDigit = true) : isWordChar c = true := by
  have other {d : Char} (hd : d.isDigit = false) : c ≠ d := by
    rintro rfl
    rw [h] at hd
    cases hd
  have noBlank : isBlank c = false := by
    obtain ⟨lower, upper⟩ := Char.isDigit_iff_toNat.1 h
    simp only [Char.reduceToNat] at lower upper
    simp only [isBlank, Bool.or_eq_false_iff, Bool.and_eq_false_iff, decide_eq_false_iff_not,
      beq_eq_false_iff_ne]
    omega
  simp [isWordChar, noBlank, other]

theorem mem_unsigned {w : List Char} {c : Char} (h : c ∈ w) :
    c ∈ unsigned w ∨ c = '+' ∨ c = '-' := by
  unfold unsigned
  split
  · exact (List.mem_cons.1 h).elim (fun e => .inr (.inl e)) .inl
  · exact (List.mem_cons.1 h).elim (fun e => .inr (.inr e)) .inl
  · exact .inl h

/-- Digits and points after an optional sign are a word, and no anonymous individual. -/
theorem isWord_of_unsigned {w : List Char} (nonempty : unsigned w ≠ [])
    (h : ∀ c ∈ unsigned w, c.isDigit = true ∨ c = '.') :
    IsWord w ∧ ∀ cs, w ≠ '_' :: ':' :: cs := by
  have inside (c : Char) (hc : c ∈ w) : isWordChar c = true ∧ c ≠ '@' ∧ c ≠ '_' := by
    rcases mem_unsigned hc with hc | rfl | rfl
    · rcases h c hc with digit | rfl
      · refine ⟨isWordChar_of_isDigit digit, ?_, ?_⟩ <;> rintro rfl <;> cases digit
      · decide
    · decide
    · decide
  refine ⟨⟨?_, fun c hc => (inside c hc).1, fun e => ?_⟩, fun cs e => ?_⟩
  · rintro rfl
    exact nonempty rfl
  · exact (inside '@' (List.mem_of_head? e)).2.1 rfl
  · exact (inside '_' (e ▸ List.mem_cons_self)).2.2 rfl

theorem unsigned_of_isInteger {w : List Char} (h : isInteger w = true) :
    unsigned w ≠ [] ∧ ∀ c ∈ unsigned w, c.isDigit = true ∨ c = '.' := by
  obtain ⟨nonempty, all⟩ := isInteger_iff.1 h
  exact ⟨nonempty, fun c hc => .inl (all c hc)⟩

theorem exists_of_isDecimal {w : List Char} (h : isDecimal w = true) : ∃ whole fraction,
    unsigned w = whole ++ '.' :: fraction ∧ whole.all Char.isDigit = true ∧
      fraction.all Char.isDigit = true := by
  unfold isDecimal at h
  split at h
  · cases h
  · next whole fraction cut =>
    rw [Bool.and_eq_true, Bool.and_eq_true] at h
    exact ⟨whole, fraction, (cutFirst?_eq_some cut).1, h.1.2, h.2⟩

theorem unsigned_of_isDecimal {w : List Char} (h : isDecimal w = true) :
    unsigned w ≠ [] ∧ ∀ c ∈ unsigned w, c.isDigit = true ∨ c = '.' := by
  obtain ⟨whole, fraction, cut, hwhole, hfraction⟩ := exists_of_isDecimal h
  rw [cut, List.forall_mem_append, List.forall_mem_cons]
  exact ⟨by simp, fun c hc => .inl (List.all_eq_true.1 hwhole c hc), .inr rfl,
    fun c hc => .inl (List.all_eq_true.1 hfraction c hc)⟩

theorem writes_integer {digits : String} (h : isInteger digits.toList = true) :
    Writes digits.toList [.integer digits] := by
  obtain ⟨nonempty, numeral⟩ := unsigned_of_isInteger h
  obtain ⟨word, noIndividual⟩ := isWord_of_unsigned nonempty numeral
  refine writes_word word ((classify_eq noIndividual).trans ?_)
  rw [if_pos h, String.ofList_toList]

theorem writes_decimal {digits : String} (h : isDecimal digits.toList = true) :
    Writes digits.toList [.decimal digits] := by
  have noInteger : isInteger digits.toList = false := by
    obtain ⟨whole, fraction, cut, -, -⟩ := exists_of_isDecimal h
    unfold isInteger
    rw [cut, List.all_append, List.all_cons, show Char.isDigit '.' = false from rfl]
    simp
  obtain ⟨nonempty, numeral⟩ := unsigned_of_isDecimal h
  obtain ⟨word, noIndividual⟩ := isWord_of_unsigned nonempty numeral
  refine writes_word word ((classify_eq noIndividual).trans ?_)
  rw [noInteger, if_neg nofun, if_pos h, String.ofList_toList]

theorem toList_toString (n : Nat) : (toString n).toList = Nat.toDigits 10 n := by
  rw [Nat.toString_eq_ofList_toDigits, String.toList_ofList]

theorem isDigit_of_mem_toString {n : Nat} {c : Char} (h : c ∈ (toString n).toList) :
    c.isDigit = true :=
  Nat.isDigit_of_mem_toDigits (b := 10) (by decide) (by decide) (toList_toString n ▸ h)

theorem toList_toString_ne_nil (n : Nat) : (toString n).toList ≠ [] := by
  rw [toList_toString]
  exact Nat.toDigits_ne_nil

theorem isInteger_toString (n : Nat) : isInteger (toString n).toList = true := by
  have digits : ∀ c ∈ (toString n).toList, c.isDigit = true := fun _ => isDigit_of_mem_toString
  rw [isInteger_iff, unsigned_of_isDigit digits]
  exact ⟨toList_toString_ne_nil n, digits⟩

theorem writes_toString (n : Nat) : Writes (toString n).toList [.integer (toString n)] :=
  writes_integer (isInteger_toString n)

theorem isCardinality_toString {n : Nat} (h : n < 2 ^ 32) : IsCardinality (toString n) n := by
  have value : Nat.ofDigitChars 10 (toString n).toList 0 = n := by
    rw [toList_toString]
    exact Nat.ofDigitChars_ten_toDigits
  have numeral := isNumeral_iff.2
    ⟨toList_toString_ne_nil n, fun _ => isDigit_of_mem_toString, value⟩
  exact ⟨⟨_, numeral, .inl rfl⟩, h⟩

/-! ### Keywords and values -/

theorem writes_keyword (k : Keyword) : Writes k.text.toList [.keyword k] := by
  refine writes_word (.of_all ?_ ?_ ?_) ?_ <;> cases k <;> decide

/-- A string with what is glued to it. -/
theorem isLexed_string {s : String} {tail rest : List Char} {ls : List Lexeme}
    (glued : List Lexeme) (h : ∀ pos, ∃ ts, Glued pos tail ts rest ∧ lexemes ts = glued)
    (hrest : IsLexed rest ls) :
    IsLexed ((Quoted.write '"' s).toList ++ (tail ++ rest)) (.string s :: (glued ++ ls)) := by
  rw [Quoted.write, String.toList_ofList, ← List.append_assoc]
  refine isLexed_piece (.string s :: glued) (fun pos => ?_) hrest
  obtain ⟨ts, tailed, rfl⟩ := h (pos + 1 + (Quoted.body '"' s.toList).length)
  have piece := Piece.string (closes_body (by decide) s) tailed
  rw [String.ofList_toList] at piece
  exact ⟨_, piece, rfl⟩

theorem writes_string (s : String) : Writes (Quoted.write '"' s).toList [.string s] := by
  intro rest more ends hrest
  refine isLexed_string [] (fun pos => ⟨_, .nothing (ends.head_ne (by decide)) ?_, rfl⟩) hrest
  rintro more rfl
  exact ends.head_ne (by decide) rfl

theorem writes_tagged (s : String) {tag : String} (h : IsTag tag) :
    Writes ((Quoted.write '"' s).toList ++ '@' :: tag.toList) [.string s, .languageTag tag] := by
  intro rest more ends hrest
  rw [List.append_assoc]
  have glued (pos : Nat) := @Glued.tag pos _ _ h.1 h.2 ends.noTag
  rw [String.ofList_toList] at glued
  exact isLexed_string [.languageTag tag] (fun pos => ⟨_, glued pos, rfl⟩) hrest

theorem writes_typed (s : String) {u : List Char} {ls : List Lexeme} (h : Writes u ls) :
    Writes ((Quoted.write '"' s).toList ++ '^' :: '^' :: u) (.string s :: .datatypeMark :: ls) := by
  intro rest more ends hrest
  have typed : IsLexed ((Quoted.write '"' s).toList ++ (['^', '^'] ++ (u ++ rest)))
      (.string s :: ([.datatypeMark] ++ (ls ++ more))) :=
    isLexed_string [.datatypeMark] (fun pos => ⟨_, .mark _, rfl⟩) (h rest more ends hrest)
  simpa using typed

theorem isName_boolean (b : Bool) : IsName (LiteralValue.boolean b).text := by
  have word : IsWord (LiteralValue.boolean b).text.toList := by
    refine .of_all ?_ ?_ ?_ <;> cases b <;> decide
  cases b with
  | false => exact ⟨word, nofun, by decide, by decide, by decide⟩
  | true => exact ⟨word, nofun, by decide, by decide, by decide⟩

theorem Value.IsWritten.writes {v : Value} (h : v.IsWritten) :
    ∃ ls, IsValue ls v ∧ Writes v.text.toList ls := by
  rcases v with t | l
  · exact ⟨_, .individual t h.2, h.1.writes⟩
  rcases l with ⟨s, _ | tag⟩ | ⟨s, datatype⟩ | digits | digits | b
  · exact ⟨_, .string s, writes_string s⟩
  · refine ⟨_, .tagged s tag, (writes_tagged s h).ofText ?_⟩
    simp [Value.text, LiteralValue.text]
  · refine ⟨_, .typed s datatype, (writes_typed s (TermReference.IsWritten.writes h)).ofText ?_⟩
    simp [Value.text, LiteralValue.text]
  · exact ⟨_, .integer digits, writes_integer h⟩
  · exact ⟨_, .decimal digits, writes_decimal h⟩
  · refine ⟨_, .boolean _ b ?_, writes_name (isName_boolean b)⟩
    unfold IsBoolean
    cases b <;> decide

theorem writes_property {p : PropertyReference} (h : p.term.IsWritten) :
    Writes p.text.toList p.lexemes := by
  obtain ⟨t, inverse⟩ := p
  cases inverse with
  | false => exact h.writes
  | true =>
    refine ((writes_keyword .inverse).blank h.writes).ofText ?_
    simp [PropertyReference.text, Keyword.text]

end

end TabularOntology.Cell
