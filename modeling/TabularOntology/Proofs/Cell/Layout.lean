import TabularOntology.Proofs.Cell.Faults

/-! Layout. Each piece of a cell is read by itself, and all that it asks of what comes next is that
its own characters do not go on. A blank goes on with none, so blanks that are put in before a
piece, or at an end of the cell, change no token; they only move the tokens after them. What is
glued to a string is part of a piece, and a blank in front of it would tear the piece apart. -/

namespace TabularOntology.Cell

open Text

/-- A lexeme that has to follow its string at once. -/
def Lexeme.isGlued : Lexeme → Bool
  | .languageTag _ | .datatypeMark => true
  | _ => false

/-- Characters from offset `pos` on, with `gap n` put in before the character at offset `n`, and at
the end. -/
def spread (gap : Nat → List Char) (pos : Nat) : List Char → List Char
  | [] => gap pos
  | c :: cs => gap pos ++ c :: spread gap (pos + 1) cs

/-- The number of characters put in at offsets below a bound. -/
def inserted (gap : Nat → List Char) : Nat → Nat
  | 0 => 0
  | n + 1 => inserted gap n + (gap n).length

/-- The token further on. -/
def Token.later (n : Nat) (t : Token) : Token := ⟨t.lexeme, t.position + n⟩

/-- The token after all that is put in up to its place. -/
def Token.moved (gap : Nat → List Char) (t : Token) : Token :=
  t.later (inserted gap (t.position + 1))

/-- Blanks at the ends of a cell and before tokens that are not glued to a string. -/
structure IsLayout (cell : String) (ts : List Token) (gap : Nat → List Char) : Prop where
  blank : ∀ n, ∀ c ∈ gap n, isBlank c = true
  place : ∀ n, gap n ≠ [] →
    n = 0 ∨ n = cell.length ∨ ∃ t ∈ ts, t.position = n ∧ t.lexeme.isGlued = false

/-- What can stand after a piece in the place of `rest`: it begins with a blank, or as `rest` does.
A `^` is left out, since a second one would make it a datatype mark. -/
def Resembles (rest rest' : List Char) : Prop :=
  ∀ c ∈ rest'.head?, isBlank c = true ∨ c ∈ rest.head? ∧ c ≠ '^'

section
variable {pos n : Nat} {cs used rest rest' : List Char} {ts more : List Token}
variable {gap : Nat → List Char}

/-! ### One piece -/

theorem StopsAt.resembling {p : Char → Bool} (h : StopsAt p rest) (like : Resembles rest rest')
    (noBlank : ∀ c, p c = true → isBlank c = false) : StopsAt p rest' := by
  intro c hc
  rcases like c hc with blank | ⟨same, -⟩
  · by_contra accepted
    rw [noBlank c (by simpa using accepted)] at blank
    cases blank
  · exact h c same

theorem Resembles.head_ne {c : Char} (like : Resembles rest rest') (hc : isBlank c = false)
    (h : rest.head? ≠ some c) : rest'.head? ≠ some c := by
  intro head
  rcases like c head with blank | ⟨same, -⟩
  · rw [hc] at blank
    cases blank
  · exact h same

/-- What is glued to a string does not depend on what comes next. -/
theorem Glued.resembling (h : Glued pos used ts rest) (like : Resembles rest rest') (n : Nat) :
    Glued (pos + n) used (ts.map (Token.later n)) rest' := by
  cases h with
  | tag nonempty all stops =>
    exact .tag nonempty all (stops.resembling like fun _ => isBlank_of_isTagChar)
  | mark => exact .mark rest'
  | nothing noTag =>
    refine .nothing (like.head_ne (by decide) noTag) ?_
    rintro more rfl
    rcases like '^' rfl with blank | ⟨-, caret⟩
    · cases blank
    · exact caret rfl

/-- Nor does a piece, which can stand anywhere. -/
theorem Piece.resembling (h : Piece pos used ts rest) (like : Resembles rest rest') (n : Nat) :
    Piece (pos + n) used (ts.map (Token.later n)) rest' := by
  cases h with
  | leftParen => exact .leftParen rest'
  | rightParen => exact .rightParen rest'
  | iri all => exact .iri all rest'
  | label closes => exact .label closes rest'
  | @string body _ _ _ _ closes glued =>
    have moved := glued.resembling like n
    have place : pos + 1 + body.length + n = pos + n + 1 + body.length := by omega
    rw [place] at moved
    exact .string closes moved
  | spaced word closes => exact .spaced word closes rest'
  | word word stops noLabel h =>
    exact .word word (stops.resembling like fun _ => isBlank_of_isWordChar)
      (fun colon => like.head_ne (by decide) (noLabel colon)) h

theorem Piece.position_eq (h : Piece pos used ts rest) :
    ∀ t ∈ ts, t.position = pos ∨ t.lexeme.isGlued = true := by
  cases h with
  | string _ glued =>
    refine List.forall_mem_cons.2 ⟨.inl rfl, ?_⟩
    cases glued with
    | tag | mark => exact List.forall_mem_singleton.2 (.inr rfl)
    | nothing => exact nofun
  | leftParen | rightParen | iri | label | spaced | word =>
    exact List.forall_mem_singleton.2 (.inl rfl)

/-! ### Whole texts -/

theorem Lexes.blanks (h : Lexes (pos + used.length) cs ts) (blank : ∀ c ∈ used, isBlank c = true) :
    Lexes pos (used ++ cs) ts := by
  induction used generalizing pos with
  | nil => exact h
  | cons c used ih =>
    obtain ⟨hc, blank⟩ := List.forall_mem_cons.1 blank
    rw [List.length_cons, ← Nat.add_assoc, Nat.add_right_comm] at h
    exact .blank hc (ih h blank)

/-- A `^` that is not glued to a string is not read. -/
theorem Lexes.head_ne (h : Lexes pos cs ts) : cs.head? ≠ some '^' := by
  intro head
  cases h with
  | nil => cases head
  | blank hc =>
    cases head
    cases hc
  | piece first =>
    obtain ⟨c, more, rfl, -, read⟩ := first.exists_cons
    cases head
    cases read

theorem resembles_spread (blank : ∀ n, ∀ c ∈ gap n, isBlank c = true) (h : Lexes pos cs ts) :
    Resembles cs (spread gap pos cs) := by
  intro c hc
  cases hgap : gap pos with
  | nil =>
    cases cs with
    | nil =>
      rw [spread, hgap] at hc
      cases hc
    | cons d cs =>
      rw [spread, hgap] at hc
      refine .inr ⟨hc, ?_⟩
      rintro rfl
      exact h.head_ne hc
  | cons d more =>
    have first : c = d := by
      cases cs <;> rw [spread, hgap] at hc <;> exact (Option.some.inj hc).symm
    refine .inl (blank pos c ?_)
    rw [first, hgap]
    exact List.mem_cons_self

/-- Where nothing is put in, the characters stay together. -/
theorem spread_append (nothing : ∀ n, pos ≤ n → n < pos + used.length → gap n = [])
    (rest : List Char) :
    spread gap pos (used ++ rest) = used ++ spread gap (pos + used.length) rest := by
  induction used generalizing pos with
  | nil => rfl
  | cons c used ih =>
    rw [List.length_cons] at nothing
    have here : gap pos = [] := nothing pos (Nat.le_refl _) (by omega)
    have place : pos + 1 + used.length = pos + (c :: used).length := by
      rw [List.length_cons]
      omega
    rw [List.cons_append, spread, here, ih fun n low high => nothing n (by omega) (by omega), place]
    rfl

theorem spread_piece (filled : 0 < used.length)
    (nothing : ∀ n, pos + 1 ≤ n → n < pos + used.length → gap n = []) :
    spread gap pos (used ++ rest) = gap pos ++ (used ++ spread gap (pos + used.length) rest) := by
  cases used with
  | nil => cases filled
  | cons c used =>
    have place : pos + (c :: used).length = pos + 1 + used.length := by
      rw [List.length_cons]
      omega
    rw [place] at nothing ⊢
    rw [List.cons_append, spread, spread_append nothing]
    rfl

theorem inserted_eq {m : Nat} (le : m ≤ n) (nothing : ∀ k, m ≤ k → k < n → gap k = []) :
    inserted gap n = inserted gap m := by
  induction le with
  | refl => rfl
  | @step k le ih =>
    rw [inserted, nothing k le (Nat.lt_succ_self k),
      ih fun k' low high => nothing k' low (Nat.lt_succ_of_lt high)]
    rfl

/-- A token that stands inside a piece is glued, so nothing is put in there. -/
theorem Piece.unparted (first : Piece pos used ts rest)
    (h : Lexes (pos + used.length) rest more)
    (place : ∀ n, pos < n → n < pos + (used ++ rest).length → gap n ≠ [] →
      ∃ t ∈ ts ++ more, t.position = n ∧ t.lexeme.isGlued = false) :
    ∀ n, pos + 1 ≤ n → n < pos + used.length → gap n = [] := by
  intro n low high
  by_contra put
  obtain ⟨t, ht, here, free⟩ := place n low (by rw [List.length_append]; omega) put
  rcases List.mem_append.1 ht with ht | ht
  · rcases first.position_eq t ht with start | glued
    · omega
    · rw [free] at glued
      cases glued
  · have beyond := (h.standWithin.bounds t ht).1
    omega

/-- A piece that is kept together moves by what is put in up to its first character. -/
theorem Piece.moved (first : Piece pos used ts rest) (like : Resembles rest rest')
    (nothing : ∀ n, pos + 1 ≤ n → n < pos + used.length → gap n = []) :
    Piece (pos + inserted gap (pos + 1)) used (ts.map (Token.moved gap)) rest' := by
  have same : ts.map (Token.later (inserted gap (pos + 1))) = ts.map (Token.moved gap) := by
    refine List.map_congr_left fun t ht => ?_
    obtain ⟨low, high⟩ := first.standWithin.bounds t ht
    rw [Token.moved, inserted_eq (Nat.succ_le_succ low)
      fun n low' high' => nothing n low' (by omega)]
  exact same ▸ first.resembling like (inserted gap (pos + 1))

/-- Blanks put in between the pieces move the tokens and change nothing else. -/
theorem Lexes.spread (h : Lexes pos cs ts) (blank : ∀ n, ∀ c ∈ gap n, isBlank c = true)
    (place : ∀ n, pos < n → n < pos + cs.length → gap n ≠ [] →
      ∃ t ∈ ts, t.position = n ∧ t.lexeme.isGlued = false) :
    Lexes (pos + inserted gap pos) (Cell.spread gap pos cs) (ts.map (Token.moved gap)) := by
  induction h with
  | @nil pos =>
    have blanks := Lexes.blanks (.nil : Lexes (pos + inserted gap pos + (gap pos).length) [] [])
      (blank pos)
    rwa [List.append_nil] at blanks
  | @blank pos c cs ts hc h ih =>
    have after := ih fun n low high put => place n (by omega) (by rw [List.length_cons]; omega) put
    have start : pos + 1 + inserted gap (pos + 1) =
        pos + inserted gap pos + (gap pos).length + 1 := by
      rw [inserted]
      omega
    rw [start] at after
    exact Lexes.blanks (.blank hc after) (blank pos)
  | @piece pos used rest ts more first h ih =>
    have nothing := first.unparted h place
    have later : Lexes (pos + used.length + inserted gap (pos + used.length))
        (Cell.spread gap (pos + used.length) rest) (more.map (Token.moved gap)) := by
      refine ih fun n low high put => ?_
      obtain ⟨t, ht, here, free⟩ :=
        place n (by omega) (by rw [List.length_append]; omega) put
      rcases List.mem_append.1 ht with ht | ht
      · have before := (first.standWithin.bounds t ht).2
        omega
      · exact ⟨t, ht, here, free⟩
    have start : pos + inserted gap (pos + 1) = pos + inserted gap pos + (gap pos).length := by
      rw [inserted, Nat.add_assoc]
    have stop : pos + used.length + inserted gap (pos + used.length) =
        pos + inserted gap (pos + 1) + used.length := by
      have filled : pos + 1 ≤ pos + used.length := Nat.add_le_add_left first.length_pos pos
      rw [inserted_eq filled nothing]
      omega
    have read := Lexes.piece (first.moved (resembles_spread blank h) nothing) (stop ▸ later)
    rw [← List.map_append, start] at read
    rw [spread_piece first.length_pos nothing]
    exact read.blanks (blank pos)

/-- Layout does not matter. The tokens of a cell stand in it in increasing order, and blanks put in
at its ends or before tokens leave the tokens as they are, each moved by the number of characters
put in before it; only what is glued to a string cannot be parted from it. And no fault of reading
or cutting a cell stands beyond its end. -/
theorem layout_is_free (cell : String) :
    (∀ ts, tokenize cell = .ok ts →
      (ts.Pairwise fun t t' => t.position < t'.position) ∧
      (∀ t ∈ ts, t.position < cell.length) ∧
      ∀ gap, IsLayout cell ts gap →
        tokenize (String.ofList (spread gap 0 cell.toList)) =
          .ok (ts.map fun t => ⟨t.lexeme, t.position + inserted gap (t.position + 1)⟩)) ∧
    FaultWithin cell (tokenize cell) ∧
    (∀ limit, FaultWithin cell (parseExpression limit cell)) ∧
    FaultWithin cell (parseTerm cell) ∧
    FaultWithin cell (parseFact cell) ∧
    FaultWithin cell (splitValues cell) := by
  refine ⟨fun ts h => ?_, faultWithin_tokenize cell, fun limit =>
    faultWithin_parseExpression limit cell, faultWithin_parseTerm cell, faultWithin_parseFact cell,
    faultWithin_splitValues cell⟩
  have stands := standWithin_tokenize h
  rw [String.length_toList] at stands
  refine ⟨stands.increasing, fun t ht => (stands.bounds t ht).2, fun gap layout => ?_⟩
  have moved := (scan_eq_ok.1 h).spread layout.blank fun n low high put => by
    rw [Nat.zero_add, String.length_toList] at high
    rcases layout.place n put with start | stop | inside
    · omega
    · omega
    · exact inside
  rw [tokenize, String.toList_ofList]
  exact scan_eq_ok.2 moved

theorem layout_is_free_literal :
    let cell := "q value \"a\"^^x:'b c'"
    let ts : List Token := [⟨.term (.name "q"), 0⟩, ⟨.keyword .value, 2⟩, ⟨.string "a", 8⟩,
      ⟨.datatypeMark, 11⟩, ⟨.term (.label (some "x") "b c"), 13⟩]
    let gap : Nat → List Char := fun n =>
      if n = 0 then [' '] else if n = 13 then ['\n', ' '] else if n = 20 then ['\t'] else []
    tokenize cell = .ok ts ∧ IsLayout cell ts gap ∧
      spread gap 0 cell.toList = " q value \"a\"^^\n x:'b c'\t".toList ∧
      tokenize " q value \"a\"^^\n x:'b c'\t" = .ok [⟨.term (.name "q"), 1⟩, ⟨.keyword .value, 3⟩,
        ⟨.string "a", 9⟩, ⟨.datatypeMark, 12⟩, ⟨.term (.label (some "x") "b c"), 16⟩] := by
  intro cell ts gap
  have read : tokenize cell = .ok ts := mem_toOption.1 (by decide +kernel)
  have text : spread gap 0 cell.toList = " q value \"a\"^^\n x:'b c'\t".toList := by decide +kernel
  have blank : ∀ n, ∀ c ∈ gap n, isBlank c = true := by
    intro n
    dsimp only [gap]
    split_ifs
    · exact List.forall_mem_singleton.2 (by decide)
    · exact List.forall_mem_cons.2 ⟨by decide, List.forall_mem_singleton.2 (by decide)⟩
    · exact List.forall_mem_singleton.2 (by decide)
    · exact List.forall_mem_nil _
  have place : ∀ n, gap n ≠ [] → n = 0 ∨ n = 13 ∨ n = 20 := by
    intro n put
    by_contra other
    obtain ⟨h0, h13, h20⟩ : n ≠ 0 ∧ n ≠ 13 ∧ n ≠ 20 := by omega
    simp [gap, h0, h13, h20] at put
  have layout : IsLayout cell ts gap := by
    refine ⟨blank, fun n put => ?_⟩
    rcases place n put with rfl | rfl | rfl
    · exact .inl rfl
    · exact .inr (.inr (by decide))
    · exact .inr (.inl (by decide))
  have moved := ((layout_is_free cell).1 ts read).2.2 gap layout
  rw [text, String.ofList_toList] at moved
  exact ⟨read, layout, text, moved⟩

end

end TabularOntology.Cell
