import TabularOntology.Cell.Lexer
import TabularOntology.Text.Alphanumeric
import TabularOntology.Proofs.Cell.Splitting

/-! What a cell is made of. The lexer cuts a cell into blanks and pieces. A piece is a parenthesis,
an IRI in brackets, a label, a string with what is glued to it, or a word; each shape says of what
characters the piece is made, which tokens it gives, and what must not come next, since words and
language tags go on as long as they can. The lexer finds exactly these pieces, so that what is
shown for each shape holds for every text that is lexed. -/

namespace TabularOntology.Cell

open Text

/-- The characters do not go on with one that `p` accepts. -/
def StopsAt (p : Char → Bool) (rest : List Char) : Prop := ∀ c ∈ rest.head?, p c = false

/-- Characters after an opening quote that are read as a text, up to the closing quote. -/
def Quoted.Closes (quote : Char) (body s : List Char) : Prop :=
  ∀ rest, read quote (body ++ rest) = .ok (s, rest)

/-- A longest run of word characters, where a word can start. -/
structure IsWord (cs : List Char) : Prop where
  ne_nil : cs ≠ []
  all : ∀ c ∈ cs, isWordChar c = true
  head : cs.head? ≠ some '@'

/-- What is glued to a string that ends before `pos`, and stands before `rest`. -/
inductive Glued (pos : Nat) : List Char → List Token → List Char → Prop
  | tag {tag rest : List Char} (nonempty : tag ≠ []) (all : ∀ c ∈ tag, isTagChar c = true)
    (stops : StopsAt isTagChar rest) :
    Glued pos ('@' :: tag) [⟨.languageTag (String.ofList tag), pos⟩] rest
  | mark (rest : List Char) : Glued pos ['^', '^'] [⟨.datatypeMark, pos⟩] rest
  | nothing {rest : List Char} (noTag : rest.head? ≠ some '@')
    (noMark : ∀ more, rest ≠ '^' :: '^' :: more) : Glued pos [] [] rest

/-- The characters and the tokens of a piece that starts at `pos` and stands before `rest`. -/
inductive Piece (pos : Nat) : List Char → List Token → List Char → Prop
  | leftParen (rest : List Char) : Piece pos ['('] [⟨.leftParen, pos⟩] rest
  | rightParen (rest : List Char) : Piece pos [')'] [⟨.rightParen, pos⟩] rest
  | iri {text : List Char} (all : ∀ c ∈ text, isIriChar c = true) (rest : List Char) :
    Piece pos ('<' :: (text ++ ['>'])) [⟨.term (.iri (String.ofList text)), pos⟩] rest
  | label {body s : List Char} (closes : Quoted.Closes '\'' body s) (rest : List Char) :
    Piece pos ('\'' :: body) [⟨.term (.label none (String.ofList s)), pos⟩] rest
  | string {body s tail rest : List Char} {ts : List Token} (closes : Quoted.Closes '"' body s)
    (glued : Glued (pos + 1 + body.length) tail ts rest) :
    Piece pos ('"' :: (body ++ tail)) (⟨.string (String.ofList s), pos⟩ :: ts) rest
  | spaced {space body s : List Char} (word : IsWord (space ++ [':']))
    (closes : Quoted.Closes '\'' body s) (rest : List Char) :
    Piece pos (space ++ ':' :: '\'' :: body)
      [⟨.term (.label (some (String.ofList space)) (String.ofList s)), pos⟩] rest
  | word {w rest : List Char} {l : Lexeme} (word : IsWord w) (stops : StopsAt isWordChar rest)
    (noLabel : w.getLast? = some ':' → rest.head? ≠ some '\'') (h : classify w = .ok l) :
    Piece pos w [⟨l, pos⟩] rest

/-- The tokens of a text that starts at `pos`, piece by piece. -/
inductive Lexes : Nat → List Char → List Token → Prop
  | nil {pos : Nat} : Lexes pos [] []
  | blank {pos : Nat} {c : Char} {cs : List Char} {ts : List Token} (hc : isBlank c = true)
    (h : Lexes (pos + 1) cs ts) : Lexes pos (c :: cs) ts
  | piece {pos : Nat} {used rest : List Char} {ts more : List Token}
    (first : Piece pos used ts rest) (h : Lexes (pos + used.length) rest more) :
    Lexes pos (used ++ rest) (ts ++ more)

section
variable {pos start : Nat} {c quote : Char} {cs rest used s : List Char} {ts : List Token}

/-! ### Quoted texts and runs -/

theorem Quoted.read_cons (h : c ≠ '\\') : read quote (c :: cs) =
    if c = quote then .ok ([], cs) else (read quote cs).map fun (s, rest) => (c :: s, rest) := by
  rw [read]
  · exact fun same => absurd same h
  · exact fun _ _ same => absurd same h

theorem Quoted.exists_closes (h : read quote cs = .ok (s, rest)) :
    ∃ body, Closes quote body s ∧ cs = body ++ rest := by
  induction cs using marks_induction generalizing s with
  | nil => cases h
  | dangling => cases h
  | escaped c cs ih =>
    rw [read] at h
    obtain ⟨⟨s, _⟩, h, same⟩ := map_eq_ok.1 h
    cases same
    obtain ⟨body, closes, rfl⟩ := ih h
    refine ⟨'\\' :: c :: body, fun rest => ?_, rfl⟩
    rw [List.cons_append, List.cons_append, read, closes]
    rfl
  | plain c cs hc ih =>
    rw [read_cons hc] at h
    split at h
    · next closing =>
      cases h
      refine ⟨[c], fun rest => ?_, rfl⟩
      rw [List.singleton_append, read_cons hc, if_pos closing]
    · next other =>
      obtain ⟨⟨s, _⟩, h, same⟩ := map_eq_ok.1 h
      cases same
      obtain ⟨body, closes, rfl⟩ := ih h
      refine ⟨c :: body, fun rest => ?_, rfl⟩
      rw [List.cons_append, read_cons hc, if_neg other, closes]
      rfl

theorem quoted_of_closes {body : List Char} (h : Quoted.Closes quote body s) (start : Nat)
    (rest : List Char) : quoted quote start (body ++ rest) = .ok (String.ofList s, rest) := by
  rw [quoted, h]

theorem exists_closes_of_quoted {text : String} (h : quoted quote start cs = .ok (text, rest)) :
    ∃ body s, Quoted.Closes quote body s ∧ cs = body ++ rest ∧ text = String.ofList s := by
  unfold quoted at h
  split at h
  · next read =>
    cases h
    obtain ⟨body, closes, rfl⟩ := Quoted.exists_closes read
    exact ⟨body, _, closes, rfl, rfl⟩
  · cases h
  · cases h

/-- A run of characters is cut off where it ends. -/
theorem span_append {p : Char → Bool} {w rest : List Char} (hw : ∀ c ∈ w, p c = true)
    (hrest : StopsAt p rest) :
    (w ++ rest).takeWhile p = w ∧ (w ++ rest).dropWhile p = rest := by
  have stop : rest.takeWhile p = [] ∧ rest.dropWhile p = rest := by
    cases rest with
    | nil => exact ⟨rfl, rfl⟩
    | cons c cs =>
      have hc : ¬ p c = true := by rw [hrest c rfl]; nofun
      exact ⟨List.takeWhile_cons_of_neg hc, List.dropWhile_cons_of_neg hc⟩
  rw [List.takeWhile_append_of_pos hw, List.dropWhile_append_of_pos hw, stop.1, stop.2,
    List.append_nil]
  exact ⟨rfl, rfl⟩

/-- Characters are a run and what stops it. -/
theorem exists_span (p : Char → Bool) (cs : List Char) :
    ∃ w rest, cs = w ++ rest ∧ (∀ c ∈ w, p c = true) ∧ StopsAt p rest := by
  refine ⟨cs.takeWhile p, cs.dropWhile p, List.takeWhile_append_dropWhile.symm,
    List.all_eq_true.1 List.all_takeWhile, fun c hc => ?_⟩
  have stopped := List.head?_dropWhile_not p cs
  rw [Option.mem_def.1 hc] at stopped
  simpa using stopped

theorem isBlank_of_isWordChar (h : isWordChar c = true) : isBlank c = false := by
  revert h
  unfold isWordChar
  cases isBlank c <;> simp

theorem isBlank_of_isTagChar (h : isTagChar c = true) : isBlank c = false := by
  rcases Bool.or_eq_true_iff.1 h with alphanumeric | hyphen
  · exact isBlank_of_isAlphanum alphanumeric
  · rw [beq_iff_eq.1 hyphen]
    decide

theorem tokensFrom_word (hc : isWordChar c = true) (head : c ≠ '@') :
    tokensFrom pos c cs = wordToken pos (c :: cs) := by
  unfold tokensFrom
  have other : c ≠ '(' ∧ c ≠ ')' ∧ c ≠ '<' ∧ c ≠ '>' ∧ c ≠ '\'' ∧ c ≠ '"' ∧ c ≠ '^' := by
    refine ⟨?_, ?_, ?_, ?_, ?_, ?_, ?_⟩ <;> rintro rfl <;> revert hc <;> decide
  obtain ⟨h₁, h₂, h₃, h₄, h₅, h₆, h₇⟩ := other
  rw [if_neg h₁, if_neg h₂, if_neg h₃, if_neg h₅, if_neg h₆, if_neg]
  simp [h₄, h₇, head]

/-! ### Pieces are read -/

theorem Glued.stringTail_eq (h : Glued pos used ts rest) :
    stringTail pos (used ++ rest) = .ok (ts, rest) := by
  cases h with
  | @tag tag _ nonempty all stops =>
    obtain ⟨take, drop⟩ := span_append all stops
    rw [List.cons_append]
    simp only [stringTail, take, drop]
  | mark => rfl
  | nothing noTag noMark =>
    rw [List.nil_append]
    unfold stringTail
    split
    · exact absurd rfl noTag
    · next more => exact absurd rfl (noMark more)
    · rfl

theorem wordToken_word {w : List Char} {l : Lexeme} (all : ∀ c ∈ w, isWordChar c = true)
    (stops : StopsAt isWordChar rest) (noLabel : w.getLast? = some ':' → rest.head? ≠ some '\'')
    (h : classify w = .ok l) (pos : Nat) : wordToken pos (w ++ rest) = .ok ([⟨l, pos⟩], rest) := by
  obtain ⟨take, drop⟩ := span_append all stops
  unfold wordToken
  rw [take, drop]
  dsimp only
  split
  · next colon => exact absurd rfl (noLabel colon)
  · rw [h]

theorem wordToken_label {space body : List Char} (all : ∀ c ∈ space ++ [':'], isWordChar c = true)
    (closes : Quoted.Closes '\'' body s) (pos : Nat) (rest : List Char) :
    wordToken pos ((space ++ [':']) ++ '\'' :: (body ++ rest)) =
      .ok ([⟨.term (.label (some (String.ofList space)) (String.ofList s)), pos⟩], rest) := by
  have quote : StopsAt isWordChar ('\'' :: (body ++ rest)) := by
    rintro c ⟨⟩
    decide
  obtain ⟨take, drop⟩ := span_append all quote
  unfold wordToken
  rw [take, drop]
  simp only [List.getLast?_append, List.getLast?_singleton, Option.some_or,
    quoted_of_closes closes, ok_bind, List.dropLast_concat]

/-- A piece is read at its place: it is not empty, it starts with no blank, and the lexer takes its
characters for its tokens. -/
theorem Piece.exists_cons (h : Piece pos used ts rest) : ∃ c cs, used = c :: cs ∧
    isBlank c = false ∧ tokensFrom pos c (cs ++ rest) = .ok (ts, rest) := by
  cases h with
  | leftParen | rightParen => exact ⟨_, [], rfl, by decide, rfl⟩
  | @iri text all =>
    refine ⟨_, _, rfl, by decide, ?_⟩
    have close : StopsAt isIriChar ('>' :: rest) := by
      rintro c ⟨⟩
      decide
    obtain ⟨take, drop⟩ := span_append all close
    rw [List.append_assoc, List.singleton_append]
    unfold tokensFrom
    rw [if_neg (by decide), if_neg (by decide), if_pos rfl, drop, take]
    rfl
  | label closes =>
    refine ⟨_, _, rfl, by decide, ?_⟩
    unfold tokensFrom
    rw [if_neg (by decide), if_neg (by decide), if_neg (by decide), if_pos rfl,
      quoted_of_closes closes]
    rfl
  | @string body s tail _ ts closes glued =>
    refine ⟨_, _, rfl, by decide, ?_⟩
    have width : (body ++ (tail ++ rest)).length - (tail ++ rest).length = body.length := by
      rw [List.length_append, Nat.add_sub_cancel]
    unfold tokensFrom
    rw [if_neg (by decide), if_neg (by decide), if_neg (by decide), if_neg (by decide), if_pos rfl,
      List.append_assoc, quoted_of_closes closes, ok_bind]
    dsimp only
    rw [width, glued.stringTail_eq]
    rfl
  | @spaced space body s word closes =>
    obtain ⟨c, cs, same⟩ := List.exists_cons_of_ne_nil word.ne_nil
    have text : space ++ ':' :: '\'' :: body = c :: (cs ++ '\'' :: body) := by
      rw [← List.cons_append, ← same, List.append_assoc]
      rfl
    have hc := word.all c (by rw [same]; exact List.mem_cons_self)
    refine ⟨_, _, text, isBlank_of_isWordChar hc, ?_⟩
    rw [tokensFrom_word hc fun e => word.head (by rw [same, e]; rfl), List.append_assoc,
      ← List.cons_append, ← same]
    exact wordToken_label word.all closes pos rest
  | word word stops noLabel h =>
    obtain ⟨c, cs, rfl⟩ := List.exists_cons_of_ne_nil word.ne_nil
    have hc := word.all c List.mem_cons_self
    refine ⟨_, _, rfl, isBlank_of_isWordChar hc, ?_⟩
    rw [tokensFrom_word hc fun e => word.head (by rw [e]; rfl)]
    exact wordToken_word word.all stops noLabel h pos

theorem Piece.length_pos (h : Piece pos used ts rest) : 0 < used.length := by
  obtain ⟨c, cs, rfl, -⟩ := h.exists_cons
  exact Nat.succ_pos _

/-! ### What is read is a piece -/

theorem exists_glued (h : stringTail pos cs = .ok (ts, rest)) :
    ∃ used, Glued pos used ts rest ∧ cs = used ++ rest := by
  unfold stringTail at h
  split at h
  · next more =>
    obtain ⟨tag, left, rfl, all, stops⟩ := exists_span isTagChar more
    obtain ⟨take, drop⟩ := span_append all stops
    rw [take, drop] at h
    split at h
    · cases h
    · next nonempty =>
      cases h
      exact ⟨_, .tag nonempty all stops, rfl⟩
  · cases h
    exact ⟨_, .mark _, rfl⟩
  · next noTag noMark =>
    cases h
    refine ⟨[], .nothing (fun e => ?_) noMark, rfl⟩
    obtain ⟨more, rfl⟩ := List.head?_eq_some_iff.1 e
    exact noTag more rfl

theorem exists_word (hc : isWordChar c = true) (head : c ≠ '@')
    (h : wordToken pos (c :: cs) = .ok (ts, rest)) :
    ∃ used, Piece pos used ts rest ∧ c :: cs = used ++ rest := by
  obtain ⟨w, left, text, all, stops⟩ := exists_span isWordChar (c :: cs)
  obtain ⟨take, drop⟩ := span_append all stops
  have word : IsWord w := by
    refine ⟨?_, all, fun e => ?_⟩
    · rintro rfl
      rw [List.nil_append] at text
      rw [← text] at stops
      exact absurd hc (Bool.eq_false_iff.1 (stops c rfl))
    · obtain ⟨w', rfl⟩ := List.head?_eq_some_iff.1 e
      exact head (List.cons.inj text).1
  rw [text] at h ⊢
  unfold wordToken at h
  rw [take, drop] at h
  dsimp only at h
  split at h
  · next left colon =>
    obtain ⟨space, rfl⟩ := List.getLast?_eq_some_iff.1 colon
    obtain ⟨⟨label, after⟩, read, h⟩ := bind_eq_ok.1 h
    obtain ⟨body, s, closes, rfl, rfl⟩ := exists_closes_of_quoted read
    cases h
    rw [List.dropLast_concat]
    exact ⟨_, .spaced word closes after, by simp⟩
  · next noLabel =>
    split at h
    · next l hl =>
      cases h
      refine ⟨w, .word word stops (fun colon quote => ?_) hl, rfl⟩
      obtain ⟨more, rfl⟩ := List.head?_eq_some_iff.1 quote
      exact noLabel more colon rfl
    · cases h

theorem exists_piece (hc : isBlank c = false) (h : tokensFrom pos c cs = .ok (ts, rest)) :
    ∃ used, Piece pos used ts rest ∧ c :: cs = used ++ rest := by
  unfold tokensFrom at h
  split at h
  · next paren =>
    cases h
    exact ⟨_, .leftParen _, by rw [paren]; rfl⟩
  split at h
  · next paren =>
    cases h
    exact ⟨_, .rightParen _, by rw [paren]; rfl⟩
  split at h
  · next open_ =>
    obtain ⟨text, left, rfl, all, stops⟩ := exists_span isIriChar cs
    obtain ⟨take, drop⟩ := span_append all stops
    rw [drop, take] at h
    split at h
    · cases h
    · next d left =>
      dsimp only at h
      split at h
      · next close =>
        cases h
        exact ⟨_, .iri all _, by rw [open_, close]; simp⟩
      · cases h
  split at h
  · next quote =>
    obtain ⟨⟨label, after⟩, read, h⟩ := bind_eq_ok.1 h
    obtain ⟨body, s, closes, rfl, rfl⟩ := exists_closes_of_quoted read
    cases h
    exact ⟨_, .label closes _, by rw [quote]; rfl⟩
  split at h
  · next quote =>
    obtain ⟨⟨text, after⟩, read, h⟩ := bind_eq_ok.1 h
    obtain ⟨body, s, closes, rfl, rfl⟩ := exists_closes_of_quoted read
    obtain ⟨⟨tail, left⟩, glued, h⟩ := bind_eq_ok.1 h
    cases h
    rw [List.length_append, Nat.add_sub_cancel] at glued
    obtain ⟨used, tailed, rfl⟩ := exists_glued glued
    exact ⟨_, .string closes tailed, by rw [quote]; simp⟩
  split at h
  · cases h
  · next open_ close angle single double other =>
    refine exists_word ?_ (fun e => other (.inr (.inr e))) h
    simp_all [isWordChar]

/-! ### Whole texts -/

theorem scan_blank (hc : isBlank c = true) : scan pos (c :: cs) = scan (pos + 1) cs := by
  rw [scan.eq_def]
  exact dif_pos hc

theorem scan_cons (hc : isBlank c = false) :
    scan pos (c :: cs) = tokensFrom pos c cs >>= fun r =>
      (scan (pos + 1 + (cs.length - r.2.length)) r.2).map (r.1 ++ ·) := by
  rw [scan.eq_def]
  dsimp only
  rw [dif_neg (by rw [hc]; nofun)]
  split
  · next h =>
    conv_rhs => rw [h]
    rfl
  · next h =>
    conv_rhs => rw [h]
    rfl

theorem Lexes.scan_eq (h : Lexes pos cs ts) : scan pos cs = .ok ts := by
  induction h with
  | nil => rw [scan.eq_def]
  | blank hc _ ih => rw [scan_blank hc, ih]
  | @piece pos used rest ts more first _ ih =>
    obtain ⟨c, cs, rfl, hc, read⟩ := first.exists_cons
    have width : pos + 1 + ((cs ++ rest).length - rest.length) = pos + (c :: cs).length := by
      rw [List.length_append, Nat.add_sub_cancel, List.length_cons]
      omega
    rw [List.cons_append, scan_cons hc, read, ok_bind]
    dsimp only
    rw [width, ih]
    rfl

theorem lexes_of_scan (h : scan pos cs = .ok ts) : Lexes pos cs ts := by
  -- By induction on the length of the text, since a piece takes any number of characters.
  induction length : cs.length using Nat.strongRecOn generalizing pos cs ts with
  | ind n ih =>
    subst length
    cases cs with
    | nil =>
      rw [scan.eq_def] at h
      cases h
      exact .nil
    | cons c cs =>
      cases hc : isBlank c with
      | true =>
        rw [scan_blank hc] at h
        exact .blank hc (ih cs.length (Nat.lt_succ_self _) h rfl)
      | false =>
        rw [scan_cons hc] at h
        obtain ⟨⟨first, rest⟩, read, h⟩ := bind_eq_ok.1 h
        obtain ⟨more, scanned, rfl⟩ := map_eq_ok.1 h
        have shorter := length_of_tokensFrom hc read
        obtain ⟨used, piece, text⟩ := exists_piece hc read
        have width : pos + 1 + (cs.length - rest.length) = pos + used.length := by
          have total := congrArg List.length text
          rw [List.length_cons, List.length_append] at total
          omega
        dsimp only at scanned
        rw [width] at scanned
        rw [text]
        exact .piece piece (ih rest.length (Nat.lt_succ_of_le shorter) scanned rfl)

/-- The lexer gives the tokens of the pieces that the text is made of. -/
theorem scan_eq_ok : scan pos cs = .ok ts ↔ Lexes pos cs ts :=
  ⟨lexes_of_scan, Lexes.scan_eq⟩

end

end TabularOntology.Cell
