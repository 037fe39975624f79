import TabularOntology.Cell.SyntaxError
import TabularOntology.Text.Blank
import TabularOntology.Text.Cut

/-! Reading the tokens of a cell. Blanks between tokens carry no meaning, except
that a language tag or a datatype mark has to follow its string at once. A word is
a longest run of characters other than blanks, parentheses, angle brackets, quotes
and `^`; it is an anonymous individual, a number, a keyword in any case, or else a
name. Positions are those of the first character of each token. -/

namespace TabularOntology.Cell

open Text

/-- The characters that words are made of. -/
def isWordChar (c : Char) : Bool :=
  !isBlank c && !(c == '(' || c == ')' || c == '<' || c == '>' || c == '\'' || c == '"' || c == '^')

/-- The characters of a language tag. -/
def isTagChar (c : Char) : Bool := c.isAlphanum || c == '-'

/-- The characters of an IRI in angle brackets. -/
def isIriChar (c : Char) : Bool := c != '>' && !isBlank c

/-- A number without its sign. -/
def unsigned : List Char → List Char
  | '+' :: cs => cs
  | '-' :: cs => cs
  | cs => cs

/-- Digits, at least one, after an optional sign. -/
def isInteger (word : List Char) : Bool :=
  !(unsigned word).isEmpty && (unsigned word).all Char.isDigit

/-- Digits around a point, at least one after it, after an optional sign. -/
def isDecimal (word : List Char) : Bool :=
  match cutFirst? '.' (unsigned word) with
  | none => false
  | some (whole, fraction) =>
    !fraction.isEmpty && whole.all Char.isDigit && fraction.all Char.isDigit

/-- The lexeme of a word that is not the id space of a label. -/
def classify (word : List Char) : Except Fault Lexeme :=
  match word with
  | ['_', ':'] => .error .unnamedIndividual
  | '_' :: ':' :: name => .ok (.term (.anonymous (String.ofList name)))
  | _ =>
    let text := String.ofList word
    if isInteger word then .ok (.integer text)
    else if isDecimal word then .ok (.decimal text)
    else match Keyword.ofLower? (lowerAscii text) with
      | some k => .ok (.keyword k)
      | none => .ok (.term (.name text))

/-- Reads on from the opening quote at `start`; the cell ends after `cs`. -/
def quoted (quote : Char) (start : Nat) (cs : List Char) :
    Except SyntaxError (String × List Char) :=
  match Quoted.read quote cs with
  | .ok (s, rest) => .ok (String.ofList s, rest)
  | .error .missingQuote => .error ⟨start, .unclosedQuote quote⟩
  | .error .danglingEscape => .error ⟨start + cs.length, .danglingEscape⟩

/-- What is glued to a string that ends before `pos`: a language tag or a datatype mark. -/
def stringTail (pos : Nat) (cs : List Char) : Except SyntaxError (List Token × List Char) :=
  match cs with
  | '@' :: rest =>
    match rest.takeWhile isTagChar with
    | [] => .error ⟨pos, .emptyLanguageTag⟩
    | tag => .ok ([⟨.languageTag (String.ofList tag), pos⟩], rest.dropWhile isTagChar)
  | '^' :: '^' :: rest => .ok ([⟨.datatypeMark, pos⟩], rest)
  | _ => .ok ([], cs)

/-- Reads a word that starts at `pos`, together with the label glued to a final colon. -/
def wordToken (pos : Nat) (cs : List Char) : Except SyntaxError (List Token × List Char) :=
  let word := cs.takeWhile isWordChar
  match word.getLast?, cs.dropWhile isWordChar with
  | some ':', '\'' :: rest => do
    let (text, rest) ← quoted '\'' (pos + word.length) rest
    .ok ([⟨.term (.label (some (String.ofList word.dropLast)) text), pos⟩], rest)
  | _, _ =>
    match classify word with
    | .ok lexeme => .ok ([⟨lexeme, pos⟩], cs.dropWhile isWordChar)
    | .error fault => .error ⟨pos, fault⟩

/-- Reads the tokens that start with the character `c`, which is no blank, at `pos`:
a string may bring a second token along, all else is one token. -/
def tokensFrom (pos : Nat) (c : Char) (cs : List Char) :
    Except SyntaxError (List Token × List Char) :=
  if c = '(' then .ok ([⟨.leftParen, pos⟩], cs)
  else if c = ')' then .ok ([⟨.rightParen, pos⟩], cs)
  else if c = '<' then
    match cs.dropWhile isIriChar with
    | [] => .error ⟨pos, .unclosedIri⟩
    | d :: rest =>
      let text := cs.takeWhile isIriChar
      if d = '>' then .ok ([⟨.term (.iri (String.ofList text)), pos⟩], rest)
      else .error ⟨pos + 1 + text.length, .blankInIri⟩
  else if c = '\'' then do
    let (text, rest) ← quoted '\'' pos cs
    .ok ([⟨.term (.label none text), pos⟩], rest)
  else if c = '"' then do
    let (text, rest) ← quoted '"' pos cs
    let (tail, rest) ← stringTail (pos + 1 + (cs.length - rest.length)) rest
    .ok (⟨.string text, pos⟩ :: tail, rest)
  else if c = '>' ∨ c = '^' ∨ c = '@' then .error ⟨pos, .unexpectedCharacter c⟩
  else wordToken pos (c :: cs)

theorem length_dropWhile_le (p : Char → Bool) (cs : List Char) :
    (cs.dropWhile p).length ≤ cs.length :=
  (List.dropWhile_suffix p).length_le

theorem length_of_quoted {quote : Char} {start : Nat} {cs rest : List Char} {s : String}
    (h : quoted quote start cs = .ok (s, rest)) : rest.length < cs.length := by
  unfold quoted at h
  split at h
  · next hr =>
    simp only [Except.ok.injEq, Prod.mk.injEq] at h
    exact Quoted.length_of_read (h.2 ▸ hr)
  · cases h
  · cases h

theorem length_of_stringTail {pos : Nat} {cs rest : List Char} {ts : List Token}
    (h : stringTail pos cs = .ok (ts, rest)) : rest.length ≤ cs.length := by
  unfold stringTail at h
  split at h
  · next r =>
    split at h
    · simp at h
    · simp only [Except.ok.injEq, Prod.mk.injEq] at h
      have := length_dropWhile_le isTagChar r
      simp only [← h.2, List.length_cons]
      omega
  · simp only [Except.ok.injEq, Prod.mk.injEq] at h
    simp only [← h.2, List.length_cons]
    omega
  · simp only [Except.ok.injEq, Prod.mk.injEq] at h
    simp [h.2]

theorem length_of_wordToken {pos : Nat} {c : Char} {cs rest : List Char} {ts : List Token}
    (hc : isWordChar c = true) (h : wordToken pos (c :: cs) = .ok (ts, rest)) :
    rest.length ≤ cs.length := by
  have hd : (c :: cs).dropWhile isWordChar = cs.dropWhile isWordChar := by simp [hc]
  have hl := length_dropWhile_le isWordChar cs
  rw [wordToken, hd] at h
  split at h
  · next heq =>
    rw [heq] at hl
    simp only [List.length_cons] at hl
    cases hq : quoted '\'' (pos + ((c :: cs).takeWhile isWordChar).length) _ with
    | error e => rw [hq] at h; cases h
    | ok p =>
      rw [hq] at h
      have := length_of_quoted hq
      simp only [bind, Except.bind, Except.ok.injEq, Prod.mk.injEq] at h
      rw [← h.2]
      omega
  · split at h
    · simp only [Except.ok.injEq, Prod.mk.injEq] at h
      exact h.2 ▸ hl
    · cases h

theorem length_of_tokensFrom {pos : Nat} {c : Char} {cs rest : List Char} {ts : List Token}
    (hc : isBlank c = false) (h : tokensFrom pos c cs = .ok (ts, rest)) :
    rest.length ≤ cs.length := by
  unfold tokensFrom at h
  split at h
  · simp_all
  split at h
  · simp_all
  split at h
  · split at h
    · cases h
    · next heq =>
      have hl := length_dropWhile_le isIriChar cs
      rw [heq] at hl
      simp only [List.length_cons] at hl
      split at h
      · simp only [Except.ok.injEq, Prod.mk.injEq] at h
        rw [← h.2]
        omega
      · cases h
  split at h
  · cases hq : quoted '\'' pos cs with
    | error e => rw [hq] at h; cases h
    | ok p =>
      rw [hq] at h
      simp only [bind, Except.bind, Except.ok.injEq, Prod.mk.injEq] at h
      exact h.2 ▸ Nat.le_of_lt (length_of_quoted hq)
  split at h
  · cases hq : quoted '"' pos cs with
    | error e => rw [hq] at h; cases h
    | ok p =>
      rw [hq] at h
      simp only [bind, Except.bind] at h
      split at h
      · cases h
      · next q hs =>
        simp only [Except.ok.injEq, Prod.mk.injEq] at h
        have := length_of_stringTail hs
        have := length_of_quoted hq
        rw [← h.2]
        omega
  split at h
  · cases h
  · refine length_of_wordToken ?_ h
    simp_all [isWordChar]

/-- The tokens of a text whose first character stands at `pos`. -/
def scan (pos : Nat) : List Char → Except SyntaxError (List Token)
  | [] => .ok []
  | c :: cs =>
    if hc : isBlank c then scan (pos + 1) cs
    else
      match h : tokensFrom pos c cs with
      | .error e => .error e
      | .ok (ts, rest) =>
        have := length_of_tokensFrom (by simpa using hc) h
        (scan (pos + 1 + (cs.length - rest.length)) rest).map (ts ++ ·)
termination_by cs => cs.length

/-- The tokens of a cell. -/
def tokenize (s : String) : Except SyntaxError (List Token) := scan 0 s.toList

end TabularOntology.Cell
