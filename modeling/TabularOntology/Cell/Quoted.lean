/-! Quoted text. A quoted text stands between two equal quotes; inside, a
backslash takes the next character as it is, so that the quote and the backslash
itself can be written. Reading undoes writing: after the opening quote, what was
written for a text is read back as that text, whatever follows. -/

namespace TabularOntology.Cell.Quoted

/-- Why a quoted text does not end. -/
inductive Unclosed
  /-- The closing quote is missing. -/
  | missingQuote
  /-- The last character is a backslash with nothing to take. -/
  | danglingEscape
  deriving DecidableEq, Repr

/-- The written form of a text after its opening quote. -/
def body (quote : Char) : List Char → List Char
  | [] => [quote]
  | c :: cs =>
    if c = quote ∨ c = '\\' then '\\' :: c :: body quote cs else c :: body quote cs

/-- The text in quotes. -/
def write (quote : Char) (s : String) : String := String.ofList (quote :: body quote s.toList)

/-- Reads on from the opening quote: the text, and what follows the closing quote. -/
def read (quote : Char) : List Char → Except Unclosed (List Char × List Char)
  | [] => .error .missingQuote
  | ['\\'] => .error .danglingEscape
  | '\\' :: c :: cs => (read quote cs).map fun (s, rest) => (c :: s, rest)
  | c :: cs =>
    if c = quote then .ok ([], cs)
    else (read quote cs).map fun (s, rest) => (c :: s, rest)

theorem read_body {quote : Char} (hq : quote ≠ '\\') (s rest : List Char) :
    read quote (body quote s ++ rest) = .ok (s, rest) := by
  induction s with
  | nil => rw [body, List.singleton_append, read] <;> simp [hq]
  | cons c cs ih =>
    by_cases h : c = quote ∨ c = '\\'
    · simp [body, h, read, ih, Except.map]
    · rw [body, if_neg h, List.cons_append, read]
      · rw [if_neg (fun e => h (.inl e)), ih]
        rfl
      all_goals grind

theorem length_of_read {quote : Char} {cs s rest : List Char} (h : read quote cs = .ok (s, rest)) :
    rest.length < cs.length := by
  fun_induction read quote cs generalizing s rest with
  | case1 => simp at h
  | case2 => simp at h
  | case3 c cs ih =>
    cases hr : read quote cs with
    | error e => simp [hr, Except.map] at h
    | ok p =>
      simp only [hr, Except.map, Except.ok.injEq, Prod.mk.injEq] at h
      have := ih hr
      simp only [List.length_cons, ← h.2]
      omega
  | case4 cs =>
    simp only [Except.ok.injEq, Prod.mk.injEq] at h
    simp [← h.2]
  | case5 c cs _ _ _ ih =>
    cases hr : read quote cs with
    | error e => simp [hr, Except.map] at h
    | ok p =>
      simp only [hr, Except.map, Except.ok.injEq, Prod.mk.injEq] at h
      have := ih hr
      simp only [List.length_cons, ← h.2]
      omega

end TabularOntology.Cell.Quoted
