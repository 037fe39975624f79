/-! Cutting texts: at the first or at the last occurrence of a character, or into
all the pieces between separators. A piece may be empty, and the pieces joined by
what was cut out give the text back. -/

namespace TabularOntology.Text

/-- What stands before and after the first occurrence of a character. -/
def cutFirst? (d : Char) : List Char → Option (List Char × List Char)
  | [] => none
  | c :: cs => if c = d then some ([], cs) else (cutFirst? d cs).map fun (l, r) => (c :: l, r)

/-- What stands before and after the last occurrence of a character. -/
def cutLast? (d : Char) : List Char → Option (List Char × List Char)
  | [] => none
  | c :: cs =>
    match cutLast? d cs with
    | some (l, r) => some (c :: l, r)
    | none => if c = d then some ([], cs) else none

/-- The pieces between the characters that `p` accepts; at least one, maybe empty. -/
def pieces (p : Char → Bool) : List Char → List (List Char)
  | [] => [[]]
  | c :: cs => if p c then [] :: pieces p cs else (pieces p cs).modifyHead (c :: ·)

/-- The non-empty pieces between the characters that `p` accepts. -/
def words (p : Char → Bool) (cs : List Char) : List (List Char) :=
  (pieces p cs).filter (!·.isEmpty)

/-- The text after the given beginning, if it begins so. -/
def stripStart? (start : String) (s : String) : Option String :=
  if start.toList.isPrefixOf s.toList then some (String.ofList (s.toList.drop start.toList.length))
  else none

/-- A text that occurs somewhere in another one. -/
def occurs (pattern : List Char) : List Char → Bool
  | [] => pattern.isEmpty
  | c :: cs => pattern.isPrefixOf (c :: cs) || occurs pattern cs

/-- Puts a text in place of every occurrence of a pattern, from left to right; `skip`
characters of an occurrence are still to be passed over. -/
def replaceFrom (pattern text : List Char) (skip : Nat) : List Char → List Char
  | [] => []
  | c :: cs =>
    match skip with
    | n + 1 => replaceFrom pattern text n cs
    | 0 =>
      if pattern.isPrefixOf (c :: cs) then text ++ replaceFrom pattern text (pattern.length - 1) cs
      else c :: replaceFrom pattern text 0 cs

/-- Puts a text in place of every occurrence of a pattern, which is not empty. -/
def replace (pattern text s : String) : String :=
  String.ofList (replaceFrom pattern.toList text.toList 0 s.toList)

/-- Texts joined with a separator between neighbours. -/
def join (separator : String) : List String → String
  | [] => ""
  | [s] => s
  | s :: t :: ss => s ++ separator ++ join separator (t :: ss)

/-- Letters `A` to `Z` made small; all other characters stay. -/
def lowerAscii (s : String) : String := String.ofList (s.toList.map Char.toLower)

theorem cutFirst?_eq_some {d : Char} {cs l r : List Char} (h : cutFirst? d cs = some (l, r)) :
    cs = l ++ d :: r ∧ d ∉ l := by
  induction cs generalizing l with
  | nil => simp [cutFirst?] at h
  | cons c cs ih =>
    by_cases hc : c = d
    · simp_all [cutFirst?]
    · simp only [cutFirst?, hc, if_false, Option.map_eq_some_iff, Prod.mk.injEq] at h
      obtain ⟨⟨l', r'⟩, h', rfl, rfl⟩ := h
      have := ih h'
      simp [this.1, this.2, Ne.symm hc]

theorem cutFirst?_append {d : Char} {l r : List Char} (h : d ∉ l) :
    cutFirst? d (l ++ d :: r) = some (l, r) := by
  induction l with
  | nil => simp [cutFirst?]
  | cons c l ih =>
    have hc : c ≠ d := (List.ne_of_not_mem_cons h).symm
    simp [cutFirst?, hc, ih (List.not_mem_of_not_mem_cons h)]

theorem cutLast?_eq_some {d : Char} {cs l r : List Char} (h : cutLast? d cs = some (l, r)) :
    cs = l ++ d :: r := by
  induction cs generalizing l with
  | nil => simp [cutLast?] at h
  | cons c cs ih =>
    rw [cutLast?] at h
    split at h
    · next l' r' h' =>
      simp only [Option.some.injEq, Prod.mk.injEq] at h
      obtain ⟨rfl, rfl⟩ := h
      simp [ih h']
    · split at h <;> simp_all

theorem cutLast?_eq_none {d : Char} {cs : List Char} (h : d ∉ cs) : cutLast? d cs = none := by
  induction cs with
  | nil => rfl
  | cons c cs ih =>
    have hc : c ≠ d := (List.ne_of_not_mem_cons h).symm
    simp [cutLast?, hc, ih (List.not_mem_of_not_mem_cons h)]

theorem cutLast?_append {d : Char} {l r : List Char} (h : d ∉ r) :
    cutLast? d (l ++ d :: r) = some (l, r) := by
  induction l with
  | nil => simp [cutLast?, cutLast?_eq_none h]
  | cons c l ih => simp [cutLast?, ih]

theorem stripStart?_eq_some {start s rest : String} :
    stripStart? start s = some rest ↔ s.toList = start.toList ++ rest.toList := by
  unfold stripStart?
  constructor
  · intro h
    split at h
    · next starts =>
      cases h
      obtain ⟨tail, same⟩ := List.isPrefixOf_iff_prefix.1 starts
      simp [← same]
    · cases h
  · intro h
    rw [h, if_pos (List.isPrefixOf_iff_prefix.2 (List.prefix_append _ _)), List.drop_left,
      String.ofList_toList]

end TabularOntology.Text
