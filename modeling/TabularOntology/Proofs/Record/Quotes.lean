import Mathlib.Data.List.DropRight
import TabularOntology.Record.Heading
import TabularOntology.Proofs.Cell.Listing
import TabularOntology.Proofs.Compilation.Labels

/-! Quotes around the cells of labels, definitions and annotations. Such a cell is stored without
the quotes at its ends, and only the escapes of that quote are undone. Expressions undo every
escape, and they take a cell for one quoted text only if the quote at its end closes the one at
its start. So the two agree just on quoted texts without an escape of anything but the quote, and
on cells that do not begin and end with the same quote. -/

namespace TabularOntology

namespace Cell

open Text

/-- The text that expressions read in characters that are one quoted text. -/
def Quoted.only? : List Char → Option (List Char)
  | [] => none
  | quote :: cs =>
    if quote = '"' ∨ quote = '\'' then
      match read quote cs with
      | .ok (s, []) => some s
      | _ => none
    else none

/-- Characters between two quotes, which need not belong together. -/
def IsBetween (quote : Char) (cs : List Char) : Prop := ∃ inner, cs = quote :: (inner ++ [quote])

/-- Marks that can stand inside quotes. -/
def IsBody (quote : Char) (ms : List Mark) : Prop := ∀ m ∈ ms, m.IsWhole ∧ m ≠ .plain quote

namespace Mark

/-- The character that a mark inside quotes stands for. -/
def content : Mark → Char
  | .plain c | .escaped c => c
  | .dangling => '\\'

/-- A mark when the escapes of a quote are undone and no others. -/
def unquoted (quote : Char) : Mark → List Char
  | .plain c => [c]
  | .escaped c => if c = quote then [c] else ['\\', c]
  | .dangling => ['\\']

end Mark

section
variable {quote c : Char} {cs rest s text : List Char} {ms : List Mark}

/-! ### The marks of a quoted text -/

theorem exists_body (h : Quoted.read quote cs = .ok (s, rest)) : ∃ ms, IsBody quote ms ∧
    cs = ms.flatMap Mark.chars ++ quote :: rest ∧ s = ms.map Mark.content := by
  induction cs using marks_induction generalizing s with
  | nil => cases h
  | dangling => cases h
  | escaped c cs ih =>
    rw [Quoted.read] at h
    obtain ⟨⟨s, _⟩, h, same⟩ := map_eq_ok.1 h
    cases same
    obtain ⟨ms, body, rfl, rfl⟩ := ih h
    have inside : Mark.escaped c ≠ .plain quote := by simp
    exact ⟨.escaped c :: ms, List.forall_mem_cons.2 ⟨⟨Mark.isWhole_escaped c, inside⟩, body⟩,
      rfl, rfl⟩
  | plain c cs hc ih =>
    rw [Quoted.read_cons hc] at h
    split at h
    · next closing =>
      cases h
      exact ⟨[], List.forall_mem_nil _, by rw [closing]; rfl, rfl⟩
    · next other =>
      obtain ⟨⟨s, _⟩, h, same⟩ := map_eq_ok.1 h
      cases same
      obtain ⟨ms, body, rfl, rfl⟩ := ih h
      exact ⟨.plain c :: ms, List.forall_mem_cons.2 ⟨⟨Mark.isWhole_plain hc,
        fun same => other (Mark.plain.inj same)⟩, body⟩, rfl, rfl⟩

theorem marks_append (body : IsBody quote ms) :
    marks (ms.flatMap Mark.chars ++ cs) = ms ++ marks cs := by
  induction ms with
  | nil => rfl
  | cons m ms ih =>
    obtain ⟨⟨whole, -⟩, body⟩ := List.forall_mem_cons.1 body
    rw [List.flatMap_cons, List.append_assoc, List.cons_append, ← ih body]
    rcases m with c | c | _
    · exact marks_cons fun same => whole.1 (congrArg Mark.plain same)
    · rfl
    · exact absurd rfl whole.2

theorem marks_body (backslash : quote ≠ '\\') (s : List Char) : marks (Quoted.body quote s) =
    s.map (fun c => if c = quote ∨ c = '\\' then .escaped c else .plain c) ++ [.plain quote] := by
  induction s with
  | nil => exact marks_cons backslash
  | cons c s ih =>
    rw [Quoted.body, List.map_cons, List.cons_append, ← ih]
    split
    · rfl
    · next plain => exact marks_cons fun same => plain (.inr same)

theorem only?_eq_some (h : Quoted.only? cs = some s) : ∃ quote ms, (quote = '"' ∨ quote = '\'') ∧
    IsBody quote ms ∧ cs = quote :: (ms.flatMap Mark.chars ++ [quote]) ∧
      s = ms.map Mark.content := by
  unfold Quoted.only? at h
  split at h
  · cases h
  split at h
  · next quote cs hq =>
    split at h
    · next read =>
      cases h
      obtain ⟨ms, body, rfl, rfl⟩ := exists_body read
      exact ⟨quote, ms, hq, body, rfl, rfl⟩
    · cases h
  · cases h

/-! ### Undoing the escapes of a quote -/

theorem isPrefixOf_escape :
    ['\\', quote].isPrefixOf (c :: cs) = true ↔ c = '\\' ∧ cs.head? = some quote := by
  rw [List.isPrefixOf_iff_prefix, List.cons_prefix_cons]
  cases cs <;> simp [List.cons_prefix_cons, eq_comm]

theorem replaceFrom_cons (h : ¬(c = '\\' ∧ cs.head? = some quote)) :
    replaceFrom ['\\', quote] [quote] 0 (c :: cs) =
      c :: replaceFrom ['\\', quote] [quote] 0 cs := by
  rw [replaceFrom.eq_def]
  exact if_neg (mt isPrefixOf_escape.1 h)

theorem replaceFrom_escaped : replaceFrom ['\\', quote] [quote] 0 ('\\' :: quote :: cs) =
    quote :: replaceFrom ['\\', quote] [quote] 0 cs := by
  rw [replaceFrom.eq_def]
  exact if_pos (isPrefixOf_escape.2 ⟨rfl, rfl⟩)

theorem length_replaceFrom_le (pattern : List Char) (single : text.length ≤ 1) (skip : Nat)
    (cs : List Char) : (replaceFrom pattern text skip cs).length ≤ cs.length := by
  induction cs generalizing skip with
  | nil => exact Nat.le_refl 0
  | cons c cs ih =>
    rw [replaceFrom.eq_def]
    dsimp only
    split
    · exact Nat.le_succ_of_le (ih _)
    · split
      · rw [List.length_append, List.length_cons]
        have := ih (pattern.length - 1)
        omega
      · exact Nat.succ_le_succ (ih 0)

theorem head?_flatMap_chars (backslash : quote ≠ '\\') (body : IsBody quote ms) :
    (ms.flatMap Mark.chars).head? ≠ some quote := by
  cases ms with
  | nil => exact nofun
  | cons m ms =>
    obtain ⟨whole, other⟩ := body m List.mem_cons_self
    rcases m with c | c | _
    · exact fun same => other (congrArg Mark.plain (Option.some.inj same))
    · exact fun same => backslash (Option.some.inj same).symm
    · exact absurd rfl whole.2

/-- An escaped quote starts at a backslash that escapes it, since no other backslash is followed by
a quote. -/
theorem replaceFrom_body (backslash : quote ≠ '\\') (body : IsBody quote ms) :
    replaceFrom ['\\', quote] [quote] 0 (ms.flatMap Mark.chars) =
      ms.flatMap (Mark.unquoted quote) := by
  induction ms with
  | nil => rfl
  | cons m ms ih =>
    obtain ⟨⟨whole, -⟩, body⟩ := List.forall_mem_cons.1 body
    have next := head?_flatMap_chars backslash body
    rw [List.flatMap_cons, List.flatMap_cons, ← ih body]
    rcases m with c | c | _
    · exact replaceFrom_cons fun escape => whole.1 (congrArg Mark.plain escape.1)
    · rw [Mark.chars, Mark.unquoted, List.cons_append, List.singleton_append]
      split
      · next same =>
        subst same
        exact replaceFrom_escaped
      · next other =>
        have kept : ¬('\\' = '\\' ∧ (c :: ms.flatMap Mark.chars).head? = some quote) :=
          fun escape => other (Option.some.inj escape.2)
        rw [replaceFrom_cons kept, replaceFrom_cons fun escape => next escape.2]
        rfl
    · exact absurd rfl whole.2

theorem length_le_flatMap_unquoted (quote : Char) (ms : List Mark) :
    ms.length ≤ (ms.flatMap (Mark.unquoted quote)).length := by
  induction ms with
  | nil => exact Nat.le_refl 0
  | cons m ms ih =>
    have some : 1 ≤ (m.unquoted quote).length := by
      rcases m with c | c | _
      · exact Nat.le_refl 1
      · rw [Mark.unquoted]
        split <;> simp
      · exact Nat.le_refl 1
    rw [List.flatMap_cons, List.length_append, List.length_cons]
    omega

/-- An escape that is not undone leaves a character too many. -/
theorem flatMap_unquoted_eq_iff (body : IsBody quote ms) :
    ms.flatMap (Mark.unquoted quote) = ms.map Mark.content ↔
      ∀ c, .escaped c ∈ ms → c = quote := by
  induction ms with
  | nil => simp
  | cons m ms ih =>
    obtain ⟨⟨whole, -⟩, others⟩ := List.forall_mem_cons.1 body
    have longer := length_le_flatMap_unquoted quote ms
    rw [List.flatMap_cons, List.map_cons]
    rcases m with c | c | _
    · simpa [Mark.unquoted, Mark.content] using ih others
    · by_cases same : c = quote
      · simpa [Mark.unquoted, Mark.content, same] using ih others
      · constructor
        · intro equal
          have lengths := congrArg List.length equal
          simp only [Mark.unquoted, same, if_false, List.length_append, List.length_cons,
            List.length_map, List.length_nil] at lengths
          omega
        · exact fun all => absurd (all c List.mem_cons_self) same
    · exact absurd rfl whole.2

end

end Cell

open Text Cell

section
variable {quote : Char} {cs s : List Char} {text : String}

/-! ### Cells without their quotes -/

theorem unquoteWith?_eq_some : unquoteWith? quote cs = some s ↔
    ∃ inner, cs = quote :: (inner ++ [quote]) ∧
      replaceFrom ['\\', quote] [quote] 0 inner = s := by
  cases cs with
  | nil => simp [unquoteWith?]
  | cons c cs =>
    rw [unquoteWith?]
    constructor
    · intro h
      split at h
      · next ends =>
        obtain ⟨inner, rfl⟩ := List.getLast?_eq_some_iff.1 ends.2
        rw [List.dropLast_concat] at h
        exact ⟨inner, by rw [ends.1], Option.some.inj h⟩
      · cases h
    · rintro ⟨inner, same, rfl⟩
      cases same
      simp

theorem unquote_of_isBetween {inner : List Char} (hq : quote = '"' ∨ quote = '\'')
    (h : trimChars text.toList = quote :: (inner ++ [quote])) :
    unquote text = String.ofList (replaceFrom ['\\', quote] [quote] 0 inner) := by
  have found := unquoteWith?_eq_some.2 ⟨inner, h, rfl⟩
  unfold unquote
  dsimp only
  rcases hq with rfl | rfl
  · rw [found]
    rfl
  · have single : unquoteWith? '"' (trimChars text.toList) = none := by
      rw [h, unquoteWith?, if_neg (by simp)]
    rw [single, found]
    rfl

theorem unquote_of_not_isBetween
    (h : ∀ quote, quote = '"' ∨ quote = '\'' → ¬ IsBetween quote (trimChars text.toList)) :
    unquote text = trim text := by
  have none (quote : Char) (hq : quote = '"' ∨ quote = '\'') :
      unquoteWith? quote (trimChars text.toList) = none := by
    refine Option.eq_none_iff_forall_not_mem.2 fun s hs => h quote hq ?_
    obtain ⟨inner, between, -⟩ := unquoteWith?_eq_some.1 hs
    exact ⟨inner, between⟩
  unfold unquote
  dsimp only
  rw [none _ (.inl rfl), none _ (.inr rfl)]
  rfl

/-- A quoted text loses its quotes and escapes as expressions read it, just if it escapes nothing
but its quote. -/
theorem unquote_eq_only?_iff (h : Quoted.only? (trimChars text.toList) = some s) :
    unquote text = String.ofList s ↔ ∀ c, .escaped c ∈ marks (trimChars text.toList) →
      (trimChars text.toList).head? = some c := by
  obtain ⟨quote, ms, hq, body, whole, rfl⟩ := only?_eq_some h
  have backslash : quote ≠ '\\' := by rcases hq with rfl | rfl <;> decide
  have marked : marks (trimChars text.toList) = .plain quote :: (ms ++ [.plain quote]) := by
    rw [whole, marks_cons backslash, marks_append body, marks_cons backslash, marks]
  rw [unquote_of_isBetween hq whole, String.ofList_inj, replaceFrom_body backslash body,
    flatMap_unquoted_eq_iff body, marked, whole]
  simp [eq_comm]

/-- Any other cell stays as it is just if it does not begin and end with the same quote. -/
theorem unquote_eq_trim_iff : unquote text = trim text ↔
    ∀ quote, quote = '"' ∨ quote = '\'' → ¬ IsBetween quote (trimChars text.toList) := by
  refine ⟨?_, unquote_of_not_isBetween⟩
  rintro same quote hq ⟨inner, between⟩
  rw [unquote_of_isBetween hq between, trim, String.ofList_inj, between] at same
  have shorter := length_replaceFrom_le ['\\', quote] (Nat.le_refl [quote].length) 0 inner
  rw [same, List.length_cons, List.length_append] at shorter
  omega

/-- A displayed label is stored as the label just if it has no backslash. -/
theorem unquote_label_iff (label : String) :
    unquote (TermReference.label none label).text = label ↔ '\\' ∉ label.toList := by
  have backslash : '\'' ≠ '\\' := by decide
  have chars : trimChars (TermReference.label none label).text.toList =
      '\'' :: Quoted.body '\'' label.toList := by
    rw [← toList_trim, TermReference.text, (isKept_write (.inr rfl) label).trim, Quoted.write,
      String.toList_ofList]
  have whole : Quoted.only? (trimChars (TermReference.label none label).text.toList) =
      some label.toList := by
    have readBack := Quoted.read_body backslash label.toList []
    rw [List.append_nil] at readBack
    rw [chars, Quoted.only?, if_pos (.inr rfl), readBack]
  have read := unquote_eq_only?_iff whole
  rw [String.ofList_toList, chars, marks_cons backslash, marks_body backslash] at read
  refine read.trans ⟨fun all h => ?_, fun absent c hc => ?_⟩
  · have escaped : Mark.escaped '\\' ∈ label.toList.map fun c =>
        if c = '\'' ∨ c = '\\' then .escaped c else .plain c :=
      List.mem_map.2 ⟨'\\', h, if_pos (.inr rfl)⟩
    have same := all '\\' (List.mem_cons_of_mem _ (List.mem_append_left _ escaped))
    cases Option.some.inj same
  · simp only [List.mem_cons, List.mem_append, List.mem_map, reduceCtorEq, false_or, or_false,
      List.not_mem_nil] at hc
    obtain ⟨d, hd, same⟩ := hc
    split at same
    · next special =>
      cases same
      rcases special with rfl | rfl
      · rfl
      · exact absurd hd absent
    · cases same

/-! ### The texts of a row -/

/-- The cells of a row under a heading, but for blank ones. -/
def cellsUnder (heading : Heading) (columns : List (String × String)) : List String :=
  (columns.filter fun p => Heading.ofText p.1 = heading ∧ trim p.2 ≠ "").map Prod.snd

/-- What the cells of a row do to the texts of a record. -/
structure Draft.Stores (d : Draft) (columns : List (String × String)) (d' : Draft) : Prop where
  label : d'.record.label = ((cellsUnder .label columns).getLast?.map unquote).or d.record.label
  definition : d'.record.definition =
    ((cellsUnder .definition columns).getLast?.map unquote).or d.record.definition
  annotations (key : String) : ∃ added,
    d'.record.annotations.getD key [] = d.record.annotations.getD key [] ++ added ∧
      ((cellsUnder (.property key) columns).map fun cell => ⟨unquote cell, none⟩).Sublist added

theorem cellsUnder_append (heading : Heading) (columns columns' : List (String × String)) :
    cellsUnder heading (columns ++ columns') =
      cellsUnder heading columns ++ cellsUnder heading columns' := by
  rw [cellsUnder, List.filter_append, List.map_append, cellsUnder, cellsUnder]

theorem Draft.Stores.append {d d' d'' : Draft} {columns columns' : List (String × String)}
    (h : d.Stores columns d') (h' : d'.Stores columns' d'') :
    d.Stores (columns ++ columns') d'' := by
  refine ⟨?_, ?_, fun key => ?_⟩
  · rw [h'.label, h.label, cellsUnder_append, List.getLast?_append, Option.map_or, Option.or_assoc]
  · rw [h'.definition, h.definition, cellsUnder_append, List.getLast?_append, Option.map_or,
      Option.or_assoc]
  · obtain ⟨added, known, among⟩ := h.annotations key
    obtain ⟨added', known', among'⟩ := h'.annotations key
    refine ⟨added ++ added', ?_, ?_⟩
    · rw [known', known, List.append_assoc]
    · rw [cellsUnder_append, List.map_append]
      exact among.append among'

/-- Annotations are added to those before, whatever else a record holds. -/
theorem TermRecord.foldl_annotate (texts : List (String × AnnotationText)) (r : TermRecord) :
    ∃ annotations, (∀ r' : TermRecord, r'.annotations = r.annotations →
        texts.foldl (fun r (key, text) => r.annotate key text) r' = { r' with annotations }) ∧
      ∀ key, ∃ added, annotations.getD key [] = r.annotations.getD key [] ++ added := by
  induction texts generalizing r with
  | nil =>
    refine ⟨r.annotations, fun r' same => ?_, fun key => ⟨[], (List.append_nil _).symm⟩⟩
    rw [← same]
    rfl
  | cons text texts ih =>
    obtain ⟨annotations, folded, grown⟩ := ih (r.annotate text.1 text.2)
    refine ⟨annotations, fun r' same => ?_, fun key => ?_⟩
    · exact folded (r'.annotate text.1 text.2) (by rw [annotate, annotate, same])
    · obtain ⟨added, known⟩ := grown key
      rw [annotations_annotate, List.append_assoc] at known
      exact ⟨_, known⟩

theorem trimChars_trimChars (cs : List Char) : trimChars (trimChars cs) = trimChars cs := by
  have kept : (trimChars cs).dropWhile isBlank = trimChars cs := by
    obtain ⟨rest, whole⟩ : trimChars cs <+: cs.dropWhile isBlank :=
      List.rdropWhile_prefix isBlank _
    refine dropWhile_isBlank fun c hc => ?_
    have solid := List.head?_dropWhile_not isBlank cs
    rw [← whole, List.head?_append, Option.mem_def.1 hc] at solid
    exact solid
  rw [trimChars, kept, trimChars, List.reverse_reverse, List.dropWhile_idempotent]

theorem unquote_trim (text : String) : unquote (trim text) = unquote text := by
  unfold unquote
  rw [toList_trim, trimChars_trimChars]

/-- What one cell does to the texts of a record. -/
theorem Draft.texts_enter {d d' : Draft} {cell : String} {heading : Heading}
    (h : d.enter cell heading = .ok d') :
    d'.record.label = (if heading = .label then some (unquote cell) else d.record.label) ∧
    d'.record.definition =
      (if heading = .definition then some (unquote cell) else d.record.definition) ∧
    ∀ key, ∃ added,
      d'.record.annotations.getD key [] = d.record.annotations.getD key [] ++ added ∧
        (heading = .property key → added = [⟨unquote cell, none⟩]) := by
  have unchanged (key : String) : d.record.annotations.getD key [] =
      d.record.annotations.getD key [] ++ [] := (List.append_nil _).symm
  cases heading with
  | id =>
    cases h
    exact ⟨rfl, rfl, fun key => ⟨[], unchanged key, nofun⟩⟩
  | kind =>
    rw [enter] at h
    split at h <;> cases h
    exact ⟨rfl, rfl, fun key => ⟨[], unchanged key, nofun⟩⟩
  | label =>
    cases h
    exact ⟨rfl, rfl, fun key => ⟨[], unchanged key, nofun⟩⟩
  | definition =>
    cases h
    exact ⟨rfl, rfl, fun key => ⟨[], unchanged key, nofun⟩⟩
  | comments =>
    obtain ⟨values, -, rfl⟩ := map_eq_ok.1 h
    exact ⟨rfl, rfl, fun key => ⟨[], unchanged key, nofun⟩⟩
  | annotations =>
    obtain ⟨values, -, h⟩ := bind_eq_ok.1 h
    obtain ⟨texts, -, h⟩ := bind_eq_ok.1 h
    obtain ⟨annotations, folded, grown⟩ := TermRecord.foldl_annotate texts d.record
    rw [folded d.record rfl] at h
    cases h
    exact ⟨rfl, rfl, fun key => (grown key).imp fun _ known => ⟨known, nofun⟩⟩
  | cell column =>
    cases h
    exact ⟨rfl, rfl, fun key => ⟨[], unchanged key, nofun⟩⟩
  | property key =>
    cases h
    refine ⟨rfl, rfl, fun key' => ⟨_, TermRecord.annotations_annotate _ _ _ _, ?_⟩⟩
    rintro same
    cases same
    exact if_pos rfl

theorem cellsUnder_singleton {name cell : String} (filled : trim cell ≠ "") (heading : Heading) :
    cellsUnder heading [(name, cell)] = if Heading.ofText name = heading then [cell] else [] := by
  unfold cellsUnder
  split <;> simp_all

theorem Draft.stores_enter {d d' : Draft} {name cell : String} (filled : trim cell ≠ "")
    (h : d.enter (trim cell) (.ofText name) = .ok d') : d.Stores [(name, cell)] d' := by
  obtain ⟨label, definition, annotations⟩ := texts_enter h
  rw [unquote_trim] at label definition annotations
  refine ⟨?_, ?_, fun key => ?_⟩
  · rw [label, cellsUnder_singleton filled]
    split <;> rfl
  · rw [definition, cellsUnder_singleton filled]
    split <;> rfl
  · obtain ⟨added, known, own⟩ := annotations key
    refine ⟨added, known, ?_⟩
    rw [cellsUnder_singleton filled]
    split
    · next same =>
      rw [own same]
      exact List.Sublist.refl _
    · exact List.nil_sublist _

theorem Draft.enterAll_blank {name cell : String} (blank : trim cell = "") (d : Draft)
    (columns : List (String × String)) :
    d.enterAll ((name, cell) :: columns) = d.enterAll columns := by
  rw [enterAll, blank]
  rfl

theorem Draft.enterAll_filled {name cell : String} (filled : trim cell ≠ "") (d : Draft)
    (columns : List (String × String)) : d.enterAll ((name, cell) :: columns) =
      d.enter (trim cell) (.ofText name) >>= fun d => d.enterAll columns := by
  rw [enterAll, if_neg (by simpa using filled)]
  cases d.enter (trim cell) (.ofText name) <;> rfl

theorem Draft.stores_enterAll {d d' : Draft} {columns : List (String × String)}
    (h : d.enterAll columns = .ok d') : d.Stores columns d' := by
  induction columns generalizing d with
  | nil =>
    cases h
    exact ⟨rfl, rfl, fun key => ⟨[], (List.append_nil _).symm, List.Sublist.refl _⟩⟩
  | cons p columns ih =>
    obtain ⟨name, cell⟩ := p
    by_cases blank : trim cell = ""
    · rw [enterAll_blank blank] at h
      have skipped (heading : Heading) :
          cellsUnder heading ((name, cell) :: columns) = cellsUnder heading columns := by
        unfold cellsUnder
        rw [List.filter_cons_of_neg (by simp_all)]
      obtain ⟨label, definition, annotations⟩ := ih h
      refine ⟨?_, ?_, fun key => ?_⟩
      · rwa [skipped]
      · rwa [skipped]
      · rw [skipped]
        exact annotations key
    · rw [enterAll_filled blank] at h
      obtain ⟨between, entered, h⟩ := bind_eq_ok.1 h
      exact (stores_enter blank entered).append (ih h)

theorem TermRecord.stores_ofColumns {columns : List (String × String)} {kind : Option EntityKind}
    {provenance : Provenance} {r : TermRecord} (h : ofColumns columns kind provenance = .ok r) :
    r.label = (cellsUnder .label columns).getLast?.map unquote ∧
      r.definition = (cellsUnder .definition columns).getLast?.map unquote ∧
      ∀ key, ((cellsUnder (.property key) columns).map fun cell => ⟨unquote cell, none⟩).Sublist
        (r.annotations.getD key []) := by
  obtain ⟨d, entered, h⟩ := bind_eq_ok.1 h
  obtain ⟨label, definition, annotations⟩ := Draft.stores_enterAll entered
  split at h <;> cases h
  refine ⟨label.trans Option.or_none, definition.trans Option.or_none, fun key => ?_⟩
  obtain ⟨added, known, among⟩ := annotations key
  dsimp only
  rw [known]
  exact among

/-! ### References to displayed labels -/

theorem ReferenceScope.resolve_label {scope : ReferenceScope} {label : String} {x : Iri}
    (h : ∀ y, y ∈ scope.termLabels.carriers label ↔ y = x) :
    scope.resolve (.label none label) = .ok x := by
  have single : (scope.termLabels.carriers label).toList = [x] :=
    Signature.toList_eq_of_forall_mem (t := (∅ : Signature).insert x) fun y => by
      rw [h, Signature.mem_insert_iff]
      simp
  have candidates : scope.candidates none label = [x] := by
    unfold candidates IdentifierScope.carriers
    rw [single]
    rfl
  unfold resolve
  dsimp only
  rw [candidates]

theorem CellScope.readTerm_text {scope : CellScope} {t : TermReference} {x : Iri}
    (written : t.IsWritten) (h : scope.term t = .ok x) : scope.readTerm t.text = .ok x := by
  rw [readTerm, parseTerm_text written]
  exact h

theorem CellScope.readClass_text {scope : CellScope} {t : TermReference} {x : Iri}
    (written : t.IsWritten) (h : scope.term t = .ok x) :
    scope.readClass t.text = .ok (.named x) := by
  have deep : (Expression.term t).depth ≤ scope.maxDepth + 1 := Nat.le_add_left 1 _
  have parsed := parseExpression_text (.term written) deep
  rw [Expression.text] at parsed
  rw [readClass, parsed]
  exact map_eq_ok.2 ⟨x, h, rfl⟩

/-- A cell of a label, a definition or an annotation is stored without the quotes around it. For a
text that is one quoted text, this is what expressions read just if it has no escape of anything
but the quote; any other cell is stored as it is just if it does not begin and end with the same
quote. So a displayed label is stored as itself just if it has no backslash, and then a reference
to it is found unless other terms carry it as well. -/
theorem stored_texts_exact {columns : List (String × String)} {kind : Option EntityKind}
    {provenance : Provenance} {r : TermRecord}
    (stored : TermRecord.ofColumns columns kind provenance = .ok r) :
    r.label = (cellsUnder .label columns).getLast?.map unquote ∧
    r.definition = (cellsUnder .definition columns).getLast?.map unquote ∧
    (∀ key, ((cellsUnder (.property key) columns).map fun cell => ⟨unquote cell, none⟩).Sublist
      (r.annotations.getD key [])) ∧
    (∀ cell s, Quoted.only? (trim cell).toList = some s → (unquote cell = String.ofList s ↔
      ∀ c, .escaped c ∈ marks (trim cell).toList → (trim cell).toList.head? = some c)) ∧
    (∀ cell, Quoted.only? (trim cell).toList = none → (unquote cell = trim cell ↔
      ∀ quote, quote = '"' ∨ quote = '\'' → ¬ IsBetween quote (trim cell).toList)) ∧
    ∀ label, (cellsUnder .label columns).getLast? = some (TermReference.label none label).text →
      (r.label = some label ↔ '\\' ∉ label.toList) ∧
      ('\\' ∉ label.toList → ∀ settings catalog ts c,
        Compilation.ofTables settings catalog ts = .ok c → r ∈ ts.flatMap Table.records →
        ∀ x, r.iri? settings.scope = some x →
          (∀ r' ∈ ts.flatMap Table.records, r'.label = some label →
            ∀ y, r'.iri? settings.scope = some y → y = x) →
          ∀ s : CellScope, s.references = ⟨settings.scope, c.labels, catalog.labels⟩ →
            s.readTerm (TermReference.label none label).text = .ok x ∧
              s.readClass (TermReference.label none label).text = .ok (.named x)) := by
  obtain ⟨known, definition, annotations⟩ := TermRecord.stores_ofColumns stored
  refine ⟨known, definition, annotations, fun cell s whole => ?_, fun cell _ => ?_,
    fun label displayed => ?_⟩
  · rw [toList_trim] at whole ⊢
    exact unquote_eq_only?_iff whole
  · rw [toList_trim]
    exact unquote_eq_trim_iff
  · have itself : r.label = some label ↔ '\\' ∉ label.toList := by
      rw [known, displayed, Option.map_some, Option.some.injEq, unquote_label_iff]
    refine ⟨itself, fun plain settings catalog ts c compiled hr x about sole s against => ?_⟩
    have carried (y : Iri) : y ∈ c.labels.carriers label ↔ y = x := by
      rw [Compilation.mem_carriers_ofTables compiled]
      constructor
      · rintro ⟨r', hr', about', label'⟩
        exact sole r' hr' label' y about'
      · rintro rfl
        exact ⟨r, hr, about, itself.2 plain⟩
    have resolved : s.term (.label none label) = .ok x := by
      rw [CellScope.term, against]
      exact ReferenceScope.resolve_label carried
    have written : (TermReference.label none label).IsWritten := trivial
    exact ⟨CellScope.readTerm_text written resolved, CellScope.readClass_text written resolved⟩

end

/-- A class with a label cell, and a class below the one that the cell refers to. -/
def rowsAbout (cell : String) : Except RecordError (List TermRecord) := do
  let a ← TermRecord.ofColumns [("ID", "<urn:a>"), ("Label", cell)] (some .cls) ⟨"t.csv", 2⟩
  let b ← TermRecord.ofColumns [("ID", "<urn:b>"), ("Subclass of", cell)] (some .cls) ⟨"t.csv", 3⟩
  .ok [a, b]

/-- The label of a class whose cell escapes its quote is found, and a cell that begins and ends with
quotes of two texts loses both of them. -/
theorem stored_texts_exact_quote : ∃ a b c,
    rowsAbout "'driver\\'s'" = .ok [a, b] ∧ a.label = some "driver's" ∧
    Compilation.ofTables Compilation.exampleSettings ∅ [⟨"t.csv", [a, b]⟩] = .ok c ∧
    (∀ s : CellScope,
      s.references = ⟨Compilation.exampleSettings.scope, c.labels, Catalog.labels ∅⟩ →
      s.readClass "'driver\\'s'" = .ok (.named ⟨"urn:a"⟩)) ∧
    unquote "'a\\\\b'" ≠ "a\\b" ∧ unquote "'a' or 'b'" ≠ "'a' or 'b'" := by
  obtain ⟨rs, hrs, facts⟩ : ∃ rs, rowsAbout "'driver\\'s'" = .ok rs ∧
      (rs.map TermRecord.label, rs.map fun r => r.iri? Compilation.exampleSettings.scope,
        (Compilation.ofTables Compilation.exampleSettings ∅ [⟨"t.csv", rs⟩]).toOption.isSome) =
        ([some "driver's", none], [some ⟨"urn:a"⟩, some ⟨"urn:b"⟩], true) :=
    exists_of_toOption_map (by decide +kernel)
  obtain ⟨a, ha, h⟩ := bind_eq_ok.1 hrs
  obtain ⟨b, hb, h⟩ := bind_eq_ok.1 h
  cases h
  simp only [List.map_cons, List.map_nil, Prod.mk.injEq, List.cons.injEq, and_true] at facts
  obtain ⟨⟨-, noLabel⟩, ⟨about, -⟩, compiles⟩ := facts
  obtain ⟨c, hc⟩ := Option.isSome_iff_exists.1 compiles
  replace hc := mem_toOption.1 hc
  obtain ⟨-, -, -, quoted, other, displayed⟩ := stored_texts_exact ha
  obtain ⟨itself, found⟩ := displayed "driver's" (by decide)
  refine ⟨a, b, c, hrs, itself.2 (by decide), hc, fun s against => ?_, fun same => ?_,
    fun same => ?_⟩
  · have plain : '\\' ∉ "driver's".toList := by decide
    refine (found plain _ _ _ _ hc (by simp) _ about (fun r hr carried y hy => ?_) s against).2
    rcases List.mem_pair.1 hr with rfl | rfl
    · exact Option.some.inj (hy.symm.trans about)
    · rw [noLabel] at carried
      cases carried
  · exact absurd ((quoted "'a\\\\b'" "a\\b".toList (by decide)).1 same '\\' (by decide)) (by decide)
  · exact (other "'a' or 'b'" (by decide)).1 same '\'' (.inr rfl) ⟨"a' or 'b".toList, by decide⟩

/-- An escaped backslash stays escaped in the label, and so the class below finds no term with the
label that its cell refers to. -/
theorem escaped_backslash_unknown : ∃ rs c,
    rowsAbout "'a\\\\b'" = .ok rs ∧ rs.map TermRecord.label = [some "a\\\\b", none] ∧
      Quoted.only? "'a\\\\b'".toList = some "a\\b".toList ∧
      (TermReference.label none "a\\b").text = "'a\\\\b'" ∧
      Compilation.ofTables Compilation.exampleSettings ∅ [⟨"t.csv", rs⟩] = .ok c ∧
      c.report.map (fun e => (e.problem, e.provenance)) =
        [(.unresolvedReference, some ⟨"t.csv", 3⟩)] := by
  obtain ⟨rs, hrs, facts⟩ : ∃ rs, rowsAbout "'a\\\\b'" = .ok rs ∧
      (rs.map TermRecord.label,
        (Compilation.ofTables Compilation.exampleSettings ∅ [⟨"t.csv", rs⟩]).toOption.map fun c =>
          c.report.map fun e => (e.problem, e.provenance)) =
        ([some "a\\\\b", none], some [(.unresolvedReference, some ⟨"t.csv", 3⟩)]) :=
    exists_of_toOption_map (by decide +kernel)
  simp only [Prod.mk.injEq] at facts
  obtain ⟨c, hc, report⟩ := exists_of_toOption_map facts.2
  exact ⟨rs, c, hrs, facts.1, by decide, rfl, hc, report⟩

end TabularOntology
