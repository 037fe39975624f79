import Mathlib.Algebra.Group.Nat.Even
import TabularOntology.Proofs.Record.Quotes

/-! Prose in the column of comments. A comments cell is split like a cell of expressions, so that
an apostrophe in it opens a section, which the next apostrophe closes. Text without semicolons,
backslashes and double quotes is therefore one comment if its apostrophes come in pairs. If one
is left over, the cell cannot be split, and the whole row is lost with it. -/

namespace TabularOntology

namespace Cell

open Text

section
variable {cs : List Char} {pieces : List (List Char)} {ms : List Mark} {m : Mark} {pos : Nat}
variable {section? : Option (Char × Nat)}

theorem marks_eq_map (h : '\\' ∉ cs) : marks cs = cs.map Mark.plain := by
  induction cs with
  | nil => rfl
  | cons c cs ih =>
    rw [List.mem_cons, not_or] at h
    rw [marks_cons (Ne.symm h.1), ih h.2, List.map_cons]

theorem sectionAfter_concat : sectionAfter pos section? (ms ++ [m]) =
    m.sectionAfter (pos + (ms.flatMap Mark.chars).length) (sectionAfter pos section? ms) := by
  induction ms generalizing pos section? with
  | nil => rfl
  | cons n ms ih =>
    rw [List.cons_append, sectionAfter, ih, List.flatMap_cons, List.length_append, Nat.add_assoc]
    rfl

/-- What has no semicolon and no backslash is cut into one piece, if it can be cut. -/
theorem eq_of_cutCell_eq_ok (h : ∀ c ∈ cs, c ≠ ';' ∧ c ≠ '\\')
    (cut : cutCell pos section? cs = .ok pieces) : pieces = [cs] := by
  induction cs generalizing pos section? pieces with
  | nil =>
    rcases section? with _ | ⟨quote, start⟩ <;> cases cut
    rfl
  | cons c cs ih =>
    obtain ⟨⟨semicolon, backslash⟩, h⟩ := List.forall_mem_cons.1 h
    have step := cutCell_mark (Mark.isWhole_plain backslash) pos section? cs
    rw [Mark.chars, List.singleton_append, cut] at step
    obtain ⟨more, cutMore, rfl⟩ := map_eq_ok.1 step.symm
    obtain rfl := ih h cutMore
    simp [Mark.enter, Mark.chars, semicolon]

/-- Among apostrophes alone, every second one closes a section, and a section that is left open was
opened by the last one. -/
theorem sectionAfter_apostrophes (h : ∀ c ∈ cs, c ≠ '\\' ∧ c ≠ '"') :
    (Even (cs.count '\'') → sectionAfter 0 none (marks cs) = none) ∧
    (¬ Even (cs.count '\'') → ∃ u v, cs = u ++ '\'' :: v ∧ '\'' ∉ v ∧
      sectionAfter 0 none (marks cs) = some ('\'', u.length)) := by
  -- By induction from the end, where the last apostrophe stands.
  induction cs using List.reverseRecOn with
  | nil => exact ⟨fun _ => rfl, fun odd => absurd Even.zero odd⟩
  | append_singleton cs c ih =>
    rw [List.forall_mem_append, List.forall_mem_singleton] at h
    obtain ⟨others, backslash, double⟩ := h
    obtain ⟨closed, opened⟩ := ih others
    have plain (ds : List Char) (hds : ∀ c ∈ ds, c ≠ '\\' ∧ c ≠ '"') :
        marks ds = ds.map Mark.plain :=
      marks_eq_map fun found => (hds _ found).1 rfl
    have after : sectionAfter 0 none (marks (cs ++ [c])) =
        (Mark.plain c).sectionAfter cs.length (sectionAfter 0 none (marks cs)) := by
      have last : marks (cs ++ [c]) = marks cs ++ [.plain c] := by
        rw [plain cs others, plain, List.map_append, List.map_singleton]
        exact List.forall_mem_append.2 ⟨others, List.forall_mem_singleton.2 ⟨backslash, double⟩⟩
      rw [last, sectionAfter_concat, flatMap_chars_marks, Nat.zero_add]
    rw [after, List.count_append]
    by_cases apostrophe : c = '\''
    · subst apostrophe
      rw [List.count_singleton_self, Nat.even_add_one, not_not]
      constructor
      · intro odd
        obtain ⟨u, v, -, -, inside⟩ := opened odd
        rw [inside]
        rfl
      · intro even
        rw [closed even]
        exact ⟨cs, [], rfl, List.not_mem_nil, rfl⟩
    · have none : [c].count '\'' = 0 :=
        List.count_eq_zero.2 fun found => apostrophe (List.mem_singleton.1 found).symm
      rw [none, Nat.add_zero]
      constructor
      · intro even
        rw [closed even]
        exact if_neg (not_or.2 ⟨double, apostrophe⟩)
      · intro odd
        obtain ⟨u, v, rfl, rest, inside⟩ := opened odd
        rw [inside]
        refine ⟨u, v ++ [c], List.append_assoc u _ _, ?_, if_neg apostrophe⟩
        rw [List.mem_append, List.mem_singleton, not_or]
        exact ⟨rest, Ne.symm apostrophe⟩

end

end Cell

open Text Cell

/-! ### The values of prose -/

section
variable {text : String}

theorem splitValues_prose (trimmed : trim text = text) (filled : text ≠ "")
    (h : ∀ c ∈ text.toList, c ≠ ';' ∧ c ≠ '\\' ∧ c ≠ '"') :
    (Even (text.toList.count '\'') → splitValues text = .ok [text]) ∧
    (¬ Even (text.toList.count '\'') → ∃ u v, text.toList = u ++ '\'' :: v ∧ '\'' ∉ v ∧
      splitValues text = .error ⟨u.length, .unclosedSection '\''⟩) := by
  obtain ⟨closed, opened⟩ := sectionAfter_apostrophes fun c hc => (h c hc).2
  constructor
  · intro even
    cases cut : cutCell 0 none text.toList with
    | error e =>
      obtain ⟨quote, start, inside, -⟩ := cutCell_eq_error.1 cut
      rw [closed even] at inside
      cases inside
    | ok pieces =>
      obtain rfl := eq_of_cutCell_eq_ok (fun c hc => ⟨(h c hc).1, (h c hc).2.1⟩) cut
      refine map_eq_ok.2 ⟨_, cut, ?_⟩
      have same : trimChars text.toList = text.toList := by rw [← toList_trim, trimmed]
      simp [same, filled]
  · intro odd
    obtain ⟨u, v, split, rest, inside⟩ := opened odd
    exact ⟨u, v, split, rest, map_eq_error.2 (cutCell_eq_error.2 ⟨_, _, inside, rfl⟩)⟩

end

/-! ### Rows and their comments -/

/-- The draft with other comments. -/
def Draft.withComments (d : Draft) (comments : List String) : Draft :=
  { d with record.comments := comments }

/-- What a cell adds to the comments, and all else that it does, does not depend on the comments
before. -/
theorem Draft.exists_comments_enter {d d' : Draft} {cell : String} {heading : Heading}
    (h : d.enter cell heading = .ok d') : ∃ added,
      d'.record.comments = d.record.comments ++ added ∧ ∀ comments,
        (d.withComments comments).enter cell heading =
          .ok (d'.withComments (comments ++ added)) := by
  have unchanged : d.record.comments = d.record.comments ++ [] := (List.append_nil _).symm
  cases heading with
  | comments =>
    obtain ⟨values, split, rfl⟩ := map_eq_ok.1 h
    exact ⟨values.map unquote, rfl, fun comments => map_eq_ok.2 ⟨values, split, rfl⟩⟩
  | annotations =>
    obtain ⟨values, split, h⟩ := bind_eq_ok.1 h
    obtain ⟨texts, read, h⟩ := bind_eq_ok.1 h
    obtain ⟨annotations, folded, -⟩ := TermRecord.foldl_annotate texts d.record
    rw [folded d.record rfl] at h
    cases h
    refine ⟨[], unchanged, fun comments => ?_⟩
    refine bind_eq_ok.2 ⟨values, split, bind_eq_ok.2 ⟨texts, read, ?_⟩⟩
    rw [List.append_nil, folded (d.withComments comments).record rfl]
    rfl
  | kind =>
    rw [enter] at h
    split at h
    · next read =>
      cases h
      refine ⟨[], unchanged, fun comments => ?_⟩
      rw [enter, read, List.append_nil]
      rfl
    · cases h
  | id | label | definition | cell | property =>
    cases h
    refine ⟨[], unchanged, fun comments => ?_⟩
    rw [List.append_nil]
    rfl

theorem Draft.enterAll_append (d : Draft) (columns columns' : List (String × String)) :
    d.enterAll (columns ++ columns') =
      d.enterAll columns >>= fun d => d.enterAll columns' := by
  induction columns generalizing d with
  | nil => rfl
  | cons p columns ih =>
    obtain ⟨name, cell⟩ := p
    rw [List.cons_append]
    by_cases blank : trim cell = ""
    · rw [enterAll_blank blank, enterAll_blank blank, ih]
    · rw [enterAll_filled blank, enterAll_filled blank]
      cases d.enter (trim cell) (.ofText name) with
      | error e => rfl
      | ok d => exact ih d

/-- The same for the cells of a row. -/
theorem Draft.exists_comments_enterAll {d d' : Draft} {columns : List (String × String)}
    (h : d.enterAll columns = .ok d') : ∃ added,
      d'.record.comments = d.record.comments ++ added ∧ ∀ comments,
        (d.withComments comments).enterAll columns = .ok (d'.withComments (comments ++ added)) := by
  induction columns generalizing d with
  | nil =>
    cases h
    refine ⟨[], (List.append_nil _).symm, fun comments => ?_⟩
    rw [List.append_nil]
    rfl
  | cons p columns ih =>
    obtain ⟨name, cell⟩ := p
    by_cases blank : trim cell = ""
    · simp only [enterAll_blank blank] at h ⊢
      exact ih h
    · rw [enterAll_filled blank] at h
      obtain ⟨between, entered, h⟩ := bind_eq_ok.1 h
      obtain ⟨added, known, frame⟩ := exists_comments_enter entered
      obtain ⟨more, known', frame'⟩ := ih h
      refine ⟨added ++ more, by rw [known', known, List.append_assoc], fun comments => ?_⟩
      rw [enterAll_filled blank, frame comments, ok_bind, frame', List.append_assoc]

/-- Prose in a cell of the column of comments, in a row that is read without it. If its apostrophes
come in pairs, the row is read with one comment more, the prose itself unless it stands between
two apostrophes; and if they do not, the row is not read at all. -/
theorem ofColumns_comment {before after : List (String × String)} {kind : Option EntityKind}
    {provenance : Provenance} {r : TermRecord} {name text : String}
    (row : TermRecord.ofColumns (before ++ after) kind provenance = .ok r)
    (column : Heading.ofText name = .comments) (filled : trim text ≠ "")
    (prose : ∀ c ∈ (trim text).toList, c ≠ ';' ∧ c ≠ '\\' ∧ c ≠ '"') :
    (Even ((trim text).toList.count '\'') → ∃ earlier later, r.comments = earlier ++ later ∧
      TermRecord.ofColumns (before ++ (name, text) :: after) kind provenance =
        .ok { r with comments := earlier ++ unquote text :: later }) ∧
    (unquote text = trim text ↔ ¬ IsBetween '\'' (trim text).toList) ∧
    (¬ Even ((trim text).toList.count '\'') → ∃ u v,
      (trim text).toList = u ++ '\'' :: v ∧ '\'' ∉ v ∧
      TermRecord.ofColumns (before ++ (name, text) :: after) kind provenance =
        .error (.badSyntax ⟨u.length, .unclosedSection '\''⟩)) := by
  have trimmed : trim (trim text) = trim text := by
    rw [trim, toList_trim, trimChars_trimChars, trim]
  obtain ⟨whole, broken⟩ := splitValues_prose trimmed filled prose
  obtain ⟨d, entered, finished⟩ := bind_eq_ok.1 row
  rw [Draft.enterAll_append] at entered
  obtain ⟨between, first, second⟩ := bind_eq_ok.1 entered
  obtain ⟨later, known, frame⟩ := Draft.exists_comments_enterAll second
  refine ⟨fun even => ⟨between.record.comments, later, ?_, ?_⟩, ?_, fun odd => ?_⟩
  · split at finished <;> cases finished
    exact known
  · have one : between.enter (trim text) .comments =
        .ok (between.withComments (between.record.comments ++ [unquote text])) := by
      rw [← unquote_trim text]
      exact map_eq_ok.2 ⟨[trim text], mapError_eq_ok.2 (whole even), rfl⟩
    rcases d with ⟨_ | id, _ | kind, stored⟩ <;> cases finished
    rw [TermRecord.ofColumns, Draft.enterAll_append, first, ok_bind, Draft.enterAll_filled filled,
      column, one, ok_bind, frame, ok_bind, List.append_assoc]
    rfl
  · rw [unquote_eq_trim_iff, ← toList_trim]
    constructor
    · intro h
      exact h '\'' (.inr rfl)
    · rintro h quote (rfl | rfl)
      · rintro ⟨inner, between⟩
        exact (prose '"' (by rw [between]; exact List.mem_cons_self)).2.2 rfl
      · exact h
  · obtain ⟨u, v, split, rest, error⟩ := broken odd
    refine ⟨u, v, split, rest, ?_⟩
    have lost : between.enter (trim text) .comments =
        .error (.badSyntax ⟨u.length, .unclosedSection '\''⟩) := by
      rw [Draft.enter, Draft.values, error]
      rfl
    rw [TermRecord.ofColumns, Draft.enterAll_append, first, ok_bind, Draft.enterAll_filled filled,
      column, lost]
    rfl

/-- Two apostrophes are kept, and they need not quote anything. -/
theorem ofColumns_comment_paired :
    let row := [("ID", "<urn:a>"), ("Type", "class")]
    ∃ r, TermRecord.ofColumns row none ⟨"t.csv", 2⟩ = .ok r ∧
      TermRecord.ofColumns (row ++ [("Comments", " leaves' and roots' cells ")]) none ⟨"t.csv", 2⟩ =
        .ok { r with comments := ["leaves' and roots' cells"] } := by
  intro row
  obtain ⟨r, read, alone⟩ : ∃ r, TermRecord.ofColumns (row ++ []) none ⟨"t.csv", 2⟩ = .ok r ∧
      r.comments = [] := exists_of_toOption_map (by decide +kernel)
  have prose : (trim " leaves' and roots' cells ").toList.all
      fun c => c ≠ ';' ∧ c ≠ '\\' ∧ c ≠ '"' := by decide
  have stored := @ofColumns_comment row [] none ⟨"t.csv", 2⟩ r "Comments"
    " leaves' and roots' cells " read (by decide +kernel) (by decide)
    fun c hc => of_decide_eq_true (List.all_eq_true.1 prose c hc)
  obtain ⟨earlier, later, comments, commented⟩ := stored.1 (by decide)
  obtain ⟨rfl, rfl⟩ := List.append_eq_nil_iff.1 (comments.symm.trans alone)
  have whole := stored.2.1.2 (by rintro ⟨inner, same⟩; cases same)
  rw [whole] at commented
  exact ⟨r, read, commented⟩

/-- One apostrophe, and the row is lost that would be read without the comment. -/
theorem apostrophe_loses_row :
    let row := [("ID", "<urn:a>"), ("Type", "class")]
    let text := "it's a leaf"
    (trim text = text ∧ text ≠ "" ∧ text.toList.head? ≠ some '\'' ∧
      ∀ c ∈ text.toList, c ≠ ';' ∧ c ≠ '\\' ∧ c ≠ '"') ∧
    (∃ r, TermRecord.ofColumns row none ⟨"t.csv", 2⟩ = .ok r) ∧
    TermRecord.ofColumns (row ++ [("Comments", text)]) none ⟨"t.csv", 2⟩ =
      .error (.badSyntax ⟨2, .unclosedSection '\''⟩) := by
  intro row text
  have read : ∃ r, TermRecord.ofColumns row none ⟨"t.csv", 2⟩ = .ok r ∧ r.comments = [] :=
    exists_of_toOption_map (by decide +kernel)
  have refused : (TermRecord.ofColumns (row ++ [("Comments", text)]) none ⟨"t.csv", 2⟩).map
      TermRecord.comments = .error (.badSyntax ⟨2, .unclosedSection '\''⟩) := by decide +kernel
  have prose : text.toList.all fun c => c ≠ ';' ∧ c ≠ '\\' ∧ c ≠ '"' := by decide
  exact ⟨⟨by decide, by decide, by decide,
      fun c hc => of_decide_eq_true (List.all_eq_true.1 prose c hc)⟩,
    read.imp fun _ => And.left, map_eq_error.1 refused⟩

end TabularOntology
