import TabularOntology.Cell.Values
import TabularOntology.Text.Cut
import TabularOntology.Proofs.Outcome

/-! Cells of many values and where they are cut. A scan takes a cell one mark at a time: a backslash
with the character after it, or else a single character. An unescaped quote opens a section, which
the same quote closes. What splitting does with a mark depends on the open section alone; so values
that are joined by semicolons come back if each leaves no section open and its own semicolons are
escaped, and a cell has no values just if it ends in a section. -/

namespace TabularOntology.Cell

open Text

/-- What a scan takes in one step. -/
inductive Mark
  | plain (c : Char)
  /-- A backslash with the character that it takes. -/
  | escaped (c : Char)
  /-- A backslash at the end. -/
  | dangling
  deriving DecidableEq

namespace Mark

def chars : Mark → List Char
  | .plain c => [c]
  | .escaped c => ['\\', c]
  | .dangling => ['\\']

/-- A mark that a scan takes at its place, whatever comes next. -/
def IsWhole (m : Mark) : Prop := m ≠ .plain '\\' ∧ m ≠ .dangling

/-- The quote and the position of the section that is open after a mark at position `pos`. -/
def sectionAfter (pos : Nat) (section? : Option (Char × Nat)) : Mark → Option (Char × Nat)
  | .plain c =>
    match section? with
    | none => if c = '"' ∨ c = '\'' then some (c, pos) else none
    | some (quote, start) => if c = quote then none else some (quote, start)
  | .escaped _ | .dangling => section?

/-- A semicolon outside of sections gets a backslash. -/
def protect (m : Mark) (section? : Option (Char × Nat)) : Mark :=
  if m = .plain ';' ∧ section? = none then .escaped ';' else m

/-- What a mark makes of the pieces of the characters after it. -/
def enter (section? : Option (Char × Nat)) (m : Mark) (pieces : List (List Char)) :
    List (List Char) :=
  if section? = none ∧ m = .plain ';' then [] :: pieces
  else if section? = none ∧ m = .escaped ';' then pieces.modifyHead (';' :: ·)
  else pieces.modifyHead (m.chars ++ ·)

end Mark

/-- The marks of a text. -/
def marks : List Char → List Mark
  | [] => []
  | ['\\'] => [.dangling]
  | '\\' :: c :: cs => .escaped c :: marks cs
  | c :: cs => .plain c :: marks cs

/-- The section that is open after marks from position `pos` on. -/
def sectionAfter (pos : Nat) (section? : Option (Char × Nat)) : List Mark → Option (Char × Nat)
  | [] => section?
  | m :: ms => sectionAfter (pos + m.chars.length) (m.sectionAfter pos section?) ms

/-- Marks from position `pos` on, each with the section that it stands in. -/
def placed (pos : Nat) (section? : Option (Char × Nat)) :
    List Mark → List (Mark × Option (Char × Nat))
  | [] => []
  | m :: ms => (m, section?) :: placed (pos + m.chars.length) (m.sectionAfter pos section?) ms

/-- The section that is open at the end of a text. -/
def openSection? (text : String) : Option (Char × Nat) := sectionAfter 0 none (marks text.toList)

/-- Marks from position `pos` on with a backslash before each semicolon outside of sections. -/
def guarded (pos : Nat) (section? : Option (Char × Nat)) (ms : List Mark) : List Char :=
  (placed pos section? ms).flatMap fun p => (p.1.protect p.2).chars

def escapeSemicolons (text : String) : String :=
  String.ofList (guarded 0 none (marks text.toList))

/-- A text that can be kept apart from its neighbours in a cell. -/
structure IsSeparable (text : String) : Prop where
  closed : openSection? text = none
  complete : .dangling ∉ marks text.toList
  /-- No semicolon outside of sections is escaped already. -/
  unescaped : (.escaped ';', none) ∉ placed 0 none (marks text.toList)

/-! ### Marks -/

section
variable {m : Mark} {ms : List Mark} {cs rest u v w : List Char} {pos start : Nat} {quote c : Char}
variable {section? : Option (Char × Nat)}

/-- Texts by their marks. -/
theorem marks_induction {P : List Char → Prop} (nil : P []) (dangling : P ['\\'])
    (escaped : ∀ c cs, P cs → P ('\\' :: c :: cs))
    (plain : ∀ c cs, c ≠ '\\' → P cs → P (c :: cs)) (cs : List Char) : P cs := by
  fun_induction marks cs with
  | case1 => exact nil
  | case2 => exact dangling
  | case3 c cs ih => exact escaped c cs ih
  | case4 c cs alone pair ih =>
    refine plain c cs ?_ ih
    rintro rfl
    cases cs with
    | nil => exact alone rfl rfl
    | cons d ds => exact pair d ds rfl rfl

theorem marks_cons (h : c ≠ '\\') : marks (c :: cs) = .plain c :: marks cs := by
  rw [marks]
  · exact fun same => absurd same h
  · exact fun _ _ same => absurd same h

/-- A text is its marks. -/
theorem flatMap_chars_marks (cs : List Char) : (marks cs).flatMap Mark.chars = cs := by
  induction cs using marks_induction with
  | nil => rfl
  | dangling => rfl
  | escaped c cs ih => rw [marks, List.flatMap_cons, ih]; rfl
  | plain c cs hc ih => rw [marks_cons hc, List.flatMap_cons, ih]; rfl

theorem Mark.isWhole_plain (h : c ≠ '\\') : (Mark.plain c).IsWhole :=
  ⟨fun same => h (Mark.plain.inj same), nofun⟩

theorem Mark.isWhole_escaped (c : Char) : (Mark.escaped c).IsWhole := ⟨nofun, nofun⟩

theorem isWhole_of_mem_marks (complete : .dangling ∉ marks cs) : ∀ m ∈ marks cs, m.IsWhole := by
  induction cs using marks_induction with
  | nil => exact nofun
  | dangling => exact absurd List.mem_cons_self complete
  | escaped c cs ih =>
    have more := ih fun h => complete (List.mem_cons_of_mem _ h)
    exact List.forall_mem_cons.2 ⟨Mark.isWhole_escaped c, more⟩
  | plain c cs hc ih =>
    rw [marks_cons hc] at complete ⊢
    have more := ih fun h => complete (List.mem_cons_of_mem _ h)
    exact List.forall_mem_cons.2 ⟨Mark.isWhole_plain hc, more⟩

/-- A section is opened by a quote, or it was open before. -/
theorem Mark.sectionAfter_eq_some
    (h : m.sectionAfter pos section? = some (quote, start)) :
    m = .plain quote ∧ start = pos ∨ section? = some (quote, start) := by
  rcases m with c | _ | _
  · rcases section? with _ | ⟨q, p⟩ <;> rw [Mark.sectionAfter] at h <;> split at h <;> cases h
    · exact .inl ⟨rfl, rfl⟩
    · exact .inr rfl
  · exact .inr h
  · exact .inr h

/-- The quote of an open section stands at its position. -/
theorem getElem?_of_sectionAfter
    (h : sectionAfter pos section? (marks cs) = some (quote, start)) :
    (∃ k, start = pos + k ∧ cs[k]? = some quote) ∨ section? = some (quote, start) := by
  induction cs using marks_induction generalizing pos section? with
  | nil => exact .inr h
  | dangling => exact .inr h
  | escaped c cs ih =>
    rcases ih h with ⟨k, rfl, found⟩ | before
    · exact .inl ⟨2 + k, Nat.add_assoc _ _ _, by rwa [Nat.add_comm]⟩
    · exact .inr before
  | plain c cs hc ih =>
    rw [marks_cons hc] at h
    rcases ih h with ⟨k, rfl, found⟩ | before
    · exact .inl ⟨1 + k, Nat.add_assoc _ _ _, by rwa [Nat.add_comm]⟩
    · refine (Mark.sectionAfter_eq_some before).imp_left ?_
      rintro ⟨same, rfl⟩
      cases same
      exact ⟨0, rfl, rfl⟩

/-! ### Cutting at one mark -/

/-- How a cell is cut after a mark depends on the section that the mark leaves open. -/
theorem cutCell_mark (whole : m.IsWhole) (pos : Nat) (section? : Option (Char × Nat))
    (rest : List Char) :
    cutCell pos section? (m.chars ++ rest) =
      (cutCell (pos + m.chars.length) (m.sectionAfter pos section?) rest).map
        (m.enter section?) := by
  cases m with
  | plain c =>
    have other : c ≠ '\\' := fun same => whole.1 (congrArg Mark.plain same)
    rw [Mark.chars, List.singleton_append]
    rcases section? with _ | ⟨quote, start⟩
    · rw [cutCell]
      · by_cases separator : c = ';'
        · subst separator
          rfl
        · rw [if_neg separator]
          refine congrArg (Except.map · _) (funext fun pieces => ?_)
          simp [Mark.enter, separator, Mark.chars]
      · exact fun same => absurd same other
      · exact fun _ _ same => absurd same other
    · rw [cutCell]
      · rfl
      · exact fun same => absurd same other
      · exact fun _ _ same => absurd same other
  | escaped c =>
    rw [Mark.chars, List.cons_append, List.singleton_append, cutCell]
    refine congrArg (Except.map · _) (funext fun pieces => ?_)
    simp [Mark.enter, and_comm, Mark.chars]
  | dangling => exact absurd rfl whole.2

theorem cutCell_semicolon :
    cutCell pos none (';' :: rest) = (cutCell (pos + 1) none rest).map ([] :: ·) :=
  cutCell_mark (Mark.isWhole_plain (by decide)) pos none rest

theorem cutCell_plain (backslash : c ≠ '\\') (semicolon : c ≠ ';') :
    cutCell pos none (c :: rest) =
      (cutCell (pos + 1) ((Mark.plain c).sectionAfter pos none) rest).map
        (·.modifyHead ([c] ++ ·)) := by
  have entered : (Mark.plain c).enter none = (·.modifyHead ([c] ++ ·)) :=
    funext fun pieces => by simp [Mark.enter, Mark.chars, semicolon]
  rw [← entered]
  exact cutCell_mark (Mark.isWhole_plain backslash) pos none rest

/-- A cell cannot be cut just if a section is open at its end. -/
theorem cutCell_eq_error {e : SyntaxError} : cutCell pos section? cs = .error e ↔
    ∃ quote start, sectionAfter pos section? (marks cs) = some (quote, start) ∧
      e = ⟨start, .unclosedSection quote⟩ := by
  induction cs using marks_induction generalizing pos section? with
  | nil =>
    rcases section? with _ | ⟨quote, start⟩ <;> simp [cutCell, marks, sectionAfter, eq_comm]
  | dangling =>
    rcases section? with _ | ⟨quote, start⟩ <;>
      simp [cutCell, marks, sectionAfter, Mark.sectionAfter, eq_comm]
  | escaped c cs ih =>
    have step := cutCell_mark (Mark.isWhole_escaped c) pos section? cs
    rw [Mark.chars, List.cons_append, List.singleton_append] at step
    rw [step, map_eq_error, ih]
    rfl
  | plain c cs hc ih =>
    have step := cutCell_mark (Mark.isWhole_plain hc) pos section? cs
    rw [Mark.chars, List.singleton_append] at step
    rw [step, map_eq_error, ih, marks_cons hc]
    rfl

/-! ### What stands in one value -/

/-- Characters that add a text to the value that a cell is in the middle of, outside of sections
before and after them. -/
def Yields (cs v : List Char) : Prop :=
  ∀ pos rest, cutCell pos none (cs ++ rest) =
    (cutCell (pos + cs.length) none rest).map (·.modifyHead (v ++ ·))

theorem modifyHead_append (pieces : List (List Char)) :
    (pieces.modifyHead (v ++ ·)).modifyHead (u ++ ·) = pieces.modifyHead ((u ++ v) ++ ·) := by
  cases pieces <;> simp

theorem map_modifyHead_nil (result : Except SyntaxError (List (List Char))) :
    result.map (·.modifyHead ([] ++ ·)) = result := by
  rcases result with _ | _ | _ <;> rfl

theorem Yields.append {us vs : List Char} (hu : Yields us u) (hv : Yields vs v) :
    Yields (us ++ vs) (u ++ v) := by
  intro pos rest
  rw [List.append_assoc, hu, hv, List.length_append, Nat.add_assoc, map_map]
  simp only [modifyHead_append]

/-! ### Guarded semicolons -/

theorem Mark.enter_protect (unescaped : ¬(m = .escaped ';' ∧ section? = none))
    (pieces : List (List Char)) :
    (m.protect section?).enter section? pieces = pieces.modifyHead (m.chars ++ ·) := by
  by_cases separator : m = .plain ';' ∧ section? = none
  · obtain ⟨rfl, rfl⟩ := separator
    rfl
  · rw [protect, if_neg separator, enter, if_neg (mt And.symm separator),
      if_neg (mt And.symm unescaped)]

theorem Mark.sectionAfter_protect :
    (m.protect section?).sectionAfter pos section? = m.sectionAfter pos section? := by
  by_cases separator : m = .plain ';' ∧ section? = none
  · obtain ⟨rfl, rfl⟩ := separator
    rfl
  · rw [protect, if_neg separator]

/-- Where a section was opened does not matter for what a mark opens and closes. -/
theorem Mark.map_fst_sectionAfter {pos' : Nat} {section' : Option (Char × Nat)}
    (same : section'.map Prod.fst = section?.map Prod.fst) :
    (m.sectionAfter pos' section').map Prod.fst = (m.sectionAfter pos section?).map Prod.fst := by
  rcases m with c | _ | _
  · rcases section' with _ | ⟨quote', start'⟩ <;> rcases section? with _ | ⟨quote, start⟩ <;>
      cases same
    · rw [sectionAfter, sectionAfter]
      split <;> rfl
    · rw [sectionAfter, sectionAfter]
      split <;> rfl
  · exact same
  · exact same

theorem Mark.enter_congr {section' : Option (Char × Nat)}
    (same : section'.map Prod.fst = section?.map Prod.fst) :
    m.enter section' = m.enter section? := by
  have outside : section' = none ↔ section? = none := by
    rw [← Option.map_eq_none_iff, same, Option.map_eq_none_iff]
  funext pieces
  simp only [enter, outside]

theorem Mark.IsWhole.protect (h : m.IsWhole) : (m.protect section?).IsWhole := by
  unfold Mark.protect
  split
  · exact isWhole_escaped _
  · exact h

theorem guarded_cons : guarded pos section? (m :: ms) = (m.protect section?).chars ++
    guarded (pos + m.chars.length) (m.sectionAfter pos section?) ms := by
  rw [guarded, placed, List.flatMap_cons, guarded]

/-- Guarded marks are read as the marks. -/
theorem cutCell_guarded (pos' : Nat) {section' : Option (Char × Nat)}
    (closed : sectionAfter pos section? ms = none) (whole : ∀ m ∈ ms, m.IsWhole)
    (unescaped : (.escaped ';', none) ∉ placed pos section? ms)
    (same : section'.map Prod.fst = section?.map Prod.fst) :
    cutCell pos' section' (guarded pos section? ms ++ rest) =
      (cutCell (pos' + (guarded pos section? ms).length) none rest).map
        (·.modifyHead (ms.flatMap Mark.chars ++ ·)) := by
  induction ms generalizing pos section? pos' section' with
  | nil =>
    obtain rfl : section? = none := closed
    obtain rfl : section' = none := Option.map_eq_none_iff.1 same
    exact (map_modifyHead_nil _).symm
  | cons m ms ih =>
    obtain ⟨here, whole⟩ := List.forall_mem_cons.1 whole
    simp only [List.mem_cons, not_or, placed] at unescaped
    have agree : ((m.protect section?).sectionAfter pos' section').map Prod.fst =
        (m.sectionAfter pos section?).map Prod.fst :=
      (Mark.map_fst_sectionAfter same).trans (congrArg _ Mark.sectionAfter_protect)
    have tail := ih (pos' + (m.protect section?).chars.length) closed whole unescaped.2 agree
    have head : (m.protect section?).enter section' = (·.modifyHead (m.chars ++ ·)) := by
      rw [Mark.enter_congr same]
      exact funext (Mark.enter_protect fun h => unescaped.1 (by rw [h.1, h.2]))
    rw [guarded_cons, List.append_assoc, cutCell_mark here.protect, tail, map_map, head]
    simp only [modifyHead_append, List.length_append, Nat.add_assoc, List.flatMap_cons]

theorem yields_escapeSemicolons {text : String} (h : IsSeparable text) :
    Yields (escapeSemicolons text).toList text.toList := by
  intro pos rest
  rw [escapeSemicolons, String.toList_ofList, cutCell_guarded pos h.closed
    (isWhole_of_mem_marks h.complete) h.unescaped rfl, flatMap_chars_marks]

/-! ### Joined values -/

/-- A character that a cut passes over. -/
def isNeutral (c : Char) : Bool := !(c == '\\' || c == ';' || c == '"' || c == '\'')

theorem isNeutral_iff : isNeutral c = true ↔ c ≠ '\\' ∧ c ≠ ';' ∧ c ≠ '"' ∧ c ≠ '\'' := by
  simp [isNeutral, and_assoc]

theorem isNeutral_of_isBlank (h : isBlank c = true) : isNeutral c = true := by
  refine isNeutral_iff.2 ⟨?_, ?_, ?_, ?_⟩ <;> rintro rfl <;> exact absurd h (by decide)

theorem yields_of_isNeutral (h : cs.all isNeutral = true) : Yields cs cs := by
  induction cs with
  | nil => exact fun pos rest => (map_modifyHead_nil _).symm
  | cons c cs ih =>
    obtain ⟨hc, hcs⟩ := Bool.and_eq_true_iff.1 h
    obtain ⟨backslash, semicolon, double, single⟩ := isNeutral_iff.1 hc
    rw [← List.singleton_append]
    refine Yields.append (fun pos rest => ?_) (ih hcs)
    have outside : (Mark.plain c).sectionAfter pos none = none := by
      simp [Mark.sectionAfter, double, single]
    rw [List.singleton_append, cutCell_plain backslash semicolon, outside, List.length_singleton]

theorem trimChars_append (blank : u.all isBlank = true) : trimChars (u ++ v) = trimChars v := by
  rw [trimChars, List.dropWhile_append_of_pos (List.all_eq_true.1 blank), trimChars]

theorem map_trimChars_modifyHead (blank : u.all isBlank = true) (pieces : List (List Char)) :
    (pieces.modifyHead (u ++ ·)).map trimChars = pieces.map trimChars := by
  cases pieces <;> simp [trimChars_append blank]

/-- What a cell that joins texts is cut into, but for blanks at the ends. -/
theorem exists_cutCell_join {pad : String} {ws vs : List String} (pos : Nat)
    (blank : isBlankText pad = true)
    (h : List.Forall₂ (fun w v => Yields w.toList v.toList) ws vs) (some : ws ≠ []) :
    ∃ pieces, cutCell pos none (join (";" ++ pad) ws).toList = .ok pieces ∧
      pieces.map trimChars = vs.map fun v => trimChars v.toList := by
  induction h generalizing pos with
  | nil => exact absurd rfl some
  | @cons w v ws vs hw h ih =>
    cases h with
    | nil =>
      refine ⟨[v.toList], ?_, rfl⟩
      rw [join, ← List.append_nil w.toList, hw, cutCell]
      simp [Except.map]
    | @cons w' v' ws vs hw' h =>
      obtain ⟨pieces, cut, trimmed⟩ := ih (pos + w.toList.length + 1 + pad.toList.length) nofun
      refine ⟨v.toList :: pieces.modifyHead (pad.toList ++ ·), ?_, ?_⟩
      · have gap : Yields pad.toList pad.toList :=
          yields_of_isNeutral (List.all_eq_true.2 fun c hc =>
            isNeutral_of_isBlank (List.all_eq_true.1 blank c hc))
        have cells : (join (";" ++ pad) (w :: w' :: ws)).toList =
            w.toList ++ ';' :: (pad.toList ++ (join (";" ++ pad) (w' :: ws)).toList) := by
          simp [join]
        rw [cells, hw, cutCell_semicolon, gap, cut]
        simp [Except.map]
      · rw [List.map_cons, map_trimChars_modifyHead blank, trimmed]
        rfl

theorem splitValues_join (pad : String) {ws vs : List String}
    (blank : isBlankText pad = true)
    (h : List.Forall₂ (fun w v => Yields w.toList v.toList) ws vs)
    (kept : ∀ v ∈ vs, v ≠ "" ∧ trim v = v) : splitValues (join (";" ++ pad) ws) = .ok vs := by
  rcases eq_or_ne ws [] with rfl | some
  · obtain rfl := List.forall₂_nil_left_iff.1 h
    rfl
  obtain ⟨pieces, cut, trimmed⟩ := exists_cutCell_join 0 blank h some
  have same : vs.map (fun v => trimChars v.toList) = vs.map String.toList :=
    List.map_congr_left fun v hv => by rw [← toList_trim, (kept v hv).2]
  have filled : (vs.map String.toList).filter (!·.isEmpty) = vs.map String.toList :=
    List.filter_eq_self.2 fun cs hcs => by
      obtain ⟨v, hv, rfl⟩ := List.mem_map.1 hcs
      simpa using (kept v hv).1
  refine map_eq_ok.2 ⟨pieces, cut, ?_⟩
  rw [trimmed, same, filled, List.map_map]
  simp [Function.comp_def]

/-- Splitting undoes joining with guarded semicolons; and it fails just at a quote that is open at
the end of the cell. -/
theorem splitValues_escapeSemicolons :
    (∀ vs : List String, (∀ v ∈ vs, v ≠ "" ∧ trim v = v ∧ IsSeparable v) →
      splitValues (join ";" (vs.map escapeSemicolons)) = .ok vs) ∧
    ∀ cell e, splitValues cell = .error e ↔
      ∃ quote start, openSection? cell = some (quote, start) ∧
        cell.toList[start]? = some quote ∧ e = ⟨start, .unclosedSection quote⟩ := by
  constructor
  · intro vs hvs
    have yielded : List.Forall₂ (fun w v => Yields w.toList v.toList)
        (vs.map escapeSemicolons) vs := by
      rw [List.forall₂_map_left_iff, List.forall₂_same]
      exact fun v hv => yields_escapeSemicolons (hvs v hv).2.2
    exact splitValues_join "" rfl yielded fun v hv => ⟨(hvs v hv).1, (hvs v hv).2.1⟩
  · intro cell e
    rw [splitValues, map_eq_error, cutCell_eq_error]
    constructor
    · rintro ⟨quote, start, inside, rfl⟩
      rcases getElem?_of_sectionAfter inside with ⟨k, rfl, found⟩ | before
      · exact ⟨quote, _, inside, by rwa [Nat.zero_add], rfl⟩
      · cases before
    · rintro ⟨quote, start, inside, -, rfl⟩
      exact ⟨quote, start, inside, rfl⟩

theorem splitValues_escapeSemicolons_quoted :
    splitValues (join ";" (["p value \"x;y\"", "a;b", "'it\\'s; fine'"].map escapeSemicolons)) =
      .ok ["p value \"x;y\"", "a;b", "'it\\'s; fine'"] ∧
    splitValues "a; \"b" = .error ⟨3, .unclosedSection '"'⟩ := by
  constructor
  · refine splitValues_escapeSemicolons.1 _ ?_
    simp only [List.forall_mem_cons, List.not_mem_nil, false_imp_iff, implies_true, and_true]
    refine ⟨⟨by decide, by decide, ⟨by decide, by decide, by decide⟩⟩,
      ⟨by decide, by decide, ⟨by decide, by decide, by decide⟩⟩,
      by decide, by decide, ⟨by decide, by decide, by decide⟩⟩
  · exact (splitValues_escapeSemicolons.2 _ _).2 ⟨'"', 3, by decide, by decide, rfl⟩

end

end TabularOntology.Cell
