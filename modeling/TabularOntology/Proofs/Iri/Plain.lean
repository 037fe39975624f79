import Mathlib.Data.List.TakeWhile
import TabularOntology.Proofs.Iri.Obo
import TabularOntology.Proofs.Key.Atoms
import TabularOntology.Proofs.Outcome

/-! The syntax of IRIs has no place for a closing bracket: a text that is read as an IRI has
none, and neither has what a reference is resolved to. Each reader takes a part off the front
of a text. What is shown of it is that the part has no closing bracket and that the rest
begins with a character that ends the part, so that nothing is left unread in the end. -/

namespace TabularOntology

/-! ### Pieces -/

namespace Text

variable {p : Char → Bool} {c : Char} {cs : List Char}

theorem pieces_ne_nil : pieces p cs ≠ [] := by
  induction cs with
  | nil => simp [pieces]
  | cons b cs ih =>
    unfold pieces
    split
    · simp
    · obtain ⟨g, gs, h⟩ := List.exists_cons_of_ne_nil ih
      simp [h]

/-- A character that does not separate pieces is in one of them. -/
theorem mem_pieces (h : c ∈ cs) : p c ∨ ∃ g ∈ pieces p cs, c ∈ g := by
  induction cs with
  | nil => cases h
  | cons b cs ih =>
    obtain ⟨first, others, cut⟩ : ∃ first others, pieces p cs = first :: others :=
      List.exists_cons_of_ne_nil pieces_ne_nil
    rw [cut] at ih
    rw [pieces, cut]
    split
    · next sep =>
      rcases List.mem_cons.1 h with rfl | h
      · exact .inl sep
      · obtain sep | ⟨g, hg, hc⟩ := ih h
        · exact .inl sep
        · exact .inr ⟨g, List.mem_cons_of_mem _ hg, hc⟩
    · rw [List.modifyHead_cons]
      rcases List.mem_cons.1 h with rfl | h
      · exact .inr ⟨_, List.mem_cons_self, List.mem_cons_self⟩
      · obtain sep | ⟨g, hg, hc⟩ := ih h
        · exact .inl sep
        · rcases List.mem_cons.1 hg with rfl | hg
          · exact .inr ⟨_, List.mem_cons_self, List.mem_cons_of_mem _ hc⟩
          · exact .inr ⟨g, List.mem_cons_of_mem _ hg, hc⟩

end Text

namespace Iri

theorem isPlain_iff {x : Iri} : x.isPlain ↔ '>' ∉ x.text.toList := by
  simp only [isPlain, List.all_eq_true, bne_iff_ne]
  exact ⟨fun h hc => h _ hc rfl, fun h c hc same => h (same ▸ hc)⟩

/-- A part without closing brackets, taken off the front of a text. -/
structure Reads (stop : Char → Bool) (cs part rest : List Char) : Prop where
  cut : cs = part ++ rest
  plain : '>' ∉ part
  stops : ∀ c ∈ rest.head?, stop c

section
variable {p stop : Char → Bool} {cs ds part rest : List Char}

theorem Reads.notMem (h : Reads stop cs part rest) (hr : '>' ∉ rest) : '>' ∉ cs := by
  rw [h.cut, List.mem_append]
  exact fun hc => hc.elim h.plain hr

theorem reads_nil (hr : ∀ c ∈ rest.head?, stop c) : Reads stop rest [] rest :=
  ⟨rfl, List.not_mem_nil, hr⟩

theorem Reads.append (h : Reads stop cs part rest) (hd : '>' ∉ ds) :
    Reads stop (ds ++ cs) (ds ++ part) rest where
  cut := by rw [h.cut, List.append_assoc]
  plain hc := (List.mem_append.1 hc).elim hd h.plain
  stops := h.stops

theorem Reads.cons {c : Char} (h : Reads stop cs part rest) (hc : c ≠ '>') :
    Reads stop (c :: cs) (c :: part) rest :=
  have single : '>' ∉ [c] := mt List.mem_singleton.1 hc.symm
  h.append single

/-! ### Runs of characters -/

theorem isHexDigit_ne {c : Char} (h : isHexDigit c) : c ≠ '>' := by
  rintro rfl
  exact absurd h (by decide)

theorem run_reads (hp : p '>' = false) (h : run p stop cs = .ok (part, rest)) :
    Reads stop cs part rest := by
  fun_induction run p stop cs generalizing part rest with
  | case1 =>
    cases h
    exact reads_nil (by simp)
  | case2 a b cs hex ih =>
    obtain ⟨⟨s, r⟩, hs, same⟩ := map_eq_ok.1 h
    cases same
    simp only [Bool.and_eq_true] at hex
    exact (((ih hs).cons (isHexDigit_ne hex.2)).cons (isHexDigit_ne hex.1)).cons (by decide)
  | case3 | case4 | case7 => cases h
  | case5 c cs _ _ hstop =>
    cases h
    exact reads_nil (by simpa using hstop)
  | case6 c cs _ _ _ hc ih =>
    obtain ⟨⟨s, r⟩, hs, same⟩ := map_eq_ok.1 h
    cases same
    refine (ih hs).cons ?_
    rintro rfl
    exact absurd hc (by simp [hp])

theorem port_reads (h : port cs = .ok (part, rest)) : Reads endsHost cs part rest := by
  fun_induction port cs generalizing part rest with
  | case1 =>
    cases h
    exact reads_nil (by simp)
  | case2 c cs hstop =>
    cases h
    exact reads_nil (by simpa using hstop)
  | case3 c cs _ digit ih =>
    obtain ⟨⟨s, r⟩, hs, same⟩ := map_eq_ok.1 h
    cases same
    refine (ih hs).cons ?_
    rintro rfl
    exact absurd digit (by decide)
  | case4 => cases h

/-! ### Addresses -/

theorem splitAt_eq_pieces (d : Char) (cs : List Char) :
    splitAt d cs = Text.pieces (fun c => c = d) cs := by
  induction cs with
  | nil => rfl
  | cons c cs ih =>
    rw [splitAt, Text.pieces, ih]
    simp only [decide_eq_true_eq]

theorem mem_splitAt {c d : Char} (h : c ∈ cs) : c = d ∨ ∃ g ∈ splitAt d cs, c ∈ g := by
  rw [splitAt_eq_pieces]
  exact (Text.mem_pieces (p := fun c => c = d) h).imp_left of_decide_eq_true

theorem notMem_hexGroup (h : isHexGroup cs) : '>' ∉ cs := by
  simp only [isHexGroup, Bool.and_eq_true, List.all_eq_true] at h
  exact fun hc => isHexDigit_ne (h.2 _ hc) rfl

theorem notMem_octet (h : isOctet cs) : '>' ∉ cs := by
  simp only [isOctet, Bool.and_eq_true, List.all_eq_true] at h
  exact fun hc => absurd (h.1.1.2 _ hc) (by decide)

theorem notMem_dottedQuad (h : isDottedQuad cs) : '>' ∉ cs := by
  simp only [isDottedQuad, Bool.and_eq_true, List.all_eq_true] at h
  intro hc
  obtain same | ⟨g, hg, hc⟩ := mem_splitAt (d := '.') hc
  · exact absurd same (by decide)
  · exact notMem_octet (h.2 g hg) hc

theorem notMem_groups {quad : Bool} {n : Nat} (h : groupCount? quad cs = some n) : '>' ∉ cs := by
  intro hc
  unfold groupCount? at h
  split at h
  · next empty => simp_all
  dsimp only at h
  obtain same | ⟨g, hg, hc⟩ := mem_splitAt (d := ':') hc
  · exact absurd same (by decide)
  have last : g ∈ (splitAt ':' cs).dropLast ∨ g = (splitAt ':' cs).getLast?.getD [] := by
    have nonempty : splitAt ':' cs ≠ [] := List.ne_nil_of_mem hg
    rw [← List.dropLast_append_getLast nonempty, List.mem_append] at hg
    rw [List.getLast?_eq_some_getLast nonempty]
    exact hg.imp_right List.mem_singleton.1
  split at h
  · cases h
  · next front =>
    simp only [Bool.not_eq_true, Bool.not_eq_false', List.all_eq_true] at front
    obtain hg | rfl := last
    · exact notMem_hexGroup (front g hg) hc
    split at h
    · next group => exact notMem_hexGroup group hc
    split at h
    · next dotted =>
      simp only [Bool.and_eq_true] at dotted
      exact notMem_dottedQuad dotted.2 hc
    · cases h

theorem cutDoubleColon?_eq_some {l r : List Char} (h : cutDoubleColon? cs = some (l, r)) :
    cs = l ++ ':' :: ':' :: r := by
  fun_induction cutDoubleColon? cs generalizing l r with
  | case1 cs =>
    cases h
    rfl
  | case2 c cs _ ih =>
    obtain ⟨⟨l', r'⟩, h', same⟩ := Option.map_eq_some_iff.1 h
    cases same
    rw [ih h', List.cons_append]
  | case3 => cases h

theorem notMem_address (h : isAddress cs) : '>' ∉ cs := by
  unfold isAddress at h
  split at h
  · exact notMem_groups (beq_iff_eq.1 h)
  · next l r cut =>
    rw [cutDoubleColon?_eq_some cut]
    split at h
    · next m n hl hr =>
      simpa using ⟨notMem_groups hl, notMem_groups hr⟩
    · cases h

theorem notMem_futureAddress (h : checkFutureAddress cs = .ok ()) : '>' ∉ cs := by
  have number : '>' ∉ cs.takeWhile isHexDigit := fun hc =>
    isHexDigit_ne (List.mem_takeWhile_imp hc) rfl
  rw [← List.takeWhile_append_dropWhile (p := isHexDigit) (l := cs), List.mem_append]
  refine not_or.2 ⟨number, ?_⟩
  unfold checkFutureAddress at h
  split at h
  · cases h
  · cases h
  · next c rest cut =>
    split at h
    · cases h
    split at h
    · cases h
    · next none =>
      rw [cut, List.mem_cons, not_or]
      refine ⟨by decide, fun hc => ?_⟩
      exact absurd (List.find?_eq_none.1 none _ hc) (by decide)
  · cases h

theorem notMem_bracketed (h : checkBracketed cs = .ok ()) : '>' ∉ cs := by
  unfold checkBracketed at h
  split at h
  · simpa using notMem_futureAddress h
  · simpa using notMem_futureAddress h
  · split at h
    · next address => exact notMem_address address
    · cases h

/-! ### Authorities -/

/-- A part that ends before another one, or before what follows. -/
theorem Reads.trans {stop' : Char → Bool} {more rest' : List Char} (h : Reads stop cs part rest)
    (hr : Reads stop' rest more rest') : Reads stop' cs (part ++ more) rest' := by
  rw [h.cut]
  exact hr.append h.plain

theorem Reads.imp {stop' : Char → Bool} (h : Reads stop cs part rest)
    (hs : ∀ c ∈ rest.head?, stop c → stop' c) : Reads stop' cs part rest :=
  ⟨h.cut, h.plain, fun c hc => hs c hc (h.stops c hc)⟩

/-- A text in square brackets, cut at the closing one. -/
theorem cut_bracketed {c : Char} (h : cs.dropWhile (· != ']') = c :: rest) :
    '[' :: cs = '[' :: cs.takeWhile (· != ']') ++ [']'] ++ rest := by
  have close : c = ']' := by
    have := List.head?_dropWhile_not (· != ']') cs
    simpa [h] using this
  have rejoined := List.takeWhile_append_dropWhile (p := (· != ']')) (l := cs)
  rw [h, close] at rejoined
  rw [List.append_assoc, List.singleton_append, List.cons_append, rejoined]

theorem host_reads (h : host cs = .ok (part, rest)) : Reads endsHost cs part rest := by
  unfold host at h
  split at h
  · next cs =>
    dsimp only at h
    split at h
    · cases h
    · next c after cut =>
      obtain ⟨_, checked, h⟩ := bind_eq_ok.1 h
      have content : '>' ∉ cs.takeWhile (· != ']') := notMem_bracketed checked
      have written : '>' ∉ '[' :: cs.takeWhile (· != ']') ++ [']'] := by
        simpa using content
      rw [cut_bracketed cut]
      split at h
      · cases h
        have nothing : Reads endsHost [] [] [] := reads_nil (by simp)
        simpa using nothing.append written
      · next digits =>
        obtain ⟨⟨s, r⟩, hs, same⟩ := map_eq_ok.1 h
        cases same
        exact ((port_reads hs).cons (by decide)).append written
      · next c after _ _ =>
        split at h
        · next ends =>
          cases h
          have nothing : Reads endsHost (c :: after) [] (c :: after) :=
            reads_nil (by simpa using ends)
          simpa using nothing.append written
        · cases h
  · obtain ⟨⟨name, after⟩, hn, h⟩ := bind_eq_ok.1 h
    have hname := run_reads (by decide) hn
    dsimp only at h
    split at h
    · next digits =>
      obtain ⟨⟨s, r⟩, hs, same⟩ := map_eq_ok.1 h
      cases same
      exact hname.trans ((port_reads hs).cons (by decide))
    · next other =>
      cases h
      refine hname.imp fun c hc stop => ?_
      simp only [Bool.or_eq_true, beq_iff_eq] at stop
      refine stop.resolve_left ?_
      rintro rfl
      obtain ⟨tail, same⟩ := List.head?_eq_some_iff.1 hc
      exact other tail same

theorem authority_reads (h : authority cs = .ok (part, rest)) : Reads endsHost cs part rest := by
  obtain ⟨⟨user, after⟩, hu, h⟩ := bind_eq_ok.1 h
  have huser := run_reads (by decide) hu
  dsimp only at h
  split at h
  · obtain ⟨⟨s, r⟩, hs, same⟩ := map_eq_ok.1 h
    cases same
    exact huser.trans ((host_reads hs).cons (by decide))
  · exact host_reads h

/-! ### Queries, fragments and schemes -/

/-- An optional part without closing brackets. -/
def IsFree (part : Option (List Char)) : Prop := ∀ s ∈ part, '>' ∉ s

theorem isFree_none : IsFree none := by simp [IsFree]

theorem isFree_some (h : '>' ∉ cs) : IsFree (some cs) := by
  rintro _ ⟨⟩
  exact h

/-- Reads a fragment after a query. -/
def fragment (query : Option (List Char)) :
    List Char → Except Fault (Option (List Char) × Option (List Char))
  | '#' :: cs => (run isFragmentChar (fun _ => false) cs).map fun r => (query, some r.1)
  | _ => .ok (query, none)

theorem queryAndFragment_query (cs : List Char) : queryAndFragment ('?' :: cs) =
    (run isQueryChar (· == '#') cs).bind fun r => fragment (some r.1) r.2 := by
  rw [queryAndFragment]
  cases run isQueryChar (· == '#') cs <;> rfl

theorem queryAndFragment_fragment (h : ∀ tail, cs ≠ '?' :: tail) :
    queryAndFragment cs = fragment none cs := by
  unfold queryAndFragment
  split
  · next tail => exact absurd rfl (h tail)
  · rfl

variable {query q f : Option (List Char)}

/-- Where a text begins with one character only, what begins otherwise is empty. -/
theorem eq_nil_of_head? {c : Char} (hs : ∀ d ∈ cs.head?, d = c) (h : ∀ tail, cs ≠ c :: tail) :
    cs = [] := by
  cases cs with
  | nil => rfl
  | cons d tail => exact absurd (by rw [hs d rfl]) (h tail)

theorem fragment_free (hs : ∀ c ∈ cs.head?, c = '#') (hq : IsFree query)
    (h : fragment query cs = .ok (q, f)) : '>' ∉ cs ∧ IsFree q ∧ IsFree f := by
  unfold fragment at h
  split at h
  · obtain ⟨⟨s, r⟩, hr, same⟩ := map_eq_ok.1 h
    cases same
    have reads := run_reads (by decide) hr
    have nothing : r = [] := by
      cases r with
      | nil => rfl
      | cons c r => exact absurd (reads.stops c rfl) (by decide)
    subst nothing
    refine ⟨?_, hq, isFree_some reads.plain⟩
    simpa using reads.notMem List.not_mem_nil
  · next other =>
    cases h
    rw [eq_nil_of_head? hs fun tail same => other tail same]
    exact ⟨List.not_mem_nil, hq, isFree_none⟩

theorem queryAndFragment_free (hs : ∀ c ∈ cs.head?, endsPath c)
    (h : queryAndFragment cs = .ok (q, f)) : '>' ∉ cs ∧ IsFree q ∧ IsFree f := by
  by_cases marked : ∃ tail, cs = '?' :: tail
  · obtain ⟨tail, rfl⟩ := marked
    rw [queryAndFragment_query] at h
    obtain ⟨⟨s, r⟩, hr, h⟩ := bind_eq_ok.1 h
    have reads := run_reads (by decide) hr
    obtain ⟨hrest, free⟩ := fragment_free (fun c hc => beq_iff_eq.1 (reads.stops c hc))
      (isFree_some reads.plain) h
    exact ⟨by simpa using reads.notMem hrest, free⟩
  · have unmarked : ∀ tail, cs ≠ '?' :: tail := fun tail same => marked ⟨tail, same⟩
    rw [queryAndFragment_fragment unmarked] at h
    refine fragment_free (fun c hc => ?_) isFree_none h
    have ends := hs c hc
    simp only [endsPath, Bool.or_eq_true, beq_iff_eq] at ends
    refine ends.resolve_left ?_
    rintro rfl
    obtain ⟨tail, same⟩ := List.head?_eq_some_iff.1 hc
    exact unmarked tail same

theorem scheme?_eq_some (h : scheme? cs = some (part, rest)) :
    '>' ∉ part ∧ cs = part ++ ':' :: rest := by
  unfold scheme? at h
  dsimp only at h
  split at h
  · next c after first cut =>
    split at h
    · cases h
      refine ⟨fun hc => absurd (List.mem_takeWhile_imp hc) (by decide), ?_⟩
      rw [← cut, List.takeWhile_append_dropWhile]
    · cases h
  · cases h

/-! ### Absolute IRIs -/

/-- Parts without closing brackets. -/
structure Parts.IsPlain (p : Parts) : Prop where
  scheme : '>' ∉ p.scheme
  authority : IsFree p.authority
  path : '>' ∉ p.path
  query : IsFree p.query
  fragment : IsFree p.fragment

variable {scheme : List Char} {authority : Option (List Char)} {base p : Parts}

theorem afterAuthority_plain (hs : '>' ∉ scheme) (ha : IsFree authority)
    (h : afterAuthority scheme authority cs = .ok p) : '>' ∉ cs ∧ p.IsPlain := by
  obtain ⟨⟨path, rest⟩, hr, h⟩ := bind_eq_ok.1 h
  have reads := run_reads (by decide) hr
  obtain ⟨⟨q, f⟩, hqf, h⟩ := bind_eq_ok.1 h
  obtain ⟨hrest, hq, hf⟩ := queryAndFragment_free reads.stops hqf
  cases h
  exact ⟨reads.notMem hrest, hs, ha, reads.plain, hq, hf⟩

theorem afterScheme_plain (hs : '>' ∉ scheme) (h : afterScheme scheme cs = .ok p) :
    '>' ∉ cs ∧ p.IsPlain := by
  unfold afterScheme at h
  split at h
  · obtain ⟨⟨name, rest⟩, hr, h⟩ := bind_eq_ok.1 h
    have reads := authority_reads hr
    obtain ⟨hrest, plain⟩ := afterAuthority_plain hs (isFree_some reads.plain) h
    exact ⟨by simpa using reads.notMem hrest, plain⟩
  · exact afterAuthority_plain hs isFree_none h

/-- An absolute IRI has no closing bracket. -/
theorem parts_plain (h : parts cs = .ok p) : '>' ∉ cs ∧ p.IsPlain := by
  unfold parts at h
  split at h
  · next scheme rest hscheme =>
    obtain ⟨hs, cut⟩ := scheme?_eq_some hscheme
    obtain ⟨hrest, plain⟩ := afterScheme_plain hs h
    refine ⟨?_, plain⟩
    rw [cut]
    simpa using ⟨hs, hrest⟩
  · dsimp only at h
    split at h
    · cases h
    · obtain ⟨_, _, h⟩ := bind_eq_ok.1 h
      cases h
    · obtain ⟨_, _, h⟩ := bind_eq_ok.1 h
      cases h

/-! ### Resolution -/

theorem notMem_dropDots {below : Bool} (h : '>' ∉ cs) : '>' ∉ dropDots below cs := by
  unfold dropDots
  split
  · next written =>
    have tail : '>' ∉ written.dropWhile (· != '/') := fun hc =>
      h (by simp [(List.dropWhile_suffix _).subset hc])
    split
    · split <;> simp
    · exact tail
  · simpa using h
  · exact List.not_mem_nil
  · exact List.not_mem_nil
  · exact h

theorem notMem_settle {below : Bool} (h : '>' ∉ cs) (hs : settle below cs = .ok ds) :
    '>' ∉ ds := by
  unfold settle at hs
  dsimp only at hs
  split at hs
  · cases hs
  · cases hs
    exact notMem_dropDots h

/-- A path that is joined to one without closing brackets has none. -/
theorem relativePath_plain {below colons : Bool} {written : List Char} (hw : '>' ∉ written)
    (h : relativePath below colons written cs = .ok (part, rest)) :
    '>' ∉ part ∧ ∀ c ∈ rest.head?, endsPath c := by
  have more {c : Char} {w : List Char} (hw : '>' ∉ w) (hc : c ≠ '>') : '>' ∉ c :: w := by
    simpa using ⟨hc.symm, hw⟩
  fun_induction relativePath below colons written cs with
  | case1 colons written =>
    obtain ⟨w, hs, same⟩ := map_eq_ok.1 h
    cases same
    exact ⟨by simpa using notMem_settle hw hs, by simp⟩
  | case2 colons written a b cs hex ih =>
    simp only [Bool.and_eq_true] at hex
    refine ih (more (more (more hw (by decide)) ?_) ?_) h
    · exact isHexDigit_ne hex.1
    · exact isHexDigit_ne hex.2
  | case3 | case4 | case6 | case10 => cases h
  | case5 colons written cs _ ih => exact ih (more hw (by decide)) h
  | case7 colons written cs _ next settled ih => exact ih (notMem_settle hw settled) h
  | case8 colons written c cs _ _ _ ends =>
    obtain ⟨w, hs, same⟩ := map_eq_ok.1 h
    cases same
    exact ⟨by simpa using notMem_settle hw hs, by simpa using ends⟩
  | case9 colons written c cs _ _ _ _ allowed ih =>
    refine ih (more hw ?_) h
    rintro rfl
    cases colons <;> exact absurd allowed (by decide)

theorem notMem_directory (h : base.IsPlain) : '>' ∉ directory base := by
  unfold directory
  split
  · split <;> simp
  · intro hc
    exact h.path (List.mem_reverse.1 ((List.dropWhile_suffix _).subset hc))

/-- What a reference is resolved to has no closing bracket. -/
theorem Parts.IsPlain.resolve (h : base.IsPlain) (hp : base.resolve cs = .ok p) : p.IsPlain := by
  have join {start : List Char} {colons : Bool} {tail : List Char} (hw : '>' ∉ start)
      (hp : (relativePath base.authority.isSome colons start tail >>= fun r =>
        queryAndFragment r.2 >>= fun qf =>
          .ok { base with path := r.1, query := qf.1, fragment := qf.2 }) = .ok p) :
      p.IsPlain := by
    obtain ⟨⟨path, rest⟩, hr, hp⟩ := bind_eq_ok.1 hp
    obtain ⟨hpath, stops⟩ := relativePath_plain hw hr
    obtain ⟨⟨q, f⟩, hqf, hp⟩ := bind_eq_ok.1 hp
    obtain ⟨_, hq, hf⟩ := queryAndFragment_free stops hqf
    cases hp
    exact ⟨h.scheme, h.authority, hpath, hq, hf⟩
  unfold Parts.resolve at hp
  dsimp only at hp
  split at hp
  · next scheme rest hscheme =>
    exact (afterScheme_plain (scheme?_eq_some hscheme).1 hp).2
  split at hp
  · cases hp
    exact ⟨h.scheme, h.authority, h.path, h.query, isFree_none⟩
  · cases hp
  · exact (afterScheme_plain h.scheme hp).2
  · exact join (by decide) hp
  · obtain ⟨⟨q, f⟩, hqf, hp⟩ := bind_eq_ok.1 hp
    obtain ⟨_, hq, hf⟩ := queryAndFragment_free (by simp [endsPath]) hqf
    cases hp
    exact ⟨h.scheme, h.authority, h.path, hq, hf⟩
  · obtain ⟨⟨q, f⟩, hqf, hp⟩ := bind_eq_ok.1 hp
    obtain ⟨_, _, hf⟩ := queryAndFragment_free (by simp [endsPath]) hqf
    cases hp
    exact ⟨h.scheme, h.authority, h.path, h.query, hf⟩
  · exact join (notMem_directory h) hp

theorem Parts.IsPlain.isPlain_toIri (h : p.IsPlain) : p.toIri.isPlain := by
  obtain ⟨scheme, authority, path, query, fragment⟩ := p
  obtain ⟨hscheme, hauthority, hpath, hquery, hfragment⟩ := h
  rw [isPlain_iff, toIri, String.toList_ofList]
  dsimp only
  simp only [List.mem_append, List.mem_cons, not_or]
  refine ⟨⟨⟨⟨hscheme, by decide, ?_⟩, hpath⟩, ?_⟩, ?_⟩
  · cases authority with
    | none => exact List.not_mem_nil
    | some s => simpa using hauthority s rfl
  · cases query with
    | none => exact List.not_mem_nil
    | some s => simpa using hquery s rfl
  · cases fragment with
    | none => exact List.not_mem_nil
    | some s => simpa using hfragment s rfl

theorem isPlain_ofString {s : String} {x : Iri} (h : ofString s = .ok x) : x.isPlain := by
  obtain ⟨p, hp, rfl⟩ := map_eq_ok.1 h
  rw [isPlain_iff]
  exact (parts_plain hp).1

end

end Iri

/-! ### Identifiers -/

theorem Prefixes.isPlain_absolute {s : String} {x : Iri} (h : absolute s = .ok x) : x.isPlain := by
  unfold absolute at h
  split at h
  · next read =>
    cases h
    exact Iri.isPlain_ofString read
  · cases h

theorem Prefixes.isPlain_expand {ps : Prefixes} {s : String} {x : Iri} (h : ps.expand s = .ok x) :
    x.isPlain := by
  unfold expand at h
  dsimp only at h
  split at h
  · exact isPlain_absolute h
  · cases h

namespace Obo

variable {space number : List Char}

theorem halves?_plain {id : String} (h : halves? id = some (space, number)) :
    '>' ∉ space ∧ '>' ∉ number := by
  obtain ⟨hspace, hnumber, -⟩ := halves?_eq_some.1 h
  exact ⟨notMem_idSpace hspace (by decide) (by decide), notMem_digits hnumber (by decide)⟩

theorem isPlain_toIri? {id : String} {x : Iri} (h : toIri? id = some x) : x.isPlain := by
  obtain ⟨⟨space, number⟩, cut, rfl⟩ := Option.map_eq_some_iff.1 h
  obtain ⟨hspace, hnumber⟩ := halves?_plain cut
  have namespaceText : '>' ∉ Vocabulary.obo.toList := by decide
  rw [Iri.isPlain_iff]
  simpa using ⟨namespaceText, hspace, hnumber⟩

end Obo

namespace IdentifierScope

/-- The base was read as an absolute IRI. -/
def IsRead (scope : IdentifierScope) : Prop :=
  ∃ base prefixes, ofBase base prefixes = .ok scope

variable {scope : IdentifierScope} {s : String} {x : Iri}

theorem IsRead.isPlain_base (h : scope.IsRead) : scope.base.IsPlain := by
  obtain ⟨base, prefixes, h⟩ := h
  unfold ofBase at h
  split at h
  · next parts read =>
    cases h
    exact (Iri.parts_plain read).2
  · cases h

theorem isPlain_relative (h : scope.base.IsPlain) (hx : scope.relative s = .ok x) : x.isPlain := by
  unfold relative at hx
  split at hx
  · next resolved =>
    cases hx
    exact (h.resolve resolved).isPlain_toIri
  · cases hx

/-- No identifier stands for an IRI with a closing bracket. -/
theorem isPlain_resolve (h : scope.IsRead) (hx : scope.resolve s = .ok x) : x.isPlain := by
  have base : scope.base.IsPlain := h.isPlain_base
  unfold resolve at hx
  dsimp only at hx
  split at hx
  · cases hx
  split at hx
  · exact isPlain_relative base hx
  split at hx
  · next obo =>
    cases hx
    exact Obo.isPlain_toIri? obo
  split at hx
  · exact isPlain_relative base hx
  split at hx
  · exact Prefixes.isPlain_expand hx
  split at hx
  · exact Prefixes.isPlain_absolute hx
  · cases hx

end IdentifierScope

end TabularOntology
