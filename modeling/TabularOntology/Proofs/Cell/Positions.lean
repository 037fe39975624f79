import TabularOntology.Proofs.Cell.Pieces

/-! Where tokens stand. The lexer reads a text from left to right and gives each token the
position of its first character, so the tokens of a text stand in it in their order, each before
the next. A piece gives one token, which stands where the piece begins, or a string and what is
glued to it, which stands where the string ends. -/

namespace TabularOntology.Cell

/-- Tokens that stand from `start` on and before `stop`, each before those that follow it. -/
structure StandWithin (start stop : Nat) (ts : List Token) : Prop where
  increasing : ts.Pairwise fun t t' => t.position < t'.position
  bounds : ∀ t ∈ ts, start ≤ t.position ∧ t.position < stop

section
variable {start middle stop pos : Nat} {cs used rest : List Char} {ts more : List Token}

theorem standWithin_nil : StandWithin start stop [] := ⟨.nil, nofun⟩

theorem standWithin_singleton (l : Lexeme) (h : pos < stop) : StandWithin pos stop [⟨l, pos⟩] :=
  ⟨List.pairwise_singleton _ _, List.forall_mem_singleton.2 ⟨Nat.le_refl pos, h⟩⟩

theorem StandWithin.mono (h : StandWithin middle stop ts) (le : start ≤ middle) :
    StandWithin start stop ts :=
  ⟨h.increasing, fun t ht => ⟨Nat.le_trans le (h.bounds t ht).1, (h.bounds t ht).2⟩⟩

theorem StandWithin.append (h : StandWithin start middle ts) (h' : StandWithin middle stop more)
    (le : start ≤ middle) (le' : middle ≤ stop) : StandWithin start stop (ts ++ more) := by
  refine ⟨List.pairwise_append.2 ⟨h.increasing, h'.increasing, fun t ht t' ht' => ?_⟩,
    fun t ht => ?_⟩
  · exact Nat.lt_of_lt_of_le (h.bounds t ht).2 (h'.bounds t' ht').1
  · rcases List.mem_append.1 ht with ht | ht
    · exact ⟨(h.bounds t ht).1, Nat.lt_of_lt_of_le (h.bounds t ht).2 le'⟩
    · exact ⟨Nat.le_trans le (h'.bounds t ht).1, (h'.bounds t ht).2⟩

/-- What is glued to a string stands right after it. -/
theorem Glued.standWithin (h : Glued pos used ts rest) :
    StandWithin pos (pos + used.length) ts := by
  cases h with
  | tag => exact standWithin_singleton _ (Nat.lt_add_of_pos_right (Nat.succ_pos _))
  | mark => exact standWithin_singleton _ (Nat.lt_add_of_pos_right (Nat.succ_pos _))
  | nothing => exact standWithin_nil

theorem Piece.standWithin (h : Piece pos used ts rest) :
    StandWithin pos (pos + used.length) ts := by
  have filled : pos < pos + used.length := Nat.lt_add_of_pos_right h.length_pos
  cases h with
  | @string body s tail _ ts closes glued =>
    have width : pos + ('"' :: (body ++ tail)).length = pos + 1 + body.length + tail.length := by
      rw [List.length_cons, List.length_append]
      omega
    have first := standWithin_singleton (.string (String.ofList s))
      (show pos < pos + 1 + body.length by omega)
    rw [width]
    exact first.append glued.standWithin (by omega) (by omega)
  | leftParen | rightParen | iri | label | spaced | word => exact standWithin_singleton _ filled

theorem Lexes.standWithin (h : Lexes pos cs ts) : StandWithin pos (pos + cs.length) ts := by
  induction h with
  | nil => exact standWithin_nil
  | blank _ _ ih =>
    rw [List.length_cons, ← Nat.add_assoc, Nat.add_right_comm]
    exact ih.mono (Nat.le_succ _)
  | piece first _ ih =>
    rw [List.length_append, ← Nat.add_assoc]
    exact first.standWithin.append ih (Nat.le_add_right _ _) (Nat.le_add_right _ _)

/-- The tokens of a text stand in it, each before those that follow it. -/
theorem standWithin_tokenize {s : String} (h : tokenize s = .ok ts) :
    StandWithin 0 s.toList.length ts := by
  have within := (scan_eq_ok.1 h).standWithin
  rwa [Nat.zero_add] at within

end

end TabularOntology.Cell
