import Mathlib.Data.List.Forall2

/-! Computations that can fail, taken apart: a chain of steps succeeds just if each step does. -/

namespace TabularOntology

variable {ε δ α β : Type} {e : Except ε α}

theorem mem_toOption {a : α} : a ∈ e.toOption ↔ e = .ok a := by
  cases e <;> simp [Except.toOption]

theorem exists_of_toOption_map {f : α → β} {b : β} (h : e.toOption.map f = some b) :
    ∃ a, e = .ok a ∧ f a = b := by
  obtain ⟨a, ha, hb⟩ := Option.map_eq_some_iff.1 h
  exact ⟨a, mem_toOption.1 ha, hb⟩

theorem map_eq_ok {f : α → β} {b : β} : e.map f = .ok b ↔ ∃ a, e = .ok a ∧ f a = b := by
  cases e <;> simp [Except.map]

theorem map_eq_error {f : α → β} {x : ε} : e.map f = .error x ↔ e = .error x := by
  cases e <;> simp [Except.map]

theorem map_map {γ : Type} {f : α → β} {g : β → γ} : (e.map f).map g = e.map fun a => g (f a) := by
  cases e <;> rfl

theorem error_bind {f : α → Except ε β} {x : ε} : ((.error x : Except ε α) >>= f) = .error x := rfl

theorem ok_bind {f : α → Except ε β} {a : α} : ((.ok a : Except ε α) >>= f) = f a := rfl

theorem bind_eq_ok {f : α → Except ε β} {b : β} :
    (e >>= f) = .ok b ↔ ∃ a, e = .ok a ∧ f a = .ok b := by
  cases e <;> simp [bind, Except.bind]

theorem bind_eq_error {f : α → Except ε β} {x : ε} :
    (e >>= f) = .error x ↔ e = .error x ∨ ∃ a, e = .ok a ∧ f a = .error x := by
  cases e <;> simp [bind, Except.bind]

theorem mapError_eq_ok {f : ε → δ} {a : α} : e.mapError f = .ok a ↔ e = .ok a := by
  cases e <;> simp [Except.mapError]

theorem mapM_eq_ok {f : α → Except ε β} {as : List α} {bs : List β} :
    as.mapM f = .ok bs ↔ List.Forall₂ (fun a b => f a = .ok b) as bs := by
  induction as generalizing bs with
  | nil => cases bs <;> simp [pure, Except.pure]
  | cons a as ih =>
    rw [List.mapM_cons, bind_eq_ok]
    constructor
    · rintro ⟨b, hb, h⟩
      obtain ⟨bs', hbs, h⟩ := bind_eq_ok.1 h
      cases h
      exact .cons hb (ih.1 hbs)
    · rintro (_ | ⟨hb, hbs⟩)
      exact ⟨_, hb, bind_eq_ok.2 ⟨_, ih.2 hbs, rfl⟩⟩

theorem exists_mapM_iff {f : α → Except ε β} {as : List α} :
    (∃ bs, as.mapM f = .ok bs) ↔ ∀ a ∈ as, ∃ b, f a = .ok b := by
  simp only [mapM_eq_ok]
  induction as with
  | nil => simp
  | cons a as ih =>
    rw [List.forall_mem_cons, ← ih]
    constructor
    · rintro ⟨_, _ | ⟨hb, hbs⟩⟩
      exact ⟨⟨_, hb⟩, _, hbs⟩
    · rintro ⟨⟨b, hb⟩, bs, hbs⟩
      exact ⟨b :: bs, .cons hb hbs⟩

theorem exists_of_mem_mapM {f : α → Except ε β} {as : List α} {bs : List β} {b : β}
    (h : as.mapM f = .ok bs) (hb : b ∈ bs) : ∃ a ∈ as, f a = .ok b := by
  obtain ⟨i, hi, rfl⟩ := List.mem_iff_getElem.1 hb
  obtain ⟨length, each⟩ := List.forall₂_iff_get.1 (mapM_eq_ok.1 h)
  have hi' : i < as.length := length ▸ hi
  exact ⟨as[i], List.getElem_mem hi', each i hi' hi⟩

theorem exists_mem_mapM {f : α → Except ε β} {as : List α} {bs : List β} {a : α}
    (h : as.mapM f = .ok bs) (ha : a ∈ as) : ∃ b ∈ bs, f a = .ok b := by
  obtain ⟨i, hi, rfl⟩ := List.mem_iff_getElem.1 ha
  obtain ⟨length, each⟩ := List.forall₂_iff_get.1 (mapM_eq_ok.1 h)
  have hi' : i < bs.length := length ▸ hi
  exact ⟨bs[i], List.getElem_mem hi', each i hi hi'⟩

theorem mapM_congr {f g : α → Except ε β} {as : List α} (h : ∀ a ∈ as, f a = g a) :
    as.mapM f = as.mapM g := by
  induction as with
  | nil => rfl
  | cons a as ih =>
    rw [List.mapM_cons, List.mapM_cons, h a List.mem_cons_self,
      ih fun b hb => h b (List.mem_cons_of_mem a hb)]

end TabularOntology
