import Mathlib.Data.List.Basic

/-!
# Validation in sequence

A validation reads one item after the other and ends with the first one it refuses. What every
accepted item keeps holds of what it accepts as a whole, and it refuses exactly when it refuses
one of the items, whatever it has read before.
-/

namespace Validation

variable {ε α β σ : Type*}

/-- A sequence succeeds when both parts do. -/
theorem bind_eq_ok {x : Except ε α} {f : α → Except ε β} {b : β} :
    x.bind f = .ok b ↔ ∃ a, x = .ok a ∧ f a = .ok b := by
  cases x <;> simp [Except.bind]

/-- A sequence fails with its first part, or with the second after the first. -/
theorem bind_eq_error {x : Except ε α} {f : α → Except ε β} {e : ε} :
    x.bind f = .error e ↔ x = .error e ∨ ∃ a, x = .ok a ∧ f a = .error e := by
  cases x <;> simp [Except.bind]

/-- Where every item is accepted, each has its result. -/
theorem exists_of_mapM_eq_ok {f : α → Except ε β} {as : List α} {bs : List β}
    (h : as.mapM f = .ok bs) : ∀ a ∈ as, ∃ b ∈ bs, f a = .ok b := by
  induction as generalizing bs with
  | nil => exact fun a ha => absurd ha List.not_mem_nil
  | cons a as ih =>
    rw [List.mapM_cons] at h
    obtain ⟨b, hb, h⟩ := bind_eq_ok.mp h
    obtain ⟨rest, hrest, h⟩ := bind_eq_ok.mp h
    obtain rfl := Except.ok.inj h
    intro c hc
    obtain rfl | hc := List.mem_cons.mp hc
    · exact ⟨b, List.mem_cons_self, hb⟩
    · obtain ⟨d, hd, hfd⟩ := ih hrest c hc
      exact ⟨d, List.mem_cons_of_mem b hd, hfd⟩

/-- Read the items one after the other. -/
def readAll (read : σ → α → Except ε σ) : σ → List α → Except ε σ
  | s, [] => .ok s
  | s, a :: as => (read s a).bind fun t => readAll read t as

variable {read : σ → α → Except ε σ} {s t : σ} {as : List α}

/-- What every accepted item keeps. -/
theorem readAll_keeps (inv : σ → Prop) (hread : ∀ s a t, inv s → read s a = .ok t → inv t)
    (hs : inv s) (hall : readAll read s as = .ok t) : inv t := by
  induction as generalizing s with
  | nil => exact Except.ok.inj hall ▸ hs
  | cons a as ih =>
    obtain ⟨u, hu, hall⟩ := bind_eq_ok.mp hall
    exact ih (hread s a u hs hu) hall

/-- The item that is refused is one of the list. -/
theorem exists_of_readAll_eq_error {e : ε} (hall : readAll read s as = .error e) :
    ∃ a ∈ as, ∃ u, read u a = .error e := by
  induction as generalizing s with
  | nil => exact absurd hall (by simp [readAll])
  | cons a as ih =>
    cases bind_eq_error.mp hall with
    | inl hfirst => exact ⟨a, List.mem_cons_self, s, hfirst⟩
    | inr hrest =>
      obtain ⟨u, -, hu⟩ := hrest
      obtain ⟨b, hb, hbad⟩ := ih hu
      exact ⟨b, List.mem_cons_of_mem a hb, hbad⟩

/-- An item that is refused whatever was read before fails the list. -/
theorem readAll_eq_error_of_mem {a : α} (ha : a ∈ as) (hbad : ∀ u, ∃ e, read u a = .error e)
    (s : σ) : ∃ e, readAll read s as = .error e := by
  induction as generalizing s with
  | nil => exact absurd ha List.not_mem_nil
  | cons b as ih =>
    cases hb : read s b with
    | error e => exact ⟨e, bind_eq_error.mpr (.inl hb)⟩
    | ok u =>
      have hrest : a ∈ as := by
        apply (List.mem_cons.mp ha).resolve_left
        rintro rfl
        obtain ⟨e, he⟩ := hbad s
        exact absurd (he.symm.trans hb) (by simp)
      obtain ⟨e, he⟩ := ih hrest u
      exact ⟨e, bind_eq_error.mpr (.inr ⟨u, hb, he⟩)⟩

end Validation
