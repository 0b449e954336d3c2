import Mathlib.Data.Nat.Basic

/-!
# Entries that are kept while they are renewed

The owner of an entry renews it from time to time, which stamps the entry with the time, and
entries whose stamp is older than an age are dropped. Somebody else may set the entry again
after it was dropped, under the stamp zero. As long as the last renewal is no older than the age
the entry that carries its stamp is kept, so that whatever else the entry carries survives.

Times are natural numbers and do not decrease.
-/

namespace Table

variable {α : Type*} (stamp : α → ℕ) (age : ℕ)

/-- What is kept at a time of an entry that was last renewed at `last`. -/
structure Kept (last : Option ℕ) (clock : ℕ) (entry : Option α) : Prop where
  le_clock : ∀ u, last = some u → u ≤ clock
  stamped : ∀ a, entry = some a → last = some (stamp a) ∨ stamp a = 0 ∧ age < clock
  kept : ∀ u, last = some u → clock ≤ u + age → ∃ a, entry = some a ∧ stamp a = u

variable {stamp age} {last : Option ℕ} {clock now : ℕ} {entry : Option α}

/-- Nothing is kept of an entry that was never renewed. -/
theorem kept_none (clock : ℕ) : Kept stamp age none clock none where
  le_clock u hu := absurd hu.symm (Option.some_ne_none u)
  stamped a ha := absurd ha.symm (Option.some_ne_none a)
  kept u hu := absurd hu.symm (Option.some_ne_none u)

namespace Kept

/-- An entry that stays is still kept later. -/
theorem later (h : Kept stamp age last clock entry) (hle : clock ≤ now) :
    Kept stamp age last now entry where
  le_clock u hu := Nat.le_trans (h.le_clock u hu) hle
  stamped a ha := by
    apply (h.stamped a ha).imp_right
    intro hzero
    exact ⟨hzero.1, Nat.lt_of_lt_of_le hzero.2 hle⟩
  kept u hu hrecent := h.kept u hu (Nat.le_trans hle hrecent)

/-- Dropping what is too old drops no entry that was renewed within the age. -/
theorem expire {keep : α → Bool} (h : Kept stamp age last clock entry) (hle : clock ≤ now)
    (hkeep : ∀ a, now ≤ stamp a + age → keep a = true) :
    Kept stamp age last now (entry.filter keep) where
  le_clock := (h.later hle).le_clock
  stamped a ha := (h.later hle).stamped a (Option.filter_eq_some_iff.mp ha).1
  kept u hu hrecent := by
    obtain ⟨a, ha, rfl⟩ := (h.later hle).kept u hu hrecent
    exact ⟨a, Option.filter_eq_some_iff.mpr ⟨ha, hkeep a hrecent⟩, rfl⟩

/-- A renewal. -/
theorem renew {a : α} (ha : stamp a = now) : Kept stamp age (some now) now (some a) where
  le_clock u hu := Nat.le_of_eq (Option.some.inj hu).symm
  stamped b hb := .inl (by rw [← Option.some.inj hb, ha])
  kept u hu _ := ⟨a, rfl, ha.trans (Option.some.inj hu)⟩

/-- An entry that is gone was last renewed longer ago than the age. -/
theorem lt_of_none {u : ℕ} (h : Kept stamp age (some u) clock none) : u + age < clock := by
  by_contra hrecent
  obtain ⟨a, ha, -⟩ := h.kept u rfl (Nat.le_of_not_lt hrecent)
  exact Option.some_ne_none a ha.symm

/-- Somebody else sets an entry that is gone. -/
theorem recreate {u : ℕ} {a : α} (h : Kept stamp age (some u) clock none) (ha : stamp a = 0) :
    Kept stamp age (some u) clock (some a) where
  le_clock := h.le_clock
  stamped b hb := by
    have hgone := h.lt_of_none
    have hab : a = b := Option.some.inj hb
    exact .inr ⟨hab ▸ ha, by omega⟩
  kept v hv hrecent := by
    have hgone := h.lt_of_none
    have huv : u = v := Option.some.inj hv
    omega

/-- If the entry may be renewed a gap after its stamp, then the last renewal is that long ago. -/
theorem gap_le {u gap : ℕ} (h : Kept stamp age (some u) clock entry) (hle : clock ≤ now)
    (hgap : gap ≤ age) (hdue : ∀ a, entry = some a → stamp a + gap ≤ now) : u + gap ≤ now := by
  by_cases hrecent : clock ≤ u + age
  · obtain ⟨a, ha, rfl⟩ := h.kept u rfl hrecent
    exact hdue a ha
  · omega

/-- An entry that is not too old carries the stamp of its last renewal. -/
theorem last_eq {a : α} (h : Kept stamp age last clock (some a)) (hrecent : clock ≤ stamp a + age) :
    last = some (stamp a) := by
  apply (h.stamped a rfl).resolve_right
  intro hzero
  omega

end Kept

end Table
