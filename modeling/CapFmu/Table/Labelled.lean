import Mathlib.Data.Option.Basic
import Mathlib.Logic.Function.Basic

/-!
# Tables of labelled entries

A table keeps at most one entry under each key, and every entry carries a label. A sweep drops
the entries that are not to be kept. The labels identify the keys when entries under different
keys carry different labels: dropping entries keeps this, and setting one entry keeps it
exactly when no other entry carries its label.
-/

namespace Table

variable {κ α β : Type*} (label : α → β)

/-- Entries under different keys carry different labels. -/
def Distinct (table : κ → Option α) : Prop :=
  ∀ i j a b, i ≠ j → table i = some a → table j = some b → label a ≠ label b

/-- Drop the entries that are not to be kept. -/
def sweep (keep : α → Bool) (table : κ → Option α) : κ → Option α :=
  fun k => (table k).filter keep

variable {label} {table : κ → Option α} {keep : α → Bool}

/-- What is left after a sweep was there before and is to be kept. -/
theorem sweep_eq_some_iff {k : κ} {a : α} :
    sweep keep table k = some a ↔ table k = some a ∧ keep a = true :=
  Option.filter_eq_some_iff

/-- A sweep that keeps everything changes nothing. -/
@[simp] theorem sweep_true (table : κ → Option α) : sweep (fun _ => true) table = table := by
  funext k
  cases h : table k <;> simp [sweep, h]

/-- Nothing carries a label in the empty table. -/
theorem distinct_empty : Distinct label fun _ : κ => none := by
  intro i j a b _ ha
  exact absurd ha (Option.some_ne_none a).symm

/-- A sweep keeps labels distinct. -/
theorem Distinct.sweep (h : Distinct label table) : Distinct label (sweep keep table) := by
  intro i j a b hij ha hb
  exact h i j a b hij (sweep_eq_some_iff.mp ha).1 (sweep_eq_some_iff.mp hb).1

variable [DecidableEq κ]

/-- An entry that is to be kept may be set before or after the sweep. -/
theorem sweep_update (keep : α → Bool) {k : κ} {a : α} (ha : keep a = true) :
    sweep keep (Function.update table k (some a)) =
      Function.update (sweep keep table) k (some a) := by
  funext i
  by_cases hi : i = k
  · subst hi
    simp [sweep, ha]
  · simp [sweep, hi]

/-- Setting an entry keeps labels distinct exactly when no other entry carries its label. -/
theorem distinct_update_iff {k : κ} {a : α} (h : Distinct label table) :
    Distinct label (Function.update table k (some a)) ↔
      ∀ i b, i ≠ k → table i = some b → label b ≠ label a := by
  constructor
  · intro hupdate i b hi hb
    apply hupdate i k b a hi
    · rw [Function.update_of_ne hi, hb]
    · rw [Function.update_self]
  · intro hfree i j b c hij hb hc
    by_cases hi : i = k
    · subst hi
      rw [Function.update_self, Option.some_inj] at hb
      rw [Function.update_of_ne hij.symm] at hc
      exact hb ▸ (hfree j c hij.symm hc).symm
    · rw [Function.update_of_ne hi] at hb
      by_cases hj : j = k
      · subst hj
        rw [Function.update_self, Option.some_inj] at hc
        exact hc ▸ hfree i b hi hb
      · rw [Function.update_of_ne hj] at hc
        exact h i j b c hij hb hc

end Table
