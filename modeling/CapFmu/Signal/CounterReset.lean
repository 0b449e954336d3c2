import Mathlib.Data.List.Infix

/-!
# Resets of a sampled counter

A counter is sampled through several streams, so that a sample may be a little below one taken
before it; zero stands for a sample without a value. A reset is reported at a sample that lies
more than a margin below the last value. As long as every run of the counter is steady within
the margin, the reports are exactly those of the first values of the runs.
-/

namespace Signal

variable {α : Type*} (value : α → ℕ) (margin : ℕ)

/-- The last value, or the one before the samples if none has a value. -/
def lastValue (last : ℕ) : List α → ℕ
  | [] => last
  | x :: xs => lastValue (if value x = 0 then last else value x) xs

/-- The samples at which a reset is reported. -/
def resets (last : ℕ) : List α → List α
  | [] => []
  | x :: xs =>
    if value x = 0 then resets last xs
    else (if value x + margin < last then [x] else []) ++ resets (value x) xs

/-- No value is more than the margin below an earlier one. -/
def Steady (xs : List α) : Prop :=
  xs.Pairwise fun x y => value y ≠ 0 → value x ≤ value y + margin

/-- The first value of a run, if it is more than the margin below the last one before the run. -/
def resetOf (last : ℕ) (xs : List α) : List α :=
  ((xs.find? fun x => decide (value x ≠ 0)).filter fun x => decide (value x + margin < last)).toList

/-- One reset at most for each run of the counter. -/
def resetsOf (last : ℕ) : List (List α) → List α
  | [] => []
  | xs :: runs => resetOf value margin last xs ++ resetsOf (lastValue value last xs) runs

variable {value margin}

/-- The last value of two parts. -/
theorem lastValue_append (last : ℕ) (xs ys : List α) :
    lastValue value last (xs ++ ys) = lastValue value (lastValue value last xs) ys := by
  induction xs generalizing last with
  | nil => rfl
  | cons x xs ih => simp only [List.cons_append, lastValue, ih]

/-- The second part is compared from the last value of the first on. -/
theorem resets_append (last : ℕ) (xs ys : List α) :
    resets value margin last (xs ++ ys) =
      resets value margin last xs ++ resets value margin (lastValue value last xs) ys := by
  induction xs generalizing last with
  | nil => rfl
  | cons x xs ih =>
    simp only [List.cons_append, resets, lastValue]
    split
    · exact ih last
    · rw [ih, List.append_assoc]

/-- Where no value is more than the margin below those before it, nothing is reported. -/
theorem resets_of_steady_after {last : ℕ} {xs : List α} (hxs : Steady value margin xs)
    (hlast : ∀ x ∈ xs, value x ≠ 0 → last ≤ value x + margin) :
    resets value margin last xs = [] := by
  induction xs generalizing last with
  | nil => rfl
  | cons x xs ih =>
    obtain ⟨hx, htail⟩ := List.pairwise_cons.mp hxs
    simp only [resets]
    split
    · exact ih htail fun y hy => hlast y (List.mem_cons_of_mem x hy)
    · next hvalue =>
      have hnot : ¬ value x + margin < last := Nat.not_lt.mpr (hlast x List.mem_cons_self hvalue)
      rw [if_neg hnot, List.nil_append]
      exact ih htail hx

/-- In a steady run a reset is reported at its first value or not at all. -/
theorem resets_of_steady (last : ℕ) {xs : List α} (hxs : Steady value margin xs) :
    resets value margin last xs = resetOf value margin last xs := by
  induction xs with
  | nil => rfl
  | cons x xs ih =>
    obtain ⟨hx, htail⟩ := List.pairwise_cons.mp hxs
    by_cases hvalue : value x = 0
    · simp only [resets, hvalue, if_true, ih htail]
      simp [resetOf, hvalue]
    · simp only [resets, hvalue, if_false, resets_of_steady_after htail hx, List.append_nil]
      by_cases hreset : value x + margin < last <;> simp [resetOf, hvalue, hreset, Option.filter]

/-- If every run is steady, the reports are those of the first values of the runs. -/
theorem resets_flatten (last : ℕ) {runs : List (List α)}
    (hruns : ∀ xs ∈ runs, Steady value margin xs) :
    resets value margin last runs.flatten = resetsOf value margin last runs := by
  induction runs generalizing last with
  | nil => rfl
  | cons xs runs ih =>
    rw [List.flatten_cons, resets_append, resets_of_steady last (hruns xs List.mem_cons_self)]
    exact congrArg _ (ih _ fun ys hys => hruns ys (List.mem_cons_of_mem xs hys))

/-- A counter that was not sampled before reports nothing in its first run. -/
theorem resetsOf_first (xs : List α) : resetsOf value margin 0 [xs] = [] := by
  simp [resetsOf, resetOf]

end Signal
