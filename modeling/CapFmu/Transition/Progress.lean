import CapFmu.Transition.Run

/-!
# Progress under any schedule

Some labels are the system's own work, the others come from outside. When every step of its own
decreases a measure and an outside step raises it by at most a constant, a run has no more own
steps than the measure at its start and the outside steps allow: no schedule keeps the system
busy with itself for ever. Where it also has an own step left as long as it is not done, it gets
done under any schedule that does not starve it.
-/

namespace Transition

variable {σ ε : Type*} {step : σ → ε → Option σ}

/-- The own steps of a run are bounded by the measure at its start and by its outside steps. -/
theorem countP_le_of_measure (own : ε → Bool) (measure : σ → ℕ) (raise : ℕ)
    (hown : ∀ s e t, own e = true → step s e = some t → measure t < measure s)
    (houtside : ∀ s e t, own e = false → step s e = some t → measure t ≤ measure s + raise)
    {s t : σ} {es : List ε} (hrun : run step s es = some t) :
    es.countP own + measure t ≤ measure s + raise * es.countP fun e => !own e := by
  induction es generalizing s with
  | nil =>
    obtain rfl := run_nil_eq_some.mp hrun
    simp
  | cons e es ih =>
    obtain ⟨u, hstep, hrun⟩ := run_cons_eq_some.mp hrun
    have hrest := ih hrun
    cases he : own e with
    | true =>
      have hlt := hown s e u he hstep
      simp only [List.countP_cons, he, if_true, Bool.not_true, Bool.false_eq_true, if_false,
        Nat.add_zero]
      omega
    | false =>
      have hle := houtside s e u he hstep
      simp only [List.countP_cons, he, Bool.not_false, if_true, Bool.false_eq_true, if_false,
        Nat.mul_add, Nat.mul_one]
      omega

/-- What a step raises by one if it is counted, and else leaves, counts the steps of a run. -/
theorem eq_add_countP_of_run (counted : ε → Bool) (measure : σ → ℕ)
    (hstep : ∀ s e t, step s e = some t → measure t = measure s + if counted e then 1 else 0)
    {s t : σ} {es : List ε} (hrun : run step s es = some t) :
    measure t = measure s + es.countP counted := by
  induction es generalizing s with
  | nil =>
    obtain rfl := run_nil_eq_some.mp hrun
    rfl
  | cons e es ih =>
    obtain ⟨u, hu, hrun⟩ := run_cons_eq_some.mp hrun
    rw [ih hrun, hstep s e u hu, List.countP_cons]
    omega

end Transition
