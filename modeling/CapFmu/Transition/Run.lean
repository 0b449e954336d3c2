import Mathlib.Data.List.Infix

/-!
# Runs of a guarded step function

A system is a partial step function: `step s e` is `none` when the label `e` is not
enabled in the state `s`. A condition on the steps of a run is a relation between a
label and the state before it. `Along` says that every step of a run meets such a
condition, whether it is an assumption about the schedule or the law to be proved.

Two rules carry the developments built on this file. An invariant that every admitted
step keeps holds at the end of an admitted run. Where the invariant makes the law of one
step equivalent to the condition on it, the law of the whole run is equivalent to the
condition on all its steps.
-/

namespace Transition

variable {σ ε : Type*}

/-- The state at the end of a run, or `none` when some label is not enabled. -/
def run (step : σ → ε → Option σ) : σ → List ε → Option σ
  | s, [] => some s
  | s, e :: es => (step s e).bind fun t => run step t es

/-- Every step of the run meets the condition in the state before it. -/
def Along (step : σ → ε → Option σ) (cond : σ → ε → Prop) : σ → List ε → Prop
  | _, [] => True
  | s, e :: es => cond s e ∧ ∀ t, step s e = some t → Along step cond t es

/-- A decidable condition can be checked along a run. -/
instance decidableAlong (step : σ → ε → Option σ) (cond : σ → ε → Prop)
    [∀ s e, Decidable (cond s e)] : ∀ s es, Decidable (Along step cond s es)
  | _, [] => isTrue trivial
  | s, e :: es =>
    match h : step s e with
    | none => decidable_of_iff (cond s e) (by simp [Along, h])
    | some t =>
      have := decidableAlong step cond t es
      decidable_of_iff (cond s e ∧ Along step cond t es) (by simp [Along, h])

/-- Repeating one label, some number of times, leads from the first state to the second. -/
def Repeats (step : σ → ε → Option σ) (e : ε) (s t : σ) : Prop :=
  ∃ n, run step s (List.replicate n e) = some t

/-- What an observer of a run has recorded at its end; a step is recorded from the state before
it. -/
def observe {ω : Type*} (step : σ → ε → Option σ) (record : ω → σ → ε → ω) :
    ω → σ → List ε → ω
  | o, _, [] => o
  | o, s, e :: es => (step s e).elim o fun t => observe step record (record o s e) t es

/-- The system with the record of an observer beside its state. -/
def observing {ω : Type*} (step : σ → ε → Option σ) (record : ω → σ → ε → ω) (p : ω × σ) (e : ε) :
    Option (ω × σ) :=
  (step p.2 e).map fun t => (record p.1 p.2 e, t)

section Rules

variable {step : σ → ε → Option σ} {cond law : σ → ε → Prop} {inv : σ → Prop}

/-- The run of no label stays. -/
theorem run_nil_eq_some {s t : σ} : run step s [] = some t ↔ s = t := Option.some_inj

/-- A run of one more label is that label's step followed by the rest. -/
theorem run_cons_eq_some {s u : σ} {e : ε} {es : List ε} :
    run step s (e :: es) = some u ↔ ∃ t, step s e = some t ∧ run step t es = some u :=
  Option.bind_eq_some_iff

/-- Running a concatenation runs the second part from the end of the first. -/
theorem run_append (s : σ) (es fs : List ε) :
    run step s (es ++ fs) = (run step s es).bind fun t => run step t fs := by
  induction es generalizing s with
  | nil => rfl
  | cons e es ih =>
    simp only [List.cons_append, run, Option.bind_assoc]
    exact congrArg _ (funext ih)

/-- A run of one more label at the end. -/
theorem run_concat (s : σ) (es : List ε) (e : ε) :
    run step s (es ++ [e]) = (run step s es).bind fun t => step t e := by
  simp only [run_append, run, Option.bind_fun_some]

/-- A run of one system is one of another that takes the same steps under other labels. -/
theorem run_map {ε' : Type*} {step' : σ → ε' → Option σ} {f : ε → ε'}
    (hstep : ∀ s e t, step s e = some t → step' s (f e) = some t) {s t : σ} {es : List ε}
    (hrun : run step s es = some t) : run step' s (es.map f) = some t := by
  induction es generalizing s with
  | nil => exact hrun
  | cons e es ih =>
    obtain ⟨u, hu, hrun⟩ := run_cons_eq_some.mp hrun
    exact run_cons_eq_some.mpr ⟨u, hstep s e u hu, ih hrun⟩

/-- Repeating a label no times stays. -/
theorem repeats_refl (e : ε) (s : σ) : Repeats step e s s := ⟨0, rfl⟩

/-- One step, and then more of the same label. -/
theorem repeats_head {e : ε} {s t u : σ} (hstep : step s e = some t) (h : Repeats step e t u) :
    Repeats step e s u := by
  obtain ⟨n, hn⟩ := h
  exact ⟨n + 1, run_cons_eq_some.mpr ⟨t, hstep, hn⟩⟩

/-- Repetitions of one label compose. -/
theorem repeats_trans {e : ε} {s t u : σ} (hs : Repeats step e s t) (ht : Repeats step e t u) :
    Repeats step e s u := by
  obtain ⟨m, hm⟩ := hs
  obtain ⟨n, hn⟩ := ht
  exact ⟨m + n, by rw [List.replicate_add, run_append, hm]; exact hn⟩

/-- Labels that keep an invariant and, where it holds, are enabled and decrease a measure until it
is zero, lead there one after the other. -/
theorem run_of_measure {label : ℕ → ε} (measure : σ → ℕ)
    (hdecreases : ∀ s i, inv s → measure s ≠ 0 →
      ∃ t, step s (label i) = some t ∧ measure t < measure s ∧ inv t) {s : σ} (hs : inv s) :
    ∃ n t, run step s ((List.range n).map label) = some t ∧ measure t = 0 ∧ inv t := by
  induction hm : measure s using Nat.strong_induction_on generalizing s label with
  | h m ih =>
    subst hm
    by_cases hzero : measure s = 0
    · exact ⟨0, s, rfl, hzero, hs⟩
    · obtain ⟨t, hstep, hlt, ht⟩ := hdecreases s 0 hs hzero
      have hnext (s : σ) (i : ℕ) (hs : inv s) (hbusy : measure s ≠ 0) :
          ∃ t, step s ((label ∘ Nat.succ) i) = some t ∧ measure t < measure s ∧ inv t :=
        hdecreases s (i + 1) hs hbusy
      obtain ⟨n, u, hrun, hu⟩ := ih (measure t) hlt hnext ht rfl
      refine ⟨n + 1, u, ?_, hu⟩
      rw [List.range_succ_eq_map, List.map_cons, List.map_map]
      exact run_cons_eq_some.mpr ⟨t, hstep, hrun⟩

/-- Repeating one such label leads there. -/
theorem repeats_of_measure_of_invariant {e : ε} (measure : σ → ℕ)
    (hdecreases : ∀ s, inv s → measure s ≠ 0 →
      ∃ t, step s e = some t ∧ measure t < measure s ∧ inv t) {s : σ} (hs : inv s) :
    ∃ t, Repeats step e s t ∧ measure t = 0 ∧ inv t := by
  obtain ⟨n, t, hrun, ht⟩ := run_of_measure measure (fun s (_ : ℕ) => hdecreases s) hs
  rw [List.map_const', List.length_range] at hrun
  exact ⟨t, ⟨n, hrun⟩, ht⟩

/-- A label that is enabled and decreases a measure until it is zero leads there. -/
theorem repeats_of_measure {e : ε} (measure : σ → ℕ)
    (hdecreases : ∀ s, measure s ≠ 0 → ∃ t, step s e = some t ∧ measure t < measure s) (s : σ) :
    ∃ t, Repeats step e s t ∧ measure t = 0 := by
  have hdecreases' (s : σ) (_ : True) (hs : measure s ≠ 0) :
      ∃ t, step s e = some t ∧ measure t < measure s ∧ True := by
    obtain ⟨t, hstep, hlt⟩ := hdecreases s hs
    exact ⟨t, hstep, hlt, trivial⟩
  obtain ⟨t, hrepeats, hzero, -⟩ := repeats_of_measure_of_invariant measure hdecreases' trivial
  exact ⟨t, hrepeats, hzero⟩

/-- An assumption about the labels of a run is a condition on its steps. -/
theorem along_of_forall_mem {P : ε → Prop} {s : σ} {es : List ε} (hP : ∀ e ∈ es, P e) :
    Along step (fun _ e => P e) s es := by
  induction es generalizing s with
  | nil => trivial
  | cons e es ih =>
    have htail : ∀ f ∈ es, P f := fun f hf => hP f (List.mem_cons_of_mem e hf)
    exact ⟨hP e List.mem_cons_self, fun t _ => ih htail⟩

/-- A law that every step of the system meets is met along every run. -/
theorem along_of_forall (hlaw : ∀ s e, law s e) (s : σ) (es : List ε) : Along step law s es := by
  induction es generalizing s with
  | nil => trivial
  | cons e es ih => exact ⟨hlaw s e, fun t _ => ih t⟩

/-- A law that is met along a run is met by the step after any part of it. -/
theorem law_of_along {s t : σ} {es : List ε} {e : ε} (h : Along step law s (es ++ [e]))
    (hrun : run step s es = some t) : law t e := by
  induction es generalizing s with
  | nil => exact run_nil_eq_some.mp hrun ▸ h.1
  | cons f fs ih =>
    obtain ⟨u, hu, hrun⟩ := run_cons_eq_some.mp hrun
    exact ih (h.2 u hu) hrun

/-- Two conditions that every step meets are met together. -/
theorem along_and {s : σ} {es : List ε} (hcond : Along step cond s es)
    (hlaw : Along step law s es) : Along step (fun s e => cond s e ∧ law s e) s es := by
  induction es generalizing s with
  | nil => trivial
  | cons e es ih =>
    exact ⟨⟨hcond.1, hlaw.1⟩, fun t ht => ih (hcond.2 t ht) (hlaw.2 t ht)⟩

/-- What every admitted step keeps holds at the end of an admitted run. -/
theorem invariant_of_along (cond : σ → ε → Prop) (inv : σ → Prop)
    (hstep : ∀ s e t, inv s → cond s e → step s e = some t → inv t)
    {s t : σ} {es : List ε} (hs : inv s) (hcond : Along step cond s es)
    (hrun : run step s es = some t) : inv t := by
  induction es generalizing s with
  | nil => exact run_nil_eq_some.mp hrun ▸ hs
  | cons e es ih =>
    obtain ⟨u, hu, hrun⟩ := run_cons_eq_some.mp hrun
    exact ih (hstep s e u hs hcond.1 hu) (hcond.2 u hu) hrun

/-- What every step with an assumed label keeps holds at the end of a run of such labels. -/
theorem invariant_of_forall_mem (inv : σ → Prop) {P : ε → Prop}
    (hstep : ∀ s e t, inv s → P e → step s e = some t → inv t)
    {s t : σ} {es : List ε} (hs : inv s) (hes : ∀ e ∈ es, P e) (hrun : run step s es = some t) :
    inv t :=
  invariant_of_along (fun _ e => P e) inv hstep hs (along_of_forall_mem hes) hrun

/-- What every step keeps holds at the end of every run. -/
theorem invariant_of_run (inv : σ → Prop) (hstep : ∀ s e t, inv s → step s e = some t → inv t)
    {s t : σ} {es : List ε} (hs : inv s) (hrun : run step s es = some t) : inv t :=
  invariant_of_forall_mem inv (fun s e t hs _ => hstep s e t hs) hs (fun _ _ => trivial) hrun

/-- A relation between the record and the state that every admitted step keeps holds at the end
of an admitted run. -/
theorem invariant_of_observe {ω : Type*} {record : ω → σ → ε → ω} (inv : ω → σ → Prop)
    (hstep : ∀ o s e t, inv o s → cond s e → step s e = some t → inv (record o s e) t)
    {o : ω} {s t : σ} {es : List ε} (hs : inv o s) (hcond : Along step cond s es)
    (hrun : run step s es = some t) : inv (observe step record o s es) t := by
  induction es generalizing o s with
  | nil => exact run_nil_eq_some.mp hrun ▸ hs
  | cons e es ih =>
    obtain ⟨u, hu, hrun⟩ := run_cons_eq_some.mp hrun
    simp only [observe, hu, Option.elim]
    exact ih (hstep o s e u hs hcond.1 hu) (hcond.2 u hu) hrun

/-- What is read from a record is a record itself, if every step records it so. -/
theorem map_observe {ω ω' : Type*} {record : ω → σ → ε → ω} {record' : ω' → σ → ε → ω'}
    (f : ω → ω')
    (hrecord : ∀ o s e t, step s e = some t → f (record o s e) = record' (f o) s e)
    (o : ω) (s : σ) (es : List ε) :
    f (observe step record o s es) = observe step record' (f o) s es := by
  induction es generalizing o s with
  | nil => rfl
  | cons e es ih =>
    unfold observe
    cases hstep : step s e with
    | none => rfl
    | some t =>
      rw [Option.elim_some, Option.elim_some, ← hrecord o s e t hstep]
      exact ih (record o s e) t

/-- The law holds at every step of an admitted run, if an invariant that the admitted steps
keep makes the condition imply it at each step. -/
theorem along_of_along (inv : σ → Prop) (hlaw : ∀ s e, inv s → cond s e → law s e)
    (hstep : ∀ s e t, inv s → cond s e → step s e = some t → inv t)
    {s : σ} (hs : inv s) {es : List ε} (hcond : Along step cond s es) : Along step law s es := by
  induction es generalizing s with
  | nil => trivial
  | cons e es ih =>
    exact ⟨hlaw s e hs hcond.1, fun t ht => ih (hstep s e t hs hcond.1 ht) (hcond.2 t ht)⟩

/-- The law holds at every step exactly when the condition does, if an invariant that the
admitted steps keep makes the two equivalent at each step. -/
theorem along_iff_along (inv : σ → Prop) (hiff : ∀ s e, inv s → (law s e ↔ cond s e))
    (hstep : ∀ s e t, inv s → cond s e → step s e = some t → inv t)
    {s : σ} (hs : inv s) (es : List ε) : Along step law s es ↔ Along step cond s es := by
  have hlawful (s : σ) (e : ε) (t : σ) (hs : inv s) (hlaw : law s e) : step s e = some t → inv t :=
    hstep s e t hs ((hiff s e hs).mp hlaw)
  exact ⟨along_of_along inv (fun s e hs => (hiff s e hs).mp) hlawful hs,
    along_of_along inv (fun s e hs => (hiff s e hs).mpr) hstep hs⟩

/-- A property of the states holds at every prefix of a run exactly when it holds before
the run and every step establishes it. -/
theorem forall_prefix_iff_along {P : σ → Prop} {s : σ} (es : List ε) (hs : P s) :
    (∀ fs t, fs <+: es → run step s fs = some t → P t) ↔
      Along step (fun s e => ∀ t, step s e = some t → P t) s es := by
  induction es generalizing s with
  | nil =>
    refine ⟨fun _ => trivial, fun _ fs t hfs hrun => ?_⟩
    obtain rfl := List.prefix_nil.mp hfs
    exact run_nil_eq_some.mp hrun ▸ hs
  | cons e es ih =>
    constructor
    · intro h
      have hnext : ∀ t, step s e = some t → P t := fun t ht =>
        h [e] t (List.cons_prefix_cons.mpr ⟨rfl, List.nil_prefix⟩) (by simp [run, ht])
      refine ⟨hnext, fun t ht => (ih (hnext t ht)).mp fun fs u hfs hu => ?_⟩
      exact h (e :: fs) u (List.cons_prefix_cons.mpr ⟨rfl, hfs⟩)
        (run_cons_eq_some.mpr ⟨t, ht, hu⟩)
    · rintro ⟨hnext, hes⟩ fs u hfs hrun
      cases fs with
      | nil => exact run_nil_eq_some.mp hrun ▸ hs
      | cons f fs =>
        obtain ⟨rfl, hrest⟩ := List.cons_prefix_cons.mp hfs
        obtain ⟨t, ht, hrun⟩ := run_cons_eq_some.mp hrun
        exact (ih (hnext t ht)).mpr (hes t ht) fs u hrest hrun

/-- A property of the states holds throughout a run exactly when every step meets the
condition, if an invariant makes establishing the property equivalent to the condition. -/
theorem forall_prefix_iff_of_invariant {P : σ → Prop} (inv : σ → Prop)
    (hiff : ∀ s e, inv s → ((∀ t, step s e = some t → P t) ↔ cond s e))
    (hstep : ∀ s e t, inv s → cond s e → step s e = some t → inv t)
    {s : σ} (hs : inv s) (hP : P s) (es : List ε) :
    (∀ fs t, fs <+: es → run step s fs = some t → P t) ↔ Along step cond s es :=
  (forall_prefix_iff_along es hP).trans (along_iff_along inv hiff hstep hs es)

/-- A run with a record is a run without it, and the record is what was observed. -/
theorem run_observing {ω : Type*} (record : ω → σ → ε → ω) (o : ω) (s : σ) (es : List ε) :
    run (observing step record) (o, s) es =
      (run step s es).map fun t => (observe step record o s es, t) := by
  induction es generalizing o s with
  | nil => rfl
  | cons e es ih =>
    cases hstep : step s e with
    | none => simp [run, observing, hstep]
    | some t => simpa [run, observing, observe, hstep] using ih (record o s e) t

/-- A property of the states holds throughout a run exactly when every step meets a condition on
the record and the state, if a relation between the two makes establishing the property
equivalent to the condition. -/
theorem forall_prefix_iff_of_observing {ω : Type*} {record : ω → σ → ε → ω} {P : σ → Prop}
    {cond : ω × σ → ε → Prop} (inv : ω → σ → Prop)
    (hiff : ∀ o s e, inv o s → ((∀ t, step s e = some t → P t) ↔ cond (o, s) e))
    (hstep : ∀ o s e t, inv o s → cond (o, s) e → step s e = some t → inv (record o s e) t)
    {o : ω} {s : σ} (hs : inv o s) (hP : P s) (es : List ε) :
    (∀ fs t, fs <+: es → run step s fs = some t → P t) ↔
      Along (observing step record) cond (o, s) es := by
  have hobserved : (∀ fs t, fs <+: es → run step s fs = some t → P t) ↔
      ∀ fs p, fs <+: es → run (observing step record) (o, s) fs = some p → P p.2 := by
    constructor
    · intro h fs p hfs hrun
      rw [run_observing, Option.map_eq_some_iff] at hrun
      obtain ⟨t, hrun, rfl⟩ := hrun
      exact h fs t hfs hrun
    · intro h fs t hfs hrun
      exact h fs (observe step record o s fs, t) hfs (by rw [run_observing, hrun]; rfl)
  rw [hobserved]
  apply forall_prefix_iff_of_invariant fun p => inv p.1 p.2
  · intro p e h
    rw [← hiff p.1 p.2 e h]
    simp [observing]
  · intro p e q h hcond hq
    obtain ⟨t, ht, rfl⟩ := Option.map_eq_some_iff.mp hq
    exact hstep p.1 p.2 e t h hcond ht
  · exact hs
  · exact hP

end Rules

end Transition
