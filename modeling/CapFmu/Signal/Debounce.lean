import Mathlib.Data.List.Infix

/-!
# Debounced Boolean signals

A signal is the list of its samples, oldest first. A debounced reader counts the samples
of the run that is still going on, up to a bound, and acts when the count reaches the bound.
What it has acted on is a property of the whole signal: some run reached the bound, or the
most recent run to reach it was one of a given value. Both are decided sample by sample
from the length of the last run.
-/

namespace Signal

/-- The number of equal samples that end the signal, when they have the given value. -/
def lastRun (b : Bool) (xs : List Bool) : ℕ := (xs.reverse.takeWhile (· == b)).length

/-- Some run of the value reached the bound. -/
def HasRun (b : Bool) (n : ℕ) (xs : List Bool) : Prop := List.replicate n b <:+: xs

instance (b : Bool) (n : ℕ) (xs : List Bool) : Decidable (HasRun b n xs) :=
  inferInstanceAs (Decidable (_ <:+: _))

/-- The most recent run that reached the bound is one of the value: a run of the value
starts somewhere, and no run of the other value reached the bound since. -/
def Settled (b : Bool) (n : ℕ) (xs : List Bool) : Prop :=
  ∃ tail ∈ xs.tails, List.replicate n b <+: tail ∧ ¬ List.replicate n (!b) <:+: tail

instance (b : Bool) (n : ℕ) (xs : List Bool) : Decidable (Settled b n xs) :=
  inferInstanceAs (Decidable (∃ _ ∈ _, _))

/-- Before the first sample there is no run. -/
@[simp] theorem lastRun_nil (b : Bool) : lastRun b [] = 0 := rfl

/-- A sample of the value continues the run, and one of the other value ends it. -/
@[simp] theorem lastRun_concat (b x : Bool) (xs : List Bool) :
    lastRun b (xs ++ [x]) = if x = b then lastRun b xs + 1 else 0 := by
  simp only [lastRun, List.reverse_append, List.reverse_cons, List.reverse_nil, List.nil_append,
    List.singleton_append, List.takeWhile_cons, beq_iff_eq]
  split_ifs <;> simp

/-- The signal ends in a run of some length exactly when its last run is that long. -/
theorem replicate_suffix_iff (b : Bool) (n : ℕ) (xs : List Bool) :
    List.replicate n b <:+ xs ↔ n ≤ lastRun b xs := by
  induction xs using List.reverseRecOn generalizing n with
  | nil => simp
  | append_singleton xs x ih =>
    rw [lastRun_concat]
    cases n with
    | zero => simp
    | succ n =>
      rw [List.replicate_succ', List.suffix_concat_iff]
      constructor
      · rintro (hnil | ⟨t, ht, hsuffix⟩)
        · simp at hnil
        · obtain ⟨rfl, hx⟩ := List.append_inj' ht rfl
          have hlast := (ih n).mp hsuffix
          rw [if_pos (List.singleton_inj.mp hx).symm]
          omega
      · intro hn
        split_ifs at hn with hx
        · subst hx
          have hsuffix := (ih n).mpr (by omega)
          exact Or.inr ⟨_, rfl, hsuffix⟩
        · omega

/-- A run is not broken up by runs of the other value. -/
theorem not_replicate_infix {b : Bool} {n m : ℕ} (hn : n ≠ 0) :
    ¬ List.replicate n (!b) <:+: List.replicate m b := by
  intro hinfix
  have hmem : (!b) ∈ List.replicate m b :=
    hinfix.subset (List.mem_replicate.mpr ⟨hn, rfl⟩)
  have hsame := List.eq_of_mem_replicate hmem
  simp at hsame

/-- There is no run before the first sample. -/
@[simp] theorem hasRun_nil (b : Bool) {n : ℕ} (hn : n ≠ 0) : ¬ HasRun b n [] := by
  simp [HasRun, hn]

/-- One more sample makes a run reach the bound exactly when its own run does. -/
theorem hasRun_concat (b : Bool) (n : ℕ) (xs : List Bool) (x : Bool) :
    HasRun b n (xs ++ [x]) ↔ HasRun b n xs ∨ n ≤ lastRun b (xs ++ [x]) := by
  rw [HasRun, List.infix_concat_iff, replicate_suffix_iff, or_comm]
  rfl

/-- Nothing is settled before the first sample. -/
@[simp] theorem settled_nil (b : Bool) {n : ℕ} (hn : n ≠ 0) : ¬ Settled b n [] := by
  simp [Settled, hn]

/-- One more sample settles the value when its run reaches the bound, and otherwise leaves
it settled unless the other value's run does. -/
theorem settled_concat (b : Bool) {n : ℕ} (hn : n ≠ 0) (xs : List Bool) (x : Bool) :
    Settled b n (xs ++ [x]) ↔
      n ≤ lastRun b (xs ++ [x]) ∨ (Settled b n xs ∧ lastRun (!b) (xs ++ [x]) < n) := by
  simp only [Settled, List.mem_tails, ← not_le (a := n), ← replicate_suffix_iff]
  constructor
  · rintro ⟨tail, htail, hrun, hother⟩
    have hstill : ¬ List.replicate n (!b) <:+ xs ++ [x] := by
      intro hsuffix
      cases List.suffix_or_suffix_of_suffix hsuffix htail with
      | inl hinside => exact hother hinside.isInfix
      | inr houtside =>
        apply not_replicate_infix (b := !b) (m := n) hn
        rw [Bool.not_not]
        exact hrun.isInfix.trans houtside.isInfix
    rcases List.suffix_concat_iff.mp htail with rfl | ⟨t, rfl, ht⟩
    · simp [hn] at hrun
    · cases List.prefix_concat_iff.mp hrun with
      | inl heq => exact Or.inl (heq ▸ htail)
      | inr hbefore =>
        have hold : ¬ List.replicate n (!b) <:+: t := fun h =>
          hother (h.trans (List.prefix_append t [x]).isInfix)
        exact Or.inr ⟨⟨t, ht, hbefore, hold⟩, hstill⟩
  · rintro (hsuffix | ⟨⟨t, ht, hrun, hother⟩, hstill⟩)
    · exact ⟨_, hsuffix, List.prefix_rfl, not_replicate_infix hn⟩
    · have htail : t ++ [x] <:+ xs ++ [x] := List.suffix_concat_iff.mpr (Or.inr ⟨t, rfl, ht⟩)
      refine ⟨t ++ [x], htail, hrun.trans (List.prefix_append t [x]), fun h => ?_⟩
      cases List.infix_concat_iff.mp h with
      | inl hsuffix => exact hstill (hsuffix.trans htail)
      | inr hbefore => exact hother hbefore

/-- A counter that counts the samples of a run up to the bound holds the length of the last
run, cut off there. -/
theorem countRun (b x : Bool) (n : ℕ) (xs : List Bool) :
    min n (lastRun b (xs ++ [x])) =
      if x = b then min n (min n (lastRun b xs) + 1) else 0 := by
  rw [lastRun_concat]
  split_ifs <;> omega

end Signal
