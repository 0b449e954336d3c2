import Mathlib.Data.List.Basic
import Mathlib.Logic.Function.Basic

/-!
# Rate limits by key

A limiter passes an item if every item of the same key it passed before is at least an interval
older. It need not keep what it passed: a memory of one time for each key is enough, and of
those only the times that can still hold something back. Times are natural numbers and do not
decrease.
-/

namespace Signal

variable {α κ : Type*} (key : α → κ) (time : α → ℕ) (interval : ℕ)

/-- Everything passed under the key is at least an interval old. -/
def Due (passed : List α) (k : κ) (now : ℕ) : Prop :=
  ∀ a ∈ passed, key a = k → time a + interval ≤ now

/-- Items of one key were passed at least an interval apart. -/
def Spaced (passed : List α) : Prop :=
  passed.Pairwise fun a b => key a = key b → time a + interval ≤ time b

/-- From now on the memory of the times holds back what the passed items hold back. -/
def Remembers (passed : List α) (memory : κ → Option ℕ) (now : ℕ) : Prop :=
  ∀ k later, now ≤ later →
    (Due key time interval passed k later ↔ ∀ t ∈ memory k, t + interval ≤ later)

variable {key time interval} {passed : List α} {memory : κ → Option ℕ} {now : ℕ}

/-- One more item is due when the others are and it is itself. -/
theorem due_concat {a : α} {k : κ} {later : ℕ} :
    Due key time interval (passed ++ [a]) k later ↔
      Due key time interval passed k later ∧ (key a = k → time a + interval ≤ later) := by
  simp [Due, or_imp, forall_and]

/-- What is due stays due. -/
theorem Due.mono {k : κ} {later : ℕ} (h : Due key time interval passed k now)
    (hle : now ≤ later) : Due key time interval passed k later :=
  fun a ha hk => Nat.le_trans (h a ha hk) hle

/-- Passing an item that is due keeps the spacing. -/
theorem spaced_concat {a : α} :
    Spaced key time interval (passed ++ [a]) ↔
      Spaced key time interval passed ∧ Due key time interval passed (key a) (time a) := by
  simp [Spaced, Due, List.pairwise_append]

/-- Nothing passed, nothing remembered. -/
theorem remembers_nil (now : ℕ) : Remembers key time interval [] (fun _ => none) now := by
  intro k later _
  simp [Due]

/-- The memory stays good as time passes. -/
theorem Remembers.later {after : ℕ} (h : Remembers key time interval passed memory now)
    (hle : now ≤ after) : Remembers key time interval passed memory after :=
  fun k later hlater => h k later (Nat.le_trans hle hlater)

/-- Remembering the item just passed, in place of an older one of its key. -/
theorem Remembers.pass [DecidableEq κ] (h : Remembers key time interval passed memory now) {a : α}
    (ha : time a = now) (hdue : Due key time interval passed (key a) now) :
    Remembers key time interval (passed ++ [a])
      (Function.update memory (key a) (some now)) now := by
  intro k later hlater
  rw [due_concat]
  by_cases hk : key a = k
  · subst hk
    simp [ha, hdue.mono hlater]
  · simp [hk, Function.update_of_ne (Ne.symm hk), h k later hlater]

/-- Forgetting the times that hold nothing back any more. -/
theorem Remembers.forget (h : Remembers key time interval passed memory now) :
    Remembers key time interval passed
      (fun k => (memory k).filter fun t => decide (now < t + interval)) now := by
  intro k later hlater
  rw [h k later hlater]
  constructor
  · intro hall t ht
    exact hall t (Option.mem_filter_iff.mp ht).1
  · intro hall t ht
    by_cases hold : now < t + interval
    · exact hall t (Option.mem_filter_iff.mpr ⟨ht, decide_eq_true hold⟩)
    · omega

/-- What is left after forgetting is what was passed within the last interval. -/
theorem Remembers.isSome_forget_iff (h : Remembers key time interval passed memory now) (k : κ) :
    ((memory k).filter fun t => decide (now < t + interval)).isSome = true ↔
      ∃ a ∈ passed, key a = k ∧ now < time a + interval := by
  have hnone : ((memory k).filter fun t => decide (now < t + interval)) = none ↔
      Due key time interval passed k now := by
    rw [h k now (Nat.le_refl now), Option.filter_eq_none_iff]
    simp
  rw [← Option.ne_none_iff_isSome, Ne, hnone]
  simp [Due]

section Stream

/-- What a limiter of one stream passes, which remembers the time of the last item it passed. -/
def limit (time : α → ℕ) (interval last : ℕ) : List α → List α
  | [] => []
  | a :: rest =>
    if last + interval ≤ time a then a :: limit time interval (time a) rest
    else limit time interval last rest

/-- The time it remembers after these. -/
def lastPassed (time : α → ℕ) (last : ℕ) (passed : List α) : ℕ :=
  passed.foldl (fun _ a => time a) last

variable {last : ℕ}

/-- The items passed are items of the stream, in its order. -/
theorem limit_sublist (items : List α) : (limit time interval last items).Sublist items := by
  induction items generalizing last with
  | nil => exact List.Sublist.refl _
  | cons a rest ih =>
    unfold limit
    split_ifs
    · exact ih.cons_cons a
    · exact ih.cons a

/-- One more item is passed if the last one is old enough. -/
theorem limit_concat (items : List α) (a : α) :
    limit time interval last (items ++ [a]) = limit time interval last items ++
      if lastPassed time last (limit time interval last items) + interval ≤ time a then [a]
      else [] := by
  induction items generalizing last with
  | nil => rfl
  | cons b rest ih =>
    rw [List.cons_append]
    by_cases hb : last + interval ≤ time b
    · simp only [limit, if_pos hb, ih]
      rfl
    · simp only [limit, if_neg hb, ih]

/-- The items passed are an interval apart, and from the time remembered before. -/
theorem spaced_limit (items : List α) :
    (limit time interval last items).Pairwise (fun a b => time a + interval ≤ time b) ∧
      ∀ a ∈ limit time interval last items, last + interval ≤ time a := by
  induction items generalizing last with
  | nil => simp [limit]
  | cons b rest ih =>
    by_cases hb : last + interval ≤ time b
    · simp only [limit, if_pos hb]
      obtain ⟨hspaced, hafter⟩ := @ih (time b)
      refine ⟨List.pairwise_cons.mpr ⟨hafter, hspaced⟩, fun a ha => ?_⟩
      obtain rfl | ha := List.mem_cons.mp ha
      · exact hb
      · have hrest := hafter a ha
        omega
    · simp only [limit, if_neg hb]
      exact ih

/-- An item held back comes within an interval after one that was passed, or after the time
remembered before. -/
theorem mem_limit_or {items : List α} (hsorted : items.Pairwise fun a b => time a ≤ time b)
    {a : α} (ha : a ∈ items) :
    a ∈ limit time interval last items ∨ time a < last + interval ∨
      ∃ b ∈ limit time interval last items, time b ≤ time a ∧ time a < time b + interval := by
  induction items generalizing last with
  | nil => exact absurd ha List.not_mem_nil
  | cons c rest ih =>
    obtain ⟨hle, hsorted⟩ := List.pairwise_cons.mp hsorted
    by_cases hc : last + interval ≤ time c
    · simp only [limit, if_pos hc]
      obtain rfl | ha := List.mem_cons.mp ha
      · exact .inl List.mem_cons_self
      · obtain hpassed | hsoon | ⟨b, hb, hbefore⟩ := @ih (time c) hsorted ha
        · exact .inl (List.mem_cons_of_mem _ hpassed)
        · exact .inr (.inr ⟨c, List.mem_cons_self, hle a ha, hsoon⟩)
        · exact .inr (.inr ⟨b, List.mem_cons_of_mem _ hb, hbefore⟩)
    · simp only [limit, if_neg hc]
      obtain rfl | ha := List.mem_cons.mp ha
      · exact .inr (.inl (Nat.not_le.mp hc))
      · exact ih hsorted ha

end Stream

end Signal
