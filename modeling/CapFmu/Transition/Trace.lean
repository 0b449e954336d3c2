import Mathlib.Data.List.Infix

/-!
# Laws of a trace

A trace lists what happened, oldest first. A law of the entries relates each entry to the
trace before it. It is kept by appending entries that meet it after what is there, so a
system whose steps append to a trace keeps it if each step's entries do.
-/

namespace Transition

variable {α : Type*} {R : List α → α → Prop}

/-- Every entry of the trace meets the law after the entries before it. -/
def EachAfter (R : List α → α → Prop) (trace : List α) : Prop :=
  ∀ before a, before ++ [a] <+: trace → R before a

@[simp] theorem eachAfter_nil : EachAfter R [] := by
  intro before a hpre
  exact absurd (List.prefix_nil.mp hpre) (by simp)

/-- One more entry has to meet the law after the whole trace. -/
theorem eachAfter_concat {trace : List α} {a : α} :
    EachAfter R (trace ++ [a]) ↔ EachAfter R trace ∧ R trace a := by
  constructor
  · intro h
    exact ⟨fun before b hpre => h before b (hpre.trans (List.prefix_append trace [a])),
      h trace a List.prefix_rfl⟩
  · rintro ⟨htrace, ha⟩ before b hpre
    rcases List.prefix_concat_iff.mp hpre with heq | hpre
    · obtain ⟨rfl, hb⟩ := List.append_inj' heq rfl
      rwa [List.singleton_inj.mp hb]
    · exact htrace before b hpre

/-- The entries of a longer trace meet the law after the first part. -/
theorem eachAfter_append {trace more : List α} :
    EachAfter R (trace ++ more) ↔
      EachAfter R trace ∧ EachAfter (fun before a => R (trace ++ before) a) more := by
  induction more using List.reverseRecOn with
  | nil => simp
  | append_singleton more a ih =>
    rw [← List.append_assoc, eachAfter_concat, ih, eachAfter_concat, and_assoc]

/-- A single entry has to meet the law at the start. -/
theorem eachAfter_singleton {a : α} : EachAfter R [a] ↔ R [] a := by
  rw [← List.nil_append [a], eachAfter_concat]
  exact and_iff_right eachAfter_nil

/-- The first entry has to meet the law at the start, and the others after it. -/
theorem eachAfter_cons {trace : List α} {a : α} :
    EachAfter R (a :: trace) ↔ R [] a ∧ EachAfter (fun before b => R (a :: before) b) trace := by
  rw [← List.singleton_append, eachAfter_append, eachAfter_singleton]
  rfl

/-- Entries that meet the law after anything make a lawful trace. -/
theorem eachAfter_of_forall {trace : List α} (h : ∀ a ∈ trace, ∀ before, R before a) :
    EachAfter R trace := by
  intro before a hpre
  exact h a (List.IsPrefix.subset hpre (by simp)) before

end Transition
