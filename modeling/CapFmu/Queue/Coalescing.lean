import Mathlib.Data.List.Infix

/-!
# Coalescing queues

Tasks are pushed at the back of a queue and popped from its front. A task is kept as it is,
replaces those of its kind that are still queued, or joins the one that is. The books of such a
queue compare what was pushed with what was popped: kept tasks are all there and in their order,
of the replacing ones the newest is, and neither of the other kinds is queued twice.
-/

namespace Queue

/-- What a pushed task does to those of its kind still queued. -/
inductive Coalescing
  | keep
  | replace
  | join
  deriving DecidableEq, Repr

variable {α : Type*} (kind : α → Coalescing)

/-- The tasks of one kind. -/
def ofKind (k : Coalescing) (tasks : List α) : List α := tasks.filter fun a => decide (kind a = k)

/-- Push a task. -/
def push (queue : List α) (a : α) : List α :=
  match kind a with
  | .keep => queue ++ [a]
  | .replace => queue.filter (fun b => !decide (kind b = .replace)) ++ [a]
  | .join => if queue.any fun b => decide (kind b = .join) then queue else queue ++ [a]

/-- A push makes the queue longer by one at most. -/
theorem length_push_le (queue : List α) (a : α) : (push kind queue a).length ≤ queue.length + 1 := by
  have hfilter := List.length_filter_le (fun b => !decide (kind b = .replace)) queue
  unfold push
  split
  · simp
  · simpa using hfilter
  · split_ifs <;> simp

/-- The books of a queue: what was pushed and popped, and what is queued. -/
structure Coalesces (pushed popped queue : List α) : Prop where
  kept : ofKind kind .keep pushed = ofKind kind .keep popped ++ ofKind kind .keep queue
  replaced : (ofKind kind .replace (popped ++ queue)).Sublist (ofKind kind .replace pushed)
  newest : (ofKind kind .replace (popped ++ queue)).getLast? =
    (ofKind kind .replace pushed).getLast?
  oneReplacing : (ofKind kind .replace queue).length ≤ 1
  joined : (ofKind kind .join (popped ++ queue)).Sublist (ofKind kind .join pushed)
  oneJoining : (ofKind kind .join queue).length ≤ 1

variable {kind} {pushed popped queue : List α} {a : α} {k : Coalescing}

@[simp] theorem ofKind_append (k : Coalescing) (xs ys : List α) :
    ofKind kind k (xs ++ ys) = ofKind kind k xs ++ ofKind kind k ys := List.filter_append ..

/-- A task of the kind. -/
theorem ofKind_singleton (ha : kind a = k) : ofKind kind k [a] = [a] := by
  simp [ofKind, ha]

/-- A task of another kind. -/
theorem ofKind_singleton_of_ne (ha : kind a ≠ k) : ofKind kind k [a] = [] := by
  simp [ofKind, ha]

/-- Without the replacing tasks no task of that kind is left. -/
theorem ofKind_replace_filter (queue : List α) :
    ofKind kind .replace (queue.filter fun b => !decide (kind b = .replace)) = [] := by
  simp [ofKind]

/-- Without the replacing tasks those of another kind are all left. -/
theorem ofKind_filter_of_ne (hk : k ≠ .replace) (queue : List α) :
    ofKind kind k (queue.filter fun b => !decide (kind b = .replace)) = ofKind kind k queue := by
  rw [ofKind, ofKind, List.filter_filter]
  apply List.filter_congr
  intro b _
  by_cases hb : kind b = k <;> simp [hb, hk]

/-- A push changes the queue by the pushed task alone, as far as another kind is concerned. -/
theorem ofKind_push_of_ne (hk : kind a ≠ k) :
    ofKind kind k (push kind queue a) = ofKind kind k queue := by
  unfold push
  split
  · simp [ofKind_singleton_of_ne hk]
  · next ha =>
    have hne : k ≠ .replace := fun h => hk (ha.trans h.symm)
    simp [ofKind_singleton_of_ne hk, ofKind_filter_of_ne hne]
  · split
    · rfl
    · simp [ofKind_singleton_of_ne hk]

/-- A kept task is pushed behind those queued. -/
theorem ofKind_push_keep (ha : kind a = .keep) :
    ofKind kind .keep (push kind queue a) = ofKind kind .keep queue ++ [a] := by
  simp [push, ha, ofKind_singleton ha]

/-- A replacing task is the only one of its kind. -/
theorem ofKind_push_replace (ha : kind a = .replace) :
    ofKind kind .replace (push kind queue a) = [a] := by
  simp [push, ha, ofKind_singleton ha, ofKind_replace_filter]

/-- A joining task is pushed unless one of its kind is queued. -/
theorem ofKind_push_join (ha : kind a = .join) :
    ofKind kind .join (push kind queue a) =
      if ofKind kind .join queue = [] then [a] else ofKind kind .join queue := by
  have hany : queue.any (fun b => decide (kind b = .join)) = true ↔
      ofKind kind .join queue ≠ [] := by
    simp [ofKind, List.filter_eq_nil_iff]
  simp only [push, ha]
  by_cases hempty : ofKind kind .join queue = []
  · rw [if_neg fun hqueued => hany.mp hqueued hempty, if_pos hempty, ofKind_append, hempty,
      List.nil_append, ofKind_singleton ha]
  · rw [if_pos (hany.mpr hempty), if_neg hempty]

/-- An empty queue has nothing to account for. -/
theorem coalesces_nil : Coalesces kind [] [] [] where
  kept := rfl
  replaced := List.Sublist.refl _
  newest := rfl
  oneReplacing := Nat.zero_le 1
  joined := List.Sublist.refl _
  oneJoining := Nat.zero_le 1

/-- Pushing a task keeps the books. -/
theorem Coalesces.push (h : Coalesces kind pushed popped queue) (a : α) :
    Coalesces kind (pushed ++ [a]) popped (push kind queue a) := by
  obtain ⟨hkept, hreplaced, hnewest, honeReplacing, hjoined, honeJoining⟩ := h
  simp only [ofKind_append] at hreplaced hnewest hjoined
  have hpopped : (ofKind kind .replace popped).Sublist (ofKind kind .replace pushed) :=
    (List.sublist_append_left ..).trans hreplaced
  constructor
  · by_cases ha : kind a = .keep
    · rw [ofKind_push_keep ha, ofKind_append, hkept, ofKind_singleton ha, List.append_assoc]
    · rw [ofKind_push_of_ne ha, ofKind_append, hkept, ofKind_singleton_of_ne ha, List.append_nil]
  · by_cases ha : kind a = .replace
    · rw [ofKind_append, ofKind_push_replace ha, ofKind_append, ofKind_singleton ha]
      exact hpopped.append (List.Sublist.refl _)
    · rwa [ofKind_append, ofKind_push_of_ne ha, ofKind_append, ofKind_singleton_of_ne ha,
        List.append_nil]
  · by_cases ha : kind a = .replace
    · rw [ofKind_append, ofKind_push_replace ha, ofKind_append, ofKind_singleton ha,
        List.getLast?_concat, List.getLast?_concat]
    · rwa [ofKind_append, ofKind_push_of_ne ha, ofKind_append, ofKind_singleton_of_ne ha,
        List.append_nil]
  · by_cases ha : kind a = .replace
    · rw [ofKind_push_replace ha, List.length_singleton]
    · rwa [ofKind_push_of_ne ha]
  · by_cases ha : kind a = .join
    · rw [ofKind_append, ofKind_push_join ha, ofKind_append, ofKind_singleton ha]
      split
      · next hempty =>
        rw [hempty, List.append_nil] at hjoined
        exact hjoined.append (List.Sublist.refl _)
      · exact hjoined.trans (List.sublist_append_left ..)
    · rwa [ofKind_append, ofKind_push_of_ne ha, ofKind_append, ofKind_singleton_of_ne ha,
        List.append_nil]
  · by_cases ha : kind a = .join
    · rw [ofKind_push_join ha]
      split
      · rw [List.length_singleton]
      · exact honeJoining
    · rwa [ofKind_push_of_ne ha]

/-- Popping a task keeps the books. -/
theorem Coalesces.pop (h : Coalesces kind pushed popped (a :: queue)) :
    Coalesces kind pushed (popped ++ [a]) queue := by
  obtain ⟨hkept, hreplaced, hnewest, honeReplacing, hjoined, honeJoining⟩ := h
  have hcons (k : Coalescing) : ofKind kind k (a :: queue) = ofKind kind k [a] ++
      ofKind kind k queue := by
    rw [← ofKind_append, List.singleton_append]
  have hsame : popped ++ [a] ++ queue = popped ++ a :: queue := by simp
  rw [hcons, List.length_append] at honeReplacing honeJoining
  constructor
  · rw [hkept, hcons, ofKind_append, List.append_assoc]
  · rwa [hsame]
  · rwa [hsame]
  · omega
  · rwa [hsame]
  · omega

end Queue
