import Mathlib.Data.List.Infix

/-!
# Queues that drop their oldest item

A bounded queue that is full drops the item at its front for the one pushed at its back. Since
items are taken from the front as well, those dropped between two takes are contiguous and come
right before the next one taken: a count of them is enough to say where the gap is. The books
compare what was accepted, in order and marked with whether it was dropped, with what was
written, where a gap is as many empty places as items are missing.
-/

namespace Queue

/-- An accepted item, and whether it was dropped from the queue. -/
structure Accepted (α : Type*) where
  item : α
  dropped : Bool := false

variable {α : Type*}

/-- The place of an accepted item in what is written. -/
def Accepted.place (a : Accepted α) : Option α := if a.dropped then none else some a.item

/-- The items accepted and not yet dropped. -/
def queued (queue : List α) : List (Accepted α) := queue.map fun a => { item := a }

/-- Mark the item at the front of a queue as dropped. -/
def markDropped (accepted : List (Accepted α)) (queue : List α) (a : α) : List (Accepted α) :=
  accepted.set (accepted.length - queue.length) { item := a, dropped := true }

/-- What was accepted before the items queued is what was written and the gap after it. -/
def DropsOldest (accepted : List (Accepted α)) (written : List (Option α)) (gap : ℕ)
    (queue : List α) : Prop :=
  ∃ settled, accepted = settled ++ queued queue ∧
    settled.map Accepted.place = written ++ List.replicate gap none

variable {accepted : List (Accepted α)} {written : List (Option α)} {gap : ℕ} {queue : List α}
  {a : α}

/-- Before anything is accepted nothing is written. -/
theorem dropsOldest_nil : DropsOldest (α := α) [] [] 0 [] := ⟨[], rfl, rfl⟩

/-- An accepted item is pushed at the back. -/
theorem DropsOldest.push (h : DropsOldest accepted written gap queue) (a : α) :
    DropsOldest (accepted ++ [{ item := a }]) written gap (queue ++ [a]) := by
  obtain ⟨settled, rfl, hplaces⟩ := h
  exact ⟨settled, by simp [queued], hplaces⟩

/-- The front of the queue comes right after what was settled. -/
theorem markDropped_append (settled : List (Accepted α)) (queue : List α) (a : α) :
    markDropped (settled ++ queued (a :: queue)) (a :: queue) a =
      settled ++ { item := a, dropped := true } :: queued queue := by
  have hindex : (settled ++ queued (a :: queue)).length - (a :: queue).length =
      settled.length := by simp [queued]
  rw [markDropped, hindex, List.set_append_right _ _ le_rfl, Nat.sub_self]
  rfl

/-- Dropping the item at the front widens the gap. -/
theorem DropsOldest.drop (h : DropsOldest accepted written gap (a :: queue)) :
    DropsOldest (markDropped accepted (a :: queue) a) written (gap + 1) queue := by
  obtain ⟨settled, rfl, hplaces⟩ := h
  refine ⟨settled ++ [{ item := a, dropped := true }], ?_, ?_⟩
  · rw [markDropped_append, List.append_assoc]
    rfl
  · rw [List.map_append, hplaces, List.replicate_succ', List.append_assoc]
    rfl

/-- Marking the item at the front as dropped leaves the accepted items as they are. -/
theorem DropsOldest.items_markDropped (h : DropsOldest accepted written gap (a :: queue)) :
    (markDropped accepted (a :: queue) a).map Accepted.item = accepted.map Accepted.item := by
  obtain ⟨settled, rfl, -⟩ := h
  rw [markDropped_append]
  simp [queued]

/-- Taking the item at the front closes the gap before it. -/
theorem DropsOldest.take (h : DropsOldest accepted written gap (a :: queue)) :
    DropsOldest accepted (written ++ List.replicate gap none ++ [some a]) 0 queue := by
  obtain ⟨settled, rfl, hplaces⟩ := h
  refine ⟨settled ++ [{ item := a }], by simp [queued], ?_⟩
  rw [List.map_append, hplaces]
  simp [Accepted.place]

/-- Every accepted item has its place, whatever is written, missing or queued. -/
theorem DropsOldest.places (h : DropsOldest accepted written gap queue) :
    accepted.map Accepted.place = written ++ List.replicate gap none ++ queue.map some := by
  obtain ⟨settled, rfl, hplaces⟩ := h
  have hqueued : (queued queue).map Accepted.place = queue.map some := by
    simp [queued, Function.comp_def, Accepted.place]
  rw [List.map_append, hplaces, hqueued]

end Queue
