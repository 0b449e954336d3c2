import Mathlib.Data.List.Nodup
import Mathlib.Logic.Function.Basic

/-!
# Numbered handles that are reused

A table gives out numbers for resources. A number is free again as soon as its resource is
closed, and may then stand for another one. Every resource has an identity of its own, in the
order of opening, so that a holder of a number can be asked whether the number still stands for
the resource it was given for. The identities of closed resources are recorded: none is closed
twice, and what was opened is open or closed.
-/

namespace Handles

variable {α : Type*}

/-- An open resource. -/
structure Entry (α : Type*) where
  id : ℕ
  value : α

/-- A number, and the resource that it was given for. -/
structure Handle where
  number : ℕ
  id : ℕ
  deriving DecidableEq

/-- The open resources by number, the next identity and the identities that were closed. -/
structure Table (α : Type*) where
  entries : ℕ → Option (Entry α) := fun _ => none
  next : ℕ := 0
  closed : List ℕ := []

namespace Table

/-- Open a resource under a number. -/
def insert (t : Table α) (number : ℕ) (value : α) : Table α :=
  { t with
    entries := Function.update t.entries number (some { id := t.next, value := value })
    next := t.next + 1 }

/-- Change what is kept of an open resource. -/
def modify (t : Table α) (number : ℕ) (f : α → α) : Table α :=
  { t with
    entries := Function.update t.entries number
      ((t.entries number).map fun e => { e with value := f e.value }) }

/-- Close what is open under a number. -/
def remove (t : Table α) (number : ℕ) : Table α :=
  { t with
    entries := Function.update t.entries number none
    closed := t.closed ++ ((t.entries number).map Entry.id).toList }

/-- The number of the handle stands for its resource, with this value. -/
def Refers (t : Table α) (h : Handle) (value : α) : Prop :=
  t.entries h.number = some { id := h.id, value := value }

/-- Every resource that was opened is open under one number, or was closed once. -/
structure Accounted (t : Table α) : Prop where
  lt : ∀ n e, t.entries n = some e → e.id < t.next
  unique : ∀ m n d e, t.entries m = some d → t.entries n = some e → d.id = e.id → m = n
  nodup : t.closed.Nodup
  closed_lt : ∀ i ∈ t.closed, i < t.next
  open_not_closed : ∀ n e, t.entries n = some e → e.id ∉ t.closed
  complete : ∀ i < t.next, i ∈ t.closed ∨ ∃ n e, t.entries n = some e ∧ e.id = i

variable {t : Table α} {number : ℕ} {value : α} {f : α → α} {h : Handle}

/-- Nothing is open at first. -/
theorem accounted_empty : Accounted ({} : Table α) where
  lt := by simp
  unique := by simp
  nodup := List.nodup_nil
  closed_lt := by simp
  open_not_closed := by simp
  complete := by simp

/-- What is open after opening a resource is that one, or was open. -/
theorem insert_eq_some_iff {n : ℕ} {e : Entry α} :
    (t.insert number value).entries n = some e ↔
      n = number ∧ e = { id := t.next, value := value } ∨ n ≠ number ∧ t.entries n = some e := by
  by_cases hn : n = number
  · subst hn
    simp [insert, eq_comm]
  · simp [insert, hn]

/-- A free number is given to a new resource. -/
theorem Accounted.insert (ht : t.Accounted) (hfree : t.entries number = none) :
    (t.insert number value).Accounted where
  lt n e he := by
    cases insert_eq_some_iff.mp he with
    | inl hnew => exact hnew.2 ▸ Nat.lt_succ_self t.next
    | inr hold => exact Nat.lt_succ_of_lt (ht.lt n e hold.2)
  unique m n d e hd he hid := by
    cases insert_eq_some_iff.mp hd with
    | inl hd =>
      cases insert_eq_some_iff.mp he with
      | inl he => exact hd.1.trans he.1.symm
      | inr he =>
        have hlt := ht.lt n e he.2
        rw [← hid, hd.2] at hlt
        exact absurd hlt (Nat.lt_irrefl _)
    | inr hd =>
      cases insert_eq_some_iff.mp he with
      | inl he =>
        have hlt := ht.lt m d hd.2
        rw [hid, he.2] at hlt
        exact absurd hlt (Nat.lt_irrefl _)
      | inr he => exact ht.unique m n d e hd.2 he.2 hid
  nodup := ht.nodup
  closed_lt i hi := Nat.lt_succ_of_lt (ht.closed_lt i hi)
  open_not_closed n e he := by
    cases insert_eq_some_iff.mp he with
    | inl hnew =>
      intro hclosed
      have hlt := ht.closed_lt e.id hclosed
      rw [hnew.2] at hlt
      exact absurd hlt (Nat.lt_irrefl _)
    | inr hold => exact ht.open_not_closed n e hold.2
  complete i hi := by
    cases Nat.lt_succ_iff_lt_or_eq.mp hi with
    | inr heq =>
      exact .inr ⟨number, { id := t.next, value := value }, insert_eq_some_iff.mpr (.inl ⟨rfl, rfl⟩),
        heq.symm⟩
    | inl hlt =>
      apply (ht.complete i hlt).imp_right
      rintro ⟨n, e, he, hid⟩
      have hn : n ≠ number := by
        rintro rfl
        exact Option.some_ne_none e (he.symm.trans hfree)
      exact ⟨n, e, insert_eq_some_iff.mpr (.inr ⟨hn, he⟩), hid⟩

/-- A changed resource keeps its identity. -/
theorem exists_of_modify {n : ℕ} {e : Entry α} (he : (t.modify number f).entries n = some e) :
    ∃ old, t.entries n = some old ∧ old.id = e.id ∧ (e.value = f old.value ∨ e.value = old.value) := by
  by_cases hn : n = number
  · subst hn
    simp only [modify, Function.update_self] at he
    obtain ⟨old, hold, rfl⟩ := Option.map_eq_some_iff.mp he
    exact ⟨old, hold, rfl, .inl rfl⟩
  · simp only [modify, Function.update_of_ne hn] at he
    exact ⟨e, he, rfl, .inr rfl⟩

/-- A changed resource stays open. -/
theorem exists_modify {n : ℕ} {old : Entry α} (hold : t.entries n = some old) :
    ∃ e, (t.modify number f).entries n = some e ∧ e.id = old.id := by
  by_cases hn : n = number
  · subst hn
    exact ⟨{ old with value := f old.value }, by simp [modify, hold], rfl⟩
  · exact ⟨old, by simp [modify, hn, hold], rfl⟩

/-- Changing a resource opens and closes none. -/
theorem Accounted.modify (ht : t.Accounted) : (t.modify number f).Accounted where
  lt n e he := by
    obtain ⟨old, hold, hid, -⟩ := exists_of_modify he
    exact hid ▸ ht.lt n old hold
  unique m n d e hd he hid := by
    obtain ⟨old, hold, hd, -⟩ := exists_of_modify hd
    obtain ⟨old', hold', he, -⟩ := exists_of_modify he
    exact ht.unique m n old old' hold hold' (hd.trans (hid.trans he.symm))
  nodup := ht.nodup
  closed_lt := ht.closed_lt
  open_not_closed n e he := by
    obtain ⟨old, hold, hid, -⟩ := exists_of_modify he
    exact hid ▸ ht.open_not_closed n old hold
  complete i hi := by
    apply (ht.complete i hi).imp_right
    rintro ⟨n, old, hold, rfl⟩
    obtain ⟨e, he, hid⟩ := exists_modify hold
    exact ⟨n, e, he, hid⟩

/-- What is open after closing a number was open under another one. -/
theorem remove_eq_some_iff {n : ℕ} {e : Entry α} :
    (t.remove number).entries n = some e ↔ n ≠ number ∧ t.entries n = some e := by
  by_cases hn : n = number
  · subst hn
    simp [remove]
  · simp [remove, hn]

/-- The identity under the number is closed. -/
theorem mem_closed_remove {i : ℕ} :
    i ∈ (t.remove number).closed ↔ i ∈ t.closed ∨ ∃ e, t.entries number = some e ∧ e.id = i := by
  simp [remove]

/-- Closing what is open under a number. -/
theorem Accounted.remove (ht : t.Accounted) : (t.remove number).Accounted where
  lt n e he := ht.lt n e (remove_eq_some_iff.mp he).2
  unique m n d e hd he hid :=
    ht.unique m n d e (remove_eq_some_iff.mp hd).2 (remove_eq_some_iff.mp he).2 hid
  nodup := by
    cases hentry : t.entries number with
    | none => simpa [Table.remove, hentry] using ht.nodup
    | some e =>
      have hnot := ht.open_not_closed number e hentry
      simp only [Table.remove, hentry, Option.map_some, Option.toList_some]
      rw [← List.concat_eq_append]
      exact (List.nodup_concat _ _).mpr ⟨hnot, ht.nodup⟩
  closed_lt i hi := by
    cases mem_closed_remove.mp hi with
    | inl hold => exact ht.closed_lt i hold
    | inr hnew =>
      obtain ⟨e, he, rfl⟩ := hnew
      exact ht.lt number e he
  open_not_closed n e he := by
    obtain ⟨hn, he⟩ := remove_eq_some_iff.mp he
    intro hclosed
    cases mem_closed_remove.mp hclosed with
    | inl hold => exact ht.open_not_closed n e he hold
    | inr hnew =>
      obtain ⟨d, hd, hid⟩ := hnew
      exact hn (ht.unique n number e d he hd hid.symm)
  complete i hi := by
    cases ht.complete i hi with
    | inl hclosed => exact .inl (mem_closed_remove.mpr (.inl hclosed))
    | inr hopen =>
      obtain ⟨n, e, he, rfl⟩ := hopen
      by_cases hn : n = number
      · exact .inl (mem_closed_remove.mpr (.inr ⟨e, hn ▸ he, rfl⟩))
      · exact .inr ⟨n, e, remove_eq_some_iff.mpr ⟨hn, he⟩, rfl⟩

/-- A number that stands for a resource keeps doing so while another free number is given out. -/
theorem Refers.insert {v : α} (hrefers : t.Refers h v) (hfree : t.entries number = none) :
    (t.insert number value).Refers h v := by
  have hn : h.number ≠ number := by
    rintro rfl
    exact Option.some_ne_none _ (hrefers.symm.trans hfree)
  exact insert_eq_some_iff.mpr (.inr ⟨hn, hrefers⟩)

/-- A number that stands for a resource keeps doing so while another one is closed. -/
theorem Refers.remove {v : α} (hrefers : t.Refers h v) (hn : h.number ≠ number) :
    (t.remove number).Refers h v :=
  remove_eq_some_iff.mpr ⟨hn, hrefers⟩

/-- A number that stands for a resource keeps doing so while another one is changed. -/
theorem Refers.modify {v : α} (hrefers : t.Refers h v) (hn : h.number ≠ number) :
    (t.modify number f).Refers h v := by
  simpa only [Refers, Table.modify, Function.update_of_ne hn] using hrefers

/-- The number itself stands for the changed resource. -/
theorem Refers.modify_self {v : α} (hrefers : t.Refers h v) :
    (t.modify h.number f).Refers h (f v) := by
  rw [Refers] at hrefers
  simp [Refers, Table.modify, hrefers]

end Table

end Handles
