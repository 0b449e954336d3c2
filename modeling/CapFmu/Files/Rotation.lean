import Mathlib.Data.List.Basic
import Mathlib.Logic.Function.Basic

/-!
# Rotation of a numbered series of files

The files of a series are numbered from the one that is written, which is zero, to the oldest. A
rotation renames every file that exists to the next number, the highest first, so that none is
overwritten before it has moved. Only the contents of the last file can be lost, and only to a
file that takes its place.
-/

namespace Files

variable {β : Type*}

/-- The contents of the files of a series that exist. -/
abbrev Series (β : Type*) := ℕ → Option (List β)

namespace Series

/-- The contents of a file, where a missing file has none. -/
def content (files : Series β) (i : ℕ) : List β := (files i).getD []

/-- Rename a file that exists, over the one that has the name. -/
def moveIfExists (src dst : ℕ) (files : Series β) : Series β :=
  if (files src).isSome then
    Function.update (Function.update files src none) dst (files src)
  else files

/-- Rename the files below a number to the next number each, the highest first. -/
def shift : ℕ → Series β → Series β
  | 0, files => files
  | n + 1, files => shift n (files.moveIfExists n (n + 1))

/-- The contents of the files from a number down to the first after the one that is written. -/
def older (files : Series β) : ℕ → List β
  | 0 => []
  | n + 1 => files.content (n + 1) ++ older files n

/-- All contents from a number on, the oldest first. -/
def archive (files : Series β) (n : ℕ) : List β := files.older n ++ files.content 0

variable {files : Series β} {n i : ℕ}

/-- A file that is not renamed nor replaced stays. -/
theorem moveIfExists_of_ne {src dst : ℕ} (hsrc : i ≠ src) (hdst : i ≠ dst) :
    files.moveIfExists src dst i = files i := by
  unfold moveIfExists
  split
  · rw [Function.update_of_ne hdst, Function.update_of_ne hsrc]
  · rfl

/-- The name of a renamed file is free. -/
theorem moveIfExists_src {src dst : ℕ} (hne : src ≠ dst) :
    files.moveIfExists src dst src = none := by
  unfold moveIfExists
  split
  · rw [Function.update_of_ne hne, Function.update_self]
  · next hmissing => exact Option.not_isSome_iff_eq_none.mp hmissing

/-- The file takes the other's name. -/
theorem moveIfExists_dst {src dst : ℕ} :
    files.moveIfExists src dst dst = (files src).or (files dst) := by
  unfold moveIfExists
  split
  · next hexists =>
    obtain ⟨c, hc⟩ := Option.isSome_iff_exists.mp hexists
    rw [Function.update_self, hc, Option.some_or]
  · next hmissing => rw [Option.not_isSome_iff_eq_none.mp hmissing, Option.none_or]

/-- A rotation leaves the files above its last number alone. -/
theorem shift_of_gt (h : n < i) : shift n files i = files i := by
  induction n generalizing files with
  | zero => rfl
  | succ n ih =>
    rw [shift, ih (by omega)]
    exact moveIfExists_of_ne (by omega) (by omega)

/-- The last file gives way to the one before it, if that exists. -/
theorem shift_last (files : Series β) (n : ℕ) :
    shift (n + 1) files (n + 1) = (files n).or (files (n + 1)) := by
  rw [shift, shift_of_gt (Nat.lt_succ_self n)]
  exact moveIfExists_dst

/-- Every other file is the one before it. -/
theorem shift_succ (h : i + 1 < n) : shift n files (i + 1) = files i := by
  induction n generalizing files with
  | zero => exact absurd h (Nat.not_lt_zero _)
  | succ n ih =>
    rw [shift]
    by_cases hlt : i + 1 < n
    · rw [ih hlt]
      exact moveIfExists_of_ne (by omega) (by omega)
    · obtain rfl : n = i + 1 := by omega
      rw [shift_last, moveIfExists_src (by omega), moveIfExists_of_ne (by omega) (by omega)]
      exact Option.or_none

/-- The older contents are read from the files with a number from one on. -/
theorem older_congr {others : Series β} (h : ∀ j, 1 ≤ j → files j = others j) (n : ℕ) :
    files.older n = others.older n := by
  induction n with
  | zero => rfl
  | succ n ih => rw [older, older, ih, content, content, h (n + 1) (by omega)]

/-- Below the last file a rotation makes all contents the older ones. -/
theorem older_shift (h : i + 1 < n) : (shift n files).older (i + 1) = files.archive i := by
  induction i with
  | zero =>
    rw [older, older, content, shift_succ h, List.append_nil]
    rfl
  | succ i ih =>
    rw [older, ih (by omega), content, shift_succ h, archive, archive, older, List.append_assoc]
    rfl

/-- A rotation loses at most the contents of the last file, and makes the rest the older ones. -/
theorem archive_eq_append_older_shift (files : Series β) (n : ℕ) :
    ∃ lost, (lost = [] ∨ lost = files.content (n + 1)) ∧
      files.archive (n + 1) = lost ++ (shift (n + 1) files).older (n + 1) := by
  have hsplit : (shift (n + 1) files).older (n + 1) =
      ((files n).or (files (n + 1))).getD [] ++ (shift (n + 1) files).older n := by
    rw [older, content, shift_last]
  have hrest : files.older n ++ files.content 0 =
      files.content n ++ (shift (n + 1) files).older n := by
    cases n with
    | zero => rw [older, older, List.nil_append, List.append_nil]
    | succ n => rw [older_shift (Nat.lt_succ_self _), older, List.append_assoc, archive]
  rw [archive, older, List.append_assoc, hrest, hsplit]
  cases hlast : files n with
  | none =>
    refine ⟨[], Or.inl rfl, ?_⟩
    rw [Option.none_or, content, content, hlast]
    rfl
  | some c =>
    refine ⟨files.content (n + 1), Or.inr rfl, ?_⟩
    rw [Option.some_or, content, content, hlast]

/-- Only the file that is written is replaced. -/
theorem archive_update_zero (files : Series β) (c : List β) (n : ℕ) :
    archive (Function.update files 0 (some c)) n = files.older n ++ c := by
  have holder : older (Function.update files 0 (some c)) n = files.older n := by
    apply older_congr
    intro j hj
    exact Function.update_of_ne (Nat.one_le_iff_ne_zero.mp hj) _ _
  rw [archive, holder, content, Function.update_self, Option.getD_some]

/-- From a higher number on there are more contents, before the others. -/
theorem archive_suffix (files : Series β) {m : ℕ} (h : n ≤ m) :
    files.archive n <:+ files.archive m := by
  induction m with
  | zero =>
    obtain rfl := Nat.le_zero.mp h
    exact List.suffix_refl _
  | succ m ih =>
    obtain rfl | hlt := Nat.eq_or_lt_of_le h
    · exact List.suffix_refl _
    · have hnext : files.archive m <:+ files.archive (m + 1) := by
        rw [archive, archive, older, List.append_assoc]
        exact List.suffix_append _ _
      exact (ih (Nat.le_of_lt_succ hlt)).trans hnext

end Series

end Files
