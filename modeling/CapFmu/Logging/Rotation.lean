import CapFmu.Files.Rotation
import Mathlib.Algebra.Group.Nat.Defs
import Mathlib.Data.List.Induction

/-!
# The files of the log

The log is written to one file, which is rotated when it has grown to a size and when the program
starts: the five rotated files are renamed along, the oldest is lost. Renaming and opening are
taken to succeed, and a write to reach the disk as a whole or not at all. The file that is written
is number zero of the series, and a rotated file has the number in its name.
-/

namespace CapFmu

open Files

/-- The byte count to carry forward for the current file, and whether to rotate. -/
structure RotationState where
  bytesWritten : ℕ := 0
  rotate : Bool := false
  deriving DecidableEq

/-- Account for an attempted write, with a count of 64 bits. -/
def nextRotationState (writeOk : Bool) (bytesWritten lineSize maxLogBytes : ℕ) : RotationState :=
  if !writeOk then { bytesWritten := bytesWritten, rotate := false }
  else
    let total := (bytesWritten + lineSize) % 2 ^ 64
    { bytesWritten := total, rotate := maxLogBytes ≤ total }

/-- The rotated files that are kept. -/
def maxRotations : ℕ := 5

/-- The files of the log and what the logger knows of the one that it writes. -/
structure LogFiles where
  files : Series UInt8
  maxLogBytes : ℕ
  isOpen : Bool := false
  bytesWritten : ℕ := 0
  writeFailed : Bool := false

/-- A write that was attempted, and whether it succeeded. -/
structure LogWrite where
  line : List UInt8
  ok : Bool
  deriving DecidableEq

/-- What was written. -/
def writtenBytes (writes : List LogWrite) : List UInt8 :=
  (writes.filter LogWrite.ok).flatMap LogWrite.line

namespace LogFiles

/-- Rename the files along, the oldest first, and the current one last. -/
def rotate (files : Series UInt8) (rotationCount : ℕ) : Series UInt8 :=
  Series.moveIfExists 0 1
    ((List.range' 1 (rotationCount - 1)).reverse.foldl
      (fun files i => files.moveIfExists i (i + 1)) files)

/-- Rotate, and start with an empty file. -/
def openFresh (l : LogFiles) : LogFiles :=
  { l with
    files := Function.update (rotate l.files maxRotations) 0 (some [])
    isOpen := true
    bytesWritten := 0 }

/-- The log as the program starts, over the files of earlier starts. -/
def new (files : Series UInt8) (maxLogBytes : ℕ) : LogFiles :=
  openFresh { files := files, maxLogBytes := maxLogBytes }

/-- Write a line, and rotate once the file has reached the size. -/
def writeLine (l : LogFiles) (w : LogWrite) : LogFiles :=
  if !l.isOpen then l
  else
    let next := nextRotationState w.ok l.bytesWritten w.line.length l.maxLogBytes
    if !w.ok then { l with bytesWritten := next.bytesWritten, writeFailed := true }
    else
      let written := { l with
        files := Function.update l.files 0 (some (l.files.content 0 ++ w.line))
        bytesWritten := next.bytesWritten
        writeFailed := false }
      if next.rotate then written.openFresh else written

/-- Write line after line. -/
def writeLines (l : LogFiles) (writes : List LogWrite) : LogFiles := writes.foldl writeLine l

variable {l : LogFiles} {w : LogWrite}

/-- The renames are those of a rotation of the series. -/
theorem rotate_eq_shift (files : Series UInt8) (n : ℕ) :
    rotate files (n + 1) = Series.shift (n + 1) files := by
  induction n generalizing files with
  | zero => rfl
  | succ n ih =>
    rw [Series.shift, ← ih]
    unfold rotate
    rw [Nat.add_sub_cancel, Nat.add_sub_cancel, List.range'_concat, List.reverse_concat,
      List.foldl_cons, Nat.one_mul, Nat.add_comm 1 n]

/-- A fresh file loses at most the contents of the oldest. -/
theorem archive_eq_append_openFresh (l : LogFiles) :
    ∃ lost, (lost = [] ∨ lost = l.files.content maxRotations) ∧
      l.files.archive maxRotations = lost ++ l.openFresh.files.archive maxRotations := by
  obtain ⟨lost, hlost, harchive⟩ := Series.archive_eq_append_older_shift l.files 4
  refine ⟨lost, hlost, harchive.trans ?_⟩
  rw [openFresh, maxRotations, rotate_eq_shift, Series.archive_update_zero, List.append_nil]

/-- The count of a fresh file is that of its bytes. -/
theorem length_content_openFresh (l : LogFiles) : (l.openFresh.files.content 0).length = 0 := by
  simp [openFresh, Series.content]

/-- A failed write leaves the files and the byte count alone. -/
theorem writeLine_of_failed (hfailed : w.ok = false) :
    (l.writeLine w).files = l.files ∧ (l.writeLine w).bytesWritten = l.bytesWritten := by
  unfold writeLine
  split
  · exact ⟨rfl, rfl⟩
  · simp [hfailed, nextRotationState]

/-- The current file with a line appended. -/
def appended (l : LogFiles) (line : List UInt8) : Series UInt8 :=
  Function.update l.files 0 (some (l.files.content 0 ++ line))

/-- Appending a line to the current file appends it to all contents. -/
theorem archive_appended (l : LogFiles) (line : List UInt8) :
    (l.appended line).archive maxRotations = l.files.archive maxRotations ++ line := by
  rw [appended, Series.archive_update_zero, ← List.append_assoc, Series.archive]

/-- The older files do not change with the current one. -/
theorem content_appended (l : LogFiles) (line : List UInt8) {i : ℕ} (hi : i ≠ 0) :
    (l.appended line).content i = l.files.content i := by
  rw [Series.content, appended, Function.update_of_ne hi, Series.content]

/-- A line that is written reaches the files, all of which keep their contents in order, except
that the oldest may be lost where the count reaches the size. -/
theorem archive_append_eq_writeLine (hok : w.ok = true) (hopen : l.isOpen = true) :
    ∃ lost, (lost = [] ∨ lost = l.files.content maxRotations ∧
        l.maxLogBytes ≤ (l.bytesWritten + w.line.length) % 2 ^ 64) ∧
      l.files.archive maxRotations ++ w.line =
        lost ++ (l.writeLine w).files.archive maxRotations := by
  rw [← archive_appended]
  unfold writeLine
  simp only [hopen, hok, nextRotationState, Bool.not_true, Bool.false_eq_true, if_false,
    decide_eq_true_eq]
  split
  · next hfull =>
    obtain ⟨lost, hlost, harchive⟩ := archive_eq_append_openFresh { l with
      files := l.appended w.line
      bytesWritten := (l.bytesWritten + w.line.length) % 2 ^ 64
      writeFailed := false }
    refine ⟨lost, hlost.imp_right fun holdest => ⟨?_, hfull⟩, harchive⟩
    exact holdest.trans (l.content_appended w.line (by decide))
  · exact ⟨[], Or.inl rfl, rfl⟩

/-- What every log is that the program opened: it is open, and its count is that of the bytes in
the current file, in 64 bits. -/
structure Counts (l : LogFiles) : Prop where
  isOpen : l.isOpen = true
  bytesWritten : l.bytesWritten = (l.files.content 0).length % 2 ^ 64

/-- A fresh file is counted from nothing. -/
theorem counts_openFresh (l : LogFiles) : l.openFresh.Counts where
  isOpen := rfl
  bytesWritten := by rw [length_content_openFresh]; rfl

/-- Every write keeps the count. -/
theorem counts_writeLine (h : l.Counts) (w : LogWrite) : (l.writeLine w).Counts := by
  cases hok : w.ok with
  | false =>
    obtain ⟨hfiles, hbytes⟩ := writeLine_of_failed (l := l) hok
    refine ⟨?_, by rw [hfiles, hbytes]; exact h.bytesWritten⟩
    simp [writeLine, h.isOpen, hok]
  | true =>
    unfold writeLine
    simp only [h.isOpen, hok, nextRotationState, Bool.not_true, Bool.false_eq_true, if_false]
    split
    · exact counts_openFresh _
    · refine ⟨rfl, ?_⟩
      simp only [Series.content, Function.update_self, Option.getD_some, List.length_append]
      rw [h.bytesWritten, Series.content, Nat.mod_add_mod]

/-- One more line in a row of writes. -/
theorem writeLines_concat (l : LogFiles) (writes : List LogWrite) (w : LogWrite) :
    l.writeLines (writes ++ [w]) = (l.writeLines writes).writeLine w := List.foldl_concat ..

/-- Every sequence of writes keeps the count. -/
theorem counts_writeLines (h : l.Counts) (writes : List LogWrite) :
    (l.writeLines writes).Counts := by
  induction writes using List.reverseRecOn with
  | nil => exact h
  | append_singleton writes w ih =>
    rw [writeLines_concat]
    exact counts_writeLine ih w

/-- The bytes written grow by the line of one more successful write. -/
theorem writtenBytes_concat (writes : List LogWrite) (w : LogWrite) :
    writtenBytes (writes ++ [w]) = writtenBytes writes ++ if w.ok then w.line else [] := by
  unfold writtenBytes
  rw [List.filter_append, List.flatMap_append, List.filter_singleton]
  cases w.ok <;> simp

/-- From an open log on, what is in the files is the end of what was there and what was written. -/
theorem archive_writeLines_suffix (h : l.Counts) (writes : List LogWrite) :
    (l.writeLines writes).files.archive maxRotations <:+
      l.files.archive maxRotations ++ writtenBytes writes := by
  induction writes using List.reverseRecOn with
  | nil =>
    rw [writtenBytes, List.filter_nil, List.flatMap_nil, List.append_nil]
    exact List.suffix_refl _
  | append_singleton writes w ih =>
    rw [writeLines_concat, writtenBytes_concat, ← List.append_assoc]
    cases hok : w.ok with
    | false =>
      rw [(writeLine_of_failed hok).1, if_neg Bool.false_ne_true, List.append_nil]
      exact ih
    | true =>
      obtain ⟨lost, -, harchive⟩ :=
        archive_append_eq_writeLine hok (counts_writeLines h writes).isOpen
      have hkept : ((l.writeLines writes).writeLine w).files.archive maxRotations <:+
          (l.writeLines writes).files.archive maxRotations ++ w.line := ⟨lost, harchive.symm⟩
      rw [if_pos rfl]
      exact hkept.trans (List.suffix_append_self_iff.mpr ih)

/-- What retention promises. The program starts by opening a log over the files there are, and of
these at most the oldest is lost. Every line that is written afterwards is appended to the
contents of all files, of which again at most the oldest is lost, and only where the count of the
current file's bytes reaches the size. A failed write changes neither the files nor the count. So
what is in the files is always the end of what was there, with all rotated files there were, and
of the lines that were written. -/
structure Retains (files : Series UInt8) (maxLogBytes : ℕ) : Prop where
  started : ∃ lost, (lost = [] ∨ lost = files.content maxRotations) ∧
    files.archive maxRotations = lost ++ (new files maxLogBytes).files.archive maxRotations
  counted : ∀ writes : List LogWrite, ((new files maxLogBytes).writeLines writes).Counts
  written : ∀ (writes : List LogWrite) (w : LogWrite), w.ok = true →
    ∃ lost, (lost = [] ∨
        lost = ((new files maxLogBytes).writeLines writes).files.content maxRotations ∧
          maxLogBytes ≤ (((new files maxLogBytes).writeLines writes).bytesWritten +
            w.line.length) % 2 ^ 64) ∧
      ((new files maxLogBytes).writeLines writes).files.archive maxRotations ++ w.line =
        lost ++ ((new files maxLogBytes).writeLines (writes ++ [w])).files.archive maxRotations
  failed : ∀ (writes : List LogWrite) (w : LogWrite), w.ok = false →
    ((new files maxLogBytes).writeLines (writes ++ [w])).files =
        ((new files maxLogBytes).writeLines writes).files ∧
      ((new files maxLogBytes).writeLines (writes ++ [w])).bytesWritten =
        ((new files maxLogBytes).writeLines writes).bytesWritten
  suffix : ∀ (writes : List LogWrite) (k : ℕ),
    ((new files maxLogBytes).writeLines writes).files.archive maxRotations <:+
      files.archive (max k maxRotations) ++ writtenBytes writes

/-- The size a log is opened with stays. -/
theorem maxLogBytes_writeLines (l : LogFiles) (writes : List LogWrite) :
    (l.writeLines writes).maxLogBytes = l.maxLogBytes := by
  induction writes using List.reverseRecOn with
  | nil => rfl
  | append_singleton writes w ih =>
    rw [writeLines_concat, ← ih]
    unfold writeLine
    simp only [apply_ite LogFiles.maxLogBytes, openFresh, ite_self]

/-- Over whatever files there are as the program starts, for every size and every sequence of
writes, the log retains what it promises. -/
theorem log_retains (files : Series UInt8) (maxLogBytes : ℕ) : Retains files maxLogBytes := by
  have hstart : (new files maxLogBytes).Counts := counts_openFresh _
  have hstarted := archive_eq_append_openFresh { files := files, maxLogBytes := maxLogBytes }
  constructor
  · exact hstarted
  · exact counts_writeLines hstart
  · intro writes w hok
    have hwritten := archive_append_eq_writeLine hok (counts_writeLines hstart writes).isOpen
    rwa [maxLogBytes_writeLines, ← writeLines_concat] at hwritten
  · intro writes w hfailed
    rw [writeLines_concat]
    exact writeLine_of_failed hfailed
  · intro writes k
    obtain ⟨lost, -, harchive⟩ := hstarted
    have hkept : (new files maxLogBytes).files.archive maxRotations <:+
        files.archive (max k maxRotations) :=
      List.IsSuffix.trans ⟨lost, harchive.symm⟩
        (files.archive_suffix (Nat.le_max_right k maxRotations))
    exact (archive_writeLines_suffix hstart writes).trans
      (List.suffix_append_self_iff.mpr hkept)

end LogFiles

end CapFmu
