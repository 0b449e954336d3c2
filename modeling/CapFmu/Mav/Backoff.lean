import CapFmu.Mav.Link

/-!
# The backoff of the reconnector

Every dial of the reconnector is counted, and the wait before the next one grows with the count,
up to half a minute. The count has 16 bits and does not stop at its bound: a dial that overflows
it makes the reconnector as eager as a connect does.
-/

namespace CapFmu

open Transition

/-- Whether a step connects if it dials. -/
def LinkLabel.connects : LinkLabel → Bool
  | .connect dials | .attemptReconnect dials => dials
  | _ => false

namespace MavLink

/-- The milliseconds since the last dial that the next one has to wait for. -/
def requiredWaitMs (s : MavLink) : ℕ := retryDelayMs s.retryCount

/-- Whether a step is a dial of the reconnector. -/
def redials (s : MavLink) : LinkLabel → Bool
  | .attemptReconnect _ =>
    decide (s.closeBroken.fd = none ∧ s.requiredWaitMs < s.clock - s.lastTried)
  | _ => false

/-- After a dial of the reconnector, note the wait that the next one requires. -/
def recordWait (waits : List ℕ) (s : MavLink) (e : LinkLabel) : List ℕ :=
  if s.redials e then waits ++ ((s.step e).map requiredWaitMs).toList else waits

/-- The waits required after the dials of the reconnector in a run. -/
def requiredWaits (s : MavLink) (es : List LinkLabel) : List ℕ := observe step recordWait [] s es

/-- The dials of the reconnector in a run. -/
def dialCount (s : MavLink) (es : List LinkLabel) : ℕ :=
  observe step (fun n s e => if s.redials e then n + 1 else n) 0 s es

/-- From the wait that is required before them on, the waits never decrease, and from the fifth
dial on they are half a minute. -/
structure BacksOff (start : ℕ) (waits : List ℕ) : Prop where
  sorted : (start :: waits).Pairwise (· ≤ ·)
  settled : ∀ wait ∈ waits.drop 4, wait = 30000

/-- The waits after `n` dials, as the counter counts them from a count on. -/
def countedWaits (start n : ℕ) : List ℕ :=
  (List.range n).map fun i => retryDelayMs ((start + i + 1) % 2 ^ 16)

/-- The dials recorded are the dials counted from a count on. -/
def Counted (start : ℕ) (waits : List ℕ) (s : MavLink) : Prop :=
  waits = countedWaits start waits.length ∧ s.retryCount = (start + waits.length) % 2 ^ 16

section Delay

/-- After the first five dials the delay is half a minute. -/
theorem retryDelayMs_of_le {n : ℕ} (h : 5 ≤ n) : retryDelayMs n = 30000 := by
  unfold retryDelayMs
  split <;> omega

/-- The delay is never longer than half a minute. -/
theorem retryDelayMs_le (n : ℕ) : retryDelayMs n ≤ 30000 := by
  unfold retryDelayMs
  split <;> omega

/-- The delay grows with the count. -/
theorem retryDelayMs_mono : Monotone retryDelayMs := by
  apply monotone_nat_of_le_succ
  intro n
  by_cases hfive : 5 ≤ n
  · rw [retryDelayMs_of_le hfive, retryDelayMs_of_le (Nat.le_succ_of_le hfive)]
  · have hsmall : ∀ m < 5, retryDelayMs m ≤ retryDelayMs (m + 1) := by decide
    exact hsmall n (by omega)

/-- One more dial adds the delay of its count to the waits. -/
theorem countedWaits_succ (start n : ℕ) : countedWaits start (n + 1) =
    countedWaits start n ++ [retryDelayMs ((start + n + 1) % 2 ^ 16)] := by
  simp [countedWaits, List.range_succ]

/-- There are as many waits as dials. -/
theorem length_countedWaits (start n : ℕ) : (countedWaits start n).length = n := by
  simp [countedWaits]

/-- Counts below the bound wait as long as a count without one would. -/
theorem countedWaits_of_lt {start n : ℕ} (h : start + n < 2 ^ 16) :
    countedWaits start n = (List.range n).map fun i => retryDelayMs (start + i + 1) := by
  apply List.map_congr_left
  intro i hi
  have hlt := List.mem_range.mp hi
  rw [Nat.mod_eq_of_lt (by omega)]

/-- The counted waits back off exactly as long as the counter does not overflow. -/
theorem backsOff_countedWaits_iff {start : ℕ} (hstart : start < 2 ^ 16) (n : ℕ) :
    BacksOff (retryDelayMs start) (countedWaits start n) ↔ start + n < 2 ^ 16 := by
  constructor
  · intro h
    by_contra hle
    -- the dial that overflows the counter makes the wait a second
    have hover : retryDelayMs 0 ∈ countedWaits start n := by
      rw [countedWaits, List.mem_map]
      refine ⟨2 ^ 16 - 1 - start, List.mem_range.mpr (by omega), ?_⟩
      rw [show start + (2 ^ 16 - 1 - start) + 1 = 2 ^ 16 by omega, Nat.mod_self]
    have hfirst : retryDelayMs start ≤ retryDelayMs 0 := List.rel_of_pairwise_cons h.sorted hover
    have hzero : start = 0 := by
      by_contra hne
      have hone : retryDelayMs 1 ≤ retryDelayMs start :=
        retryDelayMs_mono (Nat.one_le_iff_ne_zero.mpr hne)
      exact absurd (hone.trans hfirst) (by decide)
    have hmem : retryDelayMs 0 ∈ (countedWaits start n).drop 4 := by
      rw [List.mem_drop_iff_getElem]
      refine ⟨65531, by rw [length_countedWaits]; omega, ?_⟩
      simp [countedWaits, hzero]
    exact absurd (h.settled _ hmem) (by decide)
  · intro hlt
    rw [countedWaits_of_lt hlt]
    constructor
    · rw [List.pairwise_cons]
      constructor
      · intro wait hwait
        obtain ⟨i, -, rfl⟩ := List.mem_map.mp hwait
        exact retryDelayMs_mono (by omega)
      · apply List.Pairwise.map _ _ (List.pairwise_lt_range (n := n))
        intro i j hij
        exact retryDelayMs_mono (by omega)
    · intro wait hwait
      rw [← List.map_drop, List.mem_map] at hwait
      obtain ⟨i, hi, rfl⟩ := hwait
      apply retryDelayMs_of_le
      rw [List.mem_drop_iff_getElem] at hi
      obtain ⟨j, hj, hget⟩ := hi
      rw [List.getElem_range] at hget
      omega

end Delay

section Run

variable {s t u : MavLink} {e : LinkLabel} {es : List LinkLabel} {waits : List ℕ}

/-- Closing a broken socket leaves the backoff alone. -/
theorem closeBroken_frame (s : MavLink) :
    s.closeBroken.retryCount = s.retryCount ∧ s.closeBroken.clock = s.clock ∧
      s.closeBroken.lastTried = s.lastTried := by
  unfold closeBroken
  split <;> exact ⟨rfl, rfl, rfl⟩

/-- A pass that finds the next dial due dials, and counts the dial first. -/
theorem attemptReconnect_of_redials {dials : Bool}
    (h : s.redials (.attemptReconnect dials) = true) :
    s.attemptReconnect dials = connectToMav
      { s.closeBroken with retryCount := (s.closeBroken.retryCount + 1) % 2 ^ 16 } dials := by
  obtain ⟨hcount, hclock, htried⟩ := closeBroken_frame s
  apply if_pos
  rw [hcount, hclock, htried]
  exact of_decide_eq_true h

/-- A pass that finds no dial due only closes a broken socket. -/
theorem attemptReconnect_of_not_redials {dials : Bool}
    (h : s.redials (.attemptReconnect dials) = false) :
    s.attemptReconnect dials = s.closeBroken := by
  obtain ⟨hcount, hclock, htried⟩ := closeBroken_frame s
  apply if_neg
  rw [hcount, hclock, htried]
  exact of_decide_eq_false h

/-- A report leaves the backoff alone. -/
theorem retryCount_report (s : MavLink) : s.report.retryCount = s.retryCount := by
  unfold report
  split <;> rfl

/-- A step that does not connect counts up by one if it is a dial of the reconnector. -/
theorem retryCount_step (hfails : e.connects = false) (hstep : s.step e = some t) :
    t.retryCount = if s.redials e then (s.retryCount + 1) % 2 ^ 16 else s.retryCount := by
  cases e with
  | attemptReconnect dials =>
    obtain rfl : dials = false := hfails
    obtain rfl := Option.some.inj hstep
    by_cases hdue : s.redials (.attemptReconnect false) = true
    · rw [attemptReconnect_of_redials hdue, if_pos hdue, (closeBroken_frame s).1.symm]
      rfl
    · rw [attemptReconnect_of_not_redials (Bool.eq_false_iff.mpr hdue), if_neg hdue]
      exact (closeBroken_frame s).1
  | connect dials =>
    obtain rfl : dials = false := hfails
    obtain ⟨-, hconnect⟩ := Option.ite_none_right_eq_some.mp hstep
    cases hconnect
    rfl
  | heartbeat =>
    obtain ⟨-, hheartbeat⟩ := Option.ite_none_right_eq_some.mp hstep
    cases hheartbeat
    rfl
  | tick =>
    cases hstep
    exact retryCount_report s
  | event e => cases e <;> cases hstep <;> rfl
  | dispatch =>
    cases hqueue : s.queue with
    | nil => simp [step, hqueue] at hstep
    | cons status rest =>
      simp only [step, hqueue, Option.some.injEq] at hstep
      subst hstep
      rfl
  | wait ms | disconnect | fault =>
    cases hstep
    rfl

/-- A step records the wait that its dial requires, and nothing without one. -/
theorem recordWait_step (hstep : s.step e = some t) :
    recordWait waits s e = if s.redials e then waits ++ [t.requiredWaitMs] else waits := by
  unfold recordWait
  rw [hstep]
  rfl

/-- There is a wait for every dial. -/
theorem length_requiredWaits (s : MavLink) (es : List LinkLabel) :
    (requiredWaits s es).length = s.dialCount es := by
  apply map_observe List.length
  intro waits s e t hstep
  rw [recordWait_step hstep]
  split
  · rw [List.length_append, List.length_singleton]
  · rfl

/-- A step that does not connect keeps the count of the dials. -/
theorem counted_step {start : ℕ} (h : Counted start waits s) (hfails : e.connects = false)
    (hstep : s.step e = some t) : Counted start (recordWait waits s e) t := by
  obtain ⟨hwaits, hcount⟩ := h
  have hnext := retryCount_step hfails hstep
  rw [recordWait_step hstep]
  split at hnext
  · next hdial =>
    have hcounted : t.retryCount = (start + waits.length + 1) % 2 ^ 16 := by
      rw [hnext, hcount]
      omega
    rw [if_pos hdial]
    unfold Counted
    rw [List.length_append, List.length_singleton, countedWaits_succ, ← hwaits, requiredWaitMs,
      hcounted]
    exact ⟨rfl, rfl⟩
  · next hdial =>
    rw [if_neg hdial]
    exact ⟨hwaits, hnext.trans hcount⟩

/-- In a run without a connect the recorded waits are those of the dials counted. -/
theorem requiredWaits_eq (hcount : s.retryCount < 2 ^ 16) (hfails : ∀ e ∈ es, e.connects = false)
    (hrun : run step s es = some t) :
    requiredWaits s es = countedWaits s.retryCount (s.dialCount es) := by
  have hstart : Counted s.retryCount [] s := ⟨rfl, (Nat.mod_eq_of_lt hcount).symm⟩
  have hcounted : Counted s.retryCount (requiredWaits s es) t :=
    invariant_of_observe (Counted s.retryCount) (fun _ _ _ _ h hfails => counted_step h hfails)
      hstart (along_of_forall_mem hfails) hrun
  rw [← length_requiredWaits]
  exact hcounted.1

/-- Over any number of failed dials the wait required before the next one never decreases, and is
half a minute after the first five, exactly when the dials counted since the last connect stay
below 65536; and as long as the count has not reached its bound, only a connect makes the wait
shorter. -/
theorem backsOff_iff (hcount : s.retryCount < 2 ^ 16) (hfails : ∀ e ∈ es, e.connects = false)
    (hrun : run step s es = some t) :
    (BacksOff s.requiredWaitMs (requiredWaits s es) ↔ s.retryCount + s.dialCount es < 2 ^ 16) ∧
      ∀ (u v : MavLink) (e : LinkLabel), u.retryCount < 2 ^ 16 - 1 → u.step e = some v →
        v.requiredWaitMs < u.requiredWaitMs → e.connects = true := by
  constructor
  · rw [requiredWaits_eq hcount hfails hrun]
    exact backsOff_countedWaits_iff hcount _
  · intro u v e hbound hstep hlt
    by_contra hconnects
    have hnext := retryCount_step (Bool.eq_false_iff.mpr hconnects) hstep
    have hle : u.retryCount ≤ v.retryCount := by
      split at hnext <;> omega
    exact absurd hlt (Nat.not_lt.mpr (retryDelayMs_mono hle))

/-- Half a minute passes, and the reconnector dials in vain. -/
def failedRound : List LinkLabel := [.wait 30001, .attemptReconnect false]

/-- The first six dials of a run that never connects back off. -/
theorem sixFailures_back_off :
    BacksOff 1000 (requiredWaits { clock := 0, machine := {} }
      (List.replicate 6 failedRound).flatten) := by
  have hrun : run step { clock := 0, machine := {} } (List.replicate 6 failedRound).flatten =
      some { clock := 180006, machine := {}, retryCount := 6, lastTried := 180006 } := rfl
  exact (backsOff_iff (by decide) (by decide) hrun).1.mpr (by decide)

/-- Round after round, with no socket open, the reconnector dials. -/
theorem run_failedRounds (n count : ℕ) (hclosed : s.fd = none) (hwhole : s.broken = false)
    (htried : s.lastTried ≤ s.clock) :
    ∃ t, run step s (List.replicate n failedRound).flatten = some t ∧
      observe step (fun n s e => if redials s e then n + 1 else n) count s
        (List.replicate n failedRound).flatten = count + n := by
  induction n generalizing s count with
  | zero => exact ⟨s, rfl, rfl⟩
  | succ n ih =>
    have hclose : closeBroken { s with clock := s.clock + 30001 } =
        { s with clock := s.clock + 30001 } := by simp [closeBroken, hwhole]
    have hdue : redials { s with clock := s.clock + 30001 } (.attemptReconnect false) = true := by
      have hdelay := retryDelayMs_le s.retryCount
      apply decide_eq_true
      rw [hclose]
      exact ⟨hclosed, by simp only [requiredWaitMs]; omega⟩
    have hdial := attemptReconnect_of_redials hdue
    rw [hclose] at hdial
    have hrecord : (if redials { s with clock := s.clock + 30001 } (.attemptReconnect false) then
        count + 1 else count) = count + 1 := if_pos hdue
    obtain ⟨t, hrun, hcount⟩ := ih
      (s := attemptReconnect { s with clock := s.clock + 30001 } false) (count + 1)
      (by rw [hdial]; exact hclosed) (by rw [hdial]; exact hwhole)
      (by rw [hdial]; exact Nat.le_refl _)
    rw [← hrecord] at hcount
    exact ⟨t, hrun, hcount.trans (by omega)⟩

/-- After 65536 failed dials the reconnector waits for a second only. -/
theorem countOverflow_shortens_wait :
    ¬ ∀ (s t : MavLink) (es : List LinkLabel), s.retryCount < 2 ^ 16 →
      (∀ e ∈ es, e.connects = false) → run step s es = some t →
      BacksOff s.requiredWaitMs (requiredWaits s es) := by
  intro h
  obtain ⟨t, hrun, hdials⟩ := run_failedRounds (s := { clock := 0, machine := {} })
    (2 ^ 16) 0 rfl rfl (Nat.le_refl 0)
  have hfails : ∀ e ∈ (List.replicate (2 ^ 16) failedRound).flatten, e.connects = false := by
    intro e he
    obtain ⟨round, hround, he⟩ := List.mem_flatten.mp he
    obtain rfl := List.eq_of_mem_replicate hround
    exact (by decide : ∀ e ∈ failedRound, e.connects = false) e he
  have hbacks := h _ t _ (by decide) hfails hrun
  rw [requiredWaits_eq (by decide) hfails hrun, requiredWaitMs,
    backsOff_countedWaits_iff (by decide), dialCount, hdials] at hbacks
  exact absurd hbacks (by decide)

end Run

end MavLink

end CapFmu
