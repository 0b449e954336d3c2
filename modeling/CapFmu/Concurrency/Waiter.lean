import Mathlib.Logic.Basic

/-!
# Waiting on a condition variable

A thread that waits for a predicate evaluates it while it holds a mutex, and where it finds it
false blocks and gives the mutex up in one. Between the two it still holds the mutex. Other
threads make the predicate true and wake the waiter afterwards. A notification that comes before
the waiter has blocked is lost, so they have to be through the mutex between the change and the
notification.

A waiter is attended when the predicate is false or somebody is still to wake it: while it holds
the mutex, somebody who has yet to be through the mutex, and once it has blocked, anybody. No step
of either side leaves a waiter unattended.
-/

namespace Concurrency

/-- Where a waiting thread is: about to take the mutex, between finding the predicate false and
blocking, with the mutex held, or blocked. -/
inductive Waiter
  | awake
  | checked
  | blocked
  deriving DecidableEq, Repr

/-- What a notification does to a waiter, and a wake-up without one. -/
def Waiter.wake : Waiter → Waiter
  | blocked => awake
  | awake => awake
  | checked => checked

/-- Where the predicate is true, a waiter that still holds the mutex will be woken by somebody who
has yet to pass the mutex, and a blocked one by them or by somebody who has only the notification
left. -/
structure Attended (w : Waiter) (ready toPass toNotify : Prop) : Prop where
  checked : w = .checked → ready → toPass
  blocked : w = .blocked → ready → toPass ∨ toNotify

variable {w : Waiter} {ready ready' toPass toPass' toNotify toNotify' : Prop}

/-- A waiter that does not wait needs nobody. -/
theorem attended_awake : Attended .awake ready toPass toNotify := by
  constructor <;> intro hw <;> cases hw

/-- The waiter holds the mutex only where it has found the predicate false. -/
theorem attended_checked (h : ¬ready) : Attended .checked ready toPass toNotify :=
  ⟨fun _ hready => absurd hready h, fun _ hready => absurd hready h⟩

/-- Whoever made the predicate true without the mutex has yet to pass it. -/
theorem attended_of_toPass (h : toPass) : Attended w ready toPass toNotify :=
  ⟨fun _ _ => h, fun _ _ => Or.inl h⟩

/-- Whoever was in the mutex met no waiter between its check and its block. -/
theorem attended_of_section (hfree : w ≠ .checked) (h : toNotify) :
    Attended w ready toPass toNotify :=
  ⟨fun hchecked => absurd hchecked hfree, fun _ _ => Or.inr h⟩

namespace Attended

/-- The waiter blocks. -/
theorem block (h : Attended .checked ready toPass toNotify) :
    Attended .blocked ready toPass toNotify where
  checked hchecked := by cases hchecked
  blocked _ hready := Or.inl (h.checked rfl hready)

/-- Nothing changes for the worse. -/
theorem mono (h : Attended w ready toPass toNotify) (hready : ready' → ready)
    (hpass : toPass → toPass') (hnotify : toNotify → toNotify') :
    Attended w ready' toPass' toNotify' where
  checked hchecked hready' := hpass (h.checked hchecked (hready hready'))
  blocked hblocked hready' := (h.blocked hblocked (hready hready')).imp hpass hnotify

/-- A notification wakes the waiter or finds it holding the mutex. -/
theorem wake (h : Attended w ready toPass toNotify) :
    Attended w.wake ready toPass toNotify' := by
  cases w with
  | awake | blocked => exact attended_awake
  | checked =>
    constructor
    · exact h.checked
    · intro hblocked
      cases hblocked

/-- Where nobody is left to wake it, a blocked waiter has nothing to wake up for. -/
theorem not_ready (h : Attended .blocked ready toPass toNotify) (hpass : ¬toPass)
    (hnotify : ¬toNotify) : ¬ready := by
  intro hready
  exact (h.blocked rfl hready).elim hpass hnotify

end Attended

end Concurrency
