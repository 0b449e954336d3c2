import CapFmu.Core.Types
import CapFmu.Signal.RateLimit
import Mathlib.Data.List.Infix

/-!
# The throttle of the ADS-B rebroadcast

The event loop forwards the reports of other aircraft to the autopilot, at most one a second
for each ICAO address. It keeps the time of the last forward by address, and after each report
drops the times that can no longer hold a report back. The clock is 64 bits wide and read once
for each report.
-/

namespace CapFmu

open Signal

/-- A report of another aircraft, with the clock read as it is dispatched. -/
structure OtherAircraftReport where
  pd : PeerPosition
  nowMs : UInt64
  deriving DecidableEq

namespace OtherAircraftReport

/-- Whether a report is of another aircraft than the asset, at a valid position. -/
def admitted (oar : OtherAircraftReport) (assetName : String) : Bool :=
  oar.pd.callSign ≠ assetName && oar.pd.position.isValid

/-- The address a report is throttled under. -/
def address (oar : OtherAircraftReport) : UInt32 := oar.pd.icaoAddress

/-- When a report was dispatched. -/
def time (oar : OtherAircraftReport) : ℕ := oar.nowMs.toNat

end OtherAircraftReport

/-- Milliseconds between two forwards for one address. -/
def adsbForwardIntervalMs : UInt64 := 1000

/-- The part of the event loop that rebroadcasts, and the reports it forwarded. -/
structure EventDispatcher where
  assetName : String
  adsbLastForwardedMs : UInt32 → Option UInt64 := fun _ => none
  forwarded : List OtherAircraftReport := []

namespace EventDispatcher

/-- Drop the times that would permit the next forward. -/
def pruneAdsbThrottle (d : EventDispatcher) (now : UInt64) : EventDispatcher :=
  { d with adsbLastForwardedMs := fun icao =>
      (d.adsbLastForwardedMs icao).filter fun last => !decide (adsbForwardIntervalMs ≤ now - last) }

/-- Forward a report if its address was not forwarded within the last second. -/
def sendWhenDue (d : EventDispatcher) (oar : OtherAircraftReport) : EventDispatcher :=
  if (d.adsbLastForwardedMs oar.pd.icaoAddress).all fun last =>
      adsbForwardIntervalMs ≤ oar.nowMs - last then
    { d with
      forwarded := d.forwarded ++ [oar]
      adsbLastForwardedMs :=
        Function.update d.adsbLastForwardedMs oar.pd.icaoAddress (some oar.nowMs) }
  else d

/-- Dispatch a report. -/
def dispatch (d : EventDispatcher) (oar : OtherAircraftReport) : EventDispatcher :=
  if oar.admitted d.assetName then (d.sendWhenDue oar).pruneAdsbThrottle oar.nowMs else d

/-- Dispatch a report without dropping anything. -/
def dispatchUnpruned (d : EventDispatcher) (oar : OtherAircraftReport) : EventDispatcher :=
  if oar.admitted d.assetName then d.sendWhenDue oar else d

/-- The dispatcher after a sequence of reports. -/
def rebroadcast (assetName : String) (reports : List OtherAircraftReport) : EventDispatcher :=
  reports.foldl dispatch { assetName := assetName }

/-- A dispatcher that drops nothing, after a sequence of reports. -/
def rebroadcastUnpruned (assetName : String) (reports : List OtherAircraftReport) :
    EventDispatcher :=
  reports.foldl dispatchUnpruned { assetName := assetName }

/-- The milliseconds of the forwards that are remembered. -/
def forwardTimes (d : EventDispatcher) (icao : UInt32) : Option ℕ :=
  (d.adsbLastForwardedMs icao).map UInt64.toNat

/-- The reports of an address were all forwarded long enough ago. -/
abbrev AddressDue (forwarded : List OtherAircraftReport) (icao : UInt32) (now : ℕ) : Prop :=
  Due OtherAircraftReport.address OtherAircraftReport.time 1000 forwarded icao now

/-- From now on the dispatcher remembers what its forwards hold back. -/
structure Throttles (d : EventDispatcher) (now : ℕ) : Prop where
  remembers : Remembers OtherAircraftReport.address OtherAircraftReport.time 1000 d.forwarded
    d.forwardTimes now
  past : ∀ icao, ∀ t ∈ d.forwardTimes icao, t ≤ now
  spaced : Spaced OtherAircraftReport.address OtherAircraftReport.time 1000 d.forwarded

/-- What holds of a sequence of reports: the pruned and the unpruned throttle forward the same,
one address at most once a second and always once it is due, and after each admitted report the
addresses forwarded within the last second are remembered and no others. -/
structure Rebroadcasts (assetName : String) (reports : List OtherAircraftReport) : Prop where
  same_unpruned : (rebroadcast assetName reports).forwarded =
    (rebroadcastUnpruned assetName reports).forwarded
  spaced : Spaced OtherAircraftReport.address OtherAircraftReport.time 1000
    (rebroadcast assetName reports).forwarded
  forwarded_of_due : ∀ before oar, before ++ [oar] <+: reports → oar.admitted assetName = true →
    AddressDue (rebroadcast assetName before).forwarded oar.address oar.time →
    (rebroadcast assetName (before ++ [oar])).forwarded =
      (rebroadcast assetName before).forwarded ++ [oar]
  recent_iff : ∀ before oar, before ++ [oar] <+: reports → oar.admitted assetName = true →
    ∀ icao, ((rebroadcast assetName (before ++ [oar])).adsbLastForwardedMs icao).isSome = true ↔
      ∃ sent ∈ (rebroadcast assetName (before ++ [oar])).forwarded,
        sent.address = icao ∧ oar.time < sent.time + 1000

/-- The interval has passed on the 64-bit clock when it has passed on the numbers. -/
theorem interval_le_sub_iff {now last : UInt64} (h : last.toNat ≤ now.toNat) :
    adsbForwardIntervalMs ≤ now - last ↔ last.toNat + 1000 ≤ now.toNat := by
  rw [UInt64.le_iff_toNat_le, UInt64.toNat_sub_of_le _ _ (UInt64.le_iff_toNat_le.mpr h)]
  change 1000 ≤ _ ↔ _
  omega

section Step

variable {d : EventDispatcher} {oar : OtherAircraftReport} {now : ℕ}

/-- Before the first report nothing is held back. -/
theorem throttles_init (assetName : String) (now : ℕ) :
    Throttles { assetName := assetName } now where
  remembers := remembers_nil now
  past := by simp [forwardTimes]
  spaced := List.Pairwise.nil

/-- Time passes. -/
theorem Throttles.later {after : ℕ} (h : d.Throttles now) (hle : now ≤ after) :
    d.Throttles after where
  remembers := h.remembers.later hle
  past := fun icao t ht => (h.past icao t ht).trans hle
  spaced := h.spaced

/-- The dispatcher finds a report due when it is. -/
theorem Throttles.due_iff (h : d.Throttles oar.time) :
    ((d.adsbLastForwardedMs oar.pd.icaoAddress).all fun last =>
        adsbForwardIntervalMs ≤ oar.nowMs - last) = true ↔
      AddressDue d.forwarded oar.address oar.time := by
  have hpast := h.past oar.address
  rw [AddressDue, h.remembers oar.address oar.time le_rfl]
  simp only [forwardTimes, Option.mem_map, forall_exists_index, and_imp,
    forall_apply_eq_imp_iff₂, Option.all_eq_true, decide_eq_true_eq] at hpast ⊢
  exact forall₂_congr fun last hlast => interval_le_sub_iff (hpast last hlast)

/-- A report that is due is forwarded. -/
theorem sendWhenDue_of_due (h : d.Throttles oar.time)
    (hdue : AddressDue d.forwarded oar.address oar.time) :
    d.sendWhenDue oar =
      { d with
        forwarded := d.forwarded ++ [oar]
        adsbLastForwardedMs :=
          Function.update d.adsbLastForwardedMs oar.pd.icaoAddress (some oar.nowMs) } :=
  if_pos (h.due_iff.mpr hdue)

/-- A report that is not is dropped. -/
theorem sendWhenDue_of_not_due (h : d.Throttles oar.time)
    (hdue : ¬ AddressDue d.forwarded oar.address oar.time) : d.sendWhenDue oar = d :=
  if_neg fun hall => hdue (h.due_iff.mp hall)

/-- Handling a report keeps the throttle. -/
theorem Throttles.sendWhenDue (h : d.Throttles oar.time) :
    (d.sendWhenDue oar).Throttles oar.time := by
  by_cases hdue : AddressDue d.forwarded oar.address oar.time
  · have htimes : EventDispatcher.forwardTimes
        { d with
          forwarded := d.forwarded ++ [oar]
          adsbLastForwardedMs :=
            Function.update d.adsbLastForwardedMs oar.pd.icaoAddress (some oar.nowMs) } =
        Function.update d.forwardTimes oar.address (some oar.time) := by
      funext icao
      by_cases hicao : icao = oar.pd.icaoAddress
      · subst hicao
        simp [forwardTimes, OtherAircraftReport.address, OtherAircraftReport.time]
      · simp [forwardTimes, OtherAircraftReport.address, Function.update_of_ne hicao]
    rw [sendWhenDue_of_due h hdue]
    exact {
      remembers := htimes ▸ h.remembers.pass rfl hdue
      past := by
        intro icao t ht
        rw [htimes] at ht
        by_cases hicao : icao = oar.address
        · subst hicao
          simp only [Function.update_self, Option.mem_some_iff] at ht
          exact ht.ge
        · rw [Function.update_of_ne hicao] at ht
          exact h.past icao t ht
      spaced := spaced_concat.mpr ⟨h.spaced, hdue⟩ }
  · rw [sendWhenDue_of_not_due h hdue]
    exact h

/-- The times left after pruning are those that hold something back. -/
theorem forwardTimes_prune (h : d.Throttles oar.time) :
    (d.pruneAdsbThrottle oar.nowMs).forwardTimes =
      fun icao => (d.forwardTimes icao).filter fun t => decide (oar.time < t + 1000) := by
  funext icao
  have hpast := h.past icao
  simp only [forwardTimes, pruneAdsbThrottle] at hpast ⊢
  cases hlast : d.adsbLastForwardedMs icao with
  | none => rfl
  | some last =>
    have hle : last.toNat ≤ oar.time := hpast last.toNat (by simp [hlast])
    have hiff := interval_le_sub_iff hle
    by_cases hold : adsbForwardIntervalMs ≤ oar.nowMs - last
    · simp [Option.filter, hold, OtherAircraftReport.time, Nat.not_lt.mpr (hiff.mp hold)]
    · simp [Option.filter, hold, OtherAircraftReport.time,
        Nat.lt_of_not_le fun hle => hold (hiff.mpr hle)]

/-- Pruning keeps the throttle. -/
theorem Throttles.prune (h : d.Throttles oar.time) :
    (d.pruneAdsbThrottle oar.nowMs).Throttles oar.time where
  remembers := by
    rw [forwardTimes_prune h]
    exact h.remembers.forget
  past := by
    intro icao t ht
    rw [forwardTimes_prune h] at ht
    exact h.past icao t (Option.mem_filter_iff.mp ht).1
  spaced := h.spaced

/-- Dispatching keeps the throttle. -/
theorem Throttles.dispatch (h : d.Throttles oar.time) : (d.dispatch oar).Throttles oar.time := by
  unfold EventDispatcher.dispatch
  split
  · exact h.sendWhenDue.prune
  · exact h

/-- Dispatching without dropping anything keeps the throttle. -/
theorem Throttles.dispatchUnpruned (h : d.Throttles oar.time) :
    (d.dispatchUnpruned oar).Throttles oar.time := by
  unfold EventDispatcher.dispatchUnpruned
  split
  · exact h.sendWhenDue
  · exact h

/-- Two throttles that have forwarded the same forward the same. -/
theorem forwarded_sendWhenDue {d' : EventDispatcher} (h : d.Throttles oar.time)
    (h' : d'.Throttles oar.time) (hsame : d.forwarded = d'.forwarded) :
    (d.sendWhenDue oar).forwarded = (d'.sendWhenDue oar).forwarded := by
  by_cases hdue : AddressDue d.forwarded oar.address oar.time
  · rw [sendWhenDue_of_due h hdue, sendWhenDue_of_due h' (hsame ▸ hdue)]
    simp only [hsame]
  · rw [sendWhenDue_of_not_due h hdue, sendWhenDue_of_not_due h' (hsame ▸ hdue), hsame]

end Step

section Run

variable {assetName : String} {reports : List OtherAircraftReport} {oar : OtherAircraftReport}

/-- One more report is dispatched after the others. -/
theorem rebroadcast_concat (assetName : String) (reports : List OtherAircraftReport)
    (oar : OtherAircraftReport) :
    rebroadcast assetName (reports ++ [oar]) = (rebroadcast assetName reports).dispatch oar :=
  List.foldl_concat ..

/-- One more report is dispatched after the others, also where nothing is dropped. -/
theorem rebroadcastUnpruned_concat (assetName : String) (reports : List OtherAircraftReport)
    (oar : OtherAircraftReport) :
    rebroadcastUnpruned assetName (reports ++ [oar]) =
      (rebroadcastUnpruned assetName reports).dispatchUnpruned oar :=
  List.foldl_concat ..

/-- The dispatcher keeps the name it was made with. -/
@[simp] theorem assetName_rebroadcast (assetName : String) (reports : List OtherAircraftReport) :
    (rebroadcast assetName reports).assetName = assetName := by
  induction reports using List.reverseRecOn with
  | nil => rfl
  | append_singleton reports oar ih =>
    rw [rebroadcast_concat]
    unfold dispatch sendWhenDue
    split_ifs <;> exact ih

@[simp] theorem assetName_rebroadcastUnpruned (assetName : String)
    (reports : List OtherAircraftReport) :
    (rebroadcastUnpruned assetName reports).assetName = assetName := by
  induction reports using List.reverseRecOn with
  | nil => rfl
  | append_singleton reports oar ih =>
    rw [rebroadcastUnpruned_concat]
    unfold dispatchUnpruned sendWhenDue
    split_ifs <;> exact ih

/-- One more admitted report is forwarded if it is due, and then the throttle is pruned. -/
theorem rebroadcast_concat_of_admitted (h : oar.admitted assetName = true) :
    rebroadcast assetName (reports ++ [oar]) =
      ((rebroadcast assetName reports).sendWhenDue oar).pruneAdsbThrottle oar.nowMs := by
  rw [rebroadcast_concat]
  apply if_pos
  rwa [assetName_rebroadcast]

/-- The reports arrive in the order of the clock. -/
def InOrder (reports : List OtherAircraftReport) : Prop :=
  reports.Pairwise fun a b => a.time ≤ b.time

/-- From the last report on the dispatcher remembers what its forwards hold back, and so does the
one that drops nothing, which has forwarded the same. -/
theorem throttles_rebroadcast (hreports : InOrder reports) {now : ℕ}
    (hnow : ∀ oar ∈ reports, oar.time ≤ now) :
    (rebroadcast assetName reports).Throttles now ∧
      (rebroadcastUnpruned assetName reports).Throttles now ∧
      (rebroadcast assetName reports).forwarded =
        (rebroadcastUnpruned assetName reports).forwarded := by
  induction reports using List.reverseRecOn generalizing now with
  | nil => exact ⟨throttles_init assetName now, throttles_init assetName now, rfl⟩
  | append_singleton reports oar ih =>
    obtain ⟨hbefore, -, hlast⟩ := List.pairwise_append.mp hreports
    obtain ⟨hpruned, hunpruned, hsame⟩ :=
      ih hbefore fun earlier hmem => hlast earlier hmem oar (List.mem_singleton.mpr rfl)
    have hle : oar.time ≤ now := hnow oar (by simp)
    rw [rebroadcast_concat, rebroadcastUnpruned_concat]
    refine ⟨hpruned.dispatch.later hle, hunpruned.dispatchUnpruned.later hle, ?_⟩
    unfold dispatch dispatchUnpruned
    rw [assetName_rebroadcast, assetName_rebroadcastUnpruned]
    split
    · exact forwarded_sendWhenDue hpruned hunpruned hsame
    · exact hsame

/-- Before the last of the reports the dispatcher remembers what its forwards hold back. -/
theorem throttles_before (assetName : String) (hreports : InOrder (reports ++ [oar])) :
    (rebroadcast assetName reports).Throttles oar.time := by
  obtain ⟨hbefore, -, hlast⟩ := List.pairwise_append.mp hreports
  exact (throttles_rebroadcast hbefore fun earlier hmem =>
    hlast earlier hmem oar (List.mem_singleton.mpr rfl)).1

/-- For every sequence of reports in the order of the clock, dropping what can hold nothing back
changes no forward, and what is left are the addresses of the last second. -/
theorem rebroadcasts_inOrder (assetName : String) (hreports : InOrder reports) :
    Rebroadcasts assetName reports where
  same_unpruned := (throttles_rebroadcast hreports fun oar _ => oar.nowMs.toNat_lt.le).2.2
  spaced := (throttles_rebroadcast hreports fun oar _ => oar.nowMs.toNat_lt.le).1.spaced
  forwarded_of_due := by
    intro before oar hprefix hadmitted hdue
    have hthrottles := throttles_before assetName (hreports.sublist hprefix.sublist)
    rw [rebroadcast_concat_of_admitted hadmitted, sendWhenDue_of_due hthrottles hdue]
    rfl
  recent_iff := by
    intro before oar hprefix hadmitted icao
    have hsent := (throttles_before assetName
      (hreports.sublist hprefix.sublist)).sendWhenDue
    have hrecent := hsent.remembers.isSome_forget_iff icao
    rw [← congrFun (forwardTimes_prune hsent) icao, forwardTimes, Option.isSome_map] at hrecent
    rw [rebroadcast_concat_of_admitted hadmitted]
    exact hrecent

/-- Two reports of one aircraft at the two sides of the interval, and one of another between. -/
def atTheInterval : List OtherAircraftReport :=
  [{ pd := { icaoAddress := 1 }, nowMs := 5000 }, { pd := { icaoAddress := 2 }, nowMs := 5999 },
    { pd := { icaoAddress := 1 }, nowMs := 6000 }]

/-- All three are forwarded, and both addresses are still remembered. -/
theorem atTheInterval_rebroadcasts :
    Rebroadcasts "cap" atTheInterval ∧
      (rebroadcast "cap" atTheInterval).forwarded = atTheInterval :=
  ⟨rebroadcasts_inOrder "cap" (by simp [InOrder, atTheInterval, OtherAircraftReport.time]),
    by decide⟩

end Run

end EventDispatcher

end CapFmu
