import CapFmu.Core.Types
import CapFmu.Table.Labelled
import CapFmu.Transition.Run

/-!
# The known aircraft

Every report of another aircraft passes the table of known aircraft, which lets one report a
second through for each and hands out a synthetic address to those that report none. Aircraft
that were quiet for five minutes are swept out with every report. The address of an aircraft
that reports none is looked up in a section of its own after its report was accepted, so that
the sections of several threads interleave.

Times are milliseconds of one clock that never goes back, on which no sum wraps. The clock is
read within the section of a report.
-/

namespace CapFmu

open Table Transition

/-- The start of the range of synthetic addresses. -/
def firstIcaoAddressForUnknownAircraft : UInt32 := 0x1000

/-- The last address of 24 bits. -/
def lastIcaoAddressForUnknownAircraft : UInt32 := 0xFFFFFF

/-- The next synthetic address. -/
def nextSyntheticIcao (current : UInt32) : UInt32 :=
  if lastIcaoAddressForUnknownAircraft ≤ current then firstIcaoAddressForUnknownAircraft
  else current + 1

/-- The key of an aircraft that reports no address. -/
def callSignKey (callSign : String) : String := "cs:" ++ callSign

/-- The key of an aircraft: its address, or its callsign if it reports none. -/
def aircraftKey (callSign : String) (icaoAddress : UInt32) : String :=
  if icaoAddress ≠ 0 then "icao:" ++ toString icaoAddress.toNat else callSignKey callSign

/-- Without an address the callsign is the key. -/
theorem aircraftKey_zero (callSign : String) : aircraftKey callSign 0 = callSignKey callSign := rfl

/-- An address is no callsign. -/
theorem aircraftKey_ne_callSignKey {callSign other : String} {icaoAddress : UInt32}
    (h : icaoAddress ≠ 0) : aircraftKey callSign icaoAddress ≠ callSignKey other := by
  intro hkeys
  rw [aircraftKey, if_pos h, callSignKey] at hkeys
  have hfirst := congrArg (fun key : String => key.toList.head?) hkeys
  simp at hfirst

/-- The key of a report. -/
def PeerPosition.key (pd : PeerPosition) : String := aircraftKey pd.callSign pd.icaoAddress

/-- A tracked aircraft: when its last report was accepted, zero before the first, and its
address. -/
structure AircraftDetails where
  ts : ℕ := 0
  icaoAddress : UInt32
  deriving DecidableEq

/-- Milliseconds between two accepted reports of one aircraft. -/
def acceptIntervalMs : ℕ := 1000

/-- Milliseconds without an accepted report after which an aircraft is dropped. -/
def aircraftEvictionAge : ℕ := 5 * 60 * 1000

namespace AircraftDetails

/-- Whether a report is accepted. -/
def acceptableUpdate (ad : AircraftDetails) (now : ℕ) : Bool :=
  decide (ad.ts + acceptIntervalMs ≤ now)

/-- The aircraft after a report. -/
def updated (ad : AircraftDetails) (now : ℕ) : AircraftDetails :=
  if ad.acceptableUpdate now then { ad with ts := now } else ad

/-- Whether the aircraft has been quiet for too long. -/
def stale (ad : AircraftDetails) (now : ℕ) : Bool := decide (ad.ts + aircraftEvictionAge < now)

/-- A report keeps the address. -/
@[simp] theorem icaoAddress_updated (ad : AircraftDetails) (now : ℕ) :
    (ad.updated now).icaoAddress = ad.icaoAddress := by
  unfold updated
  split <;> rfl

/-- The aircraft that has just reported is not stale. -/
theorem not_stale_updated (ad : AircraftDetails) (now : ℕ) : (ad.updated now).stale now = false := by
  unfold updated acceptableUpdate stale acceptIntervalMs aircraftEvictionAge
  by_cases haccepted : ad.ts + 1000 ≤ now
  · simp [haccepted]
  · simp [haccepted]
    omega

end AircraftDetails

/-- The table of the known aircraft. -/
structure KnownAircraft where
  lastAllocatedICAO : UInt32 := firstIcaoAddressForUnknownAircraft
  aircraft : String → Option AircraftDetails := fun _ => none

namespace KnownAircraft

/-- The address that a new aircraft is tracked under: its own or the next synthetic one. -/
def newAddress (s : KnownAircraft) (icaoAddress : UInt32) : UInt32 :=
  if icaoAddress = 0 then nextSyntheticIcao s.lastAllocatedICAO else icaoAddress

/-- Find an aircraft, or create it. -/
def findAircraft (s : KnownAircraft) (callSign : String) (icaoAddress : UInt32) :
    KnownAircraft × AircraftDetails :=
  match s.aircraft (aircraftKey callSign icaoAddress) with
  | some ad => (s, ad)
  | none =>
    let ad : AircraftDetails := { icaoAddress := s.newAddress icaoAddress }
    ({ lastAllocatedICAO := if icaoAddress = 0 then nextSyntheticIcao s.lastAllocatedICAO
        else s.lastAllocatedICAO
       aircraft := Function.update s.aircraft (aircraftKey callSign icaoAddress) (some ad) }, ad)

/-- Drop the aircraft that have been quiet for too long. -/
def evictStale (s : KnownAircraft) (now : ℕ) : KnownAircraft :=
  { s with aircraft := sweep (fun ad => !ad.stale now) s.aircraft }

/-- The section of a report, and whether it is accepted. -/
def newPositionReport (s : KnownAircraft) (pd : PeerPosition) (now : ℕ) : KnownAircraft × Bool :=
  let found := s.findAircraft pd.callSign pd.icaoAddress
  ({ found.1 with
      aircraft := Function.update found.1.aircraft pd.key (some (found.2.updated now)) }.evictStale
        now,
    found.2.acceptableUpdate now)

/-- The section that looks up the address of an aircraft that reports none. -/
def getAircraftICAOAddress (s : KnownAircraft) (callSign : String) : KnownAircraft × UInt32 :=
  let found := s.findAircraft callSign 0
  (found.1, found.2.icaoAddress)

/-- Aircraft tracked under different keys carry different addresses. -/
def DistinctAddresses (s : KnownAircraft) : Prop :=
  Distinct AircraftDetails.icaoAddress s.aircraft

/-- If the aircraft of the key is not tracked yet, the only tracked aircraft that carry the
address it will get are ones that are about to be dropped. -/
def AddressFree (s : KnownAircraft) (callSign : String) (icaoAddress : UInt32)
    (dropped : AircraftDetails → Bool) : Prop :=
  s.aircraft (aircraftKey callSign icaoAddress) = none →
    ∀ key ad, s.aircraft key = some ad → ad.icaoAddress = s.newAddress icaoAddress →
      dropped ad = true

section Sections

variable {s : KnownAircraft} {callSign : String} {icaoAddress : UInt32}

/-- A tracked aircraft is found as it is. -/
theorem findAircraft_of_some {ad : AircraftDetails}
    (h : s.aircraft (aircraftKey callSign icaoAddress) = some ad) :
    s.findAircraft callSign icaoAddress = (s, ad) := by
  rw [findAircraft, h]

/-- An aircraft that is not tracked is created under its new address. -/
theorem findAircraft_of_none (h : s.aircraft (aircraftKey callSign icaoAddress) = none) :
    s.findAircraft callSign icaoAddress =
      ({ lastAllocatedICAO := if icaoAddress = 0 then nextSyntheticIcao s.lastAllocatedICAO
          else s.lastAllocatedICAO
         aircraft := Function.update s.aircraft (aircraftKey callSign icaoAddress)
          (some { icaoAddress := s.newAddress icaoAddress }) },
        { icaoAddress := s.newAddress icaoAddress }) := by
  rw [findAircraft, h]

/-- The table with the aircraft that was found is the table it was found in, but for that
entry. -/
theorem aircraft_findAircraft (s : KnownAircraft) (callSign : String) (icaoAddress : UInt32) :
    (s.findAircraft callSign icaoAddress).1.aircraft =
      Function.update s.aircraft (aircraftKey callSign icaoAddress)
        (some (s.findAircraft callSign icaoAddress).2) := by
  cases h : s.aircraft (aircraftKey callSign icaoAddress) with
  | none => rw [findAircraft_of_none h]
  | some ad => rw [findAircraft_of_some h, ← h, Function.update_eq_self]

/-- A report sets the entry of its aircraft and sweeps the others. -/
theorem aircraft_newPositionReport (s : KnownAircraft) (pd : PeerPosition) (now : ℕ) :
    (s.newPositionReport pd now).1.aircraft =
      Function.update (sweep (fun ad => !ad.stale now) s.aircraft) pd.key
        (some ((s.findAircraft pd.callSign pd.icaoAddress).2.updated now)) := by
  calc (s.newPositionReport pd now).1.aircraft
      = sweep (fun ad => !ad.stale now) (Function.update s.aircraft pd.key
          (some ((s.findAircraft pd.callSign pd.icaoAddress).2.updated now))) := by
        simp only [newPositionReport, evictStale, aircraft_findAircraft, PeerPosition.key,
          Function.update_idem]
    _ = _ := sweep_update _ (by rw [AircraftDetails.not_stale_updated, Bool.not_false])

/-- Setting the entry that is found for an aircraft keeps the addresses distinct exactly when its
address is free. -/
theorem distinct_found_iff {dropped : AircraftDetails → Bool} {ad : AircraftDetails}
    (h : s.DistinctAddresses)
    (had : ad.icaoAddress = (s.findAircraft callSign icaoAddress).2.icaoAddress) :
    Distinct AircraftDetails.icaoAddress
        (Function.update (sweep (fun ad => !dropped ad) s.aircraft)
          (aircraftKey callSign icaoAddress) (some ad)) ↔
      s.AddressFree callSign icaoAddress dropped := by
  rw [distinct_update_iff h.sweep, AddressFree, had]
  cases hfound : s.aircraft (aircraftKey callSign icaoAddress) with
  | some old =>
    -- the entry keeps the address it was tracked under
    rw [findAircraft_of_some hfound]
    constructor
    · intro _ hnone
      exact absurd hnone (Option.some_ne_none old)
    · intro _ key other hkey hother
      exact h key _ other old hkey (sweep_eq_some_iff.mp hother).1 hfound
  | none =>
    rw [findAircraft_of_none hfound]
    constructor
    · intro hfree _ key other hother haddress
      by_contra hkept
      have hkey : key ≠ aircraftKey callSign icaoAddress := by
        intro hkey
        rw [hkey, hfound] at hother
        exact absurd hother (Option.some_ne_none other).symm
      exact hfree key other hkey (sweep_eq_some_iff.mpr ⟨hother, by simpa using hkept⟩) haddress
    · intro hfree key other _ hother haddress
      obtain ⟨hother, hkept⟩ := sweep_eq_some_iff.mp hother
      simp [hfree rfl key other hother haddress] at hkept

/-- A report keeps the addresses distinct exactly when no aircraft that stays carries the address
of a new one. -/
theorem distinct_newPositionReport_iff (h : s.DistinctAddresses) (pd : PeerPosition) (now : ℕ) :
    (s.newPositionReport pd now).1.DistinctAddresses ↔
      s.AddressFree pd.callSign pd.icaoAddress fun ad => ad.stale now := by
  rw [DistinctAddresses, aircraft_newPositionReport]
  exact distinct_found_iff h (AircraftDetails.icaoAddress_updated _ now)

/-- A lookup keeps them distinct exactly when no aircraft carries the address of a new one. -/
theorem distinct_getAircraftICAOAddress_iff (h : s.DistinctAddresses) (callSign : String) :
    (s.getAircraftICAOAddress callSign).1.DistinctAddresses ↔
      s.AddressFree callSign 0 fun _ => false := by
  have hsweep : sweep (fun _ => !false) s.aircraft = s.aircraft := sweep_true s.aircraft
  rw [DistinctAddresses, getAircraftICAOAddress, aircraft_findAircraft, ← hsweep]
  exact distinct_found_iff h rfl

end Sections

end KnownAircraft

/-- The threads that deliver position reports, with the accepted reports whose address they are
about to look up. -/
structure PositionReports where
  known : KnownAircraft := {}
  clock : ℕ
  lookups : ℕ → Option PeerPosition := fun _ => none

/-- A thread reports a position, or looks up the address of the report that was accepted. -/
inductive PositionStep
  | report (thread : ℕ) (pd : PeerPosition) (now : ℕ)
  | lookup (thread : ℕ)

namespace PositionReports

/-- The section of a report. -/
def report (s : PositionReports) (thread : ℕ) (pd : PeerPosition) (now : ℕ) : PositionReports :=
  let reported := s.known.newPositionReport pd now
  { known := reported.1
    clock := now
    lookups := if reported.2 = true ∧ pd.icaoAddress = 0 then
        Function.update s.lookups thread (some pd)
      else s.lookups }

/-- The section of a lookup. -/
def lookup (s : PositionReports) (thread : ℕ) (pd : PeerPosition) : PositionReports :=
  { s with
    known := (s.known.getAircraftICAOAddress pd.callSign).1
    lookups := Function.update s.lookups thread none }

/-- A thread reports once its last report is through, and the clock does not go back. -/
def step (s : PositionReports) : PositionStep → Option PositionReports
  | .report thread pd now =>
    if s.lookups thread = none ∧ s.clock ≤ now then some (s.report thread pd now) else none
  | .lookup thread => (s.lookups thread).map (s.lookup thread)

/-- No aircraft is known at first. -/
def start (clock : ℕ) : PositionReports := { clock := clock }

/-- An aircraft that a step adds gets an address that no other one carries that stays tracked. -/
def AddsFreeAddress (s : PositionReports) : PositionStep → Prop
  | .report thread pd now => s.lookups thread = none → s.clock ≤ now →
    s.known.AddressFree pd.callSign pd.icaoAddress fun ad => ad.stale now
  | .lookup thread => ∀ pd, s.lookups thread = some pd →
    s.known.AddressFree pd.callSign 0 fun _ => false

/-- A step keeps the addresses distinct exactly when it adds none that is in use. -/
theorem distinctAddresses_step_iff {s : PositionReports} (e : PositionStep)
    (h : s.known.DistinctAddresses) :
    (∀ t, s.step e = some t → t.known.DistinctAddresses) ↔ s.AddsFreeAddress e := by
  cases e with
  | report thread pd now =>
    simp only [step, Option.ite_none_right_eq_some, Option.some_inj, and_imp, AddsFreeAddress]
    rw [← KnownAircraft.distinct_newPositionReport_iff h pd now]
    constructor
    · intro hnext hidle hclock
      exact hnext _ hidle hclock rfl
    · intro hnext t hidle hclock ht
      exact ht ▸ hnext hidle hclock
  | lookup thread =>
    simp only [step, Option.map_eq_some_iff, AddsFreeAddress]
    constructor
    · intro hnext pd hpd
      exact (KnownAircraft.distinct_getAircraftICAOAddress_iff h pd.callSign).mp
        (hnext _ ⟨pd, hpd, rfl⟩)
    · rintro hfree t ⟨pd, hpd, rfl⟩
      exact (KnownAircraft.distinct_getAircraftICAOAddress_iff h pd.callSign).mpr (hfree pd hpd)

end PositionReports

end CapFmu
