import CapFmu.Adsb.KnownAircraft

/-!
# Which aircraft share an address

The synthetic addresses are handed out in turn, without regard to the addresses that are in use.
What address an aircraft carries can therefore be told from the history alone: it is the one it
reported, or the synthetic one with the number of its allocation. Two tracked aircraft share an
address when one of them reported what the other was allocated, or when they were allocated a
whole number of turns of the range apart, and in no other way.
-/

namespace CapFmu

open Table Transition

/-- How many synthetic addresses there are. -/
def syntheticCount : ℕ := 0xFFF000

/-- The synthetic address of an allocation, by its number. The first allocation has number zero,
and the range is started again once it is used up. -/
def syntheticIcao (n : ℕ) : UInt32 := .ofNat (0x1000 + (n + 1) % syntheticCount)

/-- The synthetic address of an allocation as a number. -/
theorem toNat_syntheticIcao (n : ℕ) :
    (syntheticIcao n).toNat = 0x1000 + (n + 1) % syntheticCount := by
  have hlt := Nat.mod_lt (n + 1) (show 0 < syntheticCount by decide)
  rw [syntheticIcao, UInt32.toNat_ofNat']
  apply Nat.mod_eq_of_lt
  rw [syntheticCount] at *
  omega

/-- Allocations share an address exactly when they are a whole number of turns apart. -/
theorem syntheticIcao_eq_iff {m n : ℕ} :
    syntheticIcao m = syntheticIcao n ↔ m % syntheticCount = n % syntheticCount := by
  rw [← UInt32.toNat_inj, toNat_syntheticIcao, toNat_syntheticIcao, syntheticCount]
  omega

/-- A synthetic address is none that is reported as missing. -/
theorem syntheticIcao_ne_zero (n : ℕ) : syntheticIcao n ≠ 0 := by
  intro hzero
  have hnumber := toNat_syntheticIcao n
  rw [hzero, UInt32.toNat_zero] at hnumber
  omega

/-- The counter as it stands after a number of allocations. -/
def allocatedIcao (count : ℕ) : UInt32 := .ofNat (0x1000 + count % syntheticCount)

/-- The counter goes on to the address of the next allocation. -/
theorem nextSyntheticIcao_allocatedIcao (count : ℕ) :
    nextSyntheticIcao (allocatedIcao count) = syntheticIcao count := by
  have hlt := Nat.mod_lt count (show 0 < syntheticCount by decide)
  have hcurrent : (allocatedIcao count).toNat = 0x1000 + count % syntheticCount := by
    rw [allocatedIcao, UInt32.toNat_ofNat']
    apply Nat.mod_eq_of_lt
    rw [syntheticCount] at *
    omega
  have hlast : lastIcaoAddressForUnknownAircraft ≤ allocatedIcao count ↔
      0xFFFFFF ≤ 0x1000 + count % syntheticCount := by
    rw [UInt32.le_iff_toNat_le, hcurrent]
    exact Iff.rfl
  rw [← UInt32.toNat_inj, toNat_syntheticIcao, nextSyntheticIcao]
  simp only [hlast]
  rw [syntheticCount] at *
  split
  · change 0x1000 = _
    omega
  · rw [UInt32.toNat_add, hcurrent]
    change (_ + 1) % 2 ^ 32 = _
    omega

/-- How many synthetic addresses were handed out, and for each callsign the number of the
allocation it was given last. -/
structure Allocations where
  count : ℕ := 0
  given : String → ℕ := fun _ => 0

namespace Allocations

/-- One more address is handed out, to a callsign. -/
def allocate (o : Allocations) (callSign : String) : Allocations where
  count := o.count + 1
  given := Function.update o.given callSign o.count

/-- A callsign that is not tracked is handed out an address. -/
def find (o : Allocations) (s : KnownAircraft) (callSign : String) : Allocations :=
  if s.aircraft (callSignKey callSign) = none then o.allocate callSign else o

/-- The allocations as an aircraft is found that may have reported an address. -/
def findReported (o : Allocations) (s : KnownAircraft) (callSign : String) (icaoAddress : UInt32) :
    Allocations :=
  if icaoAddress = 0 then o.find s callSign else o

/-- What a step adds to the allocations: a report finds its aircraft, and a lookup its callsign. -/
def record (o : Allocations) (s : PositionReports) : PositionStep → Allocations
  | .report _ pd _ => o.findReported s.known pd.callSign pd.icaoAddress
  | .lookup thread => (s.lookups thread).elim o fun pd => o.find s.known pd.callSign

/-- A newly reported address is no synthetic one of an aircraft that stays tracked. -/
def ReportUnused (o : Allocations) (s : KnownAircraft) (icaoAddress : UInt32)
    (dropped : AircraftDetails → Bool) : Prop :=
  ∀ callSign ad, s.aircraft (callSignKey callSign) = some ad →
    syntheticIcao (o.given callSign) = icaoAddress → dropped ad = true

/-- No aircraft that stays tracked reported the next synthetic address, or was given it a whole
number of turns ago. -/
def NextUnused (o : Allocations) (s : KnownAircraft) (dropped : AircraftDetails → Bool) : Prop :=
  (∀ callSign ad, s.aircraft (aircraftKey callSign (syntheticIcao o.count)) = some ad →
      dropped ad = true) ∧
    ∀ callSign ad, s.aircraft (callSignKey callSign) = some ad →
      o.given callSign % syntheticCount = o.count % syntheticCount → dropped ad = true

/-- An aircraft that a step starts to track neither reports a synthetic address in use nor is
given an address that is reported or in use. Aircraft that the step sweeps are not in use. -/
def StepUnused (p : Allocations × PositionReports) : PositionStep → Prop
  | .report thread pd now => p.2.lookups thread = none → p.2.clock ≤ now →
    p.2.known.aircraft pd.key = none →
      if pd.icaoAddress = 0 then p.1.NextUnused p.2.known fun ad => ad.stale now
      else p.1.ReportUnused p.2.known pd.icaoAddress fun ad => ad.stale now
  | .lookup thread => ∀ pd, p.2.lookups thread = some pd →
    p.2.known.aircraft (callSignKey pd.callSign) = none →
      p.1.NextUnused p.2.known fun _ => false

/-- The address under a key is the synthetic one of its callsign's allocation, or the one that the
key is made of. -/
def Tells (o : Allocations) (key : String) (icaoAddress : UInt32) : Prop :=
  (∃ callSign, key = callSignKey callSign ∧ icaoAddress = syntheticIcao (o.given callSign)) ∨
    ∃ callSign, icaoAddress ≠ 0 ∧ key = aircraftKey callSign icaoAddress

/-- The address of every tracked aircraft is told from what it reported or from the number of its
allocation, and the counter from how many there were. -/
structure Explains (o : Allocations) (s : KnownAircraft) : Prop where
  counter : s.lastAllocatedICAO = allocatedIcao o.count
  tracked : ∀ key ad, s.aircraft key = some ad → o.Tells key ad.icaoAddress

variable {o : Allocations} {s : KnownAircraft} {callSign : String} {icaoAddress : UInt32}
  {dropped : AircraftDetails → Bool}

/-- Different callsigns are different keys. -/
theorem callSignKey_inj {other : String} : callSignKey callSign = callSignKey other ↔
    callSign = other := by
  constructor
  · intro hkeys
    have hchars := congrArg String.toList hkeys
    simpa [callSignKey, ← String.toList_inj] using hchars
  · exact congrArg callSignKey

/-- Different addresses are different keys. -/
theorem eq_of_aircraftKey_eq {other : String} {reported : UInt32} (h : icaoAddress ≠ 0)
    (hreported : reported ≠ 0)
    (hkeys : aircraftKey callSign icaoAddress = aircraftKey other reported) :
    icaoAddress = reported := by
  rw [aircraftKey, aircraftKey, if_pos h, if_pos hreported] at hkeys
  have hdigits : Nat.toDigits 10 icaoAddress.toNat = Nat.toDigits 10 reported.toNat := by
    have hchars := congrArg String.toList hkeys
    simpa [Nat.toString_eq_ofList_toDigits] using hchars
  have hnumbers := congrArg (fun digits => Nat.ofDigitChars 10 digits 0) hdigits
  simp only [Nat.ofDigitChars_toDigits (b := 10) (by decide) (by decide)] at hnumbers
  exact UInt32.toNat_inj.mp hnumbers

/-- The key of an address does not depend on the callsign. -/
theorem aircraftKey_congr (h : icaoAddress ≠ 0) (other : String) :
    aircraftKey callSign icaoAddress = aircraftKey other icaoAddress := by
  rw [aircraftKey, aircraftKey, if_pos h, if_pos h]

/-- The next address that is handed out is the one with the next number. -/
theorem Explains.newAddress_zero (h : o.Explains s) : s.newAddress 0 = syntheticIcao o.count := by
  rw [KnownAircraft.newAddress, if_pos rfl, h.counter, nextSyntheticIcao_allocatedIcao]

/-- A tracked callsign carries the address of its allocation. -/
theorem Explains.icaoAddress_of_callSign (h : o.Explains s) {ad : AircraftDetails}
    (had : s.aircraft (callSignKey callSign) = some ad) :
    ad.icaoAddress = syntheticIcao (o.given callSign) := by
  rcases h.tracked _ ad had with ⟨other, hkey, haddress⟩ | ⟨other, hreported, hkey⟩
  · rw [haddress, callSignKey_inj.mp hkey]
  · exact absurd hkey.symm (aircraftKey_ne_callSignKey hreported)

/-- A tracked aircraft that reported its address carries it. -/
theorem Explains.icaoAddress_of_reported (h : o.Explains s) (hreported : icaoAddress ≠ 0)
    {key : String} {ad : AircraftDetails} (had : s.aircraft key = some ad)
    (haddress : ad.icaoAddress = icaoAddress) :
    (∃ callSign, key = callSignKey callSign ∧
      syntheticIcao (o.given callSign) = icaoAddress) ∨
    ∀ callSign, key = aircraftKey callSign icaoAddress := by
  subst haddress
  rcases h.tracked key ad had with ⟨other, hkey, haddress⟩ | ⟨other, -, hkey⟩
  · exact Or.inl ⟨other, hkey, haddress.symm⟩
  · exact Or.inr fun callSign => hkey.trans (aircraftKey_congr hreported callSign)

/-- The address a new aircraft reports is free exactly when it is no synthetic one in use. -/
theorem addressFree_reported_iff (h : o.Explains s) (hreported : icaoAddress ≠ 0) :
    s.AddressFree callSign icaoAddress dropped ↔
      (s.aircraft (aircraftKey callSign icaoAddress) = none →
        o.ReportUnused s icaoAddress dropped) := by
  apply imp_congr_right
  intro hnew
  rw [KnownAircraft.newAddress, if_neg hreported]
  constructor
  · intro hfree other ad had hgiven
    exact hfree _ ad had ((h.icaoAddress_of_callSign had).trans hgiven)
  · intro hunused key ad had haddress
    rcases h.icaoAddress_of_reported hreported had haddress with ⟨other, rfl, hgiven⟩ | hkey
    · exact hunused other ad had hgiven
    · rw [hkey callSign, hnew] at had
      exact absurd had (Option.some_ne_none ad).symm

/-- The address a new callsign is given is free exactly when nobody in use reported it or was
given it before. -/
theorem addressFree_zero_iff (h : o.Explains s) :
    s.AddressFree callSign 0 dropped ↔
      (s.aircraft (callSignKey callSign) = none → o.NextUnused s dropped) := by
  rw [KnownAircraft.AddressFree, aircraftKey_zero, h.newAddress_zero]
  apply imp_congr_right
  intro _
  constructor
  · intro hfree
    constructor
    · intro other ad had
      refine hfree _ ad had ?_
      rcases h.tracked _ ad had with ⟨callSign, hkey, -⟩ | ⟨callSign, hreported, hkey⟩
      · exact absurd hkey (aircraftKey_ne_callSignKey (syntheticIcao_ne_zero _))
      · exact (eq_of_aircraftKey_eq (syntheticIcao_ne_zero _) hreported hkey).symm
    · intro other ad had hturns
      exact hfree _ ad had ((h.icaoAddress_of_callSign had).trans (syntheticIcao_eq_iff.mpr hturns))
  · intro hunused key ad had haddress
    rcases h.icaoAddress_of_reported (syntheticIcao_ne_zero _) had haddress with
      ⟨other, rfl, hgiven⟩ | hkey
    · exact hunused.2 other ad had (syntheticIcao_eq_iff.mp hgiven)
    · exact hunused.1 callSign ad (hkey callSign ▸ had)

/-- Nothing is tracked and nothing was allocated at first. -/
theorem explains_empty : Explains {} {} where
  counter := rfl
  tracked _ ad had := absurd had (Option.some_ne_none ad).symm

/-- A tracked callsign is allocated nothing. -/
theorem find_of_some {ad : AircraftDetails} (h : s.aircraft (callSignKey callSign) = some ad) :
    o.find s callSign = o := by
  rw [find, if_neg]
  simp [h]

/-- A callsign that is not tracked is allocated the next address. -/
theorem find_of_none (h : s.aircraft (callSignKey callSign) = none) :
    o.find s callSign = o.allocate callSign := if_pos h

/-- A callsign that is found is told from the next allocation, if it was not tracked. -/
theorem tells_allocate (o : Allocations) (callSign : String) :
    (o.allocate callSign).Tells (callSignKey callSign) (syntheticIcao o.count) := by
  refine Or.inl ⟨callSign, rfl, ?_⟩
  simp [allocate]

/-- An allocation to a callsign leaves what is told of the other keys. -/
theorem Tells.find {key : String} (h : o.Tells key icaoAddress)
    (hkey : key ≠ callSignKey callSign) : (o.find s callSign).Tells key icaoAddress := by
  refine h.imp_left ?_
  rintro ⟨other, rfl, haddress⟩
  refine ⟨other, rfl, haddress.trans ?_⟩
  rw [ne_eq, callSignKey_inj] at hkey
  rw [Allocations.find]
  split
  · simp [allocate, hkey]
  · rfl

/-- Nothing is allocated to a tracked aircraft. -/
theorem findReported_of_some {ad : AircraftDetails}
    (h : s.aircraft (aircraftKey callSign icaoAddress) = some ad) :
    o.findReported s callSign icaoAddress = o := by
  rw [findReported]
  split
  · next hzero =>
    rw [hzero] at h
    exact find_of_some h
  · rfl

/-- The counter is told from the allocations after an aircraft was found. -/
theorem Explains.counter_find (h : o.Explains s) (callSign : String) (icaoAddress : UInt32) :
    (s.findAircraft callSign icaoAddress).1.lastAllocatedICAO =
      allocatedIcao (o.findReported s callSign icaoAddress).count := by
  cases hentry : s.aircraft (aircraftKey callSign icaoAddress) with
  | some ad =>
    rw [KnownAircraft.findAircraft_of_some hentry, h.counter, findReported_of_some hentry]
  | none =>
    rw [KnownAircraft.findAircraft_of_none hentry, findReported]
    split
    · next hzero =>
      rw [hzero, aircraftKey_zero] at hentry
      rw [find_of_none hentry, h.counter, nextSyntheticIcao_allocatedIcao]
      rfl
    · exact h.counter

/-- The address of an aircraft that was found is told from what it reported or from its
allocation. -/
theorem Explains.tells_find (h : o.Explains s) (callSign : String) (icaoAddress : UInt32) :
    (o.findReported s callSign icaoAddress).Tells (aircraftKey callSign icaoAddress)
      (s.findAircraft callSign icaoAddress).2.icaoAddress := by
  cases hentry : s.aircraft (aircraftKey callSign icaoAddress) with
  | some ad =>
    rw [KnownAircraft.findAircraft_of_some hentry, findReported_of_some hentry]
    exact h.tracked _ ad hentry
  | none =>
    rw [KnownAircraft.findAircraft_of_none hentry, findReported]
    split
    · next hzero =>
      subst hzero
      rw [aircraftKey_zero] at hentry
      rw [find_of_none hentry, h.newAddress_zero]
      exact o.tells_allocate callSign
    · next hreported =>
      rw [KnownAircraft.newAddress, if_neg hreported]
      exact Or.inr ⟨callSign, hreported, rfl⟩

/-- The addresses are told after an entry was set for the aircraft that was found, in a table of
which nothing else was changed. -/
theorem Explains.tracked_find (h : o.Explains s) {table : String → Option AircraftDetails}
    {found : AircraftDetails} (htable : ∀ key ad, table key = some ad → s.aircraft key = some ad)
    (hfound : found.icaoAddress = (s.findAircraft callSign icaoAddress).2.icaoAddress)
    (key : String) (ad : AircraftDetails)
    (had : Function.update table (aircraftKey callSign icaoAddress) (some found) key = some ad) :
    (o.findReported s callSign icaoAddress).Tells key ad.icaoAddress := by
  by_cases hkey : key = aircraftKey callSign icaoAddress
  · subst hkey
    rw [Function.update_self, Option.some_inj] at had
    rw [← had, hfound]
    exact h.tells_find callSign icaoAddress
  · rw [Function.update_of_ne hkey] at had
    have htold := h.tracked key ad (htable key ad had)
    rw [findReported]
    split
    · next hzero =>
      rw [hzero, aircraftKey_zero] at hkey
      exact htold.find hkey
    · exact htold

/-- Every step keeps the addresses told from the history. -/
theorem explains_step {s t : PositionReports} {e : PositionStep} (h : o.Explains s.known)
    (hstep : s.step e = some t) : (o.record s e).Explains t.known := by
  cases e with
  | report thread pd now =>
    obtain ⟨-, hreport⟩ := Option.ite_none_right_eq_some.mp hstep
    obtain rfl := Option.some.inj hreport
    refine ⟨h.counter_find pd.callSign pd.icaoAddress, ?_⟩
    simp only [PositionReports.report, KnownAircraft.aircraft_newPositionReport]
    exact h.tracked_find (fun key ad had => (sweep_eq_some_iff.mp had).1)
      (AircraftDetails.icaoAddress_updated _ now)
  | lookup thread =>
    obtain ⟨pd, hlooking, rfl⟩ := Option.map_eq_some_iff.mp hstep
    rw [record, hlooking]
    refine ⟨h.counter_find pd.callSign 0, ?_⟩
    simp only [PositionReports.lookup, KnownAircraft.getAircraftICAOAddress,
      KnownAircraft.aircraft_findAircraft]
    exact h.tracked_find (fun key ad had => had) rfl

/-- With the addresses told from the history, a step adds a free address exactly when it uses
none that is in use. -/
theorem addsFreeAddress_iff {s : PositionReports} (h : o.Explains s.known) (e : PositionStep) :
    s.AddsFreeAddress e ↔ StepUnused (o, s) e := by
  cases e with
  | report thread pd now =>
    apply imp_congr_right
    intro _
    apply imp_congr_right
    intro _
    by_cases hzero : pd.icaoAddress = 0
    · rw [if_pos hzero, PeerPosition.key, hzero]
      exact addressFree_zero_iff h
    · rw [if_neg hzero]
      exact addressFree_reported_iff h hzero
  | lookup thread =>
    apply forall_congr'
    intro pd
    apply imp_congr_right
    intro _
    exact addressFree_zero_iff h

end Allocations

namespace PositionReports

open Allocations

/-- For every run of any threads and reports, no two tracked aircraft ever carry one address
exactly when no step starts to track an aircraft under a reported address that is the synthetic
one of a tracked aircraft, or under a synthetic one that a tracked aircraft reported or was given a
whole number of turns of the range before. -/
theorem distinctAddresses_throughout_iff (clock : ℕ) (es : List PositionStep) :
    (∀ fs t, fs <+: es → run step (start clock) fs = some t → t.known.DistinctAddresses) ↔
      Along (observing step record) StepUnused ({}, start clock) es := by
  apply forall_prefix_iff_of_observing fun o s => o.Explains s.known ∧ s.known.DistinctAddresses
  · rintro o s e ⟨hexplains, hdistinct⟩
    exact (distinctAddresses_step_iff e hdistinct).trans (addsFreeAddress_iff hexplains e)
  · rintro o s e t ⟨hexplains, hdistinct⟩ hcond hstep
    refine ⟨explains_step hexplains hstep, ?_⟩
    exact (distinctAddresses_step_iff e hdistinct).mpr
      ((addsFreeAddress_iff hexplains e).mpr hcond) t hstep
  · exact ⟨explains_empty, distinct_empty⟩
  · exact distinct_empty

/-- A report of the address that the next aircraft without one is given, and then that aircraft. -/
def reportedSynthetic : List PositionStep :=
  [.report 0 { callSign := "A", icaoAddress := 0x1001 } 1000,
    .report 1 { callSign := "B" } 2000]

/-- A reported aircraft and one without an address are tracked under the same address. -/
theorem reportedSynthetic_shares_address :
    ¬∀ clock es t, run step (start clock) es = some t → t.known.DistinctAddresses := by
  intro h
  obtain ⟨t, ht, hA, hB⟩ : ∃ t, run step (start 1000) reportedSynthetic = some t ∧
      t.known.aircraft (aircraftKey "A" 0x1001) = some { ts := 1000, icaoAddress := 0x1001 } ∧
      t.known.aircraft (callSignKey "B") = some { ts := 2000, icaoAddress := 0x1001 } :=
    ⟨_, rfl, by decide, by decide⟩
  exact h 1000 reportedSynthetic t ht _ _ _ _ (by decide) hA hB rfl

end PositionReports

end CapFmu
