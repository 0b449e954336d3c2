import CapFmu.Adsb.KnownAircraft
import CapFmu.Signal.RateLimit
import CapFmu.Table.Lease

/-!
# The identity of an aircraft without an address

The reports of an aircraft are accepted at most once a second, and its entry is kept while they
are accepted at gaps of at most five minutes. An aircraft that reports no address is therefore
forwarded under one synthetic address throughout such a series of accepted reports, provided the
address is looked up before some other report sweeps the entry after the series has ended.

What was accepted and forwarded is recorded beside the table, which does not keep it.
-/

namespace CapFmu

open Signal Table Transition

/-- An address that can be handed out. -/
def Synthetic (icaoAddress : UInt32) : Prop :=
  firstIcaoAddressForUnknownAircraft ≤ icaoAddress ∧
    icaoAddress ≤ lastIcaoAddressForUnknownAircraft

/-- The next synthetic address is one again, also where the range ends. -/
theorem synthetic_nextSyntheticIcao {current : UInt32} (h : Synthetic current) :
    Synthetic (nextSyntheticIcao current) := by
  unfold Synthetic nextSyntheticIcao at *
  split
  · exact ⟨UInt32.le_refl _, by decide⟩
  · simp only [firstIcaoAddressForUnknownAircraft, lastIcaoAddressForUnknownAircraft,
      UInt32.le_iff_toNat_le, UInt32.toNat_add, UInt32.toNat_ofNat] at *
    omega

namespace KnownAircraft

/-- Callsigns are tracked under synthetic addresses. -/
structure Synthesises (s : KnownAircraft) : Prop where
  allocated : Synthetic s.lastAllocatedICAO
  tracked : ∀ callSign ad, s.aircraft (callSignKey callSign) = some ad → Synthetic ad.icaoAddress

section Addresses

variable {s : KnownAircraft}

/-- A callsign is found under a synthetic address. -/
theorem Synthesises.found (h : s.Synthesises) (callSign : String) :
    Synthetic (s.findAircraft callSign 0).2.icaoAddress := by
  cases hentry : s.aircraft (aircraftKey callSign 0) with
  | none =>
    rw [findAircraft_of_none hentry]
    exact synthetic_nextSyntheticIcao h.allocated
  | some ad =>
    rw [findAircraft_of_some hentry]
    exact h.tracked callSign ad hentry

/-- Finding an aircraft allocates synthetic addresses only. -/
theorem Synthesises.allocated_find (h : s.Synthesises) (callSign : String) (icaoAddress : UInt32) :
    Synthetic (s.findAircraft callSign icaoAddress).1.lastAllocatedICAO := by
  cases hentry : s.aircraft (aircraftKey callSign icaoAddress) with
  | some ad =>
    rw [findAircraft_of_some hentry]
    exact h.allocated
  | none =>
    rw [findAircraft_of_none hentry]
    dsimp only
    split
    · exact synthetic_nextSyntheticIcao h.allocated
    · exact h.allocated

/-- Setting the entry that was found keeps callsigns under synthetic addresses. -/
theorem Synthesises.tracked_update {table : String → Option AircraftDetails} {callSign : String}
    {icaoAddress : UInt32} {found : AircraftDetails} (h : s.Synthesises)
    (htable : ∀ key ad, table key = some ad → s.aircraft key = some ad)
    (hfound : found.icaoAddress = (s.findAircraft callSign icaoAddress).2.icaoAddress)
    (other : String) (ad : AircraftDetails)
    (had : Function.update table (aircraftKey callSign icaoAddress) (some found)
      (callSignKey other) = some ad) : Synthetic ad.icaoAddress := by
  by_cases hkey : callSignKey other = aircraftKey callSign icaoAddress
  · rw [hkey, Function.update_self, Option.some_inj] at had
    have hzero : icaoAddress = 0 := by
      by_contra hreported
      exact aircraftKey_ne_callSignKey hreported hkey.symm
    subst hzero
    rw [← had, hfound]
    exact h.found callSign
  · rw [Function.update_of_ne hkey] at had
    exact h.tracked other ad (htable _ ad had)

/-- A report keeps callsigns under synthetic addresses. -/
theorem Synthesises.newPositionReport (h : s.Synthesises) (pd : PeerPosition) (now : ℕ) :
    (s.newPositionReport pd now).1.Synthesises where
  allocated := h.allocated_find pd.callSign pd.icaoAddress
  tracked := by
    rw [aircraft_newPositionReport]
    apply h.tracked_update
    · intro key ad had
      exact (sweep_eq_some_iff.mp had).1
    · exact AircraftDetails.icaoAddress_updated _ now

/-- A lookup keeps callsigns under synthetic addresses. -/
theorem Synthesises.getAircraftICAOAddress (h : s.Synthesises) (callSign : String) :
    (s.getAircraftICAOAddress callSign).1.Synthesises where
  allocated := h.allocated_find callSign 0
  tracked := by
    rw [KnownAircraft.getAircraftICAOAddress, aircraft_findAircraft]
    apply h.tracked_update
    · intro key ad had
      exact had
    · rfl

/-- A report leaves no stale aircraft. -/
theorem not_stale_of_newPositionReport {pd : PeerPosition} {now : ℕ} {key : String}
    {ad : AircraftDetails} (h : (s.newPositionReport pd now).1.aircraft key = some ad) :
    ad.stale now = false := by
  rw [aircraft_newPositionReport] at h
  by_cases hkey : key = pd.key
  · rw [hkey, Function.update_self, Option.some_inj] at h
    exact h ▸ AircraftDetails.not_stale_updated _ now
  · rw [Function.update_of_ne hkey] at h
    simpa using (sweep_eq_some_iff.mp h).2

/-- A report keeps the addresses of the aircraft that stay. -/
theorem icaoAddress_newPositionReport {pd : PeerPosition} {now : ℕ} {key : String}
    {ad after : AircraftDetails} (had : s.aircraft key = some ad)
    (hafter : (s.newPositionReport pd now).1.aircraft key = some after) :
    after.icaoAddress = ad.icaoAddress := by
  rw [aircraft_newPositionReport] at hafter
  by_cases hkey : key = pd.key
  · subst hkey
    rw [Function.update_self, Option.some_inj, findAircraft_of_some had] at hafter
    rw [← hafter, AircraftDetails.icaoAddress_updated]
  · rw [Function.update_of_ne hkey] at hafter
    rw [Option.some.inj ((sweep_eq_some_iff.mp hafter).1.symm.trans had)]

/-- A lookup leaves the tracked aircraft as they are. -/
theorem aircraft_getAircraftICAOAddress {callSign key : String} {ad : AircraftDetails}
    (had : s.aircraft key = some ad) :
    (s.getAircraftICAOAddress callSign).1.aircraft key = some ad := by
  rw [getAircraftICAOAddress, aircraft_findAircraft]
  by_cases hkey : key = aircraftKey callSign 0
  · subst hkey
    rw [Function.update_self, findAircraft_of_some had]
  · rw [Function.update_of_ne hkey, had]

end Addresses

end KnownAircraft

/-- A report that was accepted, by the key of its aircraft. -/
structure AcceptedReport where
  key : String
  time : ℕ
  deriving DecidableEq

/-- A report without an address, under the address it was forwarded with. It is prompt when no
report was handled more than five minutes after the last one accepted in its series. -/
structure ForwardedReport where
  callSign : String
  icaoAddress : UInt32
  series : ℕ
  prompt : Bool
  deriving DecidableEq

/-- The reports that were accepted and forwarded, the series of accepted reports that each aircraft
is in, and the series of the report whose address a thread is about to look up. -/
structure PositionRecord where
  accepted : List AcceptedReport := []
  series : String → ℕ := fun _ => 0
  lookupSeries : ℕ → ℕ := fun _ => 0
  forwarded : List ForwardedReport := []

namespace PositionRecord

/-- When the last report of an aircraft was accepted. -/
def lastAccepted (o : PositionRecord) (key : String) : Option ℕ :=
  (o.accepted.filter fun a => a.key = key).getLast?.map AcceptedReport.time

/-- Whether the last accepted report of an aircraft is at most five minutes old. -/
def alive (o : PositionRecord) (key : String) (now : ℕ) : Bool :=
  (o.lastAccepted key).any fun last => decide (now ≤ last + aircraftEvictionAge)

/-- The series of a report that is accepted now: a longer gap starts a new one. -/
def nextSeries (o : PositionRecord) (key : String) (now : ℕ) : ℕ :=
  if o.alive key now ∨ o.lastAccepted key = none then o.series key else o.series key + 1

/-- A report is accepted. -/
def accept (o : PositionRecord) (thread : ℕ) (key : String) (now : ℕ) : PositionRecord :=
  { o with
    accepted := o.accepted ++ [{ key := key, time := now }]
    series := Function.update o.series key (o.nextSeries key now)
    lookupSeries := Function.update o.lookupSeries thread (o.nextSeries key now) }

/-- A report is forwarded under the address that was looked up for it. -/
def forward (o : PositionRecord) (thread : ℕ) (callSign : String) (icaoAddress : UInt32)
    (clock : ℕ) : PositionRecord :=
  { o with
    forwarded := o.forwarded ++ [
      { callSign := callSign
        icaoAddress := icaoAddress
        series := o.lookupSeries thread
        prompt := decide (o.lookupSeries thread = o.series (callSignKey callSign)) &&
          o.alive (callSignKey callSign) clock }] }

/-- What a step adds to the record. -/
def record (o : PositionRecord) (s : PositionReports) : PositionStep → PositionRecord
  | .report thread pd now =>
    if (s.known.newPositionReport pd now).2 = true then o.accept thread pd.key now else o
  | .lookup thread =>
    (s.lookups thread).elim o fun pd =>
      o.forward thread pd.callSign (s.known.getAircraftICAOAddress pd.callSign).2 s.clock

/-- What has been recorded at the end of a run. -/
def recorded (clock : ℕ) (es : List PositionStep) : PositionRecord :=
  observe PositionReports.step record {} (PositionReports.start clock) es

section Accept

variable {o : PositionRecord} {thread : ℕ} {key : String} {now : ℕ}

/-- An accepted report is the last one of its aircraft. -/
theorem lastAccepted_accept_self :
    (o.accept thread key now).lastAccepted key = some now := by
  simp [lastAccepted, accept, List.filter_append]

/-- The last accepted reports of the other aircraft stay. -/
theorem lastAccepted_accept_of_ne {other : String} (h : other ≠ key) :
    (o.accept thread key now).lastAccepted other = o.lastAccepted other := by
  simp [lastAccepted, accept, List.filter_append, Ne.symm h]

/-- The series of the other aircraft stay. -/
theorem series_accept_of_ne {other : String} (h : other ≠ key) :
    (o.accept thread key now).series other = o.series other :=
  Function.update_of_ne h _ _

/-- The series of the aircraft is the one of the report. -/
theorem series_accept_self : (o.accept thread key now).series key = o.nextSeries key now :=
  Function.update_self _ _ _

/-- Series are numbered upwards. -/
theorem series_le_accept (other : String) :
    o.series other ≤ (o.accept thread key now).series other := by
  by_cases hother : other = key
  · subst hother
    rw [series_accept_self, nextSeries]
    split <;> omega
  · rw [series_accept_of_ne hother]

/-- An accepted report of an aircraft at a time. -/
theorem alive_iff : o.alive key now = true ↔
    ∃ last, o.lastAccepted key = some last ∧ now ≤ last + aircraftEvictionAge := by
  simp [alive, Option.any_eq_true]

/-- What is alive later was alive before. -/
theorem alive_of_le {later : ℕ} (h : o.alive key later = true) (hle : now ≤ later) :
    o.alive key now = true := by
  obtain ⟨last, hlast, hrecent⟩ := alive_iff.mp h
  exact alive_iff.mpr ⟨last, hlast, Nat.le_trans hle hrecent⟩

end Accept

/-- What the table keeps of the reports that were accepted. -/
structure Tracks (o : PositionRecord) (s : PositionReports) : Prop where
  started : acceptIntervalMs ≤ s.clock
  kept : ∀ key, Kept AircraftDetails.ts aircraftEvictionAge (o.lastAccepted key) s.clock
    (s.known.aircraft key)
  accepted_le : ∀ a ∈ o.accepted, ∃ last, o.lastAccepted a.key = some last ∧ a.time ≤ last
  spaced : Spaced AcceptedReport.key AcceptedReport.time acceptIntervalMs o.accepted
  looking : ∀ thread pd, s.lookups thread = some pd →
    pd.icaoAddress = 0 ∧ ∃ last, o.lastAccepted (callSignKey pd.callSign) = some last

section Track

variable {o : PositionRecord} {s : PositionReports} {thread : ℕ} {pd : PeerPosition} {now : ℕ}

/-- An entry of the table at the time of a report, unless it is of the aircraft itself. -/
theorem Tracks.kept_other (h : Tracks o s) (hclock : s.clock ≤ now) {key : String}
    (hkey : key ≠ pd.key) :
    Kept AircraftDetails.ts aircraftEvictionAge (o.lastAccepted key) now
      ((s.known.newPositionReport pd now).1.aircraft key) := by
  rw [KnownAircraft.aircraft_newPositionReport, Function.update_of_ne hkey]
  apply (h.kept key).expire hclock
  intro ad hrecent
  simpa [AircraftDetails.stale] using hrecent

/-- The entry of an aircraft is old enough when its report is accepted. -/
theorem ts_le_of_accepted (haccepted : (s.known.newPositionReport pd now).2 = true)
    {ad : AircraftDetails} (had : s.known.aircraft pd.key = some ad) :
    ad.ts + acceptIntervalMs ≤ now := by
  rw [KnownAircraft.newPositionReport, KnownAircraft.findAircraft_of_some had] at haccepted
  exact of_decide_eq_true haccepted

/-- A report that is not accepted is of an aircraft that is tracked already, and stays as it is. -/
theorem Tracks.aircraft_of_rejected (h : Tracks o s) (hclock : s.clock ≤ now)
    (hrejected : (s.known.newPositionReport pd now).2 = false) :
    (s.known.newPositionReport pd now).1.aircraft pd.key = s.known.aircraft pd.key := by
  have hstarted := h.started
  rw [KnownAircraft.aircraft_newPositionReport, Function.update_self, AircraftDetails.updated]
  cases hentry : s.known.aircraft pd.key with
  | some ad =>
    rw [KnownAircraft.newPositionReport, KnownAircraft.findAircraft_of_some hentry] at hrejected
    rw [KnownAircraft.findAircraft_of_some hentry, if_neg (Bool.eq_false_iff.mp hrejected)]
  | none =>
    -- a new entry has the stamp zero, after which every time of the clock is acceptable
    rw [KnownAircraft.newPositionReport, KnownAircraft.findAircraft_of_none hentry] at hrejected
    have hearly := of_decide_eq_false hrejected
    simp only [Nat.zero_add, Nat.not_le] at hearly
    omega

/-- The reports whose address is looked up are accepted ones without an address. -/
theorem lookups_report {other : ℕ} {looking : PeerPosition}
    (hlooking : (s.report thread pd now).lookups other = some looking) :
    s.lookups other = some looking ∨ looking = pd ∧ other = thread ∧ pd.icaoAddress = 0 ∧
      (s.known.newPositionReport pd now).2 = true := by
  simp only [PositionReports.report] at hlooking
  split at hlooking
  · next hpending =>
    by_cases hother : other = thread
    · rw [hother, Function.update_self, Option.some_inj] at hlooking
      exact .inr ⟨hlooking.symm, hother, hpending.2, hpending.1⟩
    · rw [Function.update_of_ne hother] at hlooking
      exact .inl hlooking
  · exact .inl hlooking

/-- The key of a report without an address. -/
theorem key_of_unaddressed (h : pd.icaoAddress = 0) : pd.key = callSignKey pd.callSign := by
  rw [PeerPosition.key, h, aircraftKey_zero]

/-- An accepted report. -/
theorem Tracks.accept (h : Tracks o s) (hclock : s.clock ≤ now)
    (haccepted : (s.known.newPositionReport pd now).2 = true) :
    Tracks (o.accept thread pd.key now) (s.report thread pd now) where
  started := Nat.le_trans h.started hclock
  kept key := by
    by_cases hkey : key = pd.key
    · subst hkey
      rw [lastAccepted_accept_self]
      change Kept _ _ _ now ((s.known.newPositionReport pd now).1.aircraft _)
      rw [KnownAircraft.aircraft_newPositionReport, Function.update_self]
      apply Kept.renew
      exact congrArg AircraftDetails.ts (if_pos haccepted)
    · rw [lastAccepted_accept_of_ne hkey]
      exact h.kept_other hclock hkey
  accepted_le a ha := by
    by_cases hkey : a.key = pd.key
    · rw [hkey, lastAccepted_accept_self]
      refine ⟨now, rfl, ?_⟩
      cases List.mem_append.mp ha with
      | inl hold =>
        obtain ⟨last, hlast, hle⟩ := h.accepted_le a hold
        exact Nat.le_trans hle (Nat.le_trans ((h.kept a.key).le_clock last hlast) hclock)
      | inr hnew => rw [List.mem_singleton.mp hnew]
    · rw [lastAccepted_accept_of_ne hkey]
      cases List.mem_append.mp ha with
      | inl hold => exact h.accepted_le a hold
      | inr hnew => exact absurd (congrArg AcceptedReport.key (List.mem_singleton.mp hnew)) hkey
  spaced := by
    apply spaced_concat.mpr
    refine ⟨h.spaced, ?_⟩
    intro a ha hkey
    change a.key = pd.key at hkey
    obtain ⟨last, hlast, hle⟩ := h.accepted_le a ha
    have hkept := h.kept a.key
    rw [hlast] at hkept
    have hgap : last + acceptIntervalMs ≤ now := by
      apply hkept.gap_le hclock (by decide)
      intro ad had
      exact ts_le_of_accepted haccepted (hkey ▸ had)
    exact Nat.le_trans (Nat.add_le_add_right hle _) hgap
  looking other looking hlooking := by
    cases lookups_report hlooking with
    | inr hnew =>
      obtain ⟨rfl, -, hzero, -⟩ := hnew
      rw [← key_of_unaddressed hzero]
      exact ⟨hzero, now, lastAccepted_accept_self⟩
    | inl hold =>
      obtain ⟨hzero, last, hlast⟩ := h.looking other looking hold
      refine ⟨hzero, ?_⟩
      by_cases hkey : callSignKey looking.callSign = pd.key
      · rw [hkey]
        exact ⟨now, lastAccepted_accept_self⟩
      · rw [lastAccepted_accept_of_ne hkey]
        exact ⟨last, hlast⟩

/-- A report that is not accepted. -/
theorem Tracks.reject (h : Tracks o s) (hclock : s.clock ≤ now)
    (hrejected : (s.known.newPositionReport pd now).2 = false) :
    Tracks o (s.report thread pd now) where
  started := Nat.le_trans h.started hclock
  kept key := by
    by_cases hkey : key = pd.key
    · subst hkey
      change Kept _ _ _ now ((s.known.newPositionReport pd now).1.aircraft _)
      rw [h.aircraft_of_rejected hclock hrejected]
      exact (h.kept _).later hclock
    · exact h.kept_other hclock hkey
  accepted_le := h.accepted_le
  spaced := h.spaced
  looking other looking hlooking := by
    cases lookups_report hlooking with
    | inl hold => exact h.looking other looking hold
    | inr hnew => exact absurd hnew.2.2.2 (Bool.eq_false_iff.mp hrejected)

/-- A lookup, whether the aircraft is still tracked or not. -/
theorem Tracks.lookup (h : Tracks o s) (hlooking : s.lookups thread = some pd) (icaoAddress : UInt32) :
    Tracks (o.forward thread pd.callSign icaoAddress s.clock) (s.lookup thread pd) where
  started := h.started
  kept key := by
    change Kept _ _ (o.lastAccepted key) s.clock
      ((s.known.getAircraftICAOAddress pd.callSign).1.aircraft key)
    cases hentry : s.known.aircraft key with
    | some ad =>
      rw [KnownAircraft.aircraft_getAircraftICAOAddress hentry, ← hentry]
      exact h.kept key
    | none =>
      have hkept := h.kept key
      rw [hentry] at hkept
      rw [KnownAircraft.getAircraftICAOAddress, KnownAircraft.aircraft_findAircraft]
      by_cases hkey : key = aircraftKey pd.callSign 0
      · subst hkey
        rw [Function.update_self, KnownAircraft.findAircraft_of_none hentry]
        obtain ⟨-, last, hlast⟩ := h.looking thread pd hlooking
        rw [aircraftKey_zero, hlast] at hkept ⊢
        exact hkept.recreate rfl
      · rw [Function.update_of_ne hkey, hentry]
        exact hkept
  accepted_le := h.accepted_le
  spaced := h.spaced
  looking other looking hlookup := by
    by_cases hother : other = thread
    · rw [hother] at hlookup
      exact absurd hlookup (by simp [PositionReports.lookup])
    · apply h.looking other looking
      simpa only [PositionReports.lookup, Function.update_of_ne hother] using hlookup

end Track

/-- How the aircraft without an address are identified. -/
structure Identifies (o : PositionRecord) (s : PositionReports) : Prop where
  synthesises : s.known.Synthesises
  looking_le : ∀ thread pd, s.lookups thread = some pd →
    o.lookupSeries thread ≤ o.series (callSignKey pd.callSign)
  series_le : ∀ f ∈ o.forwarded, f.series ≤ o.series (callSignKey f.callSign)
  accepted : ∀ f ∈ o.forwarded, ∃ last, o.lastAccepted (callSignKey f.callSign) = some last
  synthetic : ∀ f ∈ o.forwarded, Synthetic f.icaoAddress
  -- the entry still carries the address of the series that is not over
  current : ∀ f ∈ o.forwarded, f.prompt = true → f.series = o.series (callSignKey f.callSign) →
    o.alive (callSignKey f.callSign) s.clock = true →
    ∀ ad, s.known.aircraft (callSignKey f.callSign) = some ad → ad.icaoAddress = f.icaoAddress
  unchanging : ∀ f ∈ o.forwarded, ∀ g ∈ o.forwarded, f.callSign = g.callSign →
    f.series = g.series → f.prompt = true → g.prompt = true → f.icaoAddress = g.icaoAddress

section Identify

variable {o : PositionRecord} {s : PositionReports} {thread : ℕ} {pd : PeerPosition} {now : ℕ}

/-- An aircraft that is alive is tracked. -/
theorem Tracks.tracked_of_alive (h : Tracks o s) {key : String} (halive : o.alive key s.clock = true) :
    ∃ ad, s.known.aircraft key = some ad := by
  obtain ⟨last, hlast, hrecent⟩ := alive_iff.mp halive
  obtain ⟨ad, had, -⟩ := (h.kept key).kept last hlast hrecent
  exact ⟨ad, had⟩

/-- The series of an aircraft goes on with an accepted report only if it was alive. -/
theorem Identifies.alive_of_accept (h : Identifies o s) (hclock : s.clock ≤ now) {key : String}
    {f : ForwardedReport} (hf : f ∈ o.forwarded)
    (hseries : f.series = (o.accept thread key now).series (callSignKey f.callSign))
    (halive : (o.accept thread key now).alive (callSignKey f.callSign) now = true) :
    f.series = o.series (callSignKey f.callSign) ∧
      o.alive (callSignKey f.callSign) s.clock = true := by
  by_cases hkey : callSignKey f.callSign = key
  · obtain ⟨last, hlast⟩ := h.accepted f hf
    have hle := h.series_le f hf
    rw [hkey] at hseries hle hlast ⊢
    rw [series_accept_self, nextSeries] at hseries
    split at hseries
    · next hgoes =>
      have hnone : ¬o.lastAccepted key = none := by simp [hlast]
      exact ⟨hseries, alive_of_le (hgoes.resolve_right hnone) hclock⟩
    · omega
  · rw [series_accept_of_ne hkey] at hseries
    rw [alive, lastAccepted_accept_of_ne hkey] at halive
    exact ⟨hseries, alive_of_le halive hclock⟩

/-- An entry that is left after a report carries the address it had. -/
theorem Identifies.current_report (h : Identifies o s) (htracks : Tracks o s) {f : ForwardedReport}
    (hf : f ∈ o.forwarded) (hprompt : f.prompt = true)
    (hseries : f.series = o.series (callSignKey f.callSign))
    (halive : o.alive (callSignKey f.callSign) s.clock = true) {ad : AircraftDetails}
    (had : (s.report thread pd now).known.aircraft (callSignKey f.callSign) = some ad) :
    ad.icaoAddress = f.icaoAddress := by
  obtain ⟨old, hold⟩ := htracks.tracked_of_alive halive
  rw [KnownAircraft.icaoAddress_newPositionReport hold had]
  exact h.current f hf hprompt hseries halive old hold

/-- An accepted report. -/
theorem Identifies.accept (h : Identifies o s) (htracks : Tracks o s) (hclock : s.clock ≤ now)
    (hidle : s.lookups thread = none) :
    Identifies (o.accept thread pd.key now) (s.report thread pd now) where
  synthesises := h.synthesises.newPositionReport pd now
  looking_le other looking hlooking := by
    cases lookups_report hlooking with
    | inl hold =>
      have hother : other ≠ thread := by
        intro hother
        rw [hother, hidle] at hold
        exact Option.some_ne_none looking hold.symm
      change Function.update o.lookupSeries thread _ other ≤ _
      rw [Function.update_of_ne hother]
      exact Nat.le_trans (h.looking_le other looking hold) (series_le_accept _)
    | inr hnew =>
      obtain ⟨rfl, rfl, hzero, -⟩ := hnew
      rw [← key_of_unaddressed hzero, series_accept_self]
      exact Nat.le_of_eq (Function.update_self _ _ _)
  series_le f hf := Nat.le_trans (h.series_le f hf) (series_le_accept _)
  accepted f hf := by
    by_cases hkey : callSignKey f.callSign = pd.key
    · rw [hkey]
      exact ⟨now, lastAccepted_accept_self⟩
    · rw [lastAccepted_accept_of_ne hkey]
      exact h.accepted f hf
  synthetic := h.synthetic
  current f hf hprompt hseries halive ad had := by
    obtain ⟨hsame, hbefore⟩ := h.alive_of_accept hclock hf hseries halive
    exact h.current_report htracks hf hprompt hsame hbefore had
  unchanging := h.unchanging

/-- A report that is not accepted. -/
theorem Identifies.reject (h : Identifies o s) (htracks : Tracks o s) (hclock : s.clock ≤ now)
    (hrejected : (s.known.newPositionReport pd now).2 = false) :
    Identifies o (s.report thread pd now) where
  synthesises := h.synthesises.newPositionReport pd now
  looking_le other looking hlooking := by
    cases lookups_report hlooking with
    | inl hold => exact h.looking_le other looking hold
    | inr hnew => exact absurd hnew.2.2.2 (Bool.eq_false_iff.mp hrejected)
  series_le := h.series_le
  accepted := h.accepted
  synthetic := h.synthetic
  current f hf hprompt hseries halive ad had :=
    h.current_report htracks hf hprompt hseries (alive_of_le halive hclock) had
  unchanging := h.unchanging

/-- A prompt lookup finds the address that the aircraft was forwarded under in the series. -/
theorem Identifies.lookup_eq (h : Identifies o s) (htracks : Tracks o s) {f : ForwardedReport}
    (hf : f ∈ o.forwarded) (hcallSign : f.callSign = pd.callSign)
    (hseries : f.series = o.series (callSignKey pd.callSign)) (hprompt : f.prompt = true)
    (halive : o.alive (callSignKey pd.callSign) s.clock = true) :
    f.icaoAddress = (s.known.getAircraftICAOAddress pd.callSign).2 := by
  obtain ⟨ad, had⟩ := htracks.tracked_of_alive halive
  have hcurrent := h.current f hf hprompt (hcallSign ▸ hseries) (hcallSign ▸ halive) ad
    (hcallSign ▸ had)
  rw [KnownAircraft.getAircraftICAOAddress, KnownAircraft.findAircraft_of_some had, hcurrent]

/-- The address of a lookup. -/
theorem Identifies.lookup (h : Identifies o s) (htracks : Tracks o s)
    (hlooking : s.lookups thread = some pd) :
    Identifies (o.forward thread pd.callSign (s.known.getAircraftICAOAddress pd.callSign).2 s.clock)
      (s.lookup thread pd) where
  synthesises := h.synthesises.getAircraftICAOAddress pd.callSign
  looking_le other looking hlookup := by
    by_cases hother : other = thread
    · rw [hother] at hlookup
      exact absurd hlookup (by simp [PositionReports.lookup])
    · apply h.looking_le other looking
      simpa only [PositionReports.lookup, Function.update_of_ne hother] using hlookup
  series_le f hf := by
    cases List.mem_append.mp hf with
    | inl hold => exact h.series_le f hold
    | inr hnew =>
      rw [List.mem_singleton.mp hnew]
      exact h.looking_le thread pd hlooking
  accepted f hf := by
    cases List.mem_append.mp hf with
    | inl hold => exact h.accepted f hold
    | inr hnew =>
      rw [List.mem_singleton.mp hnew]
      exact (htracks.looking thread pd hlooking).2
  synthetic f hf := by
    cases List.mem_append.mp hf with
    | inl hold => exact h.synthetic f hold
    | inr hnew =>
      rw [List.mem_singleton.mp hnew]
      exact h.synthesises.found pd.callSign
  current f hf hprompt hseries halive ad had := by
    obtain ⟨old, hentry⟩ := htracks.tracked_of_alive halive
    have hsame : old = ad := by
      apply Option.some.inj
      rw [← had]
      exact (KnownAircraft.aircraft_getAircraftICAOAddress hentry).symm
    subst hsame
    cases List.mem_append.mp hf with
    | inl hold => exact h.current f hold hprompt hseries halive old hentry
    | inr hnew =>
      obtain rfl := List.mem_singleton.mp hnew
      rw [KnownAircraft.getAircraftICAOAddress, KnownAircraft.findAircraft_of_some hentry]
  unchanging f hf g hg hcallSign hseries hf_prompt hg_prompt := by
    cases List.mem_append.mp hf with
    | inl hfold =>
      cases List.mem_append.mp hg with
      | inl hgold => exact h.unchanging f hfold g hgold hcallSign hseries hf_prompt hg_prompt
      | inr hgnew =>
        obtain rfl := List.mem_singleton.mp hgnew
        obtain ⟨hcurrent, halive⟩ := Bool.and_eq_true_iff.mp hg_prompt
        exact h.lookup_eq htracks hfold hcallSign (hseries.trans (of_decide_eq_true hcurrent))
          hf_prompt halive
    | inr hfnew =>
      obtain rfl := List.mem_singleton.mp hfnew
      cases List.mem_append.mp hg with
      | inl hgold =>
        obtain ⟨hcurrent, halive⟩ := Bool.and_eq_true_iff.mp hf_prompt
        exact (h.lookup_eq htracks hgold hcallSign.symm
          (hseries.symm.trans (of_decide_eq_true hcurrent)) hg_prompt halive).symm
      | inr hgnew => rw [List.mem_singleton.mp hgnew]

/-- A fresh table is tracked by an empty record and identifies every aircraft. -/
theorem identifies_start (clock : ℕ) (hclock : acceptIntervalMs ≤ clock) :
    Tracks {} (PositionReports.start clock) ∧ Identifies {} (PositionReports.start clock) := by
  have hallocated : Synthetic firstIcaoAddressForUnknownAircraft :=
    ⟨UInt32.le_refl _, by decide⟩
  constructor
  · exact {
      started := hclock
      kept := fun _ => kept_none clock
      accepted_le := by simp
      spaced := List.Pairwise.nil
      looking := by simp [PositionReports.start] }
  · exact {
      synthesises := ⟨hallocated, by simp [PositionReports.start]⟩
      looking_le := by simp [PositionReports.start]
      series_le := by simp
      accepted := by simp
      synthetic := by simp
      current := by simp
      unchanging := by simp }

/-- A step of a thread keeps the table tracked by its record and every aircraft identified. -/
theorem identifies_step {e : PositionStep} {t : PositionReports} (h : Tracks o s ∧ Identifies o s)
    (hstep : s.step e = some t) : Tracks (o.record s e) t ∧ Identifies (o.record s e) t := by
  cases e with
  | report thread pd now =>
    simp only [PositionReports.step, Option.ite_none_right_eq_some, Option.some_inj] at hstep
    obtain ⟨⟨hidle, hclock⟩, rfl⟩ := hstep
    cases haccepted : (s.known.newPositionReport pd now).2 with
    | true =>
      rw [record, if_pos haccepted]
      exact ⟨h.1.accept hclock haccepted, h.2.accept h.1 hclock hidle⟩
    | false =>
      rw [record, if_neg (Bool.eq_false_iff.mp haccepted)]
      exact ⟨h.1.reject hclock haccepted, h.2.reject h.1 hclock haccepted⟩
  | lookup thread =>
    obtain ⟨pd, hlooking, rfl⟩ := Option.map_eq_some_iff.mp hstep
    rw [record, hlooking]
    exact ⟨h.1.lookup hlooking _, h.2.lookup h.1 hlooking⟩

/-- After every run the table is tracked by its record and every aircraft is identified. -/
theorem identifies_run {clock : ℕ} {es : List PositionStep} (hclock : acceptIntervalMs ≤ clock)
    (hrun : run PositionReports.step (PositionReports.start clock) es = some s) :
    Tracks (recorded clock es) s ∧ Identifies (recorded clock es) s := by
  apply invariant_of_observe (fun o s => Tracks o s ∧ Identifies o s) _
    (identifies_start clock hclock) (along_of_forall (fun _ _ => trivial) _ es) hrun
  intro o s e t h _ hstep
  exact identifies_step h hstep

end Identify

/-- What is promised of everything recorded: reports of one aircraft are accepted a second apart,
and one without an address is forwarded under a synthetic one, the same in all prompt forwards of
a series. -/
structure Identified (o : PositionRecord) : Prop where
  spaced : Spaced AcceptedReport.key AcceptedReport.time acceptIntervalMs o.accepted
  synthetic : ∀ f ∈ o.forwarded, f.icaoAddress ≠ 0 ∧ 0x1000 ≤ f.icaoAddress ∧
    f.icaoAddress ≤ 0xFFFFFF
  unchanging : ∀ f ∈ o.forwarded, ∀ g ∈ o.forwarded, f.callSign = g.callSign →
    f.series = g.series → f.prompt = true → g.prompt = true → f.icaoAddress = g.icaoAddress

/-- What is promised of the table after a report: the aircraft of the report is in it, and every
other one had a report accepted within the last five minutes. -/
structure KeepsRecent (o : PositionRecord) (s : PositionReports) (key : String) (now : ℕ) :
    Prop where
  own : ∃ ad, s.known.aircraft key = some ad
  recent : ∀ other ad, s.known.aircraft other = some ad →
    ∃ a ∈ o.accepted, a.key = other ∧ a.time ≤ now ∧ now ≤ a.time + aircraftEvictionAge

section Run

variable {clock : ℕ} {es : List PositionStep} {t : PositionReports}

/-- The last accepted report of an aircraft was accepted. -/
theorem exists_accepted {o : PositionRecord} {key : String} {last : ℕ}
    (h : o.lastAccepted key = some last) : ∃ a ∈ o.accepted, a.key = key ∧ a.time = last := by
  obtain ⟨a, ha, rfl⟩ := Option.map_eq_some_iff.mp h
  have hmem := List.mem_filter.mp (List.mem_of_getLast? ha)
  exact ⟨a, hmem.1, of_decide_eq_true hmem.2, rfl⟩

/-- After a report, the table keeps what had a report accepted within five minutes. -/
theorem Tracks.keepsRecent {o : PositionRecord} {s : PositionReports} {thread : ℕ}
    {pd : PeerPosition} {now : ℕ} (h : Tracks o (s.report thread pd now)) :
    KeepsRecent o (s.report thread pd now) pd.key now where
  own := by
    simp only [PositionReports.report, KnownAircraft.aircraft_newPositionReport,
      Function.update_self]
    exact ⟨_, rfl⟩
  recent other ad had := by
    have hkept := h.kept other
    rw [had] at hkept
    have hrecent : now ≤ ad.ts + aircraftEvictionAge :=
      Nat.le_of_not_lt (of_decide_eq_false (KnownAircraft.not_stale_of_newPositionReport had))
    have hlast := hkept.last_eq hrecent
    obtain ⟨a, ha, hkey, htime⟩ := exists_accepted hlast
    exact ⟨a, ha, hkey, htime ▸ hkept.le_clock ad.ts hlast, htime ▸ hrecent⟩

/-- For every run of any threads and reports whose clock has reached a second. -/
theorem identified_throughout (hclock : 1000 ≤ clock)
    (hrun : run PositionReports.step (PositionReports.start clock) es = some t) :
    (recorded clock es).Identified ∧
      ∀ before thread pd now, es = before ++ [.report thread pd now] →
        (recorded clock es).KeepsRecent t pd.key now := by
  obtain ⟨htracks, hidentifies⟩ := identifies_run hclock hrun
  constructor
  · constructor
    · exact htracks.spaced
    · intro f hf
      obtain ⟨hfirst, hlast⟩ := hidentifies.synthetic f hf
      refine ⟨?_, hfirst, hlast⟩
      intro hzero
      rw [hzero] at hfirst
      exact absurd hfirst (by decide)
    · exact hidentifies.unchanging
  · rintro before thread pd now rfl
    rw [run_concat] at hrun
    obtain ⟨s, -, hstep⟩ := Option.bind_eq_some_iff.mp hrun
    simp only [PositionReports.step, Option.ite_none_right_eq_some, Option.some_inj] at hstep
    obtain ⟨-, rfl⟩ := hstep
    exact htracks.keepsRecent

/-- An aircraft reports at a gap of five minutes less a second, then another one does. -/
def lookedUpInTime : List PositionStep :=
  [.report 0 { callSign := "A" } 1000, .lookup 0, .report 0 { callSign := "A" } 300000, .lookup 0,
    .report 1 { callSign := "B", icaoAddress := 7 } 600000]

/-- The first is still tracked at the end, and was forwarded under one address. -/
theorem lookedUpInTime_identified :
    ∃ t, run PositionReports.step (PositionReports.start 1000) lookedUpInTime = some t ∧
      (recorded 1000 lookedUpInTime).Identified ∧
      (recorded 1000 lookedUpInTime).KeepsRecent t (aircraftKey "B" 7) 600000 ∧
      (recorded 1000 lookedUpInTime).forwarded =
        [{ callSign := "A", icaoAddress := 0x1001, series := 0, prompt := true },
          { callSign := "A", icaoAddress := 0x1001, series := 0, prompt := true }] := by
  obtain ⟨t, ht⟩ : ∃ t, run PositionReports.step (PositionReports.start 1000) lookedUpInTime =
    some t := ⟨_, rfl⟩
  obtain ⟨hidentified, hrecent⟩ := identified_throughout (Nat.le_refl 1000) ht
  exact ⟨t, ht, hidentified, hrecent lookedUpInTime.dropLast 1
    { callSign := "B", icaoAddress := 7 } 600000 rfl, by decide⟩

/-- The second report of an aircraft is looked up after another one has swept its entry. -/
def sweptBeforeLookup : List PositionStep :=
  [.report 0 { callSign := "A" } 1000, .lookup 0, .report 0 { callSign := "A" } 2000,
    .report 1 { callSign := "B", icaoAddress := 7 } 302001, .lookup 0]

/-- An aircraft is forwarded under two addresses, though its reports were accepted a second apart.
-/
theorem sweptBeforeLookup_changes_address :
    ¬∀ clock es t, 1000 ≤ clock →
      run PositionReports.step (PositionReports.start clock) es = some t →
      ∀ f ∈ (recorded clock es).forwarded, ∀ g ∈ (recorded clock es).forwarded,
        f.callSign = g.callSign → f.series = g.series → f.icaoAddress = g.icaoAddress := by
  intro h
  obtain ⟨t, ht⟩ : ∃ t, run PositionReports.step (PositionReports.start 1000) sweptBeforeLookup =
    some t := ⟨_, rfl⟩
  have hsame := h 1000 sweptBeforeLookup t (Nat.le_refl 1000) ht
    { callSign := "A", icaoAddress := 0x1001, series := 0, prompt := true } (by decide)
    { callSign := "A", icaoAddress := 0x1002, series := 0, prompt := false } (by decide) rfl rfl
  exact absurd hsame (by decide)

end Run

end PositionRecord

end CapFmu
