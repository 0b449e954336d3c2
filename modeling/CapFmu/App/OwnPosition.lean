import CapFmu.Altitude.Wire
import CapFmu.Fss.PositionRate
import CapFmu.Mav.Coordinates
import CapFmu.StateMachine.Model
import Mathlib.Data.List.Forall2

/-!
# The own position, from the autopilot to the ground station

The recv thread turns a position message of the autopilot into an event, with the fix that the
autopilot reported last. The event loop shows it to the altitude latch and reports it to the ground
station, whose queue and rate limit drop some of the reports. What the servers see stems from the
messages in their order, and the latch sees every one of them. The magnitude of the velocity is the
standard library's.
-/

namespace CapFmu

open Numeric Transition

/-- The least fix that a position is backed by. -/
def gpsFixType2dFix : UInt8 := 2

/-- The fields of the autopilot's position message. -/
structure GlobalPositionInt where
  lat : Int32 := 0
  lon : Int32 := 0
  alt : Int32 := 0
  relativeAlt : Int32 := 0
  vx : Int16 := 0
  vy : Int16 := 0
  vz : Int16 := 0
  hdg : UInt16 := 0
  deriving DecidableEq

/-- The magnitude of the ground speed, towards zero. -/
def horizontalVelocity (hypot : ℚ → ℚ → ℚ) (vx vy : Int16) : UInt16 :=
  .ofNat (truncate (hypot vx.toInt vy.toInt)).toNat

/-- A position event of the own aircraft, with its altitude above ground besides. -/
structure OwnPositionEvent extends OwnPosition where
  altitudeAglMetres : Double

/-- The event for a message that comes with a fix. -/
def positionEvent (hypot : ℚ → ℚ → ℚ) (gpsFixType : UInt8) (msg : GlobalPositionInt) :
    OwnPositionEvent where
  position := { latitude := degE7ToDegrees msg.lat, longitude := degE7ToDegrees msg.lon }
  altitudeMetres := mavMmToMetres msg.alt
  heading := msg.hdg
  velocityHorizontal := horizontalVelocity hypot msg.vx msg.vy
  velocityVertical := msg.vz
  flags := if gpsFixType2dFix ≤ gpsFixType then positionFlagValidCoords else 0
  altitudeAglMetres := mavMmToMetres msg.relativeAlt

/-- What the altitude latch is shown of a position. -/
def OwnPositionEvent.reading (pd : OwnPositionEvent) : FmuEvent :=
  .setCurrentAltitude (pd.flags &&& positionFlagValidCoords ≠ 0) pd.altitudeAglMetres

/-- Whether the event is an altitude, which only positions carry. -/
def FmuEvent.isAltitude : FmuEvent → Bool
  | .setCurrentAltitude _ _ => true
  | _ => false

/-- An event in the queue: a position, or an event of the state machine of any other source. -/
inductive OwnQueued
  | position (pd : OwnPositionEvent)
  | other (e : { e : FmuEvent // e.isAltitude = false })

/-- The position of a queued event. -/
def OwnQueued.position? : OwnQueued → Option OwnPositionEvent
  | position pd => some pd
  | other _ => none

/-- The recv thread's fix, the event loop's queue, the state machine and the reporter. The messages
received are recorded with the fix they came with, and the events that the state machine handled. -/
structure PositionPath (Responder : Type*) where
  gpsFixType : UInt8 := 0
  eventQueue : List OwnQueued := []
  machine : FmuStateMachine
  reporter : PositionReporter Responder
  received : List (UInt8 × GlobalPositionInt) := []
  handled : List FmuEvent := []

/-- The messages of the autopilot, the other events, the event loop, and what the reporter does
besides: its worker, and the tasks of other sources. -/
inductive PositionPathLabel (Responder : Type*)
  | gpsRawInt (fixType : UInt8)
  | globalPositionInt (msg : GlobalPositionInt)
  | other (e : { e : FmuEvent // e.isAltitude = false })
  | dispatch
  | reporter (label : PositionReporterLabel Responder)

/-- Whether the reporter's step reports a position. -/
def PositionReporterLabel.reportsPosition {Responder : Type*} :
    PositionReporterLabel Responder → Bool
  | enqueue task => task.position?.isSome
  | worker _ _ | stopWorker => false

namespace PositionPath

variable {Responder : Type*}

/-- The event loop takes one event. -/
def dispatch (s : PositionPath Responder) (rest : List OwnQueued) :
    OwnQueued → PositionPath Responder
  | .position pd =>
    { s with
      eventQueue := rest
      machine := (s.machine.handle pd.reading).1
      handled := s.handled ++ [pd.reading]
      reporter := { s.reporter with
        sender := s.reporter.sender.enqueue (.position (fssReportPosition pd.toOwnPosition)) } }
  | .other e =>
    { s with
      eventQueue := rest
      machine := (s.machine.handle e.1).1
      handled := s.handled ++ [e.1] }

/-- One step. -/
def step (hypot : ℚ → ℚ → ℚ) (s : PositionPath Responder) :
    PositionPathLabel Responder → Option (PositionPath Responder)
  | .gpsRawInt fixType => some { s with gpsFixType := fixType }
  | .globalPositionInt msg =>
    some { s with
      eventQueue := s.eventQueue ++ [.position (positionEvent hypot s.gpsFixType msg)]
      received := s.received ++ [(s.gpsFixType, msg)] }
  | .other e => some { s with eventQueue := s.eventQueue ++ [.other e] }
  | .dispatch =>
    match s.eventQueue with
    | [] => none
    | e :: rest => some (s.dispatch rest e)
  | .reporter label =>
    if label.reportsPosition then none
    else (s.reporter.step label).map fun reporter => { s with reporter := reporter }

/-- Before any message. -/
def init (machine : FmuStateMachine) (assetName : String) : PositionPath Responder :=
  { machine := machine, reporter := .init assetName }

/-- The events of the messages received. -/
def events (hypot : ℚ → ℚ → ℚ) (s : PositionPath Responder) : List OwnPositionEvent :=
  s.received.map fun m => positionEvent hypot m.1 m.2

/-- The positions that wait for the event loop. -/
def waiting (s : PositionPath Responder) : List OwnPositionEvent :=
  s.eventQueue.filterMap OwnQueued.position?

/-- The books of the path, from the state machine at its start. -/
structure Carries (hypot : ℚ → ℚ → ℚ) (start : FmuStateMachine) (s : PositionPath Responder) :
    Prop where
  machine : s.machine = s.handled.foldl (fun m e => (m.handle e).1) start
  readings : s.handled.filter FmuEvent.isAltitude ++ s.waiting.map OwnPositionEvent.reading =
    (s.events hypot).map OwnPositionEvent.reading
  tasks : PositionReporter.positions s.reporter.sender.enqueued ++
      s.waiting.map (fun pd => fssReportPosition pd.toOwnPosition) =
    (s.events hypot).map fun pd => fssReportPosition pd.toOwnPosition
  reports : s.reporter.Reports

/-- A report to the servers stems from a message that came with a fix: it carries the coordinates,
the velocity and the heading of the message, the feet nearest to its altitude where they fit, and
marks the coordinates valid if the fix was one. -/
structure StemsFrom (hypot : ℚ → ℚ → ℚ) (m : UInt8 × GlobalPositionInt) (r : FssPositionReport) :
    Prop where
  lat : r.lat = degE7ToDegrees m.2.lat
  lng : r.lng = degE7ToDegrees m.2.lon
  alt : FeetFit m.2.alt → IsNearest (m.2.alt.toInt / (3048 / 10)) r.alt.toInt
  heading : r.heading = m.2.hdg
  horVel : r.horVel = horizontalVelocity hypot m.2.vx m.2.vy
  verVel : r.verVel = m.2.vz
  flags : r.flags &&& 1 = if gpsFixType2dFix ≤ m.1 then 1 else 0

section Message

variable (hypot : ℚ → ℚ → ℚ) (gpsFixType : UInt8) (msg : GlobalPositionInt)

/-- The flag of an event is the fix of its message. -/
theorem flags_positionEvent :
    ((positionEvent hypot gpsFixType msg).flags &&& positionFlagValidCoords ≠ 0) ↔
      gpsFixType2dFix ≤ gpsFixType := by
  simp only [positionEvent]
  split_ifs with hfix <;> simp [hfix, positionFlagValidCoords]

/-- The altitude latch is shown the altitude above ground, and whether there was a fix. -/
theorem reading_positionEvent :
    (positionEvent hypot gpsFixType msg).reading =
      .setCurrentAltitude (decide (gpsFixType2dFix ≤ gpsFixType))
        (mavMmToMetres msg.relativeAlt) := by
  simp only [OwnPositionEvent.reading, flags_positionEvent]
  rfl

/-- What is reported of a message stems from it. -/
theorem stemsFrom_report (assetName : String) {p : HandedPosition}
    (h : p.task = fssReportPosition (positionEvent hypot gpsFixType msg).toOwnPosition) :
    StemsFrom hypot (gpsFixType, msg) (p.report assetName) := by
  have hflags := (p.flags_report assetName).1
  have hfix : p.task.fixValid = decide (gpsFixType2dFix ≤ gpsFixType) := by
    rw [h]
    simp only [fssReportPosition, flags_positionEvent]
  constructor
  · simp only [HandedPosition.report, h]
    rfl
  · simp only [HandedPosition.report, h]
    rfl
  · intro hfit
    obtain ⟨hlo, hhi⟩ := (AltitudeBoundary.wholeFeet_mem_iff msg.alt).mpr hfit
    have hfeet : (p.report assetName).alt.toInt = wholeFeet (mavMmToMetres msg.alt) := by
      simp only [HandedPosition.report, h, fssReportPosition, positionEvent]
      exact Int16.toInt_ofInt_of_le hlo (Int.lt_of_le_sub_one hhi)
    rw [hfeet]
    exact isNearest_wholeFeet msg.alt
  · simp only [HandedPosition.report, h]
    rfl
  · simp only [HandedPosition.report, h]
    rfl
  · simp only [HandedPosition.report, h]
    rfl
  · rw [hflags, hfix]
    simp

/-- The latch sees an altitude over the cap exactly when it is, in the autopilot's millimetres. -/
theorem overAltitudeCap_iff (millimetres : Int32) (altitudeCapM : UInt16) :
    overAltitudeCap (binary64 (millimetres.toInt / 1000)) altitudeCapM = true ↔
      1000 * (altitudeCapM.toNat : ℤ) < millimetres.toInt := by
  have hcap : binary64 (altitudeCapM.toNat : ℤ) = altitudeCapM.toNat := by
    have hsize := altitudeCapM.toNat_lt
    rw [binary64_intCast (by rw [abs_of_nonneg (Int.natCast_nonneg _)]; omega), Int.cast_natCast]
  rw [overAltitudeCap, decide_eq_true_iff]
  constructor
  · intro hover
    by_contra hunder
    have hle : (millimetres.toInt / 1000 : ℚ) ≤ (altitudeCapM.toNat : ℤ) := by
      rw [div_le_iff₀ (by norm_num)]
      exact_mod_cast (by omega : millimetres.toInt ≤ altitudeCapM.toNat * 1000)
    have hmono := binary64_mono hle
    rw [hcap] at hmono
    exact absurd hover (not_lt.mpr hmono)
  · intro hover
    have herror := (abs_le.mp (abs_metres_sub_le millimetres)).1
    have hmetre : (altitudeCapM.toNat : ℚ) + 1 / 1000 ≤ millimetres.toInt / 1000 := by
      rw [le_div_iff₀ (by norm_num)]
      have hwhole : (1000 * (altitudeCapM.toNat : ℤ) + 1 : ℚ) ≤ millimetres.toInt := by
        exact_mod_cast hover
      push_cast at hwhole
      linarith
    norm_num at herror
    linarith

end Message

variable {hypot : ℚ → ℚ → ℚ} {start : FmuStateMachine} {s t : PositionPath Responder}

/-- An event of another source is no altitude. -/
theorem filter_isAltitude_other (e : { e : FmuEvent // e.isAltitude = false }) :
    [e.1].filter FmuEvent.isAltitude = [] := by
  simp [e.2]

/-- Dispatching an event keeps the books. -/
theorem carries_dispatch (h : s.Carries hypot start) {e : OwnQueued} {rest : List OwnQueued}
    (hqueue : s.eventQueue = e :: rest) : (s.dispatch rest e).Carries hypot start := by
  have hwaiting : s.waiting = e.position?.toList ++ rest.filterMap OwnQueued.position? := by
    rw [waiting, hqueue]
    cases e <;> rfl
  have hreadings := h.readings
  have htasks := h.tasks
  rw [hwaiting] at hreadings htasks
  cases e with
  | position pd =>
    constructor
    · rw [dispatch, List.foldl_append, ← h.machine]
      rfl
    · have hself : [pd.reading].filter FmuEvent.isAltitude = [pd.reading] := rfl
      simp only [dispatch, List.filter_append, hself]
      simpa [waiting, events, OwnQueued.position?] using hreadings
    · simpa [dispatch, waiting, events, OwnQueued.position?, FssSender.enqueue,
        PositionReporter.positions, FssTask.position?] using htasks
    · exact { h.reports with books := h.reports.books.enqueue _ }
  | other e =>
    constructor
    · rw [dispatch, List.foldl_append, ← h.machine]
      rfl
    · simp only [dispatch, List.filter_append, filter_isAltitude_other, List.append_nil]
      simpa [waiting, events, OwnQueued.position?] using hreadings
    · simpa [dispatch, waiting, events, OwnQueued.position?] using htasks
    · exact h.reports

/-- What the reporter does besides reports no position. -/
theorem positions_enqueued_step {r r' : PositionReporter Responder}
    {label : PositionReporterLabel Responder} (hbooks : r.Reports)
    (hlabel : label.reportsPosition = false) (hstep : r.step label = some r') :
    PositionReporter.positions r'.sender.enqueued =
      PositionReporter.positions r.sender.enqueued := by
  cases label with
  | enqueue task =>
    obtain rfl := Option.some.inj hstep
    have hnone : task.position? = none :=
      Option.isNone_iff_eq_none.mp (Option.isSome_eq_false_iff.mp hlabel)
    simp [FssSender.enqueue, PositionReporter.positions, hnone]
  | stopWorker =>
    obtain rfl := Option.some.inj hstep
    rfl
  | worker nowNs timestamp =>
    simp only [PositionReporter.step] at hstep
    split_ifs at hstep
    obtain ⟨sender, hworker, rfl⟩ := Option.map_eq_some_iff.mp hstep
    have henqueued := (FssSender.accounted_workerLoop hbooks.books hworker).2.1
    cases r.position? <;> exact congrArg PositionReporter.positions henqueued

/-- Every step keeps the books. -/
theorem carries_step {label : PositionPathLabel Responder} (h : s.Carries hypot start)
    (hstep : s.step hypot label = some t) : t.Carries hypot start := by
  cases label with
  | gpsRawInt fixType =>
    obtain rfl := Option.some.inj hstep
    exact ⟨h.machine, h.readings, h.tasks, h.reports⟩
  | globalPositionInt msg =>
    obtain rfl := Option.some.inj hstep
    have hwaiting : waiting { s with
        eventQueue := s.eventQueue ++ [.position (positionEvent hypot s.gpsFixType msg)]
        received := s.received ++ [(s.gpsFixType, msg)] } =
          s.waiting ++ [positionEvent hypot s.gpsFixType msg] := by
      simp [waiting, OwnQueued.position?]
    refine ⟨h.machine, ?_, ?_, h.reports⟩
    · rw [hwaiting, List.map_append, ← List.append_assoc, h.readings]
      simp [events]
    · rw [hwaiting, List.map_append, ← List.append_assoc, h.tasks]
      simp [events]
  | other e =>
    obtain rfl := Option.some.inj hstep
    have hsame : waiting { s with eventQueue := s.eventQueue ++ [.other e] } = s.waiting := by
      simp [waiting, OwnQueued.position?]
    refine ⟨h.machine, ?_, ?_, h.reports⟩
    · rw [hsame]
      exact h.readings
    · rw [hsame]
      exact h.tasks
  | dispatch =>
    simp only [step] at hstep
    split at hstep
    next => cases hstep
    next e rest hqueue =>
      obtain rfl := Option.some.inj hstep
      exact carries_dispatch h hqueue
  | reporter label =>
    simp only [step] at hstep
    split_ifs at hstep with hlabel
    obtain ⟨reporter, hreporter, rfl⟩ := Option.map_eq_some_iff.mp hstep
    refine ⟨h.machine, h.readings, ?_, PositionReporter.reports_step h.reports hreporter⟩
    rw [positions_enqueued_step h.reports (Bool.eq_false_iff.mpr hlabel) hreporter]
    exact h.tasks

/-- The magnitude of whole velocities, as far as it is whole. -/
def wholeHypot (x y : ℚ) : ℚ := Nat.sqrt (x ^ 2 + y ^ 2).num.toNat

/-- Two positions in the same second, with a fix and without one. -/
def fixThenNone : List (PositionPathLabel Unit) :=
  [.gpsRawInt 3, .globalPositionInt { lat := 515000000, alt := 100000, vx := 300, vy := 400 },
    .dispatch, .reporter (.worker 5000000000 1), .gpsRawInt 1,
    .globalPositionInt { lat := 515000001, relativeAlt := 121000 },
    .reporter (.worker 5000000000 1), .other ⟨.setLowBattery true, rfl⟩, .dispatch, .dispatch,
    .reporter (.worker 5200000000 2), .reporter (.worker 5200000000 2)]

end PositionPath

end CapFmu
