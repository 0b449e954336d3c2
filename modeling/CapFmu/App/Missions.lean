import CapFmu.App.LoadOrder

/-!
# The mission that the autopilot has

The connection keeps flags about the search that it uploads. What the autopilot flies is another
matter: it takes the missions in the order of their counts, and its acknowledgements do not say
which of them they are about.

There are two ways in which the flags and the mission agree. If every upload is accepted, the
search on the autopilot or on its way there is the last mission that was sent, and is the one that
the autopilot has once all are answered. And if each acceptance is of the search that the flags
name as it is taken, a search that they name as loaded is the autopilot's mission at once. Neither
says anything during the preamble of an upload, since the search is replaced before the flag that
it is loaded is cleared.
-/

namespace CapFmu

/-- Whether the event loop is at the preamble of the upload of a search. -/
def LoopPc.isPreparing : LoopPc → Bool
  | resolve _ after | modeSend _ _ after | modeSettle after | modeDefer _ after =>
    !after.loads.isEmpty
  | searchArm _ => true
  | idle | directSend _ | directSettle | gotoActivate _ | gotoCount | gotoArm | loadCheck _
  | searchCount _ => false

/-- Whether the autopilot, once it has answered all uploads, has the mission of a search that is
loaded or loading, by the section that the event loop is at. -/
def LoopPc.Settles (settled : Option Upload) (s : SmmSearch) : LoopPc → Prop
  | gotoActivate _ | gotoCount => False
  | searchCount t => s = t
  | pc => pc.isPreparing = true ∨ settled = some (.search s)

/-- A search that is named as loaded is the mission of the autopilot, but for the preamble of an
upload. No search is loading and loaded, and none is loaded without being named. -/
structure MavConnection.Flies (c : MavConnection) (mission : Option Upload) (pc : LoopPc) :
    Prop where
  loaded : c.searchLoaded = true → pc.isPreparing = false →
    ∃ s, c.search = some s ∧ mission = some (.search s)
  exclusive : c.searchLoading = true → c.searchLoaded = false
  present : pc ≠ .loadCheck none

/-- A command that is started has no bearing on what the autopilot has. -/
theorem MavCall.settles_entry {call : MavCall} {settled : Option Upload} {s : SmmSearch}
    (h : LoopPc.idle.Settles settled s) : call.entry.Settles settled s := by
  have hsettled := h.resolve_left Bool.false_ne_true
  cases call <;> exact Or.inr hsettled

section Sections

variable {c d : MavConnection} {written : List WireEntry} {settled mission : Option Upload}

/-- A section of the event loop keeps the search that is carried the last mission sent. -/
theorem settles_loopSection {pc qc : LoopPc} (hstep : loopSection c pc = some (d, qc, written))
    (h : ∀ s, c.Carries s → pc.Settles settled s) {s : SmmSearch} (hcarries : d.Carries s) :
    qc.Settles ((pc.upload? c).or settled) s := by
  cases pc with
  | idle => cases hstep
  | resolve m after =>
    have hsettles := h s
    simp only [loopSection] at hstep
    split at hstep <;>
      · obtain ⟨rfl, rfl, -⟩ := Prod.mk.inj (Option.some.inj hstep)
        exact hsettles hcarries
  | modeSend m r after | directSend packet =>
    cases hstep
    exact h s hcarries
  | modeSettle after | modeDefer m after =>
    cases hstep
    exact absurd hcarries (MavConnection.not_carries_invalidateInFlightUpload _ s)
  | directSettle =>
    cases hstep
    exact absurd hcarries (MavConnection.not_carries_invalidateInFlightUpload _ s)
  | gotoActivate p =>
    cases hstep
    refine h s ⟨hcarries.1, Or.inr (hcarries.2.resolve_left ?_)⟩
    exact Bool.false_ne_true
  | gotoCount =>
    cases hstep
    exact (h s hcarries).elim
  | gotoArm =>
    cases hstep
    exact h s hcarries
  | loadCheck t =>
    simp only [loopSection, Option.some.injEq, Prod.mk.injEq] at hstep
    obtain ⟨rfl, rfl, -⟩ := hstep
    unfold MavConnection.checkReload at hcarries ⊢
    split_ifs at hcarries ⊢ with hreload
    · cases t with
      | none => cases hcarries.1
      | some t => exact Or.inl rfl
    · exact h s hcarries
  | searchArm t =>
    cases hstep
    exact (Option.some.inj hcarries.1).symm
  | searchCount t =>
    cases hstep
    have hsame : s = t := h s hcarries
    right
    rw [hsame]
    rfl

/-- With no search named as loaded there is nothing that the mission has to be. -/
theorem flies_of_not_loaded {pc : LoopPc} (hloaded : c.searchLoaded = false)
    (hpresent : pc ≠ .loadCheck none) : c.Flies mission pc where
  loaded := fun htrue => absurd (hloaded.symm.trans htrue) Bool.false_ne_true
  exclusive := fun _ => hloaded
  present := hpresent

/-- What is named as loaded stays the mission while no section names another search or loads one. -/
theorem MavConnection.Flies.congr {pc qc : LoopPc} (h : c.Flies mission pc)
    (hsearch : d.search = c.search) (hloaded : d.searchLoaded = true → c.searchLoaded = true)
    (hloading : d.searchLoading = true → c.searchLoading = true)
    (hpreparing : qc.isPreparing = false → pc.isPreparing = false)
    (hpresent : qc ≠ .loadCheck none) : d.Flies mission qc where
  loaded := by
    intro htrue hprepared
    rw [hsearch]
    exact h.loaded (hloaded htrue) (hpreparing hprepared)
  exclusive := by
    intro htrue
    have hnot := h.exclusive (hloading htrue)
    exact Bool.eq_false_iff.mpr fun hnow =>
      absurd (hnot.symm.trans (hloaded hnow)) Bool.false_ne_true
  present := hpresent

/-- A section of the event loop keeps what is named as loaded the mission of the autopilot. -/
theorem flies_loopSection {pc qc : LoopPc} (h : c.Flies mission pc)
    (hstep : loopSection c pc = some (d, qc, written)) : d.Flies mission qc := by
  cases pc with
  | idle => cases hstep
  | resolve m after =>
    simp only [loopSection] at hstep
    split at hstep <;>
      · obtain ⟨rfl, rfl, -⟩ := Prod.mk.inj (Option.some.inj hstep)
        exact h.congr rfl id id id (by simp)
  | modeSend m r after | directSend packet =>
    cases hstep
    exact h.congr rfl id id id (by simp)
  | modeSettle after | modeDefer m after =>
    cases hstep
    apply flies_of_not_loaded rfl
    cases after <;> simp [AfterMode.next]
  | directSettle | gotoActivate p | searchArm t =>
    cases hstep
    exact flies_of_not_loaded rfl (by simp)
  | gotoCount =>
    cases hstep
    refine h.congr rfl id id (fun _ => rfl) ?_
    split <;> simp
  | gotoArm | searchCount t =>
    cases hstep
    exact h.congr rfl id id (fun _ => rfl) (by simp)
  | loadCheck t =>
    simp only [loopSection, Option.some.injEq, Prod.mk.injEq] at hstep
    obtain ⟨rfl, rfl, -⟩ := hstep
    cases t with
    | none => exact absurd rfl h.present
    | some t =>
      unfold MavConnection.checkReload
      split_ifs
      · exact ⟨fun _ hprepared => absurd hprepared (by simp [uploadSearch, LoopPc.isPreparing,
          AfterMode.loads]), h.exclusive, by simp [uploadSearch]⟩
      · exact h.congr rfl id id (fun _ => rfl) (by simp)

end Sections

namespace App

/-- The mission of the autopilot once it has accepted every upload. -/
def settled (a : App) : Option Upload := a.outstanding.getLast?.or a.mission

/-- What the autopilot has is what is named as loaded. -/
def Flown (a : App) : Prop := a.mav.conn.Flies a.mission a.mav.loop

/-- Whether the upload that is answered next is of the search that the connection's flags name as
loading or loaded, if they name one. -/
def answersNamed (a : App) : Bool :=
  a.mav.loop.isPreparing ||
    match a.outstanding with
    | [] => !a.mav.conn.searchLoading
    | upload :: _ => !(a.mav.conn.searchLoading || a.mav.conn.searchLoaded) ||
        decide (a.mav.conn.search.map .search = some upload)

variable {a b : App}

/-- An answer does not change what the autopilot has in the end, if it is an acceptance. -/
theorem settled_answered (a : App) : (a.answered true).settled = a.settled := by
  unfold settled answered
  cases houtstanding : a.outstanding with
  | nil => rfl
  | cons upload rest =>
    cases rest with
    | nil => rfl
    | cons next rest =>
      obtain ⟨last, hlast⟩ : ∃ last, (next :: rest).getLast? = some last :=
        Option.isSome_iff_exists.mp (by simp)
      simp [hlast]

/-- With the link open a section of the event loop changes the mission in the end to that of the
upload that it opens. -/
theorem settled_withSection {conn : MavConnection} {loop : LoopPc} {written : List WireEntry}
    (hopen : a.mav.conn.fdOpen = true)
    (hsection : loopSection a.mav.conn a.mav.loop = some (conn, loop, written)) :
    (a.withSection { a.mav with
      conn := conn, loop := loop, wire := a.mav.wire ++ written }).settled =
      (a.mav.loop.upload? a.mav.conn).or a.settled := by
  have hopened := opened_of_loopSection hsection
  rw [if_pos hopen] at hopened
  simp only [settled, withSection, withMav, List.drop_left, hopened, List.getLast?_append]
  cases a.mav.loop.upload? a.mav.conn <;> rfl

/-- Making a call leaves the connection alone, or starts a command on it; no search that is to be
loaded is missing. -/
theorem perform_mav (a : App) (pos : Point) (call : AppCall) :
    (a.perform pos call).mission = a.mission ∧
      ((a.perform pos call).mav = a.mav ∨ ∃ command : MavCall, command.entry ≠ .loadCheck none ∧
        (a.perform pos call).mav = { a.mav with loop := command.entry }) := by
  cases call with
  | action act =>
    cases act with
    | setMode fm =>
      refine ⟨rfl, Or.inr ⟨flightModeCall a.gotoPosition fm, ?_, rfl⟩⟩
      cases fm <;> simp [flightModeCall, MavCall.entry, commandManual, commandGoto, commandHold,
        commandRtl]
    | disarm => exact ⟨rfl, Or.inr ⟨.disArm, by simp [MavCall.entry, commandDisArm], rfl⟩⟩
    | terminate =>
      refine ⟨rfl, Or.inr ⟨a.terminateAction.call, ?_, rfl⟩⟩
      cases a.terminateAction <;> simp [TerminateAction.call, MavCall.entry, commandRtl,
        commandForceDisArm, commandTerminate]
    | cancelSearch | search | gotoPosition _ | setAltitude _ | stateChange _ =>
      exact ⟨rfl, Or.inl rfl⟩
  | loadSearch search =>
    exact ⟨rfl, Or.inr ⟨.loadSearch (some search), by simp [MavCall.entry, CapFmu.loadSearch], rfl⟩⟩
  | reportPosition _ | reachedPoint _ _ | connect _ => exact ⟨rfl, Or.inl rfl⟩

/-- The event loop keeps what is named as loaded the mission of the autopilot. -/
theorem flown_stepLoop (h : a.Flown) {pos : Point} (hstep : a.stepLoop pos = some b) : b.Flown := by
  obtain ⟨hidle, call, rest, -, rfl⟩ | ⟨-, -, e, rest, -, rfl⟩ | ⟨-, mav, hmav, rfl⟩ :=
    stepLoop_cases hstep
  · obtain ⟨hmission, hmav⟩ := perform_mav { a with calls := rest } pos call
    rw [Flown, hmission]
    rcases hmav with hsame | ⟨command, hpresent, hstarted⟩
    · rw [hsame]
      exact h
    · rw [hstarted]
      have hrest : a.mav.loop.isPreparing = false := by
        rw [hidle]
        rfl
      exact MavConnection.Flies.congr h rfl id id (fun _ => hrest) hpresent
  · exact h
  · obtain ⟨⟨conn, loop, written⟩, hsection, rfl⟩ := Option.map_eq_some_iff.mp hmav
    exact flies_loopSection h hsection

/-- An answer of the autopilot keeps what is named as loaded its mission, if an acceptance is of the
search that is named. -/
theorem flown_missionAck (h : a.Flown) {accepted : Bool}
    (hcond : accepted = true → a.answersNamed = true)
    (hstep : a.next (.missionAck accepted) = some b) : b.Flown := by
  obtain ⟨c, hreceive, rfl⟩ := Option.map_eq_some_iff.mp hstep
  obtain ⟨-, mav, hmav, rfl⟩ := receive_eq_some hreceive
  obtain ⟨-, rfl⟩ := MavSystem.step_missionAck_eq_some.mp hmav
  refine ⟨?_, fun hloading => absurd hloading Bool.false_ne_true, h.present⟩
  intro hloaded (hprepared : a.mav.loop.isPreparing = false)
  cases accepted with
  | false =>
    have hwas : a.mav.conn.searchLoaded = true := by
      simpa [withMav, answered, MavConnection.ackDecision] using hloaded
    have hsettled : a.mav.conn.searchLoading = false :=
      Bool.eq_false_iff.mpr fun hopen => by simp [h.exclusive hopen] at hwas
    obtain ⟨s, hsearch, hmission⟩ := h.loaded hwas hprepared
    refine ⟨s, ?_, hmission⟩
    simpa [withMav, answered, MavConnection.ackDecision, hsettled] using hsearch
  | true =>
    have hnamed := hcond rfl
    rw [answersNamed, hprepared, Bool.false_or] at hnamed
    cases houtstanding : a.outstanding with
    | nil =>
      have hsettled : a.mav.conn.searchLoading = false := by simpa [houtstanding] using hnamed
      have hwas : a.mav.conn.searchLoaded = true := by
        simpa [withMav, answered, MavConnection.ackDecision, hsettled] using hloaded
      obtain ⟨s, hsearch, hmission⟩ := h.loaded hwas hprepared
      refine ⟨s, ?_, ?_⟩
      · simpa [withMav, answered, MavConnection.ackDecision] using hsearch
      · simpa [withMav, answered, houtstanding] using hmission
    | cons upload rest =>
      have hopen : (a.mav.conn.searchLoading || a.mav.conn.searchLoaded) = true := by
        cases hloading : a.mav.conn.searchLoading with
        | true => rfl
        | false => simpa [withMav, answered, MavConnection.ackDecision, hloading] using hloaded
      simp only [houtstanding, hopen, Bool.not_true, Bool.false_or, decide_eq_true_eq] at hnamed
      obtain ⟨s, hsearch, rfl⟩ := Option.map_eq_some_iff.mp hnamed
      refine ⟨s, ?_, ?_⟩
      · simpa [withMav, answered, MavConnection.ackDecision] using hsearch
      · simp [withMav, answered, houtstanding]

/-- Every step keeps what is named as loaded the mission of the autopilot, if the acceptances are of
the search that is named. -/
theorem flown_next (h : a.Flown) {e : AppLabel}
    (hcond : e = .missionAck true → a.answersNamed = true) (hstep : a.next e = some b) :
    b.Flown := by
  cases e with
  | loop pos => exact flown_stepLoop h hstep
  | missionAck accepted => exact flown_missionAck h (fun htrue => hcond (htrue ▸ rfl)) hstep
  | recv =>
    simp only [next, stepRecv] at hstep
    split_ifs at hstep
    · exact Option.some.inj hstep ▸ h
    · obtain ⟨mav, hmav, rfl⟩ := Option.map_eq_some_iff.mp hstep
      obtain ⟨⟨conn, recv, written⟩, hsection, rfl⟩ := Option.map_eq_some_iff.mp hmav
      obtain ⟨hsearch, hloading, hloaded⟩ := recvSection_search hsection
      exact MavConnection.Flies.congr h hsearch hloaded hloading.symm.trans id h.present
  | worker r =>
    obtain ⟨⟨v, effects⟩, -, rfl⟩ := Option.map_eq_some_iff.mp hstep
    obtain ⟨idx, hconn⟩ := observe_foldl effects a.mav.conn
    simp only [Flown, hconn]
    exact MavConnection.Flies.congr h rfl id id id h.present
  | heartbeat t =>
    obtain ⟨-, mav, hmav, rfl⟩ := receive_eq_some hstep
    obtain ⟨-, rfl⟩ := MavSystem.step_heartbeat_eq_some.mp hmav
    exact MavConnection.Flies.congr h rfl id id id h.present
  | missionRequest seq missionType =>
    obtain ⟨-, mav, hmav, rfl⟩ := receive_eq_some hstep
    obtain ⟨-, reply, -, rfl⟩ := MavSystem.step_missionRequest_eq_some.mp hmav
    exact h
  | autopilotRestart forgotten =>
    obtain ⟨c, hreceive, rfl⟩ := Option.map_eq_some_iff.mp hstep
    obtain ⟨-, mav, hmav, rfl⟩ := receive_eq_some hreceive
    obtain ⟨-, rfl⟩ := MavSystem.step_autopilotRestart_eq_some.mp hmav
    exact flies_of_not_loaded rfl h.present
  | missionItemReached seq =>
    obtain ⟨-, rfl⟩ := next_missionItemReached_eq_some.mp hstep
    exact h
  | mavCommsLost | setLink _ =>
    obtain rfl := Option.some.inj hstep
    exact MavConnection.Flies.congr h rfl id id id h.present
  | post e =>
    obtain ⟨-, hpost⟩ := Option.ite_none_right_eq_some.mp hstep
    exact Option.some.inj hpost ▸ h
  | uploadDropped | retryPendingSearch _ => exact Option.some.inj hstep ▸ h

end App

end CapFmu
