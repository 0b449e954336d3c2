import CapFmu.Mav.Threads

/-!
# Mission requests while uploads come and go

The autopilot asks for the items of a mission by sequence number, any number at any time. The
connection answers from one snapshot of its upload fields, which the event loop and the recv
thread both write, and it uses the search of the snapshot without checking that there is one.

An observer of the run knows from the sections executed alone which upload is open. The
snapshot agrees with it, so that a search is there whenever one is served, and a request with
no upload open is answered with nothing.
-/

namespace CapFmu

/-- The upload that is open; a goto is acknowledged only once it was armed. -/
inductive OpenUpload
  | goto (p : Point) (armed : Bool)
  | search (q : SmmSearch)
  deriving DecidableEq

namespace OpenUpload

/-- A goto's count was written. -/
def arm : OpenUpload → OpenUpload
  | goto p _ => goto p true
  | search q => search q

/-- The acknowledgement of a goto is no longer awaited. -/
def disarm : OpenUpload → OpenUpload
  | goto p _ => goto p false
  | search q => search q

/-- What an acknowledgement leaves open: a goto that does not await one. -/
def acknowledge : OpenUpload → Option OpenUpload
  | goto _ true | search _ => none
  | goto p false => some (goto p false)

/-- The upload that is open after a section of the event loop: a takeover and the preamble of an
upload close it. -/
def afterSection (o : Option OpenUpload) : LoopPc → Option OpenUpload
  | .modeSettle _ | .modeDefer _ _ | .directSettle => none
  | .gotoActivate p => some (goto p false)
  | .gotoArm => o.map arm
  | .searchArm q => some (search q)
  | .idle | .resolve _ _ | .modeSend _ _ _ | .directSend _ | .gotoCount | .loadCheck _
  | .searchCount _ => o

/-- The upload that is open after a step. -/
def after (o : Option OpenUpload) (s : MavSystem) : MavLabel → Option OpenUpload
  | .loop => afterSection o s.loop
  | .missionAck _ => o.bind acknowledge
  | .autopilotRestart => none
  | .commsLost => o.map disarm
  | .recv | .call _ | .heartbeat _ | .missionRequest _ _ | .setLink _ | .progress _ _ => o

end OpenUpload

/-- No search is unloaded: every search that is loaded is one. -/
def MavLabel.LoadsSearch : MavLabel → Prop
  | .call (.loadSearch s) => s.isSome = true
  | _ => True

/-- The section loads no null search. -/
def LoopPc.LoadsSearch : LoopPc → Prop
  | .loadCheck s => s.isSome = true
  | _ => True

instance : DecidablePred MavLabel.LoadsSearch
  | .call (.loadSearch s) => inferInstanceAs (Decidable (s.isSome = true))
  | .call .rtl | .call .hold | .call .manual | .call .disArm | .call .forceDisArm
  | .call .terminate | .call (.goto _) | .loop | .recv | .heartbeat _ | .missionAck _
  | .missionRequest _ _ | .autopilotRestart | .commsLost | .setLink _ | .progress _ _ =>
    isTrue trivial

namespace MavConnection

/-- The upload fields of a connection say that this upload is open. A search may have been
replaced by one whose upload has not begun. -/
def Serves (c : MavConnection) : Option OpenUpload → Prop
  | none => c.gotoActive = false ∧ c.searchLoading = false
  | some (.goto p armed) => c.gotoActive = true ∧ c.searchLoading = false ∧
      c.gotoPosition = p ∧ c.gotoAckPending = armed
  | some (.search _) => c.gotoActive = false ∧ c.searchLoading = true ∧ c.search.isSome = true

/-- A new connection: no search and no upload. -/
structure Fresh (c : MavConnection) : Prop where
  notActive : c.gotoActive = false
  notPending : c.gotoAckPending = false
  notLoading : c.searchLoading = false

/-- Whatever upload is open, a request is answered; a search point is one of the snapshot's, and
with no upload open there is no item. -/
structure Answers (c : MavConnection) (o : Option OpenUpload) (reply : Option MissionItemInt) :
    Prop where
  nothing_of_closed : o = none → reply = none
  something_of_open : o.isSome = true → reply.isSome = true
  point_of_search : ∀ item ∈ reply, ∀ i, item.item = .searchPoint i →
    ∃ q p, c.search = some q ∧ q.points[i]? = some p ∧ item.position = some p

end MavConnection

/-- A sequence number that stands for a search point is within the points. -/
theorem lt_of_missionItemFor_searchPoint {seq n i : ℕ} {mode : MissionPlanMode}
    (h : missionItemFor seq n mode = .searchPoint i) : i < n := by
  cases mode with
  | goTo => simp only [missionItemFor] at h; split at h <;> cases h
  | search =>
    simp only [missionItemFor] at h
    split_ifs at h with hsetup hpast
    simp only [MissionItem.searchPoint.injEq] at h
    omega

/-- A search has no goto item. -/
theorem missionItemFor_search_ne_gotoPoint (seq n : ℕ) :
    missionItemFor seq n .search ≠ .gotoPoint := by
  simp only [missionItemFor]
  split_ifs <;> simp

namespace MavConnection

variable {c : MavConnection} {o : Option OpenUpload}

/-- Clearing the upload state leaves none open. -/
theorem serves_invalidateInFlightUpload (c : MavConnection) :
    c.invalidateInFlightUpload.Serves none := ⟨rfl, rfl⟩

/-- A loading search is there. -/
theorem Serves.search_of_loading (h : c.Serves o) (hloading : c.searchLoading = true) :
    c.search.isSome = true := by
  cases o with
  | none => simp [h.2] at hloading
  | some u =>
    cases u with
    | goto p armed => simp [h.2.1] at hloading
    | search q => exact h.2.2

/-- An acknowledgement closes the upload it finds pending. -/
theorem Serves.ackDecision (h : c.Serves o) (accepted : Bool) :
    (c.ackDecision accepted).1.Serves (o.bind OpenUpload.acknowledge) := by
  cases o with
  | none => exact ⟨by simp [MavConnection.ackDecision, h.1], rfl⟩
  | some u =>
    cases u with
    | goto p armed =>
      obtain ⟨hactive, -, hposition, harmed⟩ := h
      cases armed with
      | false =>
        exact ⟨by simp [MavConnection.ackDecision, harmed, hactive], rfl, hposition, rfl⟩
      | true => exact ⟨by simp [MavConnection.ackDecision, harmed], rfl⟩
    | search q => exact ⟨by simp [MavConnection.ackDecision, h.1], rfl⟩

/-- A lost link leaves the same upload open. -/
theorem Serves.commsLost (h : c.Serves o) :
    ({ c with gotoAckPending := false } : MavConnection).Serves (o.map OpenUpload.disarm) := by
  cases o with
  | none => exact h
  | some u =>
    cases u with
    | goto p armed => exact ⟨h.1, h.2.1, h.2.2.1, rfl⟩
    | search q => exact h

/-- What is open depends on the upload fields alone. -/
theorem Serves.congr {c' : MavConnection} (h : c.Serves o) (hactive : c'.gotoActive = c.gotoActive)
    (hpending : c'.gotoAckPending = c.gotoAckPending)
    (hloading : c'.searchLoading = c.searchLoading) (hposition : c'.gotoPosition = c.gotoPosition)
    (hsearch : c.search.isSome = true → c'.search.isSome = true) : c'.Serves o := by
  unfold Serves at h ⊢
  rw [hactive, hpending, hloading, hposition]
  split <;> simp_all

/-- The check of a load leaves the open upload open, if a search is loaded. -/
theorem Serves.checkReload (h : c.Serves o) {s : Option SmmSearch} (hs : s.isSome = true) :
    (c.checkReload s).1.Serves o := by
  unfold MavConnection.checkReload
  split
  · exact h.congr rfl rfl rfl rfl fun _ => hs
  · exact h

/-- A section of the event loop leaves open what the observer says, if none is open when a goto
is activated. -/
theorem Serves.loopSection (h : c.Serves o) {pc next : LoopPc} {c' : MavConnection}
    {written : List WireEntry} (hloads : pc.LoadsSearch)
    (hactivate : ∀ p, pc = .gotoActivate p → o = none ∧ c.gotoAckPending = false)
    (hstep : loopSection c pc = some (c', next, written)) :
    c'.Serves (OpenUpload.afterSection o pc) := by
  cases pc with
  | idle => cases hstep
  | resolve m after =>
    simp only [CapFmu.loopSection] at hstep
    split at hstep <;> cases hstep <;> exact h
  | modeSend | directSend | gotoCount | searchCount => cases hstep; exact h
  | modeSettle | modeDefer | directSettle =>
    cases hstep
    exact serves_invalidateInFlightUpload _
  | gotoActivate p =>
    cases hstep
    obtain ⟨rfl, hpending⟩ := hactivate p rfl
    exact ⟨rfl, h.2, rfl, hpending⟩
  | gotoArm =>
    cases hstep
    cases o with
    | none => exact h
    | some u =>
      cases u with
      | goto p armed => exact ⟨h.1, h.2.1, h.2.2.1, rfl⟩
      | search q => exact h
  | loadCheck s =>
    cases hstep
    exact h.checkReload hloads
  | searchArm q =>
    cases hstep
    exact ⟨rfl, rfl, rfl⟩

/-- A goto's request is answered with the waypoint, or with the return home past it. -/
theorem waypointReply_of_goto (hactive : c.gotoActive = true) (seq missionType : ℕ) :
    ∃ item, c.waypointReply seq missionType = some (some item) ∧
      ∀ i, item.item ≠ .searchPoint i := by
  by_cases hseq : 2 ≤ seq
  · exact ⟨{ seq := seq, item := .rtl, missionType := missionType },
      by simp [waypointReply, hactive, missionItemFor, hseq], by simp⟩
  · exact ⟨{ seq := seq, item := .gotoPoint, position := some c.gotoPosition,
             altitudeM := c.gotoAltitudeM, missionType := missionType },
      by simp [waypointReply, hactive, missionItemFor, hseq], by simp⟩

/-- A search's request is answered from the search, which has the point that is asked for. -/
theorem waypointReply_of_search (hactive : c.gotoActive = false)
    (hloading : c.searchLoading = true) {q : SmmSearch} (hq : c.search = some q)
    (seq missionType : ℕ) :
    ∃ item, c.waypointReply seq missionType = some (some item) ∧
      ∀ i, item.item = .searchPoint i → ∃ p, q.points[i]? = some p ∧ item.position = some p := by
  cases hitem : missionItemFor seq q.points.length .search with
  | gotoPoint => exact absurd hitem (missionItemFor_search_ne_gotoPoint seq _)
  | rtl =>
    exact ⟨{ seq := seq, item := .rtl, missionType := missionType },
      by simp [waypointReply, hactive, hloading, hq, hitem], by simp⟩
  | takeoff =>
    exact ⟨{ seq := seq, item := .takeoff, altitudeM := q.altitude, missionType := missionType,
             current := decide (seq = 1 ∧ c.currentPointIdx q.id = 0) },
      by simp [waypointReply, hactive, hloading, hq, hitem], by simp⟩
  | searchPoint i =>
    have hlt := lt_of_missionItemFor_searchPoint hitem
    have hpoint : q.points[i]? = some q.points[i] := List.getElem?_eq_getElem hlt
    exact ⟨{ seq := seq, item := .searchPoint i, position := some q.points[i],
             altitudeM := q.altitude, missionType := missionType,
             current := decide (c.currentPointIdx q.id = i) },
      by simp [waypointReply, hactive, hloading, hq, hitem, hpoint], by simp [hpoint]⟩

/-- A request is answered, whatever its sequence number. -/
theorem Serves.answers (h : c.Serves o) (seq missionType : ℕ) :
    ∃ reply, c.waypointReply seq missionType = some reply ∧ c.Answers o reply := by
  cases o with
  | none =>
    exact ⟨none, by simp [waypointReply, h.1, h.2],
      { nothing_of_closed := fun _ => rfl
        something_of_open := fun hopen => absurd hopen Bool.false_ne_true
        point_of_search := by simp }⟩
  | some u =>
    have hreply : ∃ item, c.waypointReply seq missionType = some (some item) ∧
        ∀ i, item.item = .searchPoint i →
          ∃ q p, c.search = some q ∧ q.points[i]? = some p ∧ item.position = some p := by
      cases u with
      | goto p armed =>
        obtain ⟨item, hreply, hkind⟩ := waypointReply_of_goto h.1 seq missionType
        exact ⟨item, hreply, fun i hi => absurd hi (hkind i)⟩
      | search q' =>
        obtain ⟨q, hq⟩ := Option.isSome_iff_exists.mp h.2.2
        obtain ⟨item, hreply, hpoint⟩ := waypointReply_of_search h.1 h.2.1 hq seq missionType
        refine ⟨item, hreply, fun i hi => ?_⟩
        obtain ⟨p, hp, hposition⟩ := hpoint i hi
        exact ⟨q, p, hq, hp, hposition⟩
    obtain ⟨item, hreply, hpoint⟩ := hreply
    exact ⟨some item, hreply,
      { nothing_of_closed := by simp
        something_of_open := fun _ => rfl
        point_of_search := fun _ hmem => by cases hmem; exact hpoint }⟩

end MavConnection

namespace MavSystem

variable {s t : MavSystem} {o : Option OpenUpload}

/-- The connection has open what the observer says, and at the activation of a goto nothing. -/
structure Tracks (o : Option OpenUpload) (s : MavSystem) : Prop where
  serves : s.conn.Serves o
  loads : s.loop.LoadsSearch
  activate : ∀ p, s.loop = .gotoActivate p → o = none ∧ s.conn.gotoAckPending = false

/-- No section of the event loop is followed by the load of a null search, and a goto is
activated right after its preamble has cleared the upload state. -/
theorem loopSection_next {c c' : MavConnection} {pc next : LoopPc} {written : List WireEntry}
    (hstep : loopSection c pc = some (c', next, written)) :
    next.LoadsSearch ∧ ∀ p, next = .gotoActivate p →
      OpenUpload.afterSection o pc = none ∧ c'.gotoAckPending = false := by
  cases pc with
  | idle => cases hstep
  | resolve m after =>
    simp only [loopSection] at hstep
    split at hstep <;> cases hstep <;> exact ⟨trivial, by simp⟩
  | modeSend | directSend | gotoActivate | gotoArm | searchArm | searchCount | directSettle =>
    cases hstep
    exact ⟨trivial, by simp⟩
  | modeSettle after | modeDefer m after =>
    cases hstep
    exact ⟨by cases after <;> trivial, fun _ _ => ⟨rfl, rfl⟩⟩
  | gotoCount =>
    cases hstep
    split <;> exact ⟨trivial, by simp⟩
  | loadCheck s =>
    simp only [loopSection, Option.some.injEq, Prod.mk.injEq] at hstep
    obtain ⟨-, rfl, -⟩ := hstep
    cases (c.checkReload s).2 with
    | none => exact ⟨trivial, by simp⟩
    | some q => exact ⟨trivial, by simp [uploadSearch]⟩

/-- A section of the event loop keeps the tracking. -/
theorem tracks_stepLoop (h : s.Tracks o) (hstep : s.stepLoop = some t) :
    t.Tracks (OpenUpload.afterSection o s.loop) := by
  simp only [stepLoop, Option.map_eq_some_iff, Prod.exists] at hstep
  obtain ⟨c, next, written, hsection, rfl⟩ := hstep
  have hnext := loopSection_next (o := o) hsection
  exact { serves := h.serves.loopSection h.loads h.activate hsection
          loads := hnext.1
          activate := hnext.2 }

/-- The recv thread's sections leave the upload fields alone. -/
theorem uploadFields_recvSection {c c' : MavConnection} {pc next : RecvPc}
    {written : List WireEntry} (hstep : recvSection c pc = some (c', next, written)) :
    c'.gotoActive = c.gotoActive ∧ c'.gotoAckPending = c.gotoAckPending ∧
      c'.searchLoading = c.searchLoading ∧ c'.gotoPosition = c.gotoPosition ∧
      c'.search = c.search := by
  cases pc <;> simp only [recvSection] at hstep
  all_goals repeat' split at hstep
  all_goals cases hstep <;> exact ⟨rfl, rfl, rfl, rfl, rfl⟩

/-- A step that leaves the upload fields and the event loop alone keeps the tracking. -/
theorem Tracks.congr (h : s.Tracks o) (hloop : t.loop = s.loop)
    (hfields : t.conn.gotoActive = s.conn.gotoActive ∧
      t.conn.gotoAckPending = s.conn.gotoAckPending ∧
      t.conn.searchLoading = s.conn.searchLoading ∧
      t.conn.gotoPosition = s.conn.gotoPosition ∧ t.conn.search = s.conn.search) :
    t.Tracks o := by
  obtain ⟨hactive, hpending, hloading, hposition, hsearch⟩ := hfields
  exact { serves := h.serves.congr hactive hpending hloading hposition (by simp [hsearch])
          loads := hloop ▸ h.loads
          activate := fun p hp => by rw [hpending]; exact h.activate p (hloop ▸ hp) }

/-- Every step keeps the tracking, if no null search is loaded. -/
theorem tracks_step (h : s.Tracks o) {e : MavLabel} (he : e.LoadsSearch)
    (hstep : s.step e = some t) : t.Tracks (OpenUpload.after o s e) := by
  cases e with
  | loop => exact tracks_stepLoop h hstep
  | recv =>
    simp only [step, stepRecv, Option.map_eq_some_iff, Prod.exists] at hstep
    obtain ⟨c, next, written, hsection, rfl⟩ := hstep
    exact h.congr rfl (uploadFields_recvSection hsection)
  | call command =>
    cases hloop : s.loop <;> simp only [step, hloop, reduceCtorEq] at hstep
    cases hstep
    exact { serves := h.serves
            loads := by cases command <;> trivial
            activate := by cases command <;> rintro p ⟨⟩ }
  | commsLost =>
    cases hstep
    exact { serves := h.serves.commsLost
            loads := h.loads
            activate := fun p hp => ⟨by simp [OpenUpload.after, (h.activate p hp).1], rfl⟩ }
  | setLink | progress =>
    cases hstep
    exact h.congr rfl ⟨rfl, rfl, rfl, rfl, rfl⟩
  | heartbeat =>
    obtain ⟨-, rfl⟩ := step_heartbeat_eq_some.mp hstep
    exact h.congr rfl ⟨rfl, rfl, rfl, rfl, rfl⟩
  | missionRequest =>
    obtain ⟨-, reply, -, rfl⟩ := step_missionRequest_eq_some.mp hstep
    exact h.congr rfl ⟨rfl, rfl, rfl, rfl, rfl⟩
  | missionAck accepted =>
    obtain ⟨-, rfl⟩ := step_missionAck_eq_some.mp hstep
    exact { serves := h.serves.ackDecision accepted
            loads := h.loads
            activate := fun p hp => ⟨by simp [OpenUpload.after, (h.activate p hp).1], rfl⟩ }
  | autopilotRestart =>
    obtain ⟨-, rfl⟩ := step_autopilotRestart_eq_some.mp hstep
    exact { serves := MavConnection.serves_invalidateInFlightUpload _
            loads := h.loads
            activate := fun _ _ => ⟨rfl, rfl⟩ }

/-- In every run from a new connection that loads no null search, a loading search is there and a
request for any sequence number is answered without fault: with nothing when no upload is open,
and for a search point with a point of the snapshot's search. -/
theorem requests_answered {c : MavConnection} (hc : c.Fresh) {es : List MavLabel}
    (hes : ∀ e ∈ es, e.LoadsSearch)
    (hrun : Transition.run step { conn := c } es = some t) :
    (t.conn.searchLoading = true → t.conn.search.isSome = true) ∧
      ∀ seq missionType, ∃ reply, t.conn.waypointReply seq missionType = some reply ∧
        t.conn.Answers (Transition.observe step OpenUpload.after none { conn := c } es) reply := by
  have hstart : Tracks none { conn := c } :=
    { serves := ⟨hc.notActive, hc.notLoading⟩
      loads := trivial
      activate := by simp }
  have hkeeps (o : Option OpenUpload) (s : MavSystem) (e : MavLabel) (t : MavSystem)
      (hs : s.Tracks o) (he : e.LoadsSearch) (hstep : s.step e = some t) :
      t.Tracks (OpenUpload.after o s e) := tracks_step hs he hstep
  have htracks := Transition.invariant_of_observe Tracks hkeeps hstart
    (Transition.along_of_forall_mem hes) hrun
  exact ⟨htracks.serves.search_of_loading, htracks.serves.answers⟩

/-- A search is uploaded, and the load of another one is begun. -/
def uploadThenLoad : List MavLabel :=
  MavLabel.call (.loadSearch (some { id := 1, points := [{}] })) ::
    List.replicate 6 MavLabel.loop ++
    [MavLabel.call (.loadSearch (some { id := 2 })), .loop]

/-- The upload is still open, and a request for its point is answered from the other search. -/
theorem uploadThenLoad_answered :
    ∃ t, Transition.run step { conn := .quadrotor } uploadThenLoad = some t ∧
      ∃ item, t.conn.waypointReply 2 0 = some (some item) := by
  obtain ⟨t, ht⟩ : ∃ t, Transition.run step { conn := .quadrotor } uploadThenLoad = some t :=
    ⟨_, rfl⟩
  obtain ⟨reply, hreply, hanswers⟩ :=
    (requests_answered ⟨rfl, rfl, rfl⟩ (by decide) ht).2 2 0
  obtain ⟨item, rfl⟩ := Option.isSome_iff_exists.mp (hanswers.something_of_open rfl)
  exact ⟨t, ht, item, hreply⟩

end MavSystem

end CapFmu
