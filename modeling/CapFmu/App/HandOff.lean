import CapFmu.App.Missions

/-!
# The search the autopilot flies is the search that is held

A search reaches the autopilot in three hops: the state machine grants the searching role, the
worker of the search client publishes a search and appends an event, and the event loop has
the connection upload it. Each hop can be overtaken. The event loop drops the event when a
takeover was faster, a takeover and a restart of the autopilot clear what is loaded, and an
upload is only acknowledged later.

Whatever overtakes a hop has the search handed over again: entering the searching state has
the worker resume the search it holds, and so has the report of a restart. With nothing in flight
the search held is then the one that the connection names as loaded, and the mission of the
autopilot. An event that is still being dispatched and a restart that is yet to be reported are
in flight as well.
-/

namespace CapFmu

open Transition

namespace App

/-- The worker will be asked to resume the search it holds. -/
def ResumePending (a : App) : Prop :=
  a.RolePending ∨ a.restarting = true ∨ .mavAutopilotRestart ∈ a.eventQueue

/-- What holds in every state while the link is up: a searching FMU has the search held on the
autopilot, on its way there or about to be resumed; a search on the autopilot is the last mission
that was sent; an upload that is open is not acknowledged; and no takeover is under way while
searching. -/
structure HandedOff (a : App) : Prop where
  linked : a.mav.Linked
  carried : a.machine.currentState = .searching → ∀ held, a.smm.currentSearch = some held →
    a.pendingLoads ≠ [] ∨ a.ResumePending ∨ a.mav.conn.Carries held.search
  sent : ∀ s, a.mav.conn.Carries s → a.mav.loop.Settles a.settled s
  loading : a.mav.conn.searchLoading = true →
    a.outstanding ≠ [] ∨ a.mav.loop.isSearchCount = true
  calm : a.machine.currentState = .searching →
    a.mav.loop.isLoading = true ∧ ∀ call ∈ a.calls, call.takesOver = false

/-- Nothing is in flight: no event is queued or being dispatched, the worker has no task, the
recv thread has no restart to report, and every upload is acknowledged. -/
structure Quiescent (a : App) : Prop where
  eventQueue : a.eventQueue = []
  calls : a.calls = []
  loop : a.mav.loop = .idle
  taskQueue : a.smm.taskQueue = []
  worker : a.smm.pc = .idle
  restarting : a.restarting = false
  outstanding : a.outstanding = []

end App

/-- The link stays open, the autopilot's type known, every upload is answered, and the answers
accept. -/
def AppLabel.LinkUp : AppLabel → Prop
  | heartbeat t => t ≠ .other
  | missionAck accepted => accepted = true
  | uploadDropped => False
  | setLink isOpen => isOpen = true
  | loop _ | recv | worker _ | missionRequest _ _ | missionItemReached _ | autopilotRestart _
  | mavCommsLost | post _ | retryPendingSearch _ => True

namespace App

variable {a b : App}

/-- A step that leaves the calls, the uploads and the search held alone keeps the hand-off, if
what the autopilot carries is still carried or will be resumed, and is still the last mission
sent. -/
theorem HandedOff.congr (h : a.HandedOff) (hlinked : b.mav.Linked)
    (hloop : b.mav.loop = a.mav.loop) (hcalls : b.calls = a.calls)
    (hmachine : b.machine = a.machine) (hheld : b.smm.currentSearch = a.smm.currentSearch)
    (hloads : b.eventQueue.filterMap AppEvent.load? = a.eventQueue.filterMap AppEvent.load?)
    (hloading : b.mav.conn.searchLoading = true →
      a.mav.conn.searchLoading = true ∧ b.outstanding = a.outstanding)
    (hsent : ∀ s, b.mav.conn.Carries s → a.mav.conn.Carries s ∧ b.settled = a.settled)
    (hresume : a.ResumePending → b.ResumePending)
    (hcarries : ∀ s, a.mav.conn.Carries s → b.mav.conn.Carries s ∨ b.ResumePending) :
    b.HandedOff := by
  have hpending : b.pendingLoads = a.pendingLoads := by
    rw [pendingLoads, pendingLoads, hloop, hcalls, hloads]
  constructor
  · exact hlinked
  · rw [hmachine, hheld, hpending]
    intro hsearching held hsome
    rcases h.carried hsearching held hsome with hload | hpends | hcarried
    · exact Or.inl hload
    · exact Or.inr (Or.inl (hresume hpends))
    · exact Or.inr (hcarries held.search hcarried).symm
  · intro s hs
    obtain ⟨hwas, hsettled⟩ := hsent s hs
    rw [hloop, hsettled]
    exact h.sent s hwas
  · rw [hloop]
    intro hopen
    obtain ⟨hwas, hsame⟩ := hloading hopen
    rw [hsame]
    exact h.loading hwas
  · rw [hmachine, hloop, hcalls]
    exact h.calm

/-- A step that leaves the connection and the missions alone as well keeps the hand-off, if what was
to be resumed still is. -/
theorem HandedOff.congr_mav (h : a.HandedOff) (hmav : b.mav = a.mav)
    (houtstanding : b.outstanding = a.outstanding) (hmission : b.mission = a.mission)
    (hcalls : b.calls = a.calls) (hmachine : b.machine = a.machine)
    (hheld : b.smm.currentSearch = a.smm.currentSearch)
    (hloads : b.eventQueue.filterMap AppEvent.load? = a.eventQueue.filterMap AppEvent.load?)
    (hresume : a.ResumePending → b.ResumePending) : b.HandedOff := by
  have hsettled : b.settled = a.settled := by rw [settled, settled, houtstanding, hmission]
  refine h.congr ?_ (congrArg MavSystem.loop hmav) hcalls hmachine hheld hloads ?_ ?_ hresume ?_
  · rw [hmav]
    exact h.linked
  · rw [hmav]
    exact fun hopen => ⟨hopen, houtstanding⟩
  · rw [hmav]
    exact fun s hs => ⟨hs, hsettled⟩
  · rw [hmav]
    exact fun s hs => Or.inl hs

/-- Between two commands an open upload waits for its acknowledgement. -/
theorem HandedOff.outstanding_ne_nil (h : a.HandedOff) (hidle : a.mav.loop = .idle)
    (hopen : a.mav.conn.searchLoading = true) : a.outstanding ≠ [] := by
  apply (h.loading hopen).resolve_right
  rw [hidle]
  exact Bool.false_ne_true

/-- The calls after the first take no control either, while searching. -/
theorem HandedOff.calm_rest (h : a.HandedOff) (hsearching : a.machine.currentState = .searching)
    {call : AppCall} {rest : List AppCall} (hcalls : a.calls = call :: rest) :
    a.mav.loop.isLoading = true ∧ ∀ other ∈ rest, other.takesOver = false := by
  have hcalm := h.calm hsearching
  refine ⟨hcalm.1, fun other hother => hcalm.2 other ?_⟩
  rw [hcalls]
  exact List.mem_cons_of_mem call hother

/-- A step of the connection alone keeps the hand-off, if it keeps what the autopilot carries. -/
theorem handedOff_withMav (h : a.HandedOff) {mav : MavSystem} (hlinked : mav.Linked)
    (hloop : mav.loop = a.mav.loop)
    (hloading : mav.conn.searchLoading = true → a.mav.conn.searchLoading = true)
    (hcarries : ∀ s, mav.conn.Carries s ↔ a.mav.conn.Carries s) : (a.withMav mav).HandedOff :=
  h.congr hlinked hloop rfl rfl rfl rfl (fun hopen => ⟨hloading hopen, rfl⟩)
    (fun s hs => ⟨(hcarries s).mp hs, rfl⟩) id fun s hs => Or.inl ((hcarries s).mpr hs)

/-- The worker keeps the hand-off: a search that it publishes or resumes is to be uploaded. -/
theorem handedOff_stepWorker (h : a.HandedOff) {r : SmmReply} (hstep : a.stepWorker r = some b) :
    b.HandedOff := by
  obtain ⟨⟨v, effects⟩, hsection, hb⟩ := Option.map_eq_some_iff.mp hstep
  have hpending := pendingLoads_stepWorker hsection hstep
  obtain ⟨idx, hconn⟩ := observe_foldl effects a.mav.conn
  have hlinked : b.mav.Linked := by
    rw [← hb]
    simp only [hconn]
    exact ⟨⟨h.linked.ready.1, h.linked.ready.2, h.linked.ready.3⟩, h.linked.loop, h.linked.recv⟩
  have hsent : ∀ s, b.mav.conn.Carries s → b.mav.loop.Settles b.settled s := by
    rw [← hb]
    simp only [hconn]
    exact h.sent
  have hloading : b.mav.conn.searchLoading = true →
      b.outstanding ≠ [] ∨ b.mav.loop.isSearchCount = true := by
    rw [← hb]
    simp only [hconn]
    exact h.loading
  have hcalm : b.machine.currentState = .searching →
      b.mav.loop.isLoading = true ∧ ∀ call ∈ b.calls, call.takesOver = false := by
    rw [← hb]
    exact h.calm
  refine ⟨hlinked, ?_, hsent, hloading, hcalm⟩
  intro hsearching held hheld
  rw [← hb] at hsearching hheld
  rcases Smm.step_loads hsection with hnone | ⟨hsame, hquiet, hpc⟩ | ⟨other, -, hload⟩
  · exact absurd (hnone.symm.trans hheld) (by simp)
  · rw [hquiet, List.append_nil] at hpending
    rw [hpending]
    rcases h.carried hsearching held (hsame.symm.trans hheld) with hloads | hresume | hcarries
    · exact Or.inl hloads
    · rw [← hb]
      rcases hresume with (hcall | hsearch) | hrestarting | hrestart
      · exact Or.inr (Or.inl (Or.inl (Or.inl hcall)))
      · exact Or.inr (Or.inl (Or.inl (Or.inr (Smm.step_searchPending hpc hsection hsearch))))
      · exact Or.inr (Or.inl (Or.inr (Or.inl hrestarting)))
      · exact Or.inr (Or.inl (Or.inr (Or.inr (List.mem_append_left _ hrestart))))
    · rw [← hb]
      simp only [hconn]
      exact Or.inr (Or.inr hcarries)
  · left
    simp [hpending, hload]

/-- The recv thread keeps the hand-off: it leaves the search alone, and a restart that it
reports is still to be acted on. -/
theorem handedOff_stepRecv (h : a.HandedOff) (hstep : a.stepRecv = some b) : b.HandedOff := by
  unfold stepRecv at hstep
  split_ifs at hstep with hrestarting
  · obtain rfl := Option.some.inj hstep
    refine h.congr_mav rfl rfl rfl rfl rfl rfl ?_ ?_
    · rw [List.filterMap_append]
      exact List.append_nil _
    · exact fun _ => Or.inr (Or.inr (List.mem_append_right _ List.mem_cons_self))
  · obtain ⟨mav, hmav, rfl⟩ := Option.map_eq_some_iff.mp hstep
    obtain ⟨⟨conn, recv, written⟩, hsection, rfl⟩ := Option.map_eq_some_iff.mp hmav
    obtain ⟨hready, hrecv, hsearch, hloaded, hloading⟩ :=
      recvSection_ready h.linked.ready h.linked.recv hsection
    have hlinked : MavSystem.Linked
        { a.mav with conn := conn, recv := recv, wire := a.mav.wire ++ written } :=
      ⟨hready, h.linked.loop, hrecv⟩
    refine handedOff_withMav h hlinked rfl ?_ ?_
    · exact fun hopen => hloading.symm.trans hopen
    · intro s
      simp only [MavConnection.Carries, hsearch, hloaded, hloading]

/-- The event loop keeps the hand-off while it goes on with a command. -/
theorem handedOff_section (hordered : a.Ordered) (h : a.HandedOff) {mav : MavSystem}
    (hstep : a.mav.stepLoop = some mav) : (a.withSection mav).HandedOff := by
  obtain ⟨⟨conn, loop, written⟩, hsection, rfl⟩ := Option.map_eq_some_iff.mp hstep
  obtain ⟨hready, hloop⟩ := loopSection_ready h.linked.ready h.linked.loop hsection
  refine ⟨⟨hready, hloop, h.linked.recv⟩, ?_, ?_, ?_, ?_⟩
  · intro hsearching held hheld
    rcases (loopSection_loads (h.calm hsearching).1 hsection).2 with
      ⟨hbusy, hsame⟩ | ⟨s, hwas, hdone, hcarries⟩ | ⟨hwas, hdone, rfl⟩
    · left
      simp only [pendingLoads, withSection, withMav, hsame, List.append_assoc]
      exact fun hnil => hbusy (List.append_eq_nil_iff.mp hnil).1
    · by_cases hrest :
          a.calls.filterMap AppCall.load? ++ a.eventQueue.filterMap AppEvent.load? = []
      · have hlast : a.pendingLoads.getLast? = some s := by
          rw [pendingLoads, hwas, List.append_assoc, hrest]
          rfl
        exact Or.inr (Or.inr (hordered.last_load held hheld s hlast ▸ hcarries))
      · left
        simp only [pendingLoads, withSection, withMav, hdone, List.append_assoc]
        exact hrest
    · have hpending : (a.withSection { a.mav with
          loop := loop, wire := a.mav.wire ++ written }).pendingLoads = a.pendingLoads := by
        simp only [pendingLoads, withSection, withMav, hwas, hdone]
      rw [hpending]
      exact h.carried hsearching held hheld
  · rw [settled_withSection h.linked.ready.linkOpen hsection]
    exact fun s hs => settles_loopSection hsection h.sent hs
  · intro hopen
    have hopened := opened_of_loopSection hsection
    rw [if_pos h.linked.ready.linkOpen] at hopened
    simp only [withSection, withMav, List.drop_left, hopened, ne_eq, List.append_eq_nil_iff]
    rcases loopSection_searchLoading hsection hopen with ⟨hwas, hcounting⟩ | hnext | hcounts
    · refine Or.inl fun hnone => ?_
      have hwaits := (h.loading hwas).resolve_right (by rw [hcounting]; exact Bool.false_ne_true)
      exact hwaits hnone.1
    · exact Or.inr hnext
    · refine Or.inl fun hnone => ?_
      cases hpc : a.mav.loop <;> simp [hpc, LoopPc.isSearchCount] at hcounts
      simp [hpc, LoopPc.upload?] at hnone
  · intro hsearching
    have hcalm := h.calm hsearching
    exact ⟨(loopSection_loads hcalm.1 hsection).1, hcalm.2⟩

/-- A call that is made has no more bearing on the hand-off, unless it asks for a search. -/
theorem handedOff_popCall (h : a.HandedOff) {call : AppCall} {rest : List AppCall}
    (hcalls : a.calls = call :: rest) (hload : call.load? = none)
    (hsearch : call ≠ .action .search) : HandedOff { a with calls := rest } := by
  have hpending : pendingLoads { a with calls := rest } = a.pendingLoads := by
    simp only [pendingLoads, hcalls, List.filterMap_cons_none hload]
  refine ⟨h.linked, ?_, h.sent, h.loading, fun hsearching => h.calm_rest hsearching hcalls⟩
  rw [hpending]
  intro hsearching held hheld
  rcases h.carried hsearching held hheld with hloads | hresume | hcarries
  · exact Or.inl hloads
  · refine Or.inr (Or.inl (hresume.imp_left (Or.imp_left fun hcall => ?_)))
    rw [hcalls] at hcall
    exact (List.mem_cons.mp hcall).resolve_left hsearch.symm
  · exact Or.inr (Or.inr hcarries)

/-- What is on the autopilot as a command is started is still the last mission sent. -/
theorem HandedOff.sent_startCall (h : a.HandedOff) (hidle : a.mav.loop = .idle)
    (command : MavCall) (s : SmmSearch) (hs : a.mav.conn.Carries s) :
    command.entry.Settles a.settled s := by
  have hsettles := h.sent s hs
  rw [hidle] at hsettles
  exact MavCall.settles_entry hsettles

/-- A command that takes control is started only when the FMU is not searching. -/
theorem handedOff_startCall (h : a.HandedOff) (hidle : a.mav.loop = .idle)
    (hsearching : a.machine.currentState ≠ .searching) (command : MavCall) :
    (a.startCall command).HandedOff :=
  ⟨⟨h.linked.ready, command.isDeferring_entry, h.linked.recv⟩,
    fun hsearch => absurd hsearch hsearching, h.sent_startCall hidle command,
    fun hopen => Or.inl (h.outstanding_ne_nil hidle hopen),
    fun hsearch => absurd hsearch hsearching⟩

/-- A new task keeps the hand-off. -/
theorem handedOff_enqueue (h : a.HandedOff) (task : SmmTask) (reachedWith : List ReachedWith) :
    HandedOff { a with smm := a.smm.enqueue task, reachedWith := reachedWith } :=
  h.congr_mav rfl rfl rfl rfl rfl (Smm.currentSearch_enqueue _ _) rfl
    (Or.imp_left (Or.imp_right (Smm.searchPending_enqueue task)))

/-- The event loop keeps the hand-off as it makes a call. -/
theorem handedOff_perform (h : a.HandedOff) (hidle : a.mav.loop = .idle) {call : AppCall}
    {rest : List AppCall} (hcalls : a.calls = call :: rest) (pos : Point) :
    (perform { a with calls := rest } pos call).HandedOff := by
  have hnot (htakes : call.takesOver = true) : a.machine.currentState ≠ .searching := by
    intro hsearching
    have hcalm := (h.calm hsearching).2 call (by rw [hcalls]; exact List.mem_cons_self)
    exact absurd (htakes.symm.trans hcalm) (by decide)
  cases call with
  | action act =>
    cases act with
    | cancelSearch =>
      exact (handedOff_popCall h hcalls rfl (by simp)).congr_mav rfl rfl rfl rfl rfl rfl rfl id
    | search =>
      refine ⟨h.linked, ?_, h.sent, h.loading, fun hsearching => h.calm_rest hsearching hcalls⟩
      exact fun _ _ _ => Or.inr (Or.inl (Or.inl (Or.inr (Smm.searchPending_search _ pos))))
    | setMode fm =>
      exact handedOff_startCall (handedOff_popCall h hcalls rfl (by simp)) hidle (hnot rfl) _
    | gotoPosition position =>
      exact (handedOff_popCall h hcalls rfl (by simp)).congr_mav rfl rfl rfl rfl rfl rfl rfl id
    | setAltitude alt => exact handedOff_popCall h hcalls rfl (by simp)
    | disarm =>
      exact handedOff_startCall (handedOff_popCall h hcalls rfl (by simp)) hidle (hnot rfl) _
    | terminate =>
      exact handedOff_startCall (handedOff_popCall h hcalls rfl (by simp)) hidle (hnot rfl) _
    | stateChange state => exact handedOff_popCall h hcalls rfl (by simp)
  | loadSearch search =>
    refine ⟨⟨h.linked.ready, rfl, h.linked.recv⟩, ?_,
      h.sent_startCall hidle (.loadSearch (some search)), ?_, ?_⟩
    · exact fun _ _ _ => Or.inl (List.cons_ne_nil search _)
    · exact fun hopen => Or.inl (h.outstanding_ne_nil hidle hopen)
    · exact fun hsearching => ⟨rfl, (h.calm_rest hsearching hcalls).2⟩
  | reportPosition pd =>
    exact handedOff_enqueue (handedOff_popCall h hcalls rfl (by simp)) (.reportPosition pd) _
  | reachedPoint point reached =>
    exact handedOff_enqueue (handedOff_popCall h hcalls rfl (by simp)) (.reachedPoint point) _
  | connect details =>
    exact handedOff_enqueue (handedOff_popCall h hcalls rfl (by simp)) (.connect details) _

/-- The event loop keeps the hand-off as it takes an event. -/
theorem handedOff_dispatch (h : a.HandedOff) (hidle : a.mav.loop = .idle) (hcalls : a.calls = [])
    {e : AppEvent} {rest : List AppEvent} (hqueue : a.eventQueue = e :: rest) :
    HandedOff { a with
      machine := (a.machine.dispatch a.lowbatThreshold e).1
      calls := (a.machine.dispatch a.lowbatThreshold e).2
      eventQueue := rest } := by
  have hpending := pendingLoads_of_idle hidle hcalls hqueue
  refine ⟨h.linked, ?_, h.sent, h.loading, ?_⟩
  · intro hsearching held hheld
    rcases (FmuStateMachine.dispatch_searching hsearching).2 with
      hsearch | ⟨hstays, hrestart, hbrings⟩
    · exact Or.inr (Or.inl (Or.inl (Or.inl hsearch)))
    · rcases h.carried hstays held hheld with hloads | hresume | hcarries
      · left
        rw [hpending] at hloads
        simp only [pendingLoads, hidle, LoopPc.loads, List.nil_append, hbrings]
        exact hloads
      · right
        left
        rcases hresume with (hcall | hsearch) | hrestarting | hqueued
        · rw [hcalls] at hcall
          exact absurd hcall List.not_mem_nil
        · exact Or.inl (Or.inr hsearch)
        · exact Or.inr (Or.inl hrestarting)
        · rw [hqueue] at hqueued
          exact Or.inr (Or.inr ((List.mem_cons.mp hqueued).resolve_left hrestart.symm))
      · exact Or.inr (Or.inr hcarries)
  · intro hsearching
    refine ⟨?_, (FmuStateMachine.dispatch_searching hsearching).1⟩
    rw [hidle]
    rfl

/-- The event loop keeps the hand-off. -/
theorem handedOff_stepLoop (hordered : a.Ordered) (h : a.HandedOff) {pos : Point}
    (hstep : a.stepLoop pos = some b) : b.HandedOff := by
  obtain ⟨hidle, call, rest, hcalls, rfl⟩ | ⟨hidle, hcalls, e, rest, hqueue, rfl⟩ |
      ⟨-, mav, hmav, rfl⟩ := stepLoop_cases hstep
  · exact handedOff_perform h hidle hcalls pos
  · exact handedOff_dispatch h hidle hcalls hqueue
  · exact handedOff_section hordered h hmav

/-- An event that brings no upload keeps the hand-off as it is appended. -/
theorem handedOff_post (h : a.HandedOff) {e : AppEvent} (hload : e.load? = none) :
    HandedOff { a with eventQueue := a.eventQueue ++ [e] } := by
  refine h.congr_mav rfl rfl rfl rfl rfl rfl ?_ ?_
  · rw [List.filterMap_append, List.filterMap_cons_none hload]
    exact List.append_nil _
  · exact Or.imp_right (Or.imp_right (List.mem_append_left [e]))

/-- Every step keeps the hand-off while the link is up. -/
theorem handedOff_next (hordered : a.Ordered) (h : a.HandedOff) {e : AppLabel} (hup : e.LinkUp)
    (hstep : a.next e = some b) : b.HandedOff := by
  cases e with
  | loop pos => exact handedOff_stepLoop hordered h hstep
  | recv => exact handedOff_stepRecv h hstep
  | worker r => exact handedOff_stepWorker h hstep
  | heartbeat t =>
    obtain ⟨-, mav, hmav, rfl⟩ := receive_eq_some hstep
    obtain ⟨-, rfl⟩ := MavSystem.step_heartbeat_eq_some.mp hmav
    have hready := h.linked.ready
    exact handedOff_withMav h ⟨⟨hready.linkOpen, hup, hready.noneDeferred⟩, h.linked.loop, rfl⟩ rfl
      id fun s => Iff.rfl
  | missionAck accepted =>
    obtain rfl : accepted = true := hup
    obtain ⟨c, hreceive, rfl⟩ := Option.map_eq_some_iff.mp hstep
    obtain ⟨-, mav, hmav, rfl⟩ := receive_eq_some hreceive
    obtain ⟨-, rfl⟩ := MavSystem.step_missionAck_eq_some.mp hmav
    have hready := h.linked.ready
    refine h.congr ⟨⟨hready.linkOpen, hready.typeKnown, hready.noneDeferred⟩, h.linked.loop,
      isDeferring_selectNext _⟩ rfl rfl rfl rfl rfl
      (fun hopen => absurd hopen Bool.false_ne_true) ?_ id ?_
    · exact fun s hs => ⟨MavConnection.carries_of_ackDecision hs, settled_answered a⟩
    · rintro s ⟨hsearch, hloaded⟩
      refine Or.inl ⟨?_, Or.inl ?_⟩
      · simp [withMav, answered, MavConnection.ackDecision, hsearch]
      · rcases hloaded with hloaded | hloading
        · simp [withMav, answered, MavConnection.ackDecision, hloaded]
        · simp [withMav, answered, MavConnection.ackDecision, hloading]
  | missionRequest seq missionType =>
    obtain ⟨-, mav, hmav, rfl⟩ := receive_eq_some hstep
    obtain ⟨-, reply, -, rfl⟩ := MavSystem.step_missionRequest_eq_some.mp hmav
    have hquiet : ((reply.map RecvPc.waypointSend).getD .idle).isDeferring = false := by
      cases reply <;> rfl
    exact handedOff_withMav h ⟨h.linked.ready, h.linked.loop, hquiet⟩ rfl id fun s => Iff.rfl
  | uploadDropped => exact hup.elim
  | missionItemReached seq =>
    obtain ⟨-, rfl⟩ := next_missionItemReached_eq_some.mp hstep
    exact handedOff_post h rfl
  | autopilotRestart forgotten =>
    obtain ⟨c, hreceive, rfl⟩ := Option.map_eq_some_iff.mp hstep
    obtain ⟨-, mav, hmav, rfl⟩ := receive_eq_some hreceive
    obtain ⟨-, rfl⟩ := MavSystem.step_autopilotRestart_eq_some.mp hmav
    have hready := h.linked.ready
    refine h.congr ⟨⟨hready.linkOpen, hready.typeKnown, hready.noneDeferred⟩, h.linked.loop,
      h.linked.recv⟩ rfl rfl rfl rfl rfl (fun hopen => absurd hopen Bool.false_ne_true) ?_ ?_ ?_
    · exact fun s hs => absurd hs (a.mav.conn.not_carries_invalidateInFlightUpload s)
    · exact fun _ => Or.inr (Or.inl rfl)
    · exact fun _ _ => Or.inr (Or.inr (Or.inl rfl))
  | mavCommsLost =>
    obtain rfl := Option.some.inj hstep
    have hready := h.linked.ready
    exact handedOff_withMav h ⟨⟨hready.linkOpen, hready.typeKnown, hready.noneDeferred⟩,
      h.linked.loop, h.linked.recv⟩ rfl id fun s => Iff.rfl
  | setLink isOpen =>
    obtain rfl : isOpen = true := hup
    obtain rfl := Option.some.inj hstep
    have hready := h.linked.ready
    exact handedOff_withMav h ⟨⟨rfl, hready.typeKnown, hready.noneDeferred⟩, h.linked.loop,
      h.linked.recv⟩ rfl id fun s => Iff.rfl
  | post e =>
    obtain ⟨hexternal, hpost⟩ := Option.ite_none_right_eq_some.mp hstep
    obtain rfl := Option.some.inj hpost
    apply handedOff_post h
    cases e <;> first | rfl | exact absurd hexternal Bool.false_ne_true
  | retryPendingSearch pos =>
    obtain rfl := Option.some.inj hstep
    exact handedOff_enqueue h (.retryPending pos) a.reachedWith

/-- While the link is up and uploads are accepted, a searching FMU with nothing in flight has the
search it holds loaded on the autopilot: the connection names it as loaded, and it is the mission
that the autopilot has. -/
theorem searching_loaded (terminateAction : TerminateAction) (lowbatThreshold : ℤ)
    (lowBatteryLatchCount : ℤ) (altitudeCapM : UInt16) (altitudeBreachLatchCount : ℤ)
    (positionReportIntervalMs : ℕ) (gotoAltitudeM : UInt16) {t : MavType} (ht : t ≠ .other)
    {labels : List AppLabel} (hup : ∀ e ∈ labels, e.LinkUp) {a : App}
    (hrun : run next (init terminateAction lowbatThreshold
      (.new lowBatteryLatchCount altitudeCapM altitudeBreachLatchCount) positionReportIntervalMs
      { fdOpen := true, autopilotType := t, gotoAltitudeM := gotoAltitudeM }) labels = some a)
    (hquiet : a.Quiescent) (hsearching : a.machine.currentState = .searching)
    {held : SmmCandidate} (hheld : a.smm.currentSearch = some held) :
    a.mav.conn.search = some held.search ∧ a.mav.conn.searchLoaded = true ∧
      a.mission = some (.search held.search) := by
  have hnext (a : App) (e : AppLabel) (b : App) (h : a.Ordered ∧ a.HandedOff) (hup : e.LinkUp)
      (hstep : a.next e = some b) : b.Ordered ∧ b.HandedOff :=
    ⟨ordered_next h.1 hstep, handedOff_next h.1 h.2 hup hstep⟩
  obtain ⟨-, h⟩ : a.Ordered ∧ a.HandedOff := by
    apply invariant_of_forall_mem (fun a => a.Ordered ∧ a.HandedOff) hnext _ hup hrun
    refine ⟨ordered_init _ _ _ _ _, ⟨⟨rfl, ht, rfl⟩, rfl, rfl⟩, ?_, ?_, ?_, ?_⟩
    · rintro _ _ ⟨⟩
    · rintro _ ⟨⟨⟩, -⟩
    · rintro ⟨⟩
    · exact fun _ => ⟨rfl, fun call hcall => absurd hcall List.not_mem_nil⟩
  have hnoLoads : a.pendingLoads = [] := by
    simp only [pendingLoads, hquiet.loop, hquiet.calls, hquiet.eventQueue]
    rfl
  have hnoResume : ¬ a.ResumePending := by
    simp [ResumePending, RolePending, Smm.SearchPending, hquiet.calls, hquiet.taskQueue,
      hquiet.worker, hquiet.restarting, hquiet.eventQueue]
  have hcarries :=
    ((h.carried hsearching held hheld).resolve_left (not_not.mpr hnoLoads)).resolve_left hnoResume
  have hsettles := h.sent held.search hcarries
  rw [hquiet.loop, settled, hquiet.outstanding] at hsettles
  refine ⟨hcarries.1, hcarries.2.resolve_right fun hopen => ?_, ?_⟩
  · exact h.outstanding_ne_nil hquiet.loop hopen hquiet.outstanding
  · exact hsettles.resolve_left Bool.false_ne_true

/-- The search acquired is then the one loaded. -/
theorem acquiredThenUploaded_loaded :
    ∃ a held, run next (init .none 20 (.new 4 122 5) 1000
        { fdOpen := true, autopilotType := .quadrotor }) (acquired ++ uploaded) = some a ∧
      a.smm.currentSearch = some held ∧ a.mav.conn.search = some held.search ∧
      a.mav.conn.searchLoaded = true ∧ a.mission = some (.search held.search) := by
  have hknown : MavType.quadrotor ≠ .other := by decide
  have hup : ∀ e ∈ acquired ++ uploaded, e.LinkUp := by
    simp [acquired, uploaded, AppLabel.LinkUp]
  refine ⟨_, _, rfl, rfl, ?_⟩
  exact searching_loaded .none 20 4 122 5 1000 0 hknown hup rfl
    ⟨rfl, rfl, rfl, rfl, rfl, rfl, rfl⟩ rfl rfl

/-- A restart that is yet to be reported and an event that is being dispatched are found neither in
the queues nor among the uploads: the FMU holds a search and is searching, and it is not loaded. -/
theorem inFlight_unloaded :
    ∃ restarted dispatching,
      run next (init .none 20 (.new 4 122 5) 1000 { fdOpen := true, autopilotType := .quadrotor })
        (acquired ++ uploaded ++ [.autopilotRestart 0]) = some restarted ∧
      run next (init .none 20 (.new 4 122 5) 1000 { fdOpen := true, autopilotType := .quadrotor })
        (acquired ++ [.loop {}]) = some dispatching ∧
      (∀ e ∈ acquired ++ uploaded ++ [.autopilotRestart 0], e.LinkUp) ∧
      (∀ e ∈ acquired ++ [.loop {}], e.LinkUp) ∧
      ∀ a ∈ [restarted, dispatching], a.eventQueue = [] ∧ a.smm.taskQueue = [] ∧
        a.smm.pc = .idle ∧ a.outstanding = [] ∧ a.machine.currentState = .searching ∧
        a.smm.currentSearch.isSome = true ∧ a.mav.conn.searchLoaded = false ∧
        a.mission = none := by
  refine ⟨_, _, rfl, rfl, by simp [acquired, uploaded, AppLabel.LinkUp],
    by simp [acquired, AppLabel.LinkUp], ?_⟩
  intro a ha
  rcases List.mem_cons.mp ha with rfl | hlast
  · exact ⟨rfl, rfl, rfl, rfl, rfl, rfl, rfl, rfl⟩
  · rw [List.mem_singleton.mp hlast]
    exact ⟨rfl, rfl, rfl, rfl, rfl, rfl, rfl, rfl⟩

end App

end CapFmu
