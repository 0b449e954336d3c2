import CapFmu.App.Uploads

/-!
# The uploads on their way

An upload passes through the queue of events and the calls of the event loop before the connection
takes it up. The worker's events are taken in order, so the last upload that is pending is always
of the search held, whatever becomes of the link and of the uploads before it.

Once none is pending the connection names the search held while the FMU is searching. Before that
it may name another one: an event that brings an upload is dropped unless the FMU is searching, and
a change of altitude leaves an abandoned search loaded. It is put right as the role is granted
again, since the worker then resumes the search it holds.
-/

namespace CapFmu

/-- Whether a task is to act on a granted role. -/
def SmmTask.isSearch : SmmTask → Bool
  | search _ => true
  | _ => false

/-- Whether the worker is about to act on a granted role. -/
def SmmPc.isSearch : SmmPc → Bool
  | search _ => true
  | _ => false

/-- A pending role is found in the queue or with the worker. -/
theorem Smm.searchPending_iff (w : Smm) :
    (w.taskQueue.any SmmTask.isSearch || w.pc.isSearch) = true ↔ w.SearchPending := by
  rw [Bool.or_eq_true, List.any_eq_true, SearchPending]
  constructor
  · rintro (⟨task, htask, hsearch⟩ | hsearch)
    · cases task with
      | search pos => exact Or.inl ⟨pos, htask⟩
      | connect | reportPosition | reachedPoint | retryPending => cases hsearch
    · cases hpc : w.pc <;> simp [hpc, SmmPc.isSearch] at hsearch
      exact Or.inr ⟨_, rfl⟩
  · rintro (⟨pos, htask⟩ | ⟨pos, hpc⟩)
    · exact Or.inl ⟨.search pos, htask, rfl⟩
    · right
      rw [hpc]
      rfl

instance (w : Smm) : Decidable w.SearchPending := decidable_of_iff _ w.searchPending_iff

namespace MavConnection

variable {c d : MavConnection} {written : List WireEntry} {s : SmmSearch}

/-- Once the upload state is cleared no search is on the autopilot. -/
theorem not_carries_invalidateInFlightUpload (c : MavConnection) (s : SmmSearch) :
    ¬ c.invalidateInFlightUpload.Carries s := by
  rintro ⟨-, hloaded | hloading⟩
  · cases hloaded
  · cases hloading

/-- An acknowledgement brings no search to the autopilot whose upload was not open. -/
theorem carries_of_ackDecision {accepted : Bool} (h : (c.ackDecision accepted).1.Carries s) :
    c.Carries s := by
  obtain ⟨hsearch, hloaded | hloading⟩ := h
  · grind [ackDecision, Carries]
  · cases hloading

/-- With the upload done that a section belongs to, the search that is carried is the one that it
was of, or was carried before. -/
theorem carries_of_loopSection {pc qc : LoopPc} (hstep : loopSection c pc = some (d, qc, written))
    (hdone : qc.loads = []) (h : d.Carries s) : (pc.loads = [] ∧ c.Carries s) ∨ pc.loads = [s] := by
  cases pc with
  | loadCheck t =>
    simp only [loopSection, Option.some.injEq, Prod.mk.injEq] at hstep
    obtain ⟨rfl, rfl, -⟩ := hstep
    rw [loads_reload] at hdone
    cases t with
    | none =>
      left
      refine ⟨rfl, ?_⟩
      grind [checkReload, Carries]
    | some t =>
      right
      rcases checkReload_some c t with hreload | ⟨hcheck, hcarries⟩
      · simp [hreload] at hdone
      · rw [hcheck] at h
        exact congrArg (fun q => [q]) (Option.some.inj (hcarries.1.symm.trans h.1))
  | _ => grind [loopSection, LoopPc.loads, AfterMode.loads_next, settleMode, deferMode,
      invalidateInFlightUpload, activateGoto, armGoto, armSearch, Carries]

end MavConnection

/-- A message of the autopilot and a change of the link bring no search to the autopilot whose
upload was not open, and leave the event loop alone. -/
theorem MavSystem.carries_of_step {s t : MavSystem} {e : MavLabel} (hloop : e ≠ .loop)
    (hcall : ∀ command, e ≠ .call command) (hstep : s.step e = some t) :
    t.loop = s.loop ∧ ∀ q, t.conn.Carries q → s.conn.Carries q := by
  cases e with
  | loop => exact absurd rfl hloop
  | call command => exact absurd rfl (hcall command)
  | recv =>
    obtain ⟨⟨conn, recv, written⟩, hsection, rfl⟩ := Option.map_eq_some_iff.mp hstep
    obtain ⟨hsearch, hloading, hloaded⟩ := recvSection_search hsection
    refine ⟨rfl, fun q hq => ⟨hsearch.symm.trans hq.1, ?_⟩⟩
    exact hq.2.imp hloaded hloading.symm.trans
  | missionAck accepted =>
    obtain ⟨-, rfl⟩ := step_missionAck_eq_some.mp hstep
    exact ⟨rfl, fun q => MavConnection.carries_of_ackDecision⟩
  | autopilotRestart =>
    obtain ⟨-, rfl⟩ := step_autopilotRestart_eq_some.mp hstep
    exact ⟨rfl, fun q hq => absurd hq (s.conn.not_carries_invalidateInFlightUpload q)⟩
  | heartbeat =>
    obtain ⟨-, rfl⟩ := step_heartbeat_eq_some.mp hstep
    exact ⟨rfl, fun q => id⟩
  | missionRequest =>
    obtain ⟨-, reply, -, rfl⟩ := step_missionRequest_eq_some.mp hstep
    exact ⟨rfl, fun q => id⟩
  | commsLost | setLink _ | progress _ _ =>
    cases hstep
    exact ⟨rfl, fun q => id⟩

namespace App

/-- The uploads that are on their way to the autopilot, the next one first. -/
def pendingLoads (a : App) : List SmmSearch :=
  a.mav.loop.loads ++ a.calls.filterMap AppCall.load? ++ a.eventQueue.filterMap AppEvent.load?

/-- The worker is to act on a granted role. -/
def RolePending (a : App) : Prop := .action .search ∈ a.calls ∨ a.smm.SearchPending

instance (a : App) : Decidable a.RolePending := inferInstanceAs (Decidable (_ ∨ _))

/-- The last pending upload is of the search held. With none pending, and no granted role to act on,
the search that a searching FMU has on the autopilot is the one held. -/
structure Ordered (a : App) : Prop where
  last_load : ∀ held, a.smm.currentSearch = some held →
    ∀ s, a.pendingLoads.getLast? = some s → s = held.search
  agrees : a.machine.currentState = .searching → a.pendingLoads = [] → ¬ a.RolePending →
    ∀ held, a.smm.currentSearch = some held → ∀ s, a.mav.conn.Carries s → s = held.search

variable {a b : App}

/-- No search is held as the application is constructed. -/
theorem ordered_init (terminateAction : TerminateAction) (lowbatThreshold : ℤ)
    (machine : FmuStateMachine) (positionReportIntervalMs : ℕ) (conn : MavConnection) :
    (init terminateAction lowbatThreshold machine positionReportIntervalMs conn).Ordered := by
  constructor
  · rintro _ ⟨⟩
  · rintro _ _ _ _ ⟨⟩

/-- A step that leaves the search held and the uploads alone keeps their order, if it brings no
search to the autopilot. -/
theorem Ordered.congr (h : a.Ordered) (hheld : b.smm.currentSearch = a.smm.currentSearch)
    (hpending : b.pendingLoads = a.pendingLoads) (hmachine : b.machine = a.machine)
    (hrole : a.RolePending → b.RolePending)
    (hcarries : ∀ s, b.mav.conn.Carries s → a.mav.conn.Carries s) : b.Ordered := by
  constructor
  · rw [hheld, hpending]
    exact h.last_load
  · rw [hheld, hpending, hmachine]
    intro hsearching hnone hquiet held hsome s hs
    exact h.agrees hsearching hnone (mt hrole hquiet) held hsome s (hcarries s hs)

/-- The last of the uploads that are left is the last of all. -/
theorem Ordered.last_load_of_suffix (h : a.Ordered) (hloads : b.pendingLoads <:+ a.pendingLoads)
    (hheld : b.smm.currentSearch = a.smm.currentSearch) (held : SmmCandidate)
    (hsome : b.smm.currentSearch = some held) (s : SmmSearch)
    (hlast : b.pendingLoads.getLast? = some s) : s = held.search := by
  apply h.last_load held (hheld.symm.trans hsome)
  obtain ⟨before, hbefore⟩ := hloads
  rw [← hbefore, List.getLast?_append, hlast]
  rfl

/-- A step of the connection that leaves the event loop alone keeps the order. -/
theorem Ordered.withMav (h : a.Ordered) {mav : MavSystem} (hloop : mav.loop = a.mav.loop)
    (hcarries : ∀ q, mav.conn.Carries q → a.mav.conn.Carries q) : (a.withMav mav).Ordered := by
  refine h.congr rfl ?_ rfl id hcarries
  rw [pendingLoads, pendingLoads, App.withMav, hloop]

/-- Events that bring no upload keep the order as they are appended. -/
theorem Ordered.post (h : a.Ordered) {e : AppEvent} (hload : e.load? = none) (restarting : Bool) :
    Ordered { a with restarting := restarting, eventQueue := a.eventQueue ++ [e] } := by
  refine h.congr rfl ?_ rfl id fun _ => id
  simp only [pendingLoads, List.filterMap_append, List.filterMap_cons_none hload,
    List.filterMap_nil, List.append_nil]

/-- A new task keeps the order. -/
theorem Ordered.enqueue (h : a.Ordered) (task : SmmTask) (reachedWith : List ReachedWith) :
    Ordered { a with smm := a.smm.enqueue task, reachedWith := reachedWith } :=
  h.congr (Smm.currentSearch_enqueue _ _) rfl rfl
    (Or.imp_right (Smm.searchPending_enqueue task)) fun _ => id

/-- Progress on a search changes the point it resumes from alone. -/
theorem observe_foldl (effects : List SmmEffect) (conn : MavConnection) :
    ∃ idx, effects.foldl SmmEffect.observe conn = { conn with currentPointIdx := idx } := by
  induction effects generalizing conn with
  | nil => exact ⟨conn.currentPointIdx, rfl⟩
  | cons effect effects ih =>
    obtain ⟨idx, hidx⟩ := ih (effect.observe conn)
    refine ⟨idx, ?_⟩
    rw [List.foldl_cons, hidx]
    cases effect <;> rfl

/-- The uploads pending after a section of the worker are those before it, and the one that the
section brings. -/
theorem pendingLoads_stepWorker {r : SmmReply} {v : Smm} {effects : List SmmEffect}
    (hsection : a.smm.step r = some (v, effects)) (hstep : a.stepWorker r = some b) :
    b.pendingLoads = a.pendingLoads ++ effects.filterMap SmmEffect.load? := by
  rw [stepWorker, hsection] at hstep
  obtain rfl := Option.some.inj hstep
  simp only [pendingLoads, List.filterMap_append, filterMap_load?_event?, List.append_assoc]

/-- The worker keeps the order: a search that it publishes or resumes is the last one to be
uploaded. -/
theorem ordered_stepWorker (h : a.Ordered) {r : SmmReply} (hstep : a.stepWorker r = some b) :
    b.Ordered := by
  obtain ⟨⟨v, effects⟩, hsection, hb⟩ := Option.map_eq_some_iff.mp hstep
  have hpending := pendingLoads_stepWorker hsection hstep
  obtain ⟨idx, hconn⟩ := observe_foldl effects a.mav.conn
  have hheld : b.smm.currentSearch = v.currentSearch := by rw [← hb]
  rcases Smm.step_loads hsection with hnone | ⟨hsame, hquiet, hpc⟩ | ⟨held, hsome, hload⟩
  · have hnoHeld (held : SmmCandidate) : b.smm.currentSearch ≠ some held := by
      simp [hheld, hnone]
    exact ⟨fun held hsome => absurd hsome (hnoHeld held),
      fun _ _ _ held hsome => absurd hsome (hnoHeld held)⟩
  · rw [hquiet, List.append_nil] at hpending
    refine h.congr (hheld.trans hsame) hpending ?_ ?_ ?_
    · rw [← hb]
    · rw [← hb]
      exact Or.imp_right (Smm.step_searchPending hpc hsection)
    · rw [← hb]
      simp only [hconn]
      exact fun _ => id
  · rw [hload] at hpending
    constructor
    · intro other hother s hlast
      rw [hpending, List.getLast?_concat] at hlast
      obtain rfl := Option.some.inj (hsome.symm.trans (hheld.symm.trans hother))
      exact (Option.some.inj hlast).symm
    · intro _ hnone
      simp [hpending] at hnone

/-- The recv thread keeps the order. -/
theorem ordered_stepRecv (h : a.Ordered) (hstep : a.stepRecv = some b) : b.Ordered := by
  unfold stepRecv at hstep
  split_ifs at hstep with hrestarting
  · obtain rfl := Option.some.inj hstep
    exact h.post rfl false
  · obtain ⟨mav, hmav, rfl⟩ := Option.map_eq_some_iff.mp hstep
    obtain ⟨hloop, hcarries⟩ := MavSystem.carries_of_step (e := .recv) (by simp) (by simp) hmav
    exact h.withMav hloop hcarries

/-- The event loop keeps the order while it goes on with a command. -/
theorem ordered_section (h : a.Ordered) {mav : MavSystem} (hstep : a.mav.stepLoop = some mav) :
    (a.withSection mav).Ordered := by
  obtain ⟨⟨conn, loop, written⟩, hsection, rfl⟩ := Option.map_eq_some_iff.mp hstep
  obtain ⟨before, hbefore⟩ := loopSection_loads_suffix hsection
  constructor
  · refine h.last_load_of_suffix ?_ rfl
    exact ⟨before, by simp only [pendingLoads, withSection, withMav, ← hbefore, List.append_assoc]⟩
  · intro hsearching hnone hquiet held hheld s hs
    obtain ⟨hqueue, hevents⟩ := List.append_eq_nil_iff.mp hnone
    obtain ⟨hdone, hcalls⟩ := List.append_eq_nil_iff.mp hqueue
    have hpending : a.pendingLoads = a.mav.loop.loads ++ [] := by
      rw [pendingLoads, List.append_assoc]
      exact congrArg (a.mav.loop.loads ++ ·) (List.append_eq_nil_iff.mpr ⟨hcalls, hevents⟩)
    rcases MavConnection.carries_of_loopSection hsection hdone hs with ⟨hloads, hcarries⟩ | hloads
    · rw [hloads] at hpending
      exact h.agrees hsearching hpending hquiet held hheld s hcarries
    · rw [hloads] at hpending
      exact h.last_load held hheld s (by rw [hpending]; rfl)

/-- A command that is started with the event loop at rest keeps the order, if the uploads on their
way are the same. -/
theorem Ordered.startCall (h : a.Ordered) {command : MavCall}
    (hpending : (a.startCall command).pendingLoads = a.pendingLoads) :
    (a.startCall command).Ordered :=
  h.congr rfl hpending rfl id fun _ => id

/-- A call that is made has no more bearing on the order, unless it asks for a search. -/
theorem Ordered.popCall (h : a.Ordered) {call : AppCall} {rest : List AppCall}
    (hcalls : a.calls = call :: rest) (hload : call.load? = none)
    (hsearch : call ≠ .action .search) : Ordered { a with calls := rest } := by
  refine h.congr rfl ?_ rfl ?_ fun _ => id
  · simp only [pendingLoads, hcalls, List.filterMap_cons_none hload]
  · refine Or.imp_left fun hcall => ?_
    rw [hcalls] at hcall
    exact (List.mem_cons.mp hcall).resolve_left hsearch.symm

/-- The event loop keeps the order as it makes a call. -/
theorem ordered_perform (h : a.Ordered) (hidle : a.mav.loop = .idle) {call : AppCall}
    {rest : List AppCall} (hcalls : a.calls = call :: rest) (pos : Point) :
    (perform { a with calls := rest } pos call).Ordered := by
  have htakesOver (hpopped : Ordered { a with calls := rest }) {command : MavCall}
      (hloads : command.entry.loads = []) :
      (App.startCall { a with calls := rest } command).Ordered := by
    apply hpopped.startCall
    simp only [pendingLoads, startCall, hloads, hidle]
    rfl
  cases call with
  | action act =>
    cases act with
    | cancelSearch => exact (h.popCall hcalls rfl (by simp)).congr rfl rfl rfl id fun _ => id
    | search =>
      refine h.congr (Smm.currentSearch_enqueue _ _) ?_ rfl ?_ fun _ => id
      · have hload : AppCall.load? (.action .search) = none := rfl
        simp only [pendingLoads, perform, hcalls, List.filterMap_cons_none hload]
      · exact fun _ => Or.inr (Smm.searchPending_search _ pos)
    | setMode fm =>
      apply htakesOver (h.popCall hcalls rfl (by simp))
      cases fm <;> rfl
    | gotoPosition position =>
      exact (h.popCall hcalls rfl (by simp)).congr rfl rfl rfl id fun _ => id
    | disarm => exact htakesOver (h.popCall hcalls rfl (by simp)) rfl
    | terminate =>
      apply htakesOver (h.popCall hcalls rfl (by simp))
      cases a.terminateAction <;> rfl
    | setAltitude alt | stateChange state => exact h.popCall hcalls rfl (by simp)
  | loadSearch search =>
    refine h.congr rfl ?_ rfl ?_ fun _ => id
    · simp only [pendingLoads, perform, startCall, hcalls, hidle]
      rfl
    · refine Or.imp_left fun hcall => ?_
      rw [hcalls] at hcall
      exact (List.mem_cons.mp hcall).resolve_left (by simp)
  | reportPosition pd => exact (h.popCall hcalls rfl (by simp)).enqueue (.reportPosition pd) _
  | reachedPoint point reached =>
    exact (h.popCall hcalls rfl (by simp)).enqueue (.reachedPoint point) _
  | connect details => exact (h.popCall hcalls rfl (by simp)).enqueue (.connect details) _

/-- The uploads pending before an event is taken. -/
theorem pendingLoads_of_idle (hidle : a.mav.loop = .idle) (hcalls : a.calls = []) {e : AppEvent}
    {rest : List AppEvent} (hqueue : a.eventQueue = e :: rest) :
    a.pendingLoads = e.load?.toList ++ rest.filterMap AppEvent.load? := by
  simp only [pendingLoads, hidle, hcalls, hqueue]
  cases e <;> rfl

/-- The event loop keeps the order as it takes an event. -/
theorem ordered_dispatch (h : a.Ordered) (hidle : a.mav.loop = .idle) (hcalls : a.calls = [])
    {e : AppEvent} {rest : List AppEvent} (hqueue : a.eventQueue = e :: rest) :
    Ordered { a with
      machine := (a.machine.dispatch a.lowbatThreshold e).1
      calls := (a.machine.dispatch a.lowbatThreshold e).2
      eventQueue := rest } := by
  have hpending := pendingLoads_of_idle hidle hcalls hqueue
  constructor
  · refine h.last_load_of_suffix ?_ rfl
    rw [hpending]
    simp only [pendingLoads, hidle, LoopPc.loads, List.nil_append]
    rcases a.machine.dispatch_loads a.lowbatThreshold e with hbrings | hnone
    · rw [hbrings]
    · rw [hnone]
      exact List.suffix_append _ _
  · intro hsearching hnone hquiet held hheld s hs
    rcases (FmuStateMachine.dispatch_searching hsearching).2 with hsearch | ⟨hstays, -, hbrings⟩
    · exact absurd (Or.inl hsearch) hquiet
    · simp only [pendingLoads, hidle, LoopPc.loads, List.nil_append, hbrings] at hnone
      have hnotPending : ¬ a.RolePending := by
        rintro (hcall | hsearch)
        · simp [hcalls] at hcall
        · exact hquiet (Or.inr hsearch)
      exact h.agrees hstays (hpending.trans hnone) hnotPending held hheld s hs

/-- The event loop keeps the order. -/
theorem ordered_stepLoop (h : a.Ordered) {pos : Point} (hstep : a.stepLoop pos = some b) :
    b.Ordered := by
  obtain ⟨hidle, call, rest, hcalls, rfl⟩ | ⟨hidle, hcalls, e, rest, hqueue, rfl⟩ |
      ⟨-, mav, hmav, rfl⟩ := stepLoop_cases hstep
  · exact ordered_perform h hidle hcalls pos
  · exact ordered_dispatch h hidle hcalls hqueue
  · exact ordered_section h hmav

/-- A message of the autopilot keeps the order. -/
theorem ordered_receive (h : a.Ordered) {message : MavLabel} (hloop : message ≠ .loop)
    (hcall : ∀ command, message ≠ .call command) (hstep : a.receive message = some b) :
    b.Ordered := by
  obtain ⟨-, mav, hmav, rfl⟩ := receive_eq_some hstep
  obtain ⟨hsame, hcarries⟩ := MavSystem.carries_of_step hloop hcall hmav
  exact h.withMav hsame hcarries

/-- Every step keeps the order. -/
theorem ordered_next (h : a.Ordered) {e : AppLabel} (hstep : a.next e = some b) : b.Ordered := by
  cases e with
  | loop pos => exact ordered_stepLoop h hstep
  | recv => exact ordered_stepRecv h hstep
  | worker r => exact ordered_stepWorker h hstep
  | heartbeat _ | missionRequest _ _ => exact ordered_receive h (by simp) (by simp) hstep
  | missionAck _ | autopilotRestart _ =>
    obtain ⟨c, hreceive, rfl⟩ := Option.map_eq_some_iff.mp hstep
    exact (ordered_receive h (by simp) (by simp) hreceive).congr rfl rfl rfl id fun _ => id
  | missionItemReached seq =>
    obtain ⟨-, rfl⟩ := next_missionItemReached_eq_some.mp hstep
    exact h.post rfl _
  | mavCommsLost =>
    obtain rfl := Option.some.inj hstep
    exact h.withMav rfl fun _ => id
  | uploadDropped | setLink _ =>
    obtain rfl := Option.some.inj hstep
    exact h.congr rfl rfl rfl id fun _ => id
  | post e =>
    obtain ⟨hexternal, hpost⟩ := Option.ite_none_right_eq_some.mp hstep
    obtain rfl := Option.some.inj hpost
    apply h.post _ _
    cases e <;> first | rfl | exact absurd hexternal Bool.false_ne_true
  | retryPendingSearch pos =>
    obtain rfl := Option.some.inj hstep
    exact h.enqueue (.retryPending pos) a.reachedWith

end App

end CapFmu
