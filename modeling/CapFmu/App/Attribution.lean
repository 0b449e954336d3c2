import CapFmu.App.Missions

/-!
# Whose waypoint was reached

A reached mission item is reported by its number alone. The event loop hands it to the worker
while the FMU is searching, and the worker credits it to the search it holds by then. The
search whose mission the autopilot flew is not looked at on the way.

The credit is due as long as nothing comes in between. While the FMU is searching an item is
reached only with a search loaded and no other on its way; no search is published and the
searching state is not entered anew before the worker has come to the point; and the autopilot's
acceptances are of the search that the connection takes them for. A search that is named as
loaded is then the mission of the autopilot, and the search held is the one that is named.
-/

namespace CapFmu

open Transition

/-- Whether a task is a reached point. -/
def SmmTask.isReachedPoint : SmmTask → Bool
  | reachedPoint _ => true
  | _ => false

/-- Whether the worker is at a reached point. -/
def SmmPc.isReachedPoint : SmmPc → Bool
  | reachedPoint _ => true
  | _ => false

/-- The search that an effect takes progress on or completes. -/
def SmmEffect.credits? : SmmEffect → Option ℕ
  | complete candidate => some candidate.search.id
  | progress handle _ => some handle
  | _ => none

@[simp] theorem SmmTask.isReachedPoint_entry (task : SmmTask) :
    task.entry.isReachedPoint = task.isReachedPoint := by
  cases task <;> rfl

namespace Smm

/-- The reached points that the worker has yet to act on. -/
def reachedPoints (w : Smm) : ℕ :=
  w.taskQueue.countP SmmTask.isReachedPoint + if w.pc.isReachedPoint then 1 else 0

variable {w v : Smm} {r : SmmReply} {effects : List SmmEffect}

/-- A new task adds a reached point if it is one. -/
theorem reachedPoints_enqueue (w : Smm) (task : SmmTask) :
    (w.enqueue task).reachedPoints =
      w.reachedPoints + if task.isReachedPoint then 1 else 0 := by
  have hkept : (w.taskQueue.filter fun queued => !queued.isReportPosition).countP
      SmmTask.isReachedPoint = w.taskQueue.countP SmmTask.isReachedPoint := by
    rw [List.countP_filter]
    apply List.countP_congr
    intro queued _
    cases queued <;> simp [SmmTask.isReachedPoint, SmmTask.isReportPosition]
  have happended : (w.taskQueue ++ [task]).countP SmmTask.isReachedPoint =
      w.taskQueue.countP SmmTask.isReachedPoint + if task.isReachedPoint then 1 else 0 := by
    rw [List.countP_append, List.countP_singleton]
  cases task with
  | reportPosition pd =>
    have hqueue : (w.enqueue (.reportPosition pd)).taskQueue =
        w.taskQueue.filter (fun queued => !queued.isReportPosition) ++ [.reportPosition pd] := rfl
    have hpc : (w.enqueue (.reportPosition pd)).pc = w.pc := rfl
    rw [reachedPoints, hqueue, hpc, List.countP_append, hkept]
    rfl
  | retryPending pos =>
    by_cases hqueued : w.taskQueue.any SmmTask.isRetryPending = true
    · have hkeeps : w.enqueue (.retryPending pos) = w := if_pos hqueued
      rw [hkeeps]
      rfl
    · have hqueues : w.enqueue (.retryPending pos) =
          { w with taskQueue := w.taskQueue ++ [.retryPending pos] } := if_neg hqueued
      rw [hqueues, reachedPoints, reachedPoints, happended]
      exact Nat.add_right_comm ..
  | connect _ | reachedPoint _ | search _ =>
    simp only [reachedPoints]
    rw [Nat.add_right_comm, ← happended]
    rfl

/-- A section that takes no task leaves the queue alone and comes to no reached point. -/
theorem step_taskQueue (hbusy : w.pc ≠ .idle) (hstep : w.step r = some (v, effects)) :
    v.taskQueue = w.taskQueue ∧ v.pc.isReachedPoint = false := by
  refine ⟨taskQueue_step_of_busy hbusy hstep, ?_⟩
  unfold step at hstep
  split at hstep <;> grind [SmmPc.isReachedPoint]

/-- A section acts on the reached point that the worker is at. -/
theorem reachedPoints_step (hstep : w.step r = some (v, effects)) :
    v.reachedPoints + (if w.pc.isReachedPoint then 1 else 0) = w.reachedPoints := by
  by_cases hidle : w.pc = .idle
  · simp only [step, hidle] at hstep
    cases hqueue : w.taskQueue with
    | nil => simp [hqueue] at hstep
    | cons task rest =>
      simp only [hqueue, Option.some.injEq, Prod.mk.injEq] at hstep
      obtain ⟨rfl, -⟩ := hstep
      have hpc : w.pc.isReachedPoint = false := by
        rw [hidle]
        rfl
      simp [reachedPoints, hpc, hqueue, List.countP_cons]
  · obtain ⟨hqueue, hpc⟩ := step_taskQueue hidle hstep
    simp [reachedPoints, hqueue, hpc]

/-- Progress and completion are of the search held, at a reached point. -/
theorem step_credits (hstep : w.step r = some (v, effects)) {effect : SmmEffect}
    (heffect : effect ∈ effects) {handle : ℕ} (hcredits : effect.credits? = some handle) :
    w.pc.isReachedPoint = true ∧
      ∃ held, w.currentSearch = some held ∧ held.search.id = handle := by
  unfold step at hstep
  split at hstep <;> grind [close_of_mem_doConnect, checkOperatorCommand, doReachedPoint,
    SmmPc.isReachedPoint, SmmEffect.credits?, Option.map_eq_some_iff]

end Smm

/-- Whether the worker, once it comes to a point reached, credits it to the search whose mission the
autopilot flew: if a search is held, it was loaded as the item was reached. -/
def ReachedWith.Fits (reached : ReachedWith) (w : Smm) : Prop :=
  ∀ held, w.currentSearch = some held →
    reached = { loaded := some held.search, mission := some (.search held.search) }

/-- What was loaded as an item was reached that an event reports. -/
def AppEvent.reached? : AppEvent → Option ReachedWith
  | reachedPoint _ reached => some reached
  | _ => none

/-- What was loaded as an item was reached that a call hands over. -/
def AppCall.reached? : AppCall → Option ReachedWith
  | reachedPoint _ reached => some reached
  | _ => none

namespace FmuStateMachine

/-- Whether an event takes the FMU into the searching state. -/
def entersSearching (m : FmuStateMachine) (lowbatThreshold : ℤ) (e : AppEvent) : Bool :=
  decide (m.currentState ≠ .searching ∧ (m.dispatch lowbatThreshold e).1.currentState = .searching)

/-- Driving the state machine hands no point over. -/
@[simp] theorem drive_reached (m : FmuStateMachine) (e : FmuEvent) :
    (m.drive e).2.filterMap AppCall.reached? = [] := by
  rw [drive, List.filterMap_map, List.filterMap_eq_nil_iff]
  exact fun _ _ => rfl

/-- Dispatching an event hands over the point that it reports, while the FMU is searching. -/
theorem dispatch_reached (m : FmuStateMachine) (lowbatThreshold : ℤ) (e : AppEvent) :
    (m.dispatch lowbatThreshold e).2.filterMap AppCall.reached? =
      if m.currentState = .searching then e.reached?.toList else [] := by
  cases e with
  | reachedPoint point reached =>
    simp only [dispatch]
    split_ifs <;> rfl
  | smmLoadSearch search =>
    simp only [dispatch]
    split_ifs
    · rfl
    · exact m.drive_reached _
    · rfl
  | position pd fixValid altitudeAglM =>
    simp only [dispatch, List.filterMap_append, drive_reached]
    split_ifs <;> rfl
  | smmSettings details => exact (ite_self _).symm
  | _ =>
    simp only [dispatch, drive_reached]
    exact (ite_self _).symm

end FmuStateMachine

/-- The worker's callbacks report no point. -/
theorem filterMap_reached?_event? (effects : List SmmEffect) :
    (effects.filterMap SmmEffect.event?).filterMap AppEvent.reached? = [] := by
  rw [List.filterMap_filterMap, List.filterMap_eq_nil_iff]
  intro effect _
  cases effect <;> rfl

namespace App

/-- Progress is credited to the search that was loaded when the item was reached, and whose mission
the autopilot had. -/
def CreditsFlown (a : App) : AppLabel → Prop
  | .worker r => ∀ v effects, a.smm.step r = some (v, effects) → ∀ effect ∈ effects, ∀ handle,
      effect.credits? = some handle → ∃ s : SmmSearch, s.id = handle ∧
        a.reachedWith.head? = some { loaded := some s, mission := some (.search s) }
  | .loop _ | .recv | .heartbeat _ | .missionAck _ | .uploadDropped | .missionRequest _ _
  | .missionItemReached _ | .autopilotRestart _ | .mavCommsLost | .setLink _ | .post _
  | .retryPendingSearch _ => True

/-- The points reached that the worker has yet to act on. -/
def waiting (a : App) : List ReachedWith :=
  a.reachedWith ++ a.calls.filterMap AppCall.reached? ++ a.eventQueue.filterMap AppEvent.reached?

/-- The reached points that the worker will act on as things are: one that is still an event is
dropped unless the FMU is searching. -/
def due (a : App) : List ReachedWith :=
  a.reachedWith ++ a.calls.filterMap AppCall.reached? ++
    if a.machine.currentState = .searching then a.eventQueue.filterMap AppEvent.reached? else []

/-- Whether a search is loaded with none on its way, and no granted role to act on. -/
def searchSettled (a : App) : Bool :=
  a.mav.conn.searchLoaded && a.pendingLoads.isEmpty && decide (¬ a.RolePending)

/-- While the FMU is searching an item is reached only with the search settled. No search is
published while a point waits, and the searching state is not entered while one is queued. An
acceptance is of the search that the connection names. -/
def undisturbed (a : App) : AppLabel → Bool
  | .missionItemReached _ => decide (a.machine.currentState ≠ .searching) || a.searchSettled
  | .missionAck accepted => !accepted || a.answersNamed
  | .worker r =>
    match a.smm.pc with
    | .commit _ _ candidate => !(candidate.valid && r.accepted) || a.waiting.isEmpty
    | _ => true
  | .loop _ =>
    match a.mav.loop, a.calls, a.eventQueue with
    | .idle, [], e :: rest => !a.machine.entersSearching a.lowbatThreshold e ||
        (rest.filterMap AppEvent.reached?).isEmpty
    | _, _, _ => true
  | _ => true

/-- Every point that the worker will act on fits the search held. -/
structure Attributed (a : App) : Prop where
  fits : ∀ reached ∈ a.due, reached.Fits a.smm
  length_eq : a.reachedWith.length = a.smm.reachedPoints

variable {a b : App}

/-- The worker acts on points that wait for it. -/
theorem mem_waiting_of_mem_due {reached : ReachedWith} (h : reached ∈ a.due) :
    reached ∈ a.waiting := by
  unfold due at h
  unfold waiting
  split_ifs at h
  · exact h
  · rw [List.append_nil] at h
    exact List.mem_append_left _ h

/-- A step that publishes no search and brings no point keeps the attribution. -/
theorem Attributed.congr (h : a.Attributed) (hdue : ∀ reached ∈ b.due, reached ∈ a.due)
    (hheld : ∀ held, b.smm.currentSearch = some held → a.smm.currentSearch = some held)
    (hlength : b.reachedWith.length = b.smm.reachedPoints) : b.Attributed where
  fits reached hreached held hsome := h.fits reached (hdue reached hreached) held (hheld held hsome)
  length_eq := hlength

/-- A step that leaves the search client and the points alone keeps the attribution. -/
theorem Attributed.congr_smm (h : a.Attributed) (hdue : ∀ reached ∈ b.due, reached ∈ a.due)
    (hreached : b.reachedWith = a.reachedWith)
    (hheld : b.smm.currentSearch = a.smm.currentSearch)
    (hpoints : b.smm.reachedPoints = a.smm.reachedPoints) : b.Attributed := by
  refine h.congr hdue (fun held hsome => hheld.symm.trans hsome) ?_
  rw [hreached, hpoints]
  exact h.length_eq

/-- Attributed points are credited to the search whose mission was flown. -/
theorem Attributed.creditsFlown (h : a.Attributed) (e : AppLabel) : a.CreditsFlown e := by
  cases e with
  | worker r =>
    intro v effects hstep effect heffect handle hcredits
    obtain ⟨hpc, held, hheld, hid⟩ := Smm.step_credits hstep heffect hcredits
    cases hreached : a.reachedWith with
    | nil =>
      have hlength := h.length_eq
      simp [hreached, Smm.reachedPoints, hpc] at hlength
    | cons reached rest =>
      have hdue : reached ∈ a.due := by
        rw [due, hreached]
        simp
      exact ⟨held.search, hid, congrArg some (h.fits reached hdue held hheld)⟩
  | _ => trivial

/-- With the search settled, what is loaded as an item is reached fits the search held. -/
theorem fits_of_searchSettled (hordered : a.Ordered) (hflown : a.Flown)
    (hsearching : a.machine.currentState = .searching) (hsettled : a.searchSettled = true) :
    ReachedWith.Fits { loaded := a.loadedSearch, mission := a.mission } a.smm := by
  simp only [searchSettled, Bool.and_eq_true, List.isEmpty_iff, decide_eq_true_eq] at hsettled
  obtain ⟨⟨hloaded, hnone⟩, hquiet⟩ := hsettled
  have hprepared : a.mav.loop.isPreparing = false := by
    have hloads : a.mav.loop.loads = [] :=
      (List.append_eq_nil_iff.mp (List.append_eq_nil_iff.mp hnone).1).1
    cases hloop : a.mav.loop <;> simp_all [LoopPc.loads, LoopPc.isPreparing]
  obtain ⟨s, hsearch, hmission⟩ := hflown.loaded hloaded hprepared
  intro held hheld
  have hs : s = held.search :=
    hordered.agrees hsearching hnone hquiet held hheld s ⟨hsearch, Or.inl hloaded⟩
  rw [loadedSearch, if_pos hloaded, hsearch, hmission, hs]

/-- The worker takes a reached point off with the section that acts on it. -/
theorem reachedWith_stepWorker {r : SmmReply} (hstep : a.stepWorker r = some b) :
    b.reachedWith = if a.smm.pc.isReachedPoint then a.reachedWith.tail else a.reachedWith := by
  obtain ⟨_, -, rfl⟩ := Option.map_eq_some_iff.mp hstep
  cases hpc : a.smm.pc <;> rfl

/-- A section of the worker leaves the other points and the state alone. -/
theorem stepWorker_frame {r : SmmReply} (hstep : a.stepWorker r = some b) :
    b.machine = a.machine ∧ b.calls = a.calls ∧
      b.eventQueue.filterMap AppEvent.reached? = a.eventQueue.filterMap AppEvent.reached? := by
  obtain ⟨⟨v, effects⟩, -, rfl⟩ := Option.map_eq_some_iff.mp hstep
  refine ⟨rfl, rfl, ?_⟩
  rw [List.filterMap_append, filterMap_reached?_event?, List.append_nil]

/-- A section of the worker brings no point. -/
theorem due_stepWorker {r : SmmReply} (hstep : a.stepWorker r = some b) {reached : ReachedWith}
    (hdue : reached ∈ b.due) : reached ∈ a.due := by
  obtain ⟨hmachine, hcalls, hqueue⟩ := stepWorker_frame hstep
  rw [due, hmachine, hcalls, hqueue, reachedWith_stepWorker hstep, List.append_assoc] at hdue
  rw [due, List.append_assoc]
  rcases List.mem_append.mp hdue with hhanded | hrest
  · split_ifs at hhanded
    · exact List.mem_append_left _ (List.mem_of_mem_tail hhanded)
    · exact List.mem_append_left _ hhanded
  · exact List.mem_append_right _ hrest

/-- The worker keeps the attribution, if it publishes no search while a point is waiting. -/
theorem attributed_stepWorker (h : a.Attributed) {r : SmmReply}
    (hcond : a.undisturbed (.worker r) = true) (hstep : a.stepWorker r = some b) :
    b.Attributed := by
  have hreached := reachedWith_stepWorker hstep
  obtain ⟨⟨v, effects⟩, hsection, hb⟩ := Option.map_eq_some_iff.mp hstep
  have hsmm : b.smm = v := by rw [← hb]
  have hpoints := Smm.reachedPoints_step hsection
  have hlength : b.reachedWith.length = b.smm.reachedPoints := by
    have hwas := h.length_eq
    rw [hreached, hsmm]
    split_ifs at hpoints ⊢
    · rw [List.length_tail]
      omega
    · omega
  rcases Smm.step_held hsection with
    hsame | hnone | ⟨pos, retries, candidate, hpc, hvalid, haccepted, -⟩
  · refine h.congr (fun _ => due_stepWorker hstep) ?_ hlength
    rw [hsmm, hsame]
    exact fun _ => id
  · refine h.congr (fun _ => due_stepWorker hstep) ?_ hlength
    rw [hsmm, hnone]
    rintro _ ⟨⟩
  · have hempty : a.waiting = [] := by
      simpa [undisturbed, hpc, hvalid, haccepted] using hcond
    refine ⟨fun reached hdue => ?_, hlength⟩
    have hwaits := mem_waiting_of_mem_due (due_stepWorker hstep hdue)
    rw [hempty] at hwaits
    exact absurd hwaits List.not_mem_nil

/-- A call that is made leaves the points alone, but that a point handed over waits for the
worker. -/
theorem due_perform {call : AppCall} {rest : List AppCall} (hcalls : a.calls = call :: rest)
    (pos : Point) :
    ∀ reached ∈ (perform { a with calls := rest } pos call).due, reached ∈ a.due := by
  have hpopped : ∀ reached ∈ due { a with calls := rest }, reached ∈ a.due := by
    intro reached hdue
    simp only [due, hcalls, List.mem_append] at hdue ⊢
    refine hdue.imp_left (Or.imp_right fun hcall => ?_)
    obtain ⟨other, hother, hreached⟩ := List.mem_filterMap.mp hcall
    exact List.mem_filterMap.mpr ⟨other, List.mem_cons_of_mem _ hother, hreached⟩
  cases call with
  | action act => cases act <;> exact hpopped
  | loadSearch _ | reportPosition _ | connect _ => exact hpopped
  | reachedPoint point reached =>
    intro other hdue
    have hhanded : AppCall.reached? (.reachedPoint point reached) = some reached := rfl
    simp only [due, perform, List.mem_append, List.mem_singleton] at hdue
    simp only [due, hcalls, List.filterMap_cons_some hhanded, List.mem_append, List.mem_cons]
    tauto

/-- The points that the worker has yet to act on are counted as a call is made. -/
theorem length_perform (h : a.reachedWith.length = a.smm.reachedPoints) (pos : Point)
    (call : AppCall) :
    (a.perform pos call).reachedWith.length = (a.perform pos call).smm.reachedPoints ∧
      (a.perform pos call).smm.currentSearch = a.smm.currentSearch := by
  have henqueue (task : SmmTask) (htask : task.isReachedPoint = false) :
      a.reachedWith.length = (a.smm.enqueue task).reachedPoints := by
    rw [Smm.reachedPoints_enqueue, htask]
    exact h
  cases call with
  | action act =>
    cases act with
    | search =>
      refine ⟨?_, Smm.currentSearch_enqueue _ _⟩
      change _ = (Smm.enqueue _ _).reachedPoints
      rw [Smm.reachedPoints_enqueue]
      exact h
    | _ => exact ⟨h, rfl⟩
  | loadSearch _ => exact ⟨h, rfl⟩
  | reportPosition pd => exact ⟨henqueue (.reportPosition pd) rfl, Smm.currentSearch_enqueue _ _⟩
  | connect details => exact ⟨henqueue (.connect details) rfl, Smm.currentSearch_enqueue _ _⟩
  | reachedPoint point reached =>
    refine ⟨?_, Smm.currentSearch_enqueue _ _⟩
    change (a.reachedWith ++ [reached]).length = (a.smm.enqueue (.reachedPoint point)).reachedPoints
    rw [Smm.reachedPoints_enqueue, List.length_append, h]
    rfl

/-- The event loop keeps the attribution as it takes an event, if it does not enter the searching
state while a point is queued. -/
theorem attributed_dispatch (h : a.Attributed) (hcalls : a.calls = []) {e : AppEvent}
    {rest : List AppEvent} (hqueue : a.eventQueue = e :: rest)
    (hcond : a.machine.entersSearching a.lowbatThreshold e = true →
      rest.filterMap AppEvent.reached? = []) :
    Attributed { a with
      machine := (a.machine.dispatch a.lowbatThreshold e).1
      calls := (a.machine.dispatch a.lowbatThreshold e).2
      eventQueue := rest } := by
  refine h.congr_smm ?_ rfl rfl rfl
  intro reached hdue
  have hevent : (e :: rest).filterMap AppEvent.reached? =
      e.reached?.toList ++ rest.filterMap AppEvent.reached? := by
    cases e <;> rfl
  simp only [due, FmuStateMachine.dispatch_reached] at hdue
  simp only [due, hcalls, hqueue, hevent, List.filterMap_nil, List.append_nil]
  by_cases hsearching : a.machine.currentState = .searching
  · rw [if_pos hsearching, List.append_assoc] at hdue
    rw [if_pos hsearching]
    rcases List.mem_append.mp hdue with hhanded | hqueued
    · exact List.mem_append_left _ hhanded
    · refine List.mem_append_right _ ?_
      split_ifs at hqueued
      · exact hqueued
      · rw [List.append_nil] at hqueued
        exact List.mem_append_left _ hqueued
  · rw [if_neg hsearching, List.append_nil] at hdue ⊢
    rcases List.mem_append.mp hdue with hhanded | hqueued
    · exact hhanded
    · split_ifs at hqueued with hentered
      · have henters : a.machine.entersSearching a.lowbatThreshold e = true :=
          decide_eq_true ⟨hsearching, hentered⟩
        rw [hcond henters] at hqueued
        exact absurd hqueued List.not_mem_nil
      · exact absurd hqueued List.not_mem_nil

/-- The event loop keeps the attribution. -/
theorem attributed_stepLoop (h : a.Attributed) {pos : Point}
    (hcond : a.undisturbed (.loop pos) = true) (hstep : a.stepLoop pos = some b) :
    b.Attributed := by
  obtain ⟨-, call, rest, hcalls, rfl⟩ | ⟨hidle, hcalls, e, rest, hqueue, rfl⟩ |
      ⟨-, mav, -, rfl⟩ := stepLoop_cases hstep
  · obtain ⟨hlength, hheld⟩ :=
      length_perform (a := { a with calls := rest }) h.length_eq pos call
    exact h.congr (due_perform hcalls pos) (fun held hsome => hheld.symm.trans hsome) hlength
  · apply attributed_dispatch h hcalls hqueue
    intro henters
    simpa [undisturbed, hidle, hcalls, hqueue, henters] using hcond
  · exact h.congr_smm (fun _ => id) rfl rfl rfl

/-- An event that reports no point keeps the attribution as it is appended. -/
theorem attributed_post (h : a.Attributed) {e : AppEvent} (hreached : e.reached? = none)
    (restarting : Bool) :
    Attributed { a with restarting := restarting, eventQueue := a.eventQueue ++ [e] } := by
  refine h.congr_smm ?_ rfl rfl rfl
  simp only [due, List.filterMap_append, List.filterMap_cons_none hreached, List.filterMap_nil,
    List.append_nil]
  exact fun _ => id

/-- An item that is reached keeps the attribution, if the search is settled while the FMU is
searching. -/
theorem attributed_missionItemReached (hordered : a.Ordered) (hflown : a.Flown)
    (h : a.Attributed) {seq : ℕ} (hcond : a.undisturbed (.missionItemReached seq) = true)
    (hstep : a.next (.missionItemReached seq) = some b) : b.Attributed := by
  obtain ⟨-, rfl⟩ := next_missionItemReached_eq_some.mp hstep
  refine ⟨fun reached hdue => ?_, h.length_eq⟩
  by_cases hsearching : a.machine.currentState = .searching
  · have hsettled : a.searchSettled = true := by simpa [undisturbed, hsearching] using hcond
    simp only [due, hsearching, if_true, List.filterMap_append, ← List.append_assoc] at hdue
    rcases List.mem_append.mp hdue with hwas | hnew
    · refine h.fits reached ?_
      rwa [due, if_pos hsearching]
    · rw [List.mem_singleton.mp hnew]
      exact fits_of_searchSettled hordered hflown hsearching hsettled
  · refine h.fits reached ?_
    rw [due, if_neg hsearching] at hdue ⊢
    exact hdue

/-- A message of the autopilot keeps the attribution. -/
theorem attributed_receive (h : a.Attributed) {message : MavLabel}
    (hstep : a.receive message = some b) : b.Attributed := by
  obtain ⟨-, mav, -, rfl⟩ := receive_eq_some hstep
  exact h.congr_smm (fun _ => id) rfl rfl rfl

/-- The attribution is kept by every step that meets the condition. -/
theorem attributed_next (hordered : a.Ordered) (hflown : a.Flown) (h : a.Attributed)
    {e : AppLabel} (hcond : a.undisturbed e = true) (hstep : a.next e = some b) :
    b.Attributed := by
  cases e with
  | loop pos => exact attributed_stepLoop h hcond hstep
  | worker r => exact attributed_stepWorker h hcond hstep
  | missionItemReached seq =>
    exact attributed_missionItemReached hordered hflown h hcond hstep
  | recv =>
    simp only [next, stepRecv] at hstep
    split_ifs at hstep
    · exact Option.some.inj hstep ▸ attributed_post h rfl false
    · obtain ⟨mav, -, rfl⟩ := Option.map_eq_some_iff.mp hstep
      exact h.congr_smm (fun _ => id) rfl rfl rfl
  | heartbeat _ | missionRequest _ _ => exact attributed_receive h hstep
  | missionAck _ | autopilotRestart _ =>
    obtain ⟨c, hreceive, rfl⟩ := Option.map_eq_some_iff.mp hstep
    exact (attributed_receive h hreceive).congr_smm (fun _ => id) rfl rfl rfl
  | uploadDropped | mavCommsLost | setLink _ =>
    exact Option.some.inj hstep ▸ h.congr_smm (fun _ => id) rfl rfl rfl
  | post e =>
    obtain ⟨hexternal, hpost⟩ := Option.ite_none_right_eq_some.mp hstep
    obtain rfl := Option.some.inj hpost
    apply attributed_post h _ _
    cases e <;> first | rfl | exact absurd hexternal Bool.false_ne_true
  | retryPendingSearch pos =>
    obtain rfl := Option.some.inj hstep
    refine h.congr_smm (fun _ => id) rfl (Smm.currentSearch_enqueue _ _) ?_
    rw [Smm.reachedPoints_enqueue]
    rfl

/-- In every run that is undisturbed, progress is credited to the search that was loaded when the
item was reached, and whose mission the autopilot had. -/
theorem creditsFlown_of_undisturbed (terminateAction : TerminateAction) (lowbatThreshold : ℤ)
    (machine : FmuStateMachine) (positionReportIntervalMs : ℕ) (fdOpen : Bool)
    (autopilotType : MavType) (gotoAltitudeM : UInt16) {labels : List AppLabel}
    (hcond : Along next (fun a e => a.undisturbed e = true)
      (init terminateAction lowbatThreshold machine positionReportIntervalMs
        { fdOpen := fdOpen, autopilotType := autopilotType, gotoAltitudeM := gotoAltitudeM })
      labels) :
    Along next CreditsFlown
      (init terminateAction lowbatThreshold machine positionReportIntervalMs
        { fdOpen := fdOpen, autopilotType := autopilotType, gotoAltitudeM := gotoAltitudeM })
      labels := by
  have hnext (a : App) (e : AppLabel) (b : App) (h : a.Ordered ∧ a.Flown ∧ a.Attributed)
      (hcond : a.undisturbed e = true) (hstep : a.next e = some b) :
      b.Ordered ∧ b.Flown ∧ b.Attributed := by
    obtain ⟨hordered, hflown, hattributed⟩ := h
    refine ⟨ordered_next hordered hstep, flown_next hflown ?_ hstep,
      attributed_next hordered hflown hattributed hcond hstep⟩
    rintro rfl
    simpa [undisturbed] using hcond
  refine along_of_along (fun a => a.Ordered ∧ a.Flown ∧ a.Attributed)
    (fun a e h _ => h.2.2.creditsFlown e) hnext ⟨ordered_init _ _ _ _ _, ?_, ⟨?_, rfl⟩⟩ hcond
  · apply flies_of_not_loaded rfl
    rintro ⟨⟩
  · intro reached hdue
    rw [due] at hdue
    split_ifs at hdue <;> exact absurd hdue List.not_mem_nil

/-- The last item of the search that was uploaded is reached. -/
theorem uploadedThenReached_credited :
    Along next CreditsFlown
      (init .none 20 (.new 4 122 5) 1000 { fdOpen := true, autopilotType := .quadrotor })
      (acquired ++ uploaded ++
        [.missionItemReached 2, .loop {}, .loop {}, .worker {}, .worker {}]) :=
  creditsFlown_of_undisturbed .none 20 (.new 4 122 5) 1000 true .quadrotor 0 (by decide)

/-- The last item of the search that was uploaded is reached as the operator abandons it: before
the event loop takes the event, the worker has dropped the search and acquired another one. -/
def reachedThenAbandoned : List AppLabel :=
  acquired ++ uploaded ++
    [AppLabel.post (.position {} true (.finite 0)), .loop {}, .loop {}, .missionItemReached 2,
      .worker {}, .worker { nowMs := 1000 }, .worker { lastCommand := .abandonSearch }, .worker {},
      .worker {}, .worker { nowMs := 1000 }, .worker { fetched := true }, .worker {},
      .worker { waypoints := some [{}] }, .worker {}, .worker { accepted := true }, .loop {},
      .loop {}, .worker {}]

/-- The worker completes the other search, which was never uploaded. -/
theorem reachedThenAbandoned_completes_unflown :
    ∃ a v held effects s,
      run next (init .none 20 (.new 4 122 5) 1000 { fdOpen := true, autopilotType := .quadrotor })
        reachedThenAbandoned = some a ∧
      a.smm.step {} = some (v, .complete held :: effects) ∧ held.search.id = 1 ∧
      a.reachedWith = [{ loaded := some s, mission := some (.search s) }] ∧ s.id = 0 ∧
      ¬ a.CreditsFlown (.worker {}) := by
  refine ⟨_, _, _, _, _, rfl, rfl, rfl, rfl, rfl, fun hcredits => ?_⟩
  obtain ⟨s, hid, hreached⟩ := hcredits _ _ rfl _ List.mem_cons_self 1 rfl
  obtain ⟨hloaded, -⟩ := ReachedWith.mk.inj (Option.some.inj hreached)
  obtain rfl := Option.some.inj hloaded
  exact absurd hid (by decide)

end App

end CapFmu
