import CapFmu.App.EventLoop

/-!
# The uploads of searches

What each component does to the upload of a search. The event loop stays with the one it has
begun until the search is armed or found loaded; the recv thread leaves the search alone; the
worker brings the upload of the search it publishes or resumes; and dispatching an event asks
for the upload that the event brings, or for none.
-/

namespace CapFmu

/-- The search that an upload is of, once its preamble is sent. -/
def AfterMode.loads : AfterMode → List SmmSearch
  | search s => [s]
  | done | goto _ => []

/-- The search the event loop is about to upload, or to find loaded. -/
def LoopPc.loads : LoopPc → List SmmSearch
  | loadCheck s => s.toList
  | resolve _ after | modeSend _ _ after | modeSettle after | modeDefer _ after => after.loads
  | searchArm s => [s]
  | idle | directSend _ | directSettle | gotoActivate _ | gotoCount | gotoArm | searchCount _ => []

/-- Whether the event loop is at rest or at the upload of a search. -/
def LoopPc.isLoading : LoopPc → Bool
  | idle | searchArm _ | searchCount _ => true
  | loadCheck s => s.isSome
  | resolve _ after | modeSend _ _ after | modeSettle after | modeDefer _ after =>
    !after.loads.isEmpty
  | directSend _ | directSettle | gotoActivate _ | gotoCount | gotoArm => false

/-- Whether the event loop is about to advertise a search. -/
def LoopPc.isSearchCount : LoopPc → Bool
  | searchCount _ => true
  | _ => false

/-- Whether the event loop defers a mode. -/
def LoopPc.isDeferring : LoopPc → Bool
  | modeDefer _ _ => true
  | _ => false

/-- Whether the recv thread defers a mode or replays a deferred one. -/
def RecvPc.isDeferring : RecvPc → Bool
  | autoDefer _ | replaySend _ _ | replayClear _ => true
  | _ => false

/-- The upload a call asks for. -/
def AppCall.load? : AppCall → Option SmmSearch
  | loadSearch search => some search
  | _ => none

/-- Whether a call takes control of the aircraft. -/
def AppCall.takesOver : AppCall → Bool
  | action (.setMode _) | action .disarm | action .terminate => true
  | _ => false

/-- The upload an event brings. -/
def AppEvent.load? : AppEvent → Option SmmSearch
  | smmLoadSearch search => some search
  | _ => none

/-- The upload a worker's callback brings. -/
def SmmEffect.load? : SmmEffect → Option SmmSearch
  | loadSearchCb candidate => some candidate.search
  | _ => none

/-- The worker has yet to act on a granted role. -/
def Smm.SearchPending (w : Smm) : Prop :=
  (∃ pos, .search pos ∈ w.taskQueue) ∨ ∃ pos, w.pc = .search pos

/-- The search is on the autopilot, or its upload is. -/
def MavConnection.Carries (c : MavConnection) (s : SmmSearch) : Prop :=
  c.search = some s ∧ (c.searchLoaded = true ∨ c.searchLoading = true)

/-- The link is up and no mode is deferred. -/
structure MavSystem.Linked (s : MavSystem) : Prop where
  ready : s.conn.Ready
  loop : s.loop.isDeferring = false
  recv : s.recv.isDeferring = false

/-- What follows a preamble is the upload it prepares. -/
@[simp] theorem AfterMode.loads_next (after : AfterMode) : after.next.loads = after.loads := by
  cases after <;> rfl

theorem AfterMode.isLoading_next {after : AfterMode} (h : after.loads ≠ []) :
    after.next.isLoading = true := by
  cases after with
  | search s => rfl
  | done | goto _ => exact absurd rfl h

@[simp] theorem AfterMode.isDeferring_next (after : AfterMode) :
    after.next.isDeferring = false := by
  cases after <;> rfl

@[simp] theorem isDeferring_selectNext (seqs : List ℕ) : (selectNext seqs).isDeferring = false := by
  cases seqs <;> rfl

@[simp] theorem isDeferring_reload (reload : Option SmmSearch) :
    ((reload.map uploadSearch).getD .idle).isDeferring = false := by
  cases reload <;> rfl

/-- A search that has to be uploaded is what the event loop is about to upload. -/
@[simp] theorem loads_reload (reload : Option SmmSearch) :
    ((reload.map uploadSearch).getD .idle).loads = reload.toList := by
  cases reload <;> rfl

@[simp] theorem isLoading_reload (reload : Option SmmSearch) :
    ((reload.map uploadSearch).getD .idle).isLoading = true := by
  cases reload <;> rfl

@[simp] theorem MavCall.isDeferring_entry (call : MavCall) : call.entry.isDeferring = false := by
  cases call <;> rfl

section Sections

variable {c d : MavConnection} {written : List WireEntry}

/-- With the link up the event loop defers no mode. -/
theorem loopSection_ready {pc qc : LoopPc} (h : c.Ready) (hpc : pc.isDeferring = false)
    (hstep : loopSection c pc = some (d, qc, written)) : d.Ready ∧ qc.isDeferring = false := by
  cases pc with
  | idle => cases hstep
  | resolve m after =>
    obtain ⟨r, hr⟩ := resolveMode_isSome h.typeKnown m.command
    simp only [loopSection, hr, Option.some.injEq, Prod.mk.injEq] at hstep
    obtain ⟨rfl, rfl, -⟩ := hstep
    exact ⟨h, rfl⟩
  | modeDefer m after => exact absurd hpc Bool.noConfusion
  | modeSend m r after | directSend packet | searchCount s =>
    cases hstep
    exact ⟨h, rfl⟩
  | modeSettle after =>
    cases hstep
    exact ⟨⟨h.linkOpen, h.typeKnown, rfl⟩, after.isDeferring_next⟩
  | directSettle | gotoActivate p | gotoArm | searchArm s =>
    cases hstep
    exact ⟨⟨h.linkOpen, h.typeKnown, h.noneDeferred⟩, rfl⟩
  | gotoCount =>
    cases hstep
    refine ⟨h, ?_⟩
    rw [if_pos h.linkOpen]
    rfl
  | loadCheck s =>
    simp only [loopSection, Option.some.injEq, Prod.mk.injEq] at hstep
    obtain ⟨rfl, rfl, -⟩ := hstep
    rw [c.checkReload_fst]
    exact ⟨⟨h.linkOpen, h.typeKnown, h.noneDeferred⟩, isDeferring_reload _⟩

/-- With the link up the recv thread defers and replays nothing, and leaves the search alone. -/
theorem recvSection_ready {pc qc : RecvPc} (h : c.Ready) (hpc : pc.isDeferring = false)
    (hstep : recvSection c pc = some (d, qc, written)) :
    d.Ready ∧ qc.isDeferring = false ∧ d.search = c.search ∧ d.searchLoaded = c.searchLoaded ∧
      d.searchLoading = c.searchLoading := by
  cases pc with
  | idle => cases hstep
  | autoResolve rest =>
    obtain ⟨r, hr⟩ := resolveMode_isSome h.typeKnown .autoMode
    simp only [recvSection, hr, Option.some.injEq, Prod.mk.injEq] at hstep
    obtain ⟨rfl, rfl, -⟩ := hstep
    exact ⟨h, rfl, rfl, rfl, rfl⟩
  | autoDefer rest => exact absurd hpc Bool.noConfusion
  | replaySend command r => exact absurd hpc Bool.noConfusion
  | replayClear command => exact absurd hpc Bool.noConfusion
  | replayCopy t =>
    simp only [recvSection, h.noneDeferred, Option.some.injEq, Prod.mk.injEq] at hstep
    obtain ⟨rfl, rfl, -⟩ := hstep
    exact ⟨h, rfl, rfl, rfl, rfl⟩
  | selecting seq rest | autoSend r rest | waypointSend item =>
    cases hstep
    exact ⟨h, rfl, rfl, rfl, rfl⟩
  | autoSettle rest =>
    cases hstep
    exact ⟨⟨h.linkOpen, h.typeKnown, rfl⟩, isDeferring_selectNext rest, rfl, rfl, rfl⟩

/-- A search that does not have to be uploaded is loaded. -/
theorem checkReload_some (c : MavConnection) (s : SmmSearch) :
    (c.checkReload (some s)).2 = some s ∨ (c.checkReload (some s) = (c, none) ∧ c.Carries s) := by
  unfold MavConnection.checkReload
  split_ifs with hreload
  · exact Or.inl rfl
  · simp only [not_or, not_not, Bool.not_eq_false] at hreload
    exact Or.inr ⟨rfl, hreload.1, Or.inl hreload.2⟩

/-- At the upload of a search the event loop stays with it until it has armed it, or has found
it loaded. -/
theorem loopSection_loads {pc qc : LoopPc} (hpc : pc.isLoading = true)
    (hstep : loopSection c pc = some (d, qc, written)) :
    qc.isLoading = true ∧
      ((pc.loads ≠ [] ∧ qc.loads = pc.loads) ∨
        (∃ s, pc.loads = [s] ∧ qc.loads = [] ∧ d.Carries s) ∨
        (pc.loads = [] ∧ qc.loads = [] ∧ d = c)) := by
  cases pc with
  | loadCheck s =>
    obtain ⟨s, rfl⟩ := Option.isSome_iff_exists.mp hpc
    simp only [loopSection, Option.some.injEq, Prod.mk.injEq] at hstep
    obtain ⟨rfl, rfl, -⟩ := hstep
    refine ⟨isLoading_reload _, ?_⟩
    rw [loads_reload]
    rcases checkReload_some c s with hreload | ⟨hcheck, hcarries⟩
    · rw [hreload]
      exact Or.inl ⟨List.cons_ne_nil s [], rfl⟩
    · rw [hcheck]
      exact Or.inr (Or.inl ⟨s, rfl, rfl, hcarries⟩)
  | idle => exact absurd hstep (Option.some_ne_none _).symm
  | resolve _ _ | modeSend _ _ _ | modeSettle _ | modeDefer _ _ | searchArm _ | searchCount _ =>
    grind [loopSection, LoopPc.isLoading, LoopPc.loads, AfterMode.loads_next,
      AfterMode.isLoading_next, MavConnection.armSearch, MavConnection.Carries]
  | directSend _ | directSettle | gotoActivate _ | gotoCount | gotoArm =>
    exact absurd hpc Bool.false_ne_true

/-- The event loop takes up no other upload before this one is done with. -/
theorem loopSection_loads_suffix {pc qc : LoopPc}
    (hstep : loopSection c pc = some (d, qc, written)) : qc.loads <:+ pc.loads := by
  cases pc with
  | loadCheck s =>
    simp only [loopSection, Option.some.injEq, Prod.mk.injEq] at hstep
    obtain ⟨-, rfl, -⟩ := hstep
    rw [loads_reload]
    unfold MavConnection.checkReload
    split_ifs
    · exact List.suffix_refl _
    · exact List.nil_suffix
  | _ => grind [loopSection, LoopPc.loads, AfterMode.loads_next, List.suffix_refl]

/-- A section of the event loop opens the upload whose count it is to write, with the link open. -/
theorem opened_of_loopSection {pc qc : LoopPc} (hstep : loopSection c pc = some (d, qc, written)) :
    pc.opened c written = if c.fdOpen then (pc.upload? c).toList else [] := by
  have hnone (hpc : pc.upload? c = none) : pc.opened c written = [] := by
    simp [LoopPc.opened, hpc]
  cases pc with
  | gotoCount | searchCount s =>
    simp only [loopSection, Option.some.injEq, Prod.mk.injEq] at hstep
    obtain ⟨-, -, rfl⟩ := hstep
    unfold MavConnection.written LoopPc.opened
    split <;> rfl
  | idle | resolve _ _ | modeSend _ _ _ | modeSettle _ | modeDefer _ _ | directSend _ | directSettle
  | gotoActivate _ | gotoArm | loadCheck _ | searchArm _ => simp [hnone rfl, LoopPc.upload?]

/-- A search is loading since it was armed, and its count is written next. -/
theorem loopSection_searchLoading {pc qc : LoopPc}
    (hstep : loopSection c pc = some (d, qc, written)) (hloading : d.searchLoading = true) :
    (c.searchLoading = true ∧ pc.isSearchCount = false) ∨ qc.isSearchCount = true ∨
      pc.isSearchCount = true := by
  unfold loopSection at hstep
  split at hstep <;> grind [LoopPc.isSearchCount, MavConnection.settleMode,
    MavConnection.deferMode, MavConnection.invalidateInFlightUpload, MavConnection.activateGoto,
    MavConnection.armGoto, MavConnection.armSearch, MavConnection.checkReload]

/-- The recv thread uploads nothing: it leaves the search alone, and may find that it is not loaded
any more. -/
theorem recvSection_search {pc qc : RecvPc} (hstep : recvSection c pc = some (d, qc, written)) :
    d.search = c.search ∧ d.searchLoading = c.searchLoading ∧
      (d.searchLoaded = true → c.searchLoaded = true) := by
  unfold recvSection at hstep
  split at hstep <;> grind [MavConnection.settleMode, MavConnection.deferMode,
    MavConnection.clearReplayed]

end Sections

/-- The uploads among the events of a section of the worker. -/
theorem filterMap_load?_event? (effects : List SmmEffect) :
    (effects.filterMap SmmEffect.event?).filterMap AppEvent.load? =
      effects.filterMap SmmEffect.load? := by
  rw [List.filterMap_filterMap]
  apply List.filterMap_congr
  intro effect _
  cases effect <;> rfl

/-- A section that neither resumes nor publishes a search brings no upload, and keeps the search
held or drops it. -/
theorem Smm.step_quiet {w v : Smm} {r : SmmReply} {effects : List SmmEffect}
    (hsearch : ∀ pos, w.pc ≠ .search pos)
    (hcommit : ∀ pos retries candidate, w.pc ≠ .commit pos retries candidate)
    (hstep : w.step r = some (v, effects)) :
    (v.currentSearch = none ∨ v.currentSearch = w.currentSearch) ∧
      ∀ effect ∈ effects, effect.load? = none := by
  unfold Smm.step at hstep
  split at hstep <;> grind [Smm.doConnect_frame, Smm.close_of_mem_doConnect,
    Smm.checkOperatorCommand, Smm.doReachedPoint, SmmEffect.load?, Option.map_eq_some_iff]

/-- A section brings an upload of the search then held, or leaves the search held alone, or
there is none after it. -/
theorem Smm.step_loads {w v : Smm} {r : SmmReply} {effects : List SmmEffect}
    (hstep : w.step r = some (v, effects)) :
    v.currentSearch = none ∨
      (v.currentSearch = w.currentSearch ∧ effects.filterMap SmmEffect.load? = [] ∧
        ∀ pos, w.pc ≠ .search pos) ∨
      ∃ held, v.currentSearch = some held ∧
        effects.filterMap SmmEffect.load? = [held.search] := by
  cases hpc : w.pc with
  | search pos =>
    simp only [Smm.step, hpc] at hstep
    cases hheld : w.currentSearch with
    | none =>
      simp only [hheld, Option.some.injEq, Prod.mk.injEq] at hstep
      obtain ⟨rfl, -⟩ := hstep
      exact Or.inl rfl
    | some held =>
      simp only [hheld, Option.some.injEq, Prod.mk.injEq] at hstep
      obtain ⟨rfl, rfl⟩ := hstep
      exact Or.inr (Or.inr ⟨held, rfl, rfl⟩)
  | commit pos retries candidate =>
    simp only [Smm.step, hpc] at hstep
    split_ifs at hstep
    · obtain ⟨rfl, rfl⟩ := Prod.mk.inj (Option.some.inj hstep)
      exact Or.inr (Or.inr ⟨candidate, rfl, rfl⟩)
    · obtain ⟨rfl, rfl⟩ := Prod.mk.inj (Option.some.inj hstep)
      exact Or.inr (Or.inl ⟨rfl, rfl, by simp⟩)
    · obtain ⟨rfl, rfl⟩ := Prod.mk.inj (Option.some.inj hstep)
      exact Or.inr (Or.inl ⟨rfl, rfl, by simp⟩)
  | _ =>
    obtain ⟨hkept, hquiet⟩ := step_quiet (by simp [hpc]) (by simp [hpc]) hstep
    exact hkept.imp_right fun hsame =>
      Or.inl ⟨hsame, List.filterMap_eq_nil_iff.mpr hquiet, by simp⟩

/-- A role that is pending stays so as a task is added. -/
theorem Smm.searchPending_enqueue {w : Smm} (task : SmmTask) (h : w.SearchPending) :
    (w.enqueue task).SearchPending := by
  unfold Smm.enqueue
  split_ifs <;> grind [Smm.SearchPending, SmmTask.isReportPosition]

/-- A granted role is pending. -/
theorem Smm.searchPending_search (w : Smm) (pos : Point) : (w.search pos).SearchPending :=
  Or.inl ⟨pos, by simp [Smm.search, Smm.enqueue, SmmTask.isReportPosition, SmmTask.isRetryPending]⟩

/-- A granted role that is not being acted on stays pending. -/
theorem Smm.step_searchPending {w v : Smm} {r : SmmReply} {effects : List SmmEffect}
    (hpc : ∀ pos, w.pc ≠ .search pos) (hstep : w.step r = some (v, effects))
    (hpending : w.SearchPending) : v.SearchPending := by
  unfold Smm.step at hstep
  split at hstep <;> grind [Smm.doConnect_frame, Smm.checkOperatorCommand, Smm.doReachedPoint,
    Smm.SearchPending, SmmTask.entry]

namespace FmuStateMachine

/-- Driving the state machine asks for no upload. -/
@[simp] theorem drive_loads (m : FmuStateMachine) (e : FmuEvent) :
    (m.drive e).2.filterMap AppCall.load? = [] := by
  rw [drive, List.filterMap_map, List.filterMap_eq_nil_iff]
  exact fun _ _ => rfl

/-- A state machine driven to searching asks for a search, or was searching and asks for
nothing; it does not ask to take control. -/
theorem drive_searching {m : FmuStateMachine} {e : FmuEvent}
    (h : (m.drive e).1.currentState = .searching) :
    (∀ call ∈ (m.drive e).2, call.takesOver = false) ∧
      (.action .search ∈ (m.drive e).2 ∨
        (m.currentState = .searching ∧ e ≠ .reassertState ∧ (m.drive e).2 = [])) := by
  rcases m.handle_cases e with ⟨hquiet, hsame⟩ | hdrive
  · have hnone : (m.drive e).2 = [] := by
      rw [drive, hquiet]
      rfl
    have hreassert : e ≠ .reassertState := by
      rintro rfl
      simp [handle, reassertState, actionState] at hquiet
    rw [hnone]
    exact ⟨by simp, Or.inr ⟨hsame.symm.trans h, hreassert, rfl⟩⟩
  · have hcalls : (m.drive e).2 = [.action .search, .action (.stateChange .searching)] := by
      rw [drive] at h
      rw [drive, hdrive, h]
      rfl
    rw [hcalls]
    exact ⟨by simp [AppCall.takesOver], Or.inl List.mem_cons_self⟩

/-- Dispatching an event asks for the upload the event brings, or for none. -/
theorem dispatch_loads (m : FmuStateMachine) (lowbatThreshold : ℤ) (e : AppEvent) :
    (m.dispatch lowbatThreshold e).2.filterMap AppCall.load? = e.load?.toList ∨
      (m.dispatch lowbatThreshold e).2.filterMap AppCall.load? = [] := by
  cases e with
  | reachedPoint point reached =>
    simp only [dispatch]
    split_ifs <;> exact Or.inr rfl
  | smmLoadSearch search =>
    simp only [dispatch]
    split_ifs
    · exact Or.inl rfl
    · exact Or.inr (m.drive_loads _)
    · exact Or.inr rfl
  | position pd fixValid altitudeAglM =>
    right
    simp only [dispatch, List.filterMap_append, drive_loads]
    rfl
  | smmSettings details => exact Or.inr rfl
  | _ => exact Or.inr (m.drive_loads _)

/-- An event that leaves the FMU searching has it ask for a search, or finds it searching and
asks for what the event brings; it does not ask to take control. -/
theorem dispatch_searching {m : FmuStateMachine} {lowbatThreshold : ℤ} {e : AppEvent}
    (h : (m.dispatch lowbatThreshold e).1.currentState = .searching) :
    (∀ call ∈ (m.dispatch lowbatThreshold e).2, call.takesOver = false) ∧
      (.action .search ∈ (m.dispatch lowbatThreshold e).2 ∨
        (m.currentState = .searching ∧ e ≠ .mavAutopilotRestart ∧
          (m.dispatch lowbatThreshold e).2.filterMap AppCall.load? = e.load?.toList)) := by
  cases e with
  | reachedPoint point reached =>
    have hsearching : m.currentState = .searching := h
    simp only [dispatch, if_pos hsearching]
    exact ⟨by simp [AppCall.takesOver], Or.inr ⟨hsearching, by simp, rfl⟩⟩
  | smmSettings details => exact ⟨by simp [dispatch, AppCall.takesOver], Or.inr ⟨h, by simp, rfl⟩⟩
  | smmLoadSearch search =>
    by_cases hsearching : m.currentState = .searching
    · simp only [dispatch, if_pos hsearching]
      exact ⟨by simp [AppCall.takesOver], Or.inr ⟨hsearching, by simp, rfl⟩⟩
    · by_cases hwaiting : m.currentState = .waitingForTasking
      · simp only [dispatch, if_neg hsearching, if_pos hwaiting] at h ⊢
        obtain ⟨hcalm, hsearch⟩ := drive_searching h
        exact ⟨hcalm, Or.inl (hsearch.resolve_right fun hstays => hsearching hstays.1)⟩
      · simp only [dispatch, if_neg hsearching, if_neg hwaiting] at h
        exact absurd h hsearching
  | position pd fixValid altitudeAglM =>
    obtain ⟨hcalm, hsearch⟩ := drive_searching h
    refine ⟨?_, ?_⟩
    · intro call hcall
      rcases List.mem_append.mp hcall with hdriven | hreport
      · exact hcalm call hdriven
      · rw [List.mem_singleton.mp hreport]
        rfl
    · rcases hsearch with hsearch | ⟨hstays, -, hnone⟩
      · exact Or.inl (List.mem_append_left _ hsearch)
      · refine Or.inr ⟨hstays, by simp, ?_⟩
        simp only [dispatch, hnone]
        rfl
  | _ =>
    obtain ⟨hcalm, hsearch⟩ := drive_searching h
    refine ⟨hcalm, hsearch.imp_right ?_⟩
    rintro ⟨hstays, hreassert, -⟩
    exact ⟨hstays, by grind, m.drive_loads _⟩

end FmuStateMachine

end CapFmu
