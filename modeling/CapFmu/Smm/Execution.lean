import CapFmu.Smm.Worker

/-!
# What carrying out a task does

The worker carries out a task in sections, between which the other threads go on. These touch
nothing but the queue and the searching role. What a task does is therefore a matter of the
fields that the worker alone touches, of the answers of the server and the clock, and of the role
as the worker reads it.

A relation for each of the worker's functions says what the function does as a whole. The attempt
to acquire a search is followed up to its first fetch; what comes after it is left to the module
on acquisitions, and only the fields that it can change are named here.
-/

namespace CapFmu

namespace Smm

/-- The fields that the worker alone touches. -/
def own (w : Smm) : Smm := { w with pc := .idle, taskQueue := [], searchActive := false }

/-- Nothing but the held search, the retry time and the numbering of searches has changed. -/
def Acquired (w v : Smm) : Prop :=
  v = { w with
    currentSearch := v.currentSearch
    searchRetryTs := v.searchRetryTs
    nextHandle := v.nextHandle }

/-- An attempt to acquire a search reads the clock and then backs off, falls back to a return or
fetches a search. -/
inductive TriesAcquire (w : Smm) (pos : Point) : List SmmEffect → Smm → Prop
  | backoff {nowMs : ℕ}
      (h : searchAcquireAction w.asset.isSome w.searchRetryTs nowMs = .backoff) :
      TriesAcquire w pos [.readClock nowMs] w
  | disconnectedRtl {nowMs : ℕ}
      (h : searchAcquireAction w.asset.isSome w.searchRetryTs nowMs = .disconnectedRtl) :
      TriesAcquire w pos [.readClock nowMs, .rtlCb]
        { w with searchRetryTs := nowMs + searchRetryIntervalMs }
  | fetch {nowMs : ℕ} {handle : Option ℕ} {rest : List SmmEffect} {v : Smm}
      (h : searchAcquireAction w.asset.isSome w.searchRetryTs nowMs = .fetch)
      (hfields : w.Acquired v) :
      TriesAcquire w pos (.readClock nowMs :: .fetch w.asset pos handle :: rest) v

/-- The role is read, and with the role granted and no search held an acquisition is attempted. -/
inductive MaybeAcquires (w : Smm) (pos : Point) : List SmmEffect → Smm → Prop
  | leave {active : Bool} (h : active = false ∨ w.currentSearch ≠ none) :
      MaybeAcquires w pos [.readRole active] w
  | acquire {effects : List SmmEffect} {v : Smm} (h : w.currentSearch = none)
      (htries : w.TriesAcquire pos effects v) : MaybeAcquires w pos (.readRole true :: effects) v

/-- A position is reported to the server if there is an asset and the last report is old enough,
after the operator's command was looked at; an acquisition may follow. -/
inductive ReportsPosition (w : Smm) (pd : PositionData) : List SmmEffect → Smm → Prop
  | noAsset {effects : List SmmEffect} {v : Smm} (h : w.asset = none)
      (hmaybe : w.MaybeAcquires pd.position effects v) : ReportsPosition w pd effects v
  | early {nowMs : ℕ} {effects : List SmmEffect} {v : Smm} (h : w.asset ≠ none)
      (hearly : nowMs < w.positionReportLastTs + w.positionReportIntervalMs)
      (hmaybe : w.MaybeAcquires pd.position effects v) :
      ReportsPosition w pd (.readClock nowMs :: effects) v
  | report {nowMs : ℕ} {command : SmmAssetCommand} {effects : List SmmEffect} {v : Smm}
      (h : w.asset ≠ none)
      (hdue : w.positionReportLastTs + w.positionReportIntervalMs ≤ nowMs)
      (hmaybe : MaybeAcquires { (w.checkOperatorCommand command).1 with
        positionReportLastTs := nowMs } pd.position effects v) :
      ReportsPosition w pd (.readClock nowMs :: ((w.checkOperatorCommand command).2 ++
        .reportPosition w.asset pd :: effects)) v

/-- A granted role resumes the search held, or has one acquired at once. -/
inductive Searches (w : Smm) (pos : Point) : List SmmEffect → Smm → Prop
  | resume {held : SmmCandidate} (h : w.currentSearch = some held) :
      Searches w pos [.loadSearchCb held] { w with searchRetryTs := 0 }
  | acquire {effects : List SmmEffect} {v : Smm} (h : w.currentSearch = none)
      (htries : TriesAcquire { w with searchRetryTs := 0 } pos effects v) :
      Searches w pos effects v

/-- What carrying out a task does: the effects, and the worker's fields after it. -/
inductive CarriesOut (w : Smm) : SmmTask → List SmmEffect → Smm → Prop
  | connect (details : ConnectTask) (r : SmmReply) :
      CarriesOut w (.connect details) (w.doConnect details r).2 (w.doConnect details r).1
  | reportPosition {pd : PositionData} {effects : List SmmEffect} {v : Smm}
      (h : w.ReportsPosition pd effects v) : CarriesOut w (.reportPosition pd) effects v
  | reachedPoint (point : ℕ) :
      CarriesOut w (.reachedPoint point) (w.doReachedPoint point).2 (w.doReachedPoint point).1
  | search {pos : Point} {effects : List SmmEffect} {v : Smm} (h : w.Searches pos effects v) :
      CarriesOut w (.search pos) effects v
  | retryPending {pos : Point} {effects : List SmmEffect} {v : Smm}
      (h : w.MaybeAcquires pos effects v) : CarriesOut w (.retryPending pos) effects v

/-- What is left of a task at a section: the effects to come, and the worker's fields after
them. -/
def Completes (w : Smm) : SmmPc → List SmmEffect → Smm → Prop
  | .idle, effects, v => effects = [] ∧ v = w
  | .connect details, effects, v => w.CarriesOut (.connect details) effects v
  | .reportPosition pd, effects, v => w.ReportsPosition pd effects v
  | .checkOperatorCommand pd nowMs, effects, v => ∃ command rest,
    MaybeAcquires { (w.checkOperatorCommand command).1 with positionReportLastTs := nowMs }
      pd.position rest v ∧
    effects = (w.checkOperatorCommand command).2 ++ .reportPosition w.asset pd :: rest
  | .sendReport pd nowMs, effects, v => ∃ rest,
    MaybeAcquires { w with positionReportLastTs := nowMs } pd.position rest v ∧
      effects = .reportPosition w.asset pd :: rest
  | .reachedPoint point, effects, v => w.CarriesOut (.reachedPoint point) effects v
  | .search pos, effects, v => w.Searches pos effects v
  | .maybeAcquire pos, effects, v => w.MaybeAcquires pos effects v
  | .tryAcquire pos, effects, v => w.TriesAcquire pos effects v
  | .fetch pos _, effects, v =>
    (∃ handle rest, effects = .fetch w.asset pos handle :: rest) ∧ w.Acquired v
  | .rtl (some currTs) none, effects, v =>
    effects = [.rtlCb] ∧ v = { w with searchRetryTs := currTs + searchRetryIntervalMs }
  | .rtl _ _, _, v | .fetched _ _ _, _, v | .construct _ _ _, _, v | .grant _ _ _, _, v
  | .commit _ _ _, _, v | .rejected _ _ _, _, v => w.Acquired v

variable {w v u : Smm} {r : SmmReply} {effects more : List SmmEffect}

/-- A task is carried out by completing it from its first section. -/
theorem CarriesOut.of_completes {task : SmmTask} (h : w.Completes task.entry effects v) :
    w.CarriesOut task effects v := by
  cases task with
  | connect details | reachedPoint point => exact h
  | reportPosition pd => exact .reportPosition h
  | search pos => exact .search h
  | retryPending pos => exact .retryPending h

@[simp] theorem own_enqueue (w : Smm) (task : SmmTask) : (w.enqueue task).own = w.own := by
  rw [enqueue_frame]
  rfl

@[simp] theorem own_search (w : Smm) (pos : Point) : (w.search pos).own = w.own := by
  rw [search, own_enqueue]
  rfl

@[simp] theorem own_cancelSearch (w : Smm) : w.cancelSearch.own = w.own := rfl

/-- A connection is made with the worker's own fields. -/
theorem connect_own (w : Smm) (r : SmmReply) :
    w.own.connect r = ((w.connect r).1.own, (w.connect r).2) := by
  cases w
  unfold own connect
  dsimp only
  repeat' split
  all_goals rfl

/-- Without a connection the details are stored and one is made. -/
theorem doConnect_of_none (h : w.conn = none) (details : ConnectTask) (r : SmmReply) :
    w.doConnect details r = connect { w with details := details } r := by
  unfold doConnect
  split
  · rfl
  · next hconn => exact absurd (h.symm.trans hconn) (Option.some_ne_none _).symm

/-- A connection is replaced if the details have changed or it has failed. -/
theorem doConnect_of_some {n : ℕ} (h : w.conn = some n) (details : ConnectTask) (r : SmmReply) :
    w.doConnect details r =
      if w.details ≠ details ∨ r.stillConnected = false then
        ((connect { w.disconnect.1 with details := details } r).1,
          w.disconnect.2 ++ (connect { w.disconnect.1 with details := details } r).2)
      else (w, []) := by
  unfold doConnect
  split
  · next hconn => exact absurd (hconn.symm.trans h) (Option.some_ne_none _).symm
  · rfl

/-- A connect task is a matter of the worker's own fields. -/
theorem doConnect_own (w : Smm) (details : ConnectTask) (r : SmmReply) :
    w.own.doConnect details r = ((w.doConnect details r).1.own, (w.doConnect details r).2) := by
  cases hconn : w.conn with
  | none =>
    have hown : w.own.conn = none := hconn
    rw [doConnect_of_none hconn, doConnect_of_none hown]
    exact connect_own { w with details := details } r
  | some n =>
    have hown : w.own.conn = some n := hconn
    have hdetails : w.own.details = w.details := rfl
    rw [doConnect_of_some hconn, doConnect_of_some hown, hdetails]
    split
    · exact congrArg (fun p => (p.1, w.disconnect.2 ++ p.2))
        (connect_own { w.disconnect.1 with details := details } r)
    · rfl

/-- A look at the operator's command is a matter of the worker's own fields. -/
theorem checkOperatorCommand_own (w : Smm) (command : SmmAssetCommand) :
    w.own.checkOperatorCommand command =
      ((w.checkOperatorCommand command).1.own, (w.checkOperatorCommand command).2) := by
  unfold checkOperatorCommand
  have hseen : w.own.lastSeenOperatorCommand = w.lastSeenOperatorCommand := rfl
  rw [hseen]
  split
  · rfl
  · cases command <;> rfl

/-- A reached point is a matter of the worker's own fields. -/
theorem doReachedPoint_own (w : Smm) (point : ℕ) :
    w.own.doReachedPoint point = ((w.doReachedPoint point).1.own, (w.doReachedPoint point).2) := by
  unfold doReachedPoint
  have hheld : w.own.currentSearch = w.currentSearch := rfl
  rw [hheld]
  cases w.currentSearch with
  | none => rfl
  | some held =>
    dsimp only
    split <;> rfl

/-- A section that changes none of the worker's own fields leaves an acquisition where it was. -/
theorem acquired_refl (w : Smm) : w.Acquired w := rfl

/-- What an acquisition changes before and after a section is what it changes as a whole. -/
theorem Acquired.trans (h : w.Acquired v) (hrest : v.Acquired u) : w.Acquired u := by
  rw [Acquired] at *
  rw [hrest, h]

/-- A look at the operator's command leaves the asset. -/
@[simp] theorem asset_checkOperatorCommand (w : Smm) (command : SmmAssetCommand) :
    (w.checkOperatorCommand command).1.asset = w.asset := by
  unfold checkOperatorCommand
  split
  · rfl
  · cases command <;> rfl

/-- What is left of a task before a section is what the section does, and what is left after it. -/
theorem completes_step (hbusy : w.pc ≠ .idle) (hstep : w.step r = some (v, effects))
    (h : v.own.Completes v.pc more u) : w.own.Completes w.pc (effects ++ more) u := by
  unfold step at hstep
  cases hpc : w.pc with
  | idle => exact absurd hpc hbusy
  | connect details =>
    simp only [hpc, Option.some.injEq, Prod.mk.injEq] at hstep
    obtain ⟨rfl, rfl⟩ := hstep
    obtain ⟨rfl, rfl⟩ := h
    have hconnect := CarriesOut.connect (w := w.own) details r
    rw [doConnect_own] at hconnect
    rw [List.append_nil]
    exact hconnect
  | reachedPoint point =>
    simp only [hpc, Option.some.injEq, Prod.mk.injEq] at hstep
    obtain ⟨rfl, rfl⟩ := hstep
    obtain ⟨rfl, rfl⟩ := h
    have hreached := CarriesOut.reachedPoint (w := w.own) point
    rw [doReachedPoint_own] at hreached
    rw [List.append_nil]
    exact hreached
  | reportPosition pd =>
    simp only [hpc] at hstep
    split at hstep
    · next hasset =>
      obtain ⟨rfl, rfl⟩ := Prod.mk.inj (Option.some.inj hstep)
      exact .noAsset hasset h
    · next asset hasset =>
      have hpresent : w.own.asset ≠ none := by simp [own, hasset]
      obtain ⟨rfl, rfl⟩ := Prod.mk.inj (Option.some.inj hstep)
      by_cases hdue : w.positionReportLastTs + w.positionReportIntervalMs ≤ r.nowMs
      · simp only [if_pos hdue] at h
        obtain ⟨command, rest, hmaybe, rfl⟩ := h
        exact .report hpresent hdue hmaybe
      · simp only [if_neg hdue] at h
        exact .early hpresent (Nat.lt_of_not_le hdue) h
  | checkOperatorCommand pd nowMs =>
    simp only [hpc, Option.some.injEq, Prod.mk.injEq] at hstep
    obtain ⟨rfl, rfl⟩ := hstep
    obtain ⟨rest, hmaybe, rfl⟩ := h
    refine ⟨r.lastCommand, rest, ?_, ?_⟩
    · rw [checkOperatorCommand_own]
      exact hmaybe
    · rw [checkOperatorCommand_own]
      simp [own]
  | sendReport pd nowMs =>
    simp only [hpc, Option.some.injEq, Prod.mk.injEq] at hstep
    obtain ⟨rfl, rfl⟩ := hstep
    exact ⟨more, h, rfl⟩
  | search pos =>
    simp only [hpc] at hstep
    split at hstep
    · next held hheld =>
      obtain ⟨rfl, rfl⟩ := Prod.mk.inj (Option.some.inj hstep)
      obtain ⟨rfl, rfl⟩ := h
      exact .resume hheld
    · next hheld =>
      obtain ⟨rfl, rfl⟩ := Prod.mk.inj (Option.some.inj hstep)
      exact .acquire hheld h
  | maybeAcquire pos =>
    simp only [hpc, Option.some.injEq, Prod.mk.injEq] at hstep
    obtain ⟨rfl, rfl⟩ := hstep
    by_cases hwanted : w.searchActive = true ∧ w.currentSearch = none
    · simp only [if_pos hwanted] at h
      rw [hwanted.1]
      exact .acquire hwanted.2 h
    · simp only [if_neg hwanted] at h
      obtain ⟨rfl, rfl⟩ := h
      refine .leave ?_
      rwa [not_and_or, Bool.not_eq_true] at hwanted
  | tryAcquire pos =>
    simp only [hpc, Option.some.injEq, Prod.mk.injEq] at hstep
    obtain ⟨rfl, rfl⟩ := hstep
    have hasset : w.own.asset.isSome = w.asset.isSome := rfl
    cases haction : searchAcquireAction w.asset.isSome w.searchRetryTs r.nowMs with
    | backoff =>
      simp only [haction] at h
      obtain ⟨rfl, rfl⟩ := h
      exact .backoff haction
    | disconnectedRtl =>
      simp only [haction] at h
      obtain ⟨rfl, rfl⟩ := h
      exact .disconnectedRtl haction
    | fetch =>
      simp only [haction] at h
      obtain ⟨⟨handle, rest, rfl⟩, hfields⟩ := h
      exact .fetch haction hfields
  | fetch pos retries =>
    simp only [hpc] at hstep
    split_ifs at hstep
    · obtain ⟨rfl, rfl⟩ := Prod.mk.inj (Option.some.inj hstep)
      have hnumbered : w.own.Acquired (own { w with nextHandle := w.nextHandle + 1 }) := rfl
      exact ⟨⟨_, more, rfl⟩, hnumbered.trans h⟩
    · obtain ⟨rfl, rfl⟩ := Prod.mk.inj (Option.some.inj hstep)
      exact ⟨⟨_, more, rfl⟩, h⟩
  | fetched pos retries handle =>
    simp only [hpc] at hstep
    split_ifs at hstep
    · obtain ⟨rfl, rfl⟩ := Prod.mk.inj (Option.some.inj hstep)
      obtain ⟨-, rfl⟩ := h
      exact acquired_refl w.own
    · obtain ⟨rfl, rfl⟩ := Prod.mk.inj (Option.some.inj hstep)
      cases handle <;> exact h
  | construct pos retries handle =>
    simp only [hpc, Option.some.injEq, Prod.mk.injEq] at hstep
    obtain ⟨rfl, rfl⟩ := hstep
    exact h
  | grant pos retries candidate =>
    simp only [hpc, Option.some.injEq, Prod.mk.injEq] at hstep
    obtain ⟨rfl, rfl⟩ := hstep
    by_cases hactive : w.searchActive = true
    · simp only [if_pos hactive] at h
      exact h
    · simp only [if_neg hactive] at h
      exact h
  | commit pos retries candidate =>
    simp only [hpc] at hstep
    split_ifs at hstep
    · obtain ⟨rfl, rfl⟩ := Prod.mk.inj (Option.some.inj hstep)
      rw [h.2]
      rfl
    · obtain ⟨rfl, rfl⟩ := Prod.mk.inj (Option.some.inj hstep)
      exact h
    · obtain ⟨rfl, rfl⟩ := Prod.mk.inj (Option.some.inj hstep)
      exact h
  | rejected pos retries candidate =>
    simp only [hpc] at hstep
    split_ifs at hstep
    · obtain ⟨rfl, rfl⟩ := Prod.mk.inj (Option.some.inj hstep)
      obtain ⟨-, rfl⟩ := h
      exact acquired_refl w.own
    · obtain ⟨rfl, rfl⟩ := Prod.mk.inj (Option.some.inj hstep)
      exact h
    · obtain ⟨rfl, rfl⟩ := Prod.mk.inj (Option.some.inj hstep)
      exact h.2
  | rtl currTs dropped =>
    simp only [hpc, Option.some.injEq, Prod.mk.injEq] at hstep
    obtain ⟨rfl, rfl⟩ := hstep
    obtain ⟨rfl, rfl⟩ := h
    cases currTs with
    | none => rfl
    | some currTs =>
      cases dropped with
      | none => exact ⟨rfl, rfl⟩
      | some candidate => rfl

end Smm

end CapFmu
