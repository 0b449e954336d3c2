import CapFmu.Smm.Worker
import CapFmu.Transition.Trace
import Mathlib.Data.List.Nodup

/-!
# One acquisition

The worker tries to acquire a search while the event loop may revoke and grant the searching
role between any two of its sections. The trace of the call lists what it did and what it
read. The call owns the handle it fetched last until it destroys or publishes it, and its
sections count down, so that the call ends after three attempts at most, in one of four ways
that exclude each other.
-/

namespace CapFmu

open Transition

namespace SmmEffect

/-- The handle a fetch returned. -/
@[simp] def fetchedHandle? : SmmEffect → Option ℕ
  | fetch _ _ handle => handle
  | _ => none

/-- The handle that is destroyed. -/
@[simp] def destroyedHandle? : SmmEffect → Option ℕ
  | destroy handle => some handle
  | _ => none

/-- The handle of a search that becomes the held one. -/
@[simp] def publishedHandle? : SmmEffect → Option ℕ
  | publish candidate => candidate.map fun c => c.search.id
  | _ => none

/-- Whether a search is fetched. -/
@[simp] def isFetch : SmmEffect → Bool
  | fetch _ _ _ => true
  | _ => false

/-- Whether the event loop is called back. -/
@[simp] def isCallback : SmmEffect → Bool
  | loadSearchCb _ | rtlCb | operatorCommandCb _ => true
  | _ => false

/-- Whether an effect is neither a fetch, an accept, a publication nor a callback. -/
def isQuiet : SmmEffect → Bool
  | readClock _ | readRole _ | destroy _ => true
  | _ => false

/-- The clock's reading. -/
@[simp] def clock? : SmmEffect → Option ℕ
  | readClock nowMs => some nowMs
  | _ => none

/-- The role's reading. -/
@[simp] def role? : SmmEffect → Option Bool
  | readRole active => some active
  | _ => none

theorem of_isQuiet {e : SmmEffect} (h : e.isQuiet = true) :
    e.isFetch = false ∧ e.isCallback = false ∧ e.publishedHandle? = none ∧
      ∀ candidate accepted, e ≠ .accept candidate accepted := by
  cases e <;> simp_all [isQuiet]

/-- Only a fetch hands over a search. -/
theorem fetchedHandle?_of_isFetch {e : SmmEffect} (h : e.isFetch = false) :
    e.fetchedHandle? = none := by
  cases e with
  | fetch asset pos handle => exact absurd h Bool.noConfusion
  | _ => rfl

end SmmEffect

/-- The searches fetched in a trace. -/
def fetchedHandles (trace : List SmmEffect) : List ℕ := trace.filterMap SmmEffect.fetchedHandle?

/-- The searches destroyed in a trace. -/
def destroyedHandles (trace : List SmmEffect) : List ℕ :=
  trace.filterMap SmmEffect.destroyedHandle?

/-- The searches published in a trace. -/
def publishedHandles (trace : List SmmEffect) : List ℕ :=
  trace.filterMap SmmEffect.publishedHandle?

/-- The fetches in a trace. -/
def fetches (trace : List SmmEffect) : List SmmEffect := trace.filter SmmEffect.isFetch

/-- The callbacks in a trace. -/
def callbacks (trace : List SmmEffect) : List SmmEffect := trace.filter SmmEffect.isCallback

/-- The last reading of the clock in a trace. -/
def lastClock (trace : List SmmEffect) : Option ℕ := (trace.filterMap SmmEffect.clock?).getLast?

/-- The last reading of the role in a trace. -/
def lastRole (trace : List SmmEffect) : Option Bool := (trace.filterMap SmmEffect.role?).getLast?

/-- The search client in an acquisition, with the trace of the call. -/
structure AcquireCall where
  smm : Smm
  trace : List SmmEffect := []

/-- What can happen during the call: a section of the worker, and the event loop granting and
revoking the role. -/
inductive AcquireLabel
  | worker (r : SmmReply)
  | search (pos : Point)
  | cancelSearch

namespace AcquireCall

/-- The start of the call. -/
def start (w : Smm) (pos : Point) : AcquireCall := { smm := { w with pc := .tryAcquire pos } }

/-- One step; the call is over when the worker is idle again. -/
def step (s : AcquireCall) : AcquireLabel → Option AcquireCall
  | .worker r =>
    if s.smm.pc = .idle then none
    else (s.smm.step r).map fun (smm, effects) => { smm := smm, trace := s.trace ++ effects }
  | .search pos => some { s with smm := s.smm.search pos }
  | .cancelSearch => some { s with smm := s.smm.cancelSearch }

/-- While the call is not over its steps are sections of the worker. -/
theorem step_worker {s : AcquireCall} {r : SmmReply} (hbusy : s.smm.pc ≠ .idle) :
    s.step (.worker r) =
      (s.smm.step r).map fun (smm, effects) => { smm := smm, trace := s.trace ++ effects } :=
  if_neg hbusy

end AcquireCall

/-- Whether a step is a section of the worker. -/
def AcquireLabel.isWorker : AcquireLabel → Bool
  | worker _ => true
  | search _ | cancelSearch => false

/-- The sections the call has left, at most: six for each attempt, and the fallback. -/
def SmmPc.remaining : SmmPc → ℕ
  | tryAcquire _ => 6 * acquireAttempts + 2
  | fetch _ retries => 6 * (acquireAttempts - retries) + 1
  | fetched _ retries _ => 6 * (acquireAttempts - retries)
  | construct _ retries _ => 6 * (acquireAttempts - retries) - 1
  | grant _ retries _ => 6 * (acquireAttempts - retries) - 2
  | commit _ retries _ => 6 * (acquireAttempts - retries) - 3
  | rejected _ retries _ => 6 * (acquireAttempts - retries) - 4
  | rtl _ _ => 1
  | _ => 0

/-- The handle the call owns. -/
def SmmPc.owned : SmmPc → List ℕ
  | fetched _ _ handle => handle.toList
  | construct _ _ handle => [handle]
  | grant _ _ candidate | commit _ _ candidate | rejected _ _ candidate => [candidate.search.id]
  | rtl _ dropped => (dropped.map fun c => c.search.id).toList
  | _ => []

/-- The attempts begun. -/
def SmmPc.attempts : SmmPc → ℕ
  | fetch _ retries => retries
  | fetched _ retries _ | construct _ retries _ | grant _ retries _ | commit _ retries _
  | rejected _ retries _ => retries + 1
  | rtl (some _) _ | tryAcquire _ => 0
  | _ => acquireAttempts

/-- The ways a call can end. -/
inductive AcquireOutcome
  | backoff
  | published
  | rtl
  | silent
  deriving DecidableEq, Repr

/-- The call ended so: backing off, with nothing done; with a search published and loaded and
the retry time cleared; with the fallback called back once and the retry time set ahead; or
after reading the role as revoked, with nothing called back and the retry time as it was. -/
def AcquireOutcome.Holds (w : Smm) (s : AcquireCall) : AcquireOutcome → Prop
  | backoff => ∃ nowMs, nowMs < w.searchRetryTs ∧ s.trace = [.readClock nowMs] ∧
      s.smm.currentSearch = w.currentSearch ∧ s.smm.searchRetryTs = w.searchRetryTs
  | published => ∃ c, callbacks s.trace = [.loadSearchCb c] ∧
      publishedHandles s.trace = [c.search.id] ∧
      s.smm.currentSearch = some c ∧ s.smm.searchRetryTs = 0
  | rtl => ∃ nowMs, callbacks s.trace = [.rtlCb] ∧ lastClock s.trace = some nowMs ∧
      s.smm.currentSearch = w.currentSearch ∧
      s.smm.searchRetryTs = nowMs + searchRetryIntervalMs
  | silent => callbacks s.trace = [] ∧ lastRole s.trace = some false ∧
      s.smm.currentSearch = w.currentSearch ∧ s.smm.searchRetryTs = w.searchRetryTs

/-- A search is fetched from a present asset, and only once the retry time has come. -/
def FetchesSafely (w : Smm) (before : List SmmEffect) : SmmEffect → Prop
  | .fetch asset _ _ => asset.isSome = true ∧ asset = w.asset ∧
      ∃ nowMs after, before = .readClock nowMs :: after ∧ w.searchRetryTs ≤ nowMs
  | _ => True

/-- A search is accepted only if it is valid and the role was read as granted after its fetch,
the last time right before. -/
def AcceptsGranted (before : List SmmEffect) : SmmEffect → Prop
  | .accept candidate _ => candidate.valid = true ∧
      ∃ earlier asset pos, before =
        earlier ++ [.fetch asset pos (some candidate.search.id), .readRole true, .readRole true]
  | _ => True

/-- An effect that is no fetch is fetched safely. -/
theorem fetchesSafely_of_isFetch {w : Smm} {before : List SmmEffect} {e : SmmEffect}
    (h : e.isFetch = false) : FetchesSafely w before e := by
  cases e with
  | fetch asset pos handle => exact absurd h Bool.noConfusion
  | _ => trivial

/-- An effect that accepts nothing accepts what is granted. -/
theorem acceptsGranted_of_ne_accept {before : List SmmEffect} {e : SmmEffect}
    (h : ∀ candidate accepted, e ≠ .accept candidate accepted) : AcceptsGranted before e := by
  cases e with
  | accept candidate accepted => exact absurd rfl (h candidate accepted)
  | _ => trivial

/-- What every state of the call satisfies. -/
structure AcquireLawful (w : Smm) (s : AcquireCall) : Prop where
  fetches_le : (fetches s.trace).length ≤ acquireAttempts
  fetchesSafely : EachAfter (FetchesSafely w) s.trace
  acceptsGranted : EachAfter AcceptsGranted s.trace
  fetched_once : (fetchedHandles s.trace).Nodup
  owned_once : fetchedHandles s.trace =
    destroyedHandles s.trace ++ s.smm.pc.owned ++ publishedHandles s.trace
  accepted_published : ∀ c, .accept c true ∈ s.trace →
    .publish (some c) ∈ s.trace ∧ s.smm.currentSearch = some c
  outcome : s.smm.pc = .idle → ∃! outcome : AcquireOutcome, outcome.Holds w s

/-! ## Observations of a longer trace -/

section Observations

variable (trace more : List SmmEffect)

@[simp] theorem fetchedHandles_append :
    fetchedHandles (trace ++ more) = fetchedHandles trace ++ fetchedHandles more :=
  List.filterMap_append

@[simp] theorem destroyedHandles_append :
    destroyedHandles (trace ++ more) = destroyedHandles trace ++ destroyedHandles more :=
  List.filterMap_append

@[simp] theorem publishedHandles_append :
    publishedHandles (trace ++ more) = publishedHandles trace ++ publishedHandles more :=
  List.filterMap_append

@[simp] theorem fetches_append : fetches (trace ++ more) = fetches trace ++ fetches more :=
  List.filter_append trace more

@[simp] theorem callbacks_append :
    callbacks (trace ++ more) = callbacks trace ++ callbacks more :=
  List.filter_append trace more

end Observations

/-- The books of the call on the handles it fetched, when it owns the given ones and the next
handle is the given number. -/
structure AcquireBooks (w : Smm) (owned : List ℕ) (nextHandle : ℕ) (trace : List SmmEffect) :
    Prop where
  fetchesSafely : EachAfter (FetchesSafely w) trace
  acceptsGranted : EachAfter AcceptsGranted trace
  fetched_lt : ∀ handle ∈ fetchedHandles trace, handle < nextHandle
  fetched_once : (fetchedHandles trace).Nodup
  balance : fetchedHandles trace =
    destroyedHandles trace ++ owned ++ publishedHandles trace

/-- More of the trace keeps the books, if what it fetches is new and what the call owned and
fetched is what it destroys, owns afterwards and publishes. -/
theorem AcquireBooks.append {w : Smm} {owned owned' : List ℕ} {nextHandle nextHandle' : ℕ}
    {trace more : List SmmEffect} (h : AcquireBooks w owned nextHandle trace)
    (hunpublished : publishedHandles trace = [])
    (hfetches : EachAfter (fun before e => FetchesSafely w (trace ++ before) e) more)
    (haccepts : EachAfter (fun before e => AcceptsGranted (trace ++ before) e) more)
    (hnew : (fetchedHandles more = [] ∧ nextHandle' = nextHandle) ∨
      (fetchedHandles more = [nextHandle] ∧ nextHandle' = nextHandle + 1))
    (hbalance : owned ++ fetchedHandles more =
      destroyedHandles more ++ owned' ++ publishedHandles more) :
    AcquireBooks w owned' nextHandle' (trace ++ more) := by
  constructor
  · exact eachAfter_append.mpr ⟨h.fetchesSafely, hfetches⟩
  · exact eachAfter_append.mpr ⟨h.acceptsGranted, haccepts⟩
  · rw [fetchedHandles_append]
    intro handle hmem
    rcases hnew with ⟨hnone, rfl⟩ | ⟨hone, rfl⟩
    · rw [hnone, List.append_nil] at hmem
      exact h.fetched_lt handle hmem
    · rw [hone] at hmem
      rcases List.mem_append.mp hmem with hold | hnext
      · exact (h.fetched_lt handle hold).trans (Nat.lt_succ_self nextHandle)
      · exact List.mem_singleton.mp hnext ▸ Nat.lt_succ_self nextHandle
  · rw [fetchedHandles_append]
    rcases hnew with ⟨hnone, -⟩ | ⟨hone, -⟩
    · rw [hnone, List.append_nil]
      exact h.fetched_once
    · rw [hone]
      apply h.fetched_once.append (List.nodup_singleton nextHandle)
      exact List.disjoint_singleton.mpr fun hmem => Nat.lt_irrefl _ (h.fetched_lt nextHandle hmem)
  · have hbefore := h.balance
    rw [hunpublished, List.append_nil] at hbefore
    rw [fetchedHandles_append, destroyedHandles_append, publishedHandles_append, hunpublished,
      hbefore, List.append_assoc, hbalance]
    simp

/-- The call read the clock first and found an asset and the retry time come. -/
def Began (w : Smm) (trace : List SmmEffect) : Prop :=
  w.asset.isSome = true ∧ ∃ nowMs after, trace = .readClock nowMs :: after ∧ w.searchRetryTs ≤ nowMs

/-- What the trace ends in and how many attempts failed, before the given section. -/
def AcquireStage (w : Smm) (trace : List SmmEffect) : SmmPc → Prop
  | .tryAcquire _ => trace = []
  | .fetch _ retries => retries < acquireAttempts ∧ Began w trace
  | .fetched _ retries handle => retries < acquireAttempts ∧ Began w trace ∧
      ∃ earlier asset pos, trace = earlier ++ [.fetch asset pos handle]
  | .construct _ retries handle => retries < acquireAttempts ∧ Began w trace ∧
      ∃ earlier asset pos, trace = earlier ++ [.fetch asset pos (some handle), .readRole true]
  | .grant _ retries candidate => retries < acquireAttempts ∧ Began w trace ∧
      ∃ earlier asset pos, trace =
        earlier ++ [.fetch asset pos (some candidate.search.id), .readRole true]
  | .commit _ retries candidate => retries < acquireAttempts ∧ Began w trace ∧
      ∃ earlier asset pos, trace =
        earlier ++ [.fetch asset pos (some candidate.search.id), .readRole true, .readRole true]
  | .rejected _ retries _ => retries < acquireAttempts ∧ Began w trace
  | .rtl (some nowMs) dropped => trace = [.readClock nowMs] ∧ dropped = none
  | .rtl none _ => True
  | _ => False

/-- What holds while the call is going on: it has called nothing back and published nothing,
and the fields it may change at its end are as they were. -/
structure Acquiring (w : Smm) (s : AcquireCall) : Prop where
  asset_eq : s.smm.asset = w.asset
  held_eq : s.smm.currentSearch = w.currentSearch
  retry_eq : s.smm.searchRetryTs = w.searchRetryTs
  stage : AcquireStage w s.trace s.smm.pc
  books : AcquireBooks w s.smm.pc.owned s.smm.nextHandle s.trace
  fetches_le : (fetches s.trace).length ≤ s.smm.pc.attempts
  uncalled : callbacks s.trace = []
  unpublished : publishedHandles s.trace = []
  unaccepted : ∀ c, .accept c true ∉ s.trace

/-- The trace that follows a first reading is that of a call that began. -/
theorem Began.append {w : Smm} {trace : List SmmEffect} (h : Began w trace)
    (more : List SmmEffect) : Began w (trace ++ more) := by
  obtain ⟨hasset, nowMs, after, rfl, hretry⟩ := h
  exact ⟨hasset, nowMs, after ++ more, rfl, hretry⟩

/-- The attempts begun are at most three. -/
theorem AcquireStage.attempts_le {w : Smm} {trace : List SmmEffect} {pc : SmmPc}
    (h : AcquireStage w trace pc) : pc.attempts ≤ acquireAttempts := by
  cases pc with
  | fetch _ _ => exact h.1.le
  | fetched _ _ _ | construct _ _ _ | grant _ _ _ | commit _ _ _ | rejected _ _ _ => exact h.1
  | rtl currTs _ => cases currTs <;> simp [SmmPc.attempts]
  | _ => simp [SmmPc.attempts]

/-- The call is lawful while it is going on. -/
theorem Acquiring.lawful {w : Smm} {s : AcquireCall} (h : Acquiring w s) : AcquireLawful w s where
  fetches_le := h.fetches_le.trans h.stage.attempts_le
  fetchesSafely := h.books.fetchesSafely
  acceptsGranted := h.books.acceptsGranted
  fetched_once := h.books.fetched_once
  owned_once := h.books.balance
  accepted_published := fun c hmem => absurd hmem (h.unaccepted c)
  outcome := by
    intro hidle
    exact absurd h.stage (by simp [hidle, AcquireStage])

/-- A call ends in one way only. -/
theorem AcquireOutcome.eq_of_holds {w : Smm} {s : AcquireCall} {o o' : AcquireOutcome}
    (h : o.Holds w s) (h' : o'.Holds w s) : o = o' := by
  cases o <;> cases o' <;> first
    | rfl
    | (simp only [AcquireOutcome.Holds] at h h'
       grind [callbacks, lastRole, SmmEffect.isCallback, SmmEffect.role?])

/-- A section that calls nothing back, publishes nothing and has no search accepted keeps the
call going. -/
theorem Acquiring.advance {w : Smm} {s : AcquireCall} {pc : SmmPc} {nextHandle : ℕ}
    {more : List SmmEffect} (h : Acquiring w s) (hstage : AcquireStage w (s.trace ++ more) pc)
    (hbooks : AcquireBooks w pc.owned nextHandle (s.trace ++ more))
    (hattempts : s.smm.pc.attempts + (fetches more).length ≤ pc.attempts)
    (huncalled : callbacks more = []) (hunpublished : publishedHandles more = [])
    (hunaccepted : ∀ c, .accept c true ∉ more) :
    Acquiring w { smm := { s.smm with pc := pc, nextHandle := nextHandle }
                  trace := s.trace ++ more } := by
  constructor
  · exact h.asset_eq
  · exact h.held_eq
  · exact h.retry_eq
  · exact hstage
  · exact hbooks
  · rw [fetches_append, List.length_append]
    exact (Nat.add_le_add_right h.fetches_le _).trans hattempts
  · rw [callbacks_append, h.uncalled, huncalled, List.append_nil]
  · rw [publishedHandles_append, h.unpublished, hunpublished, List.append_nil]
  · intro c hmem
    rcases List.mem_append.mp hmem with hold | hnew
    · exact h.unaccepted c hold
    · exact hunaccepted c hnew

/-- A section that ends the call leaves it lawful, if the way it ends is one of the four and
what was accepted is published. -/
theorem Acquiring.finish {w smm : Smm} {s : AcquireCall} {more : List SmmEffect}
    (h : Acquiring w s) (outcome : AcquireOutcome)
    (hbooks : AcquireBooks w smm.pc.owned smm.nextHandle (s.trace ++ more))
    (hfetches : fetches more = [])
    (haccepted : ∀ c, .accept c true ∈ more →
      .publish (some c) ∈ more ∧ smm.currentSearch = some c)
    (houtcome : outcome.Holds w { smm := smm, trace := s.trace ++ more }) :
    AcquireLawful w { smm := smm, trace := s.trace ++ more } where
  fetches_le := by
    rw [fetches_append, hfetches, List.append_nil]
    exact h.fetches_le.trans h.stage.attempts_le
  fetchesSafely := hbooks.fetchesSafely
  acceptsGranted := hbooks.acceptsGranted
  fetched_once := hbooks.fetched_once
  owned_once := hbooks.balance
  accepted_published := by
    intro c hmem
    rcases List.mem_append.mp hmem with hold | hnew
    · exact absurd hold (h.unaccepted c)
    · exact ⟨List.mem_append_right s.trace (haccepted c hnew).1, (haccepted c hnew).2⟩
  outcome := fun _ => ⟨outcome, houtcome, fun _ h' => AcquireOutcome.eq_of_holds h' houtcome⟩

/-- A section that reads, calls back or drops what the call owns keeps the books. -/
theorem Acquiring.books_quiet {w : Smm} {s : AcquireCall} {owned : List ℕ}
    {more : List SmmEffect} (h : Acquiring w s)
    (hquiet : ∀ e ∈ more, e.isFetch = false ∧ ∀ c accepted, e ≠ .accept c accepted)
    (hbalance : s.smm.pc.owned = destroyedHandles more ++ owned ++ publishedHandles more) :
    AcquireBooks w owned s.smm.nextHandle (s.trace ++ more) := by
  have hfetched : fetchedHandles more = [] := by
    apply List.filterMap_eq_nil_iff.mpr
    intro e he
    exact SmmEffect.fetchedHandle?_of_isFetch (hquiet e he).1
  apply h.books.append h.unpublished
  · apply eachAfter_of_forall
    intro e hmem before
    exact fetchesSafely_of_isFetch (hquiet e hmem).1
  · apply eachAfter_of_forall
    intro e hmem before
    exact acceptsGranted_of_ne_accept (hquiet e hmem).2
  · exact Or.inl ⟨hfetched, rfl⟩
  · rw [hfetched, List.append_nil]
    exact hbalance

/-- A section that reads the role or the clock and destroys what the call no longer owns keeps
the call going. -/
theorem Acquiring.advance_quiet {w : Smm} {s : AcquireCall} {pc : SmmPc} {more : List SmmEffect}
    (h : Acquiring w s) (hquiet : ∀ e ∈ more, e.isQuiet = true)
    (hstage : AcquireStage w (s.trace ++ more) pc)
    (hbalance : s.smm.pc.owned = destroyedHandles more ++ pc.owned)
    (hattempts : s.smm.pc.attempts ≤ pc.attempts) :
    Acquiring w { smm := { s.smm with pc := pc }, trace := s.trace ++ more } := by
  have hfetches : fetches more = [] := by
    apply List.filter_eq_nil_iff.mpr
    intro e he
    exact Bool.eq_false_iff.mp (SmmEffect.of_isQuiet (hquiet e he)).1
  have hcallbacks : callbacks more = [] := by
    apply List.filter_eq_nil_iff.mpr
    intro e he
    exact Bool.eq_false_iff.mp (SmmEffect.of_isQuiet (hquiet e he)).2.1
  have hpublished : publishedHandles more = [] := by
    apply List.filterMap_eq_nil_iff.mpr
    intro e he
    exact (SmmEffect.of_isQuiet (hquiet e he)).2.2.1
  apply h.advance hstage
  · apply h.books_quiet
    · intro e he
      obtain ⟨hfetch, -, -, haccept⟩ := SmmEffect.of_isQuiet (hquiet e he)
      exact ⟨hfetch, haccept⟩
    · rw [hpublished, List.append_nil]
      exact hbalance
  · rw [hfetches]
    exact hattempts
  · exact hcallbacks
  · exact hpublished
  · intro c hmem
    exact (SmmEffect.of_isQuiet (hquiet _ hmem)).2.2.2 c true rfl

/-- The call is going on, or is over and lawful. -/
def AcquireInv (w : Smm) (s : AcquireCall) : Prop :=
  Acquiring w s ∨ (s.smm.pc = .idle ∧ AcquireLawful w s)

/-- Before a fetch the worker backs off, falls back, or has an asset and the time come. -/
theorem searchAcquireAction_cases (assetPresent : Bool) (retryTs nowMs : ℕ) :
    (searchAcquireAction assetPresent retryTs nowMs = .backoff ∧ nowMs < retryTs) ∨
      (searchAcquireAction assetPresent retryTs nowMs = .disconnectedRtl ∧ retryTs ≤ nowMs ∧
        assetPresent = false) ∨
      (searchAcquireAction assetPresent retryTs nowMs = .fetch ∧ assetPresent = true ∧
        retryTs ≤ nowMs) := by
  unfold searchAcquireAction
  by_cases hlt : nowMs < retryTs
  · simp [hlt]
  · cases assetPresent <;> simp [hlt, Nat.le_of_not_lt hlt]

section Sections

variable {w : Smm} {s t : AcquireCall} {r : SmmReply}

/-- The decision before the first fetch. -/
theorem acquireInv_tryAcquire (h : Acquiring w s) {pos : Point} (hpc : s.smm.pc = .tryAcquire pos)
    (hstep : s.step (.worker r) = some t) : AcquireInv w t := by
  have htrace : s.trace = [] := by
    have hstage := h.stage
    rwa [hpc] at hstage
  have hquiet : ∀ e ∈ [SmmEffect.readClock r.nowMs], e.isQuiet = true := by
    simp [SmmEffect.isQuiet]
  rw [AcquireCall.step_worker (by simp [hpc]), Smm.step, hpc] at hstep
  rcases searchAcquireAction_cases s.smm.asset.isSome s.smm.searchRetryTs r.nowMs with
    ⟨heq, hlt⟩ | ⟨heq, -, -⟩ | ⟨heq, hasset, hle⟩
  · right
    simp only [heq, Option.map_some, Option.some.injEq] at hstep
    subst hstep
    refine ⟨rfl, h.finish .backoff ?_ rfl (by simp) ?_⟩
    · apply h.books_quiet
      · simp
      · simp [hpc, SmmPc.owned, destroyedHandles, publishedHandles, List.filterMap_cons]
    · exact ⟨r.nowMs, h.retry_eq ▸ hlt, by rw [htrace]; rfl, h.held_eq, h.retry_eq⟩
  · left
    simp only [heq, Option.map_some, Option.some.injEq] at hstep
    subst hstep
    apply h.advance_quiet hquiet
    · simp [AcquireStage, htrace]
    · simp [hpc, SmmPc.owned, destroyedHandles]
    · simp [hpc, SmmPc.attempts]
  · left
    simp only [heq, Option.map_some, Option.some.injEq] at hstep
    subst hstep
    apply h.advance_quiet hquiet
    · rw [htrace]
      exact ⟨by decide, h.asset_eq ▸ hasset, r.nowMs, [], rfl, h.retry_eq ▸ hle⟩
    · simp [hpc, SmmPc.owned, destroyedHandles]
    · simp [hpc, SmmPc.attempts]

/-- The fetch: the call owns what it returned. -/
theorem acquireInv_fetch (h : Acquiring w s) {pos : Point} {retries : ℕ}
    (hpc : s.smm.pc = .fetch pos retries) (hstep : s.step (.worker r) = some t) :
    AcquireInv w t := by
  have hstage := h.stage
  rw [hpc] at hstage
  obtain ⟨hretries, hbegan⟩ := hstage
  obtain ⟨hasset, nowMs, after, htrace, hretry⟩ := hbegan
  have hsafe (handle : Option ℕ) : EachAfter
      (fun before e => FetchesSafely w (s.trace ++ before) e)
      [.fetch s.smm.asset pos handle] := by
    rw [eachAfter_singleton]
    refine ⟨h.asset_eq ▸ hasset, h.asset_eq, nowMs, after, ?_, hretry⟩
    rw [List.append_nil, htrace]
  have haccepts (handle : Option ℕ) : EachAfter
      (fun before e => AcceptsGranted (s.trace ++ before) e)
      [.fetch s.smm.asset pos handle] := eachAfter_singleton.mpr trivial
  have hadvance (handle : Option ℕ) (nextHandle : ℕ)
      (hnew : (handle.toList = [] ∧ nextHandle = s.smm.nextHandle) ∨
        (handle.toList = [s.smm.nextHandle] ∧ nextHandle = s.smm.nextHandle + 1)) :
      Acquiring w { smm := { s.smm with pc := .fetched pos retries handle, nextHandle := nextHandle }
                    trace := s.trace ++ [.fetch s.smm.asset pos handle] } := by
    have hfetched : fetchedHandles [.fetch s.smm.asset pos handle] = handle.toList := by
      cases handle <;> rfl
    apply h.advance
    · exact ⟨hretries, ⟨hasset, nowMs, after ++ _, by rw [htrace]; rfl, hretry⟩, s.trace,
        s.smm.asset, pos, rfl⟩
    · apply h.books.append h.unpublished (hsafe handle) (haccepts handle)
      · rwa [hfetched]
      · simp [hpc, hfetched, SmmPc.owned, destroyedHandles, publishedHandles, List.filterMap_cons]
    · simp [hpc, SmmPc.attempts, fetches, List.filter_cons]
    · rfl
    · rfl
    · simp
  rw [AcquireCall.step_worker (by simp [hpc]), Smm.step, hpc] at hstep
  left
  cases hfetched : r.fetched with
  | true =>
    simp only [hfetched, if_true, Option.map_some, Option.some.injEq] at hstep
    subst hstep
    exact hadvance (some s.smm.nextHandle) _ (Or.inr ⟨rfl, rfl⟩)
  | false =>
    simp only [hfetched, Bool.false_eq_true, if_false, Option.map_some, Option.some.injEq] at hstep
    subst hstep
    exact hadvance none _ (Or.inl ⟨rfl, rfl⟩)

/-- The first reading of the role: revoked, the call destroys what it owns and is over. -/
theorem acquireInv_fetched (h : Acquiring w s) {pos : Point} {retries : ℕ} {handle : Option ℕ}
    (hpc : s.smm.pc = .fetched pos retries handle) (hstep : s.step (.worker r) = some t) :
    AcquireInv w t := by
  have hstage := h.stage
  rw [hpc] at hstage
  obtain ⟨hretries, hbegan, earlier, asset, from', htrace⟩ := hstage
  rw [AcquireCall.step_worker (by simp [hpc]), Smm.step, hpc] at hstep
  cases hrole : s.smm.searchActive with
  | false =>
    right
    simp only [if_pos hrole, Option.map_some, Option.some.injEq] at hstep
    subst hstep
    refine ⟨rfl, h.finish .silent ?_ ?_ ?_ ?_⟩
    · apply h.books_quiet
      · cases handle <;> simp
      · cases handle <;>
          simp [hpc, SmmPc.owned, destroyedHandles, publishedHandles, List.filterMap_cons]
    · cases handle <;> rfl
    · cases handle <;> simp
    · refine ⟨?_, ?_, h.held_eq, h.retry_eq⟩
      · rw [callbacks_append, h.uncalled]
        cases handle <;> rfl
      · cases handle <;> simp [lastRole, List.filterMap_cons]
  | true =>
    left
    have hactive : ¬ s.smm.searchActive = false := by simp [hrole]
    cases handle with
    | none =>
      simp only [if_neg hactive, Option.map_some, Option.some.injEq] at hstep
      subst hstep
      apply h.advance_quiet
      · simp [SmmEffect.isQuiet]
      · trivial
      · simp [hpc, SmmPc.owned, destroyedHandles, List.filterMap_cons]
      · simp only [hpc]
        exact hretries
    | some handle =>
      simp only [if_neg hactive, Option.map_some, Option.some.injEq] at hstep
      subst hstep
      apply h.advance_quiet
      · simp [SmmEffect.isQuiet]
      · refine ⟨hretries, hbegan.append _, earlier, asset, from', ?_⟩
        rw [htrace, List.append_assoc]
        rfl
      · simp [hpc, SmmPc.owned, destroyedHandles]
      · simp [hpc, SmmPc.attempts]

/-- The waypoints of a fetched search make it a candidate. -/
theorem acquireInv_construct (h : Acquiring w s) {pos : Point} {retries handle : ℕ}
    (hpc : s.smm.pc = .construct pos retries handle) (hstep : s.step (.worker r) = some t) :
    AcquireInv w t := by
  have hstage := h.stage
  rw [hpc] at hstage
  rw [AcquireCall.step_worker (by simp [hpc]), Smm.step, hpc] at hstep
  left
  simp only [Option.map_some, Option.some.injEq] at hstep
  subst hstep
  apply h.advance_quiet
  · exact fun e he => absurd he List.not_mem_nil
  · rw [List.append_nil]
    exact hstage
  · simp [hpc, SmmPc.owned, destroyedHandles, Smm.candidate]
  · simp [hpc, SmmPc.attempts]

/-- The second reading of the role. -/
theorem acquireInv_grant (h : Acquiring w s) {pos : Point} {retries : ℕ}
    {candidate : SmmCandidate} (hpc : s.smm.pc = .grant pos retries candidate)
    (hstep : s.step (.worker r) = some t) : AcquireInv w t := by
  have hstage := h.stage
  rw [hpc] at hstage
  obtain ⟨hretries, hbegan, earlier, asset, from', htrace⟩ := hstage
  have hquiet : ∀ e ∈ [SmmEffect.readRole s.smm.searchActive], e.isQuiet = true := by
    simp [SmmEffect.isQuiet]
  rw [AcquireCall.step_worker (by simp [hpc]), Smm.step, hpc] at hstep
  left
  cases hrole : s.smm.searchActive with
  | true =>
    simp only [if_pos hrole, Option.map_some, Option.some.injEq] at hstep
    subst hstep
    apply h.advance_quiet hquiet
    · refine ⟨hretries, hbegan.append _, earlier, asset, from', ?_⟩
      rw [htrace, List.append_assoc, hrole]
      rfl
    · simp [hpc, SmmPc.owned, destroyedHandles]
    · simp [hpc, SmmPc.attempts]
  | false =>
    have hrevoked : ¬ s.smm.searchActive = true := by simp [hrole]
    simp only [if_neg hrevoked, Option.map_some, Option.some.injEq] at hstep
    subst hstep
    apply h.advance_quiet hquiet
    · exact ⟨hretries, hbegan.append _⟩
    · simp [hpc, SmmPc.owned, destroyedHandles]
    · simp [hpc, SmmPc.attempts]

/-- The third reading of the role: revoked, the call destroys the candidate and is over. -/
theorem acquireInv_rejected (h : Acquiring w s) {pos : Point} {retries : ℕ}
    {candidate : SmmCandidate} (hpc : s.smm.pc = .rejected pos retries candidate)
    (hstep : s.step (.worker r) = some t) : AcquireInv w t := by
  have hstage := h.stage
  rw [hpc] at hstage
  obtain ⟨hretries, hbegan⟩ := hstage
  rw [AcquireCall.step_worker (by simp [hpc]), Smm.step, hpc] at hstep
  cases hrole : s.smm.searchActive with
  | false =>
    right
    simp only [if_pos hrole, Option.map_some, Option.some.injEq] at hstep
    subst hstep
    refine ⟨rfl, h.finish .silent ?_ rfl (by simp) ?_⟩
    · apply h.books_quiet
      · simp
      · simp [hpc, SmmPc.owned, destroyedHandles, publishedHandles, List.filterMap_cons]
    · refine ⟨?_, ?_, h.held_eq, h.retry_eq⟩
      · rw [callbacks_append, h.uncalled]
        rfl
      · simp [lastRole, List.filterMap_cons]
  | true =>
    left
    have hactive : ¬ s.smm.searchActive = false := by simp [hrole]
    simp only [if_neg hactive] at hstep
    split_ifs at hstep with hlast
    · simp only [Option.map_some, Option.some.injEq] at hstep
      subst hstep
      apply h.advance_quiet
      · simp [SmmEffect.isQuiet]
      · trivial
      · simp [hpc, SmmPc.owned, destroyedHandles, List.filterMap_cons]
      · simp only [hpc]
        exact hretries
    · simp only [Option.map_some, Option.some.injEq] at hstep
      subst hstep
      apply h.advance_quiet
      · simp [SmmEffect.isQuiet]
      · exact ⟨Nat.lt_of_not_le hlast, hbegan.append _⟩
      · simp [hpc, SmmPc.owned, destroyedHandles, List.filterMap_cons]
      · simp [hpc, SmmPc.attempts]

/-- The candidate is accepted, if it is valid, and published in the same section. -/
theorem acquireInv_commit (h : Acquiring w s) {pos : Point} {retries : ℕ}
    {candidate : SmmCandidate} (hpc : s.smm.pc = .commit pos retries candidate)
    (hstep : s.step (.worker r) = some t) : AcquireInv w t := by
  have hstage := h.stage
  rw [hpc] at hstage
  obtain ⟨hretries, hbegan, earlier, asset, from', htrace⟩ := hstage
  have haccepts (hvalid : candidate.valid = true) (accepted : Bool) (more : List SmmEffect)
      (hmore : ∀ e ∈ more, ∀ c accepted, e ≠ .accept c accepted) :
      EachAfter (fun before e => AcceptsGranted (s.trace ++ before) e)
        (.accept candidate accepted :: more) := by
    rw [eachAfter_cons]
    refine ⟨⟨hvalid, earlier, asset, from', by rw [List.append_nil, htrace]⟩, ?_⟩
    apply eachAfter_of_forall
    intro e he before
    exact acceptsGranted_of_ne_accept (hmore e he)
  rw [AcquireCall.step_worker (by simp [hpc]), Smm.step, hpc] at hstep
  simp only at hstep
  split_ifs at hstep with hvalid haccepted
  · right
    simp only [Option.map_some, Option.some.injEq] at hstep
    subst hstep
    refine ⟨rfl, h.finish .published ?_ rfl ?_ ?_⟩
    · apply h.books.append h.unpublished _ (haccepts hvalid true _ (by simp)) (Or.inl ⟨rfl, rfl⟩)
      · simp [hpc, SmmPc.owned, fetchedHandles, destroyedHandles, publishedHandles,
          List.filterMap_cons]
      · apply eachAfter_of_forall
        simp [FetchesSafely]
    · simp
    · refine ⟨candidate, ?_, ?_, rfl, rfl⟩
      · rw [callbacks_append, h.uncalled]
        rfl
      · rw [publishedHandles_append, h.unpublished]
        rfl
  · left
    simp only [Option.map_some, Option.some.injEq] at hstep
    subst hstep
    apply h.advance
    · exact ⟨hretries, hbegan.append _⟩
    · apply h.books.append h.unpublished _ (haccepts hvalid false _ (by simp))
        (Or.inl ⟨rfl, rfl⟩)
      · simp [hpc, SmmPc.owned, fetchedHandles, destroyedHandles, publishedHandles,
          List.filterMap_cons]
      · apply eachAfter_of_forall
        simp [FetchesSafely]
    · simp [hpc, SmmPc.attempts, fetches]
    · rfl
    · rfl
    · simp
  · left
    simp only [Option.map_some, Option.some.injEq] at hstep
    subst hstep
    apply h.advance_quiet
    · exact fun e he => absurd he List.not_mem_nil
    · exact ⟨hretries, hbegan.append _⟩
    · simp [hpc, SmmPc.owned, destroyedHandles]
    · simp [hpc, SmmPc.attempts]

/-- The fallback calls back once, sets the retry time and drops the last candidate. -/
theorem acquireInv_rtl (h : Acquiring w s) {currTs : Option ℕ} {dropped : Option SmmCandidate}
    (hpc : s.smm.pc = .rtl currTs dropped) (hstep : s.step (.worker r) = some t) :
    AcquireInv w t := by
  have hstage := h.stage
  rw [hpc] at hstage
  right
  rw [AcquireCall.step_worker (by simp [hpc]), Smm.step, hpc] at hstep
  simp only [Option.map_some, Option.some.injEq] at hstep
  subst hstep
  refine ⟨rfl, h.finish .rtl ?_ ?_ ?_ ?_⟩
  · apply h.books_quiet
    · cases currTs <;> cases dropped <;> simp
    · cases currTs <;> cases dropped <;>
        simp [hpc, SmmPc.owned, destroyedHandles, publishedHandles, List.filterMap_cons]
  · cases currTs <;> cases dropped <;> rfl
  · cases currTs <;> cases dropped <;> simp
  · cases currTs with
    | none =>
      refine ⟨r.nowMs, ?_, ?_, h.held_eq, rfl⟩
      · rw [callbacks_append, h.uncalled]
        cases dropped <;> rfl
      · cases dropped <;> simp [lastClock, List.filterMap_cons]
    | some nowMs =>
      obtain ⟨htrace, rfl⟩ := hstage
      exact ⟨nowMs, by rw [callbacks_append, h.uncalled]; rfl, by rw [htrace]; rfl, h.held_eq, rfl⟩

end Sections

/-- How a call ended is read off its trace, the held search and the retry time. -/
theorem AcquireOutcome.holds_congr {w smm : Smm} {s : AcquireCall} {outcome : AcquireOutcome}
    (hheld : smm.currentSearch = s.smm.currentSearch)
    (hretry : smm.searchRetryTs = s.smm.searchRetryTs) :
    outcome.Holds w { s with smm := smm } ↔ outcome.Holds w s := by
  cases outcome <;> simp only [AcquireOutcome.Holds, hheld, hretry]

/-- What the event loop does to the role leaves the call as it is. -/
theorem acquireInv_congr {w smm : Smm} {s : AcquireCall} (h : AcquireInv w s)
    (hpc : smm.pc = s.smm.pc) (hasset : smm.asset = s.smm.asset)
    (hheld : smm.currentSearch = s.smm.currentSearch)
    (hretry : smm.searchRetryTs = s.smm.searchRetryTs)
    (hhandle : smm.nextHandle = s.smm.nextHandle) :
    AcquireInv w { s with smm := smm } := by
  rcases h with h | ⟨hidle, h⟩
  · left
    constructor
    · exact hasset.trans h.asset_eq
    · exact hheld.trans h.held_eq
    · exact hretry.trans h.retry_eq
    · exact hpc ▸ h.stage
    · exact hpc ▸ hhandle ▸ h.books
    · exact hpc ▸ h.fetches_le
    · exact h.uncalled
    · exact h.unpublished
    · exact h.unaccepted
  · right
    refine ⟨hpc.trans hidle, ?_⟩
    constructor
    · exact h.fetches_le
    · exact h.fetchesSafely
    · exact h.acceptsGranted
    · exact h.fetched_once
    · exact hpc ▸ h.owned_once
    · exact fun c hmem => ⟨(h.accepted_published c hmem).1,
        hheld.trans (h.accepted_published c hmem).2⟩
    · intro _
      exact (existsUnique_congr fun outcome => AcquireOutcome.holds_congr hheld hretry).mpr
        (h.outcome hidle)

/-- Every step of the call keeps it going or ends it lawfully. -/
theorem acquireInv_step {w : Smm} {s t : AcquireCall} {e : AcquireLabel} (h : AcquireInv w s)
    (hstep : s.step e = some t) : AcquireInv w t := by
  cases e with
  | search pos =>
    obtain rfl := Option.some.inj hstep
    exact acquireInv_congr h rfl rfl rfl rfl rfl
  | cancelSearch =>
    obtain rfl := Option.some.inj hstep
    exact acquireInv_congr h rfl rfl rfl rfl rfl
  | worker r =>
    rcases h with h | ⟨hidle, -⟩
    · cases hpc : s.smm.pc with
      | tryAcquire pos => exact acquireInv_tryAcquire h hpc hstep
      | fetch pos retries => exact acquireInv_fetch h hpc hstep
      | fetched pos retries handle => exact acquireInv_fetched h hpc hstep
      | construct pos retries handle => exact acquireInv_construct h hpc hstep
      | grant pos retries candidate => exact acquireInv_grant h hpc hstep
      | commit pos retries candidate => exact acquireInv_commit h hpc hstep
      | rejected pos retries candidate => exact acquireInv_rejected h hpc hstep
      | rtl currTs dropped => exact acquireInv_rtl h hpc hstep
      | _ => exact absurd h.stage (by simp [hpc, AcquireStage])
    · rw [AcquireCall.step, if_pos hidle] at hstep
      exact absurd hstep (by simp)

/-- Before its first section the call did nothing. -/
theorem acquireInv_start (w : Smm) (pos : Point) : AcquireInv w (.start w pos) := by
  left
  constructor
  · rfl
  · rfl
  · rfl
  · rfl
  · constructor
    · exact eachAfter_nil
    · exact eachAfter_nil
    · exact fun handle hmem => absurd hmem List.not_mem_nil
    · exact List.nodup_nil
    · rfl
  · exact Nat.le_refl 0
  · rfl
  · rfl
  · exact fun c => List.not_mem_nil

/-- A section of a call that is going on brings it closer to its end. -/
theorem remaining_worker {w : Smm} {s : AcquireCall} (h : Acquiring w s) (r : SmmReply) :
    ∃ t, s.step (.worker r) = some t ∧ t.smm.pc.remaining < s.smm.pc.remaining := by
  have hstage := h.stage
  have hbusy : s.smm.pc ≠ .idle := by
    intro hidle
    rw [hidle] at hstage
    exact hstage
  rw [AcquireCall.step_worker hbusy, Smm.step]
  cases hpc : s.smm.pc with
  | tryAcquire pos =>
    refine ⟨_, rfl, ?_⟩
    cases searchAcquireAction s.smm.asset.isSome s.smm.searchRetryTs r.nowMs <;>
      simp [SmmPc.remaining, acquireAttempts]
  | fetch pos retries =>
    dsimp only
    split_ifs <;> exact ⟨_, rfl, Nat.lt_succ_self _⟩
  | fetched pos retries handle =>
    rw [hpc] at hstage
    have hretries := hstage.1
    dsimp only
    split_ifs
    · exact ⟨_, rfl, by simp only [SmmPc.remaining]; omega⟩
    · refine ⟨_, rfl, ?_⟩
      cases handle <;> simp only [SmmPc.remaining] <;> omega
  | construct pos retries handle =>
    rw [hpc] at hstage
    have hretries := hstage.1
    exact ⟨_, rfl, by simp only [SmmPc.remaining]; omega⟩
  | grant pos retries candidate =>
    rw [hpc] at hstage
    have hretries := hstage.1
    refine ⟨_, rfl, ?_⟩
    dsimp only
    split_ifs <;> simp only [SmmPc.remaining] <;> omega
  | commit pos retries candidate =>
    rw [hpc] at hstage
    have hretries := hstage.1
    dsimp only
    split_ifs <;> exact ⟨_, rfl, by simp only [SmmPc.remaining]; omega⟩
  | rejected pos retries candidate =>
    rw [hpc] at hstage
    have hretries := hstage.1
    dsimp only
    split_ifs <;> exact ⟨_, rfl, by simp only [SmmPc.remaining]; omega⟩
  | rtl currTs dropped => exact ⟨_, rfl, Nat.one_pos⟩
  | _ => exact absurd hstage (by simp [hpc, AcquireStage])

/-- The sections made and the sections left are no more than at the start. -/
theorem remaining_run {w : Smm} {s t : AcquireCall} {labels : List AcquireLabel}
    (h : AcquireInv w s) (hrun : run AcquireCall.step s labels = some t) :
    labels.countP AcquireLabel.isWorker + t.smm.pc.remaining ≤ s.smm.pc.remaining := by
  induction labels generalizing s with
  | nil =>
    obtain rfl := run_nil_eq_some.mp hrun
    simp
  | cons e labels ih =>
    obtain ⟨u, hu, hrun⟩ := run_cons_eq_some.mp hrun
    have hrest := ih (acquireInv_step h hu) hrun
    cases e with
    | search pos =>
      obtain rfl := Option.some.inj hu
      exact hrest
    | cancelSearch =>
      obtain rfl := Option.some.inj hu
      exact hrest
    | worker r =>
      rcases h with h | ⟨hidle, -⟩
      · obtain ⟨v, hv, hlt⟩ := remaining_worker h r
        obtain rfl := Option.some.inj (hv.symm.trans hu)
        rw [List.countP_cons_of_pos rfl]
        omega
      · rw [AcquireCall.step, if_pos hidle] at hu
        exact absurd hu (by simp)

/-- Whatever the server and the clock answer, and wherever the role is revoked and granted, the
call comes to its end after three attempts at most, and is lawful all along: it fetches only
with an asset and past the retry time, has a search accepted only after reading the role as
granted, destroys or publishes each handle once, publishes what was accepted, and ends in one
of the four ways. -/
theorem tryAcquire_ends_lawfully {w : Smm} {pos : Point} {labels : List AcquireLabel}
    {t : AcquireCall} (hrun : run AcquireCall.step (.start w pos) labels = some t) :
    AcquireLawful w t ∧
      labels.countP AcquireLabel.isWorker + t.smm.pc.remaining ≤ 6 * acquireAttempts + 2 ∧
      (t.smm.pc ≠ .idle → ∀ r, (t.step (.worker r)).isSome = true) := by
  have hinv : AcquireInv w t := invariant_of_run (AcquireInv w) (fun _ _ _ => acquireInv_step)
    (acquireInv_start w pos) hrun
  have hremaining := remaining_run (acquireInv_start w pos) hrun
  rcases hinv with hgoing | ⟨hidle, hlawful⟩
  · refine ⟨hgoing.lawful, hremaining, fun _ r => ?_⟩
    obtain ⟨u, hu, -⟩ := remaining_worker hgoing r
    exact Option.isSome_iff_exists.mpr ⟨u, hu⟩
  · exact ⟨hlawful, hremaining, fun hbusy => absurd hidle hbusy⟩

/-- The server first refuses the search on offer and then lets it be accepted, and the role is
revoked and granted again before the second attempt is. -/
def refusedThenAccepted : List AcquireLabel :=
  [.worker {}, .worker { fetched := true }, .worker {}, .worker { waypoints := some [{}] },
    .worker {}, .worker { accepted := false }, .worker {}, .worker { fetched := true }, .worker {},
    .cancelSearch, .worker { waypoints := some [{}] }, .search {}, .worker {},
    .worker { accepted := true }]

/-- The call ends with the second search published. -/
theorem refusedThenAccepted_ends_lawfully :
    ∃ t, run AcquireCall.step (.start { asset := some 0, searchActive := true } {})
        refusedThenAccepted = some t ∧ t.smm.pc = .idle ∧
      AcquireLawful { asset := some 0, searchActive := true } t := by
  have hrun : ∃ t, run AcquireCall.step (.start { asset := some 0, searchActive := true } {})
      refusedThenAccepted = some t ∧ t.smm.pc = .idle := ⟨_, rfl, rfl⟩
  obtain ⟨t, hrun, hidle⟩ := hrun
  exact ⟨t, hrun, hidle, (tryAcquire_ends_lawfully hrun).1⟩

end CapFmu
