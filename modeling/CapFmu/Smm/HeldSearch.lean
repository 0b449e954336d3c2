import CapFmu.Smm.Worker

/-!
# A held search and its connection

A search is fetched from the asset of a connection, and its handle is good for operations on
the server while that connection is open. Acquiring a search and completing or resuming it
look at the held search alone, and closing a connection does not look at it. The two agree as
long as no connection is torn down under a held search: a connect task tears one down when
the details have changed or the library reports it as failed.
-/

namespace CapFmu

open Transition

/-- The search the worker is about to accept, or to drop. -/
def SmmPc.candidate? : SmmPc → Option SmmCandidate
  | grant _ _ candidate | commit _ _ candidate | rejected _ _ candidate => some candidate
  | _ => none

/-- Whether the worker is fetching a search. -/
def SmmPc.fetching : SmmPc → Bool
  | fetch _ _ | fetched _ _ _ | construct _ _ _ | grant _ _ _ | commit _ _ _
  | rejected _ _ _ => true
  | _ => false

/-- No task starts in the middle of an acquisition. -/
@[simp] theorem SmmTask.fetching_entry (task : SmmTask) : task.entry.fetching = false := by
  cases task <;> rfl

@[simp] theorem SmmTask.candidate_entry (task : SmmTask) : task.entry.candidate? = none := by
  cases task <;> rfl

/-- An operation on the handle of a search. -/
def SmmEffect.uses? : SmmEffect → Option SmmCandidate
  | accept candidate _ | complete candidate | loadSearchCb candidate => some candidate
  | _ => none

namespace Smm

/-- A connect task with these details closes the open connection. -/
def TearsDown (w : Smm) (details : ConnectTask) (r : SmmReply) : Prop :=
  w.conn.isSome = true ∧ (w.details ≠ details ∨ r.stillConnected = false)

instance (w : Smm) (details : ConnectTask) (r : SmmReply) : Decidable (w.TearsDown details r) :=
  inferInstanceAs (Decidable (_ ∧ (_ ∨ _)))

/-- The held search's connection is open, and its asset is the one at hand. -/
def HeldOpen (w : Smm) : Prop :=
  ∀ held, w.currentSearch = some held → w.conn = some held.conn ∧ w.asset = some held.conn

/-- Every search the step operates on comes from the connection and asset that are open. -/
def UsesOpen (w : Smm) (e : SmmLabel) : Prop :=
  ∀ t effects, w.stepWith e = some (t, effects) → ∀ effect ∈ effects, ∀ candidate,
    effect.uses? = some candidate → w.conn = some candidate.conn ∧ w.asset = some candidate.conn

/-- No connection is torn down under a held search. -/
def KeepsHeld (w : Smm) : SmmLabel → Prop
  | .worker r => ∀ details, w.pc = .connect details → w.TearsDown details r → w.currentSearch = none
  | .enqueue _ | .search _ | .cancelSearch => True

/-- What holds in every state: the asset is the open connection's, connections are numbered in
turn, and a search that is being fetched, or is held, comes from the asset at hand. -/
structure Attached (w : Smm) : Prop where
  asset_conn : ∀ n, w.asset = some n → w.conn = some n
  conn_lt : ∀ n, w.conn = some n → n < w.nextConn
  fetching : w.pc.fetching = true → w.asset.isSome = true
  candidate : ∀ candidate, w.pc.candidate? = some candidate → w.asset = some candidate.conn
  held : ∀ held, w.currentSearch = some held → w.asset = some held.conn

variable {w t : Smm}

/-- The held search's connection is open. -/
theorem Attached.heldOpen (h : w.Attached) : w.HeldOpen :=
  fun held hheld => ⟨h.asset_conn held.conn (h.held held hheld), h.held held hheld⟩

/-- A step that leaves the connection alone keeps it, if what is fetched and held is from the
asset at hand. -/
theorem Attached.congr (h : w.Attached) (hasset : t.asset = w.asset) (hconn : t.conn = w.conn)
    (hnext : t.nextConn = w.nextConn)
    (hfetching : t.pc.fetching = true → w.asset.isSome = true)
    (hcandidate : ∀ c, t.pc.candidate? = some c → w.asset = some c.conn)
    (hheld : ∀ held, t.currentSearch = some held → w.asset = some held.conn) : t.Attached := by
  constructor
  · rw [hasset, hconn]
    exact h.asset_conn
  · rw [hconn, hnext]
    exact h.conn_lt
  · rw [hasset]
    exact hfetching
  · rw [hasset]
    exact hcandidate
  · rw [hasset]
    exact hheld

/-- Making a connection leaves none, or leaves a new one with its asset. -/
theorem connect_cases (w : Smm) (r : SmmReply) (hconn : w.conn = none) (hasset : w.asset = none) :
    (∃ nextConn, (w.connect r).1 = { w with nextConn := nextConn }) ∨
      (w.connect r).1 = { w with
        conn := some w.nextConn, asset := some w.nextConn, nextConn := w.nextConn + 1 } := by
  have hdisconnected : ({ w with conn := none, asset := none, nextConn := w.nextConn + 1 } : Smm) =
      { w with nextConn := w.nextConn + 1 } := by
    simp only [hconn, hasset]
  unfold connect
  split_ifs with hconnection
  · cases hlogin : r.loggedIn with
    | false => exact Or.inl ⟨w.nextConn + 1, hdisconnected⟩
    | true =>
      cases hassets : r.assets with
      | none => exact Or.inl ⟨w.nextConn + 1, hdisconnected⟩
      | some names =>
        by_cases hname : w.details.assetName ∈ names
        · right
          simp only [if_pos hname]
        · left
          refine ⟨w.nextConn + 1, ?_⟩
          simp only [if_neg hname]
          exact hdisconnected
  · exact Or.inl ⟨w.nextConn, rfl⟩

/-- A connect task that tears nothing down keeps the open connection, or finds none. -/
theorem doConnect_of_not_tearsDown {details : ConnectTask} {r : SmmReply}
    (h : ¬ w.TearsDown details r) :
    (w.doConnect details r).1 = w ∨
      (w.conn = none ∧
        (w.doConnect details r).1 = (connect { w with details := details } r).1) := by
  cases hconn : w.conn with
  | none => exact Or.inr ⟨rfl, by simp only [doConnect, hconn]⟩
  | some n =>
    have hkeeps : ¬ (w.details ≠ details ∨ r.stillConnected = false) := by
      intro hchanged
      exact h ⟨by rw [hconn]; rfl, hchanged⟩
    exact Or.inl (by simp only [doConnect, hconn, if_neg hkeeps])

/-- A connect task that tears the connection down makes a new one. -/
theorem doConnect_of_tearsDown {details : ConnectTask} {r : SmmReply}
    (h : w.TearsDown details r) :
    (w.doConnect details r).1 =
      (connect { w with asset := none, conn := none, details := details } r).1 := by
  obtain ⟨n, hconn⟩ := Option.isSome_iff_exists.mp h.1
  simp only [doConnect, hconn, if_pos h.2]
  rfl

/-- What follows a connection made with no search held or fetched is attached. -/
theorem attached_connect (hconn : w.conn = none) (hasset : w.asset = none)
    (hheld : w.currentSearch = none) (r : SmmReply) :
    Attached { (w.connect r).1 with pc := .idle } := by
  rcases connect_cases w r hconn hasset with ⟨nextConn, heq⟩ | heq
  · rw [heq]
    constructor <;> simp [hconn, hasset, hheld, SmmPc.fetching, SmmPc.candidate?]
  · rw [heq]
    constructor <;> simp [hheld, SmmPc.fetching, SmmPc.candidate?]

/-- A connect task keeps the searches attached exactly when it tears no connection down under
the held one. -/
theorem attached_doConnect (h : w.Attached) {details : ConnectTask} {r : SmmReply}
    (hkeeps : w.TearsDown details r → w.currentSearch = none) :
    Attached { (w.doConnect details r).1 with pc := .idle } := by
  by_cases htears : w.TearsDown details r
  · rw [doConnect_of_tearsDown htears]
    exact attached_connect (w := { w with asset := none, conn := none, details := details })
      rfl rfl (hkeeps htears) r
  · rcases doConnect_of_not_tearsDown htears with heq | ⟨hconn, heq⟩
    · rw [heq]
      have hfetching : SmmPc.idle.fetching ≠ true := Bool.false_ne_true
      exact h.congr rfl rfl rfl (fun hbusy => absurd hbusy hfetching)
        (fun c hc => absurd hc (Option.some_ne_none c).symm) h.held
    · have hasset : w.asset = none := by
        cases hasset : w.asset with
        | none => rfl
        | some n => exact absurd (h.asset_conn n hasset) (by simp [hconn])
      have hheld : w.currentSearch = none := by
        cases hheld : w.currentSearch with
        | none => rfl
        | some held => exact absurd (h.held held hheld) (by simp [hasset])
      rw [heq]
      exact attached_connect (w := { w with details := details }) hconn hasset hheld r

/-- A connection torn down under the held search leaves it with none, or with another. -/
theorem not_heldOpen_of_tearsDown (h : w.Attached) {details : ConnectTask} {r : SmmReply}
    (htears : w.TearsDown details r) (hheld : w.currentSearch ≠ none) :
    ¬ HeldOpen { (w.doConnect details r).1 with pc := .idle } := by
  obtain ⟨held, hsome⟩ := Option.ne_none_iff_exists'.mp hheld
  have hlt := h.conn_lt held.conn (h.heldOpen held hsome).1
  intro hopen
  rw [doConnect_of_tearsDown htears] at hopen
  rcases connect_cases { w with asset := none, conn := none, details := details } r rfl rfl with
    ⟨nextConn, heq⟩ | heq
  · rw [heq] at hopen
    exact absurd (hopen held hsome).1 (by simp)
  · rw [heq] at hopen
    have hsame := Option.some.inj (hopen held hsome).1
    simp only at hsame
    omega

section Sections

variable {r : SmmReply} {effects : List SmmEffect}

/-- A search is fetched after finding an asset. -/
theorem step_fetching (hstep : w.step r = some (t, effects)) (ht : t.pc.fetching = true) :
    w.pc.fetching = true ∨ w.asset.isSome = true := by
  unfold step at hstep
  split at hstep <;> grind [SmmPc.fetching, SmmTask.fetching_entry, searchAcquireAction]

/-- A candidate is the one before, or a search just fetched from the asset at hand. -/
theorem step_candidate (hstep : w.step r = some (t, effects)) {c : SmmCandidate}
    (ht : t.pc.candidate? = some c) :
    w.pc.candidate? = some c ∨ (w.pc.fetching = true ∧ c.conn = w.asset.getD 0) := by
  unfold step at hstep
  split at hstep <;> grind [SmmPc.fetching, SmmPc.candidate?, SmmTask.candidate_entry, Smm.candidate]

/-- A section that is no connect task keeps the searches attached: a search is fetched from the
asset at hand and published by the same acquisition. -/
theorem attached_step (h : w.Attached) (hconnect : ∀ details, w.pc ≠ .connect details)
    (hstep : w.step r = some (t, effects)) : t.Attached := by
  obtain ⟨hconn, hasset, hnext⟩ := step_frame hconnect hstep
  apply h.congr hasset hconn hnext
  · intro hfetching
    exact (step_fetching hstep hfetching).elim h.fetching id
  · intro c hcandidate
    rcases step_candidate hstep hcandidate with hbefore | ⟨hfetching, hfetched⟩
    · exact h.candidate c hbefore
    · obtain ⟨n, hn⟩ := Option.isSome_iff_exists.mp (h.fetching hfetching)
      rw [hn, hfetched, hn, Option.getD_some]
  · intro held hheld
    rcases step_held hstep with hsame | hnone | ⟨pos, retries, c, hpc, -, -, hsome⟩
    · exact h.held held (hsame ▸ hheld)
    · exact absurd (hnone.symm.trans hheld) (by simp)
    · obtain rfl := Option.some.inj (hsome.symm.trans hheld)
      exact h.candidate c (by rw [hpc]; rfl)

/-- A section of the worker operates on its candidate or on the held search. -/
theorem step_uses (hstep : w.step r = some (t, effects)) {effect : SmmEffect}
    (heffect : effect ∈ effects) {c : SmmCandidate} (huses : effect.uses? = some c) :
    w.pc.candidate? = some c ∨ w.currentSearch = some c := by
  unfold step at hstep
  split at hstep <;> grind [SmmPc.candidate?, SmmEffect.uses?, close_of_mem_doConnect,
    checkOperatorCommand, doReachedPoint, Option.map_eq_some_iff]

end Sections

/-- In an attached state every operation is on a search of the open connection. -/
theorem Attached.usesOpen (h : w.Attached) (e : SmmLabel) : w.UsesOpen e := by
  intro t effects hstep effect heffect c huses
  have hasset : w.asset = some c.conn := by
    cases e with
    | worker r =>
      rcases step_uses hstep heffect huses with hcandidate | hheld
      · exact h.candidate c hcandidate
      · exact h.held c hheld
    | enqueue _ | search _ | cancelSearch =>
      obtain ⟨-, rfl⟩ := Prod.mk.inj (Option.some.inj hstep)
      exact absurd heffect List.not_mem_nil
  exact ⟨h.asset_conn c.conn hasset, hasset⟩

/-- A new task keeps the searches attached. -/
theorem attached_enqueue (h : w.Attached) (task : SmmTask) : (w.enqueue task).Attached := by
  unfold enqueue
  split_ifs
  · exact ⟨h.1, h.2, h.3, h.4, h.5⟩
  · exact h
  · exact ⟨h.1, h.2, h.3, h.4, h.5⟩

/-- A step that tears no connection down under the held search keeps the searches attached. -/
theorem attached_next (h : w.Attached) {e : SmmLabel} (hkeeps : w.KeepsHeld e)
    (hstep : w.next e = some t) : t.Attached := by
  obtain ⟨⟨u, effects⟩, hwith, rfl⟩ := Option.map_eq_some_iff.mp hstep
  cases e with
  | worker r =>
    by_cases hconnect : ∃ details, w.pc = .connect details
    · obtain ⟨details, hpc⟩ := hconnect
      simp only [stepWith, step, hpc] at hwith
      obtain ⟨rfl, -⟩ := Prod.mk.inj (Option.some.inj hwith)
      exact attached_doConnect h (hkeeps details hpc)
    · exact attached_step h (fun details hpc => hconnect ⟨details, hpc⟩) hwith
  | enqueue task =>
    obtain ⟨rfl, -⟩ := Prod.mk.inj (Option.some.inj hwith)
    exact attached_enqueue h task
  | search pos =>
    obtain ⟨rfl, -⟩ := Prod.mk.inj (Option.some.inj hwith)
    have hgranted : Attached { w with searchActive := true } := ⟨h.1, h.2, h.3, h.4, h.5⟩
    exact attached_enqueue hgranted (.search pos)
  | cancelSearch =>
    obtain ⟨rfl, -⟩ := Prod.mk.inj (Option.some.inj hwith)
    exact ⟨h.1, h.2, h.3, h.4, h.5⟩

/-- Where the searches are attached, a step keeps the held search's connection open exactly
when it does not tear it down. -/
theorem heldOpen_next_iff (h : w.Attached) (e : SmmLabel) :
    (∀ t, w.next e = some t → t.HeldOpen) ↔ w.KeepsHeld e := by
  constructor
  · intro hopen
    cases e with
    | worker r =>
      intro details hpc htears
      by_contra hheld
      apply not_heldOpen_of_tearsDown h htears hheld
      apply hopen
      simp only [next, stepWith, step, hpc, Option.map_some]
    | enqueue _ | search _ | cancelSearch => trivial
  · exact fun hkeeps t hstep => (attached_next h hkeeps hstep).heldOpen

/-- In every run the held search's connection stays open, and every operation on a search is
made on an open connection, exactly when no connect task tears a connection down under a held
search. -/
theorem heldOpen_throughout_iff (positionReportIntervalMs : ℕ) (labels : List SmmLabel) :
    ((∀ es w, es <+: labels → run next (init positionReportIntervalMs) es = some w → w.HeldOpen) ∧
        Along next UsesOpen (init positionReportIntervalMs) labels) ↔
      Along next KeepsHeld (init positionReportIntervalMs) labels := by
  have hinit : (init positionReportIntervalMs).Attached := by
    constructor <;> simp [init, SmmPc.fetching, SmmPc.candidate?]
  have hiff := forall_prefix_iff_of_invariant Attached (fun _ e h => heldOpen_next_iff h e)
    (fun _ _ _ h => attached_next h) hinit hinit.heldOpen labels
  constructor
  · exact fun h => hiff.mp h.1
  · intro hkeeps
    refine ⟨hiff.mpr hkeeps, ?_⟩
    exact along_of_along Attached (fun _ e h _ => h.usesOpen e) (fun _ _ _ h => attached_next h)
      hinit hkeeps

end Smm

/-- A search acquired on one connection, a connect with another host, and the last waypoint. -/
def reconnectThenLastPoint : List SmmLabel :=
  [.enqueue (.connect { host := "a", assetName := "uav" }), .worker {},
    .worker { connection := true, loggedIn := true, assets := some ["uav"] },
    .search {}, .worker {}, .worker {}, .worker {}, .worker { fetched := true }, .worker {},
    .worker { waypoints := some [{}] }, .worker {}, .worker { accepted := true },
    .enqueue (.connect { host := "b", assetName := "uav" }), .worker {},
    .worker { stillConnected := true, connection := true, loggedIn := true,
              assets := some ["uav"] },
    .enqueue (.reachedPoint 1), .worker {}]

/-- The last waypoint completes the search on the closed connection. -/
theorem reconnectThenLastPoint_completes_closed :
    ∃ w t held effects, run Smm.next (.init 1000) reconnectThenLastPoint = some w ∧
      w.step {} = some (t, .complete held :: effects) ∧ held.conn = 0 ∧ w.conn = some 1 ∧
      ¬ w.HeldOpen :=
  ⟨_, _, _, _, rfl, rfl, rfl, rfl, fun hopen => absurd (hopen _ rfl).1 (by decide)⟩

end CapFmu
