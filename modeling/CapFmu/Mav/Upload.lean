import CapFmu.Mav.Calls

/-!
# Acknowledgements of overlapping uploads

An acknowledgement does not say which upload it is about: the connection only knows whether
some upload is pending. The autopilot answers every mission count it received, in order, so
the acknowledgement that arrives first may be about an upload that a later one replaced.

The rule is that only the latest upload's acknowledgement selects an item, engages AUTO or
makes a search loaded, and that a replaced upload's is ignored. It holds exactly as long as
no acknowledgement of a replaced upload is processed while its replacement is pending.
-/

namespace CapFmu

/-- What an upload is about. -/
inductive Upload
  | goto (p : Point)
  | search (q : SmmSearch)
  deriving DecidableEq

/-- The connection, what was written on it, the uploads begun so far, oldest first, and by
their positions those whose acknowledgement is on its way. -/
structure UploadSystem where
  conn : MavConnection
  wire : List WireEntry := []
  uploads : List Upload := []
  inFlight : List ℕ := []

/-- The two commands that upload, an acknowledgement, and the link. -/
inductive UploadLabel
  | commandGoto (p : Point)
  | loadSearch (q : Option SmmSearch)
  | missionAck (accepted : Bool)
  | linkDown
  | linkUp

namespace MavConnection

/-- A written entry holds the packet. -/
theorem packet_of_mem_written {c : MavConnection} {packet : Packet} {writer : Writer}
    {e : WireEntry} (he : e ∈ c.written packet writer) : e.packet = packet := by
  unfold written at he
  split at he
  · exact congrArg WireEntry.packet (List.mem_singleton.mp he)
  · exact absurd he List.not_mem_nil

/-- An upload's return to launch does not engage. -/
theorem engages_commandRtlForUpload {c : MavConnection} {e : WireEntry}
    (he : e ∈ c.commandRtlForUpload.2) : e.packet.engages = false := by
  unfold commandRtlForUpload setResolvedMode at he
  split at he
  · exact absurd he List.not_mem_nil
  · rw [packet_of_mem_written he]
    simp [Packet.engages]

/-- No packet of a goto engages. -/
theorem engages_commandGoto {c : MavConnection} {p : Point} {e : WireEntry}
    (he : e ∈ (c.commandGoto p).2) : e.packet.engages = false := by
  cases List.mem_append.mp he with
  | inl hpreamble => exact engages_commandRtlForUpload hpreamble
  | inr hcount => rw [packet_of_mem_written hcount]; rfl

/-- No packet of a search upload engages. -/
theorem engages_uploadSearch {c : MavConnection} {q : SmmSearch} {e : WireEntry}
    (he : e ∈ (c.uploadSearch q).2) : e.packet.engages = false := by
  cases List.mem_append.mp he with
  | inl hpreamble => exact engages_commandRtlForUpload hpreamble
  | inr hcount => rw [packet_of_mem_written hcount]; rfl

/-- A goto leaves no search loading or loaded. -/
theorem search_commandGoto (c : MavConnection) (p : Point) :
    (c.commandGoto p).1.searchLoading = false ∧ (c.commandGoto p).1.searchLoaded = false := by
  unfold commandGoto commandRtlForUpload setResolvedMode
  cases resolveMode c.autopilotType .rtl <;> dsimp only <;> split <;> exact ⟨rfl, rfl⟩

/-- Selecting items and engaging AUTO changes the deferred mode command alone. -/
theorem selectAndEngage_fst (c : MavConnection) (seqs : List ℕ) :
    (c.selectAndEngage seqs).1 =
      { c with pendingModeCommand := (c.selectAndEngage seqs).1.pendingModeCommand } := by
  induction seqs generalizing c with
  | nil => rfl
  | cons seq rest ih =>
    have hauto : c.commandAuto.1 =
        { c with pendingModeCommand := c.commandAuto.1.pendingModeCommand } := by
      unfold commandAuto setResolvedMode
      cases resolveMode c.autopilotType .autoMode <;> rfl
    simp only [selectAndEngage]
    rw [ih, hauto]

/-- With no upload pending an acknowledgement is ignored. -/
theorem missionAck_of_not_pending {c : MavConnection} (h : c.uploadPending = false)
    (accepted : Bool) : c.missionAck accepted = (c, []) := by
  simp only [missionAck, ackDecision_of_not_pending h, selectAndEngage]

/-- After an acknowledgement no upload is pending. -/
@[simp] theorem uploadPending_missionAck (c : MavConnection) (accepted : Bool) :
    (c.missionAck accepted).1.uploadPending = false := by
  unfold missionAck
  rw [selectAndEngage_fst]
  rfl

/-- A rejected acknowledgement writes nothing. -/
theorem missionAck_rejected_snd (c : MavConnection) : (c.missionAck false).2 = [] := by
  simp [missionAck, ackDecision, selectAndEngage]

end MavConnection

namespace UploadSystem

open Transition

/-- Begin an upload: its call is carried out, and the autopilot will answer its count if that
could be written. -/
def beginUpload (s : UploadSystem) (u : Upload) (call : MavConnection × List WireEntry) :
    UploadSystem :=
  { conn := call.1
    wire := s.wire ++ call.2
    uploads := s.uploads ++ [u]
    inFlight := if call.1.fdOpen then s.inFlight ++ [s.uploads.length] else s.inFlight }

/-- One step. With the link the acknowledgements on their way are lost. -/
def step (s : UploadSystem) : UploadLabel → Option UploadSystem
  | .commandGoto p => some (s.beginUpload (.goto p) (s.conn.commandGoto p))
  | .loadSearch q =>
    match (s.conn.checkReload q).2 with
    | none => some { s with conn := (s.conn.loadSearch q).1 }
    | some reload => some (s.beginUpload (.search reload) (s.conn.loadSearch q))
  | .missionAck accepted =>
    match s.inFlight with
    | [] => none
    | _ :: rest => some { s with
        conn := (s.conn.missionAck accepted).1
        wire := s.wire ++ (s.conn.missionAck accepted).2
        inFlight := rest }
  | .linkDown => some { s with conn := { s.conn with fdOpen := false }, inFlight := [] }
  | .linkUp => some { s with conn := { s.conn with fdOpen := true } }

/-- The latest upload, by position. -/
def Latest (s : UploadSystem) (n : ℕ) : Prop := n + 1 = s.uploads.length

/-- The rule for one step. -/
structure StepCorrelated (s t : UploadSystem) (e : UploadLabel) : Prop where
  engages_latest : ∀ written, t.wire = s.wire ++ written →
    ∀ entry ∈ written, entry.packet.engages = true →
      e = .missionAck true ∧ ∃ n, s.inFlight.head? = some n ∧ s.Latest n
  loaded_acknowledged : s.conn.searchLoaded = false → t.conn.searchLoaded = true →
    e = .missionAck true ∧ ∃ n q, s.inFlight.head? = some n ∧
      s.uploads[n]? = some (.search q) ∧ t.conn.search = some q
  superseded_ignored : ∀ accepted n, e = .missionAck accepted → s.inFlight.head? = some n →
    ¬ s.Latest n → t.conn = s.conn ∧ t.wire = s.wire

/-- The step from a state obeys the rule. -/
def Correlated (s : UploadSystem) (e : UploadLabel) : Prop :=
  ∀ t, s.step e = some t → s.StepCorrelated t e

/-- An acknowledgement that finds an upload pending is about the latest one, and its search was
not taken back by loading none. -/
def AcknowledgesPending (s : UploadSystem) : UploadLabel → Prop
  | .missionAck accepted => ∀ n ∈ s.inFlight.head?, s.conn.uploadPending = true →
      s.Latest n ∧ (accepted = true → s.conn.searchLoading = true → s.conn.search ≠ none)
  | .commandGoto _ | .loadSearch _ | .linkDown | .linkUp => True

instance (s : UploadSystem) (n : ℕ) : Decidable (s.Latest n) := inferInstanceAs (Decidable (_ = _))

instance (s : UploadSystem) : ∀ e, Decidable (s.AcknowledgesPending e)
  | .missionAck _ => inferInstanceAs (Decidable (∀ n ∈ s.inFlight.head?, _ → _))
  | .commandGoto _ | .loadSearch _ | .linkDown | .linkUp => isTrue trivial

/-- A loading search is the latest upload's, unless none was loaded since. -/
structure Tracked (s : UploadSystem) : Prop where
  search_latest : s.conn.searchLoading = true → ∃ q, s.uploads.getLast? = some (.search q) ∧
    (s.conn.search = some q ∨ s.conn.search = none)
  loading_not_loaded : s.conn.searchLoading = true → s.conn.searchLoaded = false

variable {s t : UploadSystem}

/-- A step that is no acknowledgement obeys the rule if its packets do not engage and it makes
no search loaded. -/
theorem stepCorrelated_of_command {e : UploadLabel}
    (hlabel : ∀ accepted, e ≠ .missionAck accepted) {written : List WireEntry}
    (hwire : t.wire = s.wire ++ written) (hwritten : ∀ entry ∈ written, entry.packet.engages = false)
    (hloaded : s.conn.searchLoaded = false → t.conn.searchLoaded = false) :
    s.StepCorrelated t e where
  engages_latest := by
    intro written' hwire' entry hentry hengages
    have hsame : written = written' := List.append_cancel_left (hwire.symm.trans hwire')
    simp [hwritten entry (hsame ▸ hentry)] at hengages
  loaded_acknowledged := by
    intro hs ht
    simp [hloaded hs] at ht
  superseded_ignored := fun accepted _ he => absurd he (hlabel accepted)

/-- A step that is no acknowledgement, writes nothing and makes no search loaded obeys the rule. -/
theorem stepCorrelated_of_unwritten {e : UploadLabel}
    (hlabel : ∀ accepted, e ≠ .missionAck accepted) (hwire : t.wire = s.wire)
    (hloaded : t.conn.searchLoaded = s.conn.searchLoaded) : s.StepCorrelated t e :=
  stepCorrelated_of_command hlabel (hwire.trans (List.append_nil _).symm)
    (fun _ hentry => absurd hentry List.not_mem_nil) hloaded.trans

/-- An ignored acknowledgement obeys the rule. -/
theorem stepCorrelated_of_ignored {e : UploadLabel}
    (hconn : t.conn = s.conn) (hwire : t.wire = s.wire) : s.StepCorrelated t e where
  engages_latest := by
    intro written hwritten entry hentry
    have hnil : written = [] := by
      simpa [hwire] using hwritten
    simp [hnil] at hentry
  loaded_acknowledged := by
    intro hs ht
    simp [hconn, hs] at ht
  superseded_ignored := fun _ _ _ _ _ => ⟨hconn, hwire⟩

/-- What an acknowledgement makes loaded is the search that was loading. -/
theorem loaded_missionAck {c : MavConnection} {accepted : Bool} (hc : c.searchLoaded = false)
    (hloaded : (c.missionAck accepted).1.searchLoaded = true) :
    c.searchLoading = true ∧ accepted = true ∧ (c.missionAck accepted).1.search = c.search := by
  unfold MavConnection.missionAck at hloaded ⊢
  rw [MavConnection.selectAndEngage_fst] at hloaded ⊢
  cases accepted <;> simp_all [MavConnection.ackDecision]

/-- The latest upload's acknowledgement obeys the rule, unless the search it is about was
taken back. -/
theorem stepCorrelated_of_latest (h : s.Tracked) {accepted : Bool} {n : ℕ}
    (hhead : s.inFlight.head? = some n) (hlatest : s.Latest n)
    (hsearch : accepted = true → s.conn.searchLoading = true → s.conn.search ≠ none)
    (hconn : t.conn = (s.conn.missionAck accepted).1)
    (hwire : t.wire = s.wire ++ (s.conn.missionAck accepted).2) :
    s.StepCorrelated t (.missionAck accepted) where
  engages_latest := by
    intro written hwritten entry hentry _
    have hsame : (s.conn.missionAck accepted).2 = written :=
      List.append_cancel_left (hwire.symm.trans hwritten)
    cases accepted with
    | false => simp [← hsame, MavConnection.missionAck_rejected_snd] at hentry
    | true => exact ⟨rfl, n, hhead, hlatest⟩
  loaded_acknowledged := by
    intro hs ht
    rw [hconn] at ht ⊢
    obtain ⟨hloading, haccepted, hkept⟩ := loaded_missionAck hs ht
    obtain ⟨q, hq, hheld⟩ := h.search_latest hloading
    have hsome := hheld.resolve_right (hsearch haccepted hloading)
    have hupload : s.uploads[n]? = some (.search q) := by
      rw [← hq, List.getLast?_eq_getElem?, ← (hlatest : n + 1 = s.uploads.length),
        Nat.add_sub_cancel]
    exact ⟨by rw [haccepted], n, q, hhead, hupload, hkept.trans hsome⟩
  superseded_ignored := by
    intro _ n' _ hhead' hsuperseded
    rw [hhead] at hhead'
    exact absurd (Option.some.inj hhead' ▸ hlatest) hsuperseded

/-- A search load is a check that finds nothing to do, or an upload. -/
theorem step_loadSearch_cases {q : Option SmmSearch}
    (hstep : s.step (.loadSearch q) = some t) :
    (t = { s with conn := { s.conn with search := t.conn.search } } ∧
      (t.conn.search = s.conn.search ∨ t.conn.search = none)) ∨
    ∃ reload, t = s.beginUpload (.search reload)
      (MavConnection.uploadSearch { s.conn with search := some reload } reload) := by
  unfold step at hstep
  by_cases hneeded : s.conn.search ≠ q ∨ s.conn.searchLoaded = false
  · cases q with
    | none =>
      simp only [MavConnection.checkReload, MavConnection.loadSearch, if_pos hneeded,
        Option.some.injEq] at hstep
      subst hstep
      exact .inl ⟨rfl, .inr rfl⟩
    | some reload =>
      simp only [MavConnection.checkReload, MavConnection.loadSearch, if_pos hneeded,
        Option.some.injEq] at hstep
      exact .inr ⟨reload, hstep.symm⟩
  · simp only [MavConnection.checkReload, MavConnection.loadSearch, if_neg hneeded,
      Option.some.injEq] at hstep
    subst hstep
    exact .inl ⟨rfl, .inl rfl⟩

/-- The acknowledgement of an upload is processed once it is the next on its way. -/
theorem step_missionAck {n : ℕ} (hhead : s.inFlight.head? = some n)
    (accepted : Bool) : s.step (.missionAck accepted) = some { s with
      conn := (s.conn.missionAck accepted).1
      wire := s.wire ++ (s.conn.missionAck accepted).2
      inFlight := s.inFlight.tail } := by
  obtain ⟨rest, hrest⟩ := List.head?_eq_some_iff.mp hhead
  simp only [step, hrest, List.tail_cons]

/-- An acknowledgement obeys the rule exactly when, finding an upload pending, it is about the
latest. -/
theorem correlated_missionAck_iff (h : s.Tracked) (accepted : Bool) :
    s.Correlated (.missionAck accepted) ↔ s.AcknowledgesPending (.missionAck accepted) := by
  apply Iff.intro
  · intro hlaw n hhead hpending
    have hstep := hlaw _ (step_missionAck hhead accepted)
    have hlatest : s.Latest n := by
      -- an acknowledgement with an upload pending leaves none pending, so it was not ignored
      by_contra hsuperseded
      have hconn := (hstep.superseded_ignored accepted n rfl hhead hsuperseded).1
      have hnone := MavConnection.uploadPending_missionAck s.conn accepted
      rw [show (s.conn.missionAck accepted).1 = s.conn from hconn, hpending] at hnone
      cases hnone
    refine ⟨hlatest, fun haccepted hloading hsearch => ?_⟩
    have hloaded : (s.conn.missionAck accepted).1.searchLoaded = true := by
      unfold MavConnection.missionAck
      rw [MavConnection.selectAndEngage_fst]
      simp [MavConnection.ackDecision, hloading, haccepted]
    obtain ⟨-, _, q, -, -, hq⟩ :=
      hstep.loaded_acknowledged (h.loading_not_loaded hloading) hloaded
    have hkept := (loaded_missionAck (h.loading_not_loaded hloading) hloaded).2.2
    simp [hkept, hsearch] at hq
  · intro hcond t hstep
    cases hhead : s.inFlight.head? with
    | none => simp [step, List.head?_eq_none_iff.mp hhead] at hstep
    | some n =>
      rw [step_missionAck hhead, Option.some.injEq] at hstep
      cases hpending : s.conn.uploadPending with
      | false =>
        have hignored := MavConnection.missionAck_of_not_pending hpending accepted
        apply stepCorrelated_of_ignored
        · simp [← hstep, hignored]
        · simp [← hstep, hignored]
      | true =>
        obtain ⟨hlatest, hsearch⟩ := hcond n hhead hpending
        exact stepCorrelated_of_latest h hhead hlatest hsearch (by rw [← hstep]) (by rw [← hstep])

/-- Each step obeys the rule exactly when an acknowledgement that finds an upload pending is
about the latest. -/
theorem correlated_iff (h : s.Tracked) (e : UploadLabel) :
    s.Correlated e ↔ s.AcknowledgesPending e := by
  cases e with
  | missionAck accepted => exact correlated_missionAck_iff h accepted
  | commandGoto p =>
    refine ⟨fun _ => trivial, fun _ t hstep => ?_⟩
    cases hstep
    exact stepCorrelated_of_command (by simp) rfl (fun _ => MavConnection.engages_commandGoto)
      fun _ => (MavConnection.search_commandGoto s.conn p).2
  | loadSearch q =>
    refine ⟨fun _ => trivial, fun _ t hstep => ?_⟩
    cases step_loadSearch_cases hstep with
    | inl hchecked =>
      rw [hchecked.1]
      exact stepCorrelated_of_unwritten (by simp) rfl rfl
    | inr hupload =>
      obtain ⟨reload, ht⟩ := hupload
      subst ht
      exact stepCorrelated_of_command (by simp) rfl (fun _ => MavConnection.engages_uploadSearch)
        fun _ => rfl
  | linkDown | linkUp =>
    refine ⟨fun _ => trivial, fun _ t hstep => ?_⟩
    cases hstep
    exact stepCorrelated_of_unwritten (by simp) rfl rfl

/-- Every step keeps track of the loading search. -/
theorem tracked_step (h : s.Tracked) {e : UploadLabel}
    (hstep : s.step e = some t) : t.Tracked := by
  cases e with
  | commandGoto p =>
    cases hstep
    have hsearch := MavConnection.search_commandGoto s.conn p
    exact ⟨fun hloading => absurd hloading (by simp [beginUpload, hsearch.1]), fun _ => hsearch.2⟩
  | loadSearch q =>
    cases step_loadSearch_cases hstep with
    | inl hchecked =>
      rw [hchecked.1]
      refine ⟨fun hloading => ?_, h.loading_not_loaded⟩
      obtain ⟨held, hheld, hsearch⟩ := h.search_latest hloading
      refine ⟨held, hheld, ?_⟩
      cases hchecked.2 with
      | inl hkept => exact hsearch.imp hkept.trans hkept.trans
      | inr hnone => exact .inr hnone
    | inr hupload =>
      obtain ⟨reload, ht⟩ := hupload
      subst ht
      exact ⟨fun _ => ⟨reload, List.getLast?_concat .., .inl rfl⟩, fun _ => rfl⟩
  | missionAck accepted =>
    cases hhead : s.inFlight.head? with
    | none => simp [step, List.head?_eq_none_iff.mp hhead] at hstep
    | some n =>
      rw [step_missionAck hhead, Option.some.injEq] at hstep
      subst hstep
      have hnone := MavConnection.uploadPending_missionAck s.conn accepted
      simp only [MavConnection.uploadPending, Bool.or_eq_false_iff] at hnone
      exact ⟨fun hloading => absurd hloading (by simp [hnone.2]),
        fun hloading => absurd hloading (by simp [hnone.2])⟩
  | linkDown | linkUp =>
    cases hstep
    exact ⟨h.search_latest, h.loading_not_loaded⟩

/-- From a connection with no upload pending, every step of a run obeys the rule exactly when
each acknowledgement that finds an upload pending is about the latest. -/
theorem correlated_throughout_iff (c : MavConnection) (hc : c.uploadPending = false)
    (es : List UploadLabel) :
    Along step Correlated { conn := c } es ↔ Along step AcknowledgesPending { conn := c } es := by
  have hloading : c.searchLoading = false := by
    simp only [MavConnection.uploadPending, Bool.or_eq_false_iff] at hc
    exact hc.2
  have hstart : Tracked { conn := c } :=
    ⟨fun h => absurd h (by simp [hloading]), fun h => absurd h (by simp [hloading])⟩
  exact along_iff_along Tracked (fun s e hs => correlated_iff hs e)
    (fun _ _ _ hs _ hstep => tracked_step hs hstep) hstart es

/-- A search with one point. -/
def sampleSearch : SmmSearch := { id := 7, points := [{}] }

/-- A search replaces a goto whose acknowledgement is still on its way; that acknowledgement
then makes the search loaded and engages AUTO. -/
theorem gotoThenSearch_acknowledged_goto :
    ∃ s, run step { conn := .quadrotor }
        [.commandGoto {}, .loadSearch (some sampleSearch), .missionAck true] = some s ∧
      s.inFlight = [1] ∧ s.conn.searchLoaded = true ∧
      s.wire.map WireEntry.packet = [.setMode .copterRtl, .missionCount 3, .setMode .copterRtl,
        .missionCount 4, .missionSetCurrent 2, .setMode .copterAuto] ∧
      ¬ Along step Correlated { conn := .quadrotor }
        [.commandGoto {}, .loadSearch (some sampleSearch), .missionAck true] := by
  refine ⟨_, rfl, rfl, rfl, by decide, fun h => ?_⟩
  have hack := ((h.2 _ rfl).2 _ rfl).1 _ rfl
  obtain ⟨-, n, hhead, hlatest⟩ := hack.engages_latest
    [⟨.missionSetCurrent 2, .missionAck⟩, ⟨.setMode .copterAuto, .missionAck⟩] rfl
    ⟨.missionSetCurrent 2, .missionAck⟩ List.mem_cons_self rfl
  cases hhead
  exact absurd hlatest (by decide)

/-- When the goto's acknowledgement comes first, every step obeys the rule. -/
theorem gotoThenSearch_acknowledged_in_turn :
    Along step Correlated { conn := .quadrotor } [.commandGoto {}, .missionAck true,
      .loadSearch (some sampleSearch), .missionAck true] := by
  exact (correlated_throughout_iff .quadrotor rfl _).mpr (by decide)

end UploadSystem

end CapFmu
