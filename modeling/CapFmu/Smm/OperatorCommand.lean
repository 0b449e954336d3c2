import CapFmu.Smm.Worker

/-!
# Acting once on an operator command

The library keeps the command of the last answered position report with the asset, and
reports it until another comes in. The worker compares it with the command it saw last, so
that a command is acted on when it is first seen. An asset fetched by a reconnect has no
command until its first report is answered, and the worker takes that for a new command as
well. What it saw last is then no longer the command it has acted on, and the first answer on
the new asset is compared with nothing.
-/

namespace CapFmu

open Transition

/-- The latest of the commands recorded, in the order they were issued. -/
def latestCommand (recorded : List SmmAssetCommand) : SmmAssetCommand :=
  recorded.getLast?.getD .none

/-- A record that comes to end in an abandon has had one added. -/
theorem abandon_mem_drop {recorded : List SmmAssetCommand} {m n : ℕ} (hle : m ≤ n)
    (hm : latestCommand (recorded.take m) ≠ .abandonSearch)
    (hn : latestCommand (recorded.take n) = .abandonSearch) :
    SmmAssetCommand.abandonSearch ∈ recorded.drop m := by
  have hsplit : recorded.take n = recorded.take m ++ (recorded.drop m).take (n - m) := by
    rw [← List.take_add, Nat.add_sub_cancel' hle]
  cases hlast : ((recorded.drop m).take (n - m)).getLast? with
  | none =>
    rw [hsplit, List.getLast?_eq_none_iff.mp hlast, List.append_nil] at hn
    exact absurd hn hm
  | some command =>
    rw [hsplit, latestCommand, List.getLast?_append, hlast] at hn
    obtain rfl : command = .abandonSearch := hn
    exact List.mem_of_mem_take (List.mem_of_getLast? hlast)

/-- The search client and the server's record of the operator's commands. It also counts the
commands that were recorded when the asset at hand last had a report answered and when a search
was last abandoned, and notes whether such an answer has been looked at. -/
structure OperatedSmm where
  smm : Smm
  recorded : List SmmAssetCommand := []
  answered : Option ℕ := none
  read : Bool := false
  droppedAt : Option ℕ := none

/-- What can happen: the steps of the search client, where a report is answered or not, and a
command from the operator. -/
inductive OperatedLabel
  | worker (r : SmmReply) (answers : Bool)
  | enqueue (task : SmmTask)
  | search (pos : Point)
  | cancelSearch
  | record (command : SmmAssetCommand)

namespace OperatedSmm

/-- What the library reports as the asset's last command. -/
def lastOperatorCommand (s : OperatedSmm) (r : SmmReply) : SmmAssetCommand :=
  match s.answered with
  | none => if r.lastCommand = .none then .none else .unknown
  | some n => latestCommand (s.recorded.take n)

/-- The reply to a section of the worker, with the command the library reports. -/
def reply (s : OperatedSmm) (r : SmmReply) : SmmReply :=
  { r with lastCommand := s.lastOperatorCommand r }

/-- The answer on hand after a section of the worker that keeps the asset. -/
def answeredAfter (s : OperatedSmm) (answers : Bool) : Option ℕ :=
  match s.smm.pc with
  | .sendReport _ _ => if answers then some s.recorded.length else s.answered
  | _ => s.answered

/-- Whether an answer has been looked at after a section of the worker that keeps the asset. -/
def readAfter (s : OperatedSmm) : Bool :=
  match s.smm.pc with
  | .checkOperatorCommand _ _ => s.answered.isSome
  | _ => s.read

/-- What is known after a section of the worker. A new asset has no answers. -/
def afterSection (s : OperatedSmm) (answers : Bool) (w : Smm) (effects : List SmmEffect) :
    OperatedSmm where
  smm := w
  recorded := s.recorded
  answered := if w.asset = s.smm.asset then s.answeredAfter answers else none
  read := if w.asset = s.smm.asset then s.readAfter else false
  droppedAt :=
    if .operatorCommandCb .cmdAbandonSearch ∈ effects then some s.recorded.length
    else s.droppedAt

/-- One step, with what the worker did. -/
def stepWith (s : OperatedSmm) : OperatedLabel → Option (OperatedSmm × List SmmEffect)
  | .worker r answers =>
    (s.smm.step (s.reply r)).map fun (w, effects) =>
      (s.afterSection answers w effects, effects)
  | .enqueue task => some ({ s with smm := s.smm.enqueue task }, [])
  | .search pos => some ({ s with smm := s.smm.search pos }, [])
  | .cancelSearch => some ({ s with smm := s.smm.cancelSearch }, [])
  | .record command => some ({ s with recorded := s.recorded ++ [command] }, [])

/-- One step of the search client and the operator. -/
def next (s : OperatedSmm) (e : OperatedLabel) : Option OperatedSmm := (s.stepWith e).map Prod.fst

/-- A search client as it is constructed. -/
def init (positionReportIntervalMs : ℕ) : OperatedSmm := { smm := .init positionReportIntervalMs }

/-- The operator has abandoned a search since one was last dropped. -/
def AbandonedAnew (s : OperatedSmm) : Prop :=
  ∀ k, s.droppedAt = some k → .abandonSearch ∈ s.recorded.drop k

/-- The held search is dropped on a new abandon only. -/
def ActsOnce (s : OperatedSmm) (e : OperatedLabel) : Prop :=
  ∀ t effects, s.stepWith e = some (t, effects) →
    .operatorCommandCb .cmdAbandonSearch ∈ effects → s.AbandonedAnew

/-- If the first answer that is looked at on an asset is an abandon, there has been a new one. -/
def FirstAnswerNew (s : OperatedSmm) : OperatedLabel → Prop
  | .worker _ _ => ∀ pd nowMs n, s.smm.pc = .checkOperatorCommand pd nowMs → s.read = false →
      s.answered = some n → latestCommand (s.recorded.take n) = .abandonSearch → s.AbandonedAnew
  | .enqueue _ | .search _ | .cancelSearch | .record _ => True

/-- What is known of the last answer and the last drop. The command seen last is an abandon
again only if one was added, since what was looked at before is no older than the drop. -/
structure Tracked (s : OperatedSmm) : Prop where
  dropped_le : ∀ k, s.droppedAt = some k → k ≤ s.recorded.length
  answered_le : ∀ n, s.answered = some n → n ≤ s.recorded.length
  answered_since : ∀ k n, s.droppedAt = some k → s.answered = some n →
    k ≤ n ∨ latestCommand (s.recorded.take n) = .abandonSearch
  unread : s.read = false → (s.answered.isSome = true ∨ ∃ pd nowMs, s.smm.pc = .sendReport pd nowMs) →
    s.smm.lastSeenOperatorCommand ≠ .abandonSearch
  seen_since : s.read = true → s.smm.lastSeenOperatorCommand ≠ .abandonSearch →
    ∀ k, s.droppedAt = some k → ∃ m, k ≤ m ∧ m ≤ s.recorded.length ∧
      latestCommand (s.recorded.take m) ≠ .abandonSearch ∧ ∀ n, s.answered = some n → m ≤ n

/-- No task starts with sending a report. -/
theorem entry_ne_sendReport (task : SmmTask) (pd : PositionData) (nowMs : ℕ) :
    task.entry ≠ .sendReport pd nowMs := by
  cases task <;> rintro ⟨⟩

section Sections

variable {w v : Smm} {r : SmmReply} {effects : List SmmEffect}

/-- A check notes the command, and acts on an abandon that it has not seen last. -/
theorem step_check {pd : PositionData} {nowMs : ℕ} (hpc : w.pc = .checkOperatorCommand pd nowMs)
    (hstep : w.step r = some (v, effects)) :
    v.asset = w.asset ∧ v.pc = .sendReport pd nowMs ∧ v.lastSeenOperatorCommand = r.lastCommand ∧
      (.operatorCommandCb .cmdAbandonSearch ∈ effects ↔
        r.lastCommand = .abandonSearch ∧ w.lastSeenOperatorCommand ≠ .abandonSearch) := by
  simp only [Smm.step, hpc, Option.some.injEq, Prod.mk.injEq] at hstep
  obtain ⟨rfl, rfl⟩ := hstep
  unfold Smm.checkOperatorCommand
  grind

/-- Sections other than the check neither note a command nor act on one, and no report follows them.
-/
theorem step_unchecked (hpc : ∀ pd nowMs, w.pc ≠ .checkOperatorCommand pd nowMs)
    (hstep : w.step r = some (v, effects)) :
    v.lastSeenOperatorCommand = w.lastSeenOperatorCommand ∧
      (∀ pd nowMs, v.pc ≠ .sendReport pd nowMs) ∧
      .operatorCommandCb .cmdAbandonSearch ∉ effects := by
  unfold Smm.step at hstep
  split at hstep <;> grind [Smm.doConnect_frame, Smm.close_of_mem_doConnect,
    Smm.doReachedPoint, entry_ne_sendReport, Option.map_eq_some_iff]

end Sections

variable {s t : OperatedSmm}

/-- An asset with no answers has no abandon to report. -/
theorem lastOperatorCommand_of_fresh (h : s.answered = none) (r : SmmReply) :
    s.lastOperatorCommand r ≠ .abandonSearch := by
  simp only [lastOperatorCommand, h]
  split_ifs <;> decide

theorem lastOperatorCommand_of_answered {n : ℕ} (h : s.answered = some n) (r : SmmReply) :
    s.lastOperatorCommand r = latestCommand (s.recorded.take n) := by
  simp only [lastOperatorCommand, h]

/-- A command read as an abandon, while another was seen before from the same asset, is a new
one. -/
theorem Tracked.abandonedAnew (h : s.Tracked) {n : ℕ} (hread : s.read = true)
    (hseen : s.smm.lastSeenOperatorCommand ≠ .abandonSearch) (hanswered : s.answered = some n)
    (habandon : latestCommand (s.recorded.take n) = .abandonSearch) : s.AbandonedAnew := by
  intro k hk
  obtain ⟨m, hkm, -, hm, hn⟩ := h.seen_since hread hseen k hk
  have hmem := abandon_mem_drop (hn n hanswered) hm habandon
  exact (List.drop_subset_drop_left s.recorded hkm) hmem

/-- Where the last answer and drop are tracked, a step drops a search on a new abandon only
exactly when a first answer is a new abandon or none. -/
theorem actsOnce_iff (h : s.Tracked) (e : OperatedLabel) : s.ActsOnce e ↔ s.FirstAnswerNew e := by
  cases e with
  | worker r answers =>
    constructor
    · intro hacts pd nowMs n hpc hread hanswered habandon
      have hcommand := lastOperatorCommand_of_answered hanswered r
      have hseen := h.unread hread (Or.inl (by rw [hanswered]; rfl))
      obtain ⟨⟨w, effects⟩, hstep⟩ : ∃ next, s.smm.step (s.reply r) = some next := by
        simp only [Smm.step, hpc]
        exact ⟨_, rfl⟩
      apply hacts (s.afterSection answers w effects) effects
      · simp only [stepWith, hstep, Option.map_some]
      · exact (step_check hpc hstep).2.2.2.mpr ⟨hcommand.trans habandon, hseen⟩
    · intro hfirst t effects hstep hdrops
      obtain ⟨⟨w, sectionEffects⟩, hsection, heq⟩ := Option.map_eq_some_iff.mp hstep
      obtain ⟨-, rfl⟩ := Prod.mk.inj heq
      by_cases hcheck : ∃ pd nowMs, s.smm.pc = .checkOperatorCommand pd nowMs
      · obtain ⟨pd, nowMs, hpc⟩ := hcheck
        obtain ⟨hcommand, hseen⟩ := (step_check hpc hsection).2.2.2.mp hdrops
        cases hanswered : s.answered with
        | none => exact absurd hcommand (lastOperatorCommand_of_fresh hanswered r)
        | some n =>
          have habandon := (lastOperatorCommand_of_answered hanswered r).symm.trans hcommand
          cases hread : s.read with
          | false => exact hfirst pd nowMs n hpc hread hanswered habandon
          | true => exact h.abandonedAnew hread hseen hanswered habandon
      · have hpc : ∀ pd nowMs, s.smm.pc ≠ .checkOperatorCommand pd nowMs :=
          fun pd nowMs hpc => hcheck ⟨pd, nowMs, hpc⟩
        exact absurd hdrops (step_unchecked hpc hsection).2.2
  | enqueue _ | search _ | cancelSearch | record _ =>
    refine iff_of_true (fun t effects hstep hdrops => ?_) trivial
    obtain ⟨-, rfl⟩ := Prod.mk.inj (Option.some.inj hstep)
    exact absurd hdrops List.not_mem_nil

/-- A check keeps track: what it reads is now what was seen last. -/
theorem tracked_check (h : s.Tracked) {pd : PositionData} {nowMs : ℕ} {r : SmmReply} {w : Smm}
    {effects : List SmmEffect} (answers : Bool) (hpc : s.smm.pc = .checkOperatorCommand pd nowMs)
    (hstep : s.smm.step (s.reply r) = some (w, effects)) :
    (s.afterSection answers w effects).Tracked := by
  obtain ⟨hasset, -, hseen, hdrops⟩ := step_check hpc hstep
  have hanswered : (s.afterSection answers w effects).answered = s.answered := by
    simp only [afterSection, if_pos hasset, answeredAfter, hpc]
  have hread : (s.afterSection answers w effects).read = s.answered.isSome := by
    simp only [afterSection, if_pos hasset, readAfter, hpc]
  have hdropped (k : ℕ) (hk : (s.afterSection answers w effects).droppedAt = some k) :
      (s.droppedAt = some k ∨
        (k = s.recorded.length ∧ s.lastOperatorCommand r = .abandonSearch)) := by
    by_cases hact : .operatorCommandCb .cmdAbandonSearch ∈ effects
    · simp only [afterSection, if_pos hact, Option.some.injEq] at hk
      exact Or.inr ⟨hk.symm, (hdrops.mp hact).1⟩
    · simp only [afterSection, if_neg hact] at hk
      exact Or.inl hk
  constructor
  · intro k hk
    rcases hdropped k hk with hbefore | ⟨rfl, -⟩
    · exact h.dropped_le k hbefore
    · exact le_rfl
  · rw [hanswered]
    exact h.answered_le
  · rw [hanswered]
    intro k n hk hn
    rcases hdropped k hk with hbefore | ⟨-, hcommand⟩
    · exact h.answered_since k n hbefore hn
    · exact Or.inr ((lastOperatorCommand_of_answered hn r).symm.trans hcommand)
  · rw [hread]
    intro hfresh _
    have hnone : s.answered = none := Option.not_isSome_iff_eq_none.mp (by rw [hfresh]; decide)
    exact hseen.trans_ne (lastOperatorCommand_of_fresh hnone r)
  · rw [hread]
    intro hsome hother k hk
    obtain ⟨n, hn⟩ := Option.isSome_iff_exists.mp hsome
    have hcommand := lastOperatorCommand_of_answered hn r
    have hne : latestCommand (s.recorded.take n) ≠ .abandonSearch := by
      rw [← hcommand]
      exact hseen.symm.trans_ne hother
    rcases hdropped k hk with hbefore | ⟨-, habandon⟩
    · refine ⟨n, ?_, h.answered_le n hn, hne, ?_⟩
      · exact (h.answered_since k n hbefore hn).resolve_right hne
      · rw [hanswered, hn]
        intro m hm
        exact (Option.some.inj hm).le
    · exact absurd (hcommand.symm.trans habandon) hne

/-- Where the last answer is the one on hand, or there is none on a new asset, it is tracked as
before. -/
theorem Tracked.congr (h : s.Tracked) (hrecorded : t.recorded = s.recorded)
    (hdropped : t.droppedAt = s.droppedAt)
    (hseen : t.smm.lastSeenOperatorCommand = s.smm.lastSeenOperatorCommand)
    (hanswers : (t.answered = s.answered ∧ t.read = s.read) ∨ (t.answered = none ∧ t.read = false))
    (hsend : ∀ pd nowMs, t.smm.pc = .sendReport pd nowMs →
      s.smm.pc = .sendReport pd nowMs ∧ t.read = s.read) : t.Tracked := by
  have hanswered (n : ℕ) (hn : t.answered = some n) : s.answered = some n := by
    rcases hanswers with ⟨heq, -⟩ | ⟨heq, -⟩
    · exact heq ▸ hn
    · exact absurd (heq.symm.trans hn) (by simp)
  constructor
  · rw [hdropped, hrecorded]
    exact h.dropped_le
  · rw [hrecorded]
    exact fun n hn => h.answered_le n (hanswered n hn)
  · rw [hdropped, hrecorded]
    exact fun k n hk hn => h.answered_since k n hk (hanswered n hn)
  · rw [hseen]
    rintro hread (hsome | ⟨pd, nowMs, hpc⟩)
    · rcases hanswers with ⟨heq, hsame⟩ | ⟨heq, -⟩
      · exact h.unread (hsame ▸ hread) (Or.inl (heq ▸ hsome))
      · rw [heq] at hsome
        exact absurd hsome (by decide)
    · obtain ⟨hsending, hsame⟩ := hsend pd nowMs hpc
      exact h.unread (hsame ▸ hread) (Or.inr ⟨pd, nowMs, hsending⟩)
  · rw [hseen, hdropped, hrecorded]
    intro hread hother k hk
    rcases hanswers with ⟨-, hsame⟩ | ⟨-, hfresh⟩
    · obtain ⟨m, hkm, hm, hne, hle⟩ := h.seen_since (hsame ▸ hread) hother k hk
      exact ⟨m, hkm, hm, hne, fun n hn => hle n (hanswered n hn)⟩
    · exact absurd (hfresh.symm.trans hread) (by decide)

/-- An answer to a report is newer than what was tracked. -/
theorem Tracked.answer (h : s.Tracked) (hrecorded : t.recorded = s.recorded)
    (hdropped : t.droppedAt = s.droppedAt)
    (hseen : t.smm.lastSeenOperatorCommand = s.smm.lastSeenOperatorCommand)
    (hanswered : t.answered = some s.recorded.length) (hread : t.read = s.read)
    (hsend : ∃ pd nowMs, s.smm.pc = .sendReport pd nowMs) : t.Tracked := by
  constructor
  · rw [hdropped, hrecorded]
    exact h.dropped_le
  · rw [hanswered, hrecorded]
    intro n hn
    exact (Option.some.inj hn).ge
  · rw [hdropped, hanswered]
    intro k n hk hn
    exact Or.inl ((h.dropped_le k hk).trans (Option.some.inj hn).le)
  · rw [hseen, hread]
    exact fun hfresh _ => h.unread hfresh (Or.inr hsend)
  · rw [hseen, hdropped, hrecorded, hread, hanswered]
    intro hsome hother k hk
    obtain ⟨m, hkm, hm, hne, -⟩ := h.seen_since hsome hother k hk
    exact ⟨m, hkm, hm, hne, fun n hn => hm.trans (Option.some.inj hn).le⟩

/-- A section that is no check keeps track. -/
theorem tracked_unchecked (h : s.Tracked) {r : SmmReply} {w : Smm} {effects : List SmmEffect}
    (answers : Bool) (hpc : ∀ pd nowMs, s.smm.pc ≠ .checkOperatorCommand pd nowMs)
    (hstep : s.smm.step (s.reply r) = some (w, effects)) :
    (s.afterSection answers w effects).Tracked := by
  obtain ⟨hseen, hnext, hquiet⟩ := step_unchecked hpc hstep
  have hrecorded : (s.afterSection answers w effects).recorded = s.recorded := rfl
  have hdropped : (s.afterSection answers w effects).droppedAt = s.droppedAt := if_neg hquiet
  have hsend (pd : PositionData) (nowMs : ℕ) (hsending : w.pc = .sendReport pd nowMs) :
      s.smm.pc = .sendReport pd nowMs ∧ (s.afterSection answers w effects).read = s.read :=
    absurd hsending (hnext pd nowMs)
  by_cases hasset : w.asset = s.smm.asset
  · have hread : (s.afterSection answers w effects).read = s.read := by
      simp only [afterSection, if_pos hasset, readAfter]
    by_cases hsending : answers = true ∧ ∃ pd nowMs, s.smm.pc = .sendReport pd nowMs
    · obtain ⟨hanswers, pd, nowMs, hreport⟩ := hsending
      refine h.answer hrecorded hdropped hseen ?_ hread ⟨pd, nowMs, hreport⟩
      simp only [afterSection, if_pos hasset, answeredAfter, hreport, hanswers, if_true]
    · refine h.congr hrecorded hdropped hseen (Or.inl ⟨?_, hread⟩) hsend
      simp only [afterSection, if_pos hasset, answeredAfter]
      grind
  · exact h.congr hrecorded hdropped hseen (Or.inr ⟨if_neg hasset, if_neg hasset⟩) hsend

/-- A new command keeps track: it is recorded after everything tracked. -/
theorem tracked_record (h : s.Tracked) (command : SmmAssetCommand) :
    Tracked { s with recorded := s.recorded ++ [command] } := by
  have hlength : s.recorded.length ≤ (s.recorded ++ [command]).length := by simp
  have htake (n : ℕ) (hn : n ≤ s.recorded.length) :
      (s.recorded ++ [command]).take n = s.recorded.take n := List.take_append_of_le_length hn
  constructor
  · exact fun k hk => (h.dropped_le k hk).trans hlength
  · exact fun n hn => (h.answered_le n hn).trans hlength
  · intro k n hk hn
    rw [htake n (h.answered_le n hn)]
    exact h.answered_since k n hk hn
  · exact h.unread
  · intro hread hother k hk
    obtain ⟨m, hkm, hm, hne, hle⟩ := h.seen_since hread hother k hk
    exact ⟨m, hkm, hm.trans hlength, by rwa [htake m hm], hle⟩

/-- Every step keeps track. -/
theorem tracked_next (h : s.Tracked) {e : OperatedLabel} (hstep : s.next e = some t) :
    t.Tracked := by
  obtain ⟨⟨u, effects⟩, hwith, rfl⟩ := Option.map_eq_some_iff.mp hstep
  cases e with
  | worker r answers =>
    obtain ⟨⟨w, sectionEffects⟩, hsection, heq⟩ := Option.map_eq_some_iff.mp hwith
    obtain ⟨rfl, rfl⟩ := Prod.mk.inj heq
    by_cases hcheck : ∃ pd nowMs, s.smm.pc = .checkOperatorCommand pd nowMs
    · obtain ⟨pd, nowMs, hpc⟩ := hcheck
      exact tracked_check h answers hpc hsection
    · exact tracked_unchecked h answers (fun pd nowMs hpc => hcheck ⟨pd, nowMs, hpc⟩) hsection
  | enqueue task =>
    obtain ⟨rfl, -⟩ := Prod.mk.inj (Option.some.inj hwith)
    exact h.congr rfl rfl (s.smm.lastSeenOperatorCommand_enqueue task) (Or.inl ⟨rfl, rfl⟩)
      fun pd nowMs hsend => ⟨(s.smm.pc_enqueue task).symm.trans hsend, rfl⟩
  | search pos =>
    obtain ⟨rfl, -⟩ := Prod.mk.inj (Option.some.inj hwith)
    have hseen := Smm.lastSeenOperatorCommand_enqueue { s.smm with searchActive := true } (.search pos)
    have hpc := Smm.pc_enqueue { s.smm with searchActive := true } (.search pos)
    exact h.congr rfl rfl hseen (Or.inl ⟨rfl, rfl⟩) fun pd nowMs hsend =>
      ⟨hpc.symm.trans hsend, rfl⟩
  | cancelSearch =>
    obtain ⟨rfl, -⟩ := Prod.mk.inj (Option.some.inj hwith)
    exact h.congr rfl rfl rfl (Or.inl ⟨rfl, rfl⟩) fun pd nowMs hsend => ⟨hsend, rfl⟩
  | record command =>
    obtain ⟨rfl, -⟩ := Prod.mk.inj (Option.some.inj hwith)
    exact tracked_record h command

/-- In every run a search is dropped on an abandon that is new since the last drop, exactly when
the first answer that is looked at on an asset is never an abandon from before that drop. -/
theorem actsOnce_along_iff (positionReportIntervalMs : ℕ) (labels : List OperatedLabel) :
    Along next ActsOnce (init positionReportIntervalMs) labels ↔
      Along next FirstAnswerNew (init positionReportIntervalMs) labels := by
  have hinit : (init positionReportIntervalMs).Tracked := by
    constructor <;> simp [init, Smm.init]
  exact along_iff_along Tracked (fun _ e h => actsOnce_iff h e)
    (fun _ _ _ h _ => tracked_next h) hinit labels

end OperatedSmm

/-- A connect task that makes a connection with its asset. -/
def connected : List OperatedLabel :=
  [.enqueue (.connect { assetName := "uav" }), .worker {} false,
    .worker { connection := true, loggedIn := true, assets := some ["uav"] } false]

/-- A position report up to its answer. -/
def reportedAt (nowMs : ℕ) : List OperatedLabel :=
  [.enqueue (.reportPosition {}), .worker {} false, .worker { nowMs := nowMs } false,
    .worker {} false, .worker {} true]

/-- An acquisition, from the clock on. -/
def acquiredAt (nowMs : ℕ) : List OperatedLabel :=
  [.worker { nowMs := nowMs } false, .worker { fetched := true } false, .worker {} false,
    .worker { waypoints := some [{}] } false, .worker {} false, .worker { accepted := true } false]

/-- One abandon, two drops: a search is held when the operator abandons it, and after a failed
acquisition and a reconnect another one is held. -/
def abandonedThenReconnect : List OperatedLabel :=
  connected ++ [OperatedLabel.search {}, .worker {} false, .worker {} false] ++ acquiredAt 0 ++
    [OperatedLabel.record .abandonSearch] ++ reportedAt 1000 ++ [OperatedLabel.worker {} false] ++
    reportedAt 2000 ++
    [OperatedLabel.worker {} false, .worker { nowMs := 2000 } false, .worker {} false,
      .worker {} false, .worker { nowMs := 2000 } false] ++
    connected ++ reportedAt 8000 ++ [OperatedLabel.worker {} false] ++ acquiredAt 8000 ++
    (reportedAt 9000).take 3

/-- The search held after the reconnect is dropped on the abandon that dropped the one before. -/
theorem abandonedThenReconnect_drops_again :
    ∃ s held t effects,
      run OperatedSmm.next (.init 1000) abandonedThenReconnect = some s ∧
      s.recorded = [.abandonSearch] ∧ s.droppedAt = some 1 ∧ s.smm.currentSearch = some held ∧
      s.stepWith (.worker {} false) =
        some (t, .publish none :: .operatorCommandCb .cmdAbandonSearch :: effects) ∧
      ¬ s.ActsOnce (.worker {} false) := by
  refine ⟨_, _, _, _, rfl, rfl, rfl, rfl, rfl, fun hacts => ?_⟩
  have hnew := hacts _ _ rfl (by decide) 1 rfl
  exact absurd hnew (by decide)

end CapFmu
