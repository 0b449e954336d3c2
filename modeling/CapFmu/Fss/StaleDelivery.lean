import CapFmu.Fss.CommandAckGroup

/-!
# Older commands that arrive late

A delivery older than the active command is to be answered as stale. Two openings remain.
A connection that already reported an id for the active group reports another one with the
older command, which is then taken for an operator retry. And without any ids, a repeat of
the active command from before the window opens the group again at its older timestamp,
behind which commands that were stale before count as new.
-/

namespace CapFmu

open Transition

namespace CommandAckGroup

variable {Key Target : Type*} [DecidableEq Key]

/-- An older and different delivery is answered as stale and leaves the group alone. -/
def RejectsStale (g : CommandAckGroup Key Target) (e : Event Key Target) : Prop :=
  ∀ d, e = .deliver d → g.active = true → g.sameLogicalCommand d = false →
    d.timestamp < g.timestamp →
    (g.onDelivery d).2.disposition = .staleSuperseded ∧ (g.onDelivery d).1 = g

/-- An older and different delivery carries no id, or comes from a connection that has
reported none but this one for the active group. -/
def ReportsNoFreshId (g : CommandAckGroup Key Target) (e : Event Key Target) : Prop :=
  ∀ d, e = .deliver d → g.active = true → g.sameLogicalCommand d = false →
    d.timestamp < g.timestamp →
    d.serverCommandId = 0 ∨
      ∀ seen, g.lastIdByConnection d.connectionKey = some seen → seen = d.serverCommandId

/-- A group rejects a stale delivery exactly when it does not read as a retry. -/
theorem rejectsStale_iff (g : CommandAckGroup Key Target) (e : Event Key Target) :
    g.RejectsStale e ↔ g.ReportsNoFreshId e := by
  refine forall_congr' fun d => imp_congr_right fun _ => imp_congr_right fun hactive =>
    imp_congr_right fun hdifferent => imp_congr_right fun holder => ?_
  rw [← deliberateRetry_eq_false hactive]
  obtain ⟨-, hsame, -⟩ | ⟨-, -, hretry, -, hanswer⟩ | ⟨-, hstale, hanswer⟩ := g.onDelivery_cases d
  · exact absurd hsame (by simp [hdifferent])
  · rw [hanswer]
    exact ⟨fun _ => hretry, fun _ => ⟨rfl, rfl⟩⟩
  · rw [hanswer]
    refine ⟨fun hreject => absurd hreject.1 (by simp [openGroup]), fun hretry => ?_⟩
    exact absurd ⟨hactive, hdifferent, hretry, holder⟩ hstale

/-- In every history a group rejects each stale delivery exactly when none of them brings a
fresh id from a connection already seen for the command it is older than. -/
theorem rejectsStale_throughout_iff (toleranceMs : ℕ) (events : List (Event Key Target)) :
    Along step RejectsStale (CommandAckGroup.new toleranceMs) events ↔
      Along step ReportsNoFreshId (CommandAckGroup.new toleranceMs) events :=
  along_iff_along (fun _ => True) (fun g e _ => g.rejectsStale_iff e)
    (fun _ _ _ _ _ _ => trivial) trivial events

/-- Two servers deliver a hold, and the slower one then an older termination. -/
def laggingTermination : List (Event String ℕ) :=
  [.deliver { command := 5, timestamp := 2000, copy := 1, serverCommandId := 10,
              connectionKey := "a:8081" },
    .deliver { command := 5, timestamp := 2000, copy := 2, serverCommandId := 20,
               connectionKey := "b:8081" },
    .deliver { command := 9, timestamp := 1000, copy := 3, serverCommandId := 19,
               connectionKey := "b:8081" }]

/-- The older termination is actuated. -/
theorem laggingTermination_actuated :
    ∃ g d, run step (new commandDedupToleranceMs) (laggingTermination.take 2) = some g ∧
      laggingTermination[2]? = some (.deliver d) ∧ g.active = true ∧
      g.sameLogicalCommand d = false ∧ d.timestamp < g.timestamp ∧
      (g.onDelivery d).2.disposition = .actuate :=
  ⟨_, _, rfl, rfl, by decide, by decide, by decide, by decide⟩

end CommandAckGroup

/-- A group with the timestamps of the deliveries it answered with an actuation, in order. -/
structure ObservedGroup (Key Target : Type*) where
  group : CommandAckGroup Key Target
  actuated : List ℕ := []

namespace ObservedGroup

variable {Key Target : Type*} [DecidableEq Key]

/-- Observe the answer to one delivery. -/
def deliver (s : ObservedGroup Key Target) (d : Delivery Key Target) : ObservedGroup Key Target :=
  { group := (s.group.onDelivery d).1
    actuated :=
      if (s.group.onDelivery d).2.disposition = .actuate then s.actuated ++ [d.timestamp]
      else s.actuated }

/-- The group is the one that answered. -/
theorem deliver_group (s : ObservedGroup Key Target) (d : Delivery Key Target) :
    (s.deliver d).group = (s.group.onDelivery d).1 := rfl

/-- The history grows with an actuation. -/
theorem deliver_actuated (s : ObservedGroup Key Target) (d : Delivery Key Target) :
    (s.deliver d).actuated =
      if (s.group.onDelivery d).2.disposition = .actuate then s.actuated ++ [d.timestamp]
      else s.actuated := rfl

/-- A delivery of a peer that reports no command ids. -/
def withoutId (d : Delivery Key Target) : Delivery Key Target := { d with serverCommandId := 0 }

/-- The calls of peers that report no ids. -/
def legacyStep (s : ObservedGroup Key Target) :
    CommandAckGroup.Event Key Target → Option (ObservedGroup Key Target)
  | .deliver d => some (s.deliver (withoutId d))
  | .resolve epoch res =>
    (s.group.step (.resolve epoch res)).map fun group => { s with group := group }

/-- The timestamps of the actuated deliveries never decrease. -/
def ActuatesInOrder (s : ObservedGroup Key Target) : Prop := s.actuated.Pairwise (· ≤ ·)

/-- An older repeat of the active command is within the window. -/
def RepeatsInWindow (s : ObservedGroup Key Target) (e : CommandAckGroup.Event Key Target) : Prop :=
  ∀ d, e = .deliver d → s.group.active = true → s.group.sameLogicalCommand d = true →
    d.timestamp < s.group.timestamp → s.group.timestamp < d.timestamp + s.group.toleranceMs

/-- Before the first command nothing was actuated, and since then the active command is the
last of an ordered history. -/
def LastIsActive (s : ObservedGroup Key Target) : Prop :=
  (s.group.active = false → s.actuated = []) ∧
    (s.group.active = true → s.group.timestamp ∈ s.actuated ∧
      ∀ t ∈ s.actuated, t ≤ s.group.timestamp) ∧
    s.ActuatesInOrder

omit [DecidableEq Key] in
/-- Without an id no delivery reads as a retry. -/
theorem deliberateRetry_withoutId (g : CommandAckGroup Key Target) (d : Delivery Key Target) :
    g.deliberateRetry (withoutId d) = false := by
  simp [CommandAckGroup.deliberateRetry, withoutId]

/-- A delivery leaves the active command and the history alone, or is actuated. -/
theorem deliver_cases (s : ObservedGroup Key Target) (d : Delivery Key Target) :
    ((s.deliver d).group.active = s.group.active ∧
        (s.deliver d).group.timestamp = s.group.timestamp ∧
        (s.deliver d).actuated = s.actuated) ∨
      ((s.deliver d).group.active = true ∧ (s.deliver d).group.timestamp = d.timestamp ∧
        (s.deliver d).actuated = s.actuated ++ [d.timestamp] ∧
        (s.group.onDelivery d) = s.group.openGroup d) := by
  obtain ⟨-, -, -, -, h⟩ | ⟨-, -, -, -, h⟩ | ⟨-, -, h⟩ := s.group.onDelivery_cases d
  · left
    rw [deliver_group, deliver_actuated, h, if_neg (CommandAckGroup.joinGroup_disposition _ _),
      CommandAckGroup.joinGroup_fst]
    exact ⟨rfl, rfl, rfl⟩
  · left
    rw [deliver_group, deliver_actuated, h]
    exact ⟨rfl, rfl, rfl⟩
  · right
    rw [deliver_group, deliver_actuated, h]
    exact ⟨rfl, rfl, rfl, rfl⟩

omit [DecidableEq Key] in
/-- An actuated delivery keeps the order exactly when it is no older than the active
command. -/
theorem actuatesInOrder_append_iff {s : ObservedGroup Key Target} (hinv : s.LastIsActive)
    {t : ℕ} : (s.actuated ++ [t]).Pairwise (· ≤ ·) ↔
      (s.group.active = true → s.group.timestamp ≤ t) := by
  rw [List.pairwise_append]
  refine ⟨fun h hactive => h.2.2 _ (hinv.2.1 hactive).1 t (by simp), fun h => ?_⟩
  refine ⟨hinv.2.2, List.pairwise_singleton _ _, fun a ha b hb => ?_⟩
  obtain rfl := List.mem_singleton.mp hb
  cases hactive : s.group.active with
  | false => simp [hinv.1 hactive] at ha
  | true => exact ((hinv.2.1 hactive).2 a ha).trans (h hactive)

/-- From an ordered history, a delivery without an id keeps the order exactly when it is not
a repeat of the active command from before the window. -/
theorem actuatesInOrder_deliver_iff {s : ObservedGroup Key Target} (hinv : s.LastIsActive)
    (d : Delivery Key Target) :
    (s.deliver (withoutId d)).ActuatesInOrder ↔ s.RepeatsInWindow (.deliver d) := by
  have hretry := deliberateRetry_withoutId s.group d
  have hsame : s.group.sameLogicalCommand (withoutId d) = s.group.sameLogicalCommand d := rfl
  obtain ⟨hactive, hjoin, -, hwindow, hanswer⟩ | ⟨-, hdifferent, -, -, hanswer⟩ |
    ⟨hjoin, hstale, hanswer⟩ := s.group.onDelivery_cases (withoutId d)
  · have hkept : (s.deliver (withoutId d)).ActuatesInOrder := by
      rw [ActuatesInOrder, deliver_actuated, hanswer,
        if_neg (CommandAckGroup.joinGroup_disposition _ _)]
      exact hinv.2.2
    refine ⟨fun _ e he _ _ holder => ?_, fun _ => hkept⟩
    obtain rfl := CommandAckGroup.Event.deliver.inj he
    by_contra hout
    have hout' := (s.group.withinTolerance_eq_false_of_le holder.le).mpr (not_lt.mp hout)
    exact absurd hwindow (by simp [withoutId, hout'])
  · have hkept : (s.deliver (withoutId d)).ActuatesInOrder := by
      rw [ActuatesInOrder, deliver_actuated, hanswer]
      exact hinv.2.2
    refine ⟨fun _ e he _ hrepeat _ => ?_, fun _ => hkept⟩
    obtain rfl := CommandAckGroup.Event.deliver.inj he
    exact absurd hrepeat (by simp [← hsame, hdifferent])
  · have hopened : (s.deliver (withoutId d)).ActuatesInOrder ↔
        (s.group.active = true → s.group.timestamp ≤ d.timestamp) := by
      rw [← actuatesInOrder_append_iff hinv, ActuatesInOrder, deliver_actuated, hanswer,
        if_pos (CommandAckGroup.openGroup_disposition _ _)]
      rfl
    rw [hopened]
    refine ⟨fun h e he hactive _ holder => ?_, fun h hactive => ?_⟩
    · obtain rfl := CommandAckGroup.Event.deliver.inj he
      exact absurd (h hactive) (not_le.mpr holder)
    · by_contra holder
      rw [not_le] at holder
      cases hrepeat : s.group.sameLogicalCommand d with
      | false => exact hstale ⟨hactive, hsame.trans hrepeat, hretry, holder⟩
      | true =>
        have hin := h d rfl hactive hrepeat holder
        refine hjoin ⟨hactive, hsame.trans hrepeat, hretry, ?_⟩
        by_contra hout
        have hout' := (s.group.withinTolerance_eq_false_of_le holder.le).mp
          (Bool.eq_false_of_not_eq_true hout)
        omega

/-- A call that keeps the order keeps the active command the last of the history. -/
theorem lastIsActive_deliver {s : ObservedGroup Key Target} (hinv : s.LastIsActive)
    (d : Delivery Key Target) (horder : (s.deliver d).ActuatesInOrder) :
    (s.deliver d).LastIsActive := by
  obtain ⟨hactive, htimestamp, hactuated⟩ | ⟨hactive, htimestamp, hactuated, -⟩ :=
    s.deliver_cases d
  · refine ⟨?_, ?_, horder⟩
    · rw [hactive, hactuated]
      exact hinv.1
    · rw [hactive, htimestamp, hactuated]
      exact hinv.2.1
  · refine ⟨fun h => absurd hactive (by simp [h]), fun _ => ⟨?_, fun t ht => ?_⟩, horder⟩
    · simp [htimestamp, hactuated]
    · rw [ActuatesInOrder, hactuated, List.pairwise_append] at horder
      rw [hactuated, List.mem_append] at ht
      rw [htimestamp]
      obtain ht | ht := ht
      · exact horder.2.2 t ht _ (by simp)
      · exact (List.mem_singleton.mp ht).le

/-- For peers that report no ids, the timestamps of the actuated deliveries never decrease
exactly when no repeat of the active command comes from before the window. -/
theorem actuatesInOrder_throughout_iff (toleranceMs : ℕ)
    (events : List (CommandAckGroup.Event Key Target)) :
    (∀ es s, es <+: events → run legacyStep { group := .new toleranceMs } es = some s →
        s.ActuatesInOrder) ↔
      Along legacyStep RepeatsInWindow { group := .new toleranceMs } events := by
  have hinit : LastIsActive ({ group := .new toleranceMs } : ObservedGroup Key Target) :=
    ⟨fun _ => rfl, fun h => absurd h (by simp [CommandAckGroup.new]), List.Pairwise.nil⟩
  refine forall_prefix_iff_of_invariant LastIsActive ?_ ?_ hinit hinit.2.2 events
  · intro s e hinv
    cases e with
    | deliver d => simpa [legacyStep] using actuatesInOrder_deliver_iff hinv d
    | resolve epoch res =>
      refine ⟨fun _ d he => absurd he (by simp), fun _ t ht => ?_⟩
      obtain ⟨group, -, rfl⟩ := Option.map_eq_some_iff.mp ht
      exact hinv.2.2
  · intro s e t hinv hcond ht
    cases e with
    | deliver d =>
      obtain rfl := Option.some.inj ht
      exact lastIsActive_deliver hinv _ ((actuatesInOrder_deliver_iff hinv d).mpr hcond)
    | resolve epoch res =>
      obtain ⟨group, hgroup, rfl⟩ := Option.map_eq_some_iff.mp ht
      simp only [CommandAckGroup.step] at hgroup
      split_ifs at hgroup
      obtain rfl := Option.some.inj hgroup
      rw [CommandAckGroup.resolve_fst]
      exact hinv

/-- A hold, a replay of it from before the window, and a termination between the two. -/
def replayedHold : List (CommandAckGroup.Event String ℕ) :=
  [.deliver { command := 5, timestamp := 100000, copy := 1, connectionKey := "" },
    .deliver { command := 5, timestamp := 10000, copy := 2, connectionKey := "" },
    .deliver { command := 9, timestamp := 50000, copy := 3, connectionKey := "" }]

/-- The replayed hold and the termination that the first hold had replaced are actuated. -/
theorem replayedHold_out_of_order :
    ∃ s, run legacyStep { group := .new commandDedupToleranceMs } replayedHold = some s ∧
      s.actuated = [100000, 10000, 50000] ∧ ¬ s.ActuatesInOrder := by
  refine ⟨_, rfl, ?_⟩
  rw [ActuatesInOrder, show ObservedGroup.actuated _ = [100000, 10000, 50000] by decide]
  exact ⟨rfl, by decide⟩

end ObservedGroup

end CapFmu
