import CapFmu.Fss.RedundantServers

/-!
# Commands that are actuated once

If every interleaving actuates each command at most once and in order, then a server may be
anywhere behind the lead, and its deliveries have to be answered as stale up to the active
command and as a copy of it there. That forces the list to be free of repeats and the copies
to be recognised, which the invariant of the lead shows to be enough.
-/

namespace CapFmu

open Transition

namespace RedundantStreams

variable {ι Key Target : Type*}

section Once

variable [DecidableEq ι] [DecidableEq Key]
  {st : RedundantStreams ι Key Target} {toleranceMs n m : ℕ} {s : ServerRun ι Key Target}
  {server : ι} {c lead : LogicalCommand}

/-- Opening a group for a command that was actuated before actuates it out of order. -/
theorem not_actuatedOnce_of_open (h : st.FollowsLead toleranceMs n s)
    (hbehind : s.position server < n) (hc : st.commands[s.position server]? = some c)
    (hanswer : s.observed.group.onDelivery (st.delivery server (s.position server) c) =
      s.observed.group.openGroup (st.delivery server (s.position server) c)) :
    ¬ ActuatedOnce (st.deliverNext s server c) := by
  rw [ActuatedOnce, deliverNext, ObservedGroup.deliver_actuated, hanswer,
    if_pos (CommandAckGroup.openGroup_disposition _ _), List.pairwise_append]
  intro hordered
  exact lt_irrefl _ (hordered.2.2 _ (timestamp_mem_actuated h hbehind hc) c.timestamp
    (List.mem_singleton_self _))

/-- A server that joins the group of a repeat with an earlier command has its next command
actuated again. -/
theorem not_actuatedOnce_of_join (h : st.FollowsLead toleranceMs (m + 1) s)
    (hlead : st.commands[m]? = some lead) (hbehind : s.position server < m)
    {c' : LogicalCommand} (hc' : st.commands[s.position server + 1]? = some c')
    (hanswer : s.observed.group.onDelivery (st.delivery server (s.position server) c) =
      s.observed.group.joinGroup (st.delivery server (s.position server) c)) :
    ¬ ActuatedOnce (st.deliverNext (st.deliverNext s server c) server c') := by
  have hactive := (h.active m lead rfl hlead).1
  have hjoined : (st.deliverNext s server c).observed.group =
      (s.observed.group.joinGroup (st.delivery server (s.position server) c)).1 := by
    rw [deliverNext, ObservedGroup.deliver_group, hanswer]
  rw [CommandAckGroup.joinGroup_fst] at hjoined
  have hactuated : (st.deliverNext s server c).observed.actuated = s.observed.actuated := by
    rw [deliverNext, ObservedGroup.deliver_actuated, hanswer,
      if_neg (CommandAckGroup.joinGroup_disposition _ _)]
  have hposition : (st.deliverNext s server c).position server = s.position server + 1 := by
    simp [deliverNext]
  have hretry : (st.deliverNext s server c).observed.group.deliberateRetry
      (st.delivery server (s.position server + 1) c') ≠ false := by
    refine deliberateRetry_of_recorded (j := s.position server) ?_ ?_ (Nat.succ_ne_self _).symm
    · rw [hjoined]
      exact hactive
    · rw [hjoined]
      simp [CommandAckGroup.recordId, delivery, st.id_ne_zero]
  obtain ⟨-, -, hfalse, -⟩ | ⟨-, -, hfalse, -⟩ | ⟨-, -, hopen⟩ :=
    (st.deliverNext s server c).observed.group.onDelivery_cases
      (st.delivery server (s.position server + 1) c')
  · exact absurd hfalse hretry
  · exact absurd hfalse hretry
  · rw [ActuatedOnce, deliverNext, hposition, ObservedGroup.deliver_actuated, hopen,
      if_pos (CommandAckGroup.openGroup_disposition _ _), hactuated, List.pairwise_append]
    intro hordered
    exact lt_irrefl _ (hordered.2.2 _ (timestamp_mem_actuated h (by omega) hc') c'.timestamp
      (List.mem_singleton_self _))

/-- If every interleaving actuates each command once, a server that is behind by more than
the active command is not given a repeat. -/
theorem sameAs_eq_false_of_once
    (hlaw : ∀ events s, run st.step (init toleranceMs) events = some s → ActuatedOnce s)
    {events : List (ServerEvent ι)} (hrun : run st.step (init toleranceMs) events = some s)
    (h : st.FollowsLead toleranceMs (m + 1) s) (hlead : st.commands[m]? = some lead)
    (hbehind : s.position server < m) (hc : st.commands[s.position server]? = some c) :
    lead.sameAs c = false := by
  have hstep : st.step s (.deliver server) = some (st.deliverNext s server c) := by
    simp [step, hc]
  have hrun' : run st.step (init toleranceMs) (events ++ [.deliver server]) =
      some (st.deliverNext s server c) := by
    rw [run_concat, hrun]
    exact hstep
  obtain ⟨-, -, -, -, hjoin⟩ | ⟨-, hdifferent, -⟩ | ⟨-, -, hopen⟩ :=
    s.observed.group.onDelivery_cases (st.delivery server (s.position server) c)
  · have hm := (List.getElem?_eq_some_iff.mp hlead).1
    have hc' := List.getElem?_eq_getElem (show s.position server + 1 < st.commands.length by omega)
    refine absurd (hlaw (events ++ [.deliver server] ++ [.deliver server]) _ ?_)
      (not_actuatedOnce_of_join h hlead hbehind hc' hjoin)
    rw [run_concat, hrun']
    simp [step, deliverNext, hc']
  · rw [← sameLogicalCommand_delivery h hlead]
    exact hdifferent
  · exact absurd (hlaw _ _ hrun') (not_actuatedOnce_of_open h (by omega) hc hopen)

/-- If every interleaving actuates each command once, a second server can be anywhere behind
the lead. -/
theorem exists_run_behind
    (hlaw : ∀ events s, run st.step (init toleranceMs) events = some s → ActuatedOnce s)
    (hm : m < st.commands.length) {p : ℕ} (hp : p ≤ m) :
    ∃ events s server, run st.step (init toleranceMs) events = some s ∧
      st.FollowsLead toleranceMs (m + 1) s ∧ s.position server = p := by
  induction p with
  | zero =>
    obtain ⟨a, b, hab⟩ := st.several
    obtain ⟨events, s, hrun, hlead, -, hothers⟩ := exists_run_front st toleranceMs a hm
    exact ⟨events, s, b, hrun, hlead, hothers b hab.symm⟩
  | succ p ih =>
    obtain ⟨events, s, server, hrun, h, rfl⟩ := ih (Nat.le_of_succ_le hp)
    have hlead := List.getElem?_eq_getElem hm
    have hc := List.getElem?_eq_getElem (show s.position server < st.commands.length by omega)
    have hdistinct := sameAs_eq_false_of_once hlaw hrun h hlead (by omega) hc
    refine ⟨events ++ [.deliver server], _, server, ?_, followsLead_stale h hlead (by omega) hc
      hdistinct, by simp [deliverNext]⟩
    rw [run_concat, hrun]
    simp [step, hc]

/-- If every interleaving actuates each command once, a second copy of a command is
recognised. -/
theorem sameAs_self_of_once
    (hlaw : ∀ events s, run st.step (init toleranceMs) events = some s → ActuatedOnce s)
    (hlead : st.commands[m]? = some lead) : 0 < toleranceMs ∧ lead.sameAs lead = true := by
  have hm := (List.getElem?_eq_some_iff.mp hlead).1
  obtain ⟨events, s, server, hrun, h, hnext⟩ := exists_run_behind hlaw hm le_rfl
  obtain ⟨-, -, -, htimestamp⟩ := h.active m lead rfl hlead
  obtain ⟨-, hsame, -, hwindow, -⟩ | ⟨-, -, -, holder, -⟩ | ⟨-, -, hopen⟩ :=
    s.observed.group.onDelivery_cases (st.delivery server m lead)
  · rw [sameLogicalCommand_delivery h hlead] at hsame
    refine ⟨?_, hsame⟩
    simpa [CommandAckGroup.withinTolerance, delivery, htimestamp, h.tolerance] using hwindow
  · exact absurd holder (by simp [delivery, htimestamp])
  · have hc : st.commands[s.position server]? = some lead := hnext ▸ hlead
    refine absurd (hlaw (events ++ [.deliver server]) _ ?_)
      (not_actuatedOnce_of_open h (by omega) hc (hnext ▸ hopen))
    rw [run_concat, hrun]
    simp [step, hc]

end Once

/-- Every interleaving of the servers actuates each command at most once, in the order of
the timestamps, exactly when no command repeats an earlier one and copies are recognised. -/
theorem actuatedOnce_iff_repeatless [DecidableEq ι] [DecidableEq Key]
    (st : RedundantStreams ι Key Target) (toleranceMs : ℕ) :
    (∀ events s, run st.step (init toleranceMs) events = some s → ActuatedOnce s) ↔
      st.Repeatless toleranceMs := by
  refine ⟨fun hlaw => ?_, fun hdistinct events s hrun => ?_⟩
  · by_cases hempty : st.commands = []
    · exact Or.inl hempty
    · obtain ⟨c, hc⟩ := List.exists_mem_of_ne_nil _ hempty
      obtain ⟨k, hk⟩ := List.getElem?_of_mem hc
      refine Or.inr ⟨(sameAs_self_of_once hlaw hk).1, fun c hc => ?_, ?_⟩
      · obtain ⟨k, hk⟩ := List.getElem?_of_mem hc
        have hself := (sameAs_self_of_once hlaw hk).2
        simp only [LogicalCommand.sameAs, Bool.and_eq_true] at hself
        exact CommandPayload.isFinite_of_sameAs_self hself.2
      · refine List.pairwise_iff_getElem.mpr fun i j hi hj hij => ?_
        obtain ⟨events, s, server, hrun, h, rfl⟩ := exists_run_behind hlaw hj hij.le
        exact sameAs_eq_false_of_once hlaw hrun h (List.getElem?_eq_getElem hj) hij
          (List.getElem?_eq_getElem hi)
  · obtain ⟨n, h⟩ := invariant_of_run (fun s => ∃ n, st.FollowsLead toleranceMs n s)
      (fun _ _ _ => followsLead_step hdistinct) ⟨0, followsLead_init⟩ hrun
    exact actuatedOnce_of_followsLead h

/-- Two servers that both deliver a hold and, two seconds later, another hold. -/
def repeatedHold : RedundantStreams Bool String ℕ where
  commands := [{ command := 5, timestamp := 1000 }, { command := 5, timestamp := 3000 }]
  increasing := by decide
  key := fun server => if server then "a:8081" else "b:8081"
  key_injective := fun a b h => by cases a <;> cases b <;> simp_all
  id := fun server k => if server then 10 + k else 20 + k
  id_injective := fun server a b h => by cases server <;> simpa using h
  id_ne_zero := fun server k => by cases server <;> simp
  copy := fun _ k => k
  several := ⟨true, false, by decide⟩

/-- With one server a command behind, the second hold is actuated twice. -/
theorem repeatedHold_actuated_twice :
    ∃ s, run repeatedHold.step (init commandDedupToleranceMs)
        [.deliver true, .deliver true, .deliver false, .deliver false] = some s ∧
      s.observed.actuated = [1000, 3000, 3000] ∧ ¬ ActuatedOnce s := by
  refine ⟨_, rfl, ?_⟩
  rw [ActuatedOnce, show ObservedGroup.actuated _ = [1000, 3000, 3000] by decide]
  exact ⟨rfl, by decide⟩

end RedundantStreams

end CapFmu
