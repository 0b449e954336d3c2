import CapFmu.Fss.StaleDelivery

/-!
# Redundant servers that deliver the same commands

Every server delivers one list of commands in order, under its own connection and with its
own ids, and the deliveries interleave in any way. As long as no later command repeats an
earlier one, the group follows the server that is furthest ahead: the others are late with
older commands, which are stale, or add a copy of the active one. A repeat breaks this. A
server that is behind joins the group of the repeat with the id of the earlier command, and
its next delivery then reads as an operator retry.
-/

namespace CapFmu

open Transition

/-- A command as every server delivers it. -/
structure LogicalCommand where
  command : ℤ
  payload : CommandPayload := .none
  timestamp : ℕ
  deriving DecidableEq

/-- Whether a delivery of `c` is the same logical command as an active `active`. -/
def LogicalCommand.sameAs (active c : LogicalCommand) : Bool :=
  decide (active.command = c.command) && active.payload.sameAs c.payload

/-- Two or more servers that deliver the same commands in order of their timestamps, each
under its own key with its own nonzero ids. -/
structure RedundantStreams (ι Key Target : Type*) where
  commands : List LogicalCommand
  increasing : commands.Pairwise fun a b => a.timestamp < b.timestamp
  key : ι → Key
  key_injective : Function.Injective key
  id : ι → ℕ → ℕ
  id_injective : ∀ server, Function.Injective (id server)
  id_ne_zero : ∀ server k, id server k ≠ 0
  copy : ι → ℕ → Target
  several : ∃ a b : ι, a ≠ b

/-- The group and how far each server is through its list. -/
structure ServerRun (ι Key Target : Type*) where
  observed : ObservedGroup Key Target
  position : ι → ℕ := fun _ => 0

/-- A server delivers its next command, or an outcome arrives. -/
inductive ServerEvent (ι : Type*)
  | deliver (server : ι)
  | resolve (epoch : ℕ) (res : FssCommandResolution)

namespace RedundantStreams

variable {ι Key Target : Type*}

/-- The delivery a server makes at a position of its list. -/
def delivery (st : RedundantStreams ι Key Target) (server : ι) (k : ℕ) (c : LogicalCommand) :
    Delivery Key Target :=
  { command := c.command, timestamp := c.timestamp, copy := st.copy server k,
    payload := c.payload, serverCommandId := st.id server k, connectionKey := st.key server }

/-- Before any delivery. -/
def init (toleranceMs : ℕ) : ServerRun ι Key Target := { observed := { group := .new toleranceMs } }

/-- Every command was actuated at most once, and in the order of the timestamps. -/
def ActuatedOnce (s : ServerRun ι Key Target) : Prop := s.observed.actuated.Pairwise (· < ·)

/-- No command repeats an earlier one, and copies of one command are recognised: there is a
window, and the coordinates are finite. -/
def Repeatless (st : RedundantStreams ι Key Target) (toleranceMs : ℕ) : Prop :=
  st.commands = [] ∨ 0 < toleranceMs ∧ (∀ c ∈ st.commands, c.payload.isFinite = true) ∧
    st.commands.Pairwise fun earlier later => later.sameAs earlier = false

/-- The group follows the servers that are furthest ahead, having actuated each command up
to theirs once; the ids it has recorded are theirs for the active command. -/
structure FollowsLead (st : RedundantStreams ι Key Target) (toleranceMs n : ℕ)
    (s : ServerRun ι Key Target) : Prop where
  tolerance : s.observed.group.toleranceMs = toleranceMs
  bound : n ≤ st.commands.length
  behind : ∀ server, s.position server ≤ n
  actuated : s.observed.actuated = (st.commands.take n).map (·.timestamp)
  idle : n = 0 → s.observed.group.active = false
  active : ∀ m c, n = m + 1 → st.commands[m]? = some c →
    s.observed.group.active = true ∧ s.observed.group.command = c.command ∧
      s.observed.group.payload = c.payload ∧ s.observed.group.timestamp = c.timestamp
  ids : ∀ m server, n = m + 1 → s.observed.group.lastIdByConnection (st.key server) =
    if s.position server = m + 1 then some (st.id server m) else none

section Lead

variable {st : RedundantStreams ι Key Target} {toleranceMs n m : ℕ} {s : ServerRun ι Key Target}
  {server : ι} {c lead : LogicalCommand}

/-- Nothing was delivered yet. -/
theorem followsLead_init : st.FollowsLead toleranceMs 0 (init toleranceMs) where
  tolerance := rfl
  bound := Nat.zero_le _
  behind := fun _ => le_rfl
  actuated := by simp [init]
  idle := fun _ => rfl
  active := fun m c h => absurd h (by simp)
  ids := fun m server h => absurd h (by simp)

/-- Following the lead, each command was actuated at most once and in order. -/
theorem actuatedOnce_of_followsLead (h : st.FollowsLead toleranceMs n s) : ActuatedOnce s := by
  rw [ActuatedOnce, h.actuated, List.pairwise_map]
  exact st.increasing.sublist (List.take_sublist n _)

/-- A delivery is the same command as the active one exactly when the leader's command is. -/
theorem sameLogicalCommand_delivery (h : st.FollowsLead toleranceMs (m + 1) s)
    (hlead : st.commands[m]? = some lead) (server : ι) (k : ℕ) (c : LogicalCommand) :
    s.observed.group.sameLogicalCommand (st.delivery server k c) = lead.sameAs c := by
  obtain ⟨-, hcommand, hpayload, -⟩ := h.active m lead rfl hlead
  simp [CommandAckGroup.sameLogicalCommand, LogicalCommand.sameAs, delivery, hcommand, hpayload]

/-- A server that is behind has reported nothing for the active command. -/
theorem deliberateRetry_behind (h : st.FollowsLead toleranceMs (m + 1) s)
    (hbehind : s.position server < m + 1) (k : ℕ) (c : LogicalCommand) :
    s.observed.group.deliberateRetry (st.delivery server k c) = false := by
  have hnone := h.ids m server rfl
  rw [if_neg hbehind.ne] at hnone
  simp [CommandAckGroup.deliberateRetry, delivery, hnone]

/-- A connection that last reported the id of another position reads as a retry. -/
theorem deliberateRetry_of_recorded {g : CommandAckGroup Key Target} {j k : ℕ}
    (hactive : g.active = true)
    (hrecorded : g.lastIdByConnection (st.key server) = some (st.id server j)) (hjk : j ≠ k) :
    g.deliberateRetry (st.delivery server k c) ≠ false := by
  rw [Ne, CommandAckGroup.deliberateRetry_eq_false hactive]
  intro hretry
  obtain hzero | hsame := hretry
  · exact st.id_ne_zero server k hzero
  · exact hjk (st.id_injective server (hsame _ hrecorded))

/-- A command that was actuated before is in the history. -/
theorem timestamp_mem_actuated (h : st.FollowsLead toleranceMs n s) {k : ℕ} (hk : k < n)
    (hc : st.commands[k]? = some c) : c.timestamp ∈ s.observed.actuated := by
  rw [h.actuated]
  refine List.mem_map_of_mem (List.mem_of_getElem? (i := k) ?_)
  rw [List.getElem?_take_of_lt hk, hc]

variable [DecidableEq ι] [DecidableEq Key]

/-- A server's next command is handed to the group. -/
def deliverNext (st : RedundantStreams ι Key Target) (s : ServerRun ι Key Target) (server : ι)
    (c : LogicalCommand) : ServerRun ι Key Target :=
  { observed := s.observed.deliver (st.delivery server (s.position server) c)
    position := Function.update s.position server (s.position server + 1) }

/-- One step of an interleaving. -/
def step (st : RedundantStreams ι Key Target) (s : ServerRun ι Key Target) :
    ServerEvent ι → Option (ServerRun ι Key Target)
  | .deliver server => st.commands[s.position server]?.map (st.deliverNext s server)
  | .resolve epoch res => (s.observed.group.step (.resolve epoch res)).map fun group =>
      { s with observed := { s.observed with group := group } }

/-- An outcome changes nothing that matters here. -/
theorem followsLead_resolve (h : st.FollowsLead toleranceMs n s) {t : ServerRun ι Key Target}
    {epoch : ℕ} {res : FssCommandResolution} (ht : st.step s (.resolve epoch res) = some t) :
    st.FollowsLead toleranceMs n t := by
  obtain ⟨group, hgroup, rfl⟩ := Option.map_eq_some_iff.mp ht
  simp only [CommandAckGroup.step] at hgroup
  split_ifs at hgroup
  obtain rfl := Option.some.inj hgroup
  rw [CommandAckGroup.resolve_fst]
  exact ⟨h.tolerance, h.bound, h.behind, h.actuated, h.idle, h.active, h.ids⟩

omit [DecidableEq ι] in
/-- The server in front opens the group of its next command. -/
theorem onDelivery_front (h : st.FollowsLead toleranceMs n s) (hfront : s.position server = n) :
    s.observed.group.onDelivery (st.delivery server n c) =
      s.observed.group.openGroup (st.delivery server n c) := by
  have hopens : s.observed.group.active = true →
      s.observed.group.deliberateRetry (st.delivery server n c) ≠ false := by
    intro hactive
    cases n with
    | zero => exact absurd hactive (by simp [h.idle rfl])
    | succ m =>
      have hrecorded := h.ids m server rfl
      rw [if_pos hfront] at hrecorded
      exact deliberateRetry_of_recorded hactive hrecorded (Nat.succ_ne_self m).symm
  obtain ⟨hactive, -, hretry, -⟩ | ⟨hactive, -, hretry, -⟩ | ⟨-, -, hanswer⟩ :=
    s.observed.group.onDelivery_cases (st.delivery server n c)
  · exact absurd hretry (hopens hactive)
  · exact absurd hretry (hopens hactive)
  · exact hanswer

/-- The server in front takes the lead one command further. -/
theorem followsLead_front (h : st.FollowsLead toleranceMs n s) (hfront : s.position server = n)
    (hc : st.commands[n]? = some c) :
    st.FollowsLead toleranceMs (n + 1) (st.deliverNext s server c) := by
  have hanswer := onDelivery_front (c := c) h hfront
  have hgroup : (st.deliverNext s server c).observed.group =
      (s.observed.group.openGroup (st.delivery server n c)).1 := by
    rw [deliverNext, hfront, ObservedGroup.deliver_group, hanswer]
  refine ⟨by rw [hgroup]; exact h.tolerance, ?_, fun other => ?_, ?_, by simp, ?_, ?_⟩
  · exact (List.getElem?_eq_some_iff.mp hc).1
  · simp only [deliverNext, Function.update_apply]
    split_ifs
    · omega
    · exact (h.behind other).trans (Nat.le_succ n)
  · rw [deliverNext, hfront, ObservedGroup.deliver_actuated, hanswer,
      if_pos (CommandAckGroup.openGroup_disposition _ _), h.actuated, List.take_add_one, hc]
    simp [delivery]
  · intro m c' hm hc'
    obtain rfl : n = m := by omega
    obtain rfl := Option.some.inj (hc.symm.trans hc')
    rw [hgroup]
    exact ⟨rfl, rfl, rfl, rfl⟩
  · intro m other hm
    obtain rfl : n = m := by omega
    rw [hgroup]
    by_cases hother : other = server
    · subst hother
      simp [CommandAckGroup.openGroup, CommandAckGroup.recordId, delivery, st.id_ne_zero,
        deliverNext, hfront]
    · have hbehind := h.behind other
      simp [CommandAckGroup.openGroup, CommandAckGroup.recordId, delivery, st.id_ne_zero,
        deliverNext, hother, st.key_injective.ne hother]
      omega

omit [DecidableEq ι] in
/-- A server that is behind by more than the active command, with a command that the active
one does not repeat, is answered as stale. -/
theorem onDelivery_stale (h : st.FollowsLead toleranceMs (m + 1) s)
    (hlead : st.commands[m]? = some lead) (hbehind : s.position server < m)
    (hc : st.commands[s.position server]? = some c) (hdistinct : lead.sameAs c = false) :
    s.observed.group.onDelivery (st.delivery server (s.position server) c) =
      (s.observed.group, { disposition := .staleSuperseded }) := by
  obtain ⟨hactive, -, -, htimestamp⟩ := h.active m lead rfl hlead
  have hdifferent :=
    (sameLogicalCommand_delivery h hlead server (s.position server) c).trans hdistinct
  have hretry := deliberateRetry_behind h (hbehind.trans (Nat.lt_succ_self m)) (s.position server) c
  have holder : c.timestamp < s.observed.group.timestamp := by
    obtain ⟨hk, rfl⟩ := List.getElem?_eq_some_iff.mp hc
    obtain ⟨hm, rfl⟩ := List.getElem?_eq_some_iff.mp hlead
    rw [htimestamp]
    exact List.pairwise_iff_getElem.mp st.increasing _ _ hk hm hbehind
  obtain ⟨-, hsame, -⟩ | ⟨-, -, -, -, hanswer⟩ | ⟨-, hstale, -⟩ :=
    s.observed.group.onDelivery_cases (st.delivery server (s.position server) c)
  · exact absurd hsame (by simp [hdifferent])
  · exact hanswer
  · exact absurd ⟨hactive, hdifferent, hretry, holder⟩ hstale

/-- A server that is answered as stale stays behind and changes nothing. -/
theorem followsLead_stale (h : st.FollowsLead toleranceMs (m + 1) s)
    (hlead : st.commands[m]? = some lead) (hbehind : s.position server < m)
    (hc : st.commands[s.position server]? = some c) (hdistinct : lead.sameAs c = false) :
    st.FollowsLead toleranceMs (m + 1) (st.deliverNext s server c) := by
  have hanswer := onDelivery_stale h hlead hbehind hc hdistinct
  have hgroup : (st.deliverNext s server c).observed.group = s.observed.group := by
    rw [deliverNext, ObservedGroup.deliver_group, hanswer]
  refine ⟨by rw [hgroup]; exact h.tolerance, h.bound, fun other => ?_, ?_, by simp, ?_, ?_⟩
  · simp only [deliverNext, Function.update_apply]
    split_ifs
    · omega
    · exact h.behind other
  · rw [deliverNext, ObservedGroup.deliver_actuated, hanswer]
    exact h.actuated
  · rw [hgroup]
    exact h.active
  · intro k other hk
    rw [hgroup, h.ids k other hk]
    by_cases hother : other = server
    · subst hother
      obtain rfl : m = k := by omega
      simp only [deliverNext, Function.update_self]
      rw [if_neg (by omega), if_neg (by omega)]
    · simp [deliverNext, hother]

/-- A server that is behind by the active command adds a copy of it. -/
theorem followsLead_join (h : st.FollowsLead toleranceMs (m + 1) s)
    (hlead : st.commands[m]? = some lead) (hnext : s.position server = m)
    (hself : lead.sameAs lead = true) (hwindow : 0 < toleranceMs) :
    st.FollowsLead toleranceMs (m + 1) (st.deliverNext s server lead) := by
  obtain ⟨hactive, hcommand, hpayload, htimestamp⟩ := h.active m lead rfl hlead
  have hsame := (sameLogicalCommand_delivery h hlead server m lead).trans hself
  have hretry := deliberateRetry_behind h (hnext.trans_lt (Nat.lt_succ_self m)) m lead
  have hanswer : s.observed.group.onDelivery (st.delivery server m lead) =
      s.observed.group.joinGroup (st.delivery server m lead) := by
    obtain ⟨-, -, -, -, hanswer⟩ | ⟨-, hdifferent, -⟩ | ⟨hjoin, -⟩ :=
      s.observed.group.onDelivery_cases (st.delivery server m lead)
    · exact hanswer
    · exact absurd hsame (by simp [hdifferent])
    · refine absurd ⟨hactive, hsame, hretry, ?_⟩ hjoin
      simp [CommandAckGroup.withinTolerance, delivery, htimestamp, h.tolerance, hwindow]
  have hgroup : (st.deliverNext s server lead).observed.group =
      (s.observed.group.joinGroup (st.delivery server m lead)).1 := by
    rw [deliverNext, hnext, ObservedGroup.deliver_group, hanswer]
  rw [CommandAckGroup.joinGroup_fst] at hgroup
  refine ⟨by rw [hgroup]; exact h.tolerance, h.bound, fun other => ?_, ?_, by simp, ?_, ?_⟩
  · simp only [deliverNext, Function.update_apply]
    split_ifs
    · omega
    · exact h.behind other
  · rw [deliverNext, hnext, ObservedGroup.deliver_actuated, hanswer,
      if_neg (CommandAckGroup.joinGroup_disposition _ _)]
    exact h.actuated
  · rw [hgroup]
    exact h.active
  · intro k other hk
    obtain rfl : m = k := by omega
    rw [hgroup]
    by_cases hother : other = server
    · subst hother
      simp [CommandAckGroup.recordId, delivery, st.id_ne_zero, deliverNext, hnext]
    · simp [CommandAckGroup.recordId, delivery, st.id_ne_zero, deliverNext, hother,
        st.key_injective.ne hother, h.ids m other rfl]

/-- Without repeats every step keeps the group following the lead. -/
theorem followsLead_step (hdistinct : st.Repeatless toleranceMs) {e : ServerEvent ι}
    {t : ServerRun ι Key Target} (h : ∃ n, st.FollowsLead toleranceMs n s)
    (ht : st.step s e = some t) : ∃ n, st.FollowsLead toleranceMs n t := by
  obtain ⟨n, h⟩ := h
  cases e with
  | resolve epoch res => exact ⟨n, followsLead_resolve h ht⟩
  | deliver server =>
    obtain ⟨c, hc, rfl⟩ := Option.map_eq_some_iff.mp ht
    by_cases hfront : s.position server = n
    · exact ⟨n + 1, followsLead_front h hfront (hfront ▸ hc)⟩
    · have hlt := lt_of_le_of_ne (h.behind server) hfront
      obtain ⟨m, rfl⟩ := Nat.exists_eq_add_one_of_ne_zero (Nat.ne_zero_of_lt hlt)
      have hm : m < st.commands.length := h.bound
      have hlead := List.getElem?_eq_getElem hm
      obtain hempty | ⟨hwindow, hfinite, hpairwise⟩ := hdistinct
      · simp [hempty] at hm
      · refine ⟨m + 1, ?_⟩
        by_cases hnext : s.position server = m
        · obtain rfl := Option.some.inj ((hnext ▸ hc).symm.trans hlead)
          refine followsLead_join h hlead hnext ?_ hwindow
          simp [LogicalCommand.sameAs,
            CommandPayload.sameAs_self (hfinite _ (List.getElem_mem hm))]
        · have hbehind : s.position server < m := by omega
          obtain ⟨hk, rfl⟩ := List.getElem?_eq_some_iff.mp hc
          exact followsLead_stale h hlead hbehind hc
            (List.pairwise_iff_getElem.mp hpairwise _ _ hk hm hbehind)

/-- The first server can run ahead of all others. -/
theorem exists_run_front (st : RedundantStreams ι Key Target) (toleranceMs : ℕ) (ahead : ι)
    {n : ℕ} (hn : n ≤ st.commands.length) :
    ∃ events s, run st.step (init toleranceMs) events = some s ∧
      st.FollowsLead toleranceMs n s ∧ s.position ahead = n ∧
      ∀ other, other ≠ ahead → s.position other = 0 := by
  induction n with
  | zero => exact ⟨[], _, rfl, followsLead_init, rfl, fun _ _ => rfl⟩
  | succ n ih =>
    obtain ⟨events, s, hrun, hlead, hahead, hothers⟩ := ih (Nat.le_of_succ_le hn)
    have hc := List.getElem?_eq_getElem (Nat.lt_of_succ_le hn)
    refine ⟨events ++ [.deliver ahead], _, ?_, followsLead_front hlead hahead hc, ?_, ?_⟩
    · rw [run_concat, hrun]
      change (st.commands[s.position ahead]?).map _ = _
      rw [hahead, hc]
      rfl
    · simp [deliverNext, hahead]
    · intro other hother
      simp [deliverNext, hother, hothers other hother]

end Lead

end RedundantStreams

end CapFmu
