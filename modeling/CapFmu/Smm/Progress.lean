import CapFmu.App.EventLoop

/-!
# The layout of a search mission and the progress on it

Two setup items stand before the points of a search, so the number of items, the sequence number
of a point and the point to resume from after an item is reached each have an offset of their own.
The setup items of a mission are reached as well; they are no points, and no progress.
-/

namespace CapFmu

/-- A search with its handle, as long as it is held, its points and the point to resume from. -/
structure SearchProgress where
  search : Option ℕ
  points : List Point
  currentPoint : ℕ := 0

/-- The progress that a reached item reports; the setup items report none. -/
def reportReached (point : ℕ) : Option ℕ :=
  if searchFirstPointSeq ≤ point then some (nextSearchPointAfterReachedSeq (point % 2 ^ 16))
  else none

/-- The items of a search mission, by the sequence numbers that are advertised. -/
def searchMissionItems (numPoints : ℕ) : List MissionItem :=
  (List.range (missionCountFor numPoints .search)).map fun seq =>
    missionItemFor seq numPoints .search

/-- The last search point among reached items, by its sequence number. -/
def lastPointReached (seqs : List ℕ) : Option ℕ :=
  (seqs.filter fun seq => searchFirstPointSeq ≤ seq).getLast?

namespace SearchProgress

/-- A search as it is constructed. -/
def new (handle : ℕ) (points : List Point) : SearchProgress where
  search := some handle
  points := points

/-- Take progress, and complete the search past its last point. -/
def reachedPoint (s : SearchProgress) (point : ℕ) : SearchProgress × Bool :=
  if s.search.isSome ∧ s.points.length ≤ point then ({ s with search := none }, true)
  else ({ s with currentPoint := point }, false)

/-- Feed a reached item to the search. -/
def itemReached (s : SearchProgress) (seq : ℕ) : SearchProgress :=
  match reportReached seq with
  | none => s
  | some point => (s.reachedPoint point).1

/-- Feed reached items to the search, in any order. -/
def itemsReached (s : SearchProgress) (seqs : List ℕ) : SearchProgress := seqs.foldl itemReached s

end SearchProgress

section Layout

variable {n i seq : ℕ}

/-- The points follow the two setup items, and the return home follows them. -/
theorem searchMissionItems_eq (n : ℕ) :
    searchMissionItems n =
      [.takeoff, .takeoff] ++ (List.range n).map .searchPoint ++ [.rtl] := by
  have hcount : missionCountFor n .search = 2 + (n + 1) := by
    rw [missionCountFor]
    omega
  have hpoints : ∀ i ∈ List.range n, missionItemFor (2 + i) n .search = .searchPoint i := by
    intro i hi
    have hlt := List.mem_range.mp hi
    simp only [missionItemFor]
    rw [if_neg (by omega), if_neg (by omega), Nat.add_sub_cancel_left]
  have hlast : missionItemFor (2 + n) n .search = .rtl := by
    simp only [missionItemFor]
    rw [if_neg (by omega), if_pos (by omega)]
  calc searchMissionItems n
      = (List.range 2).map (fun seq => missionItemFor seq n .search) ++
          (List.range (n + 1)).map (fun i => missionItemFor (2 + i) n .search) := by
        rw [searchMissionItems, hcount, List.range_add, List.map_append, List.map_map]
        rfl
    _ = [.takeoff, .takeoff] ++ ((List.range n).map .searchPoint ++ [.rtl]) := by
        rw [List.range_succ (n := n), List.map_append, List.map_congr_left hpoints,
          List.map_singleton, hlast]
        rfl
    _ = [.takeoff, .takeoff] ++ (List.range n).map .searchPoint ++ [.rtl] :=
        (List.append_assoc ..).symm

/-- The sequence number of a point fits the field. -/
theorem searchPointMissionSeq_eq (hi : i < n) (hn : n + 3 ≤ 65535) :
    searchPointMissionSeq i = i + 2 := by
  rw [searchPointMissionSeq, searchFirstPointSeq, Nat.mod_eq_of_lt]
  omega

/-- The item of a point's sequence number is the point. -/
theorem missionItemFor_searchPointMissionSeq (hi : i < n) (hn : n + 3 ≤ 65535) :
    missionItemFor (searchPointMissionSeq i) n .search = .searchPoint i := by
  simp only [missionItemFor, searchPointMissionSeq_eq hi hn]
  rw [if_neg (by omega), if_neg (by omega), Nat.add_sub_cancel]

/-- The sequence number of an item that is a point is the point's. -/
theorem searchPointMissionSeq_of_item (hn : n + 3 ≤ 65535)
    (h : missionItemFor seq n .search = .searchPoint i) :
    i < n ∧ searchPointMissionSeq i = seq := by
  simp only [missionItemFor] at h
  split_ifs at h
  obtain rfl := MissionItem.searchPoint.inj h
  have hlt : seq - 2 < n := by omega
  rw [searchPointMissionSeq_eq hlt hn]
  omega

end Layout

namespace SearchProgress

section Reached

variable {handle seq : ℕ} {points : List Point} {seqs : List ℕ}

/-- One more item is reached after the others. -/
theorem itemsReached_concat (s : SearchProgress) (seqs : List ℕ) (seq : ℕ) :
    s.itemsReached (seqs ++ [seq]) = (s.itemsReached seqs).itemReached seq :=
  List.foldl_concat ..

/-- A setup item changes nothing. -/
theorem itemReached_setup (s : SearchProgress) (hseq : seq < searchFirstPointSeq) :
    s.itemReached seq = s := by
  unfold itemReached reportReached
  rw [if_neg (Nat.not_le.mpr hseq)]

/-- A point makes the search resume from the next one, or completes it. -/
theorem itemReached_point (s : SearchProgress) (hseq : searchFirstPointSeq ≤ seq)
    (hrange : seq < 2 ^ 16) : s.itemReached seq = (s.reachedPoint (seq - 1)).1 := by
  have hnext : nextSearchPointAfterReachedSeq (seq % 2 ^ 16) = seq - 1 := by
    rw [nextSearchPointAfterReachedSeq, Nat.mod_eq_of_lt hrange]
    unfold searchFirstPointSeq at *
    omega
  unfold itemReached reportReached
  rw [if_pos hseq, hnext]

/-- The setup items are no points. -/
theorem lastPointReached_concat_setup (hseq : seq < searchFirstPointSeq) :
    lastPointReached (seqs ++ [seq]) = lastPointReached seqs := by
  unfold lastPointReached
  rw [List.filter_append, List.filter_singleton, decide_eq_false (Nat.not_le.mpr hseq), cond_false,
    List.append_nil]

/-- The last point is the one just reached. -/
theorem lastPointReached_concat_point (hseq : searchFirstPointSeq ≤ seq) :
    lastPointReached (seqs ++ [seq]) = some seq := by
  unfold lastPointReached
  rw [List.filter_append, List.filter_singleton, decide_eq_true hseq, cond_true,
    List.getLast?_concat]

/-- After reached items: the search is over exactly if one of them was its last point or later, and
is to be resumed after the last point reached as long as it is not. -/
structure Follows (s : SearchProgress) (points : List Point) (seqs : List ℕ) : Prop where
  points_eq : s.points = points
  over_iff : s.search = none ↔ ∃ seq ∈ seqs, points.length + 1 ≤ seq
  resumes : s.search ≠ none → s.currentPoint < points.length ∧
    s.currentPoint + 1 = (lastPointReached seqs).getD 1

/-- A search that was just constructed starts with its first point. -/
theorem follows_new (hpoints : 1 ≤ points.length) : (new handle points).Follows points [] where
  points_eq := rfl
  over_iff := by simp [new]
  resumes := fun _ => ⟨hpoints, rfl⟩

/-- The search is over with one more item if it was, or if the item is its last point or later. -/
theorem Follows.over_concat_iff {s : SearchProgress} (h : s.Follows points seqs) (seq : ℕ) :
    (∃ reached ∈ seqs ++ [seq], points.length + 1 ≤ reached) ↔
      s.search = none ∨ points.length + 1 ≤ seq := by
  rw [h.over_iff]
  simp [or_and_right, exists_or]

/-- A setup item keeps the progress. -/
theorem Follows.setup {s : SearchProgress} (h : s.Follows points seqs)
    (hpoints : 1 ≤ points.length) (hseq : seq < searchFirstPointSeq) :
    (s.itemReached seq).Follows points (seqs ++ [seq]) := by
  have hearlier : ¬points.length + 1 ≤ seq := by
    unfold searchFirstPointSeq at hseq
    omega
  rw [itemReached_setup s hseq]
  constructor
  · exact h.points_eq
  · rw [h.over_concat_iff, or_iff_left hearlier]
  · rw [lastPointReached_concat_setup hseq]
    exact h.resumes

/-- A point that is reached keeps the progress, whether or not it is the last. -/
theorem Follows.point {s : SearchProgress} (h : s.Follows points seqs)
    (hseq : searchFirstPointSeq ≤ seq) (hrange : seq < 2 ^ 16) :
    (s.itemReached seq).Follows points (seqs ++ [seq]) := by
  have hpositive : 2 ≤ seq := hseq
  rw [itemReached_point s hseq hrange]
  unfold reachedPoint
  split
  · next hlast =>
    have hover : points.length + 1 ≤ seq := by
      have hle := hlast.2
      rw [h.points_eq] at hle
      omega
    constructor
    · exact h.points_eq
    · rw [h.over_concat_iff]
      exact iff_of_true rfl (Or.inr hover)
    · intro hheld
      exact absurd rfl hheld
  · next hgoing =>
    have hnotOver : s.search ≠ none → ¬points.length + 1 ≤ seq := by
      intro hheld hover
      apply hgoing
      rw [h.points_eq]
      exact ⟨Option.isSome_iff_ne_none.mpr hheld, by omega⟩
    constructor
    · exact h.points_eq
    · rw [h.over_concat_iff]
      constructor
      · exact Or.inl
      · intro hor
        by_contra hheld
        exact hor.elim hheld (hnotOver hheld)
    · intro hheld
      have hlt := hnotOver hheld
      have hcurrent : seq - 1 < points.length := by omega
      have hprevious : seq - 1 + 1 = seq := by omega
      rw [lastPointReached_concat_point hseq]
      exact ⟨hcurrent, hprevious⟩

/-- Any item that is reached keeps the progress. -/
theorem Follows.itemReached {s : SearchProgress} (h : s.Follows points seqs)
    (hpoints : 1 ≤ points.length) (hrange : seq < 2 ^ 16) :
    (s.itemReached seq).Follows points (seqs ++ [seq]) := by
  cases Nat.lt_or_ge seq searchFirstPointSeq with
  | inl hsetup => exact h.setup hpoints hsetup
  | inr hpoint => exact h.point hpoint hrange

/-- Reached items of any order and number keep the progress. -/
theorem follows_itemsReached (handle : ℕ) (hpoints : 1 ≤ points.length)
    (hrange : ∀ seq ∈ seqs, seq < 2 ^ 16) :
    ((new handle points).itemsReached seqs).Follows points seqs := by
  induction seqs using List.reverseRecOn with
  | nil => exact follows_new hpoints
  | append_singleton seqs seq ih =>
    rw [itemsReached_concat]
    have hbefore : ∀ reached ∈ seqs, reached < 2 ^ 16 := fun reached hmem =>
      hrange reached (List.mem_append_left _ hmem)
    exact (ih hbefore).itemReached hpoints (hrange seq (by simp))

end Reached

section Agreement

/-- The worker takes a reached point as the search does: it completes the held search exactly when
the search is completed, and passes on the point to resume from otherwise. -/
theorem doReachedPoint_eq {w : Smm} {held : SmmCandidate} {s : SearchProgress} {point : ℕ}
    (hheld : w.currentSearch = some held) (hsearch : s.search = some held.search.id)
    (hpoints : s.points = held.search.points) :
    w.doReachedPoint point =
      if (s.reachedPoint point).2 then
        ({ w with currentSearch := none },
          [.complete held, .destroy held.search.id, .publish none, .rtlCb])
      else (w, [.progress held.search.id (s.reachedPoint point).1.currentPoint]) := by
  by_cases hlast : held.search.points.length ≤ point
  · simp [Smm.doReachedPoint, reachedPoint, hheld, hsearch, hpoints, hlast]
  · simp [Smm.doReachedPoint, reachedPoint, hheld, hsearch, hpoints, hlast]

/-- The event loop is handed the point that a reached item reports. -/
theorem next_missionItemReached {a b : App} {seq : ℕ} (hrange : seq < 2 ^ 16)
    (hnext : a.next (.missionItemReached seq) = some b) :
    ∃ point, reportReached seq = some point ∧
      b.eventQueue = a.eventQueue ++
        [.reachedPoint point { loaded := a.loadedSearch, mission := a.mission }] := by
  obtain ⟨⟨-, hpoint, -⟩, rfl⟩ := App.next_missionItemReached_eq_some.mp hnext
  refine ⟨nextSearchPointAfterReachedSeq (seq % 2 ^ 16), if_pos hpoint, ?_⟩
  rw [Nat.mod_eq_of_lt hrange]

end Agreement

/-- What the functions of a search mission agree on: the items in the order advertised; the
sequence numbers and the indices of its points; and for all items reached, in any order, when the
search is over and which item it is to be resumed from until then. -/
structure Coherent (points : List Point) : Prop where
  items : searchMissionItems points.length =
    [.takeoff, .takeoff] ++ (List.range points.length).map .searchPoint ++ [.rtl]
  advertised : missionCountFor points.length .search < 2 ^ 16
  item_of_point : ∀ i < points.length,
    missionItemFor (searchPointMissionSeq i) points.length .search = .searchPoint i
  point_of_item : ∀ seq i, missionItemFor seq points.length .search = .searchPoint i →
    i < points.length ∧ searchPointMissionSeq i = seq
  completed_iff : ∀ handle seqs, (∀ seq ∈ seqs, seq < 2 ^ 16) →
    (((new handle points).itemsReached seqs).search = none ↔
      ∃ seq ∈ seqs, searchPointMissionSeq (points.length - 1) ≤ seq)
  resumes : ∀ handle seqs, (∀ seq ∈ seqs, seq < 2 ^ 16) →
    ((new handle points).itemsReached seqs).search ≠ none →
      ((new handle points).itemsReached seqs).currentPoint < points.length ∧
      searchPointMissionSeq ((new handle points).itemsReached seqs).currentPoint =
        (lastPointReached seqs).elim searchFirstPointSeq (· + 1)

/-- The layout of every search mission that the sequence numbers can count is coherent, and so is
the progress on it. -/
theorem searchMission_coherent {points : List Point} (hpoints : 1 ≤ points.length)
    (hcount : points.length + 3 ≤ 65535) : Coherent points where
  items := searchMissionItems_eq points.length
  advertised := by
    rw [missionCountFor]
    omega
  item_of_point := fun _ hi => missionItemFor_searchPointMissionSeq hi hcount
  point_of_item := fun _ _ => searchPointMissionSeq_of_item hcount
  completed_iff := by
    intro handle seqs hrange
    have hlast := searchPointMissionSeq_eq (Nat.sub_lt hpoints one_pos) hcount
    rw [(follows_itemsReached handle hpoints hrange).over_iff, hlast]
    have hshift : points.length - 1 + 2 = points.length + 1 := by omega
    rw [hshift]
  resumes := by
    intro handle seqs hrange hheld
    obtain ⟨hlt, hnext⟩ := (follows_itemsReached handle hpoints hrange).resumes hheld
    refine ⟨hlt, ?_⟩
    rw [searchPointMissionSeq_eq hlt hcount]
    cases hreached : lastPointReached seqs with
    | none =>
      rw [hreached, Option.getD_none] at hnext
      rw [Option.elim_none, searchFirstPointSeq]
      omega
    | some seq =>
      rw [hreached, Option.getD_some] at hnext
      rw [Option.elim_some]
      omega

/-- A search of three points. -/
def threePoints : List Point := [{}, {}, {}]

/-- The items of a mission of three points are reached one after the other. -/
theorem threePoints_coherent : Coherent threePoints ∧
    ((new 0 threePoints).itemsReached [0, 1, 2, 3, 4, 5]).search = none :=
  ⟨searchMission_coherent (by decide) (by decide), by decide⟩

/-- The first setup item is followed by the second, not by the first point. -/
theorem setupReached_resumes_first_point :
    ¬∀ (points : List Point) handle seqs, 1 ≤ points.length → points.length + 3 ≤ 65535 →
      (∀ seq ∈ seqs, seq < 2 ^ 16) → ((new handle points).itemsReached seqs).search ≠ none →
      ∀ last ∈ seqs.getLast?,
        searchPointMissionSeq ((new handle points).itemsReached seqs).currentPoint = last + 1 := by
  intro h
  have hseq := h threePoints 0 [0] (by decide) (by decide) (by decide) (by decide) 0 (by decide)
  exact absurd hseq (by decide)

end SearchProgress

end CapFmu
