import Mathlib
import LiveHighlight.Proofs.RegionQueries

/-! Moving the regions behind an offset. They are put back one by one under their new starts, so one
could take the place of another. None does if the regions did not overlap before and those that stay
keep out of the way: the index that comes out is the old one, region by region. -/

namespace LiveHighlight

namespace Region

variable {distance : Int} {region moved other : Region}

/-- The whole region is moved, with its length and its construct. -/
structure MovedBy (distance : Int) (region moved : Region) : Prop where
  start : (moved.start : Int) = region.start + distance
  stop : (moved.stop : Int) = region.stop + distance
  construct : moved.construct = region.construct

theorem MovedBy.unique (h : region.MovedBy distance moved) (h' : region.MovedBy distance other) :
    moved = other := by
  have hstart : moved.start = other.start := Int.ofNat.inj (h.start.trans h'.start.symm)
  have hstop : moved.stop = other.stop := Int.ofNat.inj (h.stop.trans h'.stop.symm)
  have hconstruct := h.construct.trans h'.construct.symm
  cases moved
  cases other
  simp_all

theorem MovedBy.symm (h : region.MovedBy distance moved) : moved.MovedBy (-distance) region where
  start := by rw [h.start, Int.add_neg_cancel_right]
  stop := by rw [h.stop, Int.add_neg_cancel_right]
  construct := h.construct.symm

theorem movedBy_zero (region : Region) : region.MovedBy 0 region :=
  ⟨(Int.add_zero _).symm, (Int.add_zero _).symm, rfl⟩

theorem MovedBy.start_lt_stop (h : region.MovedBy distance moved)
    (hpos : region.start < region.stop) : moved.start < moved.stop := by
  rw [← Int.ofNat_lt, h.start, h.stop]
  exact Int.add_lt_add_right (Int.ofNat_lt.2 hpos) distance

/-- Where no bound leaves the words, none is cut off. -/
theorem shift_movedBy (hpos : region.start < region.stop) (hlow : 0 ≤ region.start + distance)
    (hhigh : region.stop + distance ≤ maxOffset) :
    region.MovedBy distance (region.shift distance) := by
  have hword {offset : Nat} (hle : 0 ≤ offset + distance) (hmax : offset + distance ≤ maxOffset) :
      (shiftOffset offset distance : Int) = offset + distance := by
    unfold shiftOffset
    omega
  exact ⟨hword hlow (by omega), hword (by omega) hhigh, rfl⟩

/-- A region that starts before an offset stays, any other is moved. -/
def shiftBehind (offset : Nat) (distance : Int) (region : Region) : Region :=
  if region.start < offset then region else region.shift distance

end Region

open Region

/-- The regions behind an offset have room to be moved: their bounds stay in the words, and on the
way down they do not run into the regions before the offset. -/
structure Movable (regions : List Region) (offset : Nat) (distance : Int) : Prop where
  in_words : ∀ r ∈ regions, offset ≤ r.start →
    0 ≤ r.start + distance ∧ r.stop + distance ≤ maxOffset
  clear : distance < 0 → ∀ a ∈ regions, ∀ b ∈ regions, a.start < offset → offset ≤ b.start →
    (a.stop : Int) ≤ b.start + distance

section

variable {regions : List Region} {offset : Nat} {distance : Int}

theorem Movable.shift_movedBy (h : Movable regions offset distance) (hapart : Apart regions)
    {r : Region} (hr : r ∈ regions) (hbehind : offset ≤ r.start) :
    r.MovedBy distance (r.shift distance) :=
  Region.shift_movedBy (hapart.start_lt_stop r hr) (h.in_words r hr hbehind).1
    (h.in_words r hr hbehind).2

/-- What becomes of one region: it stays where it is, or it is moved as a whole. -/
theorem Movable.shiftBehind_cases (h : Movable regions offset distance) (hapart : Apart regions)
    {r : Region} (hr : r ∈ regions) :
    r.start < offset ∧ r.shiftBehind offset distance = r ∨
      offset ≤ r.start ∧ r.MovedBy distance (r.shiftBehind offset distance) := by
  unfold shiftBehind
  split_ifs with hbefore
  · exact .inl ⟨hbefore, rfl⟩
  · exact .inr ⟨Nat.not_lt.1 hbefore, h.shift_movedBy hapart hr (Nat.not_lt.1 hbefore)⟩

theorem Movable.apart (h : Movable regions offset distance) (hapart : Apart regions) :
    Apart (regions.map (shiftBehind offset distance)) := by
  refine ⟨fun m hm => ?_, List.pairwise_map.2 ?_⟩
  · obtain ⟨r, hr, rfl⟩ := List.mem_map.1 hm
    have hpos := hapart.start_lt_stop r hr
    rcases h.shiftBehind_cases hapart hr with ⟨-, hstays⟩ | ⟨-, hmoved⟩
    · rwa [hstays]
    · exact hmoved.start_lt_stop hpos
  · refine hapart.stop_le_start.imp_of_mem fun {a b} ha hb hab => ?_
    have hlt := hapart.start_lt_stop a ha
    rw [← Int.ofNat_le]
    rcases h.shiftBehind_cases hapart ha with ⟨hbefore, hstays⟩ | ⟨hbehind, hmoved⟩
    · rcases h.shiftBehind_cases hapart hb with ⟨-, hstays'⟩ | ⟨hbehind', hmoved'⟩
      · rw [hstays, hstays']
        exact Int.ofNat_le.2 hab
      · -- only a move down can bring the second region near the first one
        rw [hstays, hmoved'.start]
        rcases Int.lt_or_le distance 0 with hdown | hup
        · exact h.clear hdown a ha b hb hbefore hbehind'
        · exact (Int.ofNat_le.2 hab).trans (Int.le_add_of_nonneg_right hup)
    · rcases h.shiftBehind_cases hapart hb with ⟨hbefore', -⟩ | ⟨-, hmoved'⟩
      · exact absurd (hbehind.trans (hlt.le.trans hab)) (Nat.not_le.2 hbefore')
      · rw [hmoved.stop, hmoved'.start]
        exact Int.add_le_add_right (Int.ofNat_le.2 hab) distance

end

namespace RegionIndex

variable {index : RegionIndex} {offset : Nat} {distance : Int}

theorem toList_eq_append (index : RegionIndex) (offset : Nat) :
    index.toList =
      index.toList.filter (·.start < offset) ++ index.toList.filter (offset ≤ ·.start) := by
  obtain ⟨regions, hordered⟩ := index
  dsimp only
  induction regions with
  | nil => rfl
  | cons r rest ih =>
    obtain ⟨hfirst, hrest⟩ := List.pairwise_cons.1 hordered
    rcases Nat.lt_or_ge r.start offset with hbefore | hbehind
    · rw [List.filter_cons_of_pos (by simpa using hbefore),
        List.filter_cons_of_neg (by simpa using hbefore), List.cons_append, ← ih hrest]
    · have hnone : rest.filter (·.start < offset) = [] :=
        List.filter_eq_nil_iff.2 fun a ha => by
          simpa using hbehind.trans (hfirst a ha).le
      have hall : rest.filter (offset ≤ ·.start) = rest := by
        have hsplit := (ih hrest).symm
        rwa [hnone, List.nil_append] at hsplit
      rw [List.filter_cons_of_neg (by simpa using hbehind),
        List.filter_cons_of_pos (by simpa using hbehind), hnone, hall, List.nil_append]

/-- As long as the new starts are in order, no region is replaced on the way. -/
theorem shiftFrom_toList
    (hzero : distance = 0 → ∀ r ∈ index.toList, offset ≤ r.start → r.shift distance = r)
    (hordered : (index.toList.map (shiftBehind offset distance)).Pairwise
      fun a b => a.start < b.start) :
    (index.shiftFrom offset distance).toList = index.toList.map (shiftBehind offset distance) := by
  have hsplit := index.toList_eq_append offset
  have hleft {r : Region} (hr : r ∈ index.toList.filter (·.start < offset)) : r.start < offset := by
    simpa using (List.mem_filter.1 hr).2
  have hright {r : Region} (hr : r ∈ index.toList.filter (offset ≤ ·.start)) :
      offset ≤ r.start := by
    simpa using (List.mem_filter.1 hr).2
  have hmap : index.toList.map (shiftBehind offset distance) =
      index.toList.filter (·.start < offset) ++
        (index.toList.filter (offset ≤ ·.start)).map (·.shift distance) := by
    conv_lhs => rw [hsplit, List.map_append]
    congr 1
    · exact (List.map_congr_left fun r hr => if_pos (hleft hr)).trans (List.map_id _)
    · exact List.map_congr_left fun r hr => if_neg (Nat.not_lt.2 (hright hr))
  rw [hmap] at hordered ⊢
  refine shiftFrom_append hsplit (fun r => hleft) (fun r => hright) (fun hz => ?_) hordered
  refine (List.map_congr_left fun r hr => ?_).trans (List.map_id _)
  exact hzero hz r (List.mem_filter.1 hr).1 (hright hr)

theorem shiftFrom_movable (hapart : Apart index.toList)
    (h : Movable index.toList offset distance) :
    (index.shiftFrom offset distance).toList = index.toList.map (shiftBehind offset distance) := by
  refine shiftFrom_toList (fun hzero r hr hbehind => ?_) (h.apart hapart).ordered
  have hmoved := h.shift_movedBy hapart hr hbehind
  rw [hzero] at hmoved ⊢
  exact hmoved.unique r.movedBy_zero

/-- Up and down again by the same distance: a region that was moved is behind the offset as it was
moved, and one that was not is still before it. -/
theorem shiftBehind_back (hup : 0 ≤ distance) (hapart : Apart index.toList)
    (h : Movable index.toList offset distance) {r : Region} (hr : r ∈ index.toList) :
    (r.shiftBehind offset distance).shiftBehind (offset + distance.toNat) (-distance) = r := by
  rcases h.shiftBehind_cases hapart hr with ⟨hbefore, hstays⟩ | ⟨hbehind, hmoved⟩
  · rw [hstays, shiftBehind, if_pos (Nat.lt_add_right _ hbefore)]
  · have hpos := hapart.start_lt_stop r hr
    have hstop := (h.in_words r hr hbehind).2
    have hstart := hmoved.start
    have hback : (r.shiftBehind offset distance).MovedBy (-distance)
        ((r.shiftBehind offset distance).shift (-distance)) := by
      apply shift_movedBy (hmoved.start_lt_stop hpos)
      · rw [hmoved.start]
        omega
      · rw [hmoved.stop]
        omega
    rw [shiftBehind, if_neg (by omega)]
    exact hback.unique hmoved.symm

theorem shiftFrom_back (hup : 0 ≤ distance) (hapart : Apart index.toList)
    (h : Movable index.toList offset distance) :
    (index.shiftFrom offset distance).shiftFrom (offset + distance.toNat) (-distance) = index := by
  have hback : (index.shiftFrom offset distance).toList.map
      (shiftBehind (offset + distance.toNat) (-distance)) = index.toList := by
    rw [shiftFrom_movable hapart h, List.map_map]
    exact (List.map_congr_left fun r hr => shiftBehind_back hup hapart h hr).trans (List.map_id _)
  rcases eq_or_ne distance 0 with rfl | hne
  · simp [shiftFrom]
  · apply eq_of_toList
    rw [shiftFrom_toList, hback]
    · exact fun hzero => absurd (Int.neg_eq_zero.1 hzero) hne
    · rw [hback]
      exact index.ordered

/-- Regions that have room are moved without a loss. Each region before the offset stays and each
other one is moved as a whole, all in the order they had, and still no two of them overlap. What was
moved up comes back by moving it down. -/
theorem shiftFrom_moves_each (hpos : ∀ r ∈ index.toList, r.start < r.stop)
    (hdisjoint : ∀ a ∈ index.toList, ∀ b ∈ index.toList, a ≠ b → ¬ a.Shares b)
    (h : Movable index.toList offset distance) :
    let shifted := index.shiftFrom offset distance
    List.Forall₂ (fun r m => r.start < offset ∧ m = r ∨ offset ≤ r.start ∧ r.MovedBy distance m)
        index.toList shifted.toList ∧
      shifted.size = index.size ∧
      Apart shifted.toList ∧
      (∀ a ∈ shifted.toList, ∀ b ∈ shifted.toList, a ≠ b → ¬ a.Shares b) ∧
      (0 ≤ distance → shifted.shiftFrom (offset + distance.toNat) (-distance) = index) := by
  intro shifted
  have hapart := apart_of_unshared hpos hdisjoint
  have hshifted : shifted.toList = index.toList.map (shiftBehind offset distance) :=
    shiftFrom_movable hapart h
  have hapart' : Apart shifted.toList := hshifted ▸ h.apart hapart
  refine ⟨?_, ?_, hapart', fun a ha b hb hne => ?_, fun hup => shiftFrom_back hup hapart h⟩
  · rw [hshifted, List.forall₂_map_right_iff, List.forall₂_same]
    exact fun r hr => h.shiftBehind_cases hapart hr
  · rw [size, size, hshifted, List.length_map]
  · rintro ⟨p, hap, hbp⟩
    exact hne (hapart'.eq_of_covers ha hb hap.1 hap.2 hbp.1 hbp.2)

/-- Three regions, of which the last two are moved down until they touch the first one, or up and
back again. -/
theorem shiftFrom_moves_each_touching :
    let index : RegionIndex :=
      ⟨[⟨0, 4, .comment⟩, ⟨10, 14, .string⟩, ⟨20, 24, .comment⟩], by decide⟩
    (index.shiftFrom 10 (-6)).toList =
        [⟨0, 4, .comment⟩, ⟨4, 8, .string⟩, ⟨14, 18, .comment⟩] ∧
      Apart (index.shiftFrom 10 (-6)).toList ∧
      (index.shiftFrom 10 3).toList =
        [⟨0, 4, .comment⟩, ⟨13, 17, .string⟩, ⟨23, 27, .comment⟩] ∧
      (index.shiftFrom 10 3).shiftFrom 13 (-3) = index := by
  intro index
  have hpos : ∀ r ∈ index.toList, r.start < r.stop := by decide
  have hapart : ∀ a ∈ index.toList, ∀ b ∈ index.toList, a ≠ b →
      a.meets b.start b.stop = false := by decide
  have hdisjoint : ∀ a ∈ index.toList, ∀ b ∈ index.toList, a ≠ b → ¬ a.Shares b := by
    intro a ha b hb hne
    rw [Region.shares_iff_meets (hpos a ha) (hpos b hb), hapart a ha b hb hne]
    decide
  have hdown : Movable index.toList 10 (-6) := ⟨by decide, by decide⟩
  have hup : Movable index.toList 10 3 := ⟨by decide, by decide⟩
  obtain ⟨-, -, hclear, -⟩ := shiftFrom_moves_each hpos hdisjoint hdown
  obtain ⟨-, -, -, -, hback⟩ := shiftFrom_moves_each hpos hdisjoint hup
  exact ⟨by decide, hclear, by decide, hback (by decide)⟩

end RegionIndex
end LiveHighlight
