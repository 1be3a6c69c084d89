import Mathlib
import LiveHighlight.Proofs.RegionOrder

/-! What an index answers is what a look at every region would give. The queries start at the last
region before the end of a range and walk back until one ends too early. No region is missed that
way because the regions do not overlap. -/

namespace LiveHighlight

/-- Two regions have an offset in common. -/
def Region.Shares (a b : Region) : Prop :=
  ∃ p, (a.start ≤ p ∧ p < a.stop) ∧ b.start ≤ p ∧ p < b.stop

theorem Region.shares_iff_meets {a b : Region} (ha : a.start < a.stop) (hb : b.start < b.stop) :
    a.Shares b ↔ a.meets b.start b.stop = true := by
  simp only [Shares, meets, Bool.and_eq_true, decide_eq_true_eq]
  constructor
  · rintro ⟨p, hap, hbp⟩
    omega
  · rintro ⟨hab, hba⟩
    exact ⟨max a.start b.start, by omega, by omega⟩

namespace RegionIndex

variable {index : RegionIndex}

theorem eq_of_start {a b : Region} (ha : a ∈ index.toList) (hb : b ∈ index.toList)
    (h : a.start = b.start) : a = b := by
  have hnodup : (index.toList.map Region.start).Nodup :=
    List.pairwise_map.2 (index.ordered.imp Nat.ne_of_lt)
  exact List.inj_on_of_nodup_map hnodup ha hb h

theorem apart_of_unshared (hpos : ∀ r ∈ index.toList, r.start < r.stop)
    (hdisjoint : ∀ a ∈ index.toList, ∀ b ∈ index.toList, a ≠ b → ¬ a.Shares b) :
    Apart index.toList := by
  refine apart_of_disjoint hpos fun a ha b hb hne => ?_
  rw [← Bool.not_eq_true, ← Region.shares_iff_meets (hpos a ha) (hpos b hb)]
  exact hdisjoint a ha b hb hne

/-- Without the region that was found, the walk back goes on from the one before it. -/
theorem intersecting_erase {start stop : Nat} {region : Region}
    (h : index.find? start stop = some region) :
    index.intersecting start stop =
      region :: (index.erase region.start).intersecting start stop := by
  obtain ⟨hlast, hreach⟩ := Option.filter_eq_some_iff.1 h
  obtain ⟨front, hfront⟩ := List.getLast?_eq_some_iff.1 hlast
  have hordered : (index.before stop).Pairwise fun a b => a.start < b.start :=
    index.ordered.filter _
  rw [hfront] at hordered
  have hbefore : (index.erase region.start).before stop = front := by
    have hkeep : front.filter (·.start ≠ region.start) = front := by
      refine List.filter_eq_self.2 fun r hr => ?_
      have hlt := (List.pairwise_append.1 hordered).2.2 r hr region (List.mem_singleton_self _)
      simpa using hlt.ne
    calc (index.erase region.start).before stop
      _ = (index.before stop).filter (·.start ≠ region.start) := by
        simp only [before, erase, filter, List.filter_filter, Bool.and_comm]
      _ = front := by rw [hfront, List.filter_append, hkeep]; simp
  rw [intersecting, hfront, List.reverse_append, List.reverse_singleton, List.singleton_append,
    List.takeWhile_cons, if_pos hreach, intersecting, hbefore]

theorem removeIntersecting_erase {start stop : Nat} {region : Region}
    (h : index.find? start stop = some region) :
    (index.erase region.start).removeIntersecting start stop =
      index.removeIntersecting start stop := by
  apply eq_of_toList
  rw [removeIntersecting, removeIntersecting, intersecting_erase h]
  generalize (index.erase region.start).intersecting start stop = behind
  simp only [erase, filter, List.filter_filter]
  refine List.filter_congr fun r hr => ?_
  have hregion : r = region ↔ r.start = region.start :=
    ⟨congrArg Region.start, eq_of_start hr (mem_of_find? h)⟩
  simp [hregion, Bool.and_comm]

/-- Taking regions out one by one takes out those that the walk back meets, and no others. -/
theorem extract_eq (index : RegionIndex) (start stop : Nat) :
    index.extract start stop =
      ((index.intersecting start stop).reverse, index.removeIntersecting start stop) := by
  induction index using extract.induct start stop with
  | case1 index hnone =>
    rw [extract]
    split
    · have hempty : index.intersecting start stop = [] := by
        rwa [find?_eq_head?, List.head?_eq_none_iff] at hnone
      rw [hempty, removeIntersecting, hempty]
      refine Prod.ext rfl (eq_of_toList ?_)
      simp [filter]
    · next hsome => simp [hnone] at hsome
  | case2 index region hsome taken rest hrest ih =>
    rw [extract]
    split
    · next hnone => simp [hnone] at hsome
    · next found hfound =>
      obtain rfl := Option.some.inj (hfound.symm.trans hsome)
      rw [ih, intersecting_erase hfound, removeIntersecting_erase hfound, List.reverse_cons]

theorem place_perm {region : Region} {rs : List Region} (h : ∀ r ∈ rs, r.start ≠ region.start) :
    (place region rs).Perm (region :: rs) := by
  induction rs with
  | nil => exact List.Perm.refl _
  | cons other rest ih =>
    have hrest := ih fun r hr => h r (List.mem_cons_of_mem _ hr)
    rw [place]
    split_ifs with hlt heq
    · exact List.Perm.refl _
    · exact absurd heq.symm (h other List.mem_cons_self)
    · exact (hrest.cons other).trans (List.Perm.swap _ _ _)

theorem insert_ok_iff (h : Apart index.toList) (region : Region) :
    (∃ next, index.insert region = .ok next) ↔
      ∀ r ∈ index.toList, r.meets region.start region.stop = false := by
  rw [← find?_eq_none_iff h, insert]
  cases index.find? region.start region.stop with
  | none => simp
  | some existing => simp

/-- A region that goes in changes nothing else, and still no two regions overlap. -/
theorem insert_adds (h : Apart index.toList) {region : Region} (hpos : region.start < region.stop)
    {next : RegionIndex} (hinsert : index.insert region = .ok next) :
    next.toList.Perm (region :: index.toList) ∧ Apart next.toList := by
  have hfree := (insert_ok_iff h region).1 ⟨next, hinsert⟩
  have hnext : next = index.put region := by
    rw [insert, (find?_eq_none_iff h _ _).2 hfree] at hinsert
    exact (Except.ok.inj hinsert).symm
  have hperm : next.toList.Perm (region :: index.toList) := by
    rw [hnext]
    refine place_perm fun r hr heq => ?_
    have hmiss := hfree r hr
    have hlt := h.start_lt_stop r hr
    simp only [Region.meets, Bool.and_eq_false_iff, decide_eq_false_iff_not] at hmiss
    omega
  refine ⟨hperm, apart_of_disjoint (fun r hr => ?_) fun a ha b hb hne => ?_⟩
  · rcases List.mem_cons.1 (hperm.subset hr) with rfl | hr
    · exact hpos
    · exact h.start_lt_stop r hr
  · rcases List.mem_cons.1 (hperm.subset ha) with rfl | hold
    · rcases List.mem_cons.1 (hperm.subset hb) with rfl | hold
      · exact absurd rfl hne
      · rw [Region.meets_comm]
        exact hfree b hold
    · rcases List.mem_cons.1 (hperm.subset hb) with rfl | hold'
      · exact hfree a hold
      · rw [← Bool.not_eq_true,
          ← Region.shares_iff_meets (h.start_lt_stop a hold) (h.start_lt_stop b hold')]
        rintro ⟨p, hap, hbp⟩
        exact hne (h.eq_of_covers hold hold' hap.1 hap.2 hbp.1 hbp.2)

theorem insert_refused {region : Region} {e : HighlightError} (h : index.insert region = .error e) :
    ∃ existing ∈ index.toList, e = .overlappingRegion region existing ∧
      existing.meets region.start region.stop = true := by
  unfold insert at h
  split at h
  · next existing hfound =>
    cases h
    obtain ⟨hmem, hmeets⟩ := meets_of_find? hfound
    exact ⟨existing, hmem, rfl, hmeets⟩
  · cases h

/-- On regions that are not empty and do not overlap, every query agrees with a scan of all regions,
whatever the range is. What overlaps a range is found last first, and taken out in order so that
nothing is left to take out. A region goes in exactly if it shares no offset with one that is
there. If it does not, there is no other index than before and one of those it overlaps is named. -/
theorem queries_agree_with_scan (hpos : ∀ r ∈ index.toList, r.start < r.stop)
    (hdisjoint : ∀ a ∈ index.toList, ∀ b ∈ index.toList, a ≠ b → ¬ a.Shares b) (start stop : Nat) :
    let overlapping := index.toList.filter fun r => r.start < stop ∧ start < r.stop
    index.find? start stop = overlapping.getLast? ∧
      index.intersecting start stop = overlapping.reverse ∧
      (index.extract start stop).1 = overlapping ∧
      (index.extract start stop).2.toList =
        index.toList.filter (fun r => ¬ (r.start < stop ∧ start < r.stop)) ∧
      ((index.extract start stop).2.extract start stop).1 = [] ∧
      ∀ region : Region, region.start < region.stop →
        ((∃ next, index.insert region = .ok next) ↔ ∀ r ∈ index.toList, ¬ r.Shares region) ∧
        (∀ next, index.insert region = .ok next → next.toList.Perm (region :: index.toList)) ∧
        ∀ e, index.insert region = .error e →
          ∃ existing ∈ index.toList, e = .overlappingRegion region existing ∧
            existing.Shares region := by
  intro overlapping
  have hapart := apart_of_unshared hpos hdisjoint
  have hscan : overlapping = index.toList.filter (·.meets start stop) := by
    simp [overlapping, Region.meets]
  have hwalk : index.intersecting start stop = overlapping.reverse := by
    rw [intersecting_eq hapart, hscan]
  have hrest := removeIntersecting_toList hapart start stop
  have hagain : (index.removeIntersecting start stop).intersecting start stop = [] := by
    rw [intersecting_eq (hrest ▸ hapart.sublist List.filter_sublist), hrest, List.filter_filter]
    simp
  refine ⟨?_, hwalk, ?_, ?_, ?_, fun region hregion => ⟨?_, fun next hinsert => ?_, fun e he => ?_⟩⟩
  · rw [find?_eq_head?, hwalk, List.head?_reverse]
  · rw [extract_eq, hwalk, List.reverse_reverse]
  · rw [extract_eq, hrest]
    refine List.filter_congr fun r _ => ?_
    rw [Region.meets, ← Bool.decide_and, ← decide_not]
  · rw [extract_eq index, extract_eq, hagain, List.reverse_nil]
  · rw [insert_ok_iff hapart]
    refine forall₂_congr fun r hr => ?_
    rw [Region.shares_iff_meets (hpos r hr) hregion, Bool.not_eq_true]
  · exact (insert_adds hapart hregion hinsert).1
  · obtain ⟨existing, hmem, hnamed, hmeets⟩ := insert_refused he
    exact ⟨existing, hmem, hnamed, (Region.shares_iff_meets (hpos existing hmem) hregion).2 hmeets⟩

/-- Three regions, of which the first two touch and the range ends where the third one starts. What
fills the hole between them goes in, what reaches back by one offset is refused. -/
theorem queries_agree_with_scan_touching :
    let index : RegionIndex :=
      ⟨[⟨0, 5, .comment⟩, ⟨5, 6, .string⟩, ⟨9, 12, .comment⟩], by decide⟩
    index.find? 4 9 = some ⟨5, 6, .string⟩ ∧
      (index.extract 4 9).1 = [⟨0, 5, .comment⟩, ⟨5, 6, .string⟩] ∧
      (index.extract 4 9).2.toList = [⟨9, 12, .comment⟩] ∧
      (∃ next, index.insert ⟨6, 9, .comment⟩ = .ok next) ∧
      ¬ ∃ next, index.insert ⟨5, 9, .comment⟩ = .ok next := by
  intro index
  have hpos : ∀ r ∈ index.toList, r.start < r.stop := by decide
  have hapart : ∀ a ∈ index.toList, ∀ b ∈ index.toList, a ≠ b →
      a.meets b.start b.stop = false := by decide
  have hdisjoint : ∀ a ∈ index.toList, ∀ b ∈ index.toList, a ≠ b → ¬ a.Shares b := by
    intro a ha b hb hne
    rw [Region.shares_iff_meets (hpos a ha) (hpos b hb), hapart a ha b hb hne]
    decide
  obtain ⟨hfind, -, htaken, hleft, -, hinsert⟩ := queries_agree_with_scan hpos hdisjoint 4 9
  refine ⟨hfind.trans (by decide), htaken.trans (by decide), hleft.trans (by decide), ?_, ?_⟩
  · rw [(hinsert ⟨6, 9, .comment⟩ (by decide)).1]
    have hmiss : ∀ r ∈ index.toList, r.meets 6 9 = false := by decide
    intro r hr
    rw [Region.shares_iff_meets (hpos r hr) (by decide), hmiss r hr]
    decide
  · rw [(hinsert ⟨5, 9, .comment⟩ (by decide)).1]
    intro hfree
    exact hfree ⟨5, 6, .string⟩ (by decide) ⟨5, by decide, by decide⟩

end RegionIndex
end LiveHighlight
