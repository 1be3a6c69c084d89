import Mathlib
import LiveHighlight.Highlight.Fragments
import LiveHighlight.Proofs.RegionQueries
import LiveHighlight.Proofs.Widening

/-! Which fragments make up constructs. Whatever a lexer returns, its fragments are accepted exactly
if they are the blocks of constructs one after the other, the last one possibly without its end.
Each closed block is a region then, and otherwise the first fragment that fits no block is the one
that is refused. -/

namespace LiveHighlight.Fragments

open Extent

/-- A construct from its opening fragment on, with the fragments that carry it over rows. -/
structure Block where
  opening : Placed
  middles : List Placed
  opens : opening.part = .opening
  carries : ∀ f ∈ middles, f.part = .middle ∧ f.construct = opening.construct

/-- A block with the fragment that closes it. -/
structure ClosedBlock extends Block where
  closing : Placed
  closes : closing.part = .closing ∧ closing.construct = opening.construct

def Block.fragments (block : Block) : List Placed := block.opening :: block.middles

def Block.unclosed (block : Block) : Unclosed := ⟨block.opening.start, block.opening.construct⟩

def ClosedBlock.fragments (block : ClosedBlock) : List Placed :=
  block.toBlock.fragments ++ [block.closing]

def ClosedBlock.region (block : ClosedBlock) : Region :=
  ⟨block.opening.start, block.closing.stop, block.opening.construct⟩

/-- Fragments read as closed blocks and perhaps one that is left open. -/
structure Reading where
  closed : List ClosedBlock
  last : Option Block

def Reading.fragments (reading : Reading) : List Placed :=
  reading.closed.flatMap ClosedBlock.fragments ++ reading.last.elim [] Block.fragments

def WellFormed (fragments : List Placed) : Prop :=
  ∃ reading : Reading, reading.fragments = fragments

/-- Ranges in order that are not empty and do not overlap. -/
structure Spaced (spans : List Span) : Prop where
  start_lt_stop : ∀ s ∈ spans, s.start < s.stop
  stop_le_start : spans.Pairwise fun a b => a.stop ≤ b.start

theorem Spaced.sublist {spans part : List Span} (h : Spaced spans) (hsub : part.Sublist spans) :
    Spaced part :=
  ⟨fun s hs => h.start_lt_stop s (hsub.subset hs), h.stop_le_start.sublist hsub⟩

theorem Spaced.first_le {spans : List Span} (h : Spaced spans) {first s : Span}
    (hfirst : spans.head? = some first) (hs : s ∈ spans) : first.start ≤ s.start := by
  obtain ⟨rest, rfl⟩ := List.head?_eq_some_iff.1 hfirst
  rcases List.mem_cons.1 hs with rfl | hs
  · exact Nat.le_refl _
  · have hlt := h.start_lt_stop first List.mem_cons_self
    exact hlt.le.trans ((List.pairwise_cons.1 h.stop_le_start).1 s hs)

theorem Spaced.le_last {spans : List Span} (h : Spaced spans) {last s : Span}
    (hlast : spans.getLast? = some last) (hs : s ∈ spans) : s.stop ≤ last.stop := by
  obtain ⟨front, rfl⟩ := List.getLast?_eq_some_iff.1 hlast
  rcases List.mem_append.1 hs with hs | hs
  · have hle := (List.pairwise_append.1 h.stop_le_start).2.2 s hs last (List.mem_singleton_self _)
    exact hle.trans (h.start_lt_stop last (by simp)).le
  · rw [List.mem_singleton.1 hs]

def Placed.span (f : Placed) : Span := ⟨f.start, f.stop⟩

/-- The ranges of offsets that the tokens of the rows take up. -/
def spans (text : Text) (buckets : RowBuckets) : List Span :=
  buckets.numbered.flatMap fun (tokens, row) => tokens.map fun token =>
    ⟨text.rowStart row + token.location.column,
      text.rowStart row + token.location.column + token.length⟩

theorem ofRows_sublist_spans (text : Text) (buckets : RowBuckets) :
    ((ofRows text buckets).map Placed.span).Sublist (spans text buckets) := by
  rw [ofRows, spans, List.map_flatMap]
  refine List.Sublist.flatMap_right _ ?_
  rintro ⟨tokens, row⟩ -
  dsimp only
  induction tokens with
  | nil => exact List.Sublist.slnil
  | cons token rest ih =>
    rw [List.filterMap_cons, List.map_cons]
    cases hfragment : token.fragment with
    | none =>
      simp only [place, hfragment, Option.map_none]
      exact ih.cons _
    | some found =>
      simp only [place, hfragment, Option.map_some, List.map_cons]
      exact ih.cons_cons _

section

variable {index : RegionIndex}

theorem derive_middles {u : Unclosed} {middles : List Placed}
    (h : ∀ f ∈ middles, f.part = .middle ∧ f.construct = u.construct) (more : List Placed) :
    derive (some u) (middles ++ more) index = derive (some u) more index := by
  induction middles with
  | nil => rfl
  | cons f rest ih =>
    obtain ⟨hpart, hconstruct⟩ := h f List.mem_cons_self
    rw [List.cons_append, derive, if_neg (by simp [hconstruct]), hpart]
    exact ih fun g hg => h g (List.mem_cons_of_mem _ hg)

theorem derive_block (block : Block) (more : List Placed) :
    derive none (block.fragments ++ more) index = derive (some block.unclosed) more index := by
  rw [Block.fragments, List.cons_append, derive, block.opens]
  exact derive_middles block.carries more

theorem derive_closedBlock (block : ClosedBlock) {next : RegionIndex}
    (h : index.insert block.region = .ok next) (more : List Placed) :
    derive none (block.fragments ++ more) index = derive none more next := by
  have hsame : ¬ block.unclosed.construct ≠ block.closing.construct := by
    rw [not_not, block.closes.2]
    rfl
  have hinsert : index.insert
      ⟨block.unclosed.start, block.closing.stop, block.unclosed.construct⟩ = .ok next := h
  rw [ClosedBlock.fragments, List.append_assoc, derive_block, List.singleton_append, derive,
    if_neg hsame, block.closes.1]
  dsimp only
  rw [hinsert]

/-- Closed blocks whose regions overlap nothing are all accepted, and their regions are added. -/
theorem derive_closedBlocks {blocks : List ClosedBlock} (hindex : Apart index.toList)
    (hblocks : Apart (blocks.map ClosedBlock.region))
    (hfree : ∀ r ∈ index.toList, ∀ block ∈ blocks,
      r.meets block.region.start block.region.stop = false) (more : List Placed) :
    ∃ next : RegionIndex,
      next.toList.Perm (index.toList ++ blocks.map ClosedBlock.region) ∧
      derive none (blocks.flatMap ClosedBlock.fragments ++ more) index = derive none more next := by
  induction blocks generalizing index with
  | nil => exact ⟨index, by simp, rfl⟩
  | cons block rest ih =>
    rw [List.map_cons] at hblocks
    obtain ⟨hfirst, -⟩ := List.pairwise_cons.1 hblocks.stop_le_start
    have hpos := hblocks.start_lt_stop block.region List.mem_cons_self
    obtain ⟨middle, hinsert⟩ := (RegionIndex.insert_ok_iff hindex block.region).2
      fun r hr => hfree r hr block List.mem_cons_self
    obtain ⟨hperm, hmiddle⟩ := RegionIndex.insert_adds hindex hpos hinsert
    have hfree' : ∀ r ∈ middle.toList, ∀ other ∈ rest,
        r.meets other.region.start other.region.stop = false := by
      intro r hr other hother
      rcases List.mem_cons.1 (hperm.subset hr) with rfl | hr
      · -- the region that was just added ends before the next one starts
        have hle := hfirst other.region (List.mem_map_of_mem hother)
        simp only [Region.meets, Bool.and_eq_false_iff, decide_eq_false_iff_not]
        omega
      · exact hfree r hr other (List.mem_cons_of_mem _ hother)
    obtain ⟨next, hnext, hderive⟩ :=
      ih hmiddle (hblocks.sublist (List.sublist_cons_self _ _)) hfree'
    refine ⟨next, ?_, ?_⟩
    · exact hnext.trans ((hperm.append_right _).trans List.perm_middle.symm)
    · rw [List.flatMap_cons, List.append_assoc, derive_closedBlock block hinsert, hderive]

end

theorem ClosedBlock.opening_mem (block : ClosedBlock) : block.opening ∈ block.fragments :=
  List.mem_append_left _ List.mem_cons_self

theorem ClosedBlock.closing_mem (block : ClosedBlock) : block.closing ∈ block.fragments :=
  List.mem_append_right _ (List.mem_singleton_self _)

theorem ClosedBlock.start_lt_stop (block : ClosedBlock)
    (h : Spaced (block.fragments.map Placed.span)) : block.region.start < block.region.stop := by
  have hopening := h.start_lt_stop _ (List.mem_map_of_mem block.opening_mem)
  have hle : block.opening.span.stop ≤ block.closing.span.stop := by
    refine h.le_last ?_ (List.mem_map_of_mem block.opening_mem)
    simp [ClosedBlock.fragments]
  exact hopening.trans_le hle

theorem apart_regions {blocks : List ClosedBlock}
    (h : Spaced ((blocks.flatMap ClosedBlock.fragments).map Placed.span)) :
    Apart (blocks.map ClosedBlock.region) := by
  refine ⟨fun r hr => ?_, ?_⟩
  · obtain ⟨block, hblock, rfl⟩ := List.mem_map.1 hr
    obtain ⟨front, back, rfl⟩ := List.append_of_mem hblock
    refine block.start_lt_stop (h.sublist (List.Sublist.map _ ?_))
    rw [List.flatMap_append, List.flatMap_cons]
    exact (List.sublist_append_left _ _).trans (List.sublist_append_right _ _)
  · have hpairs := h.stop_le_start
    rw [List.pairwise_map, List.pairwise_flatMap] at hpairs
    rw [List.pairwise_map]
    refine hpairs.2.imp fun {a b} hab => ?_
    exact hab a.closing a.closing_mem b.opening b.opening_mem

/-- Fragments in order, and regions that lie apart from each other and from the fragments. -/
structure Clear (index : RegionIndex) (fragments : List Placed) : Prop where
  apart : Apart index.toList
  spaced : Spaced (fragments.map Placed.span)
  free : ∀ r ∈ index.toList, ∀ a ∈ fragments, ∀ b ∈ fragments, r.meets a.start b.stop = false

theorem Clear.sublist {index : RegionIndex} {fragments part : List Placed}
    (h : Clear index fragments) (hsub : part.Sublist fragments) : Clear index part :=
  ⟨h.apart, h.spaced.sublist (hsub.map _),
    fun r hr a ha b hb => h.free r hr a (hsub.subset ha) b (hsub.subset hb)⟩

theorem clear_ofRows {text : Text} {buckets : RowBuckets} {index : RegionIndex}
    (hindex : Apart index.toList) (htokens : Spaced (spans text buckets))
    (hfree : ∀ first last, (spans text buckets).head? = some first →
      (spans text buckets).getLast? = some last →
        ∀ r ∈ index.toList, r.meets first.start last.stop = false) :
    Clear index (ofRows text buckets) := by
  have hsub := ofRows_sublist_spans text buckets
  refine ⟨hindex, htokens.sublist hsub, fun r hr a ha b hb => ?_⟩
  have ha' := hsub.subset (List.mem_map_of_mem ha)
  have hb' := hsub.subset (List.mem_map_of_mem hb)
  have hne := List.ne_nil_of_mem ha'
  have hnone := hfree _ _ (List.head?_eq_some_head hne) (List.getLast?_eq_some_getLast hne) r hr
  rw [← Bool.not_eq_true] at hnone ⊢
  exact fun hmeets => hnone (meets_mono (htokens.first_le (List.head?_eq_some_head hne) ha')
    (htokens.le_last (List.getLast?_eq_some_getLast hne) hb') hmeets)

/-- The blocks at the front are read one after the other, and what is left open is the block without
its end. -/
theorem derive_reading {index : RegionIndex} (reading : Reading)
    (h : Clear index reading.fragments) (more : List Placed) :
    ∃ next : RegionIndex,
      next.toList.Perm (index.toList ++ reading.closed.map ClosedBlock.region) ∧
      derive none (reading.fragments ++ more) index =
        derive (reading.last.map Block.unclosed) more next := by
  have hclosed : (reading.closed.flatMap ClosedBlock.fragments).Sublist reading.fragments :=
    List.sublist_append_left _ _
  have hmem : ∀ block ∈ reading.closed, ∀ f ∈ block.fragments, f ∈ reading.fragments :=
    fun block hblock f hf => hclosed.subset (List.mem_flatMap.2 ⟨block, hblock, hf⟩)
  have hfree : ∀ r ∈ index.toList, ∀ block ∈ reading.closed,
      r.meets block.region.start block.region.stop = false := fun r hr block hblock =>
    h.free r hr _ (hmem block hblock _ block.opening_mem) _ (hmem block hblock _ block.closing_mem)
  obtain ⟨next, hperm, hderive⟩ := derive_closedBlocks h.apart
    (apart_regions (h.sublist hclosed).spaced) hfree (reading.last.elim [] Block.fragments ++ more)
  refine ⟨next, hperm, ?_⟩
  rw [Reading.fragments, List.append_assoc, hderive]
  cases reading.last with
  | none => rfl
  | some block => exact derive_block block more

theorem wellFormed_opening {closed : List ClosedBlock} {f : Placed} (hpart : f.part = .opening) :
    WellFormed (Reading.fragments ⟨closed, none⟩ ++ [f]) :=
  ⟨⟨closed, some ⟨f, [], hpart, by simp⟩⟩, by simp [Reading.fragments, Block.fragments]⟩

theorem wellFormed_middle {closed : List ClosedBlock} {block : Block} {f : Placed}
    (hpart : f.part = .middle) (hconstruct : block.opening.construct = f.construct) :
    WellFormed (Reading.fragments ⟨closed, some block⟩ ++ [f]) := by
  have hcarries : ∀ g ∈ block.middles ++ [f],
      g.part = .middle ∧ g.construct = block.opening.construct := by
    intro g hg
    rcases List.mem_append.1 hg with hg | hg
    · exact block.carries g hg
    · rw [List.mem_singleton.1 hg]
      exact ⟨hpart, hconstruct.symm⟩
  exact ⟨⟨closed, some ⟨block.opening, block.middles ++ [f], block.opens, hcarries⟩⟩,
    by simp [Reading.fragments, Block.fragments]⟩

theorem wellFormed_closing {closed : List ClosedBlock} {block : Block} {f : Placed}
    (hpart : f.part = .closing) (hconstruct : block.opening.construct = f.construct) :
    WellFormed (Reading.fragments ⟨closed, some block⟩ ++ [f]) :=
  ⟨⟨closed ++ [⟨block, f, hpart, hconstruct.symm⟩], none⟩,
    by simp [Reading.fragments, ClosedBlock.fragments, Block.fragments]⟩

section

variable {reading : Reading} {f : Placed} {rest : List Placed} {index : RegionIndex}

theorem derive_mismatched {block : Block} (hlast : reading.last = some block)
    (hconstruct : block.opening.construct ≠ f.construct) :
    (derive (reading.last.map Block.unclosed) (f :: rest) index).result =
      .error (.mismatchedMultiline block.opening.construct f.construct f.location) := by
  have hother : block.unclosed.construct ≠ f.construct := hconstruct
  rw [hlast, Option.map_some, derive, if_pos hother]
  rfl

/-- A fragment that fits no block and is not of another construct than the open one is not expected
at all. -/
theorem derive_unexpected (hbad : ¬ WellFormed (reading.fragments ++ [f]))
    (hconstruct : ∀ block, reading.last = some block → block.opening.construct = f.construct) :
    (derive (reading.last.map Block.unclosed) (f :: rest) index).result =
      .error (.unexpectedFragment f.construct f.part f.location) := by
  obtain ⟨closed, last⟩ := reading
  cases last with
  | none =>
    rw [Option.map_none, derive]
    cases hpart : f.part with
    | opening => exact absurd (wellFormed_opening hpart) hbad
    | middle => rfl
    | closing => rfl
  | some block =>
    have hsame : block.unclosed.construct = f.construct := hconstruct block rfl
    rw [Option.map_some, derive, if_neg (not_not.2 hsame)]
    cases hpart : f.part with
    | opening => rfl
    | middle => exact absurd (wellFormed_middle hpart hsame) hbad
    | closing => exact absurd (wellFormed_closing hpart hsame) hbad

end

theorem exists_first_offending {fragments : List Placed} (h : ¬ WellFormed fragments) :
    ∃ (reading : Reading) (f : Placed) (rest : List Placed),
      fragments = reading.fragments ++ f :: rest ∧ ¬ WellFormed (reading.fragments ++ [f]) := by
  induction fragments using List.reverseRecOn with
  | nil => exact absurd ⟨⟨[], none⟩, rfl⟩ h
  | append_singleton front f ih =>
    by_cases hfront : WellFormed front
    · obtain ⟨reading, rfl⟩ := hfront
      exact ⟨reading, f, [], rfl, h⟩
    · obtain ⟨reading, g, rest, rfl, hbad⟩ := ih hfront
      exact ⟨reading, g, rest ++ [f], by simp, hbad⟩

section

variable {index : RegionIndex} {fragments : List Placed}

theorem Clear.derive_ok (h : Clear index fragments) {reading : Reading}
    (heq : fragments = reading.fragments) :
    (derive none fragments index).result = .ok (reading.last.map Block.unclosed) ∧
      (derive none fragments index).regions.toList.Perm
        (index.toList ++ reading.closed.map ClosedBlock.region) := by
  subst heq
  obtain ⟨next, hperm, hderive⟩ := derive_reading reading h []
  rw [List.append_nil] at hderive
  rw [hderive, derive]
  exact ⟨rfl, hperm⟩

theorem Clear.derive_refused (h : Clear index fragments) {reading : Reading} {f : Placed}
    {rest : List Placed} (heq : fragments = reading.fragments ++ f :: rest)
    (hbad : ¬ WellFormed (reading.fragments ++ [f])) :
    (∀ block, reading.last = some block → block.opening.construct ≠ f.construct →
      (derive none fragments index).result =
        .error (.mismatchedMultiline block.opening.construct f.construct f.location)) ∧
      ((∀ block, reading.last = some block → block.opening.construct = f.construct) →
        (derive none fragments index).result =
          .error (.unexpectedFragment f.construct f.part f.location)) := by
  subst heq
  obtain ⟨next, -, hderive⟩ :=
    derive_reading reading (h.sublist (List.sublist_append_left _ _)) (f :: rest)
  rw [hderive]
  exact ⟨fun block hlast hother => derive_mismatched hlast hother, derive_unexpected hbad⟩

theorem Clear.wellFormed_of_ok (h : Clear index fragments) {pending : Option Unclosed}
    (hok : (derive none fragments index).result = .ok pending) : WellFormed fragments := by
  by_contra hbad
  obtain ⟨reading, f, rest, heq, hoffends⟩ := exists_first_offending hbad
  obtain ⟨hmismatched, hunexpected⟩ := h.derive_refused heq hoffends
  by_cases hsame : ∀ block, reading.last = some block → block.opening.construct = f.construct
  · rw [hunexpected hsame] at hok
    cases hok
  · push Not at hsame
    obtain ⟨block, hlast, hother⟩ := hsame
    rw [hmismatched block hlast hother] at hok
    cases hok

end

/-- Tokens in order, and regions that none of them touches. Then fragments are accepted exactly if
they read as blocks. Each closed block adds its region and nothing else is added, and the answer is
the block that is left open, if there is one. If they do not read as blocks there is a first
fragment that fits none. It is refused as mismatched exactly if it stands in an open block of
another construct, and as unexpected otherwise. -/
theorem derive_accepts_blocks (text : Text) (buckets : RowBuckets) (index : RegionIndex)
    (htokens : Spaced (spans text buckets))
    (hpos : ∀ r ∈ index.toList, r.start < r.stop)
    (hdisjoint : ∀ a ∈ index.toList, ∀ b ∈ index.toList, a ≠ b → ¬ a.Shares b)
    (hfree : ∀ first last, (spans text buckets).head? = some first →
      (spans text buckets).getLast? = some last →
        ∀ r ∈ index.toList, r.meets first.start last.stop = false) :
    let fragments := ofRows text buckets
    let derived := derive none fragments index
    ((∃ pending, derived.result = .ok pending) ↔ WellFormed fragments) ∧
      (∀ reading : Reading, fragments = reading.fragments →
        derived.result = .ok (reading.last.map Block.unclosed) ∧
        derived.regions.toList.Perm (index.toList ++ reading.closed.map ClosedBlock.region)) ∧
      (¬ WellFormed fragments → ∃ (reading : Reading) (f : Placed) (rest : List Placed),
        fragments = reading.fragments ++ f :: rest ∧ ¬ WellFormed (reading.fragments ++ [f])) ∧
      ∀ (reading : Reading) (f : Placed) (rest : List Placed),
        fragments = reading.fragments ++ f :: rest → ¬ WellFormed (reading.fragments ++ [f]) →
          (∀ block, reading.last = some block → block.opening.construct ≠ f.construct →
            derived.result =
              .error (.mismatchedMultiline block.opening.construct f.construct f.location)) ∧
          ((∀ block, reading.last = some block → block.opening.construct = f.construct) →
            derived.result = .error (.unexpectedFragment f.construct f.part f.location)) := by
  intro fragments derived
  have hclear := clear_ofRows (RegionIndex.apart_of_unshared hpos hdisjoint) htokens hfree
  refine ⟨⟨?_, ?_⟩, fun reading => hclear.derive_ok, exists_first_offending,
    fun reading f rest => hclear.derive_refused⟩
  · rintro ⟨pending, hok⟩
    exact hclear.wellFormed_of_ok hok
  · rintro ⟨reading, hreading⟩
    exact ⟨_, (hclear.derive_ok hreading.symm).1⟩

/-- A comment over three rows, and a string that opens where the comment ends and stays open. A
region behind the text is kept. -/
theorem derive_accepts_blocks_three_rows :
    let text : Text := ['a', '~', ':', '\n', 'b', '\n', ':', '~', '\x60', '\x60']
    let buckets : RowBuckets := ⟨0,
      [[⟨.reference false false, ['a'], ⟨0, 0⟩⟩, ⟨.fragment .comment .opening, ['~', ':'], ⟨0, 1⟩⟩],
        [⟨.fragment .comment .middle, ['b'], ⟨1, 0⟩⟩],
        [⟨.fragment .comment .closing, [':', '~'], ⟨2, 0⟩⟩,
          ⟨.fragment .string .opening, ['\x60', '\x60'], ⟨2, 2⟩⟩]]⟩
    let index : RegionIndex := ⟨[⟨10, 14, .string⟩], List.pairwise_singleton _ _⟩
    let derived := derive none (ofRows text buckets) index
    derived.result = .ok (some ⟨8, .string⟩) ∧
      derived.regions.toList.Perm [⟨10, 14, .string⟩, ⟨1, 8, .comment⟩] := by
  intro text buckets index derived
  have htokens : Spaced (spans text buckets) := ⟨by decide, by decide⟩
  have hdisjoint : ∀ a ∈ index.toList, ∀ b ∈ index.toList, a ≠ b → ¬ a.Shares b := by
    intro a ha b hb hne
    exact absurd ((List.mem_singleton.1 ha).trans (List.mem_singleton.1 hb).symm) hne
  have hfree : ∀ first last, (spans text buckets).head? = some first →
      (spans text buckets).getLast? = some last →
        ∀ r ∈ index.toList, r.meets first.start last.stop = false := by
    intro first last hfirst hlast
    obtain rfl : ⟨0, 1⟩ = first := Option.some.inj hfirst
    obtain rfl : ⟨8, 10⟩ = last := Option.some.inj hlast
    decide
  let reading : Reading :=
    ⟨[⟨⟨⟨.comment, .opening, 1, 3, ⟨0, 1⟩⟩, [⟨.comment, .middle, 4, 5, ⟨1, 0⟩⟩], rfl, by decide⟩,
        ⟨.comment, .closing, 6, 8, ⟨2, 0⟩⟩, rfl, rfl⟩],
      some ⟨⟨.string, .opening, 8, 10, ⟨2, 2⟩⟩, [], rfl, by decide⟩⟩
  obtain ⟨-, hread, -⟩ :=
    derive_accepts_blocks text buckets index htokens (by decide) hdisjoint hfree
  exact hread reading (by decide)

end LiveHighlight.Fragments
