import Mathlib
import LiveHighlight.Proofs.EditSite

/-! Edits that the regions know nothing of. Whatever text is handed over and whatever edit is said
to have led to it, lexing around the edit leaves regions that are not empty and do not overlap. It
can only be refused where a construct is open at the end of the text and a region is known behind
the end. -/

namespace LiveHighlight.Relex

open Constructs

/-- Lengths and ends of regions below a quarter of the words leave room for moving the regions. -/
theorem fits_of_lt {edit : Edit} {regions : List Region} (hlength : edit.length < 2 ^ 62)
    (hstop : ∀ r ∈ regions, r.stop < 2 ^ 62) : Fits edit regions := by
  have hword : edit.length < 2 ^ 63 := hlength.trans (by decide)
  refine ⟨hword, ?_⟩
  intro r hr
  have hle := hstop r hr
  have hdelta := edit.delta_le hword
  unfold maxOffset
  omega

/-- Regions that do not overlap stay so, for every text and every edit and also after a failure. The
only failure is that a region is refused because of one at or behind the end of the text, which it
does overlap. Lexing the whole text never fails, whatever was known before. -/
theorem afterEdit_keeps_apart (reader : Reader LineLexer) (text : Text) {edit : Edit}
    {state : FileState}
    (hpos : ∀ r ∈ state.regions.toList, r.start < r.stop)
    (hdisjoint : ∀ a ∈ state.regions.toList, ∀ b ∈ state.regions.toList, a ≠ b →
      a.meets b.start b.stop = false)
    (hlength : edit.length < 2 ^ 62) (hstop : ∀ r ∈ state.regions.toList, r.stop < 2 ^ 62) :
    Apart (afterEdit reader text edit state).state.regions.toList ∧
      (∀ e, (afterEdit reader text edit state).result = .error e →
        ∃ region existing, e = .overlappingRegion region existing ∧
          existing ∈ (afterEdit reader text edit state).state.regions.toList ∧
          region.meets existing.start existing.stop = true ∧ text.length ≤ existing.start) ∧
      ∀ any : FileState, ∃ window, (entire reader text any).result = .ok window := by
  have hapart := RegionIndex.apart_of_disjoint hpos hdisjoint
  have hfits := fits_of_lt hlength hstop
  have hentire (any : FileState) : ∃ window, (entire reader text any).result = .ok window := by
    rw [entire_eq]
    exact ⟨_, rfl⟩
  by_cases hcollides : Collides text (site text edit state.regions)
    (rightOf edit (site text edit state.regions) state.regions.toList)
  · obtain ⟨region, existing, next, last, hafter, hnext, hrefused⟩ :=
      afterEdit_collides reader text hapart hfits hcollides
    rw [hafter]
    refine ⟨hnext, ?_, hentire⟩
    rintro e ⟨⟩
    exact ⟨region, existing, rfl, hrefused⟩
  · obtain ⟨window, next, last, events, hafter, -, hnext⟩ :=
      afterEdit_ok reader text hapart hfits hcollides
    rw [hafter]
    refine ⟨hnext, ?_, hentire⟩
    rintro e ⟨⟩

/-- Two characters that open a comment are said to be put in front of a comment that is no longer
there. -/
theorem afterEdit_keeps_apart_retyped :
    let state : FileState := { regions := ⟨[⟨0, 4, .comment⟩], List.pairwise_singleton _ _⟩ }
    let reader : Reader LineLexer := { lexer := LineLexer.mk }
    let outcome := afterEdit reader ['~', ':'] ⟨0, 2, .insert⟩ state
    outcome.result = .error (.overlappingRegion ⟨0, 4, .comment⟩ ⟨2, 6, .comment⟩) ∧
      Apart outcome.state.regions.toList := by
  intro state reader outcome
  have hresult : outcome.result =
      .error (.overlappingRegion ⟨0, 4, .comment⟩ ⟨2, 6, .comment⟩) := by
    decide +kernel
  obtain ⟨hapart, -⟩ := @afterEdit_keeps_apart reader ['~', ':'] ⟨0, 2, .insert⟩ state
    (by decide) (by decide) (by decide) (by decide)
  exact ⟨hresult, hapart⟩

end LiveHighlight.Relex
