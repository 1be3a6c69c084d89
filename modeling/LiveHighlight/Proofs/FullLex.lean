import Mathlib
import LiveHighlight.Highlight.Relex
import LiveHighlight.Proofs.Constructs

/-! Lexing a whole text never fails: it leaves all rows of the text in the buckets and the regions
of all its constructs in the index, whatever was known before. -/

namespace LiveHighlight.Relex

open Text Fragments Constructs Extent

/-- The row buckets of a whole text. -/
def fullRows (text : Text) : List (List Token) := Scan.marked none 0 text.lines

/-- The regions of a whole text. -/
def fullRegions (text : Text) : List Region := regions none 0 text.lines

theorem apart_fullRegions (text : Text) : Apart (fullRegions text) :=
  (regions_bounds (above_none 0) text.lines).1

def fullIndex (text : Text) : RegionIndex := ⟨fullRegions text, (apart_fullRegions text).ordered⟩

theorem deriveToEnd_full (text : Text) :
    deriveToEnd text ⟨0, fullRows text⟩ {} = ⟨.ok (), fullIndex text⟩ := by
  have hrows : ofRows text ⟨0, fullRows text⟩ = fragments none 0 0 text.lines := by
    refine ofRows_marked none 0 0 text.lines fun i hi => ?_
    have hlines : text.lines = [] ++ text.lines ++ [] := by simp
    simpa using rowStart_of_lines hlines hi
  have hempty : ({} : RegionIndex).toList = [] ++ [] := rfl
  obtain ⟨next, hnext, hderive⟩ := derive_rows (above_none 0) 0 text.lines hempty
    (by simp) (by simp) (by simp)
  rw [List.nil_append, List.append_nil] at hnext
  obtain ⟨last, hlast, hend⟩ := deriveToEnd_eq (hrows ▸ hderive)
    (hnext ▸ (apart_closed (above_none 0) text.lines).start_lt_stop) fun u hu => by
      have habove := above_unclosed (above_none 0) text.lines u hu
      rw [width_lines] at habove
      refine ⟨by omega, hnext ▸ closed_stop_le_unclosed (above_none 0) hu⟩
  rw [hend]
  congr 1
  apply RegionIndex.eq_of_toList
  rw [hlast, hnext]
  simp [fullIndex, fullRegions, regions, width_lines]

theorem entire_eq (reader : Reader LineLexer) (text : Text) (state : FileState) :
    entire reader text state =
      ⟨.ok ⟨0, text.length, 0, text.lineCount - 1, false⟩,
        ⟨⟨0, fullRows text⟩, fullIndex text⟩, (reader.read text 0).2,
        [.highlighted (text.lineCount - 1 + 1) (fullIndex text).size]⟩ := by
  have hslice : text.slice 0 text.length = text := by
    rw [slice_length, List.drop_zero]
  unfold entire
  dsimp only
  rw [lexRows_eq reader text ⟨0, text.length⟩ 0 (text.lineCount - 1) (by
    dsimp only
    rw [hslice, length_lines, Nat.zero_add])]
  dsimp only
  rw [hslice, ← fullRows, deriveToEnd_full]

end LiveHighlight.Relex
