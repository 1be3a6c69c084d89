import Mathlib
import LiveHighlight.Proofs.EditSite

/-! Rows that leave a construct open in the middle of a text. Lexing again from the construct on and
putting the two parts together gives the rows and the regions of lexing straight through, from the
first of the rows to the end of the text. -/

namespace LiveHighlight.Relex

open Text Fragments Constructs Extent

theorem derive_alone {text : Text} {span : Span} (hspan : Aligned text span) :
    ∃ next : RegionIndex,
      derive none (ofRows text ⟨text.rowAt span.start,
        Scan.marked none (text.rowAt span.start) (spanRows text span)⟩) {} =
        ⟨.ok (spanOpen text span), next⟩ ∧
      next.toList = closed none span.start (spanRows text span) := by
  have hgap : Gap text span [] [] := ⟨hspan, Apart.nil, by simp, by simp⟩
  have hempty : ({} : RegionIndex).toList = [] ++ [] := rfl
  obtain ⟨next, hderive, hnext, -⟩ := derive_span hgap hempty
  rw [List.nil_append, List.append_nil] at hnext
  exact ⟨next, hderive, hnext⟩

theorem aligned_toEnd {text : Text} {span : Span} (hspan : Aligned text span) :
    Aligned text ⟨span.start, text.length⟩ :=
  ⟨hspan.rowStart, .inl rfl, hspan.rowStart.le_length⟩

theorem exists_spanOpen {text : Text} {span : Span}
    (h : (Scan.carry none (spanRows text span)).isSome = true) :
    ∃ u, spanOpen text span = some u := by
  rw [← Option.isSome_iff_exists, spanOpen, ← Option.isSome_map (f := (·.construct)),
    unclosed_construct]
  exact h

/-- Rebuilding the tail agrees with lexing straight through. Whole rows in the middle of a text
leave a construct open, and the index holds their regions, regions that end before the rows, and any
regions behind them. Then the tail is rebuilt; the rows are those of lexing from the first row to
the end of the text in one go, and the regions before the rows stay and are followed by those of
that lexing, with one past the end of the text for what is still open there. -/
theorem rebuildTail_eq_lexing_through (reader again : Reader LineLexer) {text : Text} {span : Span}
    (hspan : Aligned text span)
    (hopen : (Scan.carry none (spanRows text span)).isSome = true) {rows : RowBuckets}
    (hrows : (lexRows reader text span (text.rowAt span.start) (text.rowAt span.stop)).1 =
      .ok rows)
    {left right : List Region} {known : RegionIndex}
    (hknown : known.toList =
      left ++ (derive none (ofRows text rows) {}).regions.toList ++ right)
    (hleft : ∀ r ∈ left, r.start < r.stop ∧ r.stop ≤ span.start)
    (hright : ∀ r ∈ right, span.stop ≤ r.start) :
    ∃ through still found next last events,
      (lexRows reader text ⟨span.start, text.length⟩ (text.rowAt span.start)
        (text.lineCount - 1)).1 = .ok through ∧
      derive none (ofRows text through) {} = ⟨.ok still, found⟩ ∧
      rebuildTail again text (windowOf text span) ⟨rows, known⟩ =
        ⟨.ok { windowOf text span with
            stop := text.length, endRow := text.lineCount - 1, tailRebuilt := true },
          ⟨through, next⟩, last, events⟩ ∧
      last.lexer = again.lexer ∧
      next.toList = left ++ found.toList ++
        still.toList.map fun u => ⟨u.start, text.length + 2, u.construct⟩ := by
  have hend := aligned_toEnd hspan
  obtain ⟨u, hu⟩ := exists_spanOpen hopen
  rw [lexRows_span reader text hspan.start_le_stop] at hrows
  obtain rfl : _ = rows := Except.ok.inj hrows
  obtain ⟨own, hown, hownList⟩ := derive_alone hspan
  obtain ⟨found, hfound, hfoundList⟩ := derive_alone hend
  rw [hown, hownList] at hknown
  have habove := width_above hspan.rowStart
  have hlength := length_above hspan.rowStart
  have hwidth := width_spanRows hspan
  have hbound := above_unclosed (above_none span.start) (spanRows text span) u hu
  obtain ⟨next, last, events, htail, hregions⟩ := rebuildTail_eq again
    (lines_eq_spanRows hspan) (by rw [habove]; exact hu) (windowOf text span)
    (by rw [habove]; exact hknown) (fun r hr => (hleft r hr).1)
    (by rw [habove]; exact fun r hr => (hleft r hr).2)
    fun r hr => by
      have hle := hright r hr
      omega
  rw [hlength, spanRows_append_below hspan] at htail
  rw [habove, spanRows_append_below hspan] at hregions
  have hlex := lexRows_span reader text hend.start_le_stop
  rw [rowAt_length] at hlex
  refine ⟨_, _, found, next, last, events, congrArg Prod.fst hlex, hfound, htail, rfl, ?_⟩
  have hstop : span.start + width (spanRows text ⟨span.start, text.length⟩) - 1 + overhang =
      text.length + 2 := by
    rw [width_spanRows hend, Nat.add_sub_cancel, overhang]
  rw [hregions, regions, hstop, hfoundList, List.append_assoc]
  rfl

/-- The third row opens a comment that the fourth one closes. Two regions behind it are of an older
text. -/
theorem rebuildTail_eq_lexing_through_third :
    let text : Text :=
      ['~', ':', '\n', ':', '~', '\n', 'x', '~', ':', '\n', ':', '~', '\n', '~', ':']
    let known : RegionIndex :=
      ⟨[⟨0, 5, .comment⟩, ⟨9, 40, .string⟩, ⟨10, 12, .comment⟩], by decide⟩
    let reader : Reader LineLexer := { lexer := LineLexer.mk }
    ∃ rows through next last events,
      (lexRows reader text ⟨6, 9⟩ 2 2).1 = .ok rows ∧
      (lexRows reader text ⟨6, 15⟩ 2 4).1 = .ok through ∧
      rebuildTail reader text (windowOf text ⟨6, 9⟩) ⟨rows, known⟩ =
        ⟨.ok ⟨6, 15, 2, 4, true⟩, ⟨through, next⟩, last, events⟩ ∧
      next.toList = [⟨0, 5, .comment⟩, ⟨7, 12, .comment⟩, ⟨13, 17, .comment⟩] := by
  intro text known reader
  have hspan : Aligned text ⟨6, 9⟩ := ⟨.inr ⟨by decide, by decide⟩, .inr (by decide), by decide⟩
  have hrows := lexRows_span reader text hspan.start_le_stop
  have hall := lexRows_span reader text (aligned_toEnd hspan).start_le_stop
  obtain ⟨through, still, found, next, last, events, hthrough, hfound, htail, -, hregions⟩ :=
    @rebuildTail_eq_lexing_through reader reader text ⟨6, 9⟩ hspan (by decide) _
      (congrArg Prod.fst hrows) [⟨0, 5, .comment⟩] [⟨9, 40, .string⟩, ⟨10, 12, .comment⟩] known
      (by decide +kernel) (by decide) (by decide)
  refine ⟨_, through, next, last, events, congrArg Prod.fst hrows, hthrough, htail, ?_⟩
  obtain rfl := Except.ok.inj ((congrArg Prod.fst hall).symm.trans hthrough)
  have hclosed : found.toList = [⟨7, 12, .comment⟩] := by
    rw [← congrArg (·.regions.toList) hfound]
    decide +kernel
  have hstill : still = some ⟨13, .comment⟩ := by
    refine Except.ok.inj ((congrArg Derived.result hfound).symm.trans ?_)
    decide +kernel
  rw [hregions, hclosed, hstill]
  rfl

end LiveHighlight.Relex
