import Mathlib
import LiveHighlight.Proofs.RowScan

/-! Delimiters in a text. The scan of a row looks for the first closing delimiter, row by row; a
delimiter holds no line break, so it stands in the text where it stands in a row. -/

namespace LiveHighlight

namespace Text

/-- A pair of characters stands at an offset. -/
def PairAt (pair : Char × Char) (text : Text) (offset : Nat) : Prop :=
  text[offset]? = some pair.1 ∧ text[offset + 1]? = some pair.2

section

variable {pair : Char × Char} {text : Text}

theorem pairAt_cons_succ (c : Char) (i : Nat) :
    PairAt pair (c :: text) (i + 1) ↔ PairAt pair text i := Iff.rfl

theorem pairAt_drop (k i : Nat) : PairAt pair (text.drop k) i ↔ PairAt pair text (k + i) := by
  rw [PairAt, PairAt, List.getElem?_drop, List.getElem?_drop, Nat.add_assoc]

theorem PairAt.lt_length {i : Nat} (h : PairAt pair text i) : i + 1 < text.length :=
  (List.getElem?_eq_some_iff.1 h.2).1

/-- A pair without a line break stands in a text where it stands in a row. -/
theorem pairAt_row {row : Text} {upper rest : List Text} (h : text.lines = upper ++ row :: rest)
    (hfirst : pair.1 ≠ '\n') (hsecond : pair.2 ≠ '\n') {i : Nat} (hi : i ≤ row.length) :
    PairAt pair text (width upper + i) ↔ PairAt pair row i := by
  obtain ⟨tail, hdrop, htail⟩ := drop_eq_append_of_lines h
  have hends : ∀ c, tail[0]? = some c → c = '\n' := by
    intro c hc
    rcases htail with ⟨rfl, -⟩ | ⟨more, rfl, -⟩
    · cases hc
    · exact (Option.some.inj hc).symm
  rw [← pairAt_drop, hdrop]
  constructor
  · rintro ⟨hone, htwo⟩
    have hin : i < row.length := by
      by_contra hout
      obtain rfl : i = row.length := by omega
      rw [List.getElem?_append_right (Nat.le_refl _), Nat.sub_self] at hone
      exact hfirst (hends _ hone)
    have hin' : i + 1 < row.length := by
      by_contra hout
      have hlast : i + 1 = row.length := by omega
      rw [hlast, List.getElem?_append_right (Nat.le_refl _), Nat.sub_self] at htwo
      exact hsecond (hends _ htwo)
    rw [List.getElem?_append_left hin] at hone
    rw [List.getElem?_append_left hin'] at htwo
    exact ⟨hone, htwo⟩
  · intro hrow
    have hlt := hrow.lt_length
    refine ⟨?_, ?_⟩
    · rw [List.getElem?_append_left (by omega)]
      exact hrow.1
    · rw [List.getElem?_append_left hlt]
      exact hrow.2

end

end Text

theorem Construct.opener_ne_break (c : Construct) : c.opener.1 ≠ '\n' ∧ c.opener.2 ≠ '\n' := by
  cases c <;> decide

theorem Construct.closer_ne_break (c : Construct) : c.closer.1 ≠ '\n' ∧ c.closer.2 ≠ '\n' := by
  cases c <;> decide

namespace Lexeme

open Text

/-- The search for a pair ends just past its first occurrence, or there is none. -/
theorem pastPair_cases (pair : Char × Char) (text : Text) :
    (pastPair pair text = none ∧ ∀ i, ¬ PairAt pair text i) ∨
      ∃ k, pastPair pair text = some (k + 2) ∧ PairAt pair text k ∧
        ∀ i < k, ¬ PairAt pair text i := by
  induction text with
  | nil =>
    refine .inl ⟨rfl, ?_⟩
    rintro i ⟨hone, -⟩
    cases hone
  | cons x text ih =>
    cases text with
    | nil =>
      refine .inl ⟨rfl, ?_⟩
      rintro i ⟨-, htwo⟩
      cases htwo
    | cons y rest =>
      have hhere : PairAt pair (x :: y :: rest) 0 ↔ x = pair.1 ∧ y = pair.2 := by
        simp [PairAt]
      rw [pastPair]
      split_ifs with hpair
      · exact .inr ⟨0, rfl, hhere.2 hpair, by simp⟩
      · -- what is not here is found in the rest, one character further on
        rcases ih with ⟨hnone, hfree⟩ | ⟨k, hsome, hfound, hfree⟩
        · refine .inl ⟨by rw [hnone]; rfl, ?_⟩
          intro i
          cases i with
          | zero => exact fun h => hpair (hhere.1 h)
          | succ i => exact hfree i
        · refine .inr ⟨k + 1, by rw [hsome]; rfl, hfound, ?_⟩
          intro i hi
          cases i with
          | zero => exact fun h => hpair (hhere.1 h)
          | succ i => exact hfree i (by omega)

theorem pairAt_of_pastPair {pair : Char × Char} {text : Text} {n : Nat}
    (h : pastPair pair text = some n) :
    ∃ k, n = k + 2 ∧ PairAt pair text k ∧ ∀ i < k, ¬ PairAt pair text i := by
  rcases pastPair_cases pair text with ⟨hnone, -⟩ | ⟨k, hsome, hfound⟩
  · rw [hnone] at h
    cases h
  · exact ⟨k, Option.some.inj (h.symm.trans hsome), hfound⟩

theorem pastPair_eq_none_iff {pair : Char × Char} {text : Text} :
    pastPair pair text = none ↔ ∀ i, ¬ PairAt pair text i := by
  rcases pastPair_cases pair text with ⟨hnone, hfree⟩ | ⟨k, hsome, hfound, -⟩
  · exact ⟨fun _ => hfree, fun _ => hnone⟩
  · constructor
    · intro h
      rw [hsome] at h
      cases h
    · intro h
      exact absurd hfound (h k)

theorem pairAt_of_delimiter {c : Char} {rest : Text} {k : Construct}
    (h : delimiter c rest = some k) : PairAt k.opener (c :: rest) 0 := by
  have hstarts {pair : Char × Char} (hpair : startsPair pair c rest = true) :
      PairAt pair (c :: rest) 0 := by
    simp only [startsPair, Bool.and_eq_true, decide_eq_true_eq] at hpair
    obtain ⟨rfl, hhead⟩ := hpair
    exact ⟨rfl, by rw [← hhead, List.head?_eq_getElem?]; rfl⟩
  unfold delimiter at h
  split_ifs at h with hcomment hstring
  · obtain rfl := Option.some.inj h
    exact hstarts hcomment
  · obtain rfl := Option.some.inj h
    exact hstarts hstring

/-- A fragment is read where the opening delimiter stands and no closing one comes after it. -/
theorem read_fragment_pairs {c : Char} {rest : Text} {k : Construct} {part : Part}
    (h : (read c rest).1 = .fragment k part) :
    PairAt k.opener (c :: rest) 0 ∧ ∀ i, 2 ≤ i → ¬ PairAt k.closer (c :: rest) i := by
  unfold read at h
  split at h
  · next construct hdelimiter =>
    split at h
    · cases construct <;> cases h
    · next hpast =>
      obtain ⟨rfl, -⟩ := TokenKind.fragment.inj h
      refine ⟨pairAt_of_delimiter hdelimiter, ?_⟩
      intro i hi
      obtain ⟨j, rfl⟩ := Nat.exists_eq_add_of_le hi
      have hfree := pastPair_eq_none_iff.1 hpast j
      rw [pairAt_drop] at hfree
      rwa [show 2 + j = 1 + j + 1 by omega, pairAt_cons_succ]
  · split at h
    · exact absurd h (quote_ne_fragment rest k part)
    · split at h
      · cases h
      · split at h
        · exact absurd h (wordKind_ne_fragment _ k part)
        · exact absurd h (symbol_ne_fragment c rest k part)

end Lexeme
end LiveHighlight
