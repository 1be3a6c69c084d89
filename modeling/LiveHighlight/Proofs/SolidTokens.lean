import Mathlib
import LiveHighlight.Proofs.TokenCover

/-! Tokens without blanks. What is scanned as a token holds no blank, unless it is a comment, a
string, a quoted name or a character literal. -/

namespace LiveHighlight

/-- Comments, strings, quoted names and character literals: the tokens that may hold blanks. -/
def TokenKind.isQuoting : TokenKind → Bool
  | .comment | .string | .fragment _ _ | .character | .reference true _ => true
  | _ => false

theorem Statement.isQuoting_call (t : Token) : (call t).kind.isQuoting = t.kind.isQuoting := by
  unfold call
  split
  · next quoted called h =>
    rw [h]
    cases quoted <;> rfl
  · rfl

namespace Text

theorem inRanges_eq_false_of_apart {a b : List (Nat × Nat)}
    (h : ∀ r ∈ a, ∀ s ∈ b, r.2 < s.1 ∨ s.2 < r.1) {n : Nat} (hn : inRanges a n = true) :
    inRanges b n = false := by
  rw [Bool.eq_false_iff]
  intro hn'
  obtain ⟨r, hr, hlow, hhigh⟩ := (inRanges_iff a n).1 hn
  obtain ⟨s, hs, hlow', hhigh'⟩ := (inRanges_iff b n).1 hn'
  have hapart := h r hr s hs
  omega

end Text

namespace Lexeme

open Text

theorem isWordChar_of_blank {c : Char} (h : isBlank c = true) : isWordChar c = false := by
  rcases Nat.lt_or_ge c.toNat 0x80 with hascii | hrest
  · have hall : ∀ n < 0x80, isBlank (Char.ofNat n) = true →
        Lexeme.isWordChar (Char.ofNat n) = false := by decide +kernel
    have hc := hall c.toNat hascii
    rw [Char.ofNat_toNat] at hc
    exact hc h
  · rw [isBlank, if_neg (Nat.not_lt.2 hrest)] at h
    have halpha : inRanges alphabeticRanges c.toNat = false :=
      inRanges_eq_false_of_apart (by decide +kernel) h
    have hnumeric : inRanges numericRanges c.toNat = false :=
      inRanges_eq_false_of_apart (by decide +kernel) h
    have hunder : c ≠ '_' := by
      rintro rfl
      exact absurd hrest (by decide)
    rw [Lexeme.isWordChar, isAlphabetic, isNumeric, if_neg (Nat.not_lt.2 hrest),
      if_neg (Nat.not_lt.2 hrest), halpha, hnumeric]
    simpa using hunder

theorem not_blank_of_isWordChar {c : Char} (h : isWordChar c = true) : isBlank c = false := by
  rw [Bool.eq_false_iff]
  intro hblank
  rw [isWordChar_of_blank hblank] at h
  cases h

theorem not_blank_of_isDigit {c : Char} (h : c.isDigit = true) : isBlank c = false := by
  have hascii : c.toNat < 0x80 := by
    simp only [Char.isDigit, Bool.and_eq_true, decide_eq_true_eq, UInt32.le_iff_toNat_le] at h
    exact h.2.trans_lt (by decide)
  apply not_blank_of_isWordChar
  rw [isWordChar, isNumeric, if_pos hascii, h, Bool.or_true, Bool.true_or]

theorem take_length_takeWhile (p : Char → Bool) (text : Text) :
    text.take (text.takeWhile p).length = text.takeWhile p :=
  (List.prefix_iff_eq_take.1 (List.takeWhile_prefix p)).symm

theorem digits_solid (text : Text) : ∀ c ∈ text.take (digits text), isBlank c = false := by
  rw [digits, take_length_takeWhile]
  intro c hc
  exact not_blank_of_isDigit (List.mem_takeWhile_imp hc)

theorem fraction_solid (text : Text) : ∀ c ∈ text.take (fraction text), isBlank c = false := by
  unfold fraction
  split
  · next d rest =>
    split
    · next hd =>
      intro c hc
      rw [List.take_succ_cons, List.take_succ_cons] at hc
      rcases List.mem_cons.1 hc with rfl | hc
      · decide
      · rcases List.mem_cons.1 hc with rfl | hc
        · exact not_blank_of_isDigit hd
        · exact digits_solid rest c hc
    · simp
  · simp

theorem suffix_solid (text : Text) : ∀ c ∈ text.take (suffix text), isBlank c = false := by
  have hall : suffixes.all (!isBlank ·) = true := by decide
  unfold suffix
  split
  · next d rest =>
    split
    · next h => simpa using List.all_eq_true.1 hall d h.1
    · simp
  · simp

theorem numberTail_solid (rest : Text) : ∀ c ∈ rest.take (numberTail rest), isBlank c = false := by
  intro c hc
  rw [numberTail, List.take_add, List.take_add, ← List.drop_drop] at hc
  rcases List.mem_append.1 hc with hc | hc
  · rcases List.mem_append.1 hc with hc | hc
    · exact digits_solid rest c hc
    · exact fraction_solid _ c hc
  · rw [List.drop_drop] at hc
    exact suffix_solid _ c hc

theorem quote_solid {rest : Text} (h : (quote rest).1.isQuoting = false) :
    ∀ c ∈ rest.take (quote rest).2, isBlank c = false := by
  unfold quote at h ⊢
  dsimp only at h ⊢
  split at h
  · split at h <;> cases h
  · next hopen =>
    rw [if_neg hopen]
    simp

theorem pairKind_blank (c : Char) {d : Char} (h : isBlank d = true) : pairKind (c, d) = none := by
  have hpairs : ∀ p ∈ controlPairs ++ operatorPairs, isBlank p.2 = false := by decide
  have hfree : (c, d) ∉ controlPairs ++ operatorPairs := by
    intro hmem
    have hsolid := hpairs _ hmem
    rw [h] at hsolid
    cases hsolid
  rw [List.mem_append, not_or] at hfree
  rw [pairKind, if_neg hfree.1, if_neg hfree.2]

theorem symbol_solid (c : Char) (rest : Text) :
    ∀ d ∈ rest.take (symbol c rest).2, isBlank d = false := by
  unfold symbol
  split
  · next kind h =>
    obtain ⟨d, hd, hpair⟩ := Option.bind_eq_some_iff.1 h
    have hsolid : isBlank d = false := by
      rw [Bool.eq_false_iff]
      intro hblank
      rw [pairKind_blank c hblank] at hpair
      cases hpair
    obtain ⟨tail, rfl⟩ := List.head?_eq_some_iff.1 hd
    simpa using hsolid
  · simp

/-- What is read at a character that is not blank holds no blanks, unless it stands in quotes or in
a comment. -/
theorem read_solid {c : Char} {rest : Text} (hc : isBlank c = false)
    (h : (read c rest).1.isQuoting = false) :
    ∀ d ∈ c :: rest.take (read c rest).2, isBlank d = false := by
  refine List.forall_mem_cons.2 ⟨hc, ?_⟩
  unfold read at h ⊢
  split at h
  · next construct _ =>
    split at h
    · cases construct <;> cases h
    · cases h
  · split at h
    · rw [if_pos ‹_›]
      exact quote_solid h
    · rw [if_neg ‹_›]
      split at h
      · rw [if_pos ‹_›]
        exact numberTail_solid rest
      · rw [if_neg ‹_›]
        split at h
        · rw [if_pos ‹_›]
          dsimp only
          rw [take_length_takeWhile]
          intro d hd
          exact not_blank_of_isWordChar (List.mem_takeWhile_imp hd)
        · rw [if_neg ‹_›]
          exact symbol_solid c rest

end Lexeme

namespace Scan

open Text Statement

theorem tokens_solid {row column skip : Nat} {text : Text} {t : Token}
    (h : t ∈ tokens row column skip text) (hplain : t.kind.isQuoting = false) :
    ∀ c ∈ t.text, isBlank c = false := by
  induction text generalizing column skip with
  | nil =>
    rw [tokens] at h
    cases h
  | cons c rest ih =>
    cases skip with
    | succ skip =>
      rw [tokens_skip] at h
      exact ih h
    | zero =>
      by_cases hblank : isBlank c
      · rw [tokens_blank row column rest hblank] at h
        exact ih h
      · rw [tokens_read row column rest hblank] at h
        rcases List.mem_cons.1 h with rfl | h
        · exact Lexeme.read_solid (Bool.eq_false_iff.2 hblank) hplain
        · exact ih h

theorem line_solid {before : Option Construct} {row : Nat} {text : Text} {t : Token}
    (h : t ∈ (line before row text).tokens) (hplain : t.kind.isQuoting = false) :
    ∀ c ∈ t.text, isBlank c = false := by
  cases before with
  | none => exact tokens_solid h hplain
  | some construct =>
    cases hpast : Lexeme.pastPair construct.closer text with
    | none =>
      rw [line_middle row hpast] at h
      dsimp only at h
      split at h
      · cases h
      · obtain rfl := List.mem_singleton.1 h
        cases hplain
    | some n =>
      rw [line_closing row hpast] at h
      rcases List.mem_cons.1 h with rfl | h
      · cases hplain
      · exact tokens_solid h hplain

/-- Marking calls changes nothing about a token but whether it is called. -/
theorem exists_of_mem_markRow {tokens : List Token} {t : Token} (h : t ∈ markRow tokens) :
    ∃ s ∈ tokens, s.location = t.location ∧ s.text = t.text ∧
      s.kind.isQuoting = t.kind.isQuoting := by
  have hsame := markRow_map (fun t => (t.location, t.text, t.kind.isQuoting))
    (fun t => by rw [call_location, call_text, isQuoting_call]) tokens
  have hmem := List.mem_map_of_mem (f := fun t : Token => (t.location, t.text, t.kind.isQuoting)) h
  rw [hsame] at hmem
  obtain ⟨s, hs, heq⟩ := List.mem_map.1 hmem
  simp only [Prod.mk.injEq] at heq
  exact ⟨s, hs, heq⟩

end Scan
end LiveHighlight
