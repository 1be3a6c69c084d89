import Mathlib
import LiveHighlight.Proofs.TextRows
import LiveHighlight.Token.Scan

/-! The scan of a row: where its tokens stand, which of them are fragments, and what a scan of many
rows carries from one to the next. Only the last token of a row can open a construct, and then it
takes up the rest of the row. -/

namespace LiveHighlight

theorem Token.opens_eq_some_iff (token : Token) (c : Construct) :
    token.opens = some c ↔ token.fragment = some (c, .opening) := by
  unfold Token.opens Token.fragment
  split
  · next k hk => simp [hk]
  · next hk =>
    split
    · next k part hpart =>
      simp only [reduceCtorEq, Option.some.injEq, Prod.mk.injEq, false_iff, not_and]
      rintro rfl rfl
      exact hk _ hpart
    · simp

/-- The token with the number of another row. -/
def Token.onRow (token : Token) (row : Nat) : Token :=
  { token with location := ⟨row, token.location.column⟩ }

namespace Lexeme

open Text

theorem pastPair_bounds {pair : Char × Char} {text : Text} {n : Nat}
    (h : pastPair pair text = some n) : 2 ≤ n ∧ n ≤ text.length := by
  induction text generalizing n with
  | nil => simp [pastPair] at h
  | cons x text ih =>
    cases text with
    | nil => simp [pastPair] at h
    | cons y rest =>
      simp only [pastPair] at h
      split at h
      · simp only [Option.some.injEq] at h
        simp only [List.length_cons]
        omega
      · obtain ⟨m, hm, rfl⟩ := Option.map_eq_some_iff.1 h
        have hbounds := ih hm
        simp only [List.length_cons] at hbounds ⊢
        omega

theorem quote_length_le (rest : Text) : (quote rest).2 ≤ rest.length := by
  unfold quote
  dsimp only
  split
  · next h => exact h
  · exact Nat.zero_le _

theorem digits_le (text : Text) : digits text ≤ text.length :=
  (List.takeWhile_sublist _).length_le

theorem fraction_le (text : Text) : fraction text ≤ text.length := by
  unfold fraction
  split
  · next d rest =>
    have h := digits_le rest
    split
    · simp only [List.length_cons]
      omega
    · exact Nat.zero_le _
  · exact Nat.zero_le _

theorem suffix_le (text : Text) : suffix text ≤ text.length := by
  unfold suffix
  split
  · split
    · simp
    · exact Nat.zero_le _
  · exact Nat.zero_le _

theorem numberTail_le (rest : Text) : numberTail rest ≤ rest.length := by
  have hwhole := digits_le rest
  have hpart := fraction_le (rest.drop (digits rest))
  have hlast := suffix_le (rest.drop (digits rest + fraction (rest.drop (digits rest))))
  rw [List.length_drop] at hpart hlast
  simp only [numberTail]
  omega

theorem symbol_length_le (c : Char) (rest : Text) : (symbol c rest).2 ≤ rest.length := by
  unfold symbol
  split
  · next h =>
    cases rest with
    | nil => simp at h
    | cons d rest => simp
  · exact Nat.zero_le _

theorem read_length_le (c : Char) (rest : Text) : (read c rest).2 ≤ rest.length := by
  unfold read
  split
  · split
    · next hpast =>
      have hbounds := pastPair_bounds hpast
      rw [List.length_drop] at hbounds
      dsimp only
      omega
    · exact Nat.le_refl _
  · split
    · exact quote_length_le rest
    · split
      · exact numberTail_le rest
      · split
        · exact (List.takeWhile_sublist _).length_le
        · exact symbol_length_le c rest

theorem quote_ne_fragment (rest : Text) (k : Construct) (part : Part) :
    (quote rest).1 ≠ .fragment k part := by
  unfold quote
  dsimp only
  split
  · split <;> simp
  · simp

theorem wordKind_ne_fragment (word : Text) (k : Construct) (part : Part) :
    wordKind word ≠ .fragment k part := by
  unfold wordKind
  split_ifs <;> simp

theorem symbol_ne_fragment (c : Char) (rest : Text) (k : Construct) (part : Part) :
    (symbol c rest).1 ≠ .fragment k part := by
  have hsymbol : symbolKind c ≠ .fragment k part := by
    unfold symbolKind
    split_ifs <;> simp
  unfold symbol
  split
  · next kind h =>
    obtain ⟨d, -, hpair⟩ := Option.bind_eq_some_iff.1 h
    unfold pairKind at hpair
    split_ifs at hpair <;> simp only [Option.some.injEq] at hpair <;> simp [← hpair]
  · exact hsymbol

theorem read_fragment {c : Char} {rest : Text} {k : Construct} {part : Part}
    (h : (read c rest).1 = .fragment k part) :
    part = .opening ∧ (read c rest).2 = rest.length := by
  unfold read at h ⊢
  split at h
  · next construct _ =>
    split at h
    · cases construct <;> simp [inlineKind] at h
    · simp only [TokenKind.fragment.injEq] at h
      exact ⟨h.2.symm, rfl⟩
  · split at h
    · exact absurd h (quote_ne_fragment rest k part)
    · split at h
      · simp at h
      · split at h
        · exact absurd h (wordKind_ne_fragment _ k part)
        · exact absurd h (symbol_ne_fragment c rest k part)

end Lexeme

namespace Scan

open Text

/-- Tokens of one row in order: none empty, none overlapping the next, all between two columns. -/
structure LaidOut (row low high : Nat) (tokens : List Token) : Prop where
  row_eq : ∀ t ∈ tokens, t.location.row = row
  length_pos : ∀ t ∈ tokens, 0 < t.length
  low_le : ∀ t ∈ tokens, low ≤ t.location.column
  le_high : ∀ t ∈ tokens, t.location.column + t.length ≤ high
  apart : tokens.Pairwise fun a b => a.location.column + a.length ≤ b.location.column

theorem LaidOut.nil (row low high : Nat) : LaidOut row low high [] := by
  constructor <;> simp

theorem LaidOut.mono {row low high low' high' : Nat} {tokens : List Token}
    (h : LaidOut row low high tokens) (hlow : low' ≤ low) (hhigh : high ≤ high') :
    LaidOut row low' high' tokens where
  row_eq := h.row_eq
  length_pos := h.length_pos
  low_le t ht := hlow.trans (h.low_le t ht)
  le_high t ht := (h.le_high t ht).trans hhigh
  apart := h.apart

theorem LaidOut.cons {row low middle high : Nat} {t : Token} {tokens : List Token}
    (hrow : t.location.row = row) (hpos : 0 < t.length) (hlow : low ≤ t.location.column)
    (hmiddle : t.location.column + t.length ≤ middle) (hhigh : middle ≤ high)
    (h : LaidOut row middle high tokens) : LaidOut row low high (t :: tokens) where
  row_eq := by simpa [hrow] using h.row_eq
  length_pos := by simpa [hpos] using h.length_pos
  low_le := by
    simp only [List.mem_cons, forall_eq_or_imp]
    refine ⟨hlow, fun a ha => ?_⟩
    have hle := h.low_le a ha
    omega
  le_high := by
    simp only [List.mem_cons, forall_eq_or_imp]
    exact ⟨hmiddle.trans hhigh, h.le_high⟩
  apart := List.pairwise_cons.2 ⟨fun a ha => hmiddle.trans (h.low_le a ha), h.apart⟩

theorem tokens_skip (row column skip : Nat) (c : Char) (rest : Text) :
    tokens row column (skip + 1) (c :: rest) = tokens row (column + 1) skip rest := by
  rw [tokens]

theorem tokens_blank (row column : Nat) {c : Char} (rest : Text) (h : isBlank c = true) :
    tokens row column 0 (c :: rest) = tokens row (column + 1) 0 rest := by
  rw [tokens, if_pos h]

theorem tokens_read (row column : Nat) {c : Char} (rest : Text) (h : ¬ isBlank c = true) :
    tokens row column 0 (c :: rest) =
      ⟨(Lexeme.read c rest).1, c :: rest.take (Lexeme.read c rest).2, ⟨row, column⟩⟩ ::
        tokens row (column + 1) (Lexeme.read c rest).2 rest := by
  rw [tokens, if_neg h]

theorem tokens_eq_nil (row column skip : Nat) (text : Text) (h : text.length ≤ skip) :
    tokens row column skip text = [] := by
  induction text generalizing column skip with
  | nil => simp [tokens]
  | cons c rest ih =>
    obtain ⟨k, rfl⟩ : ∃ k, skip = k + 1 := ⟨skip - 1, by simp at h; omega⟩
    rw [tokens_skip]
    exact ih _ _ (by simpa using h)

theorem tokens_laidOut (row column skip : Nat) (text : Text) (h : skip ≤ text.length) :
    LaidOut row (column + skip) (column + text.length) (tokens row column skip text) := by
  induction text generalizing column skip with
  | nil =>
    rw [tokens]
    exact LaidOut.nil ..
  | cons c rest ih =>
    have hlen : column + 1 + rest.length ≤ column + (c :: rest).length := by
      rw [List.length_cons]
      omega
    cases skip with
    | succ skip =>
      rw [tokens_skip]
      exact (ih (column + 1) skip (by simpa using h)).mono (by omega) hlen
    | zero =>
      by_cases hblank : isBlank c
      · rw [tokens_blank row column rest hblank]
        exact (ih (column + 1) 0 (Nat.zero_le _)).mono (by omega) hlen
      · have hread := Lexeme.read_length_le c rest
        have hrest := ih (column + 1) (Lexeme.read c rest).2 hread
        rw [tokens_read row column rest hblank]
        refine LaidOut.cons rfl ?_ (Nat.le_refl _) ?_ ?_ (hrest.mono (Nat.le_refl _) hlen)
        · simp [Token.length]
        · rw [Token.length, List.length_cons, List.length_take, Nat.min_eq_left hread]
          dsimp only
          omega
        · rw [List.length_cons]
          omega

theorem tokens_onRow (row row' column skip : Nat) (text : Text) :
    tokens row' column skip text = (tokens row column skip text).map (·.onRow row') := by
  induction text generalizing column skip with
  | nil => simp [tokens]
  | cons c rest ih =>
    cases skip with
    | succ skip => rw [tokens_skip, tokens_skip, ih]
    | zero =>
      by_cases hblank : isBlank c
      · rw [tokens_blank row' column rest hblank, tokens_blank row column rest hblank, ih]
      · rw [tokens_read row' column rest hblank, tokens_read row column rest hblank, List.map_cons,
          ih]
        rfl

theorem tokens_indent (row column skip columns : Nat) (text : Text) :
    tokens row (column + columns) skip text =
      (tokens row column skip text).map (·.indent columns) := by
  induction text generalizing column skip with
  | nil => simp [tokens]
  | cons c rest ih =>
    cases skip with
    | succ skip => rw [tokens_skip, tokens_skip, Nat.add_right_comm, ih]
    | zero =>
      by_cases hblank : isBlank c
      · rw [tokens_blank row _ rest hblank, tokens_blank row column rest hblank,
          Nat.add_right_comm, ih]
      · rw [tokens_read row _ rest hblank, tokens_read row column rest hblank, List.map_cons,
          Nat.add_right_comm, ih]
        rfl

/-- The fragment that opens a construct with the text of the rest of a row. -/
def openingToken (row column : Nat) (construct : Construct) (text : Text) : Token :=
  ⟨.fragment construct .opening, text, ⟨row, column⟩⟩

theorem opened_eq_none {tokens : List Token} (h : ∀ t ∈ tokens, t.fragment = none) :
    opened tokens = none := by
  unfold opened
  rw [Option.bind_eq_none_iff]
  intro t ht
  rw [Option.eq_none_iff_forall_ne_some]
  intro c hc
  rw [Token.opens_eq_some_iff, h t (List.mem_of_getLast? ht)] at hc
  simp at hc

/-- A piece of a row has no fragment, or it ends in its only one, which opens a construct and would
be read just the same without what stands before it. -/
theorem tokens_fragment (row column skip : Nat) (text : Text) :
    (∀ t ∈ tokens row column skip text, t.fragment = none) ∨
    ∃ front k c, skip ≤ k ∧ k < text.length ∧
      tokens row column skip text = front ++ [openingToken row (column + k) c (text.drop k)] ∧
      (∀ t ∈ front, t.fragment = none) ∧
      tokens row (column + k) 0 (text.drop k) =
        [openingToken row (column + k) c (text.drop k)] := by
  induction text generalizing column skip with
  | nil => simp [tokens]
  | cons c rest ih =>
    cases skip with
    | succ skip =>
      rw [tokens_skip]
      refine (ih (column + 1) skip).imp_right ?_
      rintro ⟨front, k, construct, hskip, hk, htokens, hfront, halone⟩
      rw [Nat.add_assoc, Nat.add_comm 1 k] at htokens halone
      exact ⟨front, k + 1, construct, Nat.succ_le_succ hskip, by simpa using hk, htokens, hfront,
        halone⟩
    | zero =>
      by_cases hblank : isBlank c
      · rw [tokens_blank row column rest hblank]
        refine (ih (column + 1) 0).imp_right ?_
        rintro ⟨front, k, construct, -, hk, htokens, hfront, halone⟩
        rw [Nat.add_assoc, Nat.add_comm 1 k] at htokens halone
        exact ⟨front, k + 1, construct, Nat.zero_le _, by simpa using hk, htokens, hfront, halone⟩
      · have hread := tokens_read row column rest hblank
        by_cases hfrag : ∃ construct part, (Lexeme.read c rest).1 = .fragment construct part
        · -- the fragment takes all that is left, so nothing is read after it
          obtain ⟨construct, part, hkind⟩ := hfrag
          obtain ⟨rfl, hall⟩ := Lexeme.read_fragment hkind
          rw [hkind, hall, List.take_length, tokens_eq_nil _ _ _ _ (Nat.le_refl _)] at hread
          exact .inr ⟨[], 0, construct, Nat.le_refl _, by simp, hread, by simp, hread⟩
        · have hhead : Token.fragment
              ⟨(Lexeme.read c rest).1, c :: rest.take (Lexeme.read c rest).2, ⟨row, column⟩⟩ =
              none := by
            unfold Token.fragment
            split
            · next construct part hkind => exact absurd ⟨construct, part, hkind⟩ hfrag
            · rfl
          rw [hread]
          rcases ih (column + 1) (Lexeme.read c rest).2 with hnone | hsome
          · exact .inl (List.forall_mem_cons.2 ⟨hhead, hnone⟩)
          · obtain ⟨front, k, construct, -, hk, htokens, hfront, halone⟩ := hsome
            rw [Nat.add_assoc, Nat.add_comm 1 k] at htokens halone
            refine .inr ⟨_ :: front, k + 1, construct, Nat.zero_le _, by simpa using hk, ?_,
              List.forall_mem_cons.2 ⟨hhead, hfront⟩, halone⟩
            rw [htokens]
            rfl

theorem line_none (row : Nat) (text : Text) :
    line none row text = ⟨tokens row 0 0 text, opened (tokens row 0 0 text)⟩ := rfl

theorem line_closing {c : Construct} {n : Nat} (row : Nat) {text : Text}
    (h : Lexeme.pastPair c.closer text = some n) :
    line (some c) row text =
      ⟨⟨.fragment c .closing, text.take n, ⟨row, 0⟩⟩ :: tokens row n 0 (text.drop n),
        opened (tokens row n 0 (text.drop n))⟩ := by
  simp [line, h]

theorem line_middle {c : Construct} (row : Nat) {text : Text}
    (h : Lexeme.pastPair c.closer text = none) :
    line (some c) row text =
      ⟨if text = [] then [] else [⟨.fragment c .middle, text, ⟨row, 0⟩⟩], some c⟩ := by
  simp [line, h]

theorem line_laidOut (before : Option Construct) (row : Nat) (text : Text) :
    LaidOut row 0 text.length (line before row text).tokens := by
  cases before with
  | none => simpa [line_none] using tokens_laidOut row 0 0 text (Nat.zero_le _)
  | some c =>
    cases hpast : Lexeme.pastPair c.closer text with
    | none =>
      rw [line_middle row hpast]
      split
      · exact LaidOut.nil ..
      · next hne =>
        refine LaidOut.cons rfl (List.length_pos_iff.2 hne) (Nat.zero_le _) ?_ (Nat.le_refl _)
          (LaidOut.nil ..)
        simp [Token.length]
    | some n =>
      have hbounds := Lexeme.pastPair_bounds hpast
      have hrest := tokens_laidOut row n 0 (text.drop n) (Nat.zero_le _)
      rw [line_closing row hpast]
      rw [List.length_drop, Nat.add_sub_cancel' hbounds.2] at hrest
      refine LaidOut.cons rfl ?_ (Nat.zero_le _) ?_ hbounds.2 hrest
      · simp [Token.length]
        omega
      · simp [Token.length]

theorem line_onRow (before : Option Construct) (row row' : Nat) (text : Text) :
    (line before row' text).tokens = (line before row text).tokens.map (·.onRow row') := by
  cases before with
  | none => exact tokens_onRow row row' 0 0 text
  | some c =>
    cases hpast : Lexeme.pastPair c.closer text with
    | none =>
      rw [line_middle row hpast, line_middle row' hpast]
      dsimp only
      split <;> rfl
    | some n =>
      rw [line_closing row hpast, line_closing row' hpast, List.map_cons,
        tokens_onRow row row' n 0 (text.drop n)]
      rfl

theorem opened_map_onRow (tokens : List Token) (row : Nat) :
    opened (tokens.map (·.onRow row)) = opened tokens := by
  unfold opened
  rw [List.getLast?_map]
  cases tokens.getLast? <;> rfl

theorem line_after (before : Option Construct) (row row' : Nat) (text : Text) :
    (line before row' text).after = (line before row text).after := by
  cases before with
  | none => rw [line_none, line_none, tokens_onRow row row', opened_map_onRow]
  | some c =>
    cases hpast : Lexeme.pastPair c.closer text with
    | none => rw [line_middle row hpast, line_middle row' hpast]
    | some n =>
      rw [line_closing row hpast, line_closing row' hpast, tokens_onRow row row' n 0,
        opened_map_onRow]

/-- What is open after rows. -/
def carry (before : Option Construct) : List Text → Option Construct
  | [] => before
  | text :: rest => carry (line before 0 text).after rest

theorem carry_append (before : Option Construct) (rows rest : List Text) :
    carry before (rows ++ rest) = carry (carry before rows) rest := by
  induction rows generalizing before with
  | nil => rfl
  | cons text rows ih => exact ih (line before 0 text).after

theorem lines_cons (before : Option Construct) (row : Nat) (text : Text) (rest : List Text) :
    lines before row (text :: rest) =
      line before row text :: lines (line before 0 text).after (row + 1) rest := by
  rw [lines, line_after before 0 row]

theorem lines_append (before : Option Construct) (row : Nat) (rows rest : List Text) :
    lines before row (rows ++ rest) =
      lines before row rows ++ lines (carry before rows) (row + rows.length) rest := by
  induction rows generalizing before row with
  | nil => rfl
  | cons text rows ih =>
    rw [List.cons_append, lines_cons, lines_cons, ih, carry, List.cons_append, List.length_cons,
      Nat.add_right_comm, Nat.add_assoc]

theorem length_lines (before : Option Construct) (row : Nat) (rows : List Text) :
    (lines before row rows).length = rows.length := by
  induction rows generalizing before row with
  | nil => rfl
  | cons text rows ih => rw [lines_cons, List.length_cons, List.length_cons, ih]

/-- A row is scanned with what the rows above it leave open. -/
theorem lines_getElem? (before : Option Construct) (row : Nat) (rows : List Text) (i : Nat) :
    (lines before row rows)[i]? =
      rows[i]?.map (line (carry before (rows.take i)) (row + i)) := by
  induction rows generalizing before row i with
  | nil => rfl
  | cons text rows ih =>
    rw [lines_cons]
    cases i with
    | zero => rfl
    | succ i =>
      rw [List.getElem?_cons_succ, List.getElem?_cons_succ, ih, List.take_succ_cons, carry,
        Nat.add_right_comm, Nat.add_assoc]

theorem after_getElem? (before : Option Construct) (row : Nat) (rows : List Text) {i : Nat}
    (h : i < rows.length) :
    (lines before row rows)[i]?.bind (·.after) = carry before (rows.take (i + 1)) := by
  rw [lines_getElem?, List.getElem?_eq_getElem h, List.take_succ_eq_append_getElem h, carry_append]
  exact line_after _ 0 (row + i) _

end Scan
end LiveHighlight
