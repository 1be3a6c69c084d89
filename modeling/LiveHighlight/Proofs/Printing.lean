import Mathlib
import LiveHighlight.CommandLine
import LiveHighlight.Proofs.StyleRuns

/-! What the command line prints. Coloured text is the runs of a buffer, each behind the sequence of
its colour, and nothing of the text is lost. A listing can be read back: numbers and names end at
the first character that is no letter or digit, and text in quotes ends at the first quote that is
no escape. So it shows one list of runs only, those of the buffer that have a style. -/

namespace LiveHighlight

/-- The codes can be told apart and cut off, whatever text comes after them. -/
def PrefixFree {α : Type} (code : α → Text) : Prop :=
  ∀ a b x y, code a ++ x = code b ++ y → a = b ∧ x = y

/-- Codes in a row can be read back if no code starts like the end of the row. -/
theorem PrefixFree.flatMap {α : Type} {code : α → Text} (h : PrefixFree code) {stop : Char}
    (hstop : ∀ a x y, code a ++ x ≠ stop :: y) :
    PrefixFree fun items : List α => items.flatMap code ++ [stop] := by
  intro items
  induction items with
  | nil =>
    rintro (_ | ⟨other, others⟩) x y heq
    · exact ⟨rfl, List.tail_eq_of_cons_eq heq⟩
    · simp only [List.flatMap_cons, List.append_assoc] at heq
      exact absurd heq.symm (hstop other _ _)
  | cons item items ih =>
    rintro (_ | ⟨other, others⟩) x y heq <;>
      simp only [List.flatMap_cons, List.append_assoc] at heq ih
    · exact absurd heq (hstop item _ _)
    · obtain ⟨rfl, hrest⟩ := h _ _ _ _ heq
      obtain ⟨rfl, rfl⟩ := ih others x y hrest
      exact ⟨rfl, rfl⟩

/-- Two words that end at one delimiter are one, and so is what comes after it. -/
theorem word_append_inj {a b x y : Text} {delimiter : Char} (hdelimiter : ¬ delimiter.isAlphanum)
    (ha : ∀ c ∈ a, c.isAlphanum) (hb : ∀ c ∈ b, c.isAlphanum)
    (h : a ++ delimiter :: x = b ++ delimiter :: y) : a = b ∧ x = y := by
  have hfront : ∀ {word : Text} (rest : Text), (∀ c ∈ word, c.isAlphanum) →
      (word ++ delimiter :: rest).takeWhile Char.isAlphanum = word := fun rest hword => by
    rw [List.takeWhile_append_of_pos hword, List.takeWhile_cons_of_neg hdelimiter, List.append_nil]
  obtain rfl : a = b := by rw [← hfront x ha, h, hfront y hb]
  exact ⟨rfl, List.tail_eq_of_cons_eq (List.append_cancel_left h)⟩

section

variable {base : Nat}

theorem isAlphanum_of_mem_toDigits (hlow : 1 < base) (hhigh : base ≤ 16) (n : Nat) :
    ∀ c ∈ Nat.toDigits base n, c.isAlphanum := by
  have hdigit : ∀ d < 16, (Nat.digitChar d).isAlphanum := by decide
  induction n using Nat.strongRecOn with
  | ind n ih =>
    rw [Nat.toDigits_eq_if hlow]
    split_ifs with hn
    · exact List.forall_mem_singleton.2 (hdigit n (by omega))
    · refine List.forall_mem_append.2 ⟨ih _ (Nat.div_lt_self (by omega) hlow), ?_⟩
      exact List.forall_mem_singleton.2 (hdigit _ ((Nat.mod_lt n (by omega)).trans_le hhigh))

theorem toDigits_injective (hlow : 1 < base) (hhigh : base ≤ 16) :
    Function.Injective (Nat.toDigits base) := by
  have hdigit : ∀ d < 16, ∀ e < 16, Nat.digitChar d = Nat.digitChar e → d = e := by decide
  have hmod : ∀ n, n % base < 16 := fun n =>
    (Nat.mod_lt n (Nat.zero_lt_of_lt hlow)).trans_le hhigh
  intro n
  induction n using Nat.strongRecOn with
  | ind n ih =>
    intro m heq
    rw [Nat.toDigits_eq_if hlow, Nat.toDigits_eq_if hlow (n := m)] at heq
    split_ifs at heq with hn hm hm
    · exact hdigit n (by omega) m (by omega) (List.singleton_inj.1 heq)
    · exact absurd (List.append_eq_singleton_iff.1 heq.symm) (by simp)
    · exact absurd (List.append_eq_singleton_iff.1 heq) (by simp)
    · obtain ⟨hfront, hlast⟩ := List.append_inj' heq rfl
      have hdiv := ih _ (Nat.div_lt_self (by omega) hlow) hfront
      have hrest := hdigit _ (hmod n) _ (hmod m) (List.singleton_inj.1 hlast)
      rw [← Nat.div_add_mod n base, hdiv, hrest, Nat.div_add_mod]

end

namespace Text

/-- The characters that have an escape of their own, and the letter of it. -/
def shortEscapes : List (Char × Char) :=
  [('\x00', '0'), ('\t', 't'), ('\r', 'r'), ('\n', 'n'), ('\x22', '\x22'), ('\\', '\\')]

theorem escape_cases (c : Char) :
    (c ≠ '\\' ∧ c ≠ '\x22' ∧ escape c = [c]) ∨
      (∃ letter, (c, letter) ∈ shortEscapes ∧ escape c = ['\\', letter]) ∨
      escape c = codeEscape c := by
  have hshort : ∀ p ∈ shortEscapes, escape p.1 = ['\\', p.2] := by decide
  by_cases h : ∃ letter, (c, letter) ∈ shortEscapes
  · obtain ⟨letter, hmem⟩ := h
    exact .inr (.inl ⟨letter, hmem, hshort _ hmem⟩)
  · have hother : ∀ p ∈ shortEscapes, c ≠ p.1 := fun p hp heq => h ⟨p.2, heq ▸ hp⟩
    simp only [shortEscapes, List.forall_mem_cons] at hother
    obtain ⟨hnull, htab, hreturn, hbreak, hquote, hback, -⟩ := hother
    rw [escape, if_neg hnull, if_neg htab, if_neg hreturn, if_neg hbreak, if_neg hquote,
      if_neg hback]
    split_ifs
    · exact .inr (.inr rfl)
    · exact .inl ⟨hback, hquote, rfl⟩

theorem codeEscape_prefixFree : PrefixFree codeEscape := by
  intro a b x y heq
  have hword : ∀ c : Char, ∀ d ∈ Nat.toDigits 16 c.toNat, d.isAlphanum := fun c =>
    isAlphanum_of_mem_toDigits (by decide) (by decide) c.toNat
  simp only [codeEscape, List.append_assoc] at heq
  obtain ⟨hcode, rfl⟩ :=
    word_append_inj (by decide) (hword a) (hword b) (List.append_cancel_left heq)
  exact ⟨Char.toNat_inj.1 (toDigits_injective (by decide) (by decide) hcode), rfl⟩

theorem escape_prefixFree : PrefixFree escape := by
  have hletter : ∀ p ∈ shortEscapes, ∀ q ∈ shortEscapes, p.2 = q.2 → p.1 = q.1 := by decide
  have hcode : ∀ p ∈ shortEscapes, p.2 ≠ 'u' := by decide
  intro a b x y heq
  -- the forms never meet: a plain character is no backslash, and no letter is the one of codes
  rcases escape_cases a with ⟨ha, -, hacode⟩ | ⟨c, hac, hacode⟩ | hacode <;>
    rcases escape_cases b with ⟨hb, -, hbcode⟩ | ⟨d, hbd, hbcode⟩ | hbcode <;>
    rw [hacode, hbcode] at heq
  · exact List.cons_eq_cons.1 heq
  · exact absurd (List.head_eq_of_cons_eq heq) ha
  · exact absurd (List.head_eq_of_cons_eq heq) ha
  · exact absurd (List.head_eq_of_cons_eq heq).symm hb
  · obtain ⟨hsame, rfl⟩ := List.cons_eq_cons.1 (List.tail_eq_of_cons_eq heq)
    exact ⟨hletter _ hac _ hbd hsame, rfl⟩
  · exact absurd (List.head_eq_of_cons_eq (List.tail_eq_of_cons_eq heq)) (hcode _ hac)
  · exact absurd (List.head_eq_of_cons_eq heq).symm hb
  · exact absurd (List.head_eq_of_cons_eq (List.tail_eq_of_cons_eq heq)).symm (hcode _ hbd)
  · exact codeEscape_prefixFree a b x y heq

theorem escape_append_ne (c : Char) (x y : Text) : escape c ++ x ≠ '\x22' :: y := by
  intro heq
  rcases escape_cases c with ⟨-, hc, hcode⟩ | ⟨d, -, hcode⟩ | hcode <;> rw [hcode] at heq
  · exact hc (List.head_eq_of_cons_eq heq)
  · exact absurd (List.head_eq_of_cons_eq heq) (by decide)
  · exact absurd (List.head_eq_of_cons_eq heq) (by decide)

theorem quoted_prefixFree : PrefixFree quoted := by
  intro a b x y heq
  exact escape_prefixFree.flatMap escape_append_ne a b x y (List.tail_eq_of_cons_eq heq)

end Text

namespace TokenStyle

theorem isAlphanum_of_mem_name (style : TokenStyle) : ∀ c ∈ style.name.toList, c.isAlphanum :=
  List.all_eq_true.1 (by cases style <;> decide)

theorem name_injective : Function.Injective name := by
  intro a b h
  cases a <;> cases b <;> first | rfl | exact absurd h (by decide)

end TokenStyle

namespace CommandLine

/-- The line of a run with its text. -/
def pieceLine (piece : StyleRun × Text) : Text :=
  (toString piece.1.start ++ ".." ++ toString piece.1.stop ++ " " ++ piece.1.style.name ++
    " ").toList ++ piece.2.quoted ++ ['\n']

theorem pieceLine_append (piece : StyleRun × Text) (rest : Text) :
    pieceLine piece ++ rest =
      Nat.toDigits 10 piece.1.start ++ '.' :: '.' :: (Nat.toDigits 10 piece.1.stop ++
        ' ' :: (piece.1.style.name.toList ++ ' ' :: (piece.2.quoted ++ '\n' :: rest))) := by
  simp [pieceLine]

theorem pieceLine_prefixFree : PrefixFree pieceLine := by
  rintro ⟨⟨start, stop, style⟩, text⟩ ⟨⟨start', stop', style'⟩, text'⟩ x y heq
  have hword : ∀ n, ∀ c ∈ Nat.toDigits 10 n, c.isAlphanum :=
    isAlphanum_of_mem_toDigits (by decide) (by decide)
  have hnumber : Function.Injective (Nat.toDigits 10) := toDigits_injective (by decide) (by decide)
  rw [pieceLine_append, pieceLine_append] at heq
  obtain ⟨hstart, hdots⟩ := word_append_inj (by decide) (hword _) (hword _) heq
  obtain ⟨hstop, hstyled⟩ :=
    word_append_inj (by decide) (hword _) (hword _) (List.tail_eq_of_cons_eq hdots)
  obtain ⟨hname, hquoted⟩ := word_append_inj (by decide) (TokenStyle.isAlphanum_of_mem_name _)
    (TokenStyle.isAlphanum_of_mem_name _) hstyled
  obtain ⟨htext, hrest⟩ := Text.quoted_prefixFree _ _ _ _ hquoted
  cases hnumber hstart
  cases hnumber hstop
  cases TokenStyle.name_injective (String.toList_inj.1 hname)
  cases htext
  exact ⟨rfl, List.tail_eq_of_cons_eq hrest⟩

theorem pieceLine_append_ne (piece : StyleRun × Text) (x y : Text) :
    pieceLine piece ++ x ≠ '\n' :: y := by
  obtain ⟨digit, digits, hdigits⟩ :=
    List.exists_cons_of_ne_nil (Nat.toDigits_ne_nil (b := 10) (n := piece.1.start))
  have hdigit : digit.isAlphanum :=
    isAlphanum_of_mem_toDigits (by decide) (by decide) piece.1.start digit
      (hdigits ▸ List.mem_cons_self)
  rw [pieceLine_append, hdigits]
  intro heq
  rw [List.head_eq_of_cons_eq heq] at hdigit
  exact absurd hdigit (by decide)

theorem flatMap_pieceLine_injective : Function.Injective (List.flatMap pieceLine) := by
  intro pieces others h
  have hended : pieces.flatMap pieceLine ++ ['\n'] ++ [] =
      others.flatMap pieceLine ++ ['\n'] ++ [] := by
    rw [h]
  exact (pieceLine_prefixFree.flatMap pieceLine_append_ne pieces others [] [] hended).1

theorem listing_eq (buffer : TextBuffer) :
    listing buffer = (buffer.pieces.filter (·.1.style ≠ .default)).flatMap pieceLine := by
  rw [TextBuffer.pieces, List.filter_map, List.flatMap_map]
  rfl

theorem colorSequence_eq (color : Color) :
    colorSequence color = "\x1b[38;2;".toList ++
      Nat.toDigits 10 (channelByte color.red).toNat ++
      ';' :: Nat.toDigits 10 (channelByte color.green).toNat ++
      ';' :: Nat.toDigits 10 (channelByte color.blue).toNat ++ ['m'] := by
  simp [colorSequence, Color.rgb]

theorem colored_eq (theme : Theme) (buffer : TextBuffer) :
    colored theme buffer = (buffer.pieces.flatMap fun piece =>
      colorSequence (theme.color piece.1.style) ++ piece.2) ++ resetSequence := by
  rw [TextBuffer.pieces, List.flatMap_map]
  rfl

/-- The runs of a buffer are the one way to group its styles, both outputs show them with their
texts, and no other runs or texts are listed the way they are. The text of a run stands in colour
behind one sequence with the three bytes of the colour in decimal. -/
theorem outputs_show_runs (buffer : TextBuffer) (theme : Theme) :
    (∀ runs, Groups 0 buffer.length buffer.styles runs ↔ runs = buffer.styleRuns) ∧
      colored theme buffer = (buffer.pieces.flatMap fun (run, text) =>
        "\x1b[38;2;".toList ++ Nat.toDigits 10 (channelByte (theme.color run.style).red).toNat ++
          ';' :: Nat.toDigits 10 (channelByte (theme.color run.style).green).toNat ++
          ';' :: Nat.toDigits 10 (channelByte (theme.color run.style).blue).toNat ++
          ['m'] ++ text) ++ "\x1b[0m".toList ∧
      buffer.pieces.flatMap (·.2) = buffer.text ∧
      ∃ listed : List (StyleRun × Text),
        listed.Pairwise (fun a b => a.1.stop ≤ b.1.start) ∧
        (∀ run text, (run, text) ∈ listed ↔ MaximalRun buffer.styles run ∧
          run.style ≠ .default ∧ text = buffer.text.slice run.start run.stop) ∧
        ∀ pieces, listing buffer = pieces.flatMap pieceLine ↔ pieces = listed := by
  refine ⟨buffer.groups_styleRuns_iff, ?_, buffer.flatMap_pieces, _,
    buffer.pieces_ordered.filter (·.1.style ≠ .default), fun run text => ?_, fun pieces => ?_⟩
  · simp only [colored_eq, colorSequence_eq, resetSequence]
  · rw [List.mem_filter, buffer.mem_pieces_iff, decide_eq_true_iff]
    tauto
  · rw [listing_eq, flatMap_pieceLine_injective.eq_iff, eq_comm]

end CommandLine
end LiveHighlight
