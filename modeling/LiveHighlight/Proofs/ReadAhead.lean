import Mathlib
import LiveHighlight.Proofs.SolidTokens

/-! How far a token looks ahead. A number asks for a digit after its point and for the end of a word
after its suffix, a quote for another quote, a symbol for a second character. A blank answers all of
them as the end of the text does, so what is read at a character stays the same if the text is cut
off behind it or goes on with a blank there. -/

namespace LiveHighlight.Lexeme

open Text

/-- Nothing goes on: the text is at its end, or a blank comes next. -/
def Parted (tail : Text) : Prop := ∀ c, tail.head? = some c → isBlank c = true

theorem parted_nil : Parted [] := by
  intro c hc
  cases hc

theorem takeWhile_takeWhile_append {p : Char → Bool} (text : Text) {more : Text}
    (h : ∀ c, more.head? = some c → p c = false) :
    (text.takeWhile p ++ more).takeWhile p = text.takeWhile p := by
  rw [List.takeWhile_append_of_pos fun c hc => List.mem_takeWhile_imp hc]
  have hstop : more.takeWhile p = [] := by
    cases more with
    | nil => rfl
    | cons c more => simp [h c rfl]
  rw [hstop, List.append_nil]

theorem digits_append (text : Text) {more : Text}
    (h : ∀ c, more.head? = some c → c.isDigit = false) :
    digits (text.take (digits text) ++ more) = digits text := by
  rw [digits, digits, take_length_takeWhile, takeWhile_takeWhile_append text h]

theorem fraction_cases (text : Text) :
    fraction text = 0 ∨ ∃ d rest, text = '.' :: d :: rest ∧ d.isDigit = true ∧
      fraction text = digits rest + 2 := by
  unfold fraction
  split
  · next d rest =>
    by_cases hd : d.isDigit
    · exact .inr ⟨d, rest, rfl, hd, if_pos hd⟩
    · exact .inl (if_neg hd)
  · exact .inl rfl

theorem fraction_append (text : Text) {more : Text}
    (h : ∀ c, more.head? = some c → c.isDigit = false ∧ c ≠ '.') :
    fraction (text.take (fraction text) ++ more) = fraction text := by
  rcases fraction_cases text with hzero | ⟨d, rest, rfl, hd, hfraction⟩
  · rw [hzero, List.take_zero, List.nil_append]
    rcases fraction_cases more with hmore | ⟨d, rest, rfl, -⟩
    · exact hmore
    · exact absurd rfl (h '.' rfl).2
  · rw [hfraction, List.take_succ_cons, List.take_succ_cons, List.cons_append, List.cons_append,
      fraction, if_pos hd, digits_append rest fun c hc => (h c hc).1]

theorem suffix_cases (text : Text) :
    suffix text = 0 ∨ ∃ c rest, text = c :: rest ∧ c ∈ suffixes ∧ suffix text = 1 := by
  unfold suffix
  split
  · next c rest =>
    by_cases hc : c ∈ suffixes ∧ ¬ rest.head?.any isWordChar
    · exact .inr ⟨c, rest, rfl, hc.1, if_pos hc⟩
    · exact .inl (if_neg hc)
  · exact .inl rfl

theorem plain_of_mem_suffixes {c : Char} (h : c ∈ suffixes) :
    isBlank c = false ∧ c.isDigit = false ∧ c ≠ '.' := by
  have hall : suffixes.all (fun c => !isBlank c && (!c.isDigit && c ≠ '.')) = true := by decide
  simpa using List.all_eq_true.1 hall c h

theorem Parted.not_word {tail : Text} (h : Parted tail) : tail.head?.any isWordChar = false := by
  cases tail with
  | nil => rfl
  | cons c tail => exact isWordChar_of_blank (h c rfl)

theorem suffix_append (text : Text) {tail : Text} (h : Parted tail) :
    suffix (text.take (suffix text) ++ tail) = suffix text := by
  rcases suffix_cases text with hzero | ⟨c, rest, rfl, hc, hone⟩
  · rw [hzero, List.take_zero, List.nil_append]
    rcases suffix_cases tail with htail | ⟨c, rest, rfl, hc, -⟩
    · exact htail
    · have hblank := h c rfl
      rw [(plain_of_mem_suffixes hc).1] at hblank
      cases hblank
  · rw [hone, List.take_succ_cons, List.take_zero, List.singleton_append, suffix,
      if_pos ⟨hc, by simp [h.not_word]⟩]

theorem Parted.head_plain {tail : Text} (h : Parted tail) {c : Char} (hc : tail.head? = some c) :
    c.isDigit = false ∧ c ≠ '.' := by
  have hblank := h c hc
  refine ⟨?_, ?_⟩
  · rw [Bool.eq_false_iff]
    intro hdigit
    rw [not_blank_of_isDigit hdigit] at hblank
    cases hblank
  · rintro rfl
    exact absurd hblank (by decide)

theorem suffix_head_plain (text : Text) {tail : Text} (h : Parted tail) {c : Char}
    (hc : (text.take (suffix text) ++ tail).head? = some c) : c.isDigit = false ∧ c ≠ '.' := by
  rcases suffix_cases text with hzero | ⟨d, rest, rfl, hd, hone⟩
  · rw [hzero, List.take_zero, List.nil_append] at hc
    exact h.head_plain hc
  · rw [hone] at hc
    cases hc
    exact (plain_of_mem_suffixes hd).2

theorem fraction_head_plain (text : Text) {more : Text}
    (h : ∀ c, more.head? = some c → c.isDigit = false) {c : Char}
    (hc : (text.take (fraction text) ++ more).head? = some c) : c.isDigit = false := by
  rcases fraction_cases text with hzero | ⟨d, rest, rfl, -, hpart⟩
  · rw [hzero, List.take_zero, List.nil_append] at hc
    exact h c hc
  · rw [hpart] at hc
    cases hc
    rfl

/-- A number that ends at a blank keeps its digits, its fraction and its suffix: each of them ends
where the next one starts. -/
theorem numberTail_append (rest : Text) {tail : Text} (h : Parted tail) :
    numberTail (rest.take (numberTail rest) ++ tail) = numberTail rest := by
  set whole := digits rest
  set part := fraction (rest.drop whole)
  set last := suffix (rest.drop (whole + part))
  have hwhole : (rest.take whole).length = whole :=
    List.length_take_of_le (digits_le rest)
  have hpart : ((rest.drop whole).take part).length = part :=
    List.length_take_of_le (fraction_le _)
  set ending := (rest.drop (whole + part)).take last ++ tail
  have hending : ∀ c, ending.head? = some c → c.isDigit = false ∧ c ≠ '.' :=
    fun c hc => suffix_head_plain _ h hc
  have hsplit : rest.take (whole + part + last) ++ tail =
      rest.take whole ++ ((rest.drop whole).take part ++ ending) := by
    rw [List.take_add, List.take_add, List.append_assoc, List.append_assoc]
  have hdigits : digits (rest.take whole ++ ((rest.drop whole).take part ++ ending)) = whole :=
    digits_append rest fun c hc => fraction_head_plain _ (fun c hc => (hending c hc).1) hc
  have hfraction : fraction ((rest.drop whole).take part ++ ending) = part :=
    fraction_append _ hending
  have hsuffix : suffix ending = last := suffix_append _ h
  show numberTail (rest.take (whole + part + last) ++ tail) = whole + part + last
  rw [hsplit, numberTail, hdigits, List.drop_left' hwhole, hfraction, ← List.drop_drop,
    List.drop_left' hwhole, List.drop_left' hpart, hsuffix]

theorem pastPair_append {pair : Char × Char} {text : Text} {n : Nat}
    (h : pastPair pair text = some n) (tail : Text) :
    pastPair pair (text.take n ++ tail) = some n := by
  induction text generalizing n with
  | nil => cases h
  | cons x text ih =>
    cases text with
    | nil => cases h
    | cons y rest =>
      rw [pastPair] at h
      split_ifs at h with hpair
      · obtain rfl := Option.some.inj h
        exact if_pos hpair
      · obtain ⟨m, hm, rfl⟩ := Option.map_eq_some_iff.1 h
        have hbounds := pastPair_bounds hm
        obtain ⟨k, rfl⟩ : ∃ k, m = k + 1 := ⟨m - 1, by omega⟩
        have hrest := ih hm
        rw [List.take_succ_cons, List.cons_append] at hrest
        rw [List.take_succ_cons, List.take_succ_cons, List.cons_append, List.cons_append, pastPair,
          if_neg hpair, hrest, Option.map_some]

/-- The first character that is left after some are cut off behind it is the same, or there is none
left of them. -/
theorem head?_take_append {n : Nat} {rest tail : Text} (hn : n ≤ rest.length) (h : Parted tail)
    {c : Char} (hc : (rest.take n ++ tail).head? = some c) (hsolid : isBlank c = false) :
    rest.head? = some c := by
  cases n with
  | zero =>
    have hblank := h c hc
    rw [hsolid] at hblank
    cases hblank
  | succ n =>
    cases rest with
    | nil => cases hn
    | cons d rest => exact hc

theorem opener_solid (k : Construct) : isBlank k.opener.2 = false := by
  cases k <;> decide

theorem delimiter_append {c : Char} {rest tail : Text} {n : Nat} (h : delimiter c rest = none)
    (hn : n ≤ rest.length) (htail : Parted tail) : delimiter c (rest.take n ++ tail) = none := by
  have hstarts (k : Construct) (hk : startsPair k.opener c rest = false) :
      startsPair k.opener c (rest.take n ++ tail) = false := by
    rw [Bool.eq_false_iff] at hk ⊢
    intro hstart
    simp only [startsPair, ne_eq, Bool.and_eq_true, decide_eq_true_eq] at hk hstart
    exact hk ⟨hstart.1, head?_take_append hn htail hstart.2 (opener_solid k)⟩
  unfold delimiter at h ⊢
  split_ifs at h with hcomment hstring
  rw [hstarts .comment (Bool.eq_false_iff.2 hcomment),
    hstarts .string (Bool.eq_false_iff.2 hstring)]
  rfl

theorem delimiter_congr {rest rest' : Text} (h : rest.head? = rest'.head?) (c : Char) :
    delimiter c rest = delimiter c rest' := by
  rw [delimiter, delimiter, startsPair, startsPair, startsPair, startsPair, h]

theorem quote_closed {inside : Text} (h : '\x60' ∉ inside) (more : Text) :
    quote (inside ++ '\x60' :: more) =
      (if inside.length = 1 then .character else .reference true false, inside.length + 1) := by
  have hinside : (inside ++ '\x60' :: more).takeWhile (· ≠ '\x60') = inside := by
    rw [List.takeWhile_append_of_pos fun c hc => by simpa using ne_of_mem_of_not_mem hc h]
    simp
  rw [quote, hinside]
  exact if_pos (by simp)

theorem quote_unclosed {rest : Text} (h : '\x60' ∉ rest) : quote rest = (.invalid, 0) := by
  have hinside : rest.takeWhile (· ≠ '\x60') = rest :=
    List.takeWhile_eq_self_iff.2 fun c hc => by simpa using ne_of_mem_of_not_mem hc h
  rw [quote, hinside]
  exact if_neg (Nat.lt_irrefl _)

theorem quote_append (rest : Text) {tail : Text}
    (h : (quote rest).1 = .invalid → '\x60' ∉ tail) :
    quote (rest.take (quote rest).2 ++ tail) = quote rest := by
  by_cases hmem : '\x60' ∈ rest
  · obtain ⟨inside, more, rfl, hinside⟩ := List.eq_append_cons_of_mem hmem
    have htake : (inside ++ '\x60' :: more).take (inside.length + 1) ++ tail =
        inside ++ '\x60' :: tail := by
      rw [List.append_cons, List.take_left' (by simp), List.append_assoc]
      rfl
    rw [quote_closed hinside, htake, quote_closed hinside]
  · have hquote := quote_unclosed hmem
    rw [hquote, List.take_zero, List.nil_append]
    exact quote_unclosed (h (by rw [hquote]))

theorem symbol_append (c : Char) (rest : Text) {tail : Text} (h : Parted tail) :
    symbol c (rest.take (symbol c rest).2 ++ tail) = symbol c rest := by
  cases hpair : rest.head?.bind fun d => pairKind (c, d) with
  | some kind =>
    have hsymbol : symbol c rest = (kind, 1) := by rw [symbol, hpair]
    obtain ⟨d, hd, -⟩ := Option.bind_eq_some_iff.1 hpair
    obtain ⟨more, rfl⟩ := List.head?_eq_some_iff.1 hd
    rw [hsymbol, List.take_succ_cons, List.cons_append]
    exact hsymbol
  | none =>
    have hsymbol : symbol c rest = (symbolKind c, 0) := by rw [symbol, hpair]
    have htail : (tail.head?.bind fun d => pairKind (c, d)) = none :=
      Option.bind_eq_none_iff.2 fun d hd => pairKind_blank c (h d hd)
    rw [hsymbol, List.take_zero, List.nil_append, symbol, htail]

section

variable {c : Char} {rest : Text}

theorem read_inline {k : Construct} {n : Nat} (h : delimiter c rest = some k)
    (hclosed : pastPair k.closer (rest.drop 1) = some n) :
    read c rest = (inlineKind k, n + 1) := by
  rw [read, h]
  dsimp only
  rw [hclosed]

theorem read_opening {k : Construct} (h : delimiter c rest = some k)
    (hopen : pastPair k.closer (rest.drop 1) = none) :
    read c rest = (.fragment k .opening, rest.length) := by
  rw [read, h]
  dsimp only
  rw [hopen]

theorem read_quote (h : delimiter c rest = none) (hquote : c = '\x60') :
    read c rest = quote rest := by
  rw [read, h]
  exact if_pos hquote

theorem read_number (h : delimiter c rest = none) (hquote : c ≠ '\x60')
    (hdigit : c.isDigit = true) : read c rest = (.number, numberTail rest) := by
  rw [read, h]
  exact (if_neg hquote).trans (if_pos hdigit)

theorem read_word (h : delimiter c rest = none) (hquote : c ≠ '\x60')
    (hdigit : ¬ c.isDigit = true) (hword : isWordStart c = true) :
    read c rest =
      (wordKind (c :: rest.takeWhile isWordChar), (rest.takeWhile isWordChar).length) := by
  rw [read, h]
  exact (if_neg hquote).trans ((if_neg hdigit).trans (if_pos hword))

theorem read_symbol (h : delimiter c rest = none) (hquote : c ≠ '\x60')
    (hdigit : ¬ c.isDigit = true) (hword : ¬ isWordStart c = true) :
    read c rest = symbol c rest := by
  rw [read, h]
  exact (if_neg hquote).trans ((if_neg hdigit).trans (if_neg hword))

/-- A quote that is invalid is one that nothing closes. -/
theorem not_mem_of_read_invalid (hquote : c = '\x60') (h : (read c rest).1 = .invalid) :
    '\x60' ∉ rest := by
  intro hmem
  cases hdelimiter : delimiter c rest with
  | some k =>
    cases hpast : pastPair k.closer (rest.drop 1) with
    | none =>
      rw [read_opening hdelimiter hpast] at h
      cases h
    | some n =>
      rw [read_inline hdelimiter hpast] at h
      cases k <;> cases h
  | none =>
    obtain ⟨inside, more, rfl, hinside⟩ := List.eq_append_cons_of_mem hmem
    rw [read_quote hdelimiter hquote, quote_closed hinside] at h
    dsimp only at h
    split_ifs at h

/-- What is read at a character stays the same when the text is cut off behind it, and when it goes
on with a blank there. A fragment that opens a construct is not to go on at all, and a quote that
nothing closes is to meet no quote later. -/
theorem read_append {tail : Text} (htail : Parted tail)
    (hopening : ∀ k part, (read c rest).1 = .fragment k part → tail = [])
    (hlone : c = '\x60' → (read c rest).1 = .invalid → '\x60' ∉ tail) :
    read c (rest.take (read c rest).2 ++ tail) = read c rest := by
  have hlength := read_length_le c rest
  cases hdelimiter : delimiter c rest with
  | some k =>
    cases hpast : pastPair k.closer (rest.drop 1) with
    | none =>
      have hread := read_opening hdelimiter hpast
      obtain rfl := hopening k .opening (by rw [hread])
      rw [List.append_nil, hread, List.take_length, hread]
    | some n =>
      have hread := read_inline hdelimiter hpast
      obtain ⟨d, rest, rfl⟩ : ∃ d more, rest = d :: more := by
        cases rest with
        | nil => cases hpast
        | cons d more => exact ⟨d, more, rfl⟩
      rw [hread, List.take_succ_cons, List.cons_append]
      refine read_inline ?_ (pastPair_append hpast tail)
      rw [← hdelimiter]
      exact delimiter_congr rfl c
  | none =>
    have hfree := delimiter_append hdelimiter hlength htail
    by_cases hquote : c = '\x60'
    · have hread := read_quote hdelimiter hquote
      rw [read_quote hfree hquote, hread]
      exact quote_append rest fun h => hlone hquote (by rw [hread, h])
    · by_cases hdigit : c.isDigit = true
      · have hread := read_number hdelimiter hquote hdigit
        rw [read_number hfree hquote hdigit, hread, numberTail_append rest htail]
      · by_cases hword : isWordStart c = true
        · have hread := read_word hdelimiter hquote hdigit hword
          have hstop (d : Char) (hd : tail.head? = some d) : isWordChar d = false :=
            isWordChar_of_blank (htail d hd)
          rw [read_word hfree hquote hdigit hword, hread, take_length_takeWhile,
            takeWhile_takeWhile_append rest hstop]
        · have hread := read_symbol hdelimiter hquote hdigit hword
          rw [read_symbol hfree hquote hdigit hword, hread, symbol_append c rest htail]

end

end LiveHighlight.Lexeme
