import Mathlib
import LiveHighlight.Proofs.LexedRows

/-! What a parser reads off statements. A reference is called if a bang follows it and in no other
case, and a statement is at fault if its brackets do not make a balanced word and in no other case.
The check goes on after a fault and keeps the opening brackets that are still to be closed; what
they ask of the brackets to come is a balanced word before each closing one, and one at the end. -/

namespace LiveHighlight.Statement

inductive Shape where
  | round
  | square
  | curly
  deriving DecidableEq, Repr

inductive Bracket where
  | opening (shape : Shape)
  | closing (shape : Shape)
  deriving DecidableEq, Repr

def Bracket.text : Bracket → Text
  | .opening .round => ['(']
  | .closing .round => [')']
  | .opening .square => ['[']
  | .closing .square => [']']
  | .opening .curly => ['\x7b']
  | .closing .curly => ['\x7d']

def Bracket.ofText? : Text → Option Bracket
  | ['('] => some (.opening .round)
  | [')'] => some (.closing .round)
  | ['['] => some (.opening .square)
  | [']'] => some (.closing .square)
  | ['\x7b'] => some (.opening .curly)
  | ['\x7d'] => some (.closing .curly)
  | _ => none

/-- The bracket that a token is. A bracket inside a string or a comment is none. -/
def bracket? (token : Token) : Option Bracket :=
  if token.kind = .punctuation then Bracket.ofText? token.text else none

def brackets (statement : List Token) : List Bracket := statement.filterMap bracket?

/-- Words of brackets in which each opening one is closed by one of its shape, with a balanced word
between them. -/
inductive Balanced : List Bracket → Prop
  | nil : Balanced []
  | wrap (shape : Shape) {inner rest : List Bracket} (hinner : Balanced inner)
    (hrest : Balanced rest) : Balanced (.opening shape :: (inner ++ .closing shape :: rest))

/-- The brackets that close what is open and leave nothing open, the last opened first. -/
def Closes : (shapes : List Shape) → List Bracket → Prop
  | [], word => Balanced word
  | shape :: shapes, word =>
    ∃ inner rest, word = inner ++ .closing shape :: rest ∧ Balanced inner ∧ Closes shapes rest

section

variable {shapes : List Shape} {shape : Shape} {word : List Bracket}

theorem closes_nil : Closes shapes [] ↔ shapes = [] := by
  cases shapes with
  | nil => exact ⟨fun _ => rfl, fun _ => .nil⟩
  | cons shape shapes => simp [Closes]

theorem closes_opening :
    Closes shapes (.opening shape :: word) ↔ Closes (shape :: shapes) word := by
  constructor
  · intro h
    cases shapes with
    | nil =>
      cases h with
      | wrap _ hinner hrest => exact ⟨_, _, rfl, hinner, hrest⟩
    | cons outer shapes =>
      obtain ⟨inner, rest, hword, hinner, hrest⟩ := h
      cases hinner with
      | nil => cases hword
      | wrap _ hfirst hsecond =>
        obtain ⟨hshape, hword⟩ := List.cons.inj hword
        cases hshape
        have hsplit := hword.trans (List.append_assoc _ _ _)
        exact ⟨_, _, hsplit, hfirst, _, rest, rfl, hsecond, hrest⟩
  · rintro ⟨inner, rest, rfl, hinner, hrest⟩
    cases shapes with
    | nil => exact .wrap shape hinner hrest
    | cons outer shapes =>
      obtain ⟨second, rest, rfl, hsecond, hrest⟩ := hrest
      exact ⟨_, rest, by simp, .wrap shape hinner hsecond, hrest⟩

theorem closes_closing :
    Closes shapes (.closing shape :: word) ↔
      ∃ outer, shapes = shape :: outer ∧ Closes outer word := by
  constructor
  · intro h
    cases shapes with
    | nil => cases h
    | cons last outer =>
      obtain ⟨inner, rest, hword, hinner, hrest⟩ := h
      cases hinner with
      | nil =>
        obtain ⟨hshape, rfl⟩ := List.cons.inj hword
        cases hshape
        exact ⟨outer, rfl, hrest⟩
      | wrap _ _ _ => cases hword
  · rintro ⟨outer, rfl, hrest⟩
    exact ⟨[], word, rfl, .nil, hrest⟩

end

def decideCloses : (shapes : List Shape) → (word : List Bracket) → Decidable (Closes shapes word)
  | shapes, [] => decidable_of_iff (shapes = []) closes_nil.symm
  | shapes, .opening shape :: word =>
    @decidable_of_iff _ _ closes_opening.symm (decideCloses (shape :: shapes) word)
  | [], .closing _ :: _ => .isFalse nofun
  | last :: outer, .closing shape :: word =>
    have : Decidable (Closes outer word) := decideCloses outer word
    decidable_of_iff (last = shape ∧ Closes outer word) (by simp [closes_closing])

instance : DecidablePred Balanced := decideCloses []

theorem text_of_ofText? {text : Text} {bracket : Bracket}
    (h : Bracket.ofText? text = some bracket) : text = bracket.text := by
  unfold Bracket.ofText? at h
  split at h <;> cases h <;> rfl

theorem closerOf_opening (shape : Shape) :
    closerOf (Bracket.opening shape).text = some (Bracket.closing shape).text := by
  cases shape <;> rfl

theorem closerOf_closing (shape : Shape) : closerOf (Bracket.closing shape).text = none := by
  cases shape <;> rfl

theorem isCloser_closing (shape : Shape) : isCloser (Bracket.closing shape).text = true := by
  cases shape <;> rfl

theorem closing_text_inj {a b : Shape}
    (h : (Bracket.closing a).text = (Bracket.closing b).text) : a = b := by
  cases a <;> cases b <;> first | rfl | exact absurd h (by decide)

theorem no_closer_of_ofText? {text : Text} (h : Bracket.ofText? text = none) :
    closerOf text = none ∧ isCloser text = false := by
  constructor
  · unfold closerOf
    split <;> first | rfl | exact absurd h (by decide)
  · rw [Bool.eq_false_iff]
    intro hcloser
    simp only [isCloser, Bool.or_eq_true, decide_eq_true_eq] at hcloser
    rcases hcloser with (rfl | rfl) | rfl <;> exact absurd h (by decide)

section

variable {t : Token} {shape : Shape}

theorem bracket?_eq_some {bracket : Bracket} (h : bracket? t = some bracket) :
    t.kind = .punctuation ∧ t.text = bracket.text := by
  unfold bracket? at h
  split_ifs at h with hkind
  exact ⟨hkind, text_of_ofText? h⟩

theorem bracketFaults_opening (h : bracket? t = some (.opening shape))
    (unclosed rest : List Token) :
    bracketFaults unclosed (t :: rest) = bracketFaults (t :: unclosed) rest := by
  obtain ⟨hkind, htext⟩ := bracket?_eq_some h
  rw [bracketFaults, if_pos hkind, htext, closerOf_opening]
  rfl

theorem bracketFaults_closing (h : bracket? t = some (.closing shape))
    (unclosed rest : List Token) :
    bracketFaults unclosed (t :: rest) =
      if (unclosed.head?.bind fun opener => closerOf opener.text) = some t.text then
        bracketFaults unclosed.tail rest
      else .unmatched t :: bracketFaults unclosed.tail rest := by
  obtain ⟨hkind, htext⟩ := bracket?_eq_some h
  rw [bracketFaults, if_pos hkind, htext, closerOf_closing, if_neg (by simp),
    if_pos (isCloser_closing shape)]

theorem bracketFaults_other (h : bracket? t = none) (unclosed rest : List Token) :
    bracketFaults unclosed (t :: rest) = bracketFaults unclosed rest := by
  by_cases hkind : t.kind = .punctuation
  · rw [bracket?, if_pos hkind] at h
    obtain ⟨hopener, hcloser⟩ := no_closer_of_ofText? h
    rw [bracketFaults, if_pos hkind, hopener, if_neg (by simp), hcloser, if_neg (by simp)]
  · rw [bracketFaults, if_neg hkind]

end

/-- The check finds no fault exactly if the brackets to come close what is open. -/
theorem bracketFaults_eq_nil_iff {unclosed : List Token} {shapes : List Shape}
    (h : unclosed.map bracket? = shapes.map fun shape => some (.opening shape))
    (statement : List Token) :
    bracketFaults unclosed statement = [] ↔ Closes shapes (brackets statement) := by
  induction statement generalizing unclosed shapes with
  | nil =>
    have hempty : unclosed = [] ↔ shapes = [] := by
      rw [← List.map_eq_nil_iff (f := bracket?), h, List.map_eq_nil_iff]
    rw [brackets, List.filterMap_nil, closes_nil, ← hempty, bracketFaults]
    cases unclosed <;> simp
  | cons t rest ih =>
    cases hbracket : bracket? t with
    | none =>
      rw [bracketFaults_other hbracket, ih h, brackets, brackets, List.filterMap_cons_none hbracket]
    | some bracket =>
      rw [brackets, List.filterMap_cons_some hbracket]
      cases bracket with
      | opening shape =>
        rw [bracketFaults_opening hbracket, closes_opening]
        exact ih (by rw [List.map_cons, List.map_cons, h, hbracket])
      | closing shape =>
        rw [bracketFaults_closing hbracket, closes_closing]
        cases shapes with
        | nil =>
          obtain rfl := List.map_eq_nil_iff.1 h
          simp
        | cons last outer =>
          obtain ⟨opener, older, rfl, hopener, holder⟩ := List.map_eq_cons_iff.1 h
          rw [List.head?_cons, Option.bind_some, (bracket?_eq_some hopener).2, closerOf_opening,
            (bracket?_eq_some hbracket).2, List.tail_cons]
          -- a bracket of another shape is a fault here, whatever is found later
          split_ifs with hmatches
          · obtain rfl := closing_text_inj (Option.some.inj hmatches)
            rw [ih holder]
            simp [brackets]
          · simp only [List.cons.injEq, false_iff, not_exists, not_and]
            rintro _ ⟨rfl, -⟩
            exact absurd rfl hmatches

theorem faults_eq_nil_iff (statement : List Token) :
    faults statement = [] ↔ Balanced (brackets statement) := by
  have hnone : ([] : List Token).map bracket? = ([] : List Shape).map fun s => some (.opening s) :=
    rfl
  exact bracketFaults_eq_nil_iff hnone statement

/-- The token after the one with an index is a bang. -/
def BangAfter (statement : List Token) (i : Nat) : Prop :=
  ∃ next, statement[i + 1]? = some next ∧ next.kind = .punctuation ∧ next.text = ['!']

/-- Marking the calls of a statement changes no token but references, and of these only whether they
are called: those that are followed by a bang are, and those that were so before. -/
structure Marks (statement marked : List Token) : Prop where
  texts : marked.map (·.text) = statement.map (·.text)
  locations : marked.map (·.location) = statement.map (·.location)
  others : ∀ (i : Nat) (t : Token), statement[i]? = some t →
    (∀ quoted called, t.kind ≠ .reference quoted called) → marked[i]? = some t
  references : ∀ (i : Nat) (t : Token) (quoted called : Bool), statement[i]? = some t →
    t.kind = .reference quoted called →
    ∃ m now, marked[i]? = some m ∧ m.kind = .reference quoted now ∧
      (now = true ↔ called = true ∨ BangAfter statement i)

theorem markCalls_getElem? (statement : List Token) (i : Nat) :
    (markCalls statement)[i]? =
      statement[i]?.map fun t => if statement[i + 1]?.any isBang then call t else t := by
  induction statement generalizing i with
  | nil => rfl
  | cons t rest ih =>
    rw [markCalls_cons]
    cases i with
    | zero => simp [List.head?_eq_getElem?]
    | succ i => simpa using ih i

theorem bangAfter_iff (statement : List Token) (i : Nat) :
    BangAfter statement i ↔ statement[i + 1]?.any isBang = true := by
  simp [BangAfter, isBang, Option.any_eq_true]

theorem markCalls_map {α : Type} (f : Token → α) (hf : ∀ t, f (call t) = f t)
    (statement : List Token) : (markCalls statement).map f = statement.map f := by
  induction statement with
  | nil => rfl
  | cons t rest ih =>
    rw [markCalls_cons, List.map_cons, List.map_cons, ih]
    split
    · rw [hf]
    · rfl

theorem isBang_call (t : Token) : isBang (call t) = isBang t := by
  unfold call
  split
  · next h => simp [isBang, h]
  · rfl

theorem call_of_reference {t : Token} {quoted called : Bool}
    (h : t.kind = .reference quoted called) : (call t).kind = .reference quoted true := by
  simp [call, h]

theorem call_of_other {t : Token} (h : ∀ quoted called, t.kind ≠ .reference quoted called) :
    call t = t := by
  unfold call
  split
  · next hkind => exact absurd hkind (h _ _)
  · rfl

theorem call_call (t : Token) : call (call t) = call t := by
  by_cases h : ∃ quoted called, t.kind = .reference quoted called
  · obtain ⟨quoted, called, h⟩ := h
    simp [call, h]
  · push Not at h
    rw [call_of_other h, call_of_other h]

/-- A call turns no token into a bang, so marking again marks the same references. -/
theorem markCalls_markCalls (statement : List Token) :
    markCalls (markCalls statement) = markCalls statement := by
  induction statement with
  | nil => rfl
  | cons t rest ih =>
    have hbang : (markCalls rest).head?.any isBang = rest.head?.any isBang := by
      cases rest with
      | nil => rfl
      | cons next rest =>
        rw [markCalls_cons, List.head?_cons, List.head?_cons, Option.any_some, Option.any_some]
        split
        · exact isBang_call next
        · rfl
    rw [markCalls_cons, markCalls_cons, hbang, ih]
    split
    · rw [call_call]
    · rfl

theorem marks_markCalls (statement : List Token) : Marks statement (markCalls statement) where
  texts := markCalls_map _ call_text statement
  locations := markCalls_map _ call_location statement
  others i t ht hother := by
    rw [markCalls_getElem?, ht, Option.map_some, call_of_other hother, ite_self]
  references i t quoted called ht hreference := by
    rw [bangAfter_iff, markCalls_getElem?, ht, Option.map_some]
    by_cases hbang : statement[i + 1]?.any isBang
    · rw [if_pos hbang]
      exact ⟨_, true, rfl, call_of_reference hreference, by simp [hbang]⟩
    · rw [if_neg hbang]
      exact ⟨t, called, rfl, hreference, by simp [hbang]⟩

namespace Parser

/-- Parsing marks the calls of each statement and nothing else, has nothing left to mark when it is
done again, and counts the statements whose brackets are not balanced. -/
theorem parse_marks_and_counts (parser : Parser) (statements : List (List Token)) :
    let parsed := parser.parse statements
    List.Forall₂ Marks statements parsed.1 ∧
      (∀ again : Parser, (again.parse parsed.1).1 = parsed.1) ∧
      parsed.2.errorCount =
        parser.errorCount + statements.countP fun s => ¬ Balanced (brackets s) := by
  intro parsed
  refine ⟨?_, fun again => ?_, ?_⟩
  · show List.Forall₂ Marks statements (statements.map markCalls)
    rw [List.forall₂_map_right_iff, List.forall₂_same]
    exact fun statement _ => marks_markCalls statement
  · show (statements.map markCalls).map markCalls = statements.map markCalls
    rw [List.map_map]
    exact List.map_congr_left fun statement _ => markCalls_markCalls statement
  · show parser.errorCount + _ = _
    congr 1
    refine List.countP_congr fun statement _ => ?_
    rw [Bool.not_eq_true', List.isEmpty_eq_false_iff, decide_eq_true_iff, ne_eq, faults_eq_nil_iff]

end Parser
end LiveHighlight.Statement
