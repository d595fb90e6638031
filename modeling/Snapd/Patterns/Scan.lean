import Mathlib.Data.List.Basic

/-! Scanner of AppArmor prompting path patterns (`interfaces/prompting/patterns/scan.go`).
A Go string is modelled by its list of runes, as `strings.Reader.ReadRune` delivers them. -/

namespace Snapd.Patterns

inductive TokenType where
  | tokEOF
  | tokText
  | tokBraceOpen
  | tokBraceClose
  | tokComma
  deriving DecidableEq, Repr

structure Token where
  tType : TokenType
  text : List Char
  deriving DecidableEq, Repr

/-- What may follow `/.` for `relpathFinder` to match: an optional `.`, then `/` or the end. -/
def relpathTail : List Char → Bool
  | [] => true
  | '/' :: _ => true
  | '.' :: [] => true
  | '.' :: '/' :: _ => true
  | _ => false

/-- Whether the regex `relpathFinder` (`/\.(\.)?(/|$)`) matches somewhere in the text. -/
def relpathFinderMatch : List Char → Bool
  | [] => false
  | '/' :: tl =>
    (match tl with
      | '.' :: rest => relpathTail rest
      | _ => false) || relpathFinderMatch tl
  | _ :: tl => relpathFinderMatch tl

/-- A path with a `/./` or `/../` segment, or ending in `/.` or `/..`: what `relpathFinder`
looks for. -/
def RelativeSegment (s : List Char) : Prop :=
  ['/', '.', '/'] <:+: s ∨ ['/', '.', '.', '/'] <:+: s ∨ ['/', '.'] <:+ s ∨ ['/', '.', '.'] <:+ s

theorem relpathFinderMatch_slash (tl : List Char) :
    relpathFinderMatch ('/' :: tl) = true ↔
      (['/', '.', '/'] <+: '/' :: tl ∨ ['/', '.', '.', '/'] <+: '/' :: tl ∨
        '/' :: tl = ['/', '.'] ∨ '/' :: tl = ['/', '.', '.']) ∨ relpathFinderMatch tl = true := by
  rcases tl with _ | ⟨a, t⟩
  · simp [relpathFinderMatch]
  by_cases ha : a = '.'
  · subst ha
    rcases t with _ | ⟨b, u⟩
    · simp [relpathFinderMatch, relpathTail]
    by_cases hb : b = '/'
    · subst hb
      simp [relpathFinderMatch, relpathTail]
    by_cases hb' : b = '.'
    · subst hb'
      rcases u with _ | ⟨d, w⟩
      · simp [relpathFinderMatch, relpathTail]
      by_cases hd : d = '/'
      · subst hd
        simp [relpathFinderMatch, relpathTail]
      · simp [relpathFinderMatch, relpathTail, hd, Ne.symm hd]
    · simp [relpathFinderMatch, relpathTail, hb, hb', Ne.symm hb, Ne.symm hb']
  · simp [relpathFinderMatch, ha, Ne.symm ha]

theorem relpathFinderMatch_eq_true_iff (s : List Char) :
    relpathFinderMatch s = true ↔ RelativeSegment s := by
  induction s with
  | nil => simp [relpathFinderMatch, RelativeSegment]
  | cons c tl ih =>
    have hsplit : RelativeSegment (c :: tl) ↔
        (['/', '.', '/'] <+: c :: tl ∨ ['/', '.', '.', '/'] <+: c :: tl ∨
          c :: tl = ['/', '.'] ∨ c :: tl = ['/', '.', '.']) ∨ RelativeSegment tl := by
      simp only [RelativeSegment, List.infix_cons_iff, List.suffix_cons_iff]
      tauto
    rw [hsplit, ← ih]
    by_cases hc : c = '/'
    · subst hc
      exact relpathFinderMatch_slash tl
    · simp [relpathFinderMatch, hc, Ne.symm hc]

/-- The `consumeText` closure: accumulated runes become one text token. -/
def consumeText (runes : List Char) (tokens : List Token) : List Token :=
  if runes = [] then tokens else tokens ++ [⟨.tokText, runes⟩]

/-- The rune loop of `scan`, with the pending runes and the tokens emitted so far. -/
def scanLoop : List Char → List Char → List Token → Except String (List Token)
  | [], runes, tokens => .ok (consumeText runes tokens)
  | r :: rest, runes, tokens =>
    match r with
    | '\x7b' => scanLoop rest [] (consumeText runes tokens ++ [⟨.tokBraceOpen, [r]⟩])
    | '\x7d' => scanLoop rest [] (consumeText runes tokens ++ [⟨.tokBraceClose, [r]⟩])
    | ',' => scanLoop rest [] (consumeText runes tokens ++ [⟨.tokComma, [r]⟩])
    | '\\' =>
      match rest with
      | [] => .error "trailing unescaped '\\' character"
      | r2 :: rest' => scanLoop rest' (runes ++ [r, r2]) tokens
    | '[' => .error "cannot contain unescaped '[' or ']' character"
    | ']' => .error "cannot contain unescaped '[' or ']' character"
    | _ => scanLoop rest (runes ++ [r]) tokens

def scan (text : List Char) : Except String (List Token) :=
  if text = [] then .error "pattern has length 0"
  else if text.head? ≠ some '/' then .error "pattern must start with '/'"
  else if relpathFinderMatch text then .error "pattern cannot contain '/./' or '/../'"
  else scanLoop text [] []

end Snapd.Patterns
