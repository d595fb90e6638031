import Snapd.Patterns.Variant
import Snapd.Lib.ThreeWay
import Mathlib.Data.Char
import Mathlib.Data.List.Lex
import Mathlib.Algebra.GroupWithZero.Nat

/-! Precedence between pattern variants (`PatternVariant.Compare` in
`interfaces/prompting/patterns/variant.go` and `HighestPrecedencePattern` in `patterns.go`).
The regex search is a parameter `find`, meant to satisfy `Regex.SubmatchFinder`: the source
uses `FindStringSubmatch` of the compiled, leftmost-longest regex. -/

namespace Snapd.Patterns

/-- `len` of a Go string: the bytes of its UTF-8 encoding. -/
def utf8Length (s : List Char) : Nat := (s.map Char.utf8Size).sum

/-- `regexp.QuoteMeta`: a backslash before every regex metacharacter. -/
def quoteMeta : List Char → List Char
  | [] => []
  | c :: rest =>
    if c ∈ "\\.+*?()|[]\x7b\x7d^$".toList then '\\' :: c :: quoteMeta rest else c :: quoteMeta rest

/-- The text `componentRegex` returns, which the regex of a variant is compiled from. -/
def Component.componentRegexText (c : Component) : List Char :=
  match c.compType with
  | .compGlobstar => "((?:[^/]|\\\\/)*)".toList
  | .compSeparatorDoublestarTerminal => "((?:/.+)?/?)".toList
  | .compSeparatorDoublestarSeparatorTerminal => "((?:/.+)?/)".toList
  | .compSeparatorDoublestar => "((?:/.+)?)".toList
  | .compTerminal => "(/?)".toList
  | .compSeparator => "(/)".toList
  | .compAnySingle => "([^/])".toList
  | .compLiteral => '(' :: quoteMeta (unescapeLiteral c.compText) ++ [')']
  | .compUnset => "()".toList

/-- `regex.String()` of a variant. -/
def regexText (components : List Component) : List Char :=
  '^' :: components.flatMap Component.componentRegexText ++ ['$']

/-- `%+v` of a component. -/
def Component.format (c : Component) : List Char :=
  "\x7bcompType:".toList ++ (toString c.compType.rank).toList ++ " compText:".toList ++
    c.compText ++ ['\x7d']

/-- `%+v` of a slice of components. -/
def formatComponents (components : List Component) : List Char :=
  '[' :: List.intercalate [' '] (components.map Component.format) ++ [']']

/-- The internal errors of `Compare`, which print the variant, its regex and the path. -/
def compareError (what : String) (v : PatternVariant) (matchingPath : List Char) : String :=
  "internal error: " ++ what ++ "\ncomponents: " ++ String.ofList (formatComponents v.components) ++
    "\nregex: " ++ String.ofList (regexText v.components) ++ "\npath: " ++
    String.ofList matchingPath

/-- `componentReader.next`: past its last component a reader yields a terminal with an empty
submatch. -/
def readerNext :
    List (Component × List Char) → (Component × List Char) × List (Component × List Char)
  | [] => ((.ofType .compTerminal, []), [])
  | x :: xs => (x, xs)

/-- The `switch` of the loop of `Compare`, on two components of one type and their
submatches: `some r` returns `r`, `none` goes on to the next components. -/
def compareSameType (t : ComponentType) (self other : List Char) : Option Int :=
  match t with
  | .compGlobstar | .compSeparatorDoublestar =>
    -- the variable-width component that matches fewer bytes has precedence
    if utf8Length self > utf8Length other then some (-1)
    else if utf8Length self < utf8Length other then some 1
    else none
  | .compSeparatorDoublestarTerminal | .compSeparatorDoublestarSeparatorTerminal
  | .compTerminal => some 0
  | .compLiteral => if self < other then some (-1) else if self > other then some 1 else none
  | _ => none

/-- One round of the loop of `Compare`: types first, then the `switch`. -/
def compareComponents (self other : Component × List Char) : Option Int :=
  if self.1.compType.rank < other.1.compType.rank then some (-1)
  else if self.1.compType.rank > other.1.compType.rank then some 1
  else compareSameType self.1.compType self.2 other.2

/-- The loop of `Compare`, over the components paired with their submatches. A reader that
has run out yields terminals, and a terminal always ends the loop. -/
def compareLoop : List (Component × List Char) → List (Component × List Char) → Int
  | [], other => (compareComponents (readerNext []).1 (readerNext other).1).getD 0
  | s :: ss, other =>
    match compareComponents s (readerNext other).1 with
    | some r => r
    | none => compareLoop ss (readerNext other).2

/-- `PatternVariant.Compare`: `1` when `v` has precedence over `other` at `matchingPath`,
`-1` when `other` has, `0` when neither. -/
def PatternVariant.compare (find : List (Regex Char) → List Char → Option (List (List Char)))
    (v other : PatternVariant) (matchingPath : List Char) : Except String Int :=
  match find v.regex matchingPath with
  | none => .error (compareError "no matches for pattern variant against given path:" v matchingPath)
  | some selfSubmatches =>
    if (selfSubmatches.length : Int) - 1 ≠ v.components.length then
      .error (compareError "submatch count not equal to component count:" v matchingPath)
    else
      match find other.regex matchingPath with
      | none =>
        .error (compareError "no matches for pattern variant against given path" other matchingPath)
      | some otherSubmatches =>
        if (otherSubmatches.length : Int) - 1 ≠ other.components.length then
          .error (compareError "submatch count not equal to component count:" other matchingPath)
        else
          .ok (compareLoop (v.components.zip selfSubmatches.tail)
            (other.components.zip otherSubmatches.tail))

def errNoPatterns : String := "cannot establish precedence: no patterns given"

/-- `HighestPrecedencePattern`: the first pattern is the candidate, and each later one that
the candidate compares below replaces it. -/
def highestPrecedencePattern (find : List (Regex Char) → List Char → Option (List (List Char)))
    (patterns : List PatternVariant) (matchingPath : List Char) : Except String PatternVariant :=
  match patterns with
  | [] => .error errNoPatterns
  | [p] => .ok p
  | first :: rest =>
    ThreeWay.selectMaxM (fun currHighest contender => currHighest.compare find contender matchingPath)
      first rest

/-! ## One round of the loop

Per type, the `switch` is one of four comparisons: of the submatch lengths reversed, of the
submatches, always `0`, or never deciding. -/

open ThreeWay

theorem compareSameType_literal (s o : List Char) :
    compareSameType .compLiteral s o = threeWay s o := by
  unfold compareSameType threeWay
  split_ifs <;> rfl

theorem compareSameType_cases (t : ComponentType) :
    (t.isTerminal = false ∧ ∀ s o, compareSameType t s o = threeWay (utf8Length o) (utf8Length s)) ∨
    (t = .compLiteral ∧ ∀ s o, compareSameType t s o = threeWay s o) ∨
    (t.isTerminal = true ∧ ∀ s o, compareSameType t s o = some 0) ∨
    (t.isTerminal = false ∧ t ≠ .compLiteral ∧ ∀ s o, compareSameType t s o = none) := by
  cases t
  case compGlobstar | compSeparatorDoublestar => exact .inl ⟨rfl, fun _ _ => rfl⟩
  case compLiteral => exact .inr (.inl ⟨rfl, compareSameType_literal⟩)
  case compSeparatorDoublestarTerminal | compSeparatorDoublestarSeparatorTerminal | compTerminal =>
    exact .inr (.inr (.inl ⟨rfl, fun _ _ => rfl⟩))
  case compUnset | compSeparator | compAnySingle =>
    exact .inr (.inr (.inr ⟨rfl, nofun, fun _ _ => rfl⟩))

section SameType

variable (t : ComponentType)

theorem compareSameType_swap (s o : List Char) :
    compareSameType t o s = (compareSameType t s o).map (- ·) := by
  rcases compareSameType_cases t with ⟨-, h⟩ | ⟨-, h⟩ | ⟨-, h⟩ | ⟨-, -, h⟩
  · rw [h, h]
    exact threeWay_swap _ _
  · rw [h, h]
    exact threeWay_swap _ _
  · rw [h, h]
    rfl
  · rw [h, h]
    rfl

theorem compareSameType_congr {s o : List Char} (h : compareSameType t s o = none)
    (x : List Char) : compareSameType t s x = compareSameType t o x := by
  rcases compareSameType_cases t with ⟨-, hc⟩ | ⟨-, hc⟩ | ⟨-, hc⟩ | ⟨-, -, hc⟩
  · rw [hc, threeWay_eq_none] at h
    rw [hc, hc, h]
  · rw [hc, threeWay_eq_none] at h
    rw [h]
  · rw [hc] at h
    cases h
  · rw [hc, hc]

theorem compareSameType_trans {a b c : List Char} (hab : compareSameType t a b = some 1)
    (hbc : compareSameType t b c = some 1) : compareSameType t a c = some 1 := by
  rcases compareSameType_cases t with ⟨-, h⟩ | ⟨-, h⟩ | ⟨-, h⟩ | ⟨-, -, h⟩
  · rw [h] at hab hbc ⊢
    exact threeWay_trans hbc hab
  · rw [h] at hab hbc ⊢
    exact threeWay_trans hab hbc
  · rw [h] at hab
    cases hab
  · rw [h] at hab
    cases hab

theorem compareSameType_eq_zero {s o : List Char} :
    compareSameType t s o = some 0 ↔ t.isTerminal = true := by
  rcases compareSameType_cases t with ⟨ht, h⟩ | ⟨rfl, h⟩ | ⟨ht, h⟩ | ⟨ht, -, h⟩
  · simp [h, ht, threeWay_ne_zero]
  · simp [h, threeWay_ne_zero, ComponentType.isTerminal]
  · simp [h, ht]
  · simp [h, ht]

theorem compareSameType_values (s o : List Char) :
    compareSameType t s o = none ∨ compareSameType t s o = some (-1) ∨
      compareSameType t s o = some 0 ∨ compareSameType t s o = some 1 := by
  rcases compareSameType_cases t with ⟨-, h⟩ | ⟨-, h⟩ | ⟨-, h⟩ | ⟨-, -, h⟩
  · rcases threeWay_cases (utf8Length o) (utf8Length s) with h' | h' | h' <;> simp [h, h']
  · rcases threeWay_cases s o with h' | h' | h' <;> simp [h, h']
  · simp [h]
  · simp [h]

theorem compareSameType_literal_eq_none {s o : List Char}
    (h : compareSameType .compLiteral s o = none) : s = o := by
  rwa [compareSameType_literal, threeWay_eq_none] at h

end SameType

section Components

variable {a b c : Component × List Char}

theorem compareComponents_of_lt (h : a.1.compType.rank < b.1.compType.rank) :
    compareComponents a b = some (-1) := by
  simp [compareComponents, h]

theorem compareComponents_of_gt (h : b.1.compType.rank < a.1.compType.rank) :
    compareComponents a b = some 1 := by
  simp [compareComponents, h, Nat.not_lt_of_gt h]

theorem compareComponents_of_type_eq (h : a.1.compType = b.1.compType) :
    compareComponents a b = compareSameType a.1.compType a.2 b.2 := by
  simp [compareComponents, h]

theorem compareComponents_cases (a b : Component × List Char) :
    (a.1.compType.rank < b.1.compType.rank ∧ compareComponents a b = some (-1)) ∨
    (b.1.compType.rank < a.1.compType.rank ∧ compareComponents a b = some 1) ∨
    (a.1.compType = b.1.compType ∧
      compareComponents a b = compareSameType a.1.compType a.2 b.2) := by
  rcases Nat.lt_trichotomy a.1.compType.rank b.1.compType.rank with h | h | h
  · exact .inl ⟨h, compareComponents_of_lt h⟩
  · have ht := ComponentType.rank_injective h
    exact .inr (.inr ⟨ht, compareComponents_of_type_eq ht⟩)
  · exact .inr (.inl ⟨h, compareComponents_of_gt h⟩)

theorem compareComponents_swap (a b : Component × List Char) :
    compareComponents b a = (compareComponents a b).map (- ·) := by
  rcases compareComponents_cases a b with ⟨h, hab⟩ | ⟨h, hab⟩ | ⟨ht, hab⟩
  · rw [hab, compareComponents_of_gt h]
    rfl
  · rw [hab, compareComponents_of_lt h]
    rfl
  · rw [hab, compareComponents_of_type_eq ht.symm, ht, compareSameType_swap]

theorem type_eq_of_compareComponents (h : compareComponents a b = none ∨
    compareComponents a b = some 0) : a.1.compType = b.1.compType := by
  rcases compareComponents_cases a b with ⟨-, hab⟩ | ⟨-, hab⟩ | ⟨ht, -⟩
  · rcases h with h | h <;> rw [hab] at h <;> cases h
  · rcases h with h | h <;> rw [hab] at h <;> cases h
  · exact ht

theorem compareComponents_congr (h : compareComponents a b = none ∨ compareComponents a b = some 0)
    (x : Component × List Char) : compareComponents a x = compareComponents b x := by
  have ht := type_eq_of_compareComponents h
  rw [compareComponents_of_type_eq ht] at h
  unfold compareComponents
  rw [ht]
  congr 2
  rw [ht] at h
  rcases h with h | h
  · exact compareSameType_congr _ h x.2
  · rw [compareSameType_eq_zero] at h
    rw [(compareSameType_eq_zero _).mpr h, (compareSameType_eq_zero _).mpr h]

theorem compareComponents_congr_right (h : compareComponents b c = none ∨
    compareComponents b c = some 0) (x : Component × List Char) :
    compareComponents x b = compareComponents x c := by
  rw [compareComponents_swap b x, compareComponents_swap c x, compareComponents_congr h]

theorem compareComponents_trans (hab : compareComponents a b = some 1)
    (hbc : compareComponents b c = some 1) : compareComponents a c = some 1 := by
  rcases compareComponents_cases a b with ⟨-, h⟩ | ⟨hr, -⟩ | ⟨ht, h⟩
  · rw [h] at hab
    cases hab
  · -- `a` is above `b` by type, and `c` is not above `b` by type
    rcases compareComponents_cases b c with ⟨-, h'⟩ | ⟨hr', -⟩ | ⟨ht', -⟩
    · rw [h'] at hbc
      cases hbc
    · exact compareComponents_of_gt (Nat.lt_trans hr' hr)
    · exact compareComponents_of_gt (ht' ▸ hr)
  · rcases compareComponents_cases b c with ⟨-, h'⟩ | ⟨hr', -⟩ | ⟨ht', h'⟩
    · rw [h'] at hbc
      cases hbc
    · exact compareComponents_of_gt (ht ▸ hr')
    · rw [h] at hab
      rw [h', ← ht] at hbc
      rw [compareComponents_of_type_eq (ht.trans ht')]
      exact compareSameType_trans _ hab hbc

theorem compareComponents_values (a b : Component × List Char) :
    compareComponents a b = none ∨ compareComponents a b = some (-1) ∨
      compareComponents a b = some 0 ∨ compareComponents a b = some 1 := by
  rcases compareComponents_cases a b with ⟨-, h⟩ | ⟨-, h⟩ | ⟨-, h⟩
  · exact .inr (.inl h)
  · exact .inr (.inr (.inr h))
  · rw [h]
    exact compareSameType_values _ _ _

theorem compareComponents_self (a : Component × List Char) :
    compareComponents a a = none ∨ compareComponents a a = some 0 := by
  rw [compareComponents_of_type_eq rfl]
  rcases compareSameType_cases a.1.compType with ⟨-, h⟩ | ⟨-, h⟩ | ⟨-, h⟩ | ⟨-, -, h⟩
  · simp [h]
  · simp [h]
  · simp [h]
  · simp [h]

theorem compareComponents_readerEnd (x : Component × List Char) :
    ∃ r, compareComponents (readerNext []).1 x = some r := by
  rcases compareComponents_cases (readerNext []).1 x with ⟨-, h⟩ | ⟨-, h⟩ | ⟨ht, h⟩
  · exact ⟨_, h⟩
  · exact ⟨_, h⟩
  · exact ⟨0, h.trans ((compareSameType_eq_zero _).mpr rfl)⟩

end Components

/-! ## The loop

`Compare` is a lexicographic comparison of the two component sequences, each padded with
terminals: a round that decides ends it, and a round that does not goes on with both tails. -/

section Loop

variable {u v w : List (Component × List Char)}

/-- The loop on any two sequences: one round, then the rest. For an exhausted reader this is
its definition because a terminal always decides. -/
theorem compareLoop_eq (u v : List (Component × List Char)) :
    compareLoop u v = (compareComponents (readerNext u).1 (readerNext v).1).getD
      (compareLoop (readerNext u).2 (readerNext v).2) := by
  cases u with
  | nil =>
    obtain ⟨r, hr⟩ := compareComponents_readerEnd (readerNext v).1
    simp [compareLoop, hr]
  | cons a u =>
    show (match compareComponents a (readerNext v).1 with
      | some r => r
      | none => compareLoop u (readerNext v).2) =
      (compareComponents a (readerNext v).1).getD (compareLoop u (readerNext v).2)
    cases compareComponents a (readerNext v).1 <;> rfl

theorem compareLoop_of_none (h : compareComponents (readerNext u).1 (readerNext v).1 = none) :
    compareLoop u v = compareLoop (readerNext u).2 (readerNext v).2 := by
  rw [compareLoop_eq, h]
  rfl

theorem compareLoop_of_some {r : Int}
    (h : compareComponents (readerNext u).1 (readerNext v).1 = some r) : compareLoop u v = r := by
  rw [compareLoop_eq, h]
  rfl

theorem readerNext_ne_none_of_nil (v : List (Component × List Char)) :
    compareComponents (readerNext []).1 (readerNext v).1 ≠ none := by
  obtain ⟨r, hr⟩ := compareComponents_readerEnd (readerNext v).1
  rw [hr]
  exact Option.some_ne_none r

theorem compareLoop_values (u v : List (Component × List Char)) :
    compareLoop u v = -1 ∨ compareLoop u v = 0 ∨ compareLoop u v = 1 := by
  induction u generalizing v with
  | nil =>
    obtain ⟨r, hr⟩ := compareComponents_readerEnd (readerNext v).1
    rw [compareLoop_of_some hr]
    rcases compareComponents_values (readerNext []).1 (readerNext v).1 with h | h | h | h <;>
      rw [hr] at h <;> cases h <;> simp
  | cons a u ih =>
    rcases compareComponents_values (readerNext (a :: u)).1 (readerNext v).1 with h | h | h | h
    · rw [compareLoop_of_none h]
      exact ih _
    · simp [compareLoop_of_some h]
    · simp [compareLoop_of_some h]
    · simp [compareLoop_of_some h]

theorem compareLoop_swap (u v : List (Component × List Char)) :
    compareLoop v u = -compareLoop u v := by
  induction u generalizing v with
  | nil =>
    obtain ⟨r, hr⟩ := compareComponents_readerEnd (readerNext v).1
    have hr' := compareComponents_swap (readerNext []).1 (readerNext v).1
    rw [hr] at hr'
    rw [compareLoop_of_some hr, compareLoop_of_some hr']
  | cons a u ih =>
    have hs := compareComponents_swap (readerNext (a :: u)).1 (readerNext v).1
    cases h : compareComponents (readerNext (a :: u)).1 (readerNext v).1 with
    | none =>
      rw [h] at hs
      rw [compareLoop_of_none h, compareLoop_of_none hs]
      exact ih _
    | some r =>
      rw [h] at hs
      rw [compareLoop_of_some h, compareLoop_of_some hs]

theorem compareLoop_self (u : List (Component × List Char)) : compareLoop u u = 0 := by
  induction u with
  | nil =>
    rcases compareComponents_self (readerNext ([] : List (Component × List Char))).1 with h | h
    · exact absurd h (readerNext_ne_none_of_nil [])
    · exact compareLoop_of_some h
  | cons a u ih =>
    rcases compareComponents_self a with h | h
    · exact (@compareLoop_of_none (a :: u) (a :: u) h).trans ih
    · exact @compareLoop_of_some (a :: u) (a :: u) 0 h

theorem compareLoop_trans_step
    (ih : compareComponents (readerNext u).1 (readerNext v).1 = none →
      compareLoop (readerNext u).2 (readerNext v).2 = 1 →
      compareLoop (readerNext v).2 (readerNext w).2 = 1 →
      compareLoop (readerNext u).2 (readerNext w).2 = 1)
    (huv : compareLoop u v = 1) (hvw : compareLoop v w = 1) : compareLoop u w = 1 := by
  cases hab : compareComponents (readerNext u).1 (readerNext v).1 with
  | some r =>
    have hr : r = 1 := (compareLoop_of_some hab).symm.trans huv
    subst hr
    cases hbc : compareComponents (readerNext v).1 (readerNext w).1 with
    | some r' =>
      have hr' : r' = 1 := (compareLoop_of_some hbc).symm.trans hvw
      subst hr'
      exact compareLoop_of_some (compareComponents_trans hab hbc)
    | none =>
      rw [compareComponents_congr_right (.inl hbc)] at hab
      exact compareLoop_of_some hab
  | none =>
    have hac := compareComponents_congr (.inl hab) (readerNext w).1
    cases hbc : compareComponents (readerNext v).1 (readerNext w).1 with
    | some r' =>
      rw [hbc] at hac
      exact (compareLoop_of_some hac).trans ((compareLoop_of_some hbc).symm.trans hvw)
    | none =>
      rw [hbc] at hac
      rw [compareLoop_of_none hac]
      rw [compareLoop_of_none hab] at huv
      rw [compareLoop_of_none hbc] at hvw
      exact ih hab huv hvw

theorem compareLoop_trans (huv : compareLoop u v = 1) (hvw : compareLoop v w = 1) :
    compareLoop u w = 1 := by
  induction u generalizing v w with
  | nil => exact compareLoop_trans_step (fun h => absurd h (readerNext_ne_none_of_nil v)) huv hvw
  | cons a u ih => exact compareLoop_trans_step (fun _ => ih) huv hvw

end Loop

/-! ## Only equal variants compare equal

On parsed variants the loop can only stop at `0` on the final terminals, after every earlier
pair of components had one type and, for literals, equal submatches: the unescaped texts,
which determine the texts. -/

/-- The submatch of each literal component is its unescaped text. -/
def LiteralSubmatches (components : List Component) (subs : List (List Char)) : Prop :=
  List.Forall₂ (fun c s => c.compType = .compLiteral → s = unescapeLiteral c.compText)
    components subs

theorem literalSubmatches_of_splits {components : List Component} {w : List Char}
    {subs : List (List Char)} (h : Regex.Splits (components.map Component.componentRegex) w subs) :
    LiteralSubmatches components subs := by
  refine (List.forall₂_map_left_iff.mp h.1).imp ?_
  intro c s hs hlit
  simp only [Component.componentRegex, hlit] at hs
  exact (Regex.mem_str _ _).mp hs

theorem compareLoop_cons_eq_zero {a b : Component × List Char}
    {as bs : List (Component × List Char)} (h : compareLoop (a :: as) (b :: bs) = 0) :
    a.1.compType = b.1.compType ∧
      (compareComponents a b = some 0 ∨ (compareComponents a b = none ∧ compareLoop as bs = 0)) := by
  rw [compareLoop_eq] at h
  simp only [readerNext] at h
  rcases compareComponents_values a b with hc | hc | hc | hc
  · rw [hc] at h
    exact ⟨type_eq_of_compareComponents (.inl hc), .inr ⟨hc, h⟩⟩
  · simp [hc] at h
  · exact ⟨type_eq_of_compareComponents (.inr hc), .inl hc⟩
  · simp [hc] at h

theorem literalSubmatches_singleton {c : Component} {su : List (List Char)}
    (h : LiteralSubmatches [c] su) : ∃ s, su = [s] := by
  cases h with
  | cons _ hrest => exact ⟨_, by rw [List.forall₂_nil_left_iff.mp hrest]⟩

theorem Component.eq_of_compType_compText {c d : Component} (ht : c.compType = d.compType)
    (hx : c.compText = d.compText) : c = d := by
  cases c
  cases d
  simp only [Component.mk.injEq]
  exact ⟨ht, hx⟩

theorem components_eq_of_compareLoop_eq_zero {cu cv : List Component}
    {su sv : List (List Char)} (hu : ValidComponents cu) (hv : ValidComponents cv)
    (lu : LiteralSubmatches cu su) (lv : LiteralSubmatches cv sv)
    (h : compareLoop (cu.zip su) (cv.zip sv) = 0) : cu = cv := by
  induction hu generalizing cv su sv with
  | @last c hterm htext =>
    obtain ⟨s, rfl⟩ := literalSubmatches_singleton lu
    cases hv with
    | @last d hterm' htext' =>
      obtain ⟨s', rfl⟩ := literalSubmatches_singleton lv
      have ht := (compareLoop_cons_eq_zero h).1
      rw [Component.eq_of_compType_compText (c := c) (d := d) ht (htext.trans htext'.symm)]
    | @cons d ds hd _ =>
      cases lv with
      | cons _ _ =>
        have ht := (compareLoop_cons_eq_zero h).1
        have := hd.not_terminal
        simp_all
  | @cons c cs hc _ ih =>
    cases lu with
    | @cons _ s _ ss hs hss =>
      cases hv with
      | @last d hterm' _ =>
        cases lv with
        | cons _ _ =>
          have ht := (compareLoop_cons_eq_zero h).1
          have := hc.not_terminal
          simp_all
      | @cons d ds hd hds =>
        cases lv with
        | @cons _ s' _ ss' hs' hss' =>
          obtain ⟨ht, hstep⟩ := compareLoop_cons_eq_zero h
          rcases hstep with h0 | ⟨hnone, hrest⟩
          · -- a `0` round needs terminals, and `c` is not one
            rw [compareComponents_of_type_eq ht, compareSameType_eq_zero] at h0
            exact absurd h0 (by simp [hc.not_terminal])
          · have htext : c.compText = d.compText := by
              by_cases hl : c.compType = .compLiteral
              · rw [compareComponents_of_type_eq ht] at hnone
                simp only [hl] at hnone
                have hss := compareSameType_literal_eq_none hnone
                rw [hs hl, hs' (ht ▸ hl)] at hss
                exact (hc.literal_text hl).unescape_inj (hd.literal_text (ht ▸ hl)) hss
              · rw [hc.other_text hl, hd.other_text (ht ▸ hl)]
            rw [Component.eq_of_compType_compText (c := c) (d := d) ht htext, ih hds hss hss' hrest]

section Precedence

variable (find : List (Regex Char) → List Char → Option (List (List Char))) (path : List Char)

/-- The submatches that `find` returns for the groups of `v` at `path`. -/
def submatchesAt (v : PatternVariant) : List (List Char) := ((find v.regex path).getD []).tail

/-- What `Compare` computes when neither regex search fails. -/
def compareAt (u v : PatternVariant) : Int :=
  compareLoop (u.components.zip (submatchesAt find path u))
    (v.components.zip (submatchesAt find path v))

/-- The variants `Compare` is meant for at `path`: rendered and parsed, and matching it. -/
def Candidate (v : PatternVariant) : Prop :=
  (∃ s, parsePatternVariant s = .ok v) ∧ ∃ subs, Regex.Splits v.regex path subs

variable {find path} (hfind : Regex.SubmatchFinder find)
include hfind

theorem find_of_candidate {v : PatternVariant} (hv : Candidate path v) :
    ∃ subs, find v.regex path = some (path :: subs) ∧ Regex.Splits v.regex path subs ∧
      subs.length = v.components.length := by
  obtain ⟨⟨s, hs⟩, hm⟩ := hv
  obtain ⟨res, hres⟩ := Option.ne_none_iff_exists'.mp
    (fun h => (hfind.none_iff v.regex path).mp h hm)
  obtain ⟨subs, rfl, hsplit⟩ := hfind.some_splits v.regex path res hres
  have hlen : subs.length = v.components.length := by
    rw [← hsplit.1.length_eq, (parsePatternVariant_spec hs).2.2, List.length_map]
  exact ⟨subs, hres, hsplit, hlen⟩

theorem compare_eq_ok {u v : PatternVariant} (hu : Candidate path u) (hv : Candidate path v) :
    u.compare find v path = .ok (compareAt find path u v) := by
  obtain ⟨su, hfu, -, hlu⟩ := find_of_candidate hfind hu
  obtain ⟨sv, hfv, -, hlv⟩ := find_of_candidate hfind hv
  have hcu : ¬ (((path :: su).length : Int) - 1 ≠ u.components.length) := by simp [hlu]
  have hcv : ¬ (((path :: sv).length : Int) - 1 ≠ v.components.length) := by simp [hlv]
  simp only [PatternVariant.compare, hfu, hfv, if_neg hcu, if_neg hcv, compareAt, submatchesAt,
    Option.getD_some, List.tail_cons]

theorem compareAt_strictTotal :
    ThreeWay.StrictTotalOn (compareAt find path) {v | Candidate path v} where
  trichotomy u _ v _ := compareLoop_values _ _
  swap u _ v _ := compareLoop_swap _ _
  trans u _ v _ w _ := compareLoop_trans
  eq_zero u hu v hv := by
    constructor
    · intro h
      obtain ⟨su, hfu, hsu, -⟩ := find_of_candidate hfind hu
      obtain ⟨sv, hfv, hsv, -⟩ := find_of_candidate hfind hv
      obtain ⟨⟨s, hs⟩, -⟩ := hu
      obtain ⟨⟨s', hs'⟩, -⟩ := hv
      have hspec := parsePatternVariant_spec hs
      have hspec' := parsePatternVariant_spec hs'
      have lu : LiteralSubmatches u.components su :=
        literalSubmatches_of_splits (hspec.2.2 ▸ hsu)
      have lv : LiteralSubmatches v.components sv :=
        literalSubmatches_of_splits (hspec'.2.2 ▸ hsv)
      simp only [compareAt, submatchesAt, hfu, hfv, Option.getD_some, List.tail_cons] at h
      exact PatternVariant.eq_of_components hs hs'
        (components_eq_of_compareLoop_eq_zero hspec.1 hspec'.1 lu lv h)
    · rintro rfl
      exact compareLoop_self _

theorem highestPrecedencePattern_eq {first : PatternVariant} {rest : List PatternVariant}
    (h : ∀ v ∈ first :: rest, Candidate path v) :
    highestPrecedencePattern find (first :: rest) path =
      .ok (ThreeWay.selectMax (compareAt find path) first rest) := by
  cases rest with
  | nil => rfl
  | cons c rest =>
    exact ThreeWay.selectMaxM_eq_ok (T := {v | Candidate path v})
      (fun a ha b hb => compare_eq_ok hfind ha hb) (h first List.mem_cons_self)
      (fun x hx => h x (List.mem_cons_of_mem _ hx))

theorem highestPrecedencePattern_perm {l l' : List PatternVariant} (hp : l.Perm l')
    (h : ∀ v ∈ l, Candidate path v) :
    highestPrecedencePattern find l path = highestPrecedencePattern find l' path := by
  cases l with
  | nil => rw [List.nil_perm.mp hp]
  | cons first rest =>
    cases l' with
    | nil => exact absurd hp.eq_nil (List.cons_ne_nil _ _)
    | cons first' rest' =>
      have h' : ∀ v ∈ first' :: rest', Candidate path v := fun v hv => h v (hp.mem_iff.mpr hv)
      rw [highestPrecedencePattern_eq hfind h, highestPrecedencePattern_eq hfind h',
        ThreeWay.selectMax_perm (compareAt_strictTotal hfind) hp h]

end Precedence

end Snapd.Patterns
