import Snapd.Patterns.Parse
import Mathlib.Algebra.Group.Nat.Defs

/-! `ParsePathPattern` and `PathPattern.NumVariants` (`interfaces/prompting/patterns/patterns.go`),
and what they do on the patterns made of many consecutive groups. -/

namespace Snapd.Patterns

open RenderNode

/-- `prompting_errors.ParseError` as `NewInvalidPathPatternError` fills it in. -/
structure ParseError where
  field : String
  reason : String
  invalid : List Char
  deriving DecidableEq, Repr

def newInvalidPathPatternError (invalid : List Char) (reason : String) : ParseError :=
  ⟨"path-pattern", reason, invalid⟩

structure PathPattern where
  original : List Char
  renderTree : RenderNode Char

/-- `PathPattern.parse`: scan, parse, then reject a tree whose `NumVariants` exceeds
`maxExpandedPatterns`, compared as Go compares `int`s. -/
def PathPattern.parse (pattern : List Char) : Except ParseError PathPattern :=
  match scan pattern with
  | .error e => .error (newInvalidPathPatternError pattern e)
  | .ok tokens =>
    match Patterns.parse tokens with
    | .error e => .error (newInvalidPathPatternError pattern e)
    | .ok tree =>
      let count := tree.numVariants
      if count > Int64.ofNat maxExpandedPatterns then
        .error (newInvalidPathPatternError pattern
          ("exceeded maximum number of expanded path patterns (1000): " ++ toString count))
      else .ok ⟨pattern, tree⟩

def parsePathPattern (pattern : List Char) : Except ParseError PathPattern :=
  PathPattern.parse pattern

def PathPattern.numVariants (p : PathPattern) : Int64 := p.renderTree.numVariants

/-- `PathPattern.String`: the text the pattern was parsed from. -/
def PathPattern.toText (p : PathPattern) : List Char := p.original

/-- The group `{a,b}`. -/
def abGroup : List Char := ['\x7b', 'a', ',', 'b', '\x7d']

/-- The pattern `/` followed by `n` copies of `{a,b}`. -/
def groupsPattern (n : Nat) : List Char := '/' :: (List.replicate n abGroup).flatten

/-- The tokens `scan` makes of one `{a,b}`. -/
def abTokens : List Token :=
  [⟨.tokBraceOpen, ['\x7b']⟩, ⟨.tokText, ['a']⟩, ⟨.tokComma, [',']⟩, ⟨.tokText, ['b']⟩,
    ⟨.tokBraceClose, ['\x7d']⟩]

/-- The tree `parse` makes of one `{a,b}`. -/
def abNode : RenderNode Char := .alt (.literal ['a']) [.literal ['b']]

theorem relpathFinderMatch_abGroup (rest : List Char) :
    relpathFinderMatch (abGroup ++ rest) = relpathFinderMatch rest := rfl

theorem relpathFinderMatch_groups (n : Nat) :
    relpathFinderMatch (List.replicate n abGroup).flatten = false := by
  induction n with
  | zero => rfl
  | succ n ih => rw [List.replicate_succ, List.flatten_cons, relpathFinderMatch_abGroup, ih]

theorem scanLoop_abGroup (rest runes : List Char) (tokens : List Token) :
    scanLoop (abGroup ++ rest) runes tokens =
      scanLoop rest [] (consumeText runes tokens ++ abTokens) := by
  simp [abGroup, scanLoop, consumeText, abTokens]

theorem scanLoop_groups (n : Nat) (runes : List Char) (tokens : List Token) :
    scanLoop (List.replicate n abGroup).flatten runes tokens =
      .ok (consumeText runes tokens ++ (List.replicate n abTokens).flatten) := by
  induction n generalizing runes tokens with
  | zero => simp [scanLoop]
  | succ n ih =>
    rw [List.replicate_succ, List.flatten_cons, scanLoop_abGroup, ih, List.replicate_succ,
      List.flatten_cons]
    simp [consumeText]

theorem scan_groupsPattern (n : Nat) :
    scan (groupsPattern n) = .ok (⟨.tokText, ['/']⟩ :: (List.replicate n abTokens).flatten) := by
  have hrel : relpathFinderMatch (groupsPattern n) = false := by
    cases n with
    | zero => rfl
    | succ n =>
      rw [groupsPattern, List.replicate_succ, List.flatten_cons]
      exact relpathFinderMatch_groups (n + 1)
  have hslash : scanLoop (groupsPattern n) [] [] =
      scanLoop (List.replicate n abGroup).flatten ['/'] [] := rfl
  have hhead : (groupsPattern n).head? = some '/' := rfl
  rw [scan, if_neg (show groupsPattern n ≠ [] from List.cons_ne_nil _ _), if_neg (by rw [hhead]; exact fun h => h rfl), hrel,
    if_neg Bool.false_ne_true, hslash, scanLoop_groups]
  simp [consumeText]

theorem parseAlt_abTokens (k : Nat) (rest : List Token) :
    parseAlt (k + 4) 0 (abTokens ++ rest) = .ok (abNode, rest) := rfl

theorem parseSeq_abTokens (f : Nat) (hf : 4 ≤ f) (s : List (RenderNode Char))
    (rest : List Token) :
    parseSeq (f + 1) 0 s (abTokens ++ rest) = parseSeq f 0 (s ++ [abNode]) rest := by
  obtain ⟨k, rfl⟩ : ∃ k, f = k + 4 := ⟨f - 4, by omega⟩
  -- the `{` hands the tokens to `parseAlt`
  exact parseSeq_braceOpen rfl (parseAlt_abTokens k rest)

theorem parseSeq_groups (n f : Nat) (hf : 4 ≤ f) (s : List (RenderNode Char))
    (rest : List Token) :
    parseSeq (f + n) 0 s ((List.replicate n abTokens).flatten ++ rest) =
      parseSeq f 0 (s ++ List.replicate n abNode) rest := by
  induction n generalizing s with
  | zero => simp
  | succ n ih =>
    rw [List.replicate_succ, List.flatten_cons, List.append_assoc, ← Nat.add_assoc,
      parseSeq_abTokens (f + n) (by omega), ih, List.replicate_succ, List.append_assoc]
    rfl

theorem optimizeStep_abNode (acc : List (RenderNode Char)) :
    optimizeStep (acc, []) abNode = (acc ++ [abNode], []) := rfl

theorem foldl_optimizeStep_groups (n : Nat) (acc : List (RenderNode Char)) :
    (List.replicate n abNode).foldl optimizeStep (acc, []) = (acc ++ List.replicate n abNode, []) := by
  induction n generalizing acc with
  | zero => simp
  | succ n ih =>
    rw [List.replicate_succ, List.foldl_cons, optimizeStep_abNode, ih, List.append_assoc]
    rfl

theorem parse_groupsTokens (n : Nat) :
    parse (⟨.tokText, ['/']⟩ :: (List.replicate (n + 1) abTokens).flatten) =
      .ok (.seq (.literal ['/'] :: List.replicate (n + 1) abNode)) := by
  have hfuel : 2 * (⟨.tokText, ['/']⟩ :: (List.replicate (n + 1) abTokens).flatten).length + 2 =
      (9 * (n + 1) + 3 + (n + 1)) + 1 := by
    simp [abTokens, List.length_flatten]
    omega
  have hseq := parseSeq_groups (n + 1) (9 * (n + 1) + 3) (by omega) [.literal ['/']] []
  rw [List.append_nil] at hseq
  have hopt : seqOptimize (.literal ['/'] :: List.replicate (n + 1) abNode) =
      .seq (.literal ['/'] :: List.replicate (n + 1) abNode) := by
    rw [seqOptimize, List.foldl_cons]
    have hfirst : optimizeStep ([], []) (.literal ['/']) = ([], ['/']) := rfl
    have hsecond : optimizeStep ([], ['/']) abNode = ([.literal ['/'], abNode], []) := rfl
    rw [hfirst, List.replicate_succ, List.foldl_cons, hsecond, foldl_optimizeStep_groups]
    rfl
  obtain ⟨k, hk⟩ : ∃ k, 9 * (n + 1) + 3 = k + 1 := ⟨9 * (n + 1) + 2, by omega⟩
  have hend : parseSeq (9 * (n + 1) + 3) 0 ([.literal ['/']] ++ List.replicate (n + 1) abNode) [] =
      .ok (seqOptimize (.literal ['/'] :: List.replicate (n + 1) abNode), []) := by
    rw [hk, parseSeq]
    rfl
  rw [parse, hfuel, parseSeq]
  dsimp only
  rw [List.nil_append, hseq, hend, hopt]

theorem count_groups (n : Nat) :
    count (.seq (.literal ['/'] :: List.replicate n abNode) : RenderNode Char) = 2 ^ n := by
  have hrep : ∀ m, countSeq (List.replicate m abNode) = 2 ^ m := by
    intro m
    induction m with
    | zero => rfl
    | succ m ih => rw [List.replicate_succ, countSeq, ih, Nat.pow_succ, Nat.mul_comm]; rfl
  rw [count, countSeq, hrep]
  simp [count]

/-- From 2^63 on, a power of two wraps in Go's `int` to `-2^63` or `0`, which is not
above `maxExpandedPatterns`. -/
theorem ofNat_two_pow_not_gt (n : Nat) (hn : 63 ≤ n) :
    ¬ Int64.ofNat (2 ^ n) > Int64.ofNat maxExpandedPatterns := by
  obtain ⟨k, rfl⟩ : ∃ k, n = 63 + k := ⟨n - 63, by omega⟩
  cases k with
  | zero => decide
  | succ k =>
    have hzero : Int64.ofNat (2 ^ 64) = 0 := by decide
    have hsplit : 2 ^ (63 + (k + 1)) = 2 ^ 64 * 2 ^ k := by
      rw [← Nat.pow_add]
      congr 1
      omega
    rw [hsplit, Int64.ofNat_mul, hzero, Int64.zero_mul]
    decide

/-- Every pattern of 63 or more `{a,b}` groups is accepted, although it has `2^n` variants:
`NumVariants` is that count wrapped to 64 bits, and the limit check compares the wrapped
value. -/
theorem parsePathPattern_groups (n : Nat) (hn : 63 ≤ n) :
    parsePathPattern (groupsPattern n) =
      .ok ⟨groupsPattern n, .seq (.literal ['/'] :: List.replicate n abNode)⟩ ∧
    (RenderNode.seq (.literal ['/'] :: List.replicate n abNode)).count = 2 ^ n ∧
    (RenderNode.seq (.literal ['/'] :: List.replicate n abNode)).numVariants =
      Int64.ofNat (2 ^ n) := by
  obtain ⟨m, rfl⟩ : ∃ m, n = m + 1 := ⟨n - 1, by omega⟩
  have hcount := count_groups (m + 1)
  have hnum : (RenderNode.seq (.literal ['/'] :: List.replicate (m + 1) abNode)).numVariants =
      Int64.ofNat (2 ^ (m + 1)) := by
    rw [numVariants_eq_ofNat, hcount]
  refine ⟨?_, hcount, hnum⟩
  rw [parsePathPattern, PathPattern.parse, scan_groupsPattern]
  dsimp only
  rw [parse_groupsTokens]
  dsimp only
  rw [hnum, if_neg (ofNat_two_pow_not_gt (m + 1) hn)]

/-- `/` followed by 63 copies of `{a,b}` passes `ParsePathPattern`, with `2^63` expanded
patterns, far above the limit of 1000, and a negative `NumVariants`. -/
theorem numVariants_wraps_on_63_groups :
    ∃ p, parsePathPattern (groupsPattern 63) = .ok p ∧
      maxExpandedPatterns < p.renderTree.count ∧ p.numVariants < 0 := by
  obtain ⟨hparse, hcount, hnum⟩ := parsePathPattern_groups 63 (Nat.le_refl 63)
  refine ⟨_, hparse, ?_, ?_⟩
  · rw [hcount]
    decide
  · rw [PathPattern.numVariants, hnum]
    decide

end Snapd.Patterns
