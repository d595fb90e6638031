import Snapd.Patterns.PathPattern
import Snapd.Patterns.RenderSpec
import Snapd.Patterns.Compare
import Mathlib.Algebra.Group.Int.Defs

/-! The two ways a path is matched against a pattern in `patterns.go`: `RenderAllVariants`,
which hands each parsed variant to an observer, and `PathPatternMatches`, which asks the
`doublestar` library. The library is a parameter: it is not part of this repository. -/

namespace Snapd.Patterns

/-- `PathPattern.RenderAllVariants`: the variants the observer is called with, in order and
with their indices; a rendered string that does not parse is logged and skipped. The loop is
given one unit of fuel per variant of the tree, which `renderAllVariants_eq` shows is enough. -/
def PathPattern.renderAllVariants (p : PathPattern) : List (Nat × PatternVariant) :=
  match VariantState.renderAllVariants (fun buf => (parsePatternVariant buf).toOption)
      p.renderTree.count p.renderTree with
  | .ok observed => observed
  | .error _ => []

theorem PathPattern.renderAllVariants_expand (p : PathPattern) :
    p.renderAllVariants = VariantState.observations
      (fun buf => (parsePatternVariant buf).toOption) 0 p.renderTree.expand := by
  rw [PathPattern.renderAllVariants, VariantState.renderAllVariants_eq _ _ _ le_rfl]

/-- For `/` and 63 copies of `{a,b}`, which `ParsePathPattern` accepts, the renderer goes
through the `2^63` buffers of the expansion, but `NumVariants` is `-2^63`: no number of
calls of the observer is `NumVariants`. -/
theorem renderAllVariants_calls_differ_from_numVariants :
    ∃ p, parsePathPattern (groupsPattern 63) = .ok p ∧
      p.renderTree.expand.length = 2 ^ 63 ∧
      p.renderAllVariants =
        VariantState.observations (fun buf => (parsePatternVariant buf).toOption) 0
          p.renderTree.expand ∧
      p.numVariants.toInt = -2 ^ 63 ∧ (p.renderAllVariants.length : Int) ≠ p.numVariants.toInt := by
  obtain ⟨hparse, hcount, hnum⟩ := parsePathPattern_groups 63 (Nat.le_refl 63)
  have hwrap : (Int64.ofNat (2 ^ 63)).toInt = -2 ^ 63 := by decide
  refine ⟨_, hparse, ?_, PathPattern.renderAllVariants_expand _, ?_, ?_⟩
  · rw [RenderNode.length_expand, hcount]
  · rw [PathPattern.numVariants, hnum, hwrap]
  · rw [PathPattern.numVariants, hnum, hwrap]
    omega

def errBadPattern : String := "syntax error in pattern"

/-- `PathPatternMatches`, over the `doublestar.Match` it calls (`none` for a malformed pattern).
A pattern ending in `/` matches only paths ending in `/`, and a pattern without one is tried
again with one appended. -/
def pathPatternMatches (doublestarMatch : List Char → List Char → Option Bool)
    (pattern path : List Char) : Except String Bool :=
  if pattern.getLast? = some '/' ∧ path.getLast? ≠ some '/' then .ok false
  else
    match doublestarMatch pattern path with
    | none => .error errBadPattern
    | some true => .ok true
    | some false =>
      if pattern.getLast? = some '/' then .ok false
      else
        match doublestarMatch (pattern ++ ['/']) path with
        | none => .error errBadPattern
        | some matched => .ok matched

/-- `PathPattern.Match`: the pattern's own text, matched by `PathPatternMatches`. -/
def PathPattern.matches (doublestarMatch : List Char → List Char → Option Bool)
    (p : PathPattern) (path : List Char) : Except String Bool :=
  pathPatternMatches doublestarMatch p.original path

/-- The path a `doublestar` pattern spells when it has no wildcard, class or group: a `\`
makes the character after it literal. `none` when a special character is not escaped. -/
def doublestarLiteral : List Char → Option (List Char)
  | [] => some []
  | '\\' :: c :: rest => (doublestarLiteral rest).map (c :: ·)
  | c :: rest => if isSpecial c then none else (doublestarLiteral rest).map (c :: ·)

/-- What `doublestar` documents of escapes: a pattern whose special characters are all escaped
matches exactly the path it spells. -/
def DoublestarEscapes (doublestarMatch : List Char → List Char → Option Bool) : Prop :=
  ∀ pattern lit, doublestarLiteral pattern = some lit →
    ∀ path, doublestarMatch pattern path = some (decide (path = lit))

end Snapd.Patterns
