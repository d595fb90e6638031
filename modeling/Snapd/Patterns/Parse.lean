import Snapd.Patterns.Scan
import Snapd.Patterns.RenderTree

/-! The recursive-descent parser of `interfaces/prompting/patterns/parse.go`. The token
reader's `depth` counter, raised by `parseAlt` for the groups it parses and restored by its
`defer`, is passed down as an argument; the remaining tokens are returned. Each call spends
one unit of `fuel`; `parse` gives enough for every call the token list can cause. -/

namespace Snapd.Patterns

open RenderNode

/-- `maxExpandedPatterns`, from `patterns.go`. -/
def maxExpandedPatterns : Nat := 1000

/-- `tokenType.String`, used by the `%v` of the unreachable error messages. -/
def TokenType.toText : TokenType → String
  | .tokEOF => "end-of-file"
  | .tokText => "text"
  | .tokBraceOpen => "brace-open"
  | .tokBraceClose => "brace-close"
  | .tokComma => "comma"

/-- How `%v` prints a `token`. -/
def Token.toText (t : Token) : String :=
  "\x7b" ++ t.tType.toText ++ " " ++ String.ofList t.text ++ "\x7d"

def outOfFuel : String := "internal error: parser ran out of fuel"

mutual
/-- `parseSeq`: the items parsed so far are `s`; it stops at the end, or at `}` or `,`
inside a group. -/
def parseSeq : Nat → Nat → List (RenderNode Char) → List Token →
    Except String (RenderNode Char × List Token)
  | 0, _, _, _ => .error outOfFuel
  | fuel + 1, depth, s, tokens =>
    match tokens with
    | [] => .ok (seqOptimize s, [])
    | t :: ts =>
      match t.tType with
      | .tokEOF => .ok (seqOptimize s, tokens)
      | .tokBraceOpen =>
        match parseAlt fuel depth tokens with
        | .error e => .error e
        | .ok (inner, rest) => parseSeq fuel depth (s ++ [inner]) rest
      | .tokBraceClose =>
        if depth > 0 then .ok (seqOptimize s, tokens) else .error "unmatched '\x7d' character"
      | .tokText => parseSeq fuel depth (s ++ [.literal t.text]) ts
      | .tokComma =>
        if depth > 0 then .ok (seqOptimize s, tokens)
        else parseSeq fuel depth (s ++ [.literal [',']]) ts
/-- `parseAlt`, up to its first item; `altTail` is the rest of its loop. -/
def parseAlt : Nat → Nat → List Token → Except String (RenderNode Char × List Token)
  | 0, _, _ => .error outOfFuel
  | fuel + 1, depth, tokens =>
    match tokens with
    | [] => .error "internal error: expected '\x7b' at start of alt, but got \x7bend-of-file \x7d"
    | t :: ts =>
      if t.tType ≠ .tokBraceOpen then
        .error ("internal error: expected '\x7b' at start of alt, but got " ++ t.toText)
      else if depth + 1 ≥ maxExpandedPatterns then
        .error "nested group depth exceeded maximum number of expanded path patterns (1000)"
      else
        match parseSeq fuel (depth + 1) [] ts with
        | .error e => .error e
        | .ok (item, rest) => altTail fuel (depth + 1) item [] rest
/-- The switch on the token after each item of `parseAlt`. -/
def altTail : Nat → Nat → RenderNode Char → List (RenderNode Char) → List Token →
    Except String (RenderNode Char × List Token)
  | 0, _, _, _, _ => .error outOfFuel
  | fuel + 1, depth, first, items, tokens =>
    match tokens with
    | [] => .error "unmatched '\x7b' character"
    | t :: ts =>
      match t.tType with
      | .tokBraceClose => .ok (altOptimize first items, ts)
      | .tokComma =>
        match parseSeq fuel depth [] ts with
        | .error e => .error e
        | .ok (item, rest) => altTail fuel depth first (items ++ [item]) rest
      | .tokEOF => .error "unmatched '\x7b' character"
      | _ => .error ("unexpected token " ++ t.toText ++ " when parsing alt")
end

theorem parseSeq_braceOpen {fuel depth : Nat} {acc : List (RenderNode Char)} {t : Token}
    {ts rest : List Token} {inner : RenderNode Char} (ht : t.tType = .tokBraceOpen)
    (halt : parseAlt fuel depth (t :: ts) = .ok (inner, rest)) :
    parseSeq (fuel + 1) depth acc (t :: ts) = parseSeq fuel depth (acc ++ [inner]) rest := by
  rw [parseSeq]
  simp only [ht, halt]

/-- `parse`: a sequence at depth zero over all tokens. -/
def parse (tokens : List Token) : Except String (RenderNode Char) :=
  match parseSeq (2 * tokens.length + 2) 0 [] tokens with
  | .error e => .error e
  | .ok (tree, _) => .ok tree

end Snapd.Patterns
