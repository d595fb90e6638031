import Snapd.Lib.Regex

/-! Pattern variants (`interfaces/prompting/patterns/variant.go`): the components a rendered
variant is parsed into, their glob text and regular expression, and `parsePatternVariant`.
The regular expression of a variant is kept as the list of its groups: the source compiles
`^(r₁)…(rₖ)$` from the `componentRegex` of its components, in order. -/

namespace Snapd.Patterns

/-- `componentType`, from lowest to highest precedence. -/
inductive ComponentType where
  | compUnset
  | compGlobstar
  | compSeparatorDoublestarTerminal
  | compSeparatorDoublestarSeparatorTerminal
  | compSeparatorDoublestar
  | compTerminal
  | compSeparator
  | compAnySingle
  | compLiteral
  deriving DecidableEq, Repr

/-- The `iota` value of a component type, which `Compare` compares. -/
def ComponentType.rank : ComponentType → Nat
  | .compUnset => 0
  | .compGlobstar => 1
  | .compSeparatorDoublestarTerminal => 2
  | .compSeparatorDoublestarSeparatorTerminal => 3
  | .compSeparatorDoublestar => 4
  | .compTerminal => 5
  | .compSeparator => 6
  | .compAnySingle => 7
  | .compLiteral => 8

structure Component where
  compType : ComponentType
  compText : List Char
  deriving DecidableEq, Repr

/-- A component with no text: every kind but a literal. -/
def Component.ofType (t : ComponentType) : Component := ⟨t, []⟩

/-- The characters that a `\` keeps escaped in a literal. -/
def isSpecial (c : Char) : Bool :=
  c = '*' || c = '?' || c = '[' || c = ']' || c = '\x7b' || c = '\x7d' || c = '\\'

/-- `unescapeLiteral`: the regex `\\(.)` replaced by the character after the backslash. Go's
`.` does not match a newline, so a backslash before a newline stays. -/
def unescapeLiteral : List Char → List Char
  | [] => []
  | '\\' :: c :: rest =>
    if c = '\n' then '\\' :: '\n' :: unescapeLiteral rest else c :: unescapeLiteral rest
  | c :: rest => c :: unescapeLiteral rest

/-- `component.String`. The source panics on `compUnset`, which no parsed variant contains. -/
def Component.toText (c : Component) : List Char :=
  match c.compType with
  | .compGlobstar => ['*']
  | .compSeparatorDoublestarTerminal => ['/', '*', '*']
  | .compSeparatorDoublestarSeparatorTerminal => ['/', '*', '*', '/']
  | .compSeparatorDoublestar => ['/', '*', '*']
  | .compTerminal => []
  | .compSeparator => ['/']
  | .compAnySingle => ['?']
  | .compLiteral => c.compText
  | .compUnset => []

/-- `[^/]` -/
def notSeparator : Regex Char := .cls fun c => c ≠ '/'

/-- `.`, which by default matches any character but a newline. -/
def anyButNewline : Regex Char := .cls fun c => c ≠ '\n'

/-- `(?:/.+)?` -/
def optSubpath : Regex Char := .opt (.seq (.char '/') (.plus anyButNewline))

/-- `componentRegex`, without its capturing parentheses. -/
def Component.componentRegex (c : Component) : Regex Char :=
  match c.compType with
  | .compGlobstar => .star (.alt notSeparator (.str ['\\', '/']))
  | .compSeparatorDoublestarTerminal => .seq optSubpath (.opt (.char '/'))
  | .compSeparatorDoublestarSeparatorTerminal => .seq optSubpath (.char '/')
  | .compSeparatorDoublestar => optSubpath
  | .compTerminal => .opt (.char '/')
  | .compSeparator => .char '/'
  | .compAnySingle => notSeparator
  | .compLiteral => .str (unescapeLiteral c.compText)
  | .compUnset => .eps

structure PatternVariant where
  variant : List Char
  components : List Component
  regex : List (Regex Char)

/-- `doublestarEscaper` replacement: each maximal run of `n` backslashes before a `⁑` gets one
more backslash when `n` is even, escaping the literal `⁑`. The argument counts the run read
so far. -/
def escapeDoublestarMarks : Nat → List Char → List Char
  | n, [] => List.replicate n '\\'
  | n, c :: rest =>
    if c = '\\' then escapeDoublestarMarks (n + 1) rest
    else if c = '⁑' then
      List.replicate n '\\' ++ (if n % 2 = 1 then [] else ['\\']) ++ '⁑' :: escapeDoublestarMarks 0 rest
    else List.replicate n '\\' ++ c :: escapeDoublestarMarks 0 rest

/-- `doublestarReplacer` replacement: each maximal run of `n` backslashes before `**` keeps the
`**` when `n` is odd (it is escaped) and turns it into `⁑` otherwise. -/
def replaceDoublestars : Nat → List Char → List Char
  | n, [] => List.replicate n '\\'
  | n, '\\' :: rest => replaceDoublestars (n + 1) rest
  | n, '*' :: '*' :: rest =>
    List.replicate n '\\' ++ (if n % 2 = 1 then ['*', '*'] else ['⁑']) ++ replaceDoublestars 0 rest
  | n, c :: rest => List.replicate n '\\' ++ c :: replaceDoublestars 0 rest

def prepareVariantForParsing (variant : List Char) : List Char :=
  replaceDoublestars 0 (escapeDoublestarMarks 0 variant)

/-! ## `parsePatternVariant`

The components are kept as a stack, most recent first: every edit of the source touches the
end of its slice. -/

open ComponentType

/-- `prevComponentsAre`: the most recent components have the target types, listed from
least to most recent. -/
def prevComponentsAre (stack : List Component) (target : List ComponentType) : Bool :=
  decide (target.length ≤ stack.length) &&
    ((stack.take target.length).map (·.compType)).reverse == target

/-- `addGlobstar`: a `*` unless the previous component is a `*` or a `/**`. -/
def addGlobstar (stack : List Component) : List Component :=
  if !prevComponentsAre stack [compGlobstar] && !prevComponentsAre stack [compSeparatorDoublestar]
  then .ofType compGlobstar :: stack else stack

/-- `reducePrevDoublestar`: a `/**` followed by anything but a separator becomes `/*`. -/
def reducePrevDoublestar (stack : List Component) : List Component :=
  if prevComponentsAre stack [compSeparatorDoublestar] then
    .ofType compGlobstar :: .ofType compSeparator :: stack.tail
  else stack

/-- `consumeText`: pending runes become a literal component. -/
def consumeRunes (stack : List Component) (runes : List Char) : List Component :=
  if runes ≠ [] then ⟨compLiteral, runes⟩ :: reducePrevDoublestar stack else stack

/-- The `/` case: `/**/*` before it becomes `/*/**`, and repeated separators collapse. -/
def addSeparator (stack : List Component) : List Component :=
  let stack :=
    if prevComponentsAre stack [compSeparatorDoublestar, compSeparator, compGlobstar] then
      .ofType compSeparatorDoublestar :: .ofType compGlobstar :: .ofType compSeparator :: stack.drop 3
    else stack
  if !prevComponentsAre stack [compSeparator] then .ofType compSeparator :: stack else stack

/-- The `?` case: a `?` is moved before an adjacent `*`. -/
def addAnySingle (stack : List Component) : List Component :=
  if prevComponentsAre stack [compGlobstar] then
    .ofType compGlobstar :: .ofType compAnySingle :: stack.tail
  else .ofType compAnySingle :: stack

/-- The `⁑` case: `/**/**` reduces to `/**`, a `**` after a separator is a doublestar, and
anywhere else it is a `*`. -/
def addDoublestar (stack : List Component) : List Component :=
  if prevComponentsAre stack [compSeparatorDoublestar, compSeparator] then stack.tail
  else if prevComponentsAre stack [compSeparator] then
    .ofType compSeparatorDoublestar :: stack.tail
  else addGlobstar stack

/-- The rune loop of `parsePatternVariant`. -/
def variantLoop : List Char → List Component → List Char → Except String (List Component)
  | [], stack, runes => .ok (consumeRunes stack runes)
  | r :: rest, stack, runes =>
    match r with
    | '/' => variantLoop rest (addSeparator (consumeRunes stack runes)) []
    | '?' => variantLoop rest (addAnySingle (consumeRunes (reducePrevDoublestar stack) runes)) []
    | '⁑' => variantLoop rest (addDoublestar (consumeRunes stack runes)) []
    | '*' => variantLoop rest (addGlobstar (consumeRunes (reducePrevDoublestar stack) runes)) []
    | '\\' =>
      match rest with
      | [] => .error "internal error: trailing unescaped '\\' character"
      | r2 :: rest' => variantLoop rest' stack (runes ++ if isSpecial r2 then [r, r2] else [r2])
    | '[' | ']' | '\x7b' | '\x7d' =>
      .error ("internal error: unexpected unescaped '" ++ toString r.toNat ++ "' character")
    | _ => variantLoop rest stack (runes ++ [r])

/-- After the loop: a trailing `/**/*` loses its `/*`, then the terminal marker is added,
or the final doublestar becomes a terminal doublestar. -/
def finishComponents (stack : List Component) : List Component :=
  let stack :=
    if prevComponentsAre stack [compSeparatorDoublestar, compSeparator, compGlobstar] then
      stack.drop 2
    else stack
  if prevComponentsAre stack [compSeparatorDoublestar, compSeparator] then
    .ofType compSeparatorDoublestarSeparatorTerminal :: stack.drop 2
  else if prevComponentsAre stack [compSeparatorDoublestar] then
    .ofType compSeparatorDoublestarTerminal :: stack.tail
  else .ofType compTerminal :: stack

/-- `parsePatternVariant`: the components, the glob string they print as, and the groups
of the regular expression. -/
def parsePatternVariant (variant : List Char) : Except String PatternVariant :=
  match variantLoop (prepareVariantForParsing variant) [] [] with
  | .error e => .error e
  | .ok stack =>
    let components := (finishComponents stack).reverse
    .ok ⟨components.flatMap Component.toText, components, components.map Component.componentRegex⟩

/-! ## The shape of a parsed variant

The rune loop only pushes separators, `*`, `?`, `/**` and literals, and the text it gathers
into a literal is made of plain characters and escaped special ones. The end of parsing puts
exactly one terminal kind on top. -/

/-- The kinds that end a variant; `Compare` stops at them. -/
def ComponentType.isTerminal : ComponentType → Bool
  | .compSeparatorDoublestarTerminal | .compSeparatorDoublestarSeparatorTerminal
  | .compTerminal => true
  | _ => false

theorem ComponentType.rank_injective : Function.Injective ComponentType.rank := by
  intro a b h
  cases a <;> cases b <;> first | rfl | simp [rank] at h

/-- Literal text as the loop gathers it: plain characters, and a backslash before each
special character. -/
inductive WellEscaped : List Char → Prop
  | nil : WellEscaped []
  | plain {c : Char} {rest : List Char} :
      isSpecial c = false → WellEscaped rest → WellEscaped (c :: rest)
  | escaped {c : Char} {rest : List Char} :
      isSpecial c = true → WellEscaped rest → WellEscaped ('\\' :: c :: rest)

theorem WellEscaped.append {a b : List Char} (ha : WellEscaped a) (hb : WellEscaped b) :
    WellEscaped (a ++ b) := by
  induction ha with
  | nil => exact hb
  | plain hc _ ih => exact .plain hc ih
  | escaped hc _ ih => exact .escaped hc ih

theorem unescapeLiteral_plain {c : Char} (rest : List Char) (hc : isSpecial c = false) :
    unescapeLiteral (c :: rest) = c :: unescapeLiteral rest := by
  have hne : c ≠ '\\' := by
    rintro rfl
    simp [isSpecial] at hc
  cases rest <;> simp [unescapeLiteral, hne]

theorem unescapeLiteral_escaped {c : Char} (rest : List Char) (hc : isSpecial c = true) :
    unescapeLiteral ('\\' :: c :: rest) = c :: unescapeLiteral rest := by
  have hne : c ≠ '\n' := by
    rintro rfl
    simp [isSpecial] at hc
  simp [unescapeLiteral, hne]

/-- Unescaping loses nothing on well-escaped text: a special character in the result comes
from an escape, any other from itself. -/
theorem WellEscaped.unescape_inj {a b : List Char} (ha : WellEscaped a) (hb : WellEscaped b)
    (h : unescapeLiteral a = unescapeLiteral b) : a = b := by
  induction ha generalizing b with
  | nil =>
    cases hb with
    | nil => rfl
    | plain hd _ => simp [unescapeLiteral, unescapeLiteral_plain _ hd] at h
    | escaped hd _ => simp [unescapeLiteral, unescapeLiteral_escaped _ hd] at h
  | plain hc _ ih =>
    cases hb with
    | nil => simp [unescapeLiteral, unescapeLiteral_plain _ hc] at h
    | plain hd _ =>
      rw [unescapeLiteral_plain _ hc, unescapeLiteral_plain _ hd, List.cons.injEq] at h
      rw [h.1, ih ‹_› h.2]
    | escaped hd _ =>
      rw [unescapeLiteral_plain _ hc, unescapeLiteral_escaped _ hd, List.cons.injEq] at h
      simp [h.1, hd] at hc
  | escaped hc _ ih =>
    cases hb with
    | nil => simp [unescapeLiteral, unescapeLiteral_escaped _ hc] at h
    | plain hd _ =>
      rw [unescapeLiteral_escaped _ hc, unescapeLiteral_plain _ hd, List.cons.injEq] at h
      simp [h.1, hd] at hc
    | escaped hd _ =>
      rw [unescapeLiteral_escaped _ hc, unescapeLiteral_escaped _ hd, List.cons.injEq] at h
      rw [h.1, ih ‹_› h.2]

/-- A component that the rune loop pushes: not a terminal kind, not unset, and text only
in a literal, where it is well escaped. -/
structure Component.Inner (c : Component) : Prop where
  not_terminal : c.compType.isTerminal = false
  not_unset : c.compType ≠ .compUnset
  literal_text : c.compType = .compLiteral → WellEscaped c.compText
  other_text : c.compType ≠ .compLiteral → c.compText = []

theorem Component.inner_ofType {t : ComponentType} (ht : t.isTerminal = false)
    (hu : t ≠ .compUnset) (hl : t ≠ .compLiteral) : (Component.ofType t).Inner :=
  ⟨ht, hu, fun h => absurd h hl, fun _ => rfl⟩

/-- Every component on the loop's stack is inner. -/
def StackInv (stack : List Component) : Prop := ∀ c ∈ stack, c.Inner

theorem StackInv.push {c : Component} {stack : List Component} (h : StackInv stack)
    (hc : c.Inner) : StackInv (c :: stack) := by
  intro d hd
  rcases List.mem_cons.mp hd with rfl | hd
  · exact hc
  · exact h d hd

theorem StackInv.drop {stack : List Component} (h : StackInv stack) (n : Nat) :
    StackInv (stack.drop n) :=
  fun c hc => h c (List.mem_of_mem_drop hc)

theorem StackInv.tail {stack : List Component} (h : StackInv stack) : StackInv stack.tail :=
  fun c hc => h c (List.mem_of_mem_tail hc)

section Steps

variable {stack : List Component} (h : StackInv stack)
include h

theorem addGlobstar_inv : StackInv (addGlobstar stack) := by
  unfold addGlobstar
  split
  · exact h.push (Component.inner_ofType rfl (by decide) (by decide))
  · exact h

theorem reducePrevDoublestar_inv : StackInv (reducePrevDoublestar stack) := by
  unfold reducePrevDoublestar
  split
  · exact (h.tail.push (Component.inner_ofType rfl (by decide) (by decide))).push
      (Component.inner_ofType rfl (by decide) (by decide))
  · exact h

theorem consumeRunes_inv {runes : List Char} (hr : WellEscaped runes) :
    StackInv (consumeRunes stack runes) := by
  unfold consumeRunes
  split
  · exact (reducePrevDoublestar_inv h).push ⟨rfl, nofun, fun _ => hr, fun h => absurd rfl h⟩
  · exact h

theorem addSeparator_inv : StackInv (addSeparator stack) := by
  have hsep := Component.inner_ofType (t := .compSeparator) rfl (by decide) (by decide)
  -- the collapse of repeated separators, after the optional swap
  have pushSep : ∀ mid, StackInv mid →
      StackInv (if !prevComponentsAre mid [.compSeparator] then .ofType .compSeparator :: mid
        else mid) := by
    intro mid hmid
    split
    · exact hmid.push hsep
    · exact hmid
  unfold addSeparator
  apply pushSep
  split
  · exact (((h.drop 3).push hsep).push (Component.inner_ofType rfl (by decide) (by decide))).push
      (Component.inner_ofType rfl (by decide) (by decide))
  · exact h

theorem addAnySingle_inv : StackInv (addAnySingle stack) := by
  have hany := Component.inner_ofType (t := .compAnySingle) rfl (by decide) (by decide)
  unfold addAnySingle
  split
  · exact (h.tail.push hany).push (Component.inner_ofType rfl (by decide) (by decide))
  · exact h.push hany

theorem addDoublestar_inv : StackInv (addDoublestar stack) := by
  unfold addDoublestar
  split
  · exact h.tail
  · split
    · exact h.tail.push (Component.inner_ofType rfl (by decide) (by decide))
    · exact addGlobstar_inv h

end Steps

theorem variantLoop_inv {input runes : List Char} {stack out : List Component}
    (hs : StackInv stack) (hr : WellEscaped runes) (h : variantLoop input stack runes = .ok out) :
    StackInv out := by
  fun_induction variantLoop input stack runes with
  | case1 stack runes =>
    cases h
    exact consumeRunes_inv hs hr
  | case2 _ stack runes ih => exact ih (addSeparator_inv (consumeRunes_inv hs hr)) .nil h
  | case3 _ stack runes ih =>
    exact ih (addAnySingle_inv (consumeRunes_inv (reducePrevDoublestar_inv hs) hr)) .nil h
  | case4 _ stack runes ih => exact ih (addDoublestar_inv (consumeRunes_inv hs hr)) .nil h
  | case5 _ stack runes ih =>
    exact ih (addGlobstar_inv (consumeRunes_inv (reducePrevDoublestar_inv hs) hr)) .nil h
  | case7 stack runes r2 _ ih =>
    -- an escaped rune joins the text, keeping its backslash only when it is special
    refine ih hs (hr.append ?_) h
    split
    · exact .escaped ‹_› .nil
    · exact .plain (Bool.eq_false_iff.mpr ‹_›) .nil
  | case12 r _ stack runes h1 h2 h3 h4 h5 h6 h7 h8 h9 ih =>
    refine ih hs (hr.append (.plain ?_ .nil)) h
    simp only [isSpecial]
    simp_all
  | case6 | case8 | case9 | case10 | case11 => cases h

theorem finishComponents_spec {stack : List Component} (h : StackInv stack) :
    ∃ t rest, finishComponents stack = t :: rest ∧ t.compType.isTerminal = true ∧
      t.compText = [] ∧ StackInv rest := by
  have hmid : StackInv (if prevComponentsAre stack
      [.compSeparatorDoublestar, .compSeparator, .compGlobstar] then stack.drop 2 else stack) := by
    split
    · exact h.drop 2
    · exact h
  have close : ∀ mid, StackInv mid → ∃ t rest,
      (if prevComponentsAre mid [.compSeparatorDoublestar, .compSeparator] then
        Component.ofType .compSeparatorDoublestarSeparatorTerminal :: mid.drop 2
      else if prevComponentsAre mid [.compSeparatorDoublestar] then
        Component.ofType .compSeparatorDoublestarTerminal :: mid.tail
      else Component.ofType .compTerminal :: mid) = t :: rest ∧
      t.compType.isTerminal = true ∧ t.compText = [] ∧ StackInv rest := by
    intro mid hmid
    split
    · exact ⟨_, _, rfl, rfl, rfl, hmid.drop 2⟩
    · split
      · exact ⟨_, _, rfl, rfl, rfl, hmid.tail⟩
      · exact ⟨_, _, rfl, rfl, rfl, hmid⟩
  exact close _ hmid

/-- The components of a parsed variant, in order: inner components, then one terminal kind,
last. -/
inductive ValidComponents : List Component → Prop
  | last {c : Component} : c.compType.isTerminal = true → c.compText = [] → ValidComponents [c]
  | cons {c : Component} {cs : List Component} :
      c.Inner → ValidComponents cs → ValidComponents (c :: cs)

theorem validComponents_append {body : List Component} {t : Component}
    (hb : ∀ c ∈ body, c.Inner) (ht : t.compType.isTerminal = true) (htext : t.compText = []) :
    ValidComponents (body ++ [t]) := by
  induction body with
  | nil => exact .last ht htext
  | cons c body ih =>
    exact .cons (hb c List.mem_cons_self) (ih fun d hd => hb d (List.mem_cons_of_mem _ hd))

/-- What `parsePatternVariant` returns: valid components, the string they print as, and one
regex group per component. -/
theorem parsePatternVariant_spec {variant : List Char} {v : PatternVariant}
    (h : parsePatternVariant variant = .ok v) :
    ValidComponents v.components ∧ v.variant = v.components.flatMap Component.toText ∧
      v.regex = v.components.map Component.componentRegex := by
  unfold parsePatternVariant at h
  split at h
  · cases h
  · rename_i stack hloop
    cases h
    obtain ⟨t, rest, hfin, ht, htext, hrest⟩ :=
      finishComponents_spec (variantLoop_inv (fun _ hc => absurd hc List.not_mem_nil) .nil hloop)
    refine ⟨?_, rfl, rfl⟩
    rw [hfin, List.reverse_cons]
    exact validComponents_append (fun c hc => hrest c (List.mem_reverse.mp hc)) ht htext

theorem PatternVariant.eq_of_components {s s' : List Char} {v v' : PatternVariant}
    (h : parsePatternVariant s = .ok v) (h' : parsePatternVariant s' = .ok v')
    (hc : v.components = v'.components) : v = v' := by
  obtain ⟨_, hv, hr⟩ := parsePatternVariant_spec h
  obtain ⟨_, hv', hr'⟩ := parsePatternVariant_spec h'
  cases v
  cases v'
  simp_all

end Snapd.Patterns
