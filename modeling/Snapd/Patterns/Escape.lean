import Snapd.Patterns.Matching

/-! `EscapeLiteralPath` (`variant.go`) puts a backslash before every special character of a
path. The escaped text is a path pattern of one variant, made of separators and literals
only, that `doublestar` matches against the path itself. The text is followed through each
stage: `scan` splits it only at commas, `parse` joins the pieces again into one literal,
`prepareVariantForParsing` puts a backslash before each `⁑` and finds no `**`, and the rune
loop of `parsePatternVariant` only gathers text and separators. -/

namespace Snapd.Patterns

open RenderNode

/-- `EscapeLiteralPath`: the regex `([\*\?\[\]\{\}\\])` replaced by a backslash and the
character it matched. -/
def escapeLiteralPath (path : List Char) : List Char :=
  path.flatMap fun c => if isSpecial c then ['\\', c] else [c]

@[simp] theorem escapeLiteralPath_nil : escapeLiteralPath [] = [] := rfl

theorem escapeLiteralPath_cons (c : Char) (rest : List Char) :
    escapeLiteralPath (c :: rest) =
      (if isSpecial c then ['\\', c] else [c]) ++ escapeLiteralPath rest := by
  simp [escapeLiteralPath]

theorem escapeLiteralPath_special {c : Char} (rest : List Char) (hc : isSpecial c = true) :
    escapeLiteralPath (c :: rest) = '\\' :: c :: escapeLiteralPath rest := by
  simp [escapeLiteralPath_cons, hc]

theorem escapeLiteralPath_plain {c : Char} (rest : List Char) (hc : isSpecial c = false) :
    escapeLiteralPath (c :: rest) = c :: escapeLiteralPath rest := by
  simp [escapeLiteralPath_cons, hc]

theorem ne_of_not_special {c : Char} (hc : isSpecial c = false) :
    c ≠ '*' ∧ c ≠ '?' ∧ c ≠ '[' ∧ c ≠ ']' ∧ c ≠ '\x7b' ∧ c ≠ '\x7d' ∧ c ≠ '\\' := by
  simp only [isSpecial, Bool.or_eq_false_iff, decide_eq_false_iff_not] at hc
  tauto

theorem ne_of_special {c : Char} (hc : isSpecial c = true) : c ≠ '/' ∧ c ≠ '.' := by
  constructor <;> (rintro rfl; simp [isSpecial] at hc)

/-! ## The relative segments of the escaped path

A backslash is neither `/` nor `.`, so escaping neither makes nor breaks a relative segment. -/

theorem relpathTail_escapeLiteralPath (path : List Char) :
    relpathTail (escapeLiteralPath path) = relpathTail path := by
  rcases path with _ | ⟨c, rest⟩
  · rfl
  cases hc : isSpecial c
  · rw [escapeLiteralPath_plain rest hc]
    by_cases hs : c = '/'
    · subst hs
      simp [relpathTail]
    by_cases hdot : c = '.'
    · subst hdot
      rcases rest with _ | ⟨d, rest⟩
      · rfl
      cases hd : isSpecial d
      · rw [escapeLiteralPath_plain rest hd]
        by_cases hds : d = '/'
        · subst hds
          simp [relpathTail]
        · simp [relpathTail, hds]
      · rw [escapeLiteralPath_special rest hd]
        simp [relpathTail, (ne_of_special hd).1]
    · simp [relpathTail, hs, hdot]
  · rw [escapeLiteralPath_special rest hc]
    simp [relpathTail, (ne_of_special hc).1, (ne_of_special hc).2]

theorem relpathFinderMatch_escapeLiteralPath (path : List Char) :
    relpathFinderMatch (escapeLiteralPath path) = relpathFinderMatch path := by
  induction path with
  | nil => rfl
  | cons c rest ih =>
    cases hc : isSpecial c
    · rw [escapeLiteralPath_plain rest hc]
      by_cases hs : c = '/'
      · subst hs
        rcases rest with _ | ⟨d, rest'⟩
        · rfl
        by_cases hdot : d = '.'
        · subst hdot
          rw [escapeLiteralPath_plain rest' rfl] at ih ⊢
          simp [relpathFinderMatch, relpathTail_escapeLiteralPath, ih]
        · -- no `/.` starts here, on either side
          have hstart : ∀ tl : List Char, tl.head? ≠ some '.' →
              relpathFinderMatch ('/' :: tl) = relpathFinderMatch tl := by
            intro tl htl
            rcases tl with _ | ⟨e, tl⟩
            · rfl
            · have he : e ≠ '.' := fun h => htl (by rw [h]; rfl)
              simp [relpathFinderMatch, he]
          have hhead : (escapeLiteralPath (d :: rest')).head? ≠ some '.' := by
            rw [escapeLiteralPath_cons]
            split <;> simp [hdot]
          rw [hstart _ hhead, hstart (d :: rest') (by simp [hdot]), ih]
      · simp [relpathFinderMatch, ih]
    · rw [escapeLiteralPath_special rest hc]
      simp [relpathFinderMatch, (ne_of_special hc).1, ih]

/-- A token the scan of an escaped path makes: text, or a comma, which at depth zero stands
for itself. -/
def Token.LiteralPiece (t : Token) : Prop :=
  t.tType = .tokText ∨ (t.tType = .tokComma ∧ t.text = [','])

theorem consumeText_eq (runes : List Char) (tokens : List Token) :
    consumeText runes tokens = tokens ++ (if runes = [] then [] else [⟨.tokText, runes⟩]) := by
  unfold consumeText
  split <;> simp

theorem scanLoop_plain {c : Char} (hc : isSpecial c = false) (hcomma : c ≠ ',')
    (rest runes : List Char) (tokens : List Token) :
    scanLoop (c :: rest) runes tokens = scanLoop rest (runes ++ [c]) tokens := by
  obtain ⟨-, -, h3, h4, h5, h6, h7⟩ := ne_of_not_special hc
  simp [scanLoop]

/-- The scan loop over an escaped path emits text and commas that spell the pending runes and
the path. -/
theorem scanLoop_escapeLiteralPath (path runes : List Char) (tokens : List Token) :
    ∃ more, scanLoop (escapeLiteralPath path) runes tokens = .ok (tokens ++ more) ∧
      (∀ t ∈ more, t.LiteralPiece) ∧ (more.map Token.text).flatten = runes ++ escapeLiteralPath path := by
  induction path generalizing runes tokens with
  | nil =>
    refine ⟨if runes = [] then [] else [⟨.tokText, runes⟩], ?_, ?_, ?_⟩
    · simp [scanLoop, consumeText_eq]
    · split <;> simp [Token.LiteralPiece]
    · split <;> simp [*]
  | cons c rest ih =>
    cases hc : isSpecial c
    · rw [escapeLiteralPath_plain rest hc]
      by_cases hcomma : c = ','
      · -- a comma ends the pending text and is a token of its own
        subst hcomma
        have hstep : scanLoop (',' :: escapeLiteralPath rest) runes tokens =
            scanLoop (escapeLiteralPath rest) [] (consumeText runes tokens ++ [⟨.tokComma, [',']⟩]) := by
          simp [scanLoop]
        obtain ⟨more, hscan, hpieces, htext⟩ := ih [] (consumeText runes tokens ++ [⟨.tokComma, [',']⟩])
        refine ⟨(if runes = [] then [] else [⟨.tokText, runes⟩]) ++ ⟨.tokComma, [',']⟩ :: more,
          ?_, ?_, ?_⟩
        · rw [hstep, hscan, consumeText_eq]
          simp
        · intro t ht
          simp only [List.mem_append, List.mem_cons] at ht
          rcases ht with ht | rfl | ht
          · split at ht <;> simp_all [Token.LiteralPiece]
          · exact .inr ⟨rfl, rfl⟩
          · exact hpieces t ht
        · rw [List.map_append, List.flatten_append, List.map_cons, List.flatten_cons, htext]
          split <;> simp [*]
      · rw [scanLoop_plain hc hcomma]
        obtain ⟨more, hscan, hpieces, htext⟩ := ih (runes ++ [c]) tokens
        exact ⟨more, hscan, hpieces, by rw [htext]; simp⟩
    · rw [escapeLiteralPath_special rest hc]
      have hstep : scanLoop ('\\' :: c :: escapeLiteralPath rest) runes tokens =
          scanLoop (escapeLiteralPath rest) (runes ++ ['\\', c]) tokens := by
        simp [scanLoop]
      obtain ⟨more, hscan, hpieces, htext⟩ := ih (runes ++ ['\\', c]) tokens
      exact ⟨more, by rw [hstep, hscan], hpieces, by rw [htext]; simp⟩

theorem scan_escapeLiteralPath (path : List Char) (habs : path.head? = some '/')
    (hrel : ¬ RelativeSegment path) :
    ∃ tokens, scan (escapeLiteralPath path) = .ok tokens ∧ (∀ t ∈ tokens, t.LiteralPiece) ∧
      (tokens.map Token.text).flatten = escapeLiteralPath path := by
  obtain ⟨rest, rfl⟩ : ∃ rest, path = '/' :: rest := by
    rcases path with _ | ⟨c, rest⟩
    · simp at habs
    · simp only [List.head?_cons, Option.some.injEq] at habs
      exact ⟨rest, by rw [habs]⟩
  have hesc : escapeLiteralPath ('/' :: rest) = '/' :: escapeLiteralPath rest :=
    escapeLiteralPath_plain rest rfl
  have hfind : relpathFinderMatch (escapeLiteralPath ('/' :: rest)) = false := by
    rw [relpathFinderMatch_escapeLiteralPath, ← Bool.not_eq_true, relpathFinderMatch_eq_true_iff]
    exact hrel
  obtain ⟨more, hscan, hpieces, htext⟩ := scanLoop_escapeLiteralPath ('/' :: rest) [] []
  refine ⟨more, ?_, hpieces, by simpa using htext⟩
  rw [scan, if_neg (by rw [hesc]; exact List.cons_ne_nil _ _), if_neg (by rw [hesc]; simp), hfind,
    if_neg Bool.false_ne_true, hscan, List.nil_append]

theorem parseSeq_literalPieces (tokens : List Token) (h : ∀ t ∈ tokens, t.LiteralPiece)
    (fuel : Nat) (hf : tokens.length < fuel) (s : List (RenderNode Char)) :
    parseSeq fuel 0 s tokens = .ok (seqOptimize (s ++ tokens.map fun t => .literal t.text), []) := by
  induction tokens generalizing fuel s with
  | nil =>
    obtain ⟨f, rfl⟩ : ∃ f, fuel = f + 1 := ⟨fuel - 1, by simp at hf; omega⟩
    simp [parseSeq]
  | cons t ts ih =>
    obtain ⟨f, rfl⟩ : ∃ f, fuel = f + 1 := ⟨fuel - 1, by simp at hf; omega⟩
    have hts : ts.length < f := by simp at hf; omega
    have hrest := ih (fun u hu => h u (List.mem_cons_of_mem _ hu)) f hts
    rcases h t List.mem_cons_self with htext | ⟨hcomma, hc⟩
    · simp [parseSeq, htext, hrest]
    · simp [parseSeq, hcomma, hc, hrest]

theorem parse_literalPieces (tokens : List Token) (h : ∀ t ∈ tokens, t.LiteralPiece) :
    Patterns.parse tokens = .ok (.literal (tokens.map Token.text).flatten) := by
  rw [Patterns.parse, parseSeq_literalPieces tokens h _ (by omega), List.nil_append]
  simp only
  rw [← seqOptimize_literals, List.map_map]
  rfl

theorem parsePathPattern_escapeLiteralPath (path : List Char) (habs : path.head? = some '/')
    (hrel : ¬ RelativeSegment path) :
    parsePathPattern (escapeLiteralPath path) =
      .ok ⟨escapeLiteralPath path, .literal (escapeLiteralPath path)⟩ := by
  obtain ⟨tokens, hscan, hpieces, htext⟩ := scan_escapeLiteralPath path habs hrel
  have hcount : ¬ ((RenderNode.literal (escapeLiteralPath path)).numVariants >
      Int64.ofNat maxExpandedPatterns) := by
    rw [numVariants]
    decide
  rw [parsePathPattern, PathPattern.parse, hscan]
  simp only
  rw [parse_literalPieces tokens hpieces, htext]
  simp only
  rw [if_neg hcount]

/-- The escaped path as `prepareVariantForParsing` leaves it: each `⁑` gets a backslash too. -/
def escapeMarked (path : List Char) : List Char :=
  path.flatMap fun c => if isSpecial c || c = '⁑' then ['\\', c] else [c]

@[simp] theorem escapeMarked_nil : escapeMarked [] = [] := rfl

theorem escapeMarked_cons (c : Char) (rest : List Char) :
    escapeMarked (c :: rest) =
      (if isSpecial c || c = '⁑' then ['\\', c] else [c]) ++ escapeMarked rest := by
  simp [escapeMarked]

theorem head?_escapeMarked_ne_star (path : List Char) : (escapeMarked path).head? ≠ some '*' := by
  rcases path with _ | ⟨c, rest⟩
  · simp
  · rw [escapeMarked_cons]
    split
    · simp
    · rename_i h
      have hc : c ≠ '*' := by
        rintro rfl
        simp [isSpecial] at h
      simp [hc]

/-- The escaper adds one backslash before a `⁑` that follows an even run of them; in an
escaped path every run before a `⁑` is even. The argument counts the doubled backslashes
read so far. -/
theorem escapeDoublestarMarks_escapeLiteralPath (k : Nat) (path : List Char) :
    escapeDoublestarMarks (2 * k) (escapeLiteralPath path) =
      List.replicate (2 * k) '\\' ++ escapeMarked path := by
  induction path generalizing k with
  | nil => simp [escapeDoublestarMarks]
  | cons c rest ih =>
    rw [escapeMarked_cons]
    cases hc : isSpecial c
    · have hb : c ≠ '\\' := (ne_of_not_special hc).2.2.2.2.2.2
      rw [escapeLiteralPath_plain rest hc, escapeDoublestarMarks, if_neg hb]
      have ih0 := ih 0
      rw [Nat.mul_zero, List.replicate_zero, List.nil_append] at ih0
      by_cases hm : c = '⁑'
      · simp [hm, ih0]
      · simp [hm, ih0]
    · rw [escapeLiteralPath_special rest hc]
      by_cases hb : c = '\\'
      · -- a doubled backslash lengthens the run by two
        subst hb
        rw [escapeDoublestarMarks, if_pos rfl, escapeDoublestarMarks, if_pos rfl,
          show 2 * k + 1 + 1 = 2 * (k + 1) by omega, ih]
        simp [Nat.mul_succ, List.replicate_add]
      · have hm : c ≠ '⁑' := by
          rintro rfl
          simp [isSpecial] at hc
        have ih0 := ih 0
        rw [Nat.mul_zero, List.replicate_zero, List.nil_append] at ih0
        rw [escapeDoublestarMarks, if_pos rfl, escapeDoublestarMarks, if_neg hb, if_neg hm, ih0]
        simp [List.replicate_succ']

theorem replaceDoublestars_cons (n : Nat) {c : Char} (x : List Char) (hb : c ≠ '\\')
    (hs : c = '*' → x.head? ≠ some '*') :
    replaceDoublestars n (c :: x) = List.replicate n '\\' ++ c :: replaceDoublestars 0 x := by
  rcases x with _ | ⟨d, x⟩
  · simp [replaceDoublestars]
  · by_cases hc : c = '*'
    · subst hc
      have hd : d ≠ '*' := fun h => hs rfl (by rw [h]; rfl)
      simp [replaceDoublestars, hd]
    · simp [replaceDoublestars, hc]

theorem replaceDoublestars_escapeMarked (k : Nat) (path : List Char) :
    replaceDoublestars k (escapeMarked path) = List.replicate k '\\' ++ escapeMarked path := by
  induction path generalizing k with
  | nil => simp [replaceDoublestars]
  | cons c rest ih =>
    have ih0 := ih 0
    rw [List.replicate_zero, List.nil_append] at ih0
    rw [escapeMarked_cons]
    split
    · by_cases hb : c = '\\'
      · subst hb
        have hstep : replaceDoublestars k (['\\', '\\'] ++ escapeMarked rest) =
            replaceDoublestars (k + 2) (escapeMarked rest) := by
          simp [replaceDoublestars]
        rw [hstep, ih]
        simp [List.replicate_add]
      · have hstep : replaceDoublestars k (['\\', c] ++ escapeMarked rest) =
            replaceDoublestars (k + 1) (c :: escapeMarked rest) := by
          simp [replaceDoublestars]
        rw [hstep, replaceDoublestars_cons _ _ hb (fun _ => head?_escapeMarked_ne_star rest), ih0]
        simp [List.replicate_succ']
    · rename_i h
      have hs : isSpecial c = false := (by simpa using h : isSpecial c = false ∧ c ≠ '⁑').1
      have hb : c ≠ '\\' := (ne_of_not_special hs).2.2.2.2.2.2
      rw [List.singleton_append, replaceDoublestars_cons _ _ hb
        (fun h => absurd h (ne_of_not_special hs).1), ih0]

theorem prepareVariantForParsing_escapeLiteralPath (path : List Char) :
    prepareVariantForParsing (escapeLiteralPath path) = escapeMarked path := by
  have h := escapeDoublestarMarks_escapeLiteralPath 0 path
  rw [Nat.mul_zero, List.replicate_zero, List.nil_append] at h
  rw [prepareVariantForParsing, h, replaceDoublestars_escapeMarked, List.replicate_zero,
    List.nil_append]

/-- Separators and literals: all the rune loop stacks for a path without wildcards. -/
def SeparatorsAndLiterals (stack : List Component) : Prop :=
  ∀ c ∈ stack, c.compType = .compSeparator ∨ c.compType = .compLiteral

theorem prevComponentsAre_mem {stack : List Component} {target : List ComponentType}
    (h : prevComponentsAre stack target = true) : ∀ t ∈ target, ∃ c ∈ stack, c.compType = t := by
  intro t ht
  simp only [prevComponentsAre, Bool.and_eq_true, decide_eq_true_eq, beq_iff_eq] at h
  rw [← h.2, List.mem_reverse, List.mem_map] at ht
  obtain ⟨c, hc, rfl⟩ := ht
  exact ⟨c, List.mem_of_mem_take hc, rfl⟩

namespace SeparatorsAndLiterals

variable {stack : List Component} (h : SeparatorsAndLiterals stack)
include h

theorem prevComponentsAre_false {target : List ComponentType} {t : ComponentType}
    (ht : t ∈ target) (hs : t ≠ .compSeparator) (hl : t ≠ .compLiteral) :
    prevComponentsAre stack target = false := by
  rw [← Bool.not_eq_true]
  intro hprev
  obtain ⟨c, hc, rfl⟩ := prevComponentsAre_mem hprev t ht
  rcases h c hc with h' | h'
  · exact hs h'
  · exact hl h'

theorem reducePrevDoublestar_eq : reducePrevDoublestar stack = stack := by
  rw [reducePrevDoublestar, h.prevComponentsAre_false (List.mem_singleton_self _) (by decide) (by decide)]
  rfl

theorem consumeRunes (runes : List Char) :
    SeparatorsAndLiterals (consumeRunes stack runes) := by
  unfold Patterns.consumeRunes
  split
  · rw [h.reducePrevDoublestar_eq]
    intro c hc
    rcases List.mem_cons.mp hc with rfl | hc
    · exact .inr rfl
    · exact h c hc
  · exact h

theorem addSeparator : SeparatorsAndLiterals (addSeparator stack) := by
  have hswap : prevComponentsAre stack [.compSeparatorDoublestar, .compSeparator, .compGlobstar] =
      false := h.prevComponentsAre_false (t := .compGlobstar) (by simp) (by decide) (by decide)
  unfold Patterns.addSeparator
  rw [hswap]
  simp only [Bool.false_eq_true, if_false]
  split
  · intro c hc
    rcases List.mem_cons.mp hc with rfl | hc
    · exact .inl rfl
    · exact h c hc
  · exact h

theorem finishComponents_eq : finishComponents stack = .ofType .compTerminal :: stack := by
  have hds : prevComponentsAre stack [.compSeparatorDoublestar] = false :=
    h.prevComponentsAre_false (List.mem_singleton_self _) (by decide) (by decide)
  have hds2 : prevComponentsAre stack [.compSeparatorDoublestar, .compSeparator] = false :=
    h.prevComponentsAre_false (t := .compSeparatorDoublestar) (by simp) (by decide) (by decide)
  have hswap : prevComponentsAre stack [.compSeparatorDoublestar, .compSeparator, .compGlobstar] =
      false := h.prevComponentsAre_false (t := .compGlobstar) (by simp) (by decide) (by decide)
  simp [finishComponents, hswap, hds, hds2]

end SeparatorsAndLiterals

theorem variantLoop_plain {c : Char} (hc : isSpecial c = false) (hs : c ≠ '/') (hm : c ≠ '⁑')
    (rest : List Char) (stack : List Component) (runes : List Char) :
    variantLoop (c :: rest) stack runes = variantLoop rest stack (runes ++ [c]) := by
  obtain ⟨h1, h2, h3, h4, h5, h6, h7⟩ := ne_of_not_special hc
  simp [variantLoop]

/-- The rune loop over the prepared escaped path only gathers text and separators, and never
fails. -/
theorem variantLoop_escapeMarked (path : List Char) (stack : List Component) (runes : List Char)
    (h : SeparatorsAndLiterals stack) :
    ∃ out, variantLoop (escapeMarked path) stack runes = .ok out ∧ SeparatorsAndLiterals out := by
  induction path generalizing stack runes with
  | nil => exact ⟨_, rfl, h.consumeRunes runes⟩
  | cons c rest ih =>
    rw [escapeMarked_cons]
    split
    · have hstep : variantLoop (['\\', c] ++ escapeMarked rest) stack runes =
          variantLoop (escapeMarked rest) stack
            (runes ++ if isSpecial c then ['\\', c] else [c]) := by
        simp [variantLoop]
      rw [hstep]
      exact ih stack _ h
    · rename_i hsm
      have hs : isSpecial c = false ∧ c ≠ '⁑' := by simpa using hsm
      by_cases hsep : c = '/'
      · subst hsep
        have hstep : variantLoop (['/'] ++ escapeMarked rest) stack runes =
            variantLoop (escapeMarked rest) (addSeparator (consumeRunes stack runes)) [] := by
          simp [variantLoop]
        rw [hstep]
        exact ih _ [] (h.consumeRunes runes).addSeparator
      · rw [List.singleton_append, variantLoop_plain hs.1 hsep hs.2]
        exact ih stack _ h

/-- The one variant of an escaped path parses, into separators and literals and the terminal
marker. -/
theorem parsePatternVariant_escapeLiteralPath (path : List Char) :
    ∃ v, parsePatternVariant (escapeLiteralPath path) = .ok v ∧ ∀ c ∈ v.components,
      c.compType = .compSeparator ∨ c.compType = .compLiteral ∨ c.compType = .compTerminal := by
  have hnil : SeparatorsAndLiterals [] := fun _ hc => absurd hc List.not_mem_nil
  obtain ⟨out, hloop, hout⟩ := variantLoop_escapeMarked path [] [] hnil
  have hparse : parsePatternVariant (escapeLiteralPath path) =
      .ok ⟨((finishComponents out).reverse).flatMap Component.toText, (finishComponents out).reverse,
        ((finishComponents out).reverse).map Component.componentRegex⟩ := by
    rw [parsePatternVariant, prepareVariantForParsing_escapeLiteralPath, hloop]
  refine ⟨_, hparse, ?_⟩
  intro c hc
  simp only [hout.finishComponents_eq, List.reverse_cons, List.mem_append, List.mem_reverse,
    List.mem_singleton] at hc
  rcases hc with hc | rfl
  · rcases hout c hc with h' | h'
    · exact .inl h'
    · exact .inr (.inl h')
  · exact .inr (.inr rfl)

/-! ## An escaped separator

The rune loop keeps the backslash only before a special character. A `\/` therefore leaves a
`/` inside a literal: the variant prints as a path whose separators parse as separators, so
parsing the printed variant again gives other components, the same ones as the pattern
written without the backslash. -/

/-- The pattern `/a\/b`. -/
def escapedSeparatorPattern : List Char := ['/', 'a', '\\', '/', 'b']

theorem escaped_separator_breaks_normal_form :
    (∃ p, parsePathPattern escapedSeparatorPattern = .ok p ∧
      p.renderTree.expand = [escapedSeparatorPattern]) ∧
    (∃ q, parsePathPattern ['/', 'a', '/', 'b'] = .ok q ∧
      q.renderTree.expand = [['/', 'a', '/', 'b']]) ∧
    ∃ v v', parsePatternVariant escapedSeparatorPattern = .ok v ∧
      parsePatternVariant v.variant = .ok v' ∧ v.variant = ['/', 'a', '/', 'b'] ∧
      v'.variant = v.variant ∧ v'.components ≠ v.components :=
  ⟨⟨_, rfl, rfl⟩, ⟨_, rfl, rfl⟩, _, _, rfl, rfl, rfl, rfl, by decide⟩

theorem doublestarLiteral_plain {c : Char} (hc : isSpecial c = false) (rest : List Char) :
    doublestarLiteral (c :: rest) = (doublestarLiteral rest).map (c :: ·) := by
  have hb : c ≠ '\\' := (ne_of_not_special hc).2.2.2.2.2.2
  rw [doublestarLiteral.eq_def (c :: rest)]
  split <;> simp_all

theorem doublestarLiteral_escapeLiteralPath (path : List Char) :
    doublestarLiteral (escapeLiteralPath path) = some path := by
  induction path with
  | nil => rfl
  | cons c rest ih =>
    cases hc : isSpecial c
    · rw [escapeLiteralPath_plain rest hc, doublestarLiteral_plain hc, ih]
      rfl
    · rw [escapeLiteralPath_special rest hc]
      simp [doublestarLiteral, ih]

theorem getLast?_escapeLiteralPath (path : List Char) :
    (escapeLiteralPath path).getLast? = path.getLast? := by
  induction path with
  | nil => rfl
  | cons c rest ih =>
    rw [escapeLiteralPath_cons, List.getLast?_append, ih, List.getLast?_cons]
    cases rest.getLast? with
    | none => split <;> rfl
    | some _ => rfl

theorem pathPatternMatches_escapeLiteralPath {doublestarMatch : List Char → List Char → Option Bool}
    (hds : DoublestarEscapes doublestarMatch) (path : List Char) :
    pathPatternMatches doublestarMatch (escapeLiteralPath path) path = .ok true := by
  have hmatch := hds _ path (doublestarLiteral_escapeLiteralPath path) path
  rw [pathPatternMatches, getLast?_escapeLiteralPath, if_neg (fun h => h.2 h.1), hmatch]
  simp

/-- `EscapeLiteralPath` makes every character of an absolute path without relative segments
literal: the escaped text parses as a pattern of one variant, made only of separators and
literals, which prints as the escaped text and matches the path. -/
theorem escaped_literal_path_matches_itself (doublestarMatch : List Char → List Char → Option Bool)
    (hds : DoublestarEscapes doublestarMatch) (path : List Char) (habs : path.head? = some '/')
    (hrel : ¬ RelativeSegment path) :
    ∃ p, parsePathPattern (escapeLiteralPath path) = .ok p ∧ p.numVariants = 1 ∧
      p.renderTree.expand = [escapeLiteralPath path] ∧
      (∃ v, p.renderAllVariants = [(0, v)] ∧ ∀ c ∈ v.components,
        c.compType = .compSeparator ∨ c.compType = .compLiteral ∨ c.compType = .compTerminal) ∧
      p.toText = escapeLiteralPath path ∧ p.matches doublestarMatch path = .ok true := by
  refine ⟨_, parsePathPattern_escapeLiteralPath path habs hrel, rfl, rfl, ?_, rfl,
    pathPatternMatches_escapeLiteralPath hds path⟩
  obtain ⟨v, hv, hcomp⟩ := parsePatternVariant_escapeLiteralPath path
  refine ⟨v, ?_, hcomp⟩
  rw [PathPattern.renderAllVariants_expand]
  simp [expand, VariantState.observations, hv]
  rfl

/-- A matcher that knows only the literal patterns `DoublestarEscapes` speaks of. -/
def literalMatcher (pattern path : List Char) : Option Bool :=
  (doublestarLiteral pattern).map fun lit => decide (path = lit)

theorem literalMatcher_escapes : DoublestarEscapes literalMatcher := by
  intro pattern lit h path
  simp [literalMatcher, h]

/-- The path `/f*?([]{},\⁑`, with every special character and the doublestar mark. -/
def specialsPath : List Char :=
  ['/', 'f', '*', '?', '(', '[', ']', '\x7b', '\x7d', ',', '\\', '⁑']

theorem specialsPath_escapes_to_itself :
    DoublestarEscapes literalMatcher ∧ specialsPath.head? = some '/' ∧
      ¬ RelativeSegment specialsPath ∧
      ∃ p, parsePathPattern (escapeLiteralPath specialsPath) = .ok p ∧ p.numVariants = 1 ∧
        p.renderTree.expand = [escapeLiteralPath specialsPath] ∧
        (∃ v, p.renderAllVariants = [(0, v)] ∧ ∀ c ∈ v.components,
          c.compType = .compSeparator ∨ c.compType = .compLiteral ∨ c.compType = .compTerminal) ∧
        p.toText = escapeLiteralPath specialsPath ∧ p.matches literalMatcher specialsPath = .ok true := by
  have hrel : ¬ RelativeSegment specialsPath := by
    rw [← relpathFinderMatch_eq_true_iff]
    decide
  exact ⟨literalMatcher_escapes, rfl, hrel,
    escaped_literal_path_matches_itself literalMatcher literalMatcher_escapes specialsPath rfl hrel⟩

end Snapd.Patterns
