import Snapd.Patterns.Parse
import Mathlib.Computability.Language

/-! The language a render tree stands for, and the grammar of the token sequences `parse`
accepts. `seq.optimize` keeps the expansion of a sequence as it is and `alt.optimize` keeps
its strings; `parse` accepts exactly the token sequences of the grammar, and the tree it returns
stands for the language the grammar gives them. -/

namespace Snapd.Patterns

open RenderNode

/-- The strings a render tree expands to. -/
def lang (n : RenderNode Char) : Language Char := {x | x ∈ expand n}

/-- The strings a sequence of render trees expands to. -/
def langSeq (ns : List (RenderNode Char)) : Language Char := {x | x ∈ expandSeq ns}

/-- The strings the alternatives of a group expand to. -/
def langAlt (ns : List (RenderNode Char)) : Language Char := {x | x ∈ expandAlt ns}

@[simp] theorem mem_lang {n : RenderNode Char} {x : List Char} : x ∈ lang n ↔ x ∈ expand n :=
  Iff.rfl

@[simp] theorem mem_langSeq {ns : List (RenderNode Char)} {x : List Char} :
    x ∈ langSeq ns ↔ x ∈ expandSeq ns :=
  Iff.rfl

@[simp] theorem mem_langAlt {ns : List (RenderNode Char)} {x : List Char} :
    x ∈ langAlt ns ↔ x ∈ expandAlt ns :=
  Iff.rfl

section Expand

variable {α : Type}

theorem expandSeq_append (xs ys : List (RenderNode α)) :
    expandSeq (xs ++ ys) = (expandSeq xs).flatMap fun a => (expandSeq ys).map (a ++ ·) := by
  induction xs with
  | nil => simp [expandSeq]
  | cons x xs ih =>
    simp only [List.cons_append, expandSeq, ih, List.flatMap_assoc, List.flatMap_map,
      List.map_flatMap, List.map_map, Function.comp_def, List.append_assoc]

@[simp] theorem expandSeq_singleton (n : RenderNode α) : expandSeq [n] = expand n := by
  simp [expandSeq]

theorem expandSeq_literal_nil (ns : List (RenderNode α)) :
    expandSeq (.literal [] :: ns) = expandSeq ns := by
  simp [expandSeq, expand]

theorem expandSeq_literal_literal (a b : List α) (ns : List (RenderNode α)) :
    expandSeq (.literal a :: .literal b :: ns) = expandSeq (.literal (a ++ b) :: ns) := by
  simp [expandSeq, expand, Function.comp_def]

theorem expandSeq_insert_literal_nil (xs ys : List (RenderNode α)) :
    expandSeq (xs ++ .literal [] :: ys) = expandSeq (xs ++ ys) := by
  rw [expandSeq_append, expandSeq_append, expandSeq_literal_nil]

theorem expandSeq_merge_literals (xs ys : List (RenderNode α)) (a b : List α) :
    expandSeq (xs ++ .literal a :: .literal b :: ys) = expandSeq (xs ++ .literal (a ++ b) :: ys) := by
  rw [expandSeq_append, expandSeq_append, expandSeq_literal_literal]

@[simp] theorem optimizeStep_literal_nil (acc : List (RenderNode α) × List α) :
    optimizeStep acc (.literal []) = acc := rfl

theorem optimizeStep_literal {l : List α} (hl : l ≠ []) (acc : List (RenderNode α)) (b : List α) :
    optimizeStep (acc, b) (.literal l) = (acc, b ++ l) := by
  simp [optimizeStep, hl]

theorem optimizeStep_of_not_literal {item : RenderNode α} (h : ∀ l, item ≠ .literal l)
    (acc : List (RenderNode α)) (b : List α) :
    optimizeStep (acc, b) item =
      if b = [] then (acc ++ [item], []) else (acc ++ [.literal b, item], []) := by
  cases item with
  | literal l => exact absurd rfl (h l)
  | seq ns => rfl
  | alt first rest => rfl

/-- The loop of `seq.optimize` keeps the expansion of what it has read: what it has emitted
followed by the text it holds. -/
theorem expandSeq_foldl_optimizeStep (items acc : List (RenderNode α)) (b : List α) :
    expandSeq ((items.foldl optimizeStep (acc, b)).1 ++
        [.literal (items.foldl optimizeStep (acc, b)).2]) =
      expandSeq (acc ++ .literal b :: items) := by
  induction items generalizing acc b with
  | nil => rfl
  | cons item items ih =>
    rw [List.foldl_cons]
    by_cases hlit : ∃ l, item = .literal l
    · obtain ⟨l, rfl⟩ := hlit
      by_cases hl : l = []
      · -- an empty literal is dropped
        subst hl
        rw [optimizeStep_literal_nil, ih, expandSeq_merge_literals, List.append_nil]
      · -- the text is held back to be joined with the next
        rw [optimizeStep_literal hl, ih, expandSeq_merge_literals]
    · -- any other node is emitted after the text held
      rw [optimizeStep_of_not_literal (fun l h => hlit ⟨l, h⟩)]
      split
      · rename_i hb
        rw [ih, hb, expandSeq_insert_literal_nil, expandSeq_insert_literal_nil, List.append_assoc,
          List.singleton_append]
      · rw [ih, expandSeq_insert_literal_nil, List.append_assoc]
        rfl

theorem expand_seqOptimize (items : List (RenderNode α)) :
    expand (seqOptimize items) = expandSeq items := by
  have hfold := expandSeq_foldl_optimizeStep items [] []
  rw [List.nil_append, expandSeq_literal_nil] at hfold
  -- the sequence before the strength reduction
  have hnew : expandSeq (if (items.foldl optimizeStep ([], [])).2 = [] then
      (items.foldl optimizeStep ([], [])).1 else
      (items.foldl optimizeStep ([], [])).1 ++ [.literal (items.foldl optimizeStep ([], [])).2]) =
      expandSeq items := by
    split
    · rename_i h
      rw [← hfold, h, ← List.append_nil (items.foldl optimizeStep ([], [])).1,
        expandSeq_insert_literal_nil, List.append_nil, List.append_nil]
    · exact hfold
  unfold seqOptimize
  dsimp only
  rw [← hnew]
  generalize (if (items.foldl optimizeStep ([], [])).2 = [] then
      (items.foldl optimizeStep ([], [])).1 else
      (items.foldl optimizeStep ([], [])).1 ++ [.literal (items.foldl optimizeStep ([], [])).2]) = ns
  -- the strength reduction of an empty sequence and of a sequence of one node
  rcases ns with _ | ⟨n, _ | ⟨m, ns⟩⟩
  · rfl
  · exact (expandSeq_singleton n).symm
  · rfl

theorem mem_expandAlt {x : List α} {ns : List (RenderNode α)} :
    x ∈ expandAlt ns ↔ ∃ n ∈ ns, x ∈ expand n := by
  induction ns with
  | nil => simp [expandAlt]
  | cons n ns ih => simp [expandAlt, ih]

variable [DecidableEq α]

theorem mem_of_mem_altKeep {seen items : List (RenderNode α)} {n : RenderNode α}
    (h : n ∈ altKeep seen items) : n ∈ items := by
  induction items generalizing seen with
  | nil => simp [altKeep] at h
  | cons item items ih =>
    unfold altKeep at h
    split at h
    · exact List.mem_cons_of_mem _ (ih h)
    · rcases List.mem_cons.mp h with rfl | h
      · exact List.mem_cons_self
      · exact List.mem_cons_of_mem _ (ih h)

theorem mem_or_mem_altKeep (seen : List (RenderNode α)) {items : List (RenderNode α)}
    {n : RenderNode α} (h : n ∈ items) : n ∈ seen ∨ n ∈ altKeep seen items := by
  induction items generalizing seen with
  | nil => simp at h
  | cons item items ih =>
    unfold altKeep
    split
    · rename_i hany
      rcases List.mem_cons.mp h with rfl | h
      · obtain ⟨s, hs, heq⟩ := List.any_eq_true.mp hany
        exact .inl ((nodeEqual_iff s n).mp heq ▸ hs)
      · exact ih _ h
    · rcases List.mem_cons.mp h with rfl | h
      · exact .inr List.mem_cons_self
      · rcases ih (seen ++ [item]) h with hs | hk
        · rcases List.mem_append.mp hs with hs | hs
          · exact .inl hs
          · exact .inr (by simp at hs; simp [hs])
        · exact .inr (List.mem_cons_of_mem _ hk)

theorem mem_expand_altOptimize (first : RenderNode α) (rest : List (RenderNode α)) (x : List α) :
    x ∈ expand (altOptimize first rest) ↔ x ∈ expand (.alt first rest) := by
  have hkept : (∃ n ∈ altKeep [first] rest, x ∈ expand n) → x ∈ expand first ∨
      ∃ n ∈ rest, x ∈ expand n := fun ⟨n, hn, hx⟩ => .inr ⟨n, mem_of_mem_altKeep hn, hx⟩
  have hrest : (∃ n ∈ rest, x ∈ expand n) → x ∈ expand first ∨
      ∃ n ∈ altKeep [first] rest, x ∈ expand n := by
    rintro ⟨n, hn, hx⟩
    rcases mem_or_mem_altKeep [first] hn with hs | hk
    · exact .inl (List.mem_singleton.mp hs ▸ hx)
    · exact .inr ⟨n, hk, hx⟩
  unfold altOptimize
  split
  · rename_i h
    simp only [expand, List.mem_append, mem_expandAlt]
    constructor
    · exact .inl
    · rintro (hx | hx)
      · exact hx
      · simpa [h] using hrest hx
  · rename_i n ns h
    simp only [expand, List.mem_append, mem_expandAlt, ← h]
    constructor
    · rintro (hx | hx)
      · exact .inl hx
      · exact hkept hx
    · rintro (hx | hx)
      · exact .inl hx
      · exact hrest hx

end Expand

@[simp] theorem lang_literal (t : List Char) : lang (.literal t) = {t} := by
  ext x
  show x ∈ expand (.literal t) ↔ x = t
  simp [expand]

@[simp] theorem langSeq_nil : langSeq [] = 1 := by
  ext x
  simp [expandSeq, Language.mem_one]

theorem langSeq_append (xs ys : List (RenderNode Char)) :
    langSeq (xs ++ ys) = langSeq xs * langSeq ys := by
  ext x
  simp only [mem_langSeq, expandSeq_append, Language.mem_mul, List.mem_flatMap, List.mem_map]

theorem langSeq_append_singleton (xs : List (RenderNode Char)) (n : RenderNode Char) :
    langSeq (xs ++ [n]) = langSeq xs * lang n := by
  rw [langSeq_append]
  congr 1
  ext x
  simp

theorem lang_seqOptimize (items : List (RenderNode Char)) :
    lang (seqOptimize items) = langSeq items := by
  ext x
  simp [expand_seqOptimize]

@[simp] theorem langAlt_nil : langAlt [] = 0 := by
  ext x
  simp [expandAlt]

theorem langAlt_append_singleton (xs : List (RenderNode Char)) (n : RenderNode Char) :
    langAlt (xs ++ [n]) = langAlt xs + lang n := by
  ext x
  simp [mem_expandAlt, Language.mem_add, or_and_right, exists_or]

theorem lang_altOptimize (first : RenderNode Char) (rest : List (RenderNode Char)) :
    lang (altOptimize first rest) = lang first + langAlt rest := by
  ext x
  rw [mem_lang, mem_expand_altOptimize, Language.mem_add]
  simp [expand]

/-- Whether a part of the token sequence is a sequence or the alternatives of a group. -/
inductive Part where
  | seq
  | alt
  deriving DecidableEq, Repr

/-- `Derives p depth tokens L`: the tokens are a sequence (`p = .seq`) or the alternatives of
a group (`p = .alt`) at group depth `depth`, and stand for the strings `L`. Inside a group a
sequence ends at `,` or `}`; at depth zero `,` is text and `}` has no group to close. Groups
nest less than `maxExpandedPatterns` deep. -/
inductive Derives : Part → Nat → List Token → Language Char → Prop
  | nil (depth : Nat) : Derives .seq depth [] 1
  | text {depth : Nat} {t : Token} {rest : List Token} {L : Language Char}
      (ht : t.tType = .tokText) (hrest : Derives .seq depth rest L) :
      Derives .seq depth (t :: rest) ({t.text} * L)
  | comma {t : Token} {rest : List Token} {L : Language Char}
      (ht : t.tType = .tokComma) (hrest : Derives .seq 0 rest L) :
      Derives .seq 0 (t :: rest) ({[',']} * L)
  | group {depth : Nat} {o c : Token} {g rest : List Token} {A L : Language Char}
      (ho : o.tType = .tokBraceOpen) (hc : c.tType = .tokBraceClose)
      (hdepth : depth + 1 < maxExpandedPatterns)
      (hg : Derives .alt (depth + 1) g A) (hrest : Derives .seq depth rest L) :
      Derives .seq depth (o :: g ++ c :: rest) (A * L)
  | one {depth : Nat} {s : List Token} {L : Language Char} (hs : Derives .seq depth s L) :
      Derives .alt depth s L
  | alt {depth : Nat} {s g : List Token} {t : Token} {L A : Language Char}
      (hs : Derives .seq depth s L) (ht : t.tType = .tokComma) (hg : Derives .alt depth g A) :
      Derives .alt depth (s ++ t :: g) (L + A)

/-- What may follow a sequence at group depth `depth`: nothing, the end, or inside a group a
`,` or a `}`. -/
def Stop (depth : Nat) : List Token → Prop
  | [] => True
  | t :: _ => t.tType = .tokEOF ∨ (0 < depth ∧ (t.tType = .tokBraceClose ∨ t.tType = .tokComma))

/-- What follows the first alternative of a group, up to its `}`: nothing, or a `,` and more
alternatives. -/
def AltRest (depth : Nat) (g : List Token) (A : Language Char) : Prop :=
  (g = [] ∧ A = 0) ∨ ∃ t g', g = t :: g' ∧ t.tType = .tokComma ∧ Derives .alt depth g' A

theorem Derives.of_altRest {depth : Nat} {s g : List Token} {L A : Language Char}
    (hs : Derives .seq depth s L) (hg : AltRest depth g A) : Derives .alt depth (s ++ g) (L + A) := by
  rcases hg with ⟨rfl, rfl⟩ | ⟨t, g', rfl, ht, hg'⟩
  · simpa using Derives.one hs
  · exact Derives.alt hs ht hg'

/-- What each function of the parser returns with `fuel`, when it succeeds. -/
structure Sound (fuel : Nat) : Prop where
  seq : ∀ {depth acc tokens n rest}, parseSeq fuel depth acc tokens = .ok (n, rest) →
    ∃ ts L, tokens = ts ++ rest ∧ Derives .seq depth ts L ∧ Stop depth rest ∧
      lang n = langSeq acc * L
  alt : ∀ {depth tokens n rest}, parseAlt fuel depth tokens = .ok (n, rest) →
    ∃ o g c, tokens = o :: g ++ c :: rest ∧ o.tType = .tokBraceOpen ∧
      c.tType = .tokBraceClose ∧ depth + 1 < maxExpandedPatterns ∧
      Derives .alt (depth + 1) g (lang n)
  tail : ∀ {depth first items tokens n rest},
    altTail fuel depth first items tokens = .ok (n, rest) →
    ∃ g c A, tokens = g ++ c :: rest ∧ c.tType = .tokBraceClose ∧ AltRest depth g A ∧
      lang n = lang first + langAlt items + A

theorem sound_zero : Sound 0 where
  seq h := by simp [parseSeq] at h
  alt h := by simp [parseAlt] at h
  tail h := by simp [altTail] at h

section SoundStep

variable {fuel : Nat} (ih : Sound fuel)
include ih

theorem parseSeq_sound_succ {depth : Nat} {acc : List (RenderNode Char)} {tokens : List Token}
    {n : RenderNode Char} {rest : List Token}
    (h : parseSeq (fuel + 1) depth acc tokens = .ok (n, rest)) :
    ∃ ts L, tokens = ts ++ rest ∧ Derives .seq depth ts L ∧ Stop depth rest ∧
      lang n = langSeq acc * L := by
  have hnil : lang (seqOptimize acc) = langSeq acc * 1 := by rw [lang_seqOptimize, mul_one]
  rcases tokens with _ | ⟨t, ts⟩
  · simp only [parseSeq, Except.ok.injEq, Prod.mk.injEq] at h
    obtain ⟨rfl, rfl⟩ := h
    exact ⟨[], 1, rfl, .nil depth, trivial, hnil⟩
  simp only [parseSeq] at h
  split at h
  · simp only [Except.ok.injEq, Prod.mk.injEq] at h
    obtain ⟨rfl, rfl⟩ := h
    exact ⟨[], 1, rfl, .nil depth, .inl ‹_›, hnil⟩
  · split at h
    · cases h
    · rename_i ho _ inner rest1 halt
      obtain ⟨o, g, c, heq, hopen, hclose, hdepth, hg⟩ := ih.alt halt
      obtain ⟨ts2, L2, rfl, hrest, hstop', hlang⟩ := ih.seq h
      refine ⟨o :: g ++ c :: ts2, lang inner * L2, by simp [heq], .group hopen hclose hdepth hg hrest,
        hstop', ?_⟩
      rw [hlang, langSeq_append_singleton, mul_assoc]
  · -- a `}` ends a sequence inside a group and is refused outside
    split at h
    · simp only [Except.ok.injEq, Prod.mk.injEq] at h
      obtain ⟨rfl, rfl⟩ := h
      exact ⟨[], 1, rfl, .nil depth, .inr ⟨‹_›, .inl ‹_›⟩, hnil⟩
    · cases h
  · rename_i htext
    obtain ⟨ts2, L2, rfl, hrest, hstop', hlang⟩ := ih.seq h
    refine ⟨t :: ts2, {t.text} * L2, rfl, .text htext hrest, hstop', ?_⟩
    rw [hlang, langSeq_append_singleton, lang_literal, mul_assoc]
  · -- a `,` ends a sequence inside a group and is text outside
    split at h
    · simp only [Except.ok.injEq, Prod.mk.injEq] at h
      obtain ⟨rfl, rfl⟩ := h
      exact ⟨[], 1, rfl, .nil depth, .inr ⟨‹_›, .inr ‹_›⟩, hnil⟩
    · rename_i hcomma hdepth
      obtain rfl : depth = 0 := by omega
      obtain ⟨ts2, L2, rfl, hrest, hstop', hlang⟩ := ih.seq h
      refine ⟨t :: ts2, {[',']} * L2, rfl, .comma hcomma hrest, hstop', ?_⟩
      rw [hlang, langSeq_append_singleton, lang_literal, mul_assoc]

theorem parseAlt_sound_succ {depth : Nat} {tokens : List Token} {n : RenderNode Char}
    {rest : List Token} (h : parseAlt (fuel + 1) depth tokens = .ok (n, rest)) :
    ∃ o g c, tokens = o :: g ++ c :: rest ∧ o.tType = .tokBraceOpen ∧
      c.tType = .tokBraceClose ∧ depth + 1 < maxExpandedPatterns ∧
      Derives .alt (depth + 1) g (lang n) := by
  rcases tokens with _ | ⟨o, ts⟩
  · simp [parseAlt] at h
  simp only [parseAlt] at h
  split at h
  · cases h
  split at h
  · cases h
  rename_i hopen hdepth
  split at h
  · cases h
  rename_i item rest1 hfirst
  obtain ⟨ts1, L1, rfl, hs, -, hlang1⟩ := ih.seq hfirst
  obtain ⟨g, c, A, rfl, hclose, hg, hlang⟩ := ih.tail h
  refine ⟨o, ts1 ++ g, c, by simp, not_not.mp hopen, hclose, by omega, ?_⟩
  rw [hlang, hlang1, langSeq_nil, one_mul, langAlt_nil, add_zero]
  exact Derives.of_altRest hs hg

theorem altTail_sound_succ {depth : Nat} {first : RenderNode Char}
    {items : List (RenderNode Char)} {tokens : List Token} {n : RenderNode Char}
    {rest : List Token} (h : altTail (fuel + 1) depth first items tokens = .ok (n, rest)) :
    ∃ g c A, tokens = g ++ c :: rest ∧ c.tType = .tokBraceClose ∧ AltRest depth g A ∧
      lang n = lang first + langAlt items + A := by
  rcases tokens with _ | ⟨t, ts⟩
  · simp [altTail] at h
  simp only [altTail] at h
  split at h
  · rename_i hclose
    simp only [Except.ok.injEq, Prod.mk.injEq] at h
    obtain ⟨rfl, rfl⟩ := h
    exact ⟨[], t, 0, rfl, hclose, .inl ⟨rfl, rfl⟩, by rw [lang_altOptimize, add_zero]⟩
  · rename_i hcomma
    split at h
    · cases h
    rename_i item rest1 hitem
    obtain ⟨ts1, L1, rfl, hs, -, hlang1⟩ := ih.seq hitem
    obtain ⟨g, c, A, rfl, hclose, hg, hlang⟩ := ih.tail h
    refine ⟨t :: (ts1 ++ g), c, L1 + A, by simp, hclose,
      .inr ⟨t, ts1 ++ g, rfl, hcomma, Derives.of_altRest hs hg⟩, ?_⟩
    rw [hlang, langAlt_append_singleton, hlang1, langSeq_nil, one_mul]
    simp only [add_assoc]
  · cases h
  · cases h

end SoundStep

theorem sound : (fuel : Nat) → Sound fuel
  | 0 => sound_zero
  | fuel + 1 =>
    have ih := sound fuel
    ⟨parseSeq_sound_succ ih, parseAlt_sound_succ ih, altTail_sound_succ ih⟩

/-- What the parser does with enough fuel on tokens of the grammar: it parses a sequence up
to where it stops, and the alternatives of a group up to its `}`, entered at a `,` between
them or after the `{`. -/
def Complete : Part → Nat → List Token → Language Char → Prop
  | .seq, depth, ts, L => ∀ fuel acc rest, Stop depth rest → 2 * ts.length + 1 ≤ fuel →
      ∃ n, parseSeq fuel depth acc (ts ++ rest) = .ok (n, rest) ∧ lang n = langSeq acc * L
  | .alt, depth, g, A => 0 < depth → ∀ fuel c rest, c.tType = .tokBraceClose →
      (∀ first items t, t.tType = .tokComma → 2 * g.length + 2 ≤ fuel →
        ∃ n, altTail fuel depth first items (t :: (g ++ c :: rest)) = .ok (n, rest) ∧
          lang n = lang first + langAlt items + A) ∧
      (2 * g.length + 1 ≤ fuel →
        ∃ item r n, parseSeq fuel depth [] (g ++ c :: rest) = .ok (item, r) ∧
          altTail fuel depth item [] r = .ok (n, rest) ∧ lang n = A)

theorem complete_nil (depth : Nat) : Complete .seq depth [] 1 := by
  intro fuel acc rest hstop hfuel
  obtain ⟨f, rfl⟩ : ∃ f, fuel = f + 1 := ⟨fuel - 1, by simp at hfuel; omega⟩
  refine ⟨seqOptimize acc, ?_, by rw [lang_seqOptimize, mul_one]⟩
  rcases rest with _ | ⟨t, ts⟩
  · simp [parseSeq]
  rcases hstop with heof | ⟨hpos, hclose | hcomma⟩
  · simp [parseSeq, heof]
  · simp [parseSeq, hclose, hpos]
  · simp [parseSeq, hcomma, hpos]

theorem complete_text {depth : Nat} {t : Token} {rest : List Token} {L : Language Char}
    (ht : t.tType = .tokText) (ih : Complete .seq depth rest L) :
    Complete .seq depth (t :: rest) ({t.text} * L) := by
  intro fuel acc rest' hstop hfuel
  obtain ⟨f, rfl⟩ : ∃ f, fuel = f + 1 := ⟨fuel - 1, by simp at hfuel; omega⟩
  obtain ⟨n, hn, hlang⟩ := ih f (acc ++ [.literal t.text]) rest' hstop (by simp at hfuel; omega)
  refine ⟨n, by simpa [parseSeq, ht] using hn, ?_⟩
  rw [hlang, langSeq_append_singleton, lang_literal, mul_assoc]

theorem complete_comma {t : Token} {rest : List Token} {L : Language Char}
    (ht : t.tType = .tokComma) (ih : Complete .seq 0 rest L) :
    Complete .seq 0 (t :: rest) ({[',']} * L) := by
  intro fuel acc rest' hstop hfuel
  obtain ⟨f, rfl⟩ : ∃ f, fuel = f + 1 := ⟨fuel - 1, by simp at hfuel; omega⟩
  obtain ⟨n, hn, hlang⟩ := ih f (acc ++ [.literal [',']]) rest' hstop (by simp at hfuel; omega)
  refine ⟨n, by simpa [parseSeq, ht] using hn, ?_⟩
  rw [hlang, langSeq_append_singleton, lang_literal, mul_assoc]

theorem complete_group {depth : Nat} {o c : Token} {g rest : List Token} {A L : Language Char}
    (ho : o.tType = .tokBraceOpen) (hc : c.tType = .tokBraceClose)
    (hdepth : depth + 1 < maxExpandedPatterns) (ihg : Complete .alt (depth + 1) g A)
    (ihrest : Complete .seq depth rest L) :
    Complete .seq depth (o :: g ++ c :: rest) (A * L) := by
  intro fuel acc rest' hstop hfuel
  obtain ⟨f, rfl⟩ : ∃ f, fuel = f + 1 := ⟨fuel - 1, by simp at hfuel; omega⟩
  obtain ⟨f', rfl⟩ : ∃ f', f = f' + 1 := ⟨f - 1, by simp at hfuel; omega⟩
  simp only [List.length_cons, List.length_append] at hfuel
  obtain ⟨item, r, inner, hitem, htail, hinner⟩ :=
    (ihg (Nat.succ_pos depth) f' c (rest ++ rest') hc).2 (by omega)
  have halt : parseAlt (f' + 1) depth (o :: (g ++ c :: (rest ++ rest'))) = .ok (inner, rest ++ rest') := by
    simp only [parseAlt, ho, ne_eq, not_true_eq_false, if_false, hitem]
    rw [if_neg (by omega)]
    exact htail
  obtain ⟨n, hn, hlang⟩ := ihrest (f' + 1) (acc ++ [inner]) rest' hstop (by omega)
  refine ⟨n, ?_, ?_⟩
  · rw [List.append_assoc, List.cons_append, List.cons_append, parseSeq_braceOpen ho halt]
    exact hn
  · rw [hlang, langSeq_append_singleton, hinner, mul_assoc]

theorem complete_one {depth : Nat} {s : List Token} {L : Language Char}
    (ih : Complete .seq depth s L) : Complete .alt depth s L := by
  intro hpos fuel c rest hc
  have hstop : Stop depth (c :: rest) := .inr ⟨hpos, .inl hc⟩
  constructor
  · intro first items t ht hfuel
    obtain ⟨f, rfl⟩ : ∃ f, fuel = f + 1 := ⟨fuel - 1, by omega⟩
    obtain ⟨item, hitem, hlang⟩ := ih f [] (c :: rest) hstop (by omega)
    obtain ⟨f', rfl⟩ : ∃ f', f = f' + 1 := ⟨f - 1, by omega⟩
    refine ⟨altOptimize first (items ++ [item]), ?_, ?_⟩
    · simp [altTail, ht, hitem, hc]
    · rw [lang_altOptimize, langAlt_append_singleton, hlang, langSeq_nil, one_mul]
      simp only [add_assoc]
  · intro hfuel
    obtain ⟨item, hitem, hlang⟩ := ih fuel [] (c :: rest) hstop hfuel
    obtain ⟨f, rfl⟩ : ∃ f, fuel = f + 1 := ⟨fuel - 1, by omega⟩
    refine ⟨item, c :: rest, altOptimize item [], hitem, by simp [altTail, hc], ?_⟩
    rw [lang_altOptimize, hlang, langSeq_nil, one_mul, langAlt_nil, add_zero]

theorem complete_alt {depth : Nat} {s g : List Token} {t : Token} {L A : Language Char}
    (ihs : Complete .seq depth s L) (ht : t.tType = .tokComma) (ihg : Complete .alt depth g A) :
    Complete .alt depth (s ++ t :: g) (L + A) := by
  intro hpos fuel c rest hc
  have hstop : Stop depth (t :: (g ++ c :: rest)) := .inr ⟨hpos, .inr ht⟩
  have hg := ihg hpos
  simp only [List.length_append, List.length_cons] at *
  constructor
  · intro first items t' ht' hfuel
    obtain ⟨f, rfl⟩ : ∃ f, fuel = f + 1 := ⟨fuel - 1, by omega⟩
    obtain ⟨item, hitem, hlang⟩ := ihs f [] (t :: (g ++ c :: rest)) hstop (by omega)
    obtain ⟨n, hn, hlang'⟩ := (hg f c rest hc).1 first (items ++ [item]) t ht (by omega)
    refine ⟨n, ?_, ?_⟩
    · simp only [List.append_assoc, List.cons_append, altTail, ht', hitem]
      exact hn
    · rw [hlang', langAlt_append_singleton, hlang, langSeq_nil, one_mul]
      simp only [add_assoc]
  · intro hfuel
    obtain ⟨item, hitem, hlang⟩ := ihs fuel [] (t :: (g ++ c :: rest)) hstop (by omega)
    obtain ⟨n, hn, hlang'⟩ := (hg fuel c rest hc).1 item [] t ht (by omega)
    refine ⟨item, t :: (g ++ c :: rest), n, by simpa using hitem, hn, ?_⟩
    rw [hlang', hlang, langSeq_nil, one_mul, langAlt_nil, add_zero]

theorem complete {p : Part} {depth : Nat} {ts : List Token} {L : Language Char}
    (h : Derives p depth ts L) : Complete p depth ts L := by
  induction h with
  | nil depth => exact complete_nil depth
  | text ht _ ih => exact complete_text ht ih
  | comma ht _ ih => exact complete_comma ht ih
  | group ho hc hdepth _ _ ihg ihrest => exact complete_group ho hc hdepth ihg ihrest
  | one _ ih => exact complete_one ih
  | alt _ ht _ ihs ihg => exact complete_alt ihs ht ihg

theorem derives_of_parse_eq_ok {tokens : List Token} (hEOF : ∀ t ∈ tokens, t.tType ≠ .tokEOF)
    {tree : RenderNode Char} (h : Patterns.parse tokens = .ok tree) :
    Derives .seq 0 tokens (lang tree) := by
  unfold Patterns.parse at h
  split at h
  · cases h
  rename_i tree' rest hseq
  cases h
  obtain ⟨ts, L, rfl, hts, hstop, hlang⟩ := (sound _).seq hseq
  have hrest : rest = [] := by
    rcases rest with _ | ⟨t, rest⟩
    · rfl
    · rcases hstop with heof | ⟨hpos, -⟩
      · exact absurd heof (hEOF t (by simp))
      · omega
  subst hrest
  rw [hlang, langSeq_nil, one_mul, List.append_nil]
  exact hts

theorem parse_eq_ok_of_derives {tokens : List Token} {L : Language Char}
    (h : Derives .seq 0 tokens L) : ∃ tree, Patterns.parse tokens = .ok tree ∧ lang tree = L := by
  obtain ⟨n, hn, hlang⟩ := complete h (2 * tokens.length + 2) [] [] trivial (by omega)
  rw [List.append_nil] at hn
  refine ⟨n, by simp [Patterns.parse, hn], by rw [hlang, langSeq_nil, one_mul]⟩

theorem parse_accepts_iff {tokens : List Token} (hEOF : ∀ t ∈ tokens, t.tType ≠ .tokEOF) :
    (∃ tree, Patterns.parse tokens = .ok tree) ↔ ∃ L, Derives .seq 0 tokens L := by
  constructor
  · rintro ⟨tree, h⟩
    exact ⟨lang tree, derives_of_parse_eq_ok hEOF h⟩
  · rintro ⟨L, h⟩
    obtain ⟨tree, h', -⟩ := parse_eq_ok_of_derives h
    exact ⟨tree, h'⟩

theorem derives_iff_of_parse_eq_ok {tokens : List Token} (hEOF : ∀ t ∈ tokens, t.tType ≠ .tokEOF)
    {tree : RenderNode Char} (h : Patterns.parse tokens = .ok tree) (L : Language Char) :
    Derives .seq 0 tokens L ↔ L = lang tree := by
  constructor
  · intro hL
    obtain ⟨tree', h', rfl⟩ := parse_eq_ok_of_derives hL
    rw [h] at h'
    cases h'
    rfl
  · rintro rfl
    exact derives_of_parse_eq_ok hEOF h

end Snapd.Patterns
