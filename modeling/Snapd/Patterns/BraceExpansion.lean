import Snapd.Patterns.Grammar

/-! The brace grammar of path patterns on their characters, and what `scan` then `parse` do
with it. A character other than a brace, a comma, a backslash or a square bracket stands for
itself, a backslash keeps the character after it with it, a `,` outside any group is text, a
group `{...}` stands for any of its alternatives, and groups nest less than
`maxExpandedPatterns` deep. `scan` cuts a pattern of the grammar into the tokens of the token
grammar, with the same language, and keeps every character. -/

namespace Snapd.Patterns

open RenderNode

/-- A character that stands for itself in a pattern. -/
def Plain (c : Char) : Prop :=
  c ≠ '\x7b' ∧ c ≠ '\x7d' ∧ c ≠ ',' ∧ c ≠ '\\' ∧ c ≠ '[' ∧ c ≠ ']'

instance : DecidablePred Plain := fun c => by
  unfold Plain
  infer_instance

/-- `BraceDerives p depth s L`: the characters `s` are a sequence (`p = .seq`) or the
alternatives of a group (`p = .alt`) at group depth `depth`, and their brace expansion is
`L`. -/
inductive BraceDerives : Part → Nat → List Char → Language Char → Prop
  | nil (depth : Nat) : BraceDerives .seq depth [] 1
  | char {depth : Nat} {c : Char} {rest : List Char} {L : Language Char} (hc : Plain c)
      (hrest : BraceDerives .seq depth rest L) : BraceDerives .seq depth (c :: rest) ({[c]} * L)
  | escape {depth : Nat} {c : Char} {rest : List Char} {L : Language Char}
      (hrest : BraceDerives .seq depth rest L) :
      BraceDerives .seq depth ('\\' :: c :: rest) ({['\\', c]} * L)
  | comma {rest : List Char} {L : Language Char} (hrest : BraceDerives .seq 0 rest L) :
      BraceDerives .seq 0 (',' :: rest) ({[',']} * L)
  | group {depth : Nat} {g rest : List Char} {A L : Language Char}
      (hdepth : depth + 1 < maxExpandedPatterns) (hg : BraceDerives .alt (depth + 1) g A)
      (hrest : BraceDerives .seq depth rest L) :
      BraceDerives .seq depth ('\x7b' :: g ++ '\x7d' :: rest) (A * L)
  | one {depth : Nat} {s : List Char} {L : Language Char} (hs : BraceDerives .seq depth s L) :
      BraceDerives .alt depth s L
  | alt {depth : Nat} {s g : List Char} {L A : Language Char} (hs : BraceDerives .seq depth s L)
      (hg : BraceDerives .alt depth g A) : BraceDerives .alt depth (s ++ ',' :: g) (L + A)

@[simp] theorem mem_singleton_language {a x : List Char} : x ∈ ({a} : Language Char) ↔ x = a :=
  Iff.rfl

theorem singleton_mul_singleton (a b : List Char) :
    ({a} * {b} : Language Char) = {a ++ b} := by
  ext x
  simp [Language.mem_mul, eq_comm]

@[simp] theorem singleton_nil : ({[]} : Language Char) = 1 := by
  ext x
  simp [Language.mem_one]

/-- The text token `consumeText` emits for the pending runes, if any. -/
def textTok (runes : List Char) : List Token :=
  if runes = [] then [] else [⟨.tokText, runes⟩]

theorem consumeText_eq_textTok (runes : List Char) (tokens : List Token) :
    consumeText runes tokens = tokens ++ textTok runes := by
  unfold consumeText textTok
  split <;> simp

/-- The structural tokens `scan` emits for a brace or a comma. -/
def openTok : Token := ⟨.tokBraceOpen, ['\x7b']⟩

def closeTok : Token := ⟨.tokBraceClose, ['\x7d']⟩

def commaTok : Token := ⟨.tokComma, [',']⟩

theorem scanLoop_of_plain {c : Char} (hc : Plain c) (rest runes : List Char) (tokens : List Token) :
    scanLoop (c :: rest) runes tokens = scanLoop rest (runes ++ [c]) tokens := by
  obtain ⟨h1, h2, h3, h4, h5, h6⟩ := hc
  rw [scanLoop] <;> assumption

theorem scanLoop_escape (c : Char) (rest runes : List Char) (tokens : List Token) :
    scanLoop ('\\' :: c :: rest) runes tokens = scanLoop rest (runes ++ ['\\', c]) tokens := by
  simp [scanLoop]

theorem scanLoop_braceOpen (rest runes : List Char) (tokens : List Token) :
    scanLoop ('\x7b' :: rest) runes tokens =
      scanLoop rest [] (tokens ++ textTok runes ++ [openTok]) := by
  simp [scanLoop, consumeText_eq_textTok, openTok]

theorem scanLoop_braceClose (rest runes : List Char) (tokens : List Token) :
    scanLoop ('\x7d' :: rest) runes tokens =
      scanLoop rest [] (tokens ++ textTok runes ++ [closeTok]) := by
  simp [scanLoop, consumeText_eq_textTok, closeTok]

theorem scanLoop_comma (rest runes : List Char) (tokens : List Token) :
    scanLoop (',' :: rest) runes tokens =
      scanLoop rest [] (tokens ++ textTok runes ++ [commaTok]) := by
  simp [scanLoop, consumeText_eq_textTok, commaTok]

theorem derives_textTok (runes : List Char) {depth : Nat} {rest : List Token} {L : Language Char}
    (h : Derives .seq depth rest L) : Derives .seq depth (textTok runes ++ rest) ({runes} * L) := by
  unfold textTok
  split
  · subst runes
    simpa using h
  · exact Derives.text rfl h

/-- What `scan` does with the characters of a derivation. A sequence, scanned with pending runes
`runes` and with any characters after it, emits tokens that with the runes still pending derive
`{runes} * L`; the alternatives of a group, scanned up to the group's `}`, emit the tokens of
a derivation of the same language and the `}`. -/
def ScanDerives : Part → Nat → List Char → Language Char → Prop
  | .seq, depth, s, L => ∀ (runes rest : List Char) (tokens : List Token), ∃ T runes',
      scanLoop (s ++ rest) runes tokens = scanLoop rest runes' (tokens ++ T) ∧
      Derives .seq depth (T ++ textTok runes') ({runes} * L)
  | .alt, depth, g, A => ∀ (rest : List Char) (tokens : List Token), ∃ G,
      scanLoop (g ++ '\x7d' :: rest) [] tokens = scanLoop rest [] (tokens ++ G ++ [closeTok]) ∧
      Derives .alt depth G A

theorem scanDerives_nil (depth : Nat) : ScanDerives .seq depth [] 1 := by
  intro runes rest tokens
  refine ⟨[], runes, by simp, ?_⟩
  simpa using derives_textTok runes (Derives.nil depth)

theorem scanDerives_char {depth : Nat} {c : Char} {rest : List Char} {L : Language Char}
    (hc : Plain c) (ih : ScanDerives .seq depth rest L) :
    ScanDerives .seq depth (c :: rest) ({[c]} * L) := by
  intro runes after tokens
  obtain ⟨T, runes', hscan, hder⟩ := ih (runes ++ [c]) after tokens
  refine ⟨T, runes', ?_, ?_⟩
  · rw [List.cons_append, scanLoop_of_plain hc, hscan]
  · rwa [← mul_assoc, singleton_mul_singleton]

theorem scanDerives_escape {depth : Nat} {c : Char} {rest : List Char} {L : Language Char}
    (ih : ScanDerives .seq depth rest L) :
    ScanDerives .seq depth ('\\' :: c :: rest) ({['\\', c]} * L) := by
  intro runes after tokens
  obtain ⟨T, runes', hscan, hder⟩ := ih (runes ++ ['\\', c]) after tokens
  refine ⟨T, runes', ?_, ?_⟩
  · rw [List.cons_append, List.cons_append, scanLoop_escape, hscan]
  · rwa [← mul_assoc, singleton_mul_singleton]

theorem scanDerives_comma {rest : List Char} {L : Language Char} (ih : ScanDerives .seq 0 rest L) :
    ScanDerives .seq 0 (',' :: rest) ({[',']} * L) := by
  intro runes after tokens
  obtain ⟨T, runes', hscan, hder⟩ := ih [] after (tokens ++ textTok runes ++ [commaTok])
  refine ⟨textTok runes ++ commaTok :: T, runes', ?_, ?_⟩
  · rw [List.cons_append, scanLoop_comma, hscan]
    simp
  · rw [singleton_nil, one_mul] at hder
    rw [List.append_assoc, List.cons_append]
    exact derives_textTok runes (Derives.comma rfl hder)

theorem scanDerives_group {depth : Nat} {g rest : List Char} {A L : Language Char}
    (ihg : ScanDerives .alt (depth + 1) g A) (hdepth : depth + 1 < maxExpandedPatterns)
    (ihrest : ScanDerives .seq depth rest L) :
    ScanDerives .seq depth ('\x7b' :: g ++ '\x7d' :: rest) (A * L) := by
  intro runes after tokens
  obtain ⟨G, hscang, hderg⟩ := ihg (rest ++ after) (tokens ++ textTok runes ++ [openTok])
  obtain ⟨T, runes', hscan, hder⟩ := ihrest [] after (tokens ++ textTok runes ++ [openTok] ++ G ++ [closeTok])
  refine ⟨textTok runes ++ openTok :: G ++ closeTok :: T, runes', ?_, ?_⟩
  · have hchars : ('\x7b' :: g ++ '\x7d' :: rest) ++ after =
        '\x7b' :: (g ++ '\x7d' :: (rest ++ after)) := by simp
    rw [hchars, scanLoop_braceOpen, hscang, hscan]
    simp
  · rw [singleton_nil, one_mul] at hder
    have hseq := Derives.group (o := openTok) (c := closeTok) rfl rfl hdepth hderg hder
    simpa [List.append_assoc] using derives_textTok runes hseq

theorem scanDerives_one {depth : Nat} {s : List Char} {L : Language Char}
    (ih : ScanDerives .seq depth s L) : ScanDerives .alt depth s L := by
  intro after tokens
  obtain ⟨T, runes', hscan, hder⟩ := ih [] ('\x7d' :: after) tokens
  refine ⟨T ++ textTok runes', ?_, ?_⟩
  · rw [hscan, scanLoop_braceClose]
    simp
  · rw [singleton_nil, one_mul] at hder
    exact Derives.one hder

theorem scanDerives_alt {depth : Nat} {s g : List Char} {L A : Language Char}
    (ihs : ScanDerives .seq depth s L) (ihg : ScanDerives .alt depth g A) :
    ScanDerives .alt depth (s ++ ',' :: g) (L + A) := by
  intro after tokens
  obtain ⟨T, runes', hscan, hder⟩ := ihs [] (',' :: (g ++ '\x7d' :: after)) tokens
  obtain ⟨G, hscang, hderg⟩ := ihg after (tokens ++ T ++ textTok runes' ++ [commaTok])
  refine ⟨T ++ textTok runes' ++ commaTok :: G, ?_, ?_⟩
  · rw [List.append_assoc, List.cons_append, hscan, scanLoop_comma, hscang]
    simp
  · rw [singleton_nil, one_mul] at hder
    simpa [List.append_assoc] using Derives.alt hder (t := commaTok) rfl hderg

theorem scanDerives {p : Part} {depth : Nat} {s : List Char} {L : Language Char}
    (h : BraceDerives p depth s L) : ScanDerives p depth s L := by
  induction h with
  | nil depth => exact scanDerives_nil depth
  | char hc _ ih => exact scanDerives_char hc ih
  | escape _ ih => exact scanDerives_escape ih
  | comma _ ih => exact scanDerives_comma ih
  | group hdepth _ _ ihg ihrest => exact scanDerives_group ihg hdepth ihrest
  | one _ ih => exact scanDerives_one ih
  | alt _ _ ihs ihg => exact scanDerives_alt ihs ihg

theorem scanLoop_of_braceDerives {s : List Char} {L : Language Char}
    (h : BraceDerives .seq 0 s L) : ∃ tokens, scanLoop s [] [] = .ok tokens ∧ Derives .seq 0 tokens L := by
  obtain ⟨T, runes', hscan, hder⟩ := scanDerives h [] [] []
  refine ⟨T ++ textTok runes', ?_, by simpa using hder⟩
  rw [← List.append_nil s, hscan]
  simp [scanLoop, consumeText_eq_textTok]

/-- A run of characters that `scan` keeps in one text token: plain characters and escaped
pairs. -/
inductive LitRun : List Char → Prop
  | nil : LitRun []
  | plain {c : Char} {w : List Char} (hc : Plain c) (hw : LitRun w) : LitRun (c :: w)
  | escape {c : Char} {w : List Char} (hw : LitRun w) : LitRun ('\\' :: c :: w)

theorem LitRun.append {u w : List Char} (hu : LitRun u) (hw : LitRun w) : LitRun (u ++ w) := by
  induction hu with
  | nil => exact hw
  | plain hc _ ih => exact LitRun.plain hc ih
  | escape _ ih => exact LitRun.escape ih

/-- The tokens `scan` emits: the text of a run of plain characters and escaped pairs, or a
brace or a comma with its own character. -/
def TokenWF (t : Token) : Prop :=
  (t.tType = .tokText ∧ LitRun t.text) ∨ t = openTok ∨ t = closeTok ∨ t = commaTok

theorem TokenWF.litRun {t : Token} (h : TokenWF t) (ht : t.tType = .tokText) : LitRun t.text := by
  rcases h with ⟨_, h⟩ | rfl | rfl | rfl
  · exact h
  all_goals simp [openTok, closeTok, commaTok] at ht

/-- The character of a structural token. -/
def TokenType.char : TokenType → Char
  | .tokBraceOpen => '\x7b'
  | .tokBraceClose => '\x7d'
  | _ => ','

theorem TokenWF.text_eq {t : Token} (h : TokenWF t) (ht : t.tType ≠ .tokText) :
    t.text = [t.tType.char] := by
  rcases h with ⟨h, _⟩ | rfl | rfl | rfl
  · exact absurd h ht
  all_goals rfl

theorem textTok_flatMap (runes : List Char) : (textTok runes).flatMap Token.text = runes := by
  unfold textTok
  split <;> simp_all

theorem textTok_wf {runes : List Char} (h : LitRun runes) : ∀ t ∈ textTok runes, TokenWF t := by
  unfold textTok
  split
  · simp
  · intro t ht
    rw [List.mem_singleton] at ht
    subst ht
    exact .inl ⟨rfl, h⟩

/-- One step of `scan` at a brace or a comma: the pending runes are flushed, then the token
follows. -/
theorem flush_spec {runes rest : List Char} {tokens T : List Token} {tok : Token}
    (htok : TokenWF tok) (hr : LitRun runes) (hwf : ∀ t ∈ T, TokenWF t)
    (htext : T.flatMap Token.text = [] ++ rest) :
    ∃ T', consumeText runes tokens ++ [tok] ++ T = tokens ++ T' ∧ (∀ t ∈ T', TokenWF t) ∧
      T'.flatMap Token.text = runes ++ (tok.text ++ rest) := by
  refine ⟨textTok runes ++ tok :: T, by simp [consumeText_eq_textTok], ?_, ?_⟩
  · intro t ht
    simp only [List.mem_append, List.mem_cons] at ht
    rcases ht with ht | rfl | ht
    · exact textTok_wf hr t ht
    · exact htok
    · exact hwf t ht
  · simp [textTok_flatMap, htext]

/-- `scan` keeps every character: the tokens it emits after the ones it started with spell out
the pending runes and the rest of the text, each of them well formed. -/
theorem scanLoop_eq_ok {s runes : List Char} {tokens out : List Token}
    (h : scanLoop s runes tokens = .ok out) (hr : LitRun runes) :
    ∃ T, out = tokens ++ T ∧ (∀ t ∈ T, TokenWF t) ∧ T.flatMap Token.text = runes ++ s := by
  -- the induction follows the branches of the rune loop
  induction s, runes, tokens using scanLoop.induct generalizing out with
  | case1 runes tokens =>
    simp only [scanLoop, consumeText_eq_textTok, Except.ok.injEq] at h
    exact ⟨textTok runes, h.symm, textTok_wf hr, by simp [textTok_flatMap]⟩
  | case2 rest runes tokens ih =>
    rw [scanLoop] at h
    obtain ⟨T, rfl, hwf, htext⟩ := ih h LitRun.nil
    exact flush_spec (show TokenWF openTok from .inr (.inl rfl)) hr hwf htext
  | case3 rest runes tokens ih =>
    rw [scanLoop] at h
    obtain ⟨T, rfl, hwf, htext⟩ := ih h LitRun.nil
    exact flush_spec (show TokenWF closeTok from .inr (.inr (.inl rfl))) hr hwf htext
  | case4 rest runes tokens ih =>
    rw [scanLoop] at h
    obtain ⟨T, rfl, hwf, htext⟩ := ih h LitRun.nil
    exact flush_spec (show TokenWF commaTok from .inr (.inr (.inr rfl))) hr hwf htext
  | case5 runes tokens => simp [scanLoop] at h
  | case6 runes tokens r2 rest' ih =>
    rw [scanLoop] at h
    obtain ⟨T, rfl, hwf, htext⟩ := ih h (hr.append (.escape .nil))
    exact ⟨T, rfl, hwf, by simp [htext]⟩
  | case7 rest runes tokens => simp [scanLoop] at h
  | case8 rest runes tokens => simp [scanLoop] at h
  | case9 r rest runes tokens h1 h2 h3 h4 h5 h6 ih =>
    have hc : Plain r := ⟨h1, h2, h3, h4, h5, h6⟩
    rw [scanLoop_of_plain hc] at h
    obtain ⟨T, rfl, hwf, htext⟩ := ih h (hr.append (.plain hc .nil))
    exact ⟨T, rfl, hwf, by simp [htext]⟩

theorem braceDerives_litRun {depth : Nat} {w rest : List Char} {L : Language Char}
    (hw : LitRun w) (h : BraceDerives .seq depth rest L) :
    BraceDerives .seq depth (w ++ rest) ({w} * L) := by
  induction hw with
  | nil => simpa using h
  | plain hc _ ih =>
    have hchar := BraceDerives.char hc ih
    rwa [← mul_assoc, singleton_mul_singleton] at hchar
  | @escape c w _ ih =>
    have hesc := BraceDerives.escape (c := c) ih
    rwa [← mul_assoc, singleton_mul_singleton] at hesc

/-- Well-formed tokens of the token grammar spell out a pattern of the brace grammar with the
same language. -/
theorem braceDerives_of_derives {p : Part} {depth : Nat} {T : List Token} {L : Language Char}
    (h : Derives p depth T L) (hwf : ∀ t ∈ T, TokenWF t) :
    BraceDerives p depth (T.flatMap Token.text) L := by
  induction h with
  | nil depth => exact BraceDerives.nil depth
  | @text depth t rest L ht _ ih =>
    rw [List.flatMap_cons]
    exact braceDerives_litRun ((hwf t (by simp)).litRun ht) (ih fun x hx => hwf x (by simp [hx]))
  | @comma t rest L ht _ ih =>
    have htext := (hwf t (by simp)).text_eq (by simp [ht])
    rw [ht] at htext
    rw [List.flatMap_cons, htext]
    exact BraceDerives.comma (ih fun x hx => hwf x (by simp [hx]))
  | @group depth o c g rest A L ho hc hdepth _ _ ihg ihrest =>
    have hotext := (hwf o (by simp)).text_eq (by simp [ho])
    have hctext := (hwf c (by simp)).text_eq (by simp [hc])
    rw [ho] at hotext
    rw [hc] at hctext
    have hgroup := BraceDerives.group hdepth (ihg fun x hx => hwf x (by simp [hx]))
      (ihrest fun x hx => hwf x (by simp [hx]))
    simpa [List.flatMap_append, hotext, hctext, TokenType.char] using hgroup
  | one _ ih => exact BraceDerives.one (ih hwf)
  | @alt depth s g t L A _ ht _ ihs ihg =>
    have httext := (hwf t (by simp)).text_eq (by simp [ht])
    rw [ht] at httext
    have halt := BraceDerives.alt (ihs fun x hx => hwf x (by simp [hx]))
      (ihg fun x hx => hwf x (by simp [hx]))
    simpa [List.flatMap_append, httext, TokenType.char] using halt

theorem TokenWF.tType_ne_eof {t : Token} (h : TokenWF t) : t.tType ≠ .tokEOF := by
  rcases h with ⟨h, _⟩ | rfl | rfl | rfl
  · simp [h]
  all_goals simp [openTok, closeTok, commaTok]

theorem scan_eq_ok_iff {s : List Char} {tokens : List Token} :
    scan s = .ok tokens ↔
      s ≠ [] ∧ s.head? = some '/' ∧ ¬ RelativeSegment s ∧ scanLoop s [] [] = .ok tokens := by
  rw [← relpathFinderMatch_eq_true_iff]
  unfold scan
  split_ifs <;> simp_all

theorem scan_eq_ok_spec {s : List Char} {tokens : List Token} (h : scan s = .ok tokens) :
    (∀ t ∈ tokens, TokenWF t) ∧ tokens.flatMap Token.text = s := by
  obtain ⟨-, -, -, hloop⟩ := scan_eq_ok_iff.mp h
  obtain ⟨T, rfl, hwf, htext⟩ := scanLoop_eq_ok hloop LitRun.nil
  exact ⟨by simpa using hwf, by simpa using htext⟩

theorem derives_of_scan_eq_ok {s : List Char} {tokens : List Token} {L : Language Char}
    (h : scan s = .ok tokens) : Derives .seq 0 tokens L ↔ BraceDerives .seq 0 s L := by
  obtain ⟨hwf, htext⟩ := scan_eq_ok_spec h
  constructor
  · intro hL
    rw [← htext]
    exact braceDerives_of_derives hL hwf
  · intro hL
    obtain ⟨tokens', hloop, hder⟩ := scanLoop_of_braceDerives hL
    obtain ⟨-, -, -, hloop'⟩ := scan_eq_ok_iff.mp h
    rw [hloop'] at hloop
    cases hloop
    exact hder

/-- `scan` then `parse` accept exactly the patterns of the brace grammar that start with `/` and
have no relative segment, the tree they build expands to the brace expansion of the pattern,
and neither optimiser changes the strings a tree stands for. -/
theorem scan_parse_brace_grammar :
    (∀ s : List Char, (∃ tokens tree, scan s = .ok tokens ∧ Patterns.parse tokens = .ok tree) ↔
      s ≠ [] ∧ s.head? = some '/' ∧ ¬ RelativeSegment s ∧ ∃ L, BraceDerives .seq 0 s L) ∧
    (∀ (s : List Char) (tokens : List Token) (tree : RenderNode Char),
      scan s = .ok tokens → Patterns.parse tokens = .ok tree →
        ∀ L, BraceDerives .seq 0 s L ↔ L = lang tree) ∧
    (∀ items : List (RenderNode Char), lang (seqOptimize items) = lang (.seq items)) ∧
    (∀ (first : RenderNode Char) (rest : List (RenderNode Char)),
      lang (altOptimize first rest) = lang (.alt first rest)) := by
  refine ⟨fun s => ?_, ?_, fun items => ?_, fun first rest => ?_⟩
  · constructor
    · rintro ⟨tokens, tree, hscan, hparse⟩
      obtain ⟨hne, hhead, hrel, -⟩ := scan_eq_ok_iff.mp hscan
      have hEOF := fun t ht => ((scan_eq_ok_spec hscan).1 t ht).tType_ne_eof
      obtain ⟨L, hL⟩ := (parse_accepts_iff hEOF).mp ⟨tree, hparse⟩
      exact ⟨hne, hhead, hrel, L, (derives_of_scan_eq_ok hscan).mp hL⟩
    · rintro ⟨hne, hhead, hrel, L, hL⟩
      obtain ⟨tokens, hloop, hder⟩ := scanLoop_of_braceDerives hL
      obtain ⟨tree, hparse, -⟩ := parse_eq_ok_of_derives hder
      exact ⟨tokens, tree, scan_eq_ok_iff.mpr ⟨hne, hhead, hrel, hloop⟩, hparse⟩
  · intro s tokens tree hscan hparse L
    have hEOF := fun t ht => ((scan_eq_ok_spec hscan).1 t ht).tType_ne_eof
    rw [← derives_of_scan_eq_ok hscan]
    exact derives_iff_of_parse_eq_ok hEOF hparse L
  · ext x
    simp [lang_seqOptimize, expand]
  · ext x
    rw [mem_lang, mem_lang, mem_expand_altOptimize]

/-- `/{a,b}` is a pattern of the grammar, so `scan` and `parse` accept it. -/
theorem scan_parse_brace_grammar_on_group :
    ∃ tokens tree, scan ['/', '\x7b', 'a', ',', 'b', '\x7d'] = .ok tokens ∧
      Patterns.parse tokens = .ok tree := by
  have hgroup : BraceDerives .alt 1 ['a', ',', 'b'] ({['a']} * 1 + {['b']} * 1) :=
    @BraceDerives.alt 1 ['a'] ['b'] _ _ (.char (by decide) (.nil 1)) (.one (.char (by decide) (.nil 1)))
  have hpattern := BraceDerives.char (by decide : Plain '/')
    (@BraceDerives.group 0 ['a', ',', 'b'] [] _ _ (by decide) hgroup (.nil 0))
  refine (scan_parse_brace_grammar.1 _).mpr ⟨by simp, rfl, ?_, _, hpattern⟩
  rw [← relpathFinderMatch_eq_true_iff]
  decide

/-- A `}` with no group to close meets every other condition on a pattern and passes `scan`,
but `parse` rejects it. -/
theorem scan_parse_rejects_unmatched_close :
    ['/', 'a', '\x7d'] ≠ [] ∧ ['/', 'a', '\x7d'].head? = some '/' ∧
    ¬ RelativeSegment ['/', 'a', '\x7d'] ∧
    '[' ∉ ['/', 'a', '\x7d'] ∧ ']' ∉ ['/', 'a', '\x7d'] ∧ '\\' ∉ ['/', 'a', '\x7d'] ∧
    '\x7b' ∉ ['/', 'a', '\x7d'] ∧
    scan ['/', 'a', '\x7d'] = .ok [⟨.tokText, ['/', 'a']⟩, closeTok] ∧
    Patterns.parse [⟨.tokText, ['/', 'a']⟩, closeTok] = .error "unmatched '\x7d' character" := by
  refine ⟨by simp, rfl, ?_, by decide, by decide, by decide, by decide, by decide, by decide⟩
  rw [← relpathFinderMatch_eq_true_iff]
  decide

end Snapd.Patterns
