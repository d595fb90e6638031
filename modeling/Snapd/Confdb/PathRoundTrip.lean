import Snapd.Confdb.Path
import Snapd.Lib.Run

/-! Confdb paths read back. `JoinAccessors` writes an accessor after a dot unless it opens a
bracket; `splitViewPath` ends a subkey at a dot and at a bracket, and puts the bracket into the
next subkey. So writing the subkeys of a parsed path back, each after its separator, gives the
path again; and a path that `JoinAccessors` wrote is cut into the accessors' own texts, which
the four regular expressions classify back into the accessors. -/

namespace Snapd.Confdb.Path

variable {opts : ParseOptions}

theorem splitLoop_nil (fuel : Nat) (st : SplitState) :
    splitLoop opts fuel st [] = splitEnd opts st := by
  cases fuel <;> rfl

theorem splitLoop_dot (fuel : Nat) (st : SplitState) (rest : List Char) :
    splitLoop opts (fuel + 1) st ('.' :: rest) = (do
      let st ← finishSubkey opts st
      splitLoop opts fuel st rest) := rfl

theorem splitLoop_bracket (fuel : Nat) (st : SplitState) {c : Char} (rest : List Char)
    (hc : c ≠ '.') :
    splitLoop opts (fuel + 1) st ('[' :: c :: rest) = (do
      let st ← finishSubkey opts st
      let st ← writeRune st '['
      splitLoop opts fuel st (c :: rest)) := by
  rw [splitLoop.eq_def]
  simp only

theorem splitLoop_other (fuel : Nat) (st : SplitState) {c : Char} (rest : List Char)
    (hdot : c ≠ '.') (hbr : c ≠ '[') :
    splitLoop opts (fuel + 1) st (c :: rest) = (do
      let st ← writeRune st c
      splitLoop opts fuel st rest) := by
  rw [splitLoop.eq_def]
  simp only

theorem finishSubkey_of_ne_nil (st : SplitState) (h : st.sb ≠ []) :
    finishSubkey opts st = .ok ⟨st.subkeys ++ [⟨st.sb, st.rawFilters⟩], [], false, []⟩ := by
  simp [finishSubkey, h]

theorem writeRune_of_not_expect {st : SplitState} (h : st.expectFilterOrEnd = false) (c : Char) :
    writeRune st c = .ok { st with sb := st.sb ++ [c] } := by
  simp [writeRune, h]

/-- The separator `JoinAccessors` writes before a subkey: none before one that opens a bracket. -/
def sepBefore (k : List Char) : List Char := if k.head? = some '[' then [] else ['.']

/-- Subkeys written back as one path, each after the first behind its separator. -/
def joinKeys : List (List Char) → List Char
  | [] => []
  | k :: ks => k ++ ks.flatMap fun k => sepBefore k ++ k

theorem joinKeys_append_singleton (ks : List (List Char)) (k : List Char) :
    joinKeys (ks ++ [k]) = joinKeys ks ++ if ks = [] then k else sepBefore k ++ k := by
  cases ks with
  | nil => simp [joinKeys]
  | cons k' ks => simp [joinKeys]

theorem sepBefore_append_singleton {k : List Char} {c : Char} (h : k ≠ [] ∨ c ≠ '[') :
    sepBefore (k ++ [c]) = sepBefore k := by
  cases k with
  | nil =>
    have hc : c ≠ '[' := by simpa using h
    simp [sepBefore, hc]
  | cons x k => simp [sepBefore]

/-- The chunk of path `JoinAccessors` writes for an accessor after the first. -/
def chunk (a : Accessor) : List Char :=
  (if dotPrecedesAccessorType a then ['.'] else []) ++ a.access

theorem joinAccessors_cons (a : Accessor) (as : List Accessor) :
    joinAccessors (a :: as) = a.access ++ as.flatMap chunk := by
  have htail : ((as.zipIdx 1).map fun x =>
      (if dotPrecedesAccessorType x.1 && x.2 != 0 then ['.'] else []) ++ x.1.access) =
      as.map chunk := by
    conv_rhs => rw [← List.zipIdx_map_fst 1 as, List.map_map]
    apply List.map_congr_left
    intro x hx
    have hpos : 1 ≤ x.2 := (List.mem_zipIdx (x := x.1) (i := x.2) hx).1
    have hne : (x.2 != 0) = true := by simp only [bne_iff_ne]; omega
    simp [chunk, hne]
  rw [joinAccessors, List.zipIdx_cons, List.map_cons, htail, List.flatten_cons, List.flatMap_def]
  simp

/-- A map key written as a path does not open a bracket. -/
def Accessor.KeyNotBracketed (a : Accessor) : Prop := a.type = .mapKey → a.name.head? ≠ some '['

theorem sepBefore_access {a : Accessor} (h : a.KeyNotBracketed) :
    sepBefore a.access = if dotPrecedesAccessorType a then ['.'] else [] := by
  obtain ⟨type, name, filters⟩ := a
  cases type with
  | mapKey =>
    have hname : name.head? ≠ some '[' := h rfl
    simp [sepBefore, Accessor.access, dotPrecedesAccessorType, hname]
  | listIndex => simp [sepBefore, Accessor.access, dotPrecedesAccessorType]
  | keyPlaceholder => simp [sepBefore, Accessor.access, dotPrecedesAccessorType]
  | indexPlaceholder => simp [sepBefore, Accessor.access, dotPrecedesAccessorType]

theorem joinAccessors_eq_joinKeys {parts : List Accessor} (h : ∀ a ∈ parts, a.KeyNotBracketed) :
    joinAccessors parts = joinKeys (parts.map Accessor.access) := by
  cases parts with
  | nil => rfl
  | cons a as =>
    rw [joinAccessors_cons, List.map_cons, joinKeys, List.flatMap_map]
    congr 1
    apply List.flatMap_congr
    intro b hb
    rw [chunk, sepBefore_access (h b (List.mem_cons_of_mem a hb))]

/-- The loop's state after reading `consumed` of a path without field filters, in a parse that is
not of a suffix: the subkeys written back, then the current subkey after its separator, give
back what was read. -/
structure SplitInv (st : SplitState) (consumed : List Char) : Prop where
  rawFilters : st.rawFilters = []
  expect : st.expectFilterOrEnd = false
  filters : ∀ sk ∈ st.subkeys, sk.filters = []
  read : consumed = joinKeys (st.subkeys.map SubKey.key) ++
    if st.subkeys = [] then st.sb else sepBefore st.sb ++ st.sb

theorem splitInv_init : SplitInv ⟨[], [], false, []⟩ [] :=
  ⟨rfl, rfl, by simp, rfl⟩

section Read

variable (hsuffix : opts.allowPathSuffix = false)
include hsuffix

theorem SplitInv.finish {st st' : SplitState} {consumed : List Char} (hinv : SplitInv st consumed)
    (h : finishSubkey opts st = .ok st') :
    st' = ⟨st.subkeys ++ [⟨st.sb, []⟩], [], false, []⟩ ∧
      joinKeys (st'.subkeys.map SubKey.key) = consumed ∧ ∀ sk ∈ st'.subkeys, sk.filters = [] := by
  have hsb : st.sb ≠ [] := by
    intro hsb
    simp [finishSubkey, hsb, hsuffix] at h
  rw [finishSubkey_of_ne_nil st hsb, hinv.rawFilters] at h
  cases h
  refine ⟨rfl, ?_, ?_⟩
  · simp only [List.map_append, List.map_cons, List.map_nil]
    rw [joinKeys_append_singleton, hinv.read]
    simp
  · intro sk hsk
    rcases List.mem_append.mp hsk with hsk | hsk
    · exact hinv.filters sk hsk
    · rw [List.mem_singleton.mp hsk]

theorem splitLoop_read (rest : List Char) :
    ∀ {fuel : Nat} {st : SplitState} {consumed : List Char} {subkeys : List SubKey},
      SplitInv st consumed → rest.length ≤ fuel → ¬['[', '.'] <:+: rest →
      splitLoop opts fuel st rest = .ok subkeys →
      (∀ sk ∈ subkeys, sk.filters = []) ∧
        joinKeys (subkeys.map SubKey.key) = consumed ++ rest := by
  induction rest with
  | nil =>
    intro fuel st consumed subkeys hinv _ _ h
    rw [splitLoop_nil, splitEnd] at h
    obtain ⟨st', hfinish, hst'⟩ := Run.bind_eq_ok.mp h
    obtain ⟨-, hjoin, hfilters⟩ := hinv.finish hsuffix hfinish
    cases hst'
    exact ⟨hfilters, by simpa using hjoin⟩
  | cons c rest ih =>
    intro fuel st consumed subkeys hinv hfuel hno h
    obtain ⟨fuel, rfl⟩ : ∃ f, fuel = f + 1 := ⟨fuel - 1, by simp at hfuel; omega⟩
    have hno' : ¬['[', '.'] <:+: rest := fun hin => hno (List.infix_cons hin)
    have hlen : rest.length ≤ fuel := by simp at hfuel; omega
    by_cases hdot : c = '.'
    · -- a dot ends the subkey
      subst hdot
      rw [splitLoop_dot] at h
      obtain ⟨st', hfinish, h⟩ := Run.bind_eq_ok.mp h
      obtain ⟨rfl, hjoin, hfilters⟩ := hinv.finish hsuffix hfinish
      have hinv' : SplitInv ⟨st.subkeys ++ [⟨st.sb, []⟩], [], false, []⟩ (consumed ++ ['.']) :=
        ⟨rfl, rfl, hfilters, by simp [← hjoin, sepBefore]⟩
      simpa using ih hinv' hlen hno' h
    by_cases hbr : c = '['
    · -- a bracket ends the subkey and starts the next one
      subst hbr
      cases rest with
      | nil => simp [splitLoop] at h
      | cons c' rest =>
        have hc' : c' ≠ '.' := by
          rintro rfl
          exact hno (List.infix_refl _ |>.trans (List.prefix_append _ _).isInfix)
        rw [splitLoop_bracket fuel st rest hc'] at h
        obtain ⟨st', hfinish, h⟩ := Run.bind_eq_ok.mp h
        obtain ⟨rfl, hjoin, hfilters⟩ := hinv.finish hsuffix hfinish
        rw [writeRune_of_not_expect rfl] at h
        have hinv' : SplitInv ⟨st.subkeys ++ [⟨st.sb, []⟩], [], false, ['[']⟩
            (consumed ++ ['[']) :=
          ⟨rfl, rfl, hfilters, by simp [← hjoin, sepBefore]⟩
        simpa using ih hinv' hlen hno' h
    · rw [splitLoop_other fuel st rest hdot hbr, writeRune_of_not_expect hinv.expect] at h
      have hinv' : SplitInv { st with sb := st.sb ++ [c] } (consumed ++ [c]) := by
        refine ⟨hinv.rawFilters, hinv.expect, hinv.filters, ?_⟩
        have hsep : sepBefore (st.sb ++ [c]) = sepBefore st.sb := by
          by_cases hsb : st.sb = []
          · exact sepBefore_append_singleton (.inr hbr)
          · exact sepBefore_append_singleton (.inl hsb)
        rw [hinv.read]
        split <;> simp [hsep]
      simpa using ih hinv' hlen hno' h

end Read

theorem slice_wrap₁ (x y : Char) (d : List Char) :
    slice (x :: d ++ [y]) 1 ((x :: d ++ [y]).length - 1) = d := by
  simp [slice]

theorem slice_wrap₂ (x x' y y' : Char) (d : List Char) :
    slice (x :: x' :: d ++ [y, y']) 2 ((x :: x' :: d ++ [y, y']).length - 2) = d := by
  simp [slice]

theorem validSubkey_cons_eq_false {c : Char} (hc : c.isLower = false) (t : List Char) :
    validSubkey (c :: t) = false := by
  rw [Bool.eq_false_iff]
  intro h
  obtain ⟨c', t', hct, hc'⟩ := head_isLower_of_validSubkey h
  obtain ⟨rfl, -⟩ := List.cons.inj hct
  rw [hc] at hc'
  cases hc'

theorem validIndexSubkey_cons_eq_false {c : Char} (hc : c ≠ '[') (t : List Char) :
    validIndexSubkey (c :: t) = false := by
  rw [Bool.eq_false_iff]
  intro h
  obtain ⟨d, hd, -, -⟩ := validIndexSubkey_iff.mp h
  exact hc (List.cons.inj hd).1

theorem validIndexSubkey_brace_eq_false (t : List Char) :
    validIndexSubkey ('[' :: '\x7b' :: t) = false := by
  rw [Bool.eq_false_iff]
  intro h
  obtain ⟨d, hd, hne, hdigits⟩ := validIndexSubkey_iff.mp h
  obtain ⟨c, d', rfl⟩ := List.exists_cons_of_ne_nil hne
  have hc : '\x7b' = c := (List.cons.inj (List.cons.inj hd).2).1
  have := hdigits c List.mem_cons_self
  rw [← hc] at this
  exact absurd this (by decide)

theorem validPlaceholder_cons_eq_false {c : Char} (hc : c ≠ '\x7b') (t : List Char) :
    validPlaceholder (c :: t) = false := by
  rw [Bool.eq_false_iff]
  intro h
  obtain ⟨n, hn, -⟩ := validPlaceholder_iff.mp h
  exact hc (List.cons.inj hn).1

theorem parsePart_eq_ok {part : SubKey} {a : Accessor} (h : parsePart opts part = .ok a) :
    a.access = part.key ∧ a.KeyNotBracketed := by
  unfold parsePart at h
  split at h
  · cases h
  · dsimp only at h
    split at h
    · rename_i hkey
      cases h
      obtain ⟨c, t, hct, hc⟩ := head_isLower_of_validSubkey hkey
      refine ⟨rfl, fun _ => ?_⟩
      rw [hct]
      intro hhead
      simp only [List.head?_cons, Option.some.injEq] at hhead
      subst hhead
      cases hc
    split at h
    · rename_i hindex
      split at h
      · cases h
      · cases h
        obtain ⟨d, hd, -, -⟩ := validIndexSubkey_iff.mp hindex
        refine ⟨?_, fun h => by cases h⟩
        simp only [Accessor.access, hd, slice_wrap₁]
    split at h
    · cases h
    split at h
    · rename_i hph
      cases h
      obtain ⟨n, hn, -⟩ := validPlaceholder_iff.mp hph
      refine ⟨?_, fun h => by cases h⟩
      simp only [Accessor.access, hn, slice_wrap₁]
    split at h
    · rename_i hph
      cases h
      obtain ⟨n, hn, -⟩ := validIndexPlaceholder_iff.mp hph
      refine ⟨?_, fun h => by cases h⟩
      simp only [Accessor.access, hn]
      rw [show '[' :: '\x7b' :: n ++ ['\x7d', ']'] = '[' :: '\x7b' :: n ++ ['\x7d', ']'] from rfl,
        slice_wrap₂]
    · cases h

theorem access_of_mapM_parsePart {parts : List SubKey} {accs : List Accessor}
    (h : parts.mapM (parsePart opts) = .ok accs) :
    accs.map Accessor.access = parts.map SubKey.key ∧ ∀ a ∈ accs, a.KeyNotBracketed := by
  have hall := Run.forall₂_of_mapM_eq_ok h
  clear h
  induction hall with
  | nil => simp
  | cons hpa _ ih =>
    obtain ⟨haccess, hkey⟩ := parsePart_eq_ok hpa
    obtain ⟨ih₁, ih₂⟩ := ih
    refine ⟨by simp [haccess, ih₁], ?_⟩
    intro a ha
    rcases List.mem_cons.mp ha with rfl | ha
    · exact hkey
    · exact ih₂ a ha

/-- A path without field filters that parses, not as a suffix, into accessors is what
`JoinAccessors` writes for them. -/
theorem joinAccessors_of_parsePathIntoAccessors (hsuffix : opts.allowPathSuffix = false)
    {s : List Char} (hs : ¬['[', '.'] <:+: s) {accs : List Accessor}
    (h : parsePathIntoAccessors s opts = .ok accs) (hne : accs ≠ []) : joinAccessors accs = s := by
  unfold parsePathIntoAccessors at h
  split at h
  · cases h
    exact absurd rfl hne
  obtain ⟨parts, hsplit, hparts⟩ := Run.bind_eq_ok.mp h
  obtain ⟨-, hjoin⟩ := splitLoop_read hsuffix s splitInv_init (Nat.le_refl _) hs hsplit
  obtain ⟨haccess, hkey⟩ := access_of_mapM_parsePart hparts
  rw [joinAccessors_eq_joinKeys hkey, haccess, hjoin, List.nil_append]

/-- `[0-9]+` -/
def digitsRegex : Regex Char := .plus (.cls Char.isDigit)

/-- The name of an accessor is one its type takes: digits for an index, a match of
`subkeyRegex` for the others. -/
def Accessor.wellNamed (a : Accessor) : Bool :=
  match a.type with
  | .listIndex => digitsRegex.rmatch a.name
  | _ => validSubkey a.name

theorem not_dot_bracket_of_validSubkey {n : List Char} (h : validSubkey n = true) :
    ∀ c ∈ n, c ≠ '.' ∧ c ≠ '[' := by
  intro c hc
  rcases chars_of_validSubkey h c hc with hc | hc | rfl
  · constructor <;> rintro rfl <;> exact absurd hc (by decide)
  · constructor <;> rintro rfl <;> exact absurd hc (by decide)
  · exact ⟨by decide, by decide⟩

theorem digits_of_wellNamed {a : Accessor} (ha : a.wellNamed = true) (hi : a.type = .listIndex) :
    a.name ≠ [] ∧ ∀ c ∈ a.name, c.isDigit = true := by
  simp only [Accessor.wellNamed, hi, digitsRegex] at ha
  exact (Regex.mem_plus_cls _ _).mp ((Regex.rmatch_iff _ _).mp ha)

theorem validSubkey_of_wellNamed {a : Accessor} (ha : a.wellNamed = true)
    (hi : a.type ≠ .listIndex) : validSubkey a.name = true := by
  unfold Accessor.wellNamed at ha
  split at ha
  · contradiction
  · exact ha

theorem access_chars_of_dotPrecedes {a : Accessor} (ha : a.wellNamed = true)
    (hd : dotPrecedesAccessorType a = true) : ∀ c ∈ a.access, c ≠ '.' ∧ c ≠ '[' := by
  obtain ⟨type, name, filters⟩ := a
  have hname := not_dot_bracket_of_validSubkey (validSubkey_of_wellNamed ha (by
    rintro rfl
    simp [dotPrecedesAccessorType] at hd))
  cases type with
  | mapKey => exact hname
  | keyPlaceholder =>
    intro c hc
    simp only [Accessor.access, List.cons_append, List.mem_cons, List.mem_append,
      List.not_mem_nil, or_false] at hc
    rcases hc with rfl | hc | rfl
    · exact ⟨by decide, by decide⟩
    · exact hname c hc
    · exact ⟨by decide, by decide⟩
  | listIndex => simp [dotPrecedesAccessorType] at hd
  | indexPlaceholder => simp [dotPrecedesAccessorType] at hd

/-- An accessor written without a dot opens a bracket, and the rest of it is one word that does
not start with a dot. -/
theorem access_of_not_dotPrecedes {a : Accessor} (ha : a.wellNamed = true)
    (hd : dotPrecedesAccessorType a = false) :
    ∃ c t, a.access = '[' :: c :: t ∧ c ≠ '.' ∧ ∀ x ∈ c :: t, x ≠ '.' ∧ x ≠ '[' := by
  obtain ⟨type, name, filters⟩ := a
  cases type with
  | listIndex =>
    obtain ⟨hne, hdigits⟩ := digits_of_wellNamed ha rfl
    obtain ⟨c, d, rfl⟩ := List.exists_cons_of_ne_nil hne
    have hdigit : ∀ x, x.isDigit = true → x ≠ '.' ∧ x ≠ '[' := by
      intro x hx
      constructor <;> rintro rfl <;> exact absurd hx (by decide)
    refine ⟨c, d ++ [']'], rfl, (hdigit c (hdigits c List.mem_cons_self)).1, ?_⟩
    intro x hx
    simp only [List.mem_cons, List.mem_append, List.not_mem_nil, or_false] at hx
    rcases hx with rfl | hx | rfl
    · exact hdigit x (hdigits x List.mem_cons_self)
    · exact hdigit x (hdigits x (List.mem_cons_of_mem c hx))
    · exact ⟨by decide, by decide⟩
  | indexPlaceholder =>
    have hname := not_dot_bracket_of_validSubkey (validSubkey_of_wellNamed ha (by simp))
    refine ⟨'\x7b', name ++ ['\x7d', ']'], rfl, by decide, ?_⟩
    intro x hx
    simp only [List.mem_cons, List.mem_append, List.not_mem_nil, or_false] at hx
    rcases hx with rfl | hx | rfl | rfl
    · exact ⟨by decide, by decide⟩
    · exact hname x hx
    · exact ⟨by decide, by decide⟩
    · exact ⟨by decide, by decide⟩
  | mapKey => simp [dotPrecedesAccessorType] at hd
  | keyPlaceholder => simp [dotPrecedesAccessorType] at hd

theorem access_ne_nil {a : Accessor} (ha : a.wellNamed = true) : a.access ≠ [] := by
  obtain ⟨type, name, filters⟩ := a
  cases type with
  | mapKey =>
    obtain ⟨c, t, hct, -⟩ := head_isLower_of_validSubkey (validSubkey_of_wellNamed ha (by simp))
    intro h
    simp only [Accessor.access] at h hct
    simp [h] at hct
  | listIndex => simp [Accessor.access]
  | keyPlaceholder => simp [Accessor.access]
  | indexPlaceholder => simp [Accessor.access]

theorem splitLoop_word (w : List Char) (hw : ∀ c ∈ w, c ≠ '.' ∧ c ≠ '[') :
    ∀ {fuel : Nat} {st : SplitState}, st.expectFilterOrEnd = false → w.length ≤ fuel →
      ∀ rest, splitLoop opts fuel st (w ++ rest) =
        splitLoop opts (fuel - w.length) { st with sb := st.sb ++ w } rest := by
  induction w with
  | nil =>
    intro fuel st _ _ rest
    simp
  | cons c w ih =>
    intro fuel st hexp hfuel rest
    obtain ⟨fuel, rfl⟩ : ∃ f, fuel = f + 1 := ⟨fuel - 1, by simp at hfuel; omega⟩
    have ⟨hdot, hbr⟩ := hw c List.mem_cons_self
    have hw' : ∀ x ∈ w, x ≠ '.' ∧ x ≠ '[' := fun x hx => hw x (List.mem_cons_of_mem c hx)
    rw [List.cons_append, splitLoop_other fuel st _ hdot hbr, writeRune_of_not_expect hexp]
    have hstep := @ih hw' fuel { st with sb := st.sb ++ [c] } hexp
      (by simp at hfuel; omega) rest
    simp only [bind, Except.bind]
    rw [hstep]
    simp

theorem splitLoop_chunk {a : Accessor} (ha : a.wellNamed = true) {fuel : Nat} {st : SplitState}
    (hsb : st.sb ≠ []) (hfuel : (chunk a).length ≤ fuel)
    (rest : List Char) :
    splitLoop opts fuel st (chunk a ++ rest) =
      splitLoop opts (fuel - (chunk a).length)
        ⟨st.subkeys ++ [⟨st.sb, st.rawFilters⟩], [], false, a.access⟩ rest := by
  obtain ⟨fuel, rfl⟩ : ∃ f, fuel = f + 1 := ⟨fuel - 1, by
    have hpos : 0 < (chunk a).length := by
      simp only [chunk, List.length_append]
      have := List.length_pos_of_ne_nil (access_ne_nil ha)
      omega
    omega⟩
  cases hd : dotPrecedesAccessorType a with
  | true =>
    have hchunk : chunk a = '.' :: a.access := by simp [chunk, hd]
    rw [hchunk] at hfuel ⊢
    rw [List.cons_append, splitLoop_dot, finishSubkey_of_ne_nil st hsb]
    simp only [bind, Except.bind]
    rw [splitLoop_word _ (access_chars_of_dotPrecedes ha hd) rfl
      (by simp only [List.length_cons] at hfuel; omega)]
    simp only [List.nil_append, List.length_cons]
    congr 1
    omega
  | false =>
    obtain ⟨c, t, hct, hc, ht⟩ := access_of_not_dotPrecedes ha hd
    have hchunk : chunk a = '[' :: c :: t := by simp [chunk, hd, hct]
    rw [hchunk] at hfuel ⊢
    rw [List.cons_append, List.cons_append, splitLoop_bracket fuel st _ hc,
      finishSubkey_of_ne_nil st hsb]
    simp only [bind, Except.bind]
    rw [writeRune_of_not_expect rfl]
    simp only
    rw [← List.cons_append,
      splitLoop_word _ ht rfl (by simp only [List.length_cons] at hfuel ⊢; omega), hct]
    simp only [List.nil_append, List.cons_append, List.length_cons]
    congr 1
    omega

theorem splitLoop_chunks (as : List Accessor) (has : ∀ a ∈ as, a.wellNamed = true) :
    ∀ {fuel : Nat} {subs : List SubKey} {k : List Char}, k ≠ [] →
      (as.flatMap chunk).length ≤ fuel →
      splitLoop opts fuel ⟨subs, [], false, k⟩ (as.flatMap chunk) =
        .ok (subs ++ (k :: as.map Accessor.access).map fun k => ⟨k, []⟩) := by
  induction as with
  | nil =>
    intro fuel subs k hk _
    rw [List.flatMap_nil, splitLoop_nil, splitEnd, finishSubkey_of_ne_nil _ hk]
    rfl
  | cons b as ih =>
    intro fuel subs k hk hfuel
    have hb := has b List.mem_cons_self
    rw [List.flatMap_cons] at hfuel ⊢
    rw [splitLoop_chunk hb hk (by simp at hfuel; omega)]
    rw [ih (fun a ha => has a (List.mem_cons_of_mem b ha)) (access_ne_nil hb)
      (by simp at hfuel ⊢; omega)]
    simp

theorem splitViewPath_joinAccessors {a : Accessor} {as : List Accessor}
    (hnamed : ∀ b ∈ a :: as, b.wellNamed = true) (hd : dotPrecedesAccessorType a = true) :
    splitViewPath (joinAccessors (a :: as)) opts =
      .ok ((a :: as).map fun b => ⟨b.access, []⟩) := by
  have ha := hnamed a List.mem_cons_self
  rw [splitViewPath, joinAccessors_cons,
    splitLoop_word _ (access_chars_of_dotPrecedes ha hd) rfl (by simp)]
  rw [splitLoop_chunks as (fun b hb => hnamed b (List.mem_cons_of_mem a hb))
    (by simpa using access_ne_nil ha) (by simp)]
  simp

theorem parsePart_access {a : Accessor} (ha : a.wellNamed = true) (hf : a.fieldFilters = []) :
    parsePart ⟨true, false, false⟩ ⟨a.access, []⟩ = .ok a := by
  obtain ⟨type, name, filters⟩ := a
  simp only at hf
  subst hf
  cases type with
  | mapKey =>
    have hkey := validSubkey_of_wellNamed ha (by simp)
    simp [parsePart, Accessor.access, hkey]
  | listIndex =>
    obtain ⟨hne, hdigits⟩ := digits_of_wellNamed ha rfl
    have hkey : validSubkey ('[' :: name ++ [']']) = false :=
      validSubkey_cons_eq_false (by decide) _
    have hindex : validIndexSubkey ('[' :: name ++ [']']) = true :=
      validIndexSubkey_iff.mpr ⟨name, rfl, hne, hdigits⟩
    rw [parsePart]
    dsimp only [Accessor.access]
    rw [List.find?_nil]
    dsimp only
    simp only [hkey, hindex, Bool.false_eq_true, if_false, if_true, slice_wrap₁]
  | keyPlaceholder =>
    have hname := validSubkey_of_wellNamed ha (by simp)
    have hkey : validSubkey ('\x7b' :: name ++ ['\x7d']) = false :=
      validSubkey_cons_eq_false (by decide) _
    have hindex : validIndexSubkey ('\x7b' :: name ++ ['\x7d']) = false :=
      validIndexSubkey_cons_eq_false (by decide) _
    have hph : validPlaceholder ('\x7b' :: name ++ ['\x7d']) = true :=
      validPlaceholder_iff.mpr ⟨name, rfl, hname⟩
    rw [parsePart]
    dsimp only [Accessor.access]
    rw [List.find?_nil]
    dsimp only
    simp only [hkey, hindex, hph, Bool.false_eq_true, if_false, if_true, Bool.not_true,
      slice_wrap₁]
  | indexPlaceholder =>
    have hname := validSubkey_of_wellNamed ha (by simp)
    have hkey : validSubkey ('[' :: '\x7b' :: name ++ ['\x7d', ']']) = false :=
      validSubkey_cons_eq_false (by decide) _
    have hindex : validIndexSubkey ('[' :: '\x7b' :: name ++ ['\x7d', ']']) = false :=
      validIndexSubkey_brace_eq_false _
    have hph : validPlaceholder ('[' :: '\x7b' :: name ++ ['\x7d', ']']) = false :=
      validPlaceholder_cons_eq_false (by decide) _
    have hiph : validIndexPlaceholder ('[' :: '\x7b' :: name ++ ['\x7d', ']']) = true :=
      validIndexPlaceholder_iff.mpr ⟨name, rfl, hname⟩
    rw [parsePart]
    dsimp only [Accessor.access]
    rw [List.find?_nil]
    dsimp only
    simp only [hkey, hindex, hph, hiph, Bool.false_eq_true, if_false, if_true, Bool.not_true,
      slice_wrap₂]

/-- A path that `JoinAccessors` wrote for well-named accessors without field filters, the first
a map key or a key placeholder, parses back into those accessors. -/
theorem parsePathIntoAccessors_joinAccessors {accs : List Accessor} (hne : accs ≠ [])
    (hnamed : ∀ a ∈ accs, a.wellNamed = true)
    (hfirst : ∀ a ∈ accs.head?, a.type = .mapKey ∨ a.type = .keyPlaceholder)
    (hfilters : ∀ a ∈ accs, a.fieldFilters = []) :
    parsePathIntoAccessors (joinAccessors accs) ⟨true, false, false⟩ = .ok accs := by
  obtain ⟨a, as, rfl⟩ := List.exists_cons_of_ne_nil hne
  have hd : dotPrecedesAccessorType a = true := by
    rcases hfirst a rfl with h | h <;> simp [dotPrecedesAccessorType, h]
  have hpath : joinAccessors (a :: as) ≠ [] := by
    rw [joinAccessors_cons]
    simp [access_ne_nil (hnamed a List.mem_cons_self)]
  rw [parsePathIntoAccessors, if_neg hpath, splitViewPath_joinAccessors hnamed hd]
  exact Run.mapM_map_eq_ok fun b hb => parsePart_access (hnamed b hb) (hfilters b hb)

/-- Confdb path syntax round-trips: a path without field filters that parses, not as a suffix,
is what `JoinAccessors` writes for its accessors; and what `JoinAccessors` writes for well-named
accessors without field filters, the first a key or a key placeholder, parses back into them. -/
theorem confdb_path_syntax_round_trips :
    (∀ (s : List Char) (opts : ParseOptions) (accs : List Accessor),
        opts.allowPathSuffix = false → ¬['[', '.'] <:+: s →
        parsePathIntoAccessors s opts = .ok accs → accs ≠ [] → joinAccessors accs = s) ∧
      ∀ accs : List Accessor, accs ≠ [] → (∀ a ∈ accs, a.wellNamed = true) →
        (∀ a ∈ accs.head?, a.type = .mapKey ∨ a.type = .keyPlaceholder) →
        (∀ a ∈ accs, a.fieldFilters = []) →
        parsePathIntoAccessors (joinAccessors accs) ⟨true, false, false⟩ = .ok accs :=
  ⟨fun _ _ _ hsuffix hs h hne => joinAccessors_of_parsePathIntoAccessors hsuffix hs h hne,
    fun _ hne hnamed hfirst hfilters =>
      parsePathIntoAccessors_joinAccessors hne hnamed hfirst hfilters⟩

/-- The accessors of `a[1].b[\x7bn\x7d]`. -/
def indexPathAccessors : List Accessor :=
  [⟨.mapKey, ['a'], []⟩, ⟨.listIndex, ['1'], []⟩, ⟨.mapKey, ['b'], []⟩,
    ⟨.indexPlaceholder, ['n'], []⟩]

theorem confdb_path_syntax_round_trips_on_index_path :
    joinAccessors indexPathAccessors = "a[1].b[\x7bn\x7d]".toList ∧
      parsePathIntoAccessors (joinAccessors indexPathAccessors) ⟨true, false, false⟩ =
        .ok indexPathAccessors :=
  ⟨confdb_path_syntax_round_trips.1 _ ⟨true, false, false⟩ _ rfl (by decide) (by decide)
      (by decide),
    confdb_path_syntax_round_trips.2 _ (by decide) (by decide) (by decide) (by decide)⟩

end Snapd.Confdb.Path
