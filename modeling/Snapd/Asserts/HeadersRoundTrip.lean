import Snapd.Asserts.Headers

/-! What the header format guarantees: `parseHeaders` reads back every header block
`writeHeaders` writes, whatever the order of the headers, when no list or map in the values is
empty. The proof goes by the lines the encoder writes (`entryLines`): each parse function is
shown to read back the lines of one value, given the lines after them, which are indented less,
and enough fuel. -/

namespace Snapd.Asserts

open List

section Lines

mutual

/-- The lines `appendEntry` writes, each after a newline. -/
def entryLines (intro : List Char) : HeaderValue → Nat → List (List Char)
  | .str x, baseIndent =>
    if '\n' ∈ x then intro :: (x.splitOn '\n').map (nestingPrefix baseIndent multilinePrefix ++ ·)
    else [intro ++ ' ' :: x]
  | .list xs, baseIndent =>
    match xs with
    | [] => []
    | _ :: _ =>
      intro :: listLines (nestingPrefix baseIndent listPrefix) xs (baseIndent + listPrefix.length - 1)
  | .map entries, baseIndent =>
    match entries with
    | [] => []
    | _ :: _ => intro :: mapLines (nestingPrefix baseIndent commonPrefix) entries

def listLines (pfx : List Char) : List HeaderValue → Nat → List (List Char)
  | [], _ => []
  | v :: vs, baseIndent => entryLines pfx v baseIndent ++ listLines pfx vs baseIndent

def mapLines (pfx : List Char) : List (List Char × HeaderValue) → List (List Char)
  | [] => []
  | (key, v) :: rest => entryLines (pfx ++ key ++ [':']) v pfx.length ++ mapLines pfx rest

end

/-- Indenting the lines of a multiline value, as `strings.Replace` does, writes each of its lines
after a newline and the indentation. -/
theorem quote_eq_flatMap_splitOn (pfx x : List Char) :
    '\n' :: pfx ++ x.flatMap (fun c => if c = '\n' then '\n' :: pfx else [c]) =
      (x.splitOn '\n').flatMap fun seg => '\n' :: (pfx ++ seg) := by
  induction x with
  | nil => simp
  | cons c x ih =>
    rw [splitOn_cons_eq_if_modifyHead]
    by_cases hc : c = '\n'
    · subst hc
      simp [ih]
    · obtain ⟨seg, segs, hsplit⟩ := exists_cons_of_ne_nil (splitOn_ne_nil '\n' x)
      rw [hsplit] at ih ⊢
      have hrest : x.flatMap (fun c => if c = '\n' then '\n' :: pfx else [c]) =
          seg ++ segs.flatMap fun seg => '\n' :: (pfx ++ seg) := by
        simpa using ih
      simp [hc, hrest]

mutual

theorem appendEntry_eq_flatMap (intro : List Char) : ∀ (v : HeaderValue) (b : Nat),
    appendEntry intro v b = (entryLines intro v b).flatMap ('\n' :: ·)
  | .str x, b => by
    by_cases hx : '\n' ∈ x
    · simp only [appendEntry, entryLines, if_pos hx]
      rw [List.append_assoc, quote_eq_flatMap_splitOn, flatMap_cons, flatMap_map]
    · simp [appendEntry, entryLines, hx]
  | .list [], b => by simp [appendEntry, entryLines]
  | .list (v :: vs), b => by
    simp only [appendEntry, entryLines, appendListEntries, listLines, flatMap_cons, flatMap_append,
      appendEntry_eq_flatMap _ v, appendListEntries_eq_flatMap _ vs]
  | .map [], b => by simp [appendEntry, entryLines]
  | .map ((k, v) :: m), b => by
    simp only [appendEntry, entryLines, appendMapEntries, mapLines, flatMap_cons, flatMap_append,
      appendEntry_eq_flatMap _ v, appendMapEntries_eq_flatMap _ m]

theorem appendListEntries_eq_flatMap (pfx : List Char) : ∀ (vs : List HeaderValue) (b : Nat),
    appendListEntries pfx vs b = (listLines pfx vs b).flatMap ('\n' :: ·)
  | [], _ => rfl
  | v :: vs, b => by
    rw [appendListEntries, listLines, flatMap_append, appendEntry_eq_flatMap,
      appendListEntries_eq_flatMap]

theorem appendMapEntries_eq_flatMap (pfx : List Char) : ∀ (m : List (List Char × HeaderValue)),
    appendMapEntries pfx m = (mapLines pfx m).flatMap ('\n' :: ·)
  | [] => rfl
  | (k, v) :: m => by
    rw [appendMapEntries, mapLines, flatMap_append, appendEntry_eq_flatMap,
      appendMapEntries_eq_flatMap]

end

end Lines

section Names

theorem headerName_chars {k : List Char} (hk : headerNameValidity.rmatch k = true) :
    ∃ c cs, k = c :: cs ∧ ('a' ≤ c ∧ c ≤ 'z') ∧
      ∀ d ∈ cs, ('a' ≤ d ∧ d ≤ 'z' ∨ '0' ≤ d ∧ d ≤ '9') ∨ d = '-' := by
  rw [Regex.rmatch_iff, headerNameValidity, Regex.mem_seq] at hk
  obtain ⟨u, hu, v, hv, rfl⟩ := hk
  obtain ⟨c, hc, rfl⟩ := (Regex.mem_cls _ _).mp hu
  obtain ⟨S, rfl, hS⟩ := (Regex.mem_star _ _).mp hv
  refine ⟨c, S.flatten, rfl, by simpa using hc, fun d hd => ?_⟩
  obtain ⟨y, hy, hdy⟩ := List.mem_flatten.mp hd
  obtain ⟨u, hu, w, hw, rfl⟩ := (Regex.mem_seq _ _ _).mp (hS y hy).1
  obtain ⟨e, he, rfl⟩ := (Regex.mem_cls _ _).mp hw
  rcases (Regex.mem_opt _ _).mp hu with rfl | hdash
  · simp only [List.nil_append, List.mem_singleton] at hdy
    subst hdy
    exact Or.inl (by simpa using he)
  · rw [Regex.mem_char] at hdash
    subst hdash
    simp only [List.singleton_append, List.mem_cons, List.not_mem_nil, or_false] at hdy
    rcases hdy with rfl | rfl
    · exact Or.inr rfl
    · exact Or.inl (by simpa using he)

theorem headerName_char_ne {k : List Char} (hk : headerNameValidity.rmatch k = true) {d : Char}
    (hd : d = ':' ∨ d = '\n' ∨ d = ' ') : d ∉ k := by
  obtain ⟨c, cs, rfl, hc, hcs⟩ := headerName_chars hk
  have hnot : ∀ e : Char, (('a' ≤ e ∧ e ≤ 'z' ∨ '0' ≤ e ∧ e ≤ '9') ∨ e = '-') → e ≠ d := by
    rcases hd with rfl | rfl | rfl <;> intro e he <;> rintro rfl <;> revert he <;> decide
  intro hmem
  rcases List.mem_cons.mp hmem with rfl | hmem
  · exact hnot d (Or.inl (Or.inl hc)) rfl
  · exact hnot d (hcs d hmem) rfl

end Names

section Indent

@[simp]
theorem nestingPrefix_commonPrefix (b : Nat) : nestingPrefix b commonPrefix = replicate (b + 2) ' ' := by
  simp [nestingPrefix, commonPrefix, replicate_add]

@[simp]
theorem nestingPrefix_multilinePrefix (b : Nat) :
    nestingPrefix b multilinePrefix = replicate (b + 4) ' ' := by
  simp [nestingPrefix, multilinePrefix, replicate_add]

@[simp]
theorem nestingPrefix_listPrefix (b : Nat) :
    nestingPrefix b listPrefix = replicate (b + 2) ' ' ++ ['-'] := by
  simp [nestingPrefix, listPrefix, commonPrefix, listChar, replicate_add]

@[simp]
theorem listPrefix_length : listPrefix.length = 3 := rfl

theorem not_replicate_prefix {n m : Nat} {c : Char} {t : List Char} (hc : c ≠ ' ') (hnm : n < m) :
    ¬ replicate m ' ' <+: replicate n ' ' ++ c :: t := by
  intro h
  have hn : n < (replicate m ' ').length := by simpa using hnm
  have hget := h.getElem hn
  simp at hget
  exact hc hget.symm

/-- The lines after a value written at indentation `b`: the first of them is indented less than
the value's own lines. -/
def EndsAt (b : Nat) (rest : List (List Char)) : Prop :=
  ∀ l ∈ rest.head?, ¬ replicate (b + 2) ' ' <+: l

theorem replicate_prefix_of_le {m n : Nat} (h : m ≤ n) : replicate m ' ' <+: replicate n ' ' := by
  obtain ⟨d, rfl⟩ := Nat.exists_eq_add_of_le h
  rw [replicate_add]
  exact prefix_append _ _

theorem EndsAt.deeper {b : Nat} {rest : List (List Char)} (h : EndsAt b rest) (d : Nat) :
    EndsAt (b + d) rest := by
  intro l hl hpre
  exact h l hl ((replicate_prefix_of_le (by omega)).trans hpre)

end Indent

section WellFormed

mutual

/-- A header value that is written back as it is: no list or map in it is empty, and the keys of
every map are valid header names, in increasing order. -/
def HeaderValue.WellFormed : HeaderValue → Prop
  | .str _ => True
  | .list vs => vs ≠ [] ∧ HeaderValue.ListWellFormed vs
  | .map m => m ≠ [] ∧ (m.map Prod.fst).Pairwise (· < ·) ∧ HeaderValue.EntriesWellFormed m

def HeaderValue.ListWellFormed : List HeaderValue → Prop
  | [] => True
  | v :: vs => v.WellFormed ∧ HeaderValue.ListWellFormed vs

def HeaderValue.EntriesWellFormed : List (List Char × HeaderValue) → Prop
  | [] => True
  | (k, v) :: m =>
    headerNameValidity.rmatch k = true ∧ v.WellFormed ∧ HeaderValue.EntriesWellFormed m

end

theorem not_newline_mem_splitOn : ∀ {x seg : List Char}, seg ∈ x.splitOn '\n' → '\n' ∉ seg
  | [], seg, h => by simp_all
  | c :: x, seg, h => by
    rw [splitOn_cons_eq_if_modifyHead] at h
    obtain ⟨seg₀, segs, hsplit⟩ := exists_cons_of_ne_nil (splitOn_ne_nil '\n' x)
    by_cases hc : c = '\n'
    · simp only [hc, beq_self_eq_true, if_true, mem_cons] at h
      rcases h with rfl | h
      · simp
      · exact not_newline_mem_splitOn h
    · have hc' : (c == '\n') = false := by simpa using hc
      rw [hc', if_neg Bool.false_ne_true, hsplit, modifyHead_cons, mem_cons] at h
      rcases h with rfl | h
      · have h₀ : '\n' ∉ seg₀ := not_newline_mem_splitOn (by rw [hsplit]; exact mem_cons_self)
        simp [Ne.symm hc, h₀]
      · exact not_newline_mem_splitOn (by rw [hsplit]; exact mem_cons_of_mem _ h)

mutual

/-- The first line a value writes holds its introduction, and the lines after it are indented
past `b`. -/
theorem entryLines_shape (intro : List Char) : ∀ (v : HeaderValue) (b : Nat), v.WellFormed →
    ∃ first cont, entryLines intro v b = first :: cont ∧ intro <+: first ∧
      ∀ l ∈ cont, replicate (b + 2) ' ' <+: l
  | .str x, b, _ => by
    by_cases hx : '\n' ∈ x
    · refine ⟨intro, (x.splitOn '\n').map (nestingPrefix b multilinePrefix ++ ·),
        by simp [entryLines, hx], prefix_refl _, fun l hl => ?_⟩
      obtain ⟨seg, -, rfl⟩ := mem_map.mp hl
      simpa using (replicate_prefix_of_le (by omega)).trans (prefix_append _ seg)
    · exact ⟨intro ++ ' ' :: x, [], by simp [entryLines, hx], prefix_append _ _, by simp⟩
  | .list [], _, h => absurd rfl h.1
  | .list (v :: vs), b, h => ⟨intro, _, rfl, prefix_refl _, listLines_prefix (v :: vs) b h.2⟩
  | .map [], _, h => absurd rfl h.1
  | .map ((k, v) :: m), b, h =>
    ⟨intro, _, rfl, prefix_refl _, mapLines_prefix ((k, v) :: m) b h.2.2⟩

theorem listLines_prefix : ∀ (vs : List HeaderValue) (b : Nat), HeaderValue.ListWellFormed vs →
    ∀ l ∈ listLines (nestingPrefix b listPrefix) vs (b + listPrefix.length - 1),
      replicate (b + 2) ' ' <+: l
  | [], _, _ => by simp [listLines]
  | v :: vs, b, h => by
    obtain ⟨first, cont, heq, hfirst, hcont⟩ := entryLines_shape _ v _ h.1
    intro l hl
    rw [listLines, heq, mem_append, mem_cons] at hl
    rcases hl with (rfl | hl) | hl
    · exact (by simp : replicate (b + 2) ' ' <+: nestingPrefix b listPrefix).trans hfirst
    · exact (replicate_prefix_of_le (by simp)).trans (hcont l hl)
    · exact listLines_prefix vs b h.2 l hl

theorem mapLines_prefix : ∀ (m : List (List Char × HeaderValue)) (b : Nat),
    HeaderValue.EntriesWellFormed m →
    ∀ l ∈ mapLines (nestingPrefix b commonPrefix) m, replicate (b + 2) ' ' <+: l
  | [], _, _ => by simp [mapLines]
  | (k, v) :: m, b, h => by
    obtain ⟨first, cont, heq, hfirst, hcont⟩ := entryLines_shape _ v _ h.2.1
    intro l hl
    rw [mapLines, heq, mem_append, mem_cons] at hl
    rcases hl with (rfl | hl) | hl
    · have hpre : replicate (b + 2) ' ' <+: nestingPrefix b commonPrefix ++ k ++ [':'] := by
        simp [append_assoc]
      exact hpre.trans hfirst
    · exact (replicate_prefix_of_le (by simp)).trans (hcont l hl)
    · exact mapLines_prefix m b h.2.2 l hl

end

end WellFormed

section Dispatch

/-! How `parseEntry` reads the line after an introduction with nothing after it: a list element,
a map entry or indented text, by the first character past the indentation. -/

variable {fuel b : Nat} {entry t : List Char} {tl : List (List Char)}

theorem parseEntry_listIntro :
    parseEntry (fuel + 1) entry.length entry ((replicate (b + 2) ' ' ++ '-' :: t) :: tl) b =
      parseList fuel ((replicate (b + 2) ' ' ++ '-' :: t) :: tl) b [] := by
  simp [parseEntry, listChar]

theorem parseEntry_mapIntro {c : Char} (hspace : c ≠ ' ') (hdash : c ≠ '-') :
    parseEntry (fuel + 1) entry.length entry ((replicate (b + 2) ' ' ++ c :: t) :: tl) b =
      parseMap fuel ((replicate (b + 2) ' ' ++ c :: t) :: tl) b [] := by
  simp [parseEntry, listChar, hspace, hdash.symm]

theorem parseEntry_textIntro :
    parseEntry (fuel + 1) entry.length entry ((replicate (b + 4) ' ' ++ t) :: tl) b =
      parseMultilineText entry ((replicate (b + 4) ' ' ++ t) :: tl) b := by
  have hline : replicate (b + 4) ' ' ++ t = replicate (b + 2) ' ' ++ ' ' :: ' ' :: t := by
    rw [show b + 4 = b + 2 + 2 from rfl, replicate_add]
    simp
  rw [hline]
  simp [parseEntry, listChar]

theorem parseEntry_simple (intro x : List Char) :
    parseEntry (fuel + 1) intro.length (intro ++ ' ' :: x) tl b = .ok (.str x, tl) := by
  simp [parseEntry]

theorem parseMultilineText_lines (intro : List Char) {segs : List (List Char)} (hsegs : segs ≠ [])
    {rest : List (List Char)} (hrest : EndsAt b rest) :
    parseMultilineText intro (segs.map (replicate (b + 4) ' ' ++ ·) ++ rest) b =
      .ok (.str (['\n'].intercalate segs), rest) := by
  have hrest' : rest.takeWhile (replicate (b + 4) ' ').isPrefixOf = [] := by
    cases rest with
    | nil => rfl
    | cons l ls =>
      refine takeWhile_cons_of_neg fun h => ?_
      have hpre := isPrefixOf_iff_prefix.mp h
      exact hrest l rfl ((replicate_prefix_of_le (by omega)).trans hpre)
  obtain ⟨seg, segs', rfl⟩ := exists_cons_of_ne_nil hsegs
  simp [parseMultilineText, Function.comp_def, hrest']

end Dispatch

section Steps

/-! One turn of the list and map loops: a line that opens the next element or entry, or a line
indented less, which ends the loop. -/

variable {fuel b : Nat} {tl : List (List Char)}

theorem idxOf?_colon {k t : List Char} (hk : ':' ∉ k) : (k ++ ':' :: t).idxOf? ':' = some k.length := by
  induction k with
  | nil => simp [idxOf?_cons]
  | cons c k ih =>
    have hc : c ≠ ':' := fun h => hk (h ▸ mem_cons_self)
    have hk' : ':' ∉ k := fun h => hk (mem_cons_of_mem _ h)
    simp [idxOf?_cons, hc, ih hk']

theorem key_ne_of_lt {k k' : List Char} (h : k < k') : k ≠ k' := fun he =>
  List.lt_irrefl k (by rwa [← he] at h)

theorem insertEntry_cons_of_lt {k : List Char} {v : HeaderValue} {a : List Char × HeaderValue}
    {m : List (List Char × HeaderValue)} (h : a.1 < k) :
    insertEntry k v (a :: m) = a :: insertEntry k v m := by
  rw [insertEntry, orderedInsert_cons, if_neg (not_le.mpr h), ← insertEntry]

theorem insertEntry_eq_cons {k : List Char} {v : HeaderValue} {m : List (List Char × HeaderValue)}
    (h : ∀ a ∈ m, k < a.1) : insertEntry k v m = (k, v) :: m := by
  cases m with
  | nil => rfl
  | cons a m => rw [insertEntry, orderedInsert_cons, if_pos (le_of_lt (h a mem_cons_self))]

theorem insertEntry_of_lt {k : List Char} {v : HeaderValue} {m : List (List Char × HeaderValue)}
    (h : ∀ a ∈ m, a.1 < k) : insertEntry k v m = m ++ [(k, v)] := by
  induction m with
  | nil => rfl
  | cons a m ih =>
    rw [insertEntry_cons_of_lt (h a mem_cons_self), ih fun a' ha' => h a' (mem_cons_of_mem _ ha'),
      cons_append]

theorem lookup_eq_none_of_lt {k : List Char} {m : List (List Char × HeaderValue)}
    (h : ∀ a ∈ m, a.1 < k) : m.lookup k = none := by
  induction m with
  | nil => rfl
  | cons a m ih =>
    have hak : (k == a.1) = false := beq_eq_false_iff_ne.mpr (key_ne_of_lt (h a mem_cons_self)).symm
    rw [lookup_cons, hak, ih fun a' ha' => h a' (mem_cons_of_mem _ ha')]

theorem parseList_of_endsAt {rest : List (List Char)} {lst : List HeaderValue}
    (hrest : EndsAt b rest) : parseList (fuel + 1) rest b lst = .ok (.list lst, rest) := by
  cases rest with
  | nil => simp [parseList]
  | cons l ls =>
    have hl : (replicate (b + 2) ' ' ++ ['-']).isPrefixOf l = false := by
      rw [Bool.eq_false_iff, ne_eq, isPrefixOf_iff_prefix]
      exact fun h => hrest l rfl ((prefix_append _ _).trans h)
    simp [parseList, hl]

theorem parseMap_of_endsAt {rest : List (List Char)} {m : List (List Char × HeaderValue)}
    (hrest : EndsAt b rest) : parseMap (fuel + 1) rest b m = .ok (.map m, rest) := by
  cases rest with
  | nil => simp [parseMap]
  | cons l ls =>
    have hl : (replicate (b + 2) ' ').isPrefixOf l = false := by
      rw [Bool.eq_false_iff, ne_eq, isPrefixOf_iff_prefix]
      exact hrest l rfl
    simp [parseMap, hl]

theorem parseList_element {u : List Char} {lst : List HeaderValue} {v : HeaderValue}
    {after : List (List Char)}
    (h : parseEntry fuel (nestingPrefix b listPrefix).length (nestingPrefix b listPrefix ++ u) tl
      (b + listPrefix.length - 1) = .ok (v, after)) :
    parseList (fuel + 1) ((nestingPrefix b listPrefix ++ u) :: tl) b lst =
      parseList fuel after b (lst ++ [v]) := by
  simp only [parseList, isPrefixOf_iff_prefix, prefix_append, if_true, h]

theorem parseMap_entry {k u : List Char} {m : List (List Char × HeaderValue)} {v : HeaderValue}
    {after : List (List Char)} (hk : headerNameValidity.rmatch k = true) (hnew : m.lookup k = none)
    (h : parseEntry fuel (nestingPrefix b commonPrefix ++ k ++ [':']).length
      (nestingPrefix b commonPrefix ++ k ++ [':'] ++ u) tl (nestingPrefix b commonPrefix).length =
        .ok (v, after)) :
    parseMap (fuel + 1) ((nestingPrefix b commonPrefix ++ k ++ [':'] ++ u) :: tl) b m =
      parseMap fuel after b (insertEntry k v m) := by
  have hcolon : ':' ∉ k := headerName_char_ne hk (Or.inl rfl)
  have hentry : (nestingPrefix b commonPrefix ++ k ++ [':'] ++ u).drop
      (nestingPrefix b commonPrefix).length = k ++ ':' :: u := by simp
  have hlen : (nestingPrefix b commonPrefix ++ k ++ [':']).length =
      (nestingPrefix b commonPrefix).length + k.length + 1 := by
    simp only [length_append, length_singleton]
  rw [hlen] at h
  simp only [parseMap, isPrefixOf_iff_prefix, append_assoc, prefix_append, if_true]
  simp only [← append_assoc, hentry, idxOf?_colon hcolon, take_left', hk, h, hnew]
  simp

theorem endsAt_cons {n : Nat} {c : Char} {t : List Char} (hc : c ≠ ' ') (hn : n < b + 2) :
    EndsAt b ((replicate n ' ' ++ c :: t) :: tl) := by
  intro l hl
  rw [head?_cons, Option.mem_some_iff] at hl
  subst hl
  exact not_replicate_prefix hc hn

theorem entryLine_eq {k u : List Char} (hk : headerNameValidity.rmatch k = true) (n : Nat) :
    ∃ c t, c ≠ ' ' ∧ c ≠ '-' ∧ replicate n ' ' ++ k ++ [':'] ++ u = replicate n ' ' ++ c :: t := by
  obtain ⟨c, cs, rfl, hc, -⟩ := headerName_chars hk
  have hspace : c ≠ ' ' := by
    rintro rfl
    exact absurd hc.1 (by decide)
  have hdash : c ≠ '-' := by
    rintro rfl
    exact absurd hc.1 (by decide)
  exact ⟨c, cs ++ ':' :: u, hspace, hdash, by simp⟩

theorem endsAt_listLines {vs : List HeaderValue} (hvs : HeaderValue.ListWellFormed vs)
    {rest : List (List Char)} (hrest : EndsAt b rest) :
    EndsAt (b + listPrefix.length - 1)
      (listLines (nestingPrefix b listPrefix) vs (b + listPrefix.length - 1) ++ rest) := by
  cases vs with
  | nil => simpa [listLines] using hrest.deeper 2
  | cons v vs =>
    -- the next element's line has its dash where the element's own lines are indented
    obtain ⟨first, cont, heq, ⟨u, rfl⟩, -⟩ := entryLines_shape _ v _ hvs.1
    have hline : nestingPrefix b listPrefix ++ u = replicate (b + 2) ' ' ++ '-' :: u := by simp
    rw [listLines, heq, cons_append, cons_append, hline]
    exact endsAt_cons (by decide) (by simp)

theorem endsAt_mapLines {m : List (List Char × HeaderValue)} (hm : HeaderValue.EntriesWellFormed m)
    {rest : List (List Char)} (hrest : EndsAt b rest) :
    EndsAt (nestingPrefix b commonPrefix).length (mapLines (nestingPrefix b commonPrefix) m ++ rest) := by
  cases m with
  | nil => simpa [mapLines] using hrest.deeper 2
  | cons e m =>
    obtain ⟨k, v⟩ := e
    obtain ⟨first, cont, heq, ⟨u, rfl⟩, -⟩ := entryLines_shape _ v _ hm.2.1
    obtain ⟨c, t, hc, -, hline⟩ := entryLine_eq (u := u) hm.1 (b + 2)
    rw [mapLines, heq, cons_append, cons_append, nestingPrefix_commonPrefix, hline]
    exact endsAt_cons hc (by simp)

end Steps

section Parse

mutual

/-- `parseEntry` reads back a value from the lines `entryLines` gives for it, followed by lines
indented less, with fuel for two turns a line. -/
theorem parseEntry_entryLines (intro : List Char) : ∀ (v : HeaderValue) (b : Nat), v.WellFormed →
    ∀ {first : List Char} {cont rest : List (List Char)},
    entryLines intro v b = first :: cont → EndsAt b rest → ∀ fuel, 2 * cont.length + 2 ≤ fuel →
      parseEntry fuel intro.length first (cont ++ rest) b = .ok (v, rest)
  | .str x, b, _, first, cont, rest, heq, hrest, fuel, hfuel => by
    obtain ⟨f, rfl⟩ : ∃ f, fuel = f + 1 := ⟨fuel - 1, by omega⟩
    by_cases hx : '\n' ∈ x
    · -- the text is on the lines after the introduction, four spaces in
      simp only [entryLines, if_pos hx, nestingPrefix_multilinePrefix, cons.injEq] at heq
      obtain ⟨rfl, rfl⟩ := heq
      obtain ⟨seg, segs, hsplit⟩ := exists_cons_of_ne_nil (splitOn_ne_nil '\n' x)
      have htext := parseMultilineText_lines intro (splitOn_ne_nil '\n' x) hrest
      rw [intercalate_splitOn, hsplit, map_cons, cons_append] at htext
      rw [hsplit, map_cons, cons_append, parseEntry_textIntro]
      exact htext
    · simp only [entryLines, if_neg hx, cons.injEq] at heq
      obtain ⟨rfl, rfl⟩ := heq
      exact parseEntry_simple intro x
  | .list [], _, h, _, _, _, _, _, _, _ => absurd rfl h.1
  | .list (v :: vs), b, h, first, cont, rest, heq, hrest, fuel, hfuel => by
    simp only [entryLines, cons.injEq] at heq
    obtain ⟨rfl, rfl⟩ := heq
    obtain ⟨f, rfl⟩ : ∃ f, fuel = f + 1 := ⟨fuel - 1, by omega⟩
    obtain ⟨first', cont', heq', ⟨u, rfl⟩, -⟩ :=
      entryLines_shape (nestingPrefix b listPrefix) v (b + listPrefix.length - 1) h.2.1
    have hlines : listLines (nestingPrefix b listPrefix) (v :: vs) (b + listPrefix.length - 1) ++
        rest = (replicate (b + 2) ' ' ++ '-' :: u) ::
          (cont' ++ listLines (nestingPrefix b listPrefix) vs (b + listPrefix.length - 1) ++ rest) := by
      rw [listLines, heq']
      simp
    rw [hlines, parseEntry_listIntro, ← hlines]
    simpa using parseList_listLines (v :: vs) b h.2 hrest [] f (by omega)
  | .map [], _, h, _, _, _, _, _, _, _ => absurd rfl h.1
  | .map ((k, v) :: m), b, h, first, cont, rest, heq, hrest, fuel, hfuel => by
    simp only [entryLines, cons.injEq] at heq
    obtain ⟨rfl, rfl⟩ := heq
    obtain ⟨f, rfl⟩ : ∃ f, fuel = f + 1 := ⟨fuel - 1, by omega⟩
    obtain ⟨first', cont', heq', ⟨u, rfl⟩, -⟩ :=
      entryLines_shape (nestingPrefix b commonPrefix ++ k ++ [':']) v
        (nestingPrefix b commonPrefix).length h.2.2.2.1
    obtain ⟨c, t, hspace, hdash, hline⟩ := entryLine_eq (u := u) h.2.2.1 (b + 2)
    have hlines : mapLines (nestingPrefix b commonPrefix) ((k, v) :: m) ++ rest =
        (replicate (b + 2) ' ' ++ c :: t) ::
          (cont' ++ mapLines (nestingPrefix b commonPrefix) m ++ rest) := by
      rw [mapLines, heq', ← hline]
      simp
    rw [hlines, parseEntry_mapIntro hspace hdash, ← hlines]
    simpa using parseMap_mapLines ((k, v) :: m) b h.2.2 h.2.1 hrest [] (by simp) f (by omega)

theorem parseList_listLines : ∀ (vs : List HeaderValue) (b : Nat), HeaderValue.ListWellFormed vs →
    ∀ {rest : List (List Char)}, EndsAt b rest → ∀ (lst : List HeaderValue) (fuel : Nat),
    2 * (listLines (nestingPrefix b listPrefix) vs (b + listPrefix.length - 1)).length < fuel →
      parseList fuel (listLines (nestingPrefix b listPrefix) vs (b + listPrefix.length - 1) ++ rest)
        b lst = .ok (.list (lst ++ vs), rest)
  | [], b, _, rest, hrest, lst, fuel, hfuel => by
    obtain ⟨f, rfl⟩ : ∃ f, fuel = f + 1 := ⟨fuel - 1, by omega⟩
    simpa [listLines] using parseList_of_endsAt hrest
  | v :: vs, b, h, rest, hrest, lst, fuel, hfuel => by
    obtain ⟨f, rfl⟩ : ∃ f, fuel = f + 1 := ⟨fuel - 1, by omega⟩
    obtain ⟨first, cont, heq, ⟨u, rfl⟩, -⟩ :=
      entryLines_shape (nestingPrefix b listPrefix) v (b + listPrefix.length - 1) h.1
    have hlines : listLines (nestingPrefix b listPrefix) (v :: vs) (b + listPrefix.length - 1) ++
        rest = (nestingPrefix b listPrefix ++ u) ::
          (cont ++ (listLines (nestingPrefix b listPrefix) vs (b + listPrefix.length - 1) ++ rest)) := by
      simp only [listLines, heq, cons_append, append_assoc]
    have hlen : (listLines (nestingPrefix b listPrefix) (v :: vs) (b + listPrefix.length - 1)).length =
        cont.length + 1 + (listLines (nestingPrefix b listPrefix) vs (b + listPrefix.length - 1)).length := by
      rw [listLines, length_append, heq, length_cons]
    have hv := parseEntry_entryLines _ v _ h.1 heq (endsAt_listLines h.2 hrest) f (by omega)
    rw [hlines, parseList_element hv]
    simpa using parseList_listLines vs b h.2 hrest (lst ++ [v]) f (by omega)

theorem parseMap_mapLines : ∀ (m : List (List Char × HeaderValue)) (b : Nat),
    HeaderValue.EntriesWellFormed m → (m.map Prod.fst).Pairwise (· < ·) →
    ∀ {rest : List (List Char)}, EndsAt b rest → ∀ (acc : List (List Char × HeaderValue)),
    (∀ a ∈ acc, ∀ e ∈ m, a.1 < e.1) → ∀ (fuel : Nat),
    2 * (mapLines (nestingPrefix b commonPrefix) m).length < fuel →
      parseMap fuel (mapLines (nestingPrefix b commonPrefix) m ++ rest) b acc =
        .ok (.map (acc ++ m), rest)
  | [], b, _, _, rest, hrest, acc, _, fuel, hfuel => by
    obtain ⟨f, rfl⟩ : ∃ f, fuel = f + 1 := ⟨fuel - 1, by omega⟩
    simpa [mapLines] using parseMap_of_endsAt hrest
  | (k, v) :: m, b, h, hsorted, rest, hrest, acc, hacc, fuel, hfuel => by
    obtain ⟨f, rfl⟩ : ∃ f, fuel = f + 1 := ⟨fuel - 1, by omega⟩
    obtain ⟨first, cont, heq, ⟨u, rfl⟩, -⟩ :=
      entryLines_shape (nestingPrefix b commonPrefix ++ k ++ [':']) v
        (nestingPrefix b commonPrefix).length h.2.1
    have hlines : mapLines (nestingPrefix b commonPrefix) ((k, v) :: m) ++ rest =
        (nestingPrefix b commonPrefix ++ k ++ [':'] ++ u) ::
          (cont ++ (mapLines (nestingPrefix b commonPrefix) m ++ rest)) := by
      rw [mapLines, heq, cons_append, cons_append, append_assoc cont]
    have hlen : (mapLines (nestingPrefix b commonPrefix) ((k, v) :: m)).length =
        cont.length + 1 + (mapLines (nestingPrefix b commonPrefix) m).length := by
      rw [mapLines, length_append, heq, length_cons]
    have hv := parseEntry_entryLines _ v _ h.2.1 heq (endsAt_mapLines h.2.2 hrest) f (by omega)
    -- every key read so far is below this one, which is below the keys after it
    rw [map_cons] at hsorted
    have hk : ∀ a ∈ acc, a.1 < k := fun a ha => hacc a ha (k, v) mem_cons_self
    have hacc' : ∀ a ∈ acc ++ [(k, v)], ∀ e ∈ m, a.1 < e.1 := by
      intro a ha e he
      rcases mem_append.mp ha with ha | ha
      · exact hacc a ha e (mem_cons_of_mem _ he)
      · rw [mem_singleton] at ha
        subst ha
        exact rel_of_pairwise_cons hsorted (mem_map_of_mem he)
    rw [hlines, parseMap_entry h.1 (lookup_eq_none_of_lt hk) hv, insertEntry_of_lt hk]
    simpa using parseMap_mapLines m b h.2.2 (pairwise_cons.mp hsorted).2 hrest (acc ++ [(k, v)])
      hacc' f (by omega)

end

end Parse

section Block

/-- The lines `writeHeaders` writes for the headers named in `order`. -/
def headerLines (headers : List (List Char × HeaderValue)) (order : List (List Char)) :
    List (List Char) :=
  order.flatMap fun name =>
    match headers.lookup name with
    | some v => entryLines (name ++ [':']) v 0
    | none => []

theorem headerLines_cons (headers : List (List Char × HeaderValue)) (name : List Char)
    (order : List (List Char)) :
    headerLines headers (name :: order) =
      (match headers.lookup name with
        | some v => entryLines (name ++ [':']) v 0
        | none => []) ++ headerLines headers order :=
  flatMap_cons

theorem intercalate_cons_eq_flatMap {α : Type} (sep : α) :
    ∀ (l : List α) (ls : List (List α)), [sep].intercalate (l :: ls) = l ++ ls.flatMap (sep :: ·)
  | l, [] => by simp
  | l, l' :: ls => by
    rw [intercalate_cons_cons, intercalate_cons_eq_flatMap sep l' ls]
    simp

theorem writeHeaders_eq_intercalate (typeName : List Char) (headers : List (List Char × HeaderValue))
    (order : List (List Char)) :
    writeHeaders typeName headers order =
      ['\n'].intercalate (("type: ".toList ++ typeName) :: headerLines headers order) := by
  unfold writeHeaders headerLines
  rw [intercalate_cons_eq_flatMap, flatMap_assoc]
  congr 1
  congr 1
  funext name
  cases headers.lookup name with
  | none => rfl
  | some v => exact appendEntry_eq_flatMap _ v 0

theorem mem_of_lookup_eq_some {α β : Type} [BEq α] [LawfulBEq α] {m : List (α × β)} {k : α} {v : β}
    (h : m.lookup k = some v) : (k, v) ∈ m := by
  obtain ⟨l₁, l₂, hl, -⟩ := lookup_eq_some_iff.mp h
  simp [hl]

theorem HeaderValue.EntriesWellFormed.of_mem {m : List (List Char × HeaderValue)}
    (h : HeaderValue.EntriesWellFormed m) {k : List Char} {v : HeaderValue} (hmem : (k, v) ∈ m) :
    headerNameValidity.rmatch k = true ∧ v.WellFormed := by
  induction m with
  | nil => exact absurd hmem not_mem_nil
  | cons e m ih =>
    obtain ⟨k', v'⟩ := e
    rcases mem_cons.mp hmem with heq | hmem
    · obtain ⟨rfl, rfl⟩ := Prod.mk.inj heq
      exact ⟨h.1, h.2.1⟩
    · exact ih h.2.2 hmem

mutual

theorem entryLines_no_newline (intro : List Char) (hintro : '\n' ∉ intro) :
    ∀ (v : HeaderValue) (b : Nat), v.WellFormed → ∀ l ∈ entryLines intro v b, '\n' ∉ l
  | .str x, b, _ => by
    by_cases hx : '\n' ∈ x
    · simp only [entryLines, if_pos hx, nestingPrefix_multilinePrefix, mem_cons, mem_map]
      rintro l (rfl | ⟨seg, hseg, rfl⟩)
      · exact hintro
      · simpa using not_newline_mem_splitOn hseg
    · simp only [entryLines, if_neg hx, mem_singleton]
      rintro l rfl
      simp [hintro, hx]
  | .list [], _, _ => by simp [entryLines]
  | .list (v :: vs), b, h => by
    simp only [entryLines, mem_cons]
    rintro l (rfl | hl)
    · exact hintro
    · exact listLines_no_newline _ (by simp) (v :: vs) _ h.2 l hl
  | .map [], _, _ => by simp [entryLines]
  | .map ((k, v) :: m), b, h => by
    simp only [entryLines, mem_cons]
    rintro l (rfl | hl)
    · exact hintro
    · exact mapLines_no_newline _ (by simp) ((k, v) :: m) h.2.2 l hl

theorem listLines_no_newline (pfx : List Char) (hpfx : '\n' ∉ pfx) :
    ∀ (vs : List HeaderValue) (b : Nat), HeaderValue.ListWellFormed vs →
      ∀ l ∈ listLines pfx vs b, '\n' ∉ l
  | [], _, _ => by simp [listLines]
  | v :: vs, b, h => by
    simp only [listLines, mem_append]
    rintro l (hl | hl)
    · exact entryLines_no_newline pfx hpfx v b h.1 l hl
    · exact listLines_no_newline pfx hpfx vs b h.2 l hl

theorem mapLines_no_newline (pfx : List Char) (hpfx : '\n' ∉ pfx) :
    ∀ (m : List (List Char × HeaderValue)), HeaderValue.EntriesWellFormed m →
      ∀ l ∈ mapLines pfx m, '\n' ∉ l
  | [], _ => by simp [mapLines]
  | (k, v) :: m, h => by
    have hk : '\n' ∉ k := headerName_char_ne h.1 (Or.inr (Or.inl rfl))
    simp only [mapLines, mem_append]
    rintro l (hl | hl)
    · exact entryLines_no_newline (pfx ++ k ++ [':']) (by simp [hpfx, hk]) v _ h.2.1 l hl
    · exact mapLines_no_newline pfx hpfx m h.2.2 l hl

end

/-- Assigning a header of a map sorted by key to the map's headers of some names gives the map's
headers of one more name: the accumulator of `parseHeaders` stays a part of the map. -/
theorem insertEntry_filter {headers : List (List Char × HeaderValue)}
    (hsorted : (headers.map Prod.fst).Pairwise (· < ·)) {n : List Char} {v : HeaderValue}
    (hmem : (n, v) ∈ headers) {ns : List (List Char)} (hn : n ∉ ns) :
    insertEntry n v (headers.filter fun e => e.1 ∈ ns) = headers.filter fun e => e.1 ∈ n :: ns := by
  induction headers with
  | nil => exact absurd hmem not_mem_nil
  | cons e hs ih =>
    obtain ⟨k, w⟩ := e
    rw [map_cons, pairwise_cons] at hsorted
    have hgt : ∀ a ∈ hs, k < a.1 := fun a ha => hsorted.1 a.1 (mem_map_of_mem ha)
    rcases mem_cons.mp hmem with heq | hmem
    · -- the header is the first: every header after it is above it
      obtain ⟨rfl, rfl⟩ := Prod.mk.inj heq
      have hfilter : (hs.filter fun e => e.1 ∈ n :: ns) = hs.filter fun e => e.1 ∈ ns :=
        filter_congr fun a ha => by simp [(key_ne_of_lt (hgt a ha)).symm]
      rw [filter_cons_of_neg (by simpa using hn), filter_cons_of_pos (by simp), hfilter,
        insertEntry_eq_cons fun a ha => hgt a (mem_filter.mp ha).1]
    · have hkn : k < n := hgt (n, v) hmem
      by_cases hk : k ∈ ns
      · rw [filter_cons_of_pos (by simpa using hk), filter_cons_of_pos (by simp [hk]),
          insertEntry_cons_of_lt hkn, ih hsorted.2 hmem]
      · rw [filter_cons_of_neg (by simpa using hk),
          filter_cons_of_neg (by simp [hk, key_ne_of_lt hkn]), ih hsorted.2 hmem]

theorem parseHeaderLines_entry {fuel : Nat} {name u : List Char} {tl : List (List Char)}
    {headers : List (List Char × HeaderValue)} {v : HeaderValue} {after : List (List Char)}
    (hname : headerNameValidity.rmatch name = true) (hnew : headers.lookup name = none)
    (h : parseEntry fuel (name ++ [':']).length (name ++ [':'] ++ u) tl 0 = .ok (v, after)) :
    parseHeaderLines (fuel + 1) ((name ++ [':'] ++ u) :: tl) headers =
      parseHeaderLines fuel after (insertEntry name v headers) := by
  have hcolon : ':' ∉ name := headerName_char_ne hname (Or.inl rfl)
  rw [length_append, length_singleton] at h
  simp only [append_assoc, singleton_append] at h ⊢
  simp only [parseHeaderLines, idxOf?_colon hcolon, take_left', hname, h, hnew]
  simp

theorem endsAt_headerLines {headers : List (List Char × HeaderValue)}
    (hwf : HeaderValue.EntriesWellFormed headers) (order : List (List Char)) :
    EndsAt 0 (headerLines headers order) := by
  induction order with
  | nil => simp [EndsAt, headerLines]
  | cons name order ih =>
    rw [headerLines_cons]
    cases hv : headers.lookup name with
    | none => exact ih
    | some v =>
      obtain ⟨hname, hvwf⟩ := hwf.of_mem (mem_of_lookup_eq_some hv)
      obtain ⟨first, cont, heq, ⟨u, rfl⟩, -⟩ := entryLines_shape (name ++ [':']) v 0 hvwf
      obtain ⟨c, t, hc, -, hline⟩ := entryLine_eq (u := u) hname 0
      have hline' : name ++ [':'] ++ u = replicate 0 ' ' ++ c :: t := by simpa using hline
      simp only [heq, cons_append, hline']
      exact endsAt_cons hc (by omega)

/-- `parseHeaders` reads the lines of the headers named in `order` into the headers read so far,
when those are the map's headers of other names. -/
theorem parseHeaderLines_headerLines {headers : List (List Char × HeaderValue)}
    (hsorted : (headers.map Prod.fst).Pairwise (· < ·)) (hwf : HeaderValue.EntriesWellFormed headers)
    (order : List (List Char)) :
    ∀ (ns : List (List Char)), (order ++ ns).Nodup → (∀ n ∈ order, n ∈ headers.map Prod.fst) →
    ∀ fuel, 2 * (headerLines headers order).length < fuel →
      parseHeaderLines fuel (headerLines headers order) (headers.filter fun e => e.1 ∈ ns) =
        .ok (headers.filter fun e => e.1 ∈ order ++ ns) := by
  induction order with
  | nil =>
    intro ns _ _ fuel hfuel
    obtain ⟨f, rfl⟩ : ∃ f, fuel = f + 1 := ⟨fuel - 1, by omega⟩
    simp [headerLines, parseHeaderLines]
  | cons name order ih =>
    intro ns hnodup hkeys fuel hfuel
    obtain ⟨f, rfl⟩ : ∃ f, fuel = f + 1 := ⟨fuel - 1, by omega⟩
    obtain ⟨p, hp, hpn⟩ := mem_map.mp (hkeys name mem_cons_self)
    obtain ⟨v, hv⟩ : ∃ v, headers.lookup name = some v :=
      Option.isSome_iff_exists.mp (lookup_isSome_iff.mpr ⟨p, hp, by simp [hpn]⟩)
    have hmem : (name, v) ∈ headers := mem_of_lookup_eq_some hv
    obtain ⟨hname, hvwf⟩ := hwf.of_mem hmem
    obtain ⟨first, cont, heq, ⟨u, rfl⟩, -⟩ := entryLines_shape (name ++ [':']) v 0 hvwf
    have hlines : headerLines headers (name :: order) =
        (name ++ [':'] ++ u) :: (cont ++ headerLines headers order) := by
      rw [headerLines_cons, hv]
      simp only [heq, cons_append]
    have hlen : (headerLines headers (name :: order)).length =
        cont.length + 1 + (headerLines headers order).length := by
      rw [hlines, length_cons, length_append]
      omega
    have hentry :=
      parseEntry_entryLines (name ++ [':']) v 0 hvwf heq (endsAt_headerLines hwf order) f (by omega)
    have hn : name ∉ ns := fun h => (nodup_cons.mp hnodup).1 (mem_append_right _ h)
    have hnew : (headers.filter fun e => e.1 ∈ ns).lookup name = none := by
      rw [lookup_eq_none_iff]
      intro q hq
      have hq : q.1 ∈ ns := by simpa using (mem_filter.mp hq).2
      simpa using fun h : name = q.1 => hn (h ▸ hq)
    rw [hlines, parseHeaderLines_entry hname hnew hentry, insertEntry_filter hsorted hmem hn,
      ih (name :: ns) (nodup_middle.mpr hnodup) (fun n hn => hkeys n (mem_cons_of_mem _ hn)) f
        (by omega)]
    congr 1
    exact filter_congr fun e _ => by simp [perm_middle.mem_iff]

/-- The header format reads back what it writes: `parseHeaders` returns the headers `writeHeaders`
wrote, whatever the order of the headers after the type, when the headers are a well-formed map
and the type's name is one line. -/
theorem parseHeaders_writeHeaders {typeName : List Char} {headers : List (List Char × HeaderValue)}
    {order : List (List Char)} (hwf : (HeaderValue.map headers).WellFormed)
    (htype : headers.lookup "type".toList = some (.str typeName)) (hline : '\n' ∉ typeName)
    (horder : ("type".toList :: order).Perm (headers.map Prod.fst)) :
    parseHeaders (writeHeaders typeName headers order) = .ok headers := by
  obtain ⟨-, hsorted, hentries⟩ := hwf
  have hlines : ("type: ".toList ++ typeName) :: headerLines headers order =
      headerLines headers ("type".toList :: order) := by
    rw [headerLines_cons, htype]
    simp [entryLines, hline]
  have hnewline : ∀ l ∈ headerLines headers ("type".toList :: order), '\n' ∉ l := by
    intro l hl
    obtain ⟨name, -, hl⟩ := mem_flatMap.mp hl
    cases hv : headers.lookup name with
    | none => simp [hv] at hl
    | some v =>
      rw [hv] at hl
      obtain ⟨hname, hvwf⟩ := hentries.of_mem (mem_of_lookup_eq_some hv)
      have hintro : '\n' ∉ name ++ [':'] := by
        simp [headerName_char_ne hname (Or.inr (Or.inl rfl))]
      exact entryLines_no_newline _ hintro v 0 hvwf l hl
  have hsplit : (writeHeaders typeName headers order).splitOn '\n' =
      headerLines headers ("type".toList :: order) := by
    rw [writeHeaders_eq_intercalate, hlines,
      splitOn_intercalate _ hnewline (by rw [← hlines]; exact cons_ne_nil _ _)]
  have hnodup : ("type".toList :: order ++ []).Nodup := by
    rw [append_nil]
    exact horder.nodup_iff.mpr hsorted.nodup
  have hread := parseHeaderLines_headerLines hsorted hentries ("type".toList :: order) []
    hnodup (fun n hn => horder.subset hn)
    (2 * (headerLines headers ("type".toList :: order)).length + 2) (by omega)
  have hnone : (headers.filter fun e => e.1 ∈ ([] : List (List Char))) = [] := by simp
  have hall : (headers.filter fun e => e.1 ∈ "type".toList :: order ++ []) = headers :=
    filter_eq_self.mpr fun e he => by simpa using horder.symm.subset (mem_map_of_mem he)
  rw [hnone, hall] at hread
  simp only [parseHeaders, hsplit]
  exact hread

/-- The headers of an account assertion, with an `extra` header. -/
def accountHeaders (extra : HeaderValue) : List (List Char × HeaderValue) :=
  [("account-id".toList, .str "acc".toList), ("authority-id".toList, .str "canonical".toList),
   ("display-name".toList, .str "A".toList), ("extra".toList, extra),
   ("sign-key-sha3-384".toList, .str "K".toList), ("timestamp".toList, .str "T".toList),
   ("type".toList, .str "account".toList), ("validation".toList, .str "verified".toList)]

/-- The order `assembleAndSign` writes the account headers in after the type. -/
def accountOrder : List (List Char) :=
  ["authority-id".toList, "account-id".toList, "display-name".toList, "extra".toList,
   "timestamp".toList, "validation".toList, "sign-key-sha3-384".toList]

theorem account_headers_read_back :
    parseHeaders (writeHeaders "account".toList
        (accountHeaders (.map [("k".toList, .list [.str "a".toList, .str "b\nc".toList])]))
        accountOrder) =
      .ok (accountHeaders (.map [("k".toList, .list [.str "a".toList, .str "b\nc".toList])])) :=
  parseHeaders_writeHeaders
    (by
      simp only [accountHeaders, HeaderValue.WellFormed, HeaderValue.ListWellFormed,
        HeaderValue.EntriesWellFormed]
      decide)
    (by decide) (by decide) (by decide)

/-- An empty list is a header value `checkHeader` accepts, but `appendEntry` writes nothing for
it, so the headers read back lack it. -/
theorem empty_extra_header_not_read_back :
    parseHeaders (writeHeaders "account".toList (accountHeaders (.list [])) accountOrder) =
        .ok ((accountHeaders (.list [])).filter fun e => e.1 ≠ "extra".toList) ∧
      parseHeaders (writeHeaders "account".toList (accountHeaders (.list [])) accountOrder) ≠
        .ok (accountHeaders (.list [])) := by
  decide +kernel

end Block

end Snapd.Asserts
