import Mathlib.Data.List.Basic

/-! Go's slash-separated path functions as `path/filepath` documents them on Unix (`Clean`,
`Join`, `Split`), and what `os.Expand` is documented to do with a `$name`: the name, made of
letters, digits and `_` and not starting with a digit, is replaced by the mapping of it, and
text without `$` is left as it is. -/

namespace GoPath

/-- The rules of `Clean` on the elements of a path, with the elements kept so far in
reverse: `.` and empty elements go, `..` removes the element before it, and a `..` at the
start of a rooted path goes. -/
def cleanElems (rooted : Bool) : List (List Char) → List (List Char) → List (List Char)
  | [], acc => acc
  | e :: es, acc =>
    if e = [] ∨ e = ['.'] then cleanElems rooted es acc
    else if e = ['.', '.'] then
      match acc with
      | top :: rest =>
        if top = ['.', '.'] then cleanElems rooted es (e :: acc) else cleanElems rooted es rest
      | [] => if rooted then cleanElems rooted es [] else cleanElems rooted es [e]
    else cleanElems rooted es (e :: acc)

/-- `filepath.Clean`: the shortest path equivalent by lexical processing, `.` if that is
empty. -/
def clean (path : List Char) : List Char :=
  let rooted := path.head? = some '/'
  let body := ['/'].intercalate (cleanElems rooted (path.splitOn '/') []).reverse
  let cleaned := if rooted then '/' :: body else body
  if cleaned = [] then ['.'] else cleaned

/-- `filepath.Join`: the non-empty elements joined by `/` and cleaned; empty if there are
none. -/
def join (elems : List (List Char)) : List Char :=
  let nonEmpty := elems.filter (· ≠ [])
  if nonEmpty = [] then [] else clean (['/'].intercalate nonEmpty)

/-- `filepath.Split`: the path up to and including its last `/`, and the rest. -/
def split (path : List Char) : List Char × List Char :=
  let file := (path.reverse.takeWhile (· ≠ '/')).reverse
  (path.take (path.length - file.length), file)

/-- `filepath.Dir`: the path up to its last `/`, cleaned (`.` when there is no `/`). -/
def dir (path : List Char) : List Char := clean (split path).1

/-! ## `Clean` is idempotent

The elements `Clean` keeps are never empty, `.` or contain `/`, and a `..` stays only at the
start of a path that is not rooted. On such elements its rules change nothing, so a clean
path cleans to itself. -/

section Clean

/-- An element that `Clean` keeps as it is wherever it stands. -/
def Ordinary (e : List Char) : Prop := e ≠ [] ∧ e ≠ ['.'] ∧ e ≠ ['.', '.'] ∧ '/' ∉ e

theorem cleanElems_cons (rooted : Bool) (e : List Char) (es acc : List (List Char)) :
    cleanElems rooted (e :: es) acc =
      if e = [] ∨ e = ['.'] then cleanElems rooted es acc
      else if e = ['.', '.'] then
        match acc with
        | top :: rest =>
          if top = ['.', '.'] then cleanElems rooted es (e :: acc) else cleanElems rooted es rest
        | [] => if rooted then cleanElems rooted es [] else cleanElems rooted es [e]
      else cleanElems rooted es (e :: acc) := by
  rw [cleanElems.eq_def]

theorem cleanElems_append (rooted : Bool) (xs ys acc : List (List Char)) :
    cleanElems rooted (xs ++ ys) acc = cleanElems rooted ys (cleanElems rooted xs acc) := by
  induction xs generalizing acc with
  | nil => rfl
  | cons e es ih =>
    simp only [List.cons_append, cleanElems]
    split_ifs <;> (try split) <;> (try split_ifs) <;> exact ih _

theorem cleanElems_ordinary (rooted : Bool) {ys : List (List Char)} (hys : ∀ y ∈ ys, Ordinary y)
    (acc : List (List Char)) : cleanElems rooted ys acc = ys.reverse ++ acc := by
  induction ys generalizing acc with
  | nil => rfl
  | cons y ys ih =>
    obtain ⟨h1, h2, h3, -⟩ := hys y List.mem_cons_self
    rw [cleanElems_cons, if_neg (by simp [h1, h2]), if_neg h3,
      ih (fun z hz => hys z (List.mem_cons_of_mem _ hz))]
    simp

theorem cleanElems_dotdots (k m : Nat) :
    cleanElems false (List.replicate k ['.', '.']) (List.replicate m ['.', '.']) =
      List.replicate (k + m) ['.', '.'] := by
  induction k generalizing m with
  | zero => simp [cleanElems]
  | succ k ih =>
    rw [List.replicate_succ, cleanElems_cons, if_neg (by simp), if_pos rfl]
    rcases m with _ | m
    · simpa using ih 1
    · have hrun : ['.', '.'] :: ['.', '.'] :: List.replicate m ['.', '.'] =
          List.replicate (m + 2) ['.', '.'] := rfl
      simp only [List.replicate_succ, ↓reduceIte]
      rw [hrun, ih]
      congr 1
      omega

/-- What `cleanElems` keeps, in reverse: ordinary elements, after a run of `..` that only a
path that is not rooted can have. -/
def CleanAcc (rooted : Bool) (acc : List (List Char)) : Prop :=
  ∃ ys m, acc = ys ++ List.replicate m ['.', '.'] ∧ (∀ y ∈ ys, Ordinary y) ∧ (rooted = true → m = 0)

theorem cleanAcc_nil (rooted : Bool) : CleanAcc rooted [] := ⟨[], 0, rfl, by simp, fun _ => rfl⟩

theorem cleanElems_cleanAcc (rooted : Bool) {es acc : List (List Char)} (hes : ∀ e ∈ es, '/' ∉ e)
    (hacc : CleanAcc rooted acc) : CleanAcc rooted (cleanElems rooted es acc) := by
  induction es generalizing acc with
  | nil => exact hacc
  | cons e es ih =>
    have hrest : ∀ e ∈ es, '/' ∉ e := fun x hx => hes x (List.mem_cons_of_mem _ hx)
    obtain ⟨ys, m, rfl, hys, hm⟩ := hacc
    rw [cleanElems_cons]
    by_cases hskip : e = [] ∨ e = ['.']
    · rw [if_pos hskip]
      exact ih hrest ⟨ys, m, rfl, hys, hm⟩
    rw [if_neg hskip]
    by_cases hdd : e = ['.', '.']
    swap
    · rw [if_neg hdd]
      have hord : Ordinary e :=
        ⟨fun h => hskip (.inl h), fun h => hskip (.inr h), hdd, hes e List.mem_cons_self⟩
      refine ih hrest ⟨e :: ys, m, rfl, ?_, hm⟩
      intro y hy
      rcases List.mem_cons.mp hy with rfl | hy
      · exact hord
      · exact hys y hy
    rw [if_pos hdd]
    subst hdd
    -- the `..` removes the ordinary element before it, joins the run of `..`, or goes at the root
    rcases ys with _ | ⟨y, ys⟩
    · rcases m with _ | m
      · cases rooted
        · exact ih hrest ⟨[], 1, rfl, by simp, by simp⟩
        · exact ih hrest (cleanAcc_nil true)
      · simp only [List.nil_append, List.replicate_succ, ↓reduceIte]
        refine ih hrest ⟨[], m + 2, rfl, by simp, fun hr => ?_⟩
        exact absurd (hm hr) (by omega)
    · obtain ⟨-, -, hy, -⟩ := hys y List.mem_cons_self
      simp only [List.cons_append, hy, ↓reduceIte]
      exact ih hrest ⟨ys, m, rfl, fun z hz => hys z (List.mem_cons_of_mem _ hz), hm⟩

theorem not_mem_of_mem_splitOn {a : Char} : ∀ {xs : List Char} {l : List Char},
    l ∈ xs.splitOn a → a ∉ l
  | [], l, h => by simp [List.splitOn_nil] at h; simp [h]
  | x :: xs, l, h => by
    rw [List.splitOn_cons_eq_if_modifyHead] at h
    split at h
    · rcases List.mem_cons.mp h with rfl | h
      · simp
      · exact not_mem_of_mem_splitOn h
    · rename_i hx
      obtain ⟨t, ts, hts⟩ := List.exists_cons_of_ne_nil (List.splitOn_ne_nil a xs)
      rw [hts, List.modifyHead_cons] at h
      rcases List.mem_cons.mp h with rfl | h
      · have ht := not_mem_of_mem_splitOn (hts ▸ List.mem_cons_self : t ∈ xs.splitOn a)
        simp only [beq_iff_eq] at hx
        simp [Ne.symm hx, ht]
      · exact not_mem_of_mem_splitOn (hts ▸ List.mem_cons_of_mem _ h)

theorem ordinary_not_mem {ys : List (List Char)} (hys : ∀ y ∈ ys, Ordinary y) :
    ∀ l ∈ ys, '/' ∉ l := fun l hl => (hys l hl).2.2.2

theorem intercalate_ne_nil {ls : List (List Char)} (hls : ls ≠ []) (hne : ∀ l ∈ ls, l ≠ []) :
    ['/'].intercalate ls ≠ [] := by
  obtain ⟨l, ls', rfl⟩ := List.exists_cons_of_ne_nil hls
  rcases ls' with _ | ⟨l', ls'⟩
  · simpa using hne l List.mem_cons_self
  · simp [List.intercalate_cons_cons]

theorem head?_intercalate {l : List Char} {ls : List (List Char)} (hl : l ≠ []) :
    (['/'].intercalate (l :: ls)).head? = l.head? := by
  obtain ⟨c, l', rfl⟩ := List.exists_cons_of_ne_nil hl
  rcases ls with _ | ⟨l₂, ls⟩
  · simp
  · simp [List.intercalate_cons_cons]

theorem clean_eq (path : List Char) :
    clean path =
      let rooted := path.head? = some '/'
      let body := ['/'].intercalate (cleanElems rooted (path.splitOn '/') []).reverse
      let cleaned := if rooted then '/' :: body else body
      if cleaned = [] then ['.'] else cleaned := rfl

theorem clean_rooted {ks : List (List Char)} (hks : ∀ k ∈ ks, Ordinary k) :
    clean ('/' :: ['/'].intercalate ks) = '/' :: ['/'].intercalate ks := by
  rcases ks with _ | ⟨k, ks'⟩
  · rfl
  have hsplit : ('/' :: ['/'].intercalate (k :: ks')).splitOn '/' = [] :: k :: ks' := by
    rw [List.splitOn_cons_eq_if_modifyHead, if_pos (by simp),
      List.splitOn_intercalate _ (ordinary_not_mem hks) (List.cons_ne_nil _ _)]
  rw [clean_eq]
  simp only [List.head?_cons, hsplit, cleanElems_cons, true_or, ↓reduceIte,
    cleanElems_ordinary _ hks, List.append_nil, List.reverse_reverse, List.cons_ne_nil]

/-- Cleaning a path that is not rooted, whose elements are a run of `..` and then ordinary
ones, keeps them. -/
theorem clean_unrooted {m : Nat} {ys : List (List Char)} (hys : ∀ y ∈ ys, Ordinary y)
    (hne : List.replicate m ['.', '.'] ++ ys ≠ []) :
    clean (['/'].intercalate (List.replicate m ['.', '.'] ++ ys)) =
      ['/'].intercalate (List.replicate m ['.', '.'] ++ ys) := by
  set ks := List.replicate m ['.', '.'] ++ ys with hks
  have hnot : ∀ k ∈ ks, '/' ∉ k := by
    intro k hk
    rcases List.mem_append.mp hk with hk | hk
    · rw [List.eq_of_mem_replicate hk]
      simp
    · exact (hys k hk).2.2.2
  have hnonempty : ∀ k ∈ ks, k ≠ [] := by
    intro k hk
    rcases List.mem_append.mp hk with hk | hk
    · rw [List.eq_of_mem_replicate hk]
      simp
    · exact (hys k hk).1
  obtain ⟨k, ks', hcons⟩ := List.exists_cons_of_ne_nil hne
  have hhead : (['/'].intercalate ks).head? ≠ some '/' := by
    rw [hcons, head?_intercalate (hnonempty k (hcons ▸ List.mem_cons_self))]
    intro h
    have hk : '/' ∈ k := List.mem_of_mem_head? h
    exact hnot k (hcons ▸ List.mem_cons_self) hk
  have hkept : cleanElems false ks [] = ys.reverse ++ List.replicate m ['.', '.'] := by
    have hrun : cleanElems false (List.replicate m ['.', '.']) [] = List.replicate m ['.', '.'] := by
      simpa using cleanElems_dotdots m 0
    rw [hks, cleanElems_append, hrun, cleanElems_ordinary _ hys]
  rw [clean_eq]
  simp only [hhead, decide_false, List.splitOn_intercalate _ hnot hne, hkept, ↓reduceIte, List.reverse_append, List.reverse_replicate, List.reverse_reverse]
  rw [if_neg (intercalate_ne_nil hne hnonempty)]

theorem clean_clean (path : List Char) : clean (clean path) = clean path := by
  have hkept : CleanAcc (decide (path.head? = some '/'))
      (cleanElems (decide (path.head? = some '/')) (path.splitOn '/') []) :=
    cleanElems_cleanAcc _ (fun e he => not_mem_of_mem_splitOn he) (cleanAcc_nil _)
  obtain ⟨ys, m, hacc, hys, hm⟩ := hkept
  rw [clean_eq path]
  simp only [hacc, List.reverse_append, List.reverse_replicate]
  have hys' : ∀ y ∈ ys.reverse, Ordinary y := fun y hy => hys y (List.mem_reverse.mp hy)
  by_cases hroot : path.head? = some '/'
  · -- a rooted path keeps no `..`
    rw [hm (by simpa using hroot), List.replicate_zero, List.nil_append]
    simp only [hroot, ↓reduceIte, List.cons_ne_nil]
    exact clean_rooted hys'
  · simp only [hroot, ↓reduceIte]
    by_cases hne : List.replicate m ['.', '.'] ++ ys.reverse = []
    · rw [hne]
      rfl
    · rw [if_neg (intercalate_ne_nil hne ?_)]
      · exact clean_unrooted hys' hne
      · intro k hk
        rcases List.mem_append.mp hk with hk | hk
        · rw [List.eq_of_mem_replicate hk]
          simp
        · exact (hys' k hk).1

end Clean

/-- A character of a shell variable name. -/
def isNameChar (c : Char) : Bool := c.isAlphanum || c = '_'

/-- What `os.Expand` is documented to do with plain text and with a `$name`. -/
structure ExpandSpec (expand : (List Char → List Char) → List Char → List Char) : Prop where
  plain : ∀ mapping s, '$' ∉ s → expand mapping s = s
  name : ∀ mapping (c : Char) name rest, (isNameChar c && !c.isDigit) = true →
    name.all isNameChar = true → (rest.head?.all fun d => !isNameChar d) = true →
    expand mapping ('$' :: c :: name ++ rest) = mapping (c :: name) ++ expand mapping rest

section Expand

variable (mapping : List Char → List Char)

/-- A `$` without a name stays; a name is replaced by its mapping. -/
def flush (name : List Char) : List Char := if name = [] then ['$'] else mapping name

/-- An expansion meeting `ExpandSpec`, reading one character at a time: outside a name, or
inside one with the characters read so far. -/
def expandLoop : List Char → Option (List Char) → List Char
  | [], none => []
  | [], some name => flush mapping name
  | c :: cs, none => if c = '$' then expandLoop cs (some []) else c :: expandLoop cs none
  | c :: cs, some name =>
    if (isNameChar c && (name ≠ [] || !c.isDigit)) = true then expandLoop cs (some (name ++ [c]))
    else flush mapping name ++ (if c = '$' then expandLoop cs (some []) else c :: expandLoop cs none)

theorem expandLoop_plain {s : List Char} (h : '$' ∉ s) : expandLoop mapping s none = s := by
  induction s with
  | nil => rfl
  | cons c cs ih =>
    have hc : c ≠ '$' := fun hc => h (hc ▸ List.mem_cons_self)
    rw [expandLoop, if_neg hc, ih (fun hm => h (List.mem_cons_of_mem _ hm))]

theorem expandLoop_name {name acc rest : List Char} (hacc : acc ≠ [])
    (hname : ∀ d ∈ name, isNameChar d = true) :
    expandLoop mapping (name ++ rest) (some acc) = expandLoop mapping rest (some (acc ++ name)) := by
  induction name generalizing acc with
  | nil => simp
  | cons d name ih =>
    have hd : (isNameChar d && (acc ≠ [] || !d.isDigit)) = true := by
      simp [hname d List.mem_cons_self, hacc]
    rw [List.cons_append, expandLoop, if_pos hd,
      ih (by simp) (fun x hx => hname x (List.mem_cons_of_mem _ hx)), List.append_assoc,
      List.singleton_append]

theorem expandLoop_stop {name rest : List Char} (hname : name ≠ [])
    (hrest : (rest.head?.all fun d => !isNameChar d) = true) :
    expandLoop mapping rest (some name) = mapping name ++ expandLoop mapping rest none := by
  cases rest with
  | nil => simp [expandLoop, flush, hname]
  | cons c cs =>
    have hc : isNameChar c = false := by simpa using hrest
    simp only [expandLoop, hc, Bool.false_and, Bool.false_eq_true, if_false, flush, hname]

theorem expandLoop_spec : ExpandSpec fun mapping s => expandLoop mapping s none where
  plain mapping _ h := expandLoop_plain mapping h
  name mapping c name rest hc hname hrest := by
    have hfirst : (isNameChar c && (([] : List Char) ≠ [] || !c.isDigit)) = true := by
      simpa using hc
    show expandLoop mapping ('$' :: c :: name ++ rest) none =
      mapping (c :: name) ++ expandLoop mapping rest none
    rw [List.cons_append, List.cons_append, expandLoop.eq_3, if_pos rfl, expandLoop.eq_4,
      if_pos hfirst, List.nil_append,
      expandLoop_name mapping (List.cons_ne_nil c []) (List.all_eq_true.mp hname),
      expandLoop_stop mapping (by simp) hrest, List.singleton_append]

end Expand

/-! ## `os.Expand`

The expansion itself: after a `$` comes a name in braces, a one-character special name
(`$*`, `$1`, ...), or the longest run of letters, digits and `_`; a `$` with none of these
stays, and `${}` or an unclosed `${` is eaten. -/

def isShellSpecialVar (c : Char) : Bool := c ∈ ['*', '#', '$', '@', '!', '?', '-'] || c.isDigit

/-- `getShellName`: the name after a `$`, and how many characters it takes; an empty name with
a positive width is bad syntax. -/
def getShellName : List Char → List Char × Nat
  | [] => ([], 0)
  | '{' :: s =>
    match s with
    | c :: '}' :: _ =>
      if isShellSpecialVar c then ([c], 3)
      else if c = '}' then ([], 2) else ([c], 3)
    | _ =>
      match s.findIdx? (· = '}') with
      | some 0 => ([], 2)
      | some i => (s.take i, i + 2)
      | none => ([], 1)
  | c :: s =>
    if isShellSpecialVar c then ([c], 1)
    else
      let name := (c :: s).takeWhile isNameChar
      (name, name.length)

/-- The loop of `os.Expand`, for at most `fuel` rounds; each round takes a character. -/
def osExpandLoop (mapping : List Char → List Char) : Nat → List Char → List Char
  | 0, s => s
  | _ + 1, [] => []
  | fuel + 1, '$' :: c :: rest =>
    let (name, w) := getShellName (c :: rest)
    let out := if name = [] then (if 0 < w then [] else ['$']) else mapping name
    out ++ osExpandLoop mapping fuel ((c :: rest).drop w)
  | fuel + 1, c :: rest => c :: osExpandLoop mapping fuel rest

/-- `os.Expand` -/
def osExpand (mapping : List Char → List Char) (s : List Char) : List Char :=
  osExpandLoop mapping s.length s

section OsExpand

variable (mapping : List Char → List Char)

theorem osExpandLoop_dollar (fuel : Nat) (c : Char) (rest : List Char) :
    osExpandLoop mapping (fuel + 1) ('$' :: c :: rest) =
      (if (getShellName (c :: rest)).1 = [] then
          (if 0 < (getShellName (c :: rest)).2 then [] else ['$'])
        else mapping (getShellName (c :: rest)).1) ++
        osExpandLoop mapping fuel ((c :: rest).drop (getShellName (c :: rest)).2) := rfl

theorem osExpandLoop_other (fuel : Nat) {c : Char} {rest : List Char}
    (h : c ≠ '$' ∨ rest = []) :
    osExpandLoop mapping (fuel + 1) (c :: rest) = c :: osExpandLoop mapping fuel rest := by
  rcases h with h | rfl
  · cases rest <;> simp [osExpandLoop, h]
  · simp [osExpandLoop]

theorem osExpandLoop_fuel {fuel₁ fuel₂ : Nat} {s : List Char} (h₁ : s.length ≤ fuel₁)
    (h₂ : s.length ≤ fuel₂) : osExpandLoop mapping fuel₁ s = osExpandLoop mapping fuel₂ s := by
  induction fuel₁ generalizing s fuel₂ with
  | zero =>
    rw [List.length_eq_zero_iff.mp (Nat.le_zero.mp h₁)]
    cases fuel₂ <;> rfl
  | succ f ih =>
    obtain _ | f₂ := fuel₂
    · rw [List.length_eq_zero_iff.mp (Nat.le_zero.mp h₂)]
      rfl
    rcases s with _ | ⟨c, rest⟩
    · rfl
    by_cases hd : c = '$' ∧ rest ≠ []
    · obtain ⟨rfl, hrest⟩ := hd
      obtain ⟨d, rest, rfl⟩ := List.exists_cons_of_ne_nil hrest
      -- the rest after the name is shorter than the text after the `$`
      have hdrop : ((d :: rest).drop (getShellName (d :: rest)).2).length ≤ rest.length + 1 := by
        simp only [List.length_drop, List.length_cons]
        omega
      simp only [List.length_cons] at h₁ h₂
      rw [osExpandLoop_dollar, osExpandLoop_dollar, @ih f₂ _ (by omega) (by omega)]
    · have hother : c ≠ '$' ∨ rest = [] := by
        by_cases hc : c = '$'
        · exact .inr (by simpa [hc] using hd)
        · exact .inl hc
      simp only [List.length_cons] at h₁ h₂
      rw [osExpandLoop_other mapping f hother, osExpandLoop_other mapping f₂ hother,
        @ih f₂ _ (by omega) (by omega)]

theorem osExpandLoop_plain (fuel : Nat) {s : List Char} (h : '$' ∉ s) :
    osExpandLoop mapping fuel s = s := by
  induction s generalizing fuel with
  | nil => cases fuel <;> rfl
  | cons c cs ih =>
    have hc : c ≠ '$' := fun hc => h (hc ▸ List.mem_cons_self)
    cases fuel with
    | zero => rfl
    | succ f => rw [osExpandLoop_other mapping f (.inl hc), ih f (fun hm => h (List.mem_cons_of_mem _ hm))]

theorem getShellName_cons_of_ne {c : Char} (s : List Char) (hc : c ≠ '\x7b') :
    getShellName (c :: s) = if isShellSpecialVar c then ([c], 1)
      else ((c :: s).takeWhile isNameChar, ((c :: s).takeWhile isNameChar).length) := by
  unfold getShellName
  split
  · contradiction
  · rename_i heq
    injection heq with h
    exact absurd h hc
  · rename_i heq
    injection heq with h1 h2
    subst h1 h2
    rfl

theorem getShellName_name {c : Char} {name rest : List Char}
    (hc : (isNameChar c && !c.isDigit) = true) (hname : name.all isNameChar = true)
    (hrest : (rest.head?.all fun d => !isNameChar d) = true) :
    getShellName (c :: name ++ rest) = (c :: name, name.length + 1) := by
  have hbrace : c ≠ '\x7b' := by
    rintro rfl
    simp [isNameChar] at hc
  have hspecial : isShellSpecialVar c = false := by
    simp only [isNameChar, Bool.and_eq_true, Bool.or_eq_true, decide_eq_true_eq,
      Bool.not_eq_true'] at hc
    simp only [isShellSpecialVar, hc.2, Bool.or_false, decide_eq_false_iff_not]
    rcases hc.1 with h | rfl
    · simp only [List.mem_cons, List.not_mem_nil, or_false]
      rintro (rfl | rfl | rfl | rfl | rfl | rfl | rfl) <;> simp at h
    · decide
  have htake : (c :: name ++ rest).takeWhile isNameChar = c :: name := by
    have hcn : isNameChar c = true := by simpa using (Bool.and_eq_true _ _).mp hc |>.1
    rw [List.cons_append, List.takeWhile_cons_of_pos hcn, List.takeWhile_append_of_pos
      (fun x hx => List.all_eq_true.mp hname x hx)]
    cases rest with
    | nil => rw [List.takeWhile_nil, List.append_nil]
    | cons d ds =>
      have hd : isNameChar d = false := by simpa using hrest
      rw [List.takeWhile_cons_of_neg (by simp [hd]), List.append_nil]
  rw [List.cons_append, getShellName_cons_of_ne _ hbrace, if_neg (by simp [hspecial]),
    ← List.cons_append, htake, List.length_cons]

theorem osExpand_spec : ExpandSpec osExpand where
  plain mapping _ h := osExpandLoop_plain mapping _ h
  name mapping c name rest hc hname hrest := by
    have hget : getShellName (c :: (name ++ rest)) = (c :: name, name.length + 1) := by
      rw [← List.cons_append]
      exact getShellName_name hc hname hrest
    have hdrop : (c :: (name ++ rest)).drop (name.length + 1) = rest := by simp
    rw [osExpand, List.cons_append, List.cons_append, List.length_cons, osExpandLoop_dollar, hget,
      hdrop,
      if_neg (List.cons_ne_nil c name), osExpandLoop_fuel mapping (by simp; omega) (Nat.le_refl _),
      osExpand]

end OsExpand

end GoPath
