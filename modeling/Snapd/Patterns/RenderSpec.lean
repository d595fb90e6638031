import Snapd.Patterns.Render

/-! What a variant state stands for: the literal texts of its current variant and the list
of variants still to come. `Valid` is the invariant that every state built by
`InitialVariant` and `NextVariant` keeps; the step lemmas say how `NextVariant` moves
along the naive expansion and which prefix of the rendered buffer it leaves unchanged. -/

namespace Snapd.Patterns

namespace VariantState

variable {α : Type}

mutual
/-- The literal texts of the current variant, in rendering order. -/
def leaves : VariantState α → List (List α)
  | .literal text => [text]
  | .seqVariant _ elements _ => leavesList elements
  | .altVariant _ _ variant => leaves variant
def leavesList : List (VariantState α) → List (List α)
  | [] => []
  | e :: es => leaves e ++ leavesList es
end

/-- The current variant. -/
def current (v : VariantState α) : List α := (leaves v).flatten

mutual
/-- The variants still to be rendered, the current one first. -/
def remaining : VariantState α → List (List α)
  | .literal text => [text]
  | .seqVariant seq elements _ => remainingElements seq elements
  | .altVariant alt idx variant => remaining variant ++ RenderNode.expandAlt (alt.drop (idx + 1))
/-- For a seq: the rest of the last elements with this element's current variant in front,
then every later variant of this element with all choices of the elements after it. -/
def remainingElements : List (RenderNode α) → List (VariantState α) → List (List α)
  | _ :: ns, e :: es =>
    (remainingElements ns es).map (current e ++ ·) ++
      (remaining e).tail.flatMap fun x => (RenderNode.expandSeq ns).map (x ++ ·)
  | _, _ => [[]]
end

mutual
/-- A state of node `n`: it follows the node's shape, its alt index is in range, and every
cached `currLength` is the length of the current variant. -/
def Valid : RenderNode α → VariantState α → Prop
  | n, .literal text => n = .literal text
  | n, .seqVariant seq elements currLength =>
    n = .seq seq ∧ ValidElements seq elements ∧ currLength = (leavesList elements).flatten.length
  | n, .altVariant alt idx variant =>
    ∃ first rest, n = .alt first rest ∧ alt = first :: rest ∧
      ∃ h : idx < alt.length, Valid alt[idx] variant
def ValidElements : List (RenderNode α) → List (VariantState α) → Prop
  | ns, [] => ns = []
  | ns, e :: es => ∃ n ns', ns = n :: ns' ∧ Valid n e ∧ ValidElements ns' es
end

@[simp] theorem current_literal (text : List α) : current (.literal text) = text := by
  simp [current, leaves]

theorem current_seqVariant (seq : List (RenderNode α)) (es : List (VariantState α)) (c : Nat) :
    current (.seqVariant seq es c) = (leavesList es).flatten := by
  simp [current, leaves]

theorem current_altVariant (alt : List (RenderNode α)) (idx : Nat) (v : VariantState α) :
    current (.altVariant alt idx v) = current v := by
  simp [current, leaves]

theorem length_eq_of_valid : {n : RenderNode α} → {v : VariantState α} → Valid n v →
    length v = (current v).length
  | _, .literal _, _ => by simp [length]
  | _, .seqVariant _ _ _, h => by rw [length, current_seqVariant]; exact h.2.2
  | _, .altVariant alt idx v, h => by
    obtain ⟨_, _, _, _, hidx, hv⟩ := h
    rw [length, current_altVariant]
    exact length_eq_of_valid hv

mutual
theorem remaining_eq_cons : {n : RenderNode α} → {v : VariantState α} → Valid n v →
    ∃ tl, remaining v = current v :: tl
  | _, .literal _, _ => ⟨[], by simp [remaining]⟩
  | _, .seqVariant _ _ _, h => by
    obtain ⟨tl, htl⟩ := remainingElements_eq_cons h.2.1
    exact ⟨tl, by rw [remaining, htl, current_seqVariant]⟩
  | _, .altVariant alt idx v, h => by
    obtain ⟨_, _, _, _, hidx, hv⟩ := h
    obtain ⟨tl, htl⟩ := remaining_eq_cons hv
    exact ⟨tl ++ RenderNode.expandAlt (alt.drop (idx + 1)),
      by rw [remaining, htl, current_altVariant, List.cons_append]⟩
theorem remainingElements_eq_cons : {ns : List (RenderNode α)} → {es : List (VariantState α)} →
    ValidElements ns es → ∃ tl, remainingElements ns es = (leavesList es).flatten :: tl
  | _, [], h => by
    rw [ValidElements] at h
    subst h
    exact ⟨[], by simp [remainingElements, leavesList]⟩
  | _, e :: es, h => by
    obtain ⟨n, ns', rfl, he, hes⟩ := h
    obtain ⟨tl, htl⟩ := remainingElements_eq_cons hes
    refine ⟨tl.map (current e ++ ·) ++
      (remaining e).tail.flatMap fun x => (RenderNode.expandSeq ns').map (x ++ ·), ?_⟩
    rw [remainingElements, htl, leavesList, List.flatten_append]
    rfl
end

mutual
/-- `InitialVariant` builds a valid state of the node at its first variant, and returns the
length of that variant. -/
theorem initialVariant_spec : (n : RenderNode α) →
    Valid n (initialVariant n).1 ∧ remaining (initialVariant n).1 = n.expand ∧
      (initialVariant n).2 = (current (initialVariant n).1).length
  | .literal text => by simp [initialVariant, Valid, remaining, RenderNode.expand]
  | .seq items => by
    obtain ⟨hv, hr, hl⟩ := initialElements_spec items
    exact ⟨⟨rfl, hv, hl⟩, by rw [initialVariant, remaining, hr, RenderNode.expand],
      by rw [initialVariant, current_seqVariant, hl]⟩
  | .alt first rest => by
    obtain ⟨hv, hr, hl⟩ := initialVariant_spec first
    refine ⟨⟨first, rest, rfl, rfl, by simp, hv⟩, ?_, ?_⟩
    · rw [initialVariant, remaining, hr, RenderNode.expand]
      rfl
    · rw [initialVariant, current_altVariant, hl]
theorem initialElements_spec : (ns : List (RenderNode α)) →
    ValidElements ns (initialElements ns).1 ∧
      remainingElements ns (initialElements ns).1 = RenderNode.expandSeq ns ∧
      (initialElements ns).2 = (leavesList (initialElements ns).1).flatten.length
  | [] => by simp [initialElements, ValidElements, remainingElements, RenderNode.expandSeq, leavesList]
  | n :: ns => by
    obtain ⟨hv, hr, hl⟩ := initialVariant_spec n
    obtain ⟨hvs, hrs, hls⟩ := initialElements_spec ns
    obtain ⟨tl, htl⟩ := remaining_eq_cons hv
    refine ⟨⟨n, ns, rfl, hv, hvs⟩, ?_, ?_⟩
    · -- the first variant of `n` comes first, with every choice of the later elements
      rw [initialElements, remainingElements, hrs, RenderNode.expandSeq, ← hr, htl,
        List.tail_cons, List.flatMap_cons]
    · simp only [initialElements, leavesList, List.flatten_append, List.length_append, hl, hls,
        current]
end

/-- The meaning of `Render` on the literal texts of a variant: while the skip count is
positive a text is skipped and subtracted from it, afterwards every text is written. -/
def renderLeaves : List (List α) → List α → Int → List α × Int
  | [], buf, r => (buf, r)
  | l :: ls, buf, r =>
    if r > 0 then renderLeaves ls buf (r - l.length) else renderLeaves ls (buf ++ l) 0

theorem renderLeaves_append (l1 l2 : List (List α)) (buf : List α) (r : Int) :
    renderLeaves (l1 ++ l2) buf r =
      renderLeaves l2 (renderLeaves l1 buf r).1 (renderLeaves l1 buf r).2 := by
  induction l1 generalizing buf r with
  | nil => rfl
  | cons l ls ih =>
    by_cases hr : r > 0 <;> simp [renderLeaves, hr, ih]

mutual
theorem render_eq : (v : VariantState α) → (buf : List α) → (r : Int) →
    render v buf r = renderLeaves (leaves v) buf r
  | .literal text, buf, r => by
    by_cases hr : r > 0 <;> simp [render, leaves, renderLeaves, hr]
  | .seqVariant _ es _, buf, r => by rw [render, leaves, renderElements_eq es buf r]
  | .altVariant _ _ v, buf, r => by rw [render, leaves, render_eq v buf r]
theorem renderElements_eq : (es : List (VariantState α)) → (buf : List α) → (r : Int) →
    renderElements es buf r = renderLeaves (leavesList es) buf r
  | [], buf, r => rfl
  | e :: es, buf, r => by
    rw [renderElements, leavesList, renderLeaves_append, render_eq e buf r,
      renderElements_eq es]
end

theorem renderLeaves_zero (ls : List (List α)) (buf : List α) :
    (renderLeaves ls buf 0).1 = buf ++ ls.flatten := by
  induction ls generalizing buf with
  | nil => simp [renderLeaves]
  | cons l ls ih => simp [renderLeaves, ih]

/-- Skipping whole leading texts: with the skip count at the length of the first `m` texts,
`Render` writes exactly the texts after them. -/
theorem renderLeaves_skip (ls : List (List α)) (m : Nat) (hm : m ≤ ls.length) (buf : List α) :
    (renderLeaves ls buf ((ls.take m).flatten.length)).1 = buf ++ (ls.drop m).flatten := by
  induction ls generalizing m buf with
  | nil => simp [renderLeaves]
  | cons l ls ih =>
    cases m with
    | zero => simpa using renderLeaves_zero (l :: ls) buf
    | succ k =>
      have hk : k ≤ ls.length := by simpa using hm
      by_cases hr : (((l :: ls).take (k + 1)).flatten.length : Int) > 0
      · have hskip : (((l :: ls).take (k + 1)).flatten.length : Int) - l.length =
            ((ls.take k).flatten.length : Int) := by
          simp only [List.take_succ_cons, List.flatten_cons, List.length_append]
          omega
        rw [renderLeaves, if_pos hr, hskip, ih k hk]
        simp
      · -- the prefix is empty: `l` and the next `k` texts have no bytes
        have hl : l = [] := by
          apply List.eq_nil_of_length_eq_zero
          simp only [List.take_succ_cons, List.flatten_cons, List.length_append] at hr
          omega
        have hpre : (ls.take k).flatten = [] := by
          apply List.eq_nil_of_length_eq_zero
          simp only [List.take_succ_cons, List.flatten_cons, List.length_append] at hr
          omega
        have hzero : (((l :: ls).take (k + 1)).flatten.length : Int) = 0 := by omega
        rw [renderLeaves, if_neg hr, renderLeaves_zero, hl, ← List.take_append_drop k ls,
          List.flatten_append, hpre]
        simp

/-- `lengthUnchanged` is the length of the first `m` texts of the new variant, which are
texts of the old variant too. -/
def Unchanged (old new : List (List α)) (lengthUnchanged : Nat) : Prop :=
  ∃ m, m ≤ old.length ∧ m ≤ new.length ∧ new.take m = old.take m ∧
    lengthUnchanged = (new.take m).flatten.length

theorem unchanged_zero (old new : List (List α)) : Unchanged old new 0 :=
  ⟨0, Nat.zero_le _, Nat.zero_le _, by simp, by simp⟩

theorem Unchanged.prepend {old new : List (List α)} {lu : Nat} (pre : List (List α))
    (h : Unchanged old new lu) : Unchanged (pre ++ old) (pre ++ new) (pre.flatten.length + lu) := by
  obtain ⟨m, hmo, hmn, htake, hlu⟩ := h
  refine ⟨pre.length + m, by simp [hmo], by simp [hmn], ?_, ?_⟩
  · rw [List.take_length_add_append, List.take_length_add_append, htake]
  · rw [List.take_length_add_append, List.flatten_append, List.length_append, hlu]

theorem Unchanged.append {old new : List (List α)} {lu : Nat} (old' new' : List (List α))
    (h : Unchanged old new lu) : Unchanged (old ++ old') (new ++ new') lu := by
  obtain ⟨m, hmo, hmn, htake, hlu⟩ := h
  refine ⟨m, by simp; omega, by simp; omega, ?_, ?_⟩
  · rw [List.take_append_of_le_length hmn, List.take_append_of_le_length hmo, htake]
  · rw [List.take_append_of_le_length hmn, hlu]

theorem expandAlt_drop (items : List (RenderNode α)) (i : Nat) (h : i < items.length) :
    RenderNode.expandAlt (items.drop i) =
      items[i].expand ++ RenderNode.expandAlt (items.drop (i + 1)) := by
  rw [List.drop_eq_getElem_cons h, RenderNode.expandAlt]

/-- What one `NextVariant` does on a state `v` of node `n`: when another variant exists it
builds a valid state at the next remaining variant, with its length and the count of
bytes shared with the previous variant; otherwise `v` was at the last variant. -/
structure NextSpec (n : RenderNode α) (v : VariantState α) (r : Next (VariantState α)) : Prop where
  more : r.moreRemain = true → Valid n r.state ∧ remaining r.state = (remaining v).tail ∧
    r.length = (current r.state).length ∧
    Unchanged (leaves v) (leaves r.state) r.lengthUnchanged
  last : r.moreRemain = false → (remaining v).tail = []

/-- The same for the loop over the elements of a seq; when no element advances, every
element has been reset to its initial state. -/
structure NextElementsSpec (ns : List (RenderNode α)) (es : List (VariantState α))
    (t : Next (List (VariantState α))) : Prop where
  more : t.moreRemain = true → ValidElements ns t.state ∧
    remainingElements ns t.state = (remainingElements ns es).tail ∧
    t.length = (leavesList t.state).flatten.length ∧
    Unchanged (leavesList es) (leavesList t.state) t.lengthUnchanged
  last : t.moreRemain = false → (remainingElements ns es).tail = [] ∧
    t.state = (initialElements ns).1 ∧ t.length = (initialElements ns).2

mutual
theorem nextVariant_spec : {n : RenderNode α} → {v : VariantState α} → Valid n v →
    NextSpec n v (nextVariant v)
  | _, .literal _, _ => ⟨fun h => by simp [nextVariant] at h, fun _ => by simp [remaining]⟩
  | _, .seqVariant seq es c, h => by
    obtain ⟨rfl, hes, -⟩ := h
    have ih := nextElements_spec hes
    cases hm : (nextElements seq es).moreRemain with
    | true =>
      obtain ⟨hv, hr, hl, hu⟩ := ih.more hm
      refine ⟨fun _ => ?_, fun h => by simp [nextVariant, hm] at h⟩
      simp only [nextVariant, hm, if_true]
      exact ⟨⟨rfl, hv, hl⟩, by rw [remaining, remaining, hr], by rw [current_seqVariant, hl],
        by rw [leaves, leaves]; exact hu⟩
    | false =>
      refine ⟨fun h => by simp [nextVariant, hm] at h, fun _ => ?_⟩
      rw [remaining]
      exact (ih.last hm).1
  | _, .altVariant alt idx w, h => by
    obtain ⟨first, rest, rfl, rfl, hidx, hw⟩ := h
    have ih := nextVariant_spec hw
    obtain ⟨tl, htl⟩ := remaining_eq_cons hw
    cases hm : (nextVariant w).moreRemain with
    | true =>
      obtain ⟨hv, hr, hl, hu⟩ := ih.more hm
      refine ⟨fun _ => ?_, fun h => by simp [nextVariant, hm] at h⟩
      simp only [nextVariant, hm, if_true]
      refine ⟨⟨first, rest, rfl, rfl, hidx, hv⟩, ?_, by rw [current_altVariant, hl],
        by rw [leaves, leaves]; exact hu⟩
      rw [remaining, remaining, hr, htl]
      rfl
    | false =>
      have htl0 : tl = [] := by simpa [htl] using ih.last hm
      by_cases hnext : idx < rest.length
      · -- the next alternative starts at its initial state
        have hnext' : idx + 1 < (first :: rest).length := by simpa using hnext
        obtain ⟨hv0, hr0, hl0⟩ := initialVariant_spec (first :: rest)[idx + 1]
        refine ⟨fun _ => ?_, fun h => by simp [nextVariant, hm, hnext] at h⟩
        simp only [nextVariant, hm, hnext', dif_pos, Bool.false_eq_true, if_false]
        refine ⟨⟨first, rest, rfl, rfl, hnext', hv0⟩, ?_, by rw [current_altVariant, hl0],
          by rw [leaves, leaves]; exact unchanged_zero _ _⟩
        rw [remaining, remaining, hr0, htl, htl0, ← expandAlt_drop _ _ hnext']
        rfl
      · refine ⟨fun h => by simp [nextVariant, hm, hnext] at h, fun _ => ?_⟩
        have hdrop : (first :: rest).drop (idx + 1) = [] := List.drop_eq_nil_of_le (by simp; omega)
        rw [remaining, htl, htl0, hdrop]
        rfl
theorem nextElements_spec : {ns : List (RenderNode α)} → {es : List (VariantState α)} →
    ValidElements ns es → NextElementsSpec ns es (nextElements ns es)
  | _, [], h => by
    rw [ValidElements] at h
    subst h
    exact ⟨fun h => by simp [nextElements] at h,
      fun _ => ⟨by simp [remainingElements], by simp [nextElements, initialElements],
        by simp [nextElements, initialElements]⟩⟩
  | _, e :: es, h => by
    obtain ⟨n, ns, rfl, he, hes⟩ := h
    have iht := nextElements_spec hes
    have ihe := nextVariant_spec he
    obtain ⟨tlt, htlt⟩ := remainingElements_eq_cons hes
    obtain ⟨tle, htle⟩ := remaining_eq_cons he
    cases ht : (nextElements ns es).moreRemain with
    | true =>
      obtain ⟨hv, hr, hl, hu⟩ := iht.more ht
      refine ⟨fun _ => ?_, fun h => by simp [nextElements, ht] at h⟩
      simp only [nextElements, ht, if_true]
      refine ⟨⟨n, ns, rfl, he, hv⟩, ?_, ?_, ?_⟩
      · rw [remainingElements, remainingElements, hr, htlt]
        rfl
      · rw [leavesList, List.flatten_append, List.length_append, ← hl, length_eq_of_valid he]
        rfl
      · rw [leavesList, leavesList, length_eq_of_valid he]
        exact hu.prepend (leaves e)
    | false =>
      obtain ⟨hrt, hst, hlt⟩ := iht.last ht
      have htlt0 : tlt = [] := by simpa [htlt] using hrt
      cases hm : (nextVariant e).moreRemain with
      | true =>
        obtain ⟨hv, hr, hl, hu⟩ := ihe.more hm
        obtain ⟨hvs0, hrs0, hls0⟩ := initialElements_spec ns
        obtain ⟨tle', htle'⟩ := remaining_eq_cons hv
        refine ⟨fun _ => ?_, fun h => by simp [nextElements, ht, hm] at h⟩
        simp only [nextElements, ht, hm, if_true, Bool.false_eq_true, if_false]
        refine ⟨⟨n, ns, rfl, hv, hst ▸ hvs0⟩, ?_, ?_, ?_⟩
        · rw [remainingElements, remainingElements, hst, hrs0, htlt, htlt0, ← hr, htle']
          simp
        · rw [leavesList, List.flatten_append, List.length_append, hlt, hls0, hst, hl]
          rfl
        · rw [leavesList, leavesList]
          exact hu.append _ _
      | false =>
        refine ⟨fun h => by simp [nextElements, ht, hm] at h, fun _ => ⟨?_, ?_, ?_⟩⟩
        · have htle0 : tle = [] := by simpa [htle] using ihe.last hm
          rw [remainingElements, htlt, htlt0, htle, htle0]
          rfl
        · simp [nextElements, ht, hm, initialElements, hst]
        · simp [nextElements, ht, hm, initialElements, hlt]
end

/-- The calls of `observe` the loop makes from index `i` on, for the buffers `ss`: each buffer
that `parseVariant` accepts is observed with its index. -/
def observations {β : Type} (parseVariant : List α → Option β) : Nat → List (List α) → List (Nat × β)
  | _, [] => []
  | i, s :: ss =>
    (match parseVariant s with
      | some b => [(i, b)]
      | none => []) ++ observations parseVariant (i + 1) ss

/-- Loop invariant of `renderAllVariants`: the buffer starts with the first `m` texts of the
current variant and `lengthUnchanged` is their length. -/
def BufferPrefix (v : VariantState α) (buf : List α) (lengthUnchanged : Nat) : Prop :=
  ∃ m, m ≤ (leaves v).length ∧ lengthUnchanged = ((leaves v).take m).flatten.length ∧
    lengthUnchanged ≤ buf.length ∧ buf.take lengthUnchanged = ((leaves v).take m).flatten

/-- Truncating to the shared prefix and rendering with it as the skip count yields the
current variant. -/
theorem render_truncated {v : VariantState α} {buf : List α} {lu : Nat}
    (h : BufferPrefix v buf lu) : (render v (buf.take lu) lu).1 = current v := by
  obtain ⟨m, hm, hlu, -, htake⟩ := h
  rw [render_eq, htake, hlu, renderLeaves_skip _ m hm, current, ← List.flatten_append,
    List.take_append_drop]

theorem bufferPrefix_of_unchanged {v v' : VariantState α} {lu : Nat}
    (h : Unchanged (leaves v) (leaves v') lu) : BufferPrefix v' (current v) lu := by
  obtain ⟨m, hmo, hmn, htake, hlu⟩ := h
  have hsplit : current v = ((leaves v').take m).flatten ++ ((leaves v).drop m).flatten := by
    rw [htake, ← List.flatten_append, List.take_append_drop, current]
  refine ⟨m, hmn, hlu, ?_, ?_⟩
  · rw [hsplit, List.length_append, hlu]
    omega
  · rw [hsplit, hlu, List.take_left' rfl]

theorem renderLoop_spec {β : Type} (parseVariant : List α → Option β) (fuel : Nat) :
    ∀ (i : Nat) (n : RenderNode α) (v : VariantState α) (buf : List α) (lu : Nat),
      Valid n v → (remaining v).length ≤ fuel → BufferPrefix v buf lu →
      renderLoop parseVariant fuel i v buf lu = .ok (observations parseVariant i (remaining v)) := by
  induction fuel with
  | zero =>
    intro i n v buf lu hv hf _
    obtain ⟨tl, htl⟩ := remaining_eq_cons hv
    simp [htl] at hf
  | succ fuel ih =>
    intro i n v buf lu hv hf hbuf
    have hlu : lu ≤ buf.length := by obtain ⟨_, _, _, h, _⟩ := hbuf; exact h
    obtain ⟨tl, htl⟩ := remaining_eq_cons hv
    have hstep := nextVariant_spec hv
    rw [renderLoop, truncate, if_pos hlu]
    simp only [render_truncated hbuf]
    cases hm : (nextVariant v).moreRemain with
    | true =>
      obtain ⟨hv', hr', -, hu'⟩ := hstep.more hm
      have hf' : (remaining (nextVariant v).state).length ≤ fuel := by
        rw [hr', htl]
        simp [htl] at hf
        simpa using hf
      rw [if_pos rfl, ih (i + 1) n _ _ _ hv' hf' (bufferPrefix_of_unchanged hu'), hr', htl]
      rfl
    | false =>
      have hlast : tl = [] := by simpa [htl] using hstep.last hm
      rw [if_neg Bool.false_ne_true, htl, hlast, observations, observations]
      cases parseVariant (current v) <;> rfl

/-- `renderAllVariants` observes the naive expansion of the tree, in order and with its
indices, given at least one unit of fuel per variant. -/
theorem renderAllVariants_eq {β : Type} (parseVariant : List α → Option β) (n : RenderNode α)
    (fuel : Nat) (hf : n.count ≤ fuel) :
    renderAllVariants parseVariant fuel n = .ok (observations parseVariant 0 n.expand) := by
  obtain ⟨hv, hr, -⟩ := initialVariant_spec n
  have hbuf : BufferPrefix (initialVariant n).1 [] 0 := ⟨0, by simp, by simp, by simp, by simp⟩
  rw [renderAllVariants, renderLoop_spec parseVariant fuel 0 n _ [] 0 hv
    (by rw [hr, RenderNode.length_expand]; exact hf) hbuf, hr]

end VariantState

end Snapd.Patterns
