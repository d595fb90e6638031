import Snapd.Patterns.RenderTree

/-! The incremental renderer of `render.go`: variant states, `InitialVariant`,
`NextVariant` with its carry from the last element of a seq, `Render` with the
`alreadyRendered` skip count, and the buffer loop of `renderAllVariants`. -/

namespace Snapd.Patterns

/-- A `variantState`. A literal is its own state; `seqVariant` keeps the seq, one state per
element and its cached `currLength`; `altVariant` keeps the alt's items, the index of the
alternative being explored and that alternative's state. -/
inductive VariantState (α : Type) where
  | literal (text : List α)
  | seqVariant (seq : List (RenderNode α)) (elements : List (VariantState α)) (currLength : Nat)
  | altVariant (alt : List (RenderNode α)) (idx : Nat) (variant : VariantState α)

namespace VariantState

variable {α : Type}

mutual
/-- `InitialVariant`: the first variant state of a node, with its length. -/
def initialVariant : RenderNode α → VariantState α × Nat
  | .literal text => (.literal text, text.length)
  | .seq items =>
    let init := initialElements items
    (.seqVariant items init.1 init.2, init.2)
  | .alt first rest =>
    let init := initialVariant first
    (.altVariant (first :: rest) 0 init.1, init.2)
/-- The loop of `seq.InitialVariant`, summing the lengths into `currLength`. -/
def initialElements : List (RenderNode α) → List (VariantState α) × Nat
  | [] => ([], 0)
  | n :: ns =>
    let head := initialVariant n
    let tail := initialElements ns
    (head.1 :: tail.1, head.2 + tail.2)
end

/-- `Length`: the cached length of the current variant. -/
def length : VariantState α → Nat
  | .literal text => text.length
  | .seqVariant _ _ currLength => currLength
  | .altVariant _ _ variant => length variant

/-- The result of `NextVariant`: the new state, the new length, the number of bytes that
are unchanged from the previous variant, and whether a new variant exists. -/
structure Next (σ : Type) where
  state : σ
  length : Nat
  lengthUnchanged : Nat
  moreRemain : Bool

mutual
/-- `NextVariant`. A literal has no next variant. A seq advances its last element that
still has one, resetting the exhausted elements after it. An alt advances its current
alternative, else moves to the initial state of the next alternative. -/
def nextVariant : VariantState α → Next (VariantState α)
  | .literal text => ⟨.literal text, 0, 0, false⟩
  | .seqVariant seq elements currLength =>
    let r := nextElements seq elements
    if r.moreRemain then ⟨.seqVariant seq r.state r.length, r.length, r.lengthUnchanged, true⟩
    else ⟨.seqVariant seq r.state currLength, 0, 0, false⟩
  | .altVariant alt idx variant =>
    let r := nextVariant variant
    if r.moreRemain then ⟨.altVariant alt idx r.state, r.length, r.lengthUnchanged, true⟩
    else if h : idx + 1 < alt.length then
      let init := initialVariant alt[idx + 1]
      ⟨.altVariant alt (idx + 1) init.1, init.2, 0, true⟩
    else ⟨.altVariant alt (idx + 1) r.state, 0, 0, false⟩
/-- The loop of `seqVariant.NextVariant`, from the last element backwards: the elements
after the one that advances have been reset to their initial states, and the lengths of
the elements before it are added to both totals. -/
def nextElements : List (RenderNode α) → List (VariantState α) → Next (List (VariantState α))
  | n :: ns, e :: es =>
    let t := nextElements ns es
    if t.moreRemain then
      ⟨e :: t.state, length e + t.length, length e + t.lengthUnchanged, true⟩
    else
      let r := nextVariant e
      if r.moreRemain then ⟨r.state :: t.state, r.length + t.length, r.lengthUnchanged, true⟩
      else
        let init := initialVariant n
        ⟨init.1 :: t.state, init.2 + t.length, 0, false⟩
  | _, _ => ⟨[], 0, 0, false⟩
end

mutual
/-- `Render`: while `alreadyRendered` is positive a literal is not written but subtracted
from it; once it is not positive every literal is written and it becomes zero. -/
def render : VariantState α → List α → Int → List α × Int
  | .literal text, buf, alreadyRendered =>
    if alreadyRendered > 0 then (buf, alreadyRendered - text.length) else (buf ++ text, 0)
  | .seqVariant _ elements _, buf, alreadyRendered => renderElements elements buf alreadyRendered
  | .altVariant _ _ variant, buf, alreadyRendered => render variant buf alreadyRendered
def renderElements : List (VariantState α) → List α → Int → List α × Int
  | [], buf, alreadyRendered => (buf, alreadyRendered)
  | e :: es, buf, alreadyRendered =>
    let r := render e buf alreadyRendered
    renderElements es r.1 r.2
end

/-- `bytes.Buffer.Truncate`, which panics when asked to grow the buffer. -/
def truncate (buf : List α) (n : Nat) : Except String (List α) :=
  if n ≤ buf.length then .ok (buf.take n) else .error "bytes.Buffer: truncation out of range"

/-- The `for` loop of `renderAllVariants`, from variant `i` on: `buf` holds the previous
variant, of which `lengthUnchanged` bytes stay. Each rendered buffer that `parseVariant`
accepts is observed with its index. One unit of `fuel` is spent per variant. -/
def renderLoop {β : Type} (parseVariant : List α → Option β) :
    Nat → Nat → VariantState α → List α → Nat → Except String (List (Nat × β))
  | 0, _, _, _, _ => .error "out of fuel"
  | fuel + 1, i, v, buf, lengthUnchanged =>
    match truncate buf lengthUnchanged with
    | .error e => .error e
    | .ok kept =>
      let buf := (render v kept lengthUnchanged).1
      let observed := match parseVariant buf with
        | some variant => [(i, variant)]
        | none => []
      let r := nextVariant v
      if r.moreRemain then
        match renderLoop parseVariant fuel (i + 1) r.state buf r.lengthUnchanged with
        | .error e => .error e
        | .ok rest => .ok (observed ++ rest)
      else .ok observed

/-- `renderAllVariants`, with `fuel` bounding the number of loop iterations. -/
def renderAllVariants {β : Type} (parseVariant : List α → Option β) (fuel : Nat)
    (n : RenderNode α) : Except String (List (Nat × β)) :=
  renderLoop parseVariant fuel 0 (initialVariant n).1 [] 0

end VariantState

end Snapd.Patterns
