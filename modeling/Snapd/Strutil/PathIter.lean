import Snapd.Lib.GoPath

/-! `strutil/pathiter.go`: an iterator over the elements of a clean path, kept as two indices
`left` and `right` into the path, between which the current element lies with its trailing
slash. Slices `path[a:b]` are `(path.take b).drop a`. -/

namespace Snapd.Strutil

structure PathIterator where
  path : List Char
  left : Nat
  right : Nat
  depth : Nat
  deriving DecidableEq, Repr

/-- `NewPathIterator`: the path must be clean, but for one trailing slash. -/
def newPathIterator (path : List Char) : Except String PathIterator :=
  let cleanPath := GoPath.clean path
  if cleanPath ≠ path ∧ cleanPath ++ ['/'] ≠ path then
    .error ("cannot iterate over unclean path \"" ++ String.ofList path ++ "\"")
  else .ok ⟨path, 0, 0, 0⟩

namespace PathIterator

/-- Whether the current element ends with a slash that is not the root directory. -/
def trailingSlash (iter : PathIterator) : Bool :=
  1 < iter.right && (iter.path.take iter.right).drop (iter.right - 1) = ['/']

def currentBase (iter : PathIterator) : List Char :=
  if iter.trailingSlash then (iter.path.take (iter.right - 1)).drop iter.left
  else (iter.path.take iter.right).drop iter.left

def currentPath (iter : PathIterator) : List Char :=
  if iter.trailingSlash then iter.path.take (iter.right - 1) else iter.path.take iter.right

def currentPathPlusSlash (iter : PathIterator) : List Char :=
  if 0 < iter.right && (iter.path.take iter.right).drop (iter.right - 1) ≠ ['/'] then
    iter.path.take iter.right ++ ['/']
  else iter.path.take iter.right

def currentDir (iter : PathIterator) : List Char :=
  if 0 < iter.left && iter.path[iter.left - 1]? = some '/' && iter.path.take iter.left ≠ ['/'] then
    iter.path.take (iter.left - 1)
  else iter.path.take iter.left

def isCurrentBaseLeaf (iter : PathIterator) : Bool := iter.right = iter.path.length

/-- `PathIterator.Next`: the element after the current one, up to and with the next slash;
`false` and no change at the end of the path. -/
def next (iter : PathIterator) : Bool × PathIterator :=
  if iter.path.length ≤ iter.right then (false, iter)
  else
    let right := match (iter.path.drop iter.right).findIdx? (· = '/') with
      | some idx => iter.right + idx + 1
      | none => iter.path.length
    (true, ⟨iter.path, iter.right, right, iter.depth + 1⟩)

def rewind (iter : PathIterator) : PathIterator := ⟨iter.path, 0, 0, 0⟩

end PathIterator

/-- `//` is `/` with a trailing slash, so `NewPathIterator` takes it. Its only element is the
root directory, but `Next` succeeds twice: the second time on the empty element between the
two slashes, which `CurrentBase` returns. -/
theorem double_slash_iterates_empty_element :
    ∃ iter, newPathIterator "//".toList = .ok iter ∧
      iter.next.1 = true ∧ iter.next.2.currentBase = ['/'] ∧
      iter.next.2.next.1 = true ∧ iter.next.2.next.2.currentBase = [] ∧
      iter.next.2.next.2.depth = 2 ∧ iter.next.2.next.2.next.1 = false :=
  ⟨⟨"//".toList, 0, 0, 0⟩, by decide, by decide, by decide, by decide, by decide, rfl, by decide⟩

end Snapd.Strutil
