import Snapd.Naming.Validate

/-! The interfaces a `Repository` knows (interfaces/repo.go): `AddInterface` registers an
interface under its name, as a hotplug interface if it defines hotplug, and records the pairs of
interfaces whose connections exclude each other. The maps of plugs, slots and connections are
not read by `AddInterface` and are left out. An interface is what `AddInterface` reads of it. -/

namespace Snapd.Interfaces

open Naming

/-- `validPlugSlotIface`: `^[a-z](?:-?[a-z0-9])*$`. -/
def validPlugSlotIface : Regex Char := .seq lowerClass (dashedRun lowerDigitClass)

/-- `naming.ValidateInterface`, which `snap.ValidateInterfaceName` calls. -/
def validateInterface (name : List Char) : Except String Unit :=
  if validPlugSlotIface.rmatch name then .ok () else .error ("invalid interface name: " ++ quoted name)

/-- What `AddInterface` reads of an `Interface`: its name, whether it is a `hotplug.Definer`, and
the names `ConflictsWithOtherConnectedInterfaces` returns if it is a
`ConflictingConnectedInterfacesDefiner`. -/
structure Interface where
  name : List Char
  hotplug : Bool
  conflicts : Option (List (List Char))
  deriving DecidableEq, Repr

/-- `conflictingConnectedInterfaces`: a missing inner map is `none`, an empty one `some`. -/
abbrev ConflictMap := List Char → Option (List Char → Bool)

/-- The maps of `Repository` that `AddInterface` writes. -/
structure Repository where
  ifaces : List Char → Option Interface
  hotplugIfaces : List Char → Option Interface
  conflictingConnectedInterfaces : ConflictMap

def newRepository : Repository := ⟨fun _ => none, fun _ => none, fun _ => none⟩

/-- `m[a][b] = true`, on an inner map that exists. -/
def ConflictMap.mark (m : ConflictMap) (a b : List Char) : ConflictMap :=
  Function.update m a ((m a).map fun inner => Function.update inner b true)

/-- `if m[a] == nil { m[a] = make(map[string]bool) }`. -/
def ConflictMap.ensure (m : ConflictMap) (a : List Char) : ConflictMap :=
  if m a = none then Function.update m a (some fun _ => false) else m

/-- The loop of `AddInterface` over the interfaces `interfaceName` conflicts with; it stops at
the first error, keeping what it wrote before. -/
def addConflicts (interfaceName : List Char) :
    List (List Char) → ConflictMap → ConflictMap × Except String Unit
  | [], m => (m, .ok ())
  | otherInterfaceName :: rest, m =>
    if otherInterfaceName = interfaceName then
      (m, .error ("internal error: cannot define mutually exclusive connection relation for the " ++
        quoted interfaceName ++ " interface with itself"))
    else
      let m := (m.ensure interfaceName).ensure otherInterfaceName
      if ((m interfaceName).map fun inner => inner otherInterfaceName) = some true then
        (m, .error ("internal error: mutually exclusive connection relation between " ++
          quoted interfaceName ++ " and " ++ quoted otherInterfaceName ++
          " was already defined by " ++ quoted otherInterfaceName))
      else addConflicts interfaceName rest ((m.mark interfaceName otherInterfaceName).mark
        otherInterfaceName interfaceName)

/-- `Repository.AddInterface`: the repository it leaves, and its error. -/
def Repository.addInterface (r : Repository) (i : Interface) : Repository × Except String Unit :=
  let interfaceName := i.name
  match validateInterface interfaceName with
  | .error e => (r, .error e)
  | .ok () =>
    if (r.ifaces interfaceName).isSome then
      (r, .error ("cannot add interface: " ++ quoted interfaceName ++ ", interface name is in use"))
    else
      let r := { r with ifaces := Function.update r.ifaces interfaceName (some i) }
      let r := if i.hotplug then
        { r with hotplugIfaces := Function.update r.hotplugIfaces interfaceName (some i) } else r
      match i.conflicts with
      | none => (r, .ok ())
      | some others =>
        let (m, err) := addConflicts interfaceName others r.conflictingConnectedInterfaces
        ({ r with conflictingConnectedInterfaces := m }, err)

/-- Once the name is valid and free, `AddInterface` registers the interface whatever happens
after: a conflict it then fails on leaves it registered. -/
theorem addInterface_ifaces {r : Repository} {i : Interface} (hname : validateInterface i.name = .ok ())
    (hfree : r.ifaces i.name = none) :
    (r.addInterface i).1.ifaces = Function.update r.ifaces i.name (some i) := by
  unfold Repository.addInterface
  simp only [hname, hfree, Option.isSome_none, Bool.false_eq_true, if_false]
  -- the conflicts loop writes only the conflict map
  cases hh : i.hotplug <;> cases hc : i.conflicts <;> simp

/-- The interfaces `a` and `b`, each declaring that its connections exclude the other's. -/
def ifaceA : Interface := ⟨"a".toList, false, some ["b".toList]⟩

def ifaceB : Interface := ⟨"b".toList, false, some ["a".toList]⟩

/-- Adding `b` after `a` fails, since `a` already defined the relation, but leaves `b`
registered: the repository's maps change on an error. -/
theorem failed_addInterface_registers_interface :
    (newRepository.addInterface ifaceA).2 = .ok () ∧
      ((newRepository.addInterface ifaceA).1.addInterface ifaceB).2 =
        .error ("internal error: mutually exclusive connection relation between \"b\" and \"a\" " ++
          "was already defined by \"a\"") ∧
      (newRepository.addInterface ifaceA).1.ifaces "b".toList = none ∧
      ((newRepository.addInterface ifaceA).1.addInterface ifaceB).1.ifaces "b".toList =
        some ifaceB := by
  refine ⟨by decide, by decide, by decide, ?_⟩
  -- `b`'s name is valid and free, so it is registered before the loop fails
  rw [addInterface_ifaces (by decide) (by decide)]
  exact Function.update_self _ _ _

end Snapd.Interfaces
