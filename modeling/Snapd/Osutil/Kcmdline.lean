import Mathlib.Data.List.AList

/-! Kernel command lines (`osutil/kcmdline/kcmdline.go`): `Parse`, which follows the kernel's
`next_arg`, the printing of an argument, the matcher of allowed arguments, and
`gadget.FilterKernelCmdline`. A command line is its bytes. A Go runtime panic, such as a
slice taken out of range, is an `Except.error` with the runtime's message. -/

namespace Snapd.Kcmdline

/-- The byte `"`. -/
def quote : UInt8 := 34

/-- The byte `=`. -/
def equalsSign : UInt8 := 61

/-- The byte ` `. -/
def space : UInt8 := 32

/-- The bytes of an ASCII string. -/
def ascii (s : String) : List UInt8 := s.toList.map fun c => c.toNat.toUInt8

/-- `args[lo:hi]` on a byte slice, which panics unless `lo ≤ hi ≤ len(args)`. -/
def goSlice (args : List UInt8) (lo hi : Nat) : Except String (List UInt8) :=
  if hi > args.length then
    .error ("runtime error: slice bounds out of range [:" ++ toString hi ++ "] with capacity " ++
      toString args.length)
  else if lo > hi then
    .error ("runtime error: slice bounds out of range [" ++ toString lo ++ ":" ++ toString hi ++ "]")
  else .ok ((args.take hi).drop lo)

structure Argument where
  param : List UInt8
  value : List UInt8
  quoted : Bool
  deriving DecidableEq, Repr

/-- `isSpace`: space, `\t`, `\n`, `\v`, `\f` and `\r`. -/
def isSpace (b : UInt8) : Bool := [32, 9, 10, 11, 12, 13].contains b

/-- `firstNotSpace`: the index of the first byte that is not a space; past the end when
there is none, and `1` on an empty slice, where the loop leaves `i` at `0`. -/
def firstNotSpace : List UInt8 → Nat
  | [] => 1
  | b :: rest => if !isSpace b then 0 else if rest = [] then 1 else firstNotSpace rest + 1

/-- The `for` loop of `parseArgument` from index `i`, over the bytes from there on: the index
where the argument ends, and the first `=` (`0` standing for none, as in the source). -/
def argumentLoop : List UInt8 → Nat → Nat → Bool → Nat × Nat
  | [], i, equals, _ => (i, equals)
  | b :: rest, i, equals, inQuote =>
    if isSpace b && !inQuote then (i, equals)
    else
      let equals := if b = equalsSign ∧ equals = 0 then i else equals
      let inQuote := if b = quote then !inQuote else inQuote
      argumentLoop rest (i + 1) equals inQuote

/-- `parseArgument`: the argument at the start of `args`, which is not empty, and where it
ends. The indices never go below zero: a `1` is subtracted only from an end past a quote. -/
def parseArgument (args : List UInt8) : Except String (Argument × Nat) := do
  let argQuoted := args.head? = some quote
  let startArg := if argQuoted then 1 else 0
  let (i, equals) := argumentLoop (args.drop startArg) startArg 0 argQuoted
  let «end» := i
  let endsInQuote := args[«end» - 1]? = some quote
  -- the whole argument is quoted: drop the closing quote from the value, or the parameter
  let wholeQuoted := argQuoted && decide («end» > startArg) && endsInQuote
  let subsParam := if wholeQuoted && equals = 0 then 1 else 0
  if equals ≠ 0 then
    let valueQuoted := decide (equals + 1 < «end») && args[equals + 1]? = some quote
    let startVal := if valueQuoted then equals + 2 else equals + 1
    let subsVal := if wholeQuoted || (valueQuoted && endsInQuote) then 1 else 0
    let val ← goSlice args startVal («end» - subsVal)
    let param ← goSlice args startArg (equals - subsParam)
    pure (⟨param, val, wholeQuoted || valueQuoted⟩, «end»)
  else
    let param ← goSlice args startArg («end» - subsParam)
    pure (⟨param, [], wholeQuoted⟩, «end»)

/-- The loop of `Parse` over the bytes from `start` on, given one unit of fuel per
argument. -/
def parseFrom : Nat → List UInt8 → Except String (List Argument)
  | 0, _ => .ok []
  | fuel + 1, rest =>
    let rest := rest.drop (firstNotSpace rest)
    if rest.isEmpty then .ok []
    else do
      let (argument, «end») ← parseArgument rest
      let args ← parseFrom fuel (rest.drop «end»)
      pure (argument :: args)

/-- `Parse`. Each argument takes at least one byte, so the length of the command line bounds
the number of rounds. -/
def parse (cmdline : List UInt8) : Except String (List Argument) :=
  parseFrom cmdline.length cmdline

def quoteIfNeeded (input : List UInt8) (force : Bool) : List UInt8 :=
  if force || input.contains space then quote :: input ++ [quote] else input

def Argument.string (ka : Argument) : List UInt8 :=
  if ka.value = [] then quoteIfNeeded ka.param false
  else quoteIfNeeded ka.param false ++ equalsSign :: quoteIfNeeded ka.value ka.quoted

/-- `valuePattern`: any value, or one constant value. -/
inductive ValuePattern where
  | valuePatternAny
  | valuePatternConstant (constantValue : List UInt8)
  deriving DecidableEq, Repr

def ValuePattern.match : ValuePattern → List UInt8 → Bool
  | .valuePatternAny, _ => true
  | .valuePatternConstant constantValue, value => constantValue = value

structure ArgumentPattern where
  param : List UInt8
  value : ValuePattern

/-- `Matcher`, from parameter to the pattern of its value. -/
structure Matcher where
  patterns : AList (fun _ : List UInt8 => ValuePattern)

def Matcher.match (m : Matcher) (arg : Argument) : Bool :=
  match m.patterns.lookup arg.param with
  | none => false
  | some pattern => pattern.match arg.value

/-- `NewMatcher`: a later pattern of a parameter replaces an earlier one. -/
def newMatcher (allowed : List ArgumentPattern) : Matcher :=
  ⟨allowed.foldl (fun patterns p => patterns.insert p.param p.value) ∅⟩

/-- `strings.Trim(s, " ")` -/
def trimSpaces (s : List UInt8) : List UInt8 :=
  ((s.dropWhile (· = space)).reverse.dropWhile (· = space)).reverse

def joinNonEmpty (strs : List (List UInt8)) : List UInt8 :=
  [space].intercalate ((strs.map trimSpaces).filter (· ≠ []))

/-- `gadget.FilterKernelCmdline`: the allowed arguments and the others, each printed and
joined. -/
def filterKernelCmdline (cmdline : List UInt8) (allowedSl : List ArgumentPattern) :
    Except String (List UInt8 × List UInt8) := do
  let matcher := newMatcher allowedSl
  let proposed ← parse cmdline
  let argsIn := (proposed.filter matcher.match).map Argument.string
  let argsOut := (proposed.filter fun p => !matcher.match p).map Argument.string
  pure (joinNonEmpty argsIn, joinNonEmpty argsOut)

/-- `Parse` panics on `foo="` and on `"x="`, where the value opens a quote at the last byte and
`args[startVal : endVal-subsVal]` is taken backwards. And printing does not give back what it
printed: `"a b=c"` parses to the parameter `a b` with the value `c`, printed `"a b"="c"`, which
parses to the parameter `a b"`. -/
theorem parse_panics_and_string_not_reparsed :
    parse (ascii "foo=\"") = .error "runtime error: slice bounds out of range [5:4]" ∧
    parse (ascii "\"x=\"") = .error "runtime error: slice bounds out of range [4:3]" ∧
    parse (ascii "\"a b=c\"") = .ok [⟨ascii "a b", ascii "c", true⟩] ∧
    Argument.string ⟨ascii "a b", ascii "c", true⟩ = ascii "\"a b\"=\"c\"" ∧
    parse (ascii "\"a b\"=\"c\"") = .ok [⟨ascii "a b\"", ascii "c", true⟩] := by
  refine ⟨?_, ?_, ?_, ?_, ?_⟩ <;> decide

end Snapd.Kcmdline
