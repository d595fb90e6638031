import Mathlib.Data.List.Sort
import Snapd.Lib.AssocList
import Snapd.Lib.GoBytes
import Snapd.Lib.GoText
import Snapd.Lib.Run

/-! U-Boot environments (`bootloader/ubootenv/env.go`). An environment block is a 4-byte CRC32,
in redundant mode a flag byte, and a payload of `key=value` strings each ended by a zero byte, one
more zero byte after them, and `0xff` up to the size of the block. A redundant environment keeps
two such blocks one after the other, and a save writes the inactive one with the flag of the
active one plus one, so that the copy with the newer flag is the active one. Files and devices
are their bytes; a Go panic is an `Except.error` with its message. -/

namespace Snapd.Ubootenv

open AssocList GoBytes

/-- The byte `=`. -/
def equalsSign : UInt8 := 61

/-- One of the two copies of a redundant environment, `Copy1` or `Copy2`. -/
inductive EnvCopy
  | copy1
  | copy2
  deriving DecidableEq, Repr

/-- The redundant mode fields of `Env`: the flag value and the place of the active copy. -/
structure Redundancy where
  activeFlag : UInt8
  activeCopy : EnvCopy
  deriving DecidableEq, Repr

/-- `Env`: the name of its file, the size of a block, whether the header has the flag byte, the
variables, and the redundant mode fields of a redundant environment. -/
structure Env where
  fname : List Char
  size : Nat
  headerFlagByte : Bool
  data : List (List UInt8 × List UInt8)
  redundant : Option Redundancy
  deriving DecidableEq, Repr

/-- `OpenFlags`: whether `OpenBestEffort` is set. -/
structure OpenFlags where
  bestEffort : Bool
  deriving DecidableEq, Repr

structure CreateOptions where
  headerFlagByte : Bool
  deriving DecidableEq, Repr

def sizeOfUint32 : Nat := 4

def flagObsolete : UInt8 := 0x00

/-- `readUint32`: `binary.Read` of a little-endian word, which leaves zero when there are fewer
than four bytes. -/
def readUint32 (data : List UInt8) : UInt32 := uint32 data

def writeUint32 (u : UInt32) : List UInt8 := putUint32 u

/-- `redundantOffsets`: the first copy at the start, the second right after it. -/
def redundantOffsets (size : Nat) : Nat × Nat := (0, size)

/-- The offset of a copy. -/
def copyOffset (size : Nat) : EnvCopy → Nat
  | .copy1 => (redundantOffsets size).1
  | .copy2 => (redundantOffsets size).2

/-- The copy that is not this one. -/
def EnvCopy.other : EnvCopy → EnvCopy
  | .copy1 => .copy2
  | .copy2 => .copy1

/-- `readEnvCopy`: the `size` bytes at `offset`, or nothing when the device ends before. -/
def readEnvCopy (dev : List UInt8) (offset size : Nat) : Option (List UInt8) :=
  if offset + size ≤ dev.length then some ((dev.drop offset).take size) else none

/-- `isNewerFlag`: `flag1` is newer than `flag2` when their difference, as a signed byte, is not
negative, so that `0` is newer than `255`. -/
def isNewerFlag (flag1 flag2 : UInt8) : Bool := (flag1 - flag2).toInt8 ≥ 0

def calcHeaderSize (headerFlagByte : Bool) : Nat :=
  if headerFlagByte then sizeOfUint32 + 1 else sizeOfUint32

/-- A byte string as `%q` shows it, each byte read as the character with its code. -/
def quoteBytes (s : List UInt8) : String :=
  "\"" ++ String.ofList (s.map fun b => Char.ofNat b.toNat) ++ "\""

/-- The errors of `readEnv`; `badCrc` is the one that `errors.Is(err, errBadCrc)` finds. -/
inductive ReadError
  | tooSmall
  | badCrc (crc actualCRC : UInt32)
  | badLine (line : List UInt8)
  deriving DecidableEq, Repr

def ReadError.text : ReadError → String
  | .tooSmall => "smaller than expected environment block"
  | .badCrc crc actualCRC => "bad CRC " ++ toString crc.toNat ++ " != " ++ toString actualCRC.toNat
  | .badLine line => "cannot parse line " ++ quoteBytes line ++ " as key=value pair"

/-- One round of the loop of `parseData`: a string that is empty or starts with `0` or `255` is
skipped; one that is not `key=value` with a key is skipped with `OpenBestEffort` and is an error
otherwise; and `key=value` sets the key. -/
def parseEntry (flags : OpenFlags) (out : List (List UInt8 × List UInt8)) (envStr : List UInt8) :
    Except ReadError (List (List UInt8 × List UInt8)) :=
  if envStr.length = 0 ∨ envStr.head? = some 0 ∨ envStr.head? = some 255 then .ok out
  else if (splitN equalsSign envStr 2).length ≠ 2 ∨ (splitN equalsSign envStr 2).head? = some [] then
    if flags.bestEffort then .ok out else .error (.badLine envStr)
  else .ok (insert out ((splitN equalsSign envStr 2).getD 0 []) ((splitN equalsSign envStr 2).getD 1 []))

/-- `parseData`: the strings between the zero bytes, in turn. -/
def parseData (data : List UInt8) (flags : OpenFlags) :
    Except ReadError (List (List UInt8 × List UInt8)) :=
  (data.splitOn 0).foldlM (parseEntry flags) []

/-- The payload cut before its first two zero bytes, when it has them. -/
def cutAtEnd (payload : List UInt8) : List UInt8 :=
  match index [0, 0] payload with
  | some eof => payload.take eof
  | none => payload

def readEnv (contentWithHeader : List UInt8) (flags : OpenFlags) (headerFlagByte : Bool) :
    Except ReadError Env :=
  if contentWithHeader.length < 6 then .error .tooSmall
  else if readUint32 contentWithHeader ≠
      checksumIEEE (contentWithHeader.drop (calcHeaderSize headerFlagByte)) then
    .error (.badCrc (readUint32 contentWithHeader)
      (checksumIEEE (contentWithHeader.drop (calcHeaderSize headerFlagByte))))
  else (parseData (cutAtEnd (contentWithHeader.drop (calcHeaderSize headerFlagByte))) flags).map
    fun data => ⟨[], contentWithHeader.length, headerFlagByte, data, none⟩

/-- The block read with the flag byte, and again without it when its CRC is bad. -/
def readEitherHeader (contentWithHeader : List UInt8) (flags : OpenFlags) : Except ReadError Env :=
  match readEnv contentWithHeader flags true with
  | .error (.badCrc _ _) => readEnv contentWithHeader flags false
  | r => r

/-- `OpenWithFlags` on a file's contents. -/
def openWithFlags (fname : List Char) (contentWithHeader : List UInt8) (flags : OpenFlags) :
    Except String Env :=
  match readEitherHeader contentWithHeader flags with
  | .ok env => .ok { env with fname := fname }
  | .error err => .error ("cannot open " ++ GoText.quote fname ++ ": " ++ err.text)

def Env.get (env : Env) (name : List UInt8) : List UInt8 := (find env.data name).getD []

/-- `Set`: an empty value removes the variable; an empty name panics. -/
def Env.set (env : Env) (name value : List UInt8) : Except String Env :=
  if name = [] then .error ("Set() can not be called with empty key for value: " ++ quoteBytes value)
  else if value = [] then .ok { env with data := erase env.data name }
  else .ok { env with data := insert env.data name value }

/-- Go's `<` on strings: the order of the bytes. -/
def bytesLess : List UInt8 → List UInt8 → Bool
  | [], [] => false
  | [], _ :: _ => true
  | _ :: _, [] => false
  | a :: as, b :: bs => a < b || (a = b && bytesLess as bs)

/-- `sort.Strings` -/
def sortStrings (l : List (List UInt8)) : List (List UInt8) :=
  l.insertionSort fun a b => !bytesLess b a

/-- The variables in the order of their keys. -/
def Env.entries (env : Env) : List (List UInt8 × List UInt8) :=
  (sortStrings (env.data.map Prod.fst)).map fun k => (k, env.get k)

/-- `iterEnv`: the variables in the order of their keys, or its panic on an empty key. -/
def Env.iterEnv (env : Env) : Except String (List (List UInt8 × List UInt8)) :=
  if env.data.any fun e => e.1.isEmpty then .error "iterEnv iterating over a empty key"
  else .ok env.entries

/-- What `buildPayload` writes before the padding: each variable as `key=value` and a zero byte,
one more zero byte, and when there are no variables one more still. -/
def Env.written (env : Env) (entries : List (List UInt8 × List UInt8)) : List UInt8 :=
  entries.flatMap (fun e => e.1 ++ equalsSign :: e.2 ++ [0]) ++ [0] ++
    (if env.data.length = 0 then [0] else [])

/-- The written bytes and the `0xff` that fill the rest of the block. -/
def Env.payload (env : Env) (entries : List (List UInt8 × List UInt8)) : List UInt8 :=
  env.written entries ++
    List.replicate (env.size - calcHeaderSize env.headerFlagByte - (env.written entries).length) 0xff

/-- `buildPayload`: the payload and its CRC; a block smaller than its header makes `Grow` panic. -/
def Env.buildPayload (env : Env) : Except String (List UInt8 × UInt32) :=
  if env.size < calcHeaderSize env.headerFlagByte then .error "bytes.Buffer.Grow: negative count"
  else env.iterEnv.map fun entries => (env.payload entries, checksumIEEE (env.payload entries))

/-- `buildImage`: the CRC, the flag byte when the header has one, and the payload, copied into a
block of zero bytes of the size of the environment. -/
def Env.buildImage (env : Env) (flag : UInt8) : Except String (List UInt8) :=
  env.buildPayload.map fun p =>
    (writeUint32 p.2 ++ (if env.headerFlagByte then [flag] else []) ++ p.1 ++
      List.replicate env.size 0).take env.size

/-- `writeToDevice`: the buffer written at the offset of a device at least `minimumSize` long. -/
def writeToDevice (fname : List Char) (dev buf : List UInt8) (offset minimumSize : Nat) :
    Except String (List UInt8) :=
  if dev.length < minimumSize then
    .error ("device too small: [" ++ String.ofList fname ++ "] got " ++ toString dev.length ++
      " bytes, need " ++ toString minimumSize)
  else .ok (dev.take offset ++ List.replicate (offset - dev.length) 0 ++ buf ++
    dev.drop (offset + buf.length))

/-- `saveLegacy`: the block with a zero flag written at the start of the file. -/
def Env.saveLegacy (env : Env) (dev : List UInt8) : Except String (List UInt8) :=
  env.buildImage 0 >>= fun buf => writeToDevice env.fname dev buf 0 env.size

/-- `saveRedundant`: the block with the next flag written over the inactive copy, which becomes
the active one. -/
def Env.saveRedundant (env : Env) (r : Redundancy) (dev : List UInt8) :
    Except String (Env × List UInt8) :=
  env.buildImage (r.activeFlag + 1) >>= fun buf =>
    (writeToDevice env.fname dev buf (copyOffset env.size r.activeCopy.other) (env.size * 2)).map
      fun dev' => ({ env with redundant := some ⟨r.activeFlag + 1, r.activeCopy.other⟩ }, dev')

def Env.save (env : Env) (dev : List UInt8) : Except String (Env × List UInt8) :=
  match env.redundant with
  | none => (env.saveLegacy dev).map fun dev' => (env, dev')
  | some r => env.saveRedundant r dev

/-- `Create`: an empty environment in a file of zero bytes. -/
def create (fname : List Char) (size : Nat) (opts : CreateOptions) : Env × List UInt8 :=
  (⟨fname, size, opts.headerFlagByte, [], none⟩, List.replicate size 0)

/-- `CreateRedundant`: a regular file, or one that does not exist, is made `2 * size` zero bytes;
the empty environment is then saved to both copies. -/
def createRedundant (fname : List Char) (needsCreate : Bool) (dev : List UInt8) (size : Nat) :
    Except String (Env × List UInt8) :=
  (Env.save ⟨fname, size, true, [], some ⟨flagObsolete, .copy1⟩⟩
      (if needsCreate then List.replicate (size * 2) 0 else dev)) >>= fun p => p.1.save p.2

/-- A copy read and parsed, or the text of what went wrong. -/
def readCopy (copy : Option (List UInt8)) (unreadable : String) (flags : OpenFlags) :
    Except String Env :=
  match copy with
  | some c => (readEnv c flags true).mapError ReadError.text
  | none => .error unreadable

/-- The flag byte of a copy. -/
def flagOf (copy : Option (List UInt8)) : UInt8 := (copy.getD []).getD sizeOfUint32 0

/-- The selection of `OpenRedundantWithFlags`: of two valid copies the one with the newer flag,
else the valid one. -/
def selectCopy (devname : List Char) (copy1 copy2 : Option (List UInt8)) :
    Except String Env → Except String Env → Except String (Env × Redundancy)
  | .ok env1, .ok env2 =>
    if isNewerFlag (flagOf copy1) (flagOf copy2) then .ok (env1, ⟨flagOf copy1, .copy1⟩)
    else .ok (env2, ⟨flagOf copy2, .copy2⟩)
  | .ok env1, .error _ => .ok (env1, ⟨flagOf copy1, .copy1⟩)
  | .error _, .ok env2 => .ok (env2, ⟨flagOf copy2, .copy2⟩)
  | .error err1, .error err2 =>
    .error ("cannot open redundant environment " ++ GoText.quote devname ++
      ": both copies invalid: copy1: " ++ err1 ++ ", copy2: " ++ err2)

/-- `OpenRedundantWithFlags` on a device's contents. -/
def openRedundantWithFlags (devname : List Char) (dev : List UInt8) (size : Nat)
    (flags : OpenFlags) : Except String Env :=
  if readEnvCopy dev (redundantOffsets size).1 size = none ∧
      readEnvCopy dev (redundantOffsets size).2 size = none then
    .error "redundant environment device too small or unreadable"
  else
    (selectCopy devname (readEnvCopy dev (redundantOffsets size).1 size)
        (readEnvCopy dev (redundantOffsets size).2 size)
        (readCopy (readEnvCopy dev (redundantOffsets size).1 size) "copy1 unreadable" flags)
        (readCopy (readEnvCopy dev (redundantOffsets size).2 size) "copy2 unreadable" flags)).map
      fun p => { p.1 with fname := devname, size := size, redundant := some p.2 }

end Snapd.Ubootenv
