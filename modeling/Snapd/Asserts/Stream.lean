import Snapd.Lib.Search

/-! The assertion stream (asserts/asserts.go): `Encoder.WriteEncoded` writes encoded assertions
one after the other, ending each with a newline if it does not end with one and putting a newline
before each but the first, and `Decoder.Decode` reads them back one by one. `Decode` reads one
whole encoded assertion.

Bytes are the elements of any type with a newline `nl`. The `bufio.Reader` under the decoder is
modeled by what `Peek` promises: the next `n` bytes of the stream, or all that are left together
with `io.EOF`, however the underlying reader splits them into reads. A peek past the buffer's
size is not seen: the decoder answers it by moving what is buffered to a bigger buffer and peeking
again. The reader then holds the whole rest of the stream once it has reported `io.EOF`. What
`Decode` calls to parse the headers and assemble the assertion are parameters. -/

namespace Snapd.Asserts

open Search

section Model

variable {α H A : Type} [DecidableEq α] (nl : α)

/-- `nlnl`: the blank line that ends the headers, the body and the signature. -/
def nlnl : List α := [nl, nl]

/-- The errors of the stream; a Go runtime panic is the last. -/
inductive ReadError
  | eof
  | unexpectedEOF
  | msg (text : String)
  | panic (text : String)
  deriving DecidableEq, Repr

/-- The error's text, as `%v` prints it. -/
def ReadError.text : ReadError → String
  | .eof => "EOF"
  | .unexpectedEOF => "unexpected EOF"
  | .msg t => t
  | .panic t => t

/-- `fmt.Errorf(context + "%v", err)`; a panic is not an error and goes through. -/
def ReadError.wrap (context : String) : ReadError → ReadError
  | .panic t => .panic t
  | e => .msg (context ++ e.text)

/-- What `Decode` calls to make an assertion of the parts it has read: `parseHeaders`,
`checkIntWithDefault(headers, "body-length", 0)`, the type's maximum body size in
`typeMaxBodySize` (`0` for none) and its name, and `assemble`. -/
structure Format (α H A : Type) where
  parseHeaders : List α → Except String H
  bodyLength : H → Except String Nat
  typeMaxBodySize : H → Nat
  typeName : H → String
  assemble : H → List α → List α → List α → Except String A

/-- `Decoder`, with its reader: what is left of the stream, and `d.err`. -/
structure Decoder (α : Type) where
  rest : List α
  eof : Bool
  initialBufSize : Nat
  maxHeadersSize : Nat
  maxSigSize : Nat
  defaultMaxBodySize : Nat

def maxBodySize : Nat := 2 * 1024 * 1024

def maxHeadersSize : Nat := 128 * 1024

def maxSignatureSize : Nat := 128 * 1024

def defaultDecoderBufSize : Nat := 4096

/-- `NewDecoder` on a reader of `stream`. -/
def newDecoder (stream : List α) : Decoder α :=
  ⟨stream, false, defaultDecoderBufSize, maxHeadersSize, maxSignatureSize, maxBodySize⟩

/-- `NewDecoderStressed` (export_test.go): any buffer size and limits. -/
def newDecoderStressed (stream : List α) (bufSize maxHeaders maxBody maxSig : Nat) : Decoder α :=
  ⟨stream, false, bufSize, maxHeaders, maxSig, maxBody⟩

/-- `peek`: the next `size` bytes, and `d.err`, which records the first short peek. -/
def Decoder.peek (d : Decoder α) (size : Nat) : List α × Bool × Decoder α :=
  let err := d.eof || decide (d.rest.length < size)
  (d.rest.take size, err, { d with eof := err })

def Decoder.discard (d : Decoder α) (n : Nat) : Decoder α :=
  { d with rest := d.rest.drop n }

/-- `readExact`: the next `size` bytes; a peek comes short only with `io.EOF`. -/
def Decoder.readExact (d : Decoder α) (size : Nat) : Except ReadError (List α) × Decoder α :=
  let (buf, _, d) := d.peek size
  let d := d.discard buf.length
  if buf.length = size then (.ok buf, d) else (.error .unexpectedEOF, d)

def maxSizeExceeded : String := "maximum size exceeded while looking for delimiter \"\\n\\n\""

/-- The loop of `readUntil(nlnl, maxSize)`: peek `size` bytes and search them from `last` on;
`last` is a Go `int`, and slicing at a negative one panics. -/
def Decoder.readUntilLoop (maxSize : Nat) :
    Nat → Int → Nat → Decoder α → List α × Option ReadError × Decoder α
  | 0, _, _, d => ([], some (.msg "read loop ran out of fuel"), d)
  | fuel + 1, last, size, d =>
    let (buf, err, d) := d.peek size
    if last < 0 ∨ (buf.length : Int) < last then
      ([], some (.panic "runtime error: slice bounds out of range"), d)
    else
      match index? (nlnl nl) (buf.drop last.toNat) with
      | some i =>
        let n := last.toNat + i + (nlnl nl).length
        (buf.take n, none, d.discard n)
      | none =>
        -- errors are reported only once what is buffered has been consumed
        if err = true ∧ buf.length = d.rest.length then (buf, some .eof, d.discard buf.length)
        else if maxSize < size * 2 then ([], some (.msg maxSizeExceeded), d)
        else Decoder.readUntilLoop maxSize fuel (size - (nlnl nl).length + 1) (size * 2) d

/-- `readUntil(nlnl, maxSize)`: the bytes up to and with the next blank line. The loop doubles
`size` each turn, so `maxSize + 2` turns are more than it takes: from a positive buffer size it
passes `maxSize` within `maxSize + 1` turns, and from size `0` it panics at its second. -/
def Decoder.readUntil (d : Decoder α) (maxSize : Nat) : List α × Option ReadError × Decoder α :=
  d.readUntilLoop nl maxSize (maxSize + 2) 0 d.initialBufSize

/-- The end of `Decode`, past the headers and the body: the content/signature separator and the
signature, and the assertion made of them. -/
def Decoder.decodeTrailer (F : Format α H A) (d : Decoder α) (headers : H)
    (headAndSep body : List α) (length : Nat) : Except ReadError A × Decoder α :=
  let headLen := headAndSep.length - (nlnl nl).length
  let finish (content sig : List α) : Except ReadError A :=
    -- the stream puts a newline after a signature that does not end with one
    let sig := if (nlnl nl).isSuffixOf sig then sig.dropLast else sig
    let finalBody := if 0 < length then content.drop (headLen + (nlnl nl).length) else []
    (F.assemble headers finalBody content sig).mapError .msg
  let (endOfBody, err, d) := d.readUntil nl d.maxSigSize
  match err with
  | some .eof | none =>
    if endOfBody = nlnl nl then
      let (sig, err, d) := d.readUntil nl d.maxSigSize
      match err with
      | some .eof | none => (finish (headAndSep ++ body) sig, d)
      | some e => (.error (e.wrap "error reading assertion signature: "), d)
    -- the signature came directly, which only an assertion without a body may do
    else if 0 < length then (.error (.msg "missing content/signature separator"), d)
    else (finish (headAndSep.take headLen) endOfBody, d)
  | some e => (.error (e.wrap "error reading assertion trailer: "), d)

/-- `Decoder.Decode`: the next assertion of the stream, or `io.EOF` at its end. -/
def Decoder.decode (F : Format α H A) (d : Decoder α) : Except ReadError A × Decoder α :=
  let (headAndSep, err, d) := d.readUntil nl d.maxHeadersSize
  match err with
  | some .eof => (.error (if headAndSep = [] then .eof else .unexpectedEOF), d)
  | some e => (.error (e.wrap "error reading assertion headers: "), d)
  | none =>
    let headLen := headAndSep.length - (nlnl nl).length
    match F.parseHeaders (headAndSep.take headLen) with
    | .error e => (.error (.msg ("parsing assertion headers: " ++ e)), d)
    | .ok headers =>
      match F.bodyLength headers with
      | .error e => (.error (.msg ("assertion: " ++ e)), d)
      | .ok length =>
        if F.typeMaxBodySize headers ≠ 0 ∧ F.typeMaxBodySize headers < length then
          (.error (.msg ("assertion body length " ++ toString length ++
            " exceeds maximum body size " ++ toString (F.typeMaxBodySize headers) ++ " for \"" ++
            F.typeName headers ++ "\" assertions")), d)
        else if d.defaultMaxBodySize < length then
          (.error (.msg ("assertion body length " ++ toString length ++
            " exceeds maximum body size")), d)
        else
          let (body, d) := if 0 < length then d.readExact length else (.ok [], d)
          match body with
          | .error e => (.error e, d)
          | .ok body => d.decodeTrailer nl F headers headAndSep body length

/-- `Decode` called `n` times in a row. -/
def Decoder.decodeRun (F : Format α H A) : Nat → Decoder α → List (Except ReadError A)
  | 0, _ => []
  | n + 1, d =>
    let (a, d) := d.decode nl F
    a :: Decoder.decodeRun F n d

/-- The content `assembleAndSign` signs: the headers, and a blank line and the body if there is
a body. -/
def signedContent (head body : List α) : List α :=
  if body = [] then head else head ++ nlnl nl ++ body

/-- `Encode`: the content, the blank line and the signature. -/
def encode (content signature : List α) : List α := content ++ nlnl nl ++ signature

/-- `Decode`: one whole encoded assertion, split at the last blank line into content and
signature and at the first blank line of the content into headers and body. -/
def decode (F : Format α H A) (serializedAssertion : List α) : Except String A :=
  match lastIndex? (nlnl nl) serializedAssertion with
  | none => .error "assertion content/signature separator not found"
  | some split =>
    let content := serializedAssertion.take split
    let signature := serializedAssertion.drop (split + (nlnl nl).length)
    let (head, body) :=
      match index? (nlnl nl) content with
      | none => (content, [])
      | some i => (content.take i, content.drop (i + (nlnl nl).length))
    match F.parseHeaders head with
    | .error err => .error ("parsing assertion headers: " ++ err)
    | .ok headers => F.assemble headers body content signature

/-- `Encoder`, writing to a buffer in memory, which takes every write. -/
structure Encoder (α : Type) where
  written : List α
  nextSep : List α

def newEncoder : Encoder α := ⟨[], []⟩

/-- `writeSep`: a newline after an assertion that does not end with one. -/
def Encoder.writeSep (enc : Encoder α) (last : α) : Encoder α :=
  ⟨if last ≠ nl then enc.written ++ [nl] else enc.written, [nl]⟩

def Encoder.writeEncoded (enc : Encoder α) (encoded : List α) : Except String (Encoder α) :=
  match encoded.getLast? with
  | none => .error "internal error: encoded assertion cannot be empty"
  | some last => .ok ((Encoder.mk (enc.written ++ enc.nextSep ++ encoded) enc.nextSep).writeSep nl last)

/-- `WriteEncoded` of each encoded assertion in turn. -/
def Encoder.writeAll (enc : Encoder α) (es : List (List α)) : Except String (Encoder α) :=
  es.foldlM (fun enc e => enc.writeEncoded nl e) enc

end Model

end Snapd.Asserts
