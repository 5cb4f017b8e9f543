import AutoHarness.FallibleRun
import AutoHarness.Value

namespace AutoHarness

inductive ProviderErrorKind where
  | missingCredential
  | authentication
  | permissionDenied
  | invalidRequest
  | modelNotFound
  | unsupported
  | rateLimited
  | quotaExceeded
  | timeout
  | unavailable
  | conflict
  | contentBlocked
  | cancelled
  | transport
  | protocol
  | limitExceeded
  | internal
deriving DecidableEq, Repr

structure ProviderError where
  kind : ProviderErrorKind
  retryAdvice : RetryAdvice
deriving DecidableEq, Repr

def protocolError : ProviderError := ⟨.protocol, .never⟩

def limitError : ProviderError := ⟨.limitExceeded, .never⟩

namespace Sse

/-- A text that has passed the UTF-8 check is kept as its bytes. -/
abbrev Text := List UInt8

def validUtf8 (bytes : List UInt8) : Bool := ByteArray.validateUTF8 ⟨bytes.toArray⟩

def carriageReturn : UInt8 := 13

def lineFeed : UInt8 := 10

def colon : UInt8 := 58

def space : UInt8 := 32

def byteOrderMark : List UInt8 := [0xEF, 0xBB, 0xBF]

def isBreak (byte : UInt8) : Bool := byte == carriageReturn || byte == lineFeed

def isAsciiWhitespace (byte : UInt8) : Bool :=
  byte == 32 || byte == 9 || byte == 10 || byte == 12 || byte == 13

def stripFront (mark text : Text) : Text :=
  if mark.isPrefixOf text then text.drop mark.length else text

structure SseFrame where
  event : Option Text
  data : Text
deriving DecidableEq, Repr

def eventField : Text := [101, 118, 101, 110, 116]

def dataField : Text := [100, 97, 116, 97]

/-- The event and the data lines that the lines of a frame have set so far. -/
structure FrameFields where
  event : Option Text
  dataLines : List Text
deriving DecidableEq, Repr

def splitField (line : Text) : Text × Text :=
  match line.span (· != colon) with
  | (field, _ :: value) => (field, stripFront [space] value)
  | (field, []) => (field, [])

def FrameFields.readLine (fields : FrameFields) (line : Text) : FrameFields :=
  if line.isEmpty || line.head? == some colon then fields
  else
    let (field, value) := splitField line
    if field = eventField then { fields with event := some value }
    else if field = dataField then { fields with dataLines := fields.dataLines ++ [value] }
    else fields

def joinData (lines : List Text) : Text := [lineFeed].intercalate lines

/-- The frame that a list of lines stands for, if it has data at all. -/
def frameOfLines (lines : List Text) : Option SseFrame :=
  let fields := lines.foldl FrameFields.readLine ⟨none, []⟩
  if fields.dataLines.isEmpty then none else some ⟨fields.event, joinData fields.dataLines⟩

structure SseDecoder where
  buffer : List UInt8
  maxFrameBytes : Nat
  firstFrame : Bool
  lineHasContent : Bool
  pendingCarriageReturn : Bool
deriving DecidableEq, Repr

namespace SseDecoder

def new (maxFrameBytes : Nat) : SseDecoder := ⟨[], maxFrameBytes, true, false, false⟩

def decodeFrame (decoder : SseDecoder) (bytes : List UInt8) :
    Except ProviderError (SseDecoder × Option SseFrame) :=
  if !validUtf8 bytes then .error protocolError
  else
    let text := if decoder.firstFrame then stripFront byteOrderMark bytes else bytes
    .ok ({ decoder with firstFrame := false }, frameOfLines (text.splitOnP isBreak))

/-- One turn of the loop over the bytes of a fragment. -/
def pushByte (decoder : SseDecoder) (byte : UInt8) :
    Except ProviderError (SseDecoder × Option SseFrame) :=
  if byte == lineFeed && decoder.pendingCarriageReturn then
    let decoder := { decoder with pendingCarriageReturn := false }
    if decoder.buffer.isEmpty then .ok (decoder, none)
    else if decoder.buffer.length == decoder.maxFrameBytes then .error limitError
    else .ok ({ decoder with buffer := decoder.buffer ++ [byte] }, none)
  else
    let decoder := { decoder with pendingCarriageReturn := false }
    if decoder.buffer.length == decoder.maxFrameBytes then .error limitError
    else
      let decoder := { decoder with buffer := decoder.buffer ++ [byte] }
      if isBreak byte then
        let blankLine := !decoder.lineHasContent
        let decoder := { decoder with
          lineHasContent := false
          pendingCarriageReturn := byte == carriageReturn }
        if blankLine then
          let event := decoder.buffer
          ({ decoder with buffer := [] }).decodeFrame event
        else .ok (decoder, none)
      else .ok ({ decoder with lineHasContent := true }, none)

/-- Adds a fragment and returns the frames it completes. -/
def push : SseDecoder → List UInt8 → Except ProviderError (SseDecoder × List SseFrame)
  | decoder, [] => .ok (decoder, [])
  | decoder, byte :: bytes => do
    let (decoder, frame) ← decoder.pushByte byte
    let (decoder, frames) ← decoder.push bytes
    .ok (decoder, frame.toList ++ frames)

def finish (decoder : SseDecoder) : Except ProviderError Unit :=
  if decoder.buffer.all isAsciiWhitespace then .ok () else .error protocolError

/-- The fragments of a stream one after another, with all the frames they returned. -/
def pushAll : SseDecoder → List (List UInt8) →
    Except ProviderError (SseDecoder × List SseFrame)
  | decoder, [] => .ok (decoder, [])
  | decoder, piece :: pieces => do
    let (decoder, frames) ← decoder.push piece
    let (decoder, more) ← decoder.pushAll pieces
    .ok (decoder, frames ++ more)

/-- Pushes followed by finish. -/
def decode (maxFrameBytes : Nat) (pieces : List (List UInt8)) :
    Except ProviderError (List SseFrame) := do
  let (decoder, frames) ← (new maxFrameBytes).pushAll pieces
  decoder.finish
  .ok frames

end SseDecoder

section Reference

inductive LineEnd where
  | cr
  | lf
  | crlf
deriving DecidableEq, Repr

def LineEnd.bytes : LineEnd → List UInt8
  | .cr => [carriageReturn]
  | .lf => [lineFeed]
  | .crlf => [carriageReturn, lineFeed]

def LineEnd.first : LineEnd → UInt8
  | .cr | .crlf => carriageReturn
  | .lf => lineFeed

structure Line where
  text : Text
  ending : LineEnd
deriving DecidableEq, Repr

def Line.bytes (line : Line) : List UInt8 := line.text ++ line.ending.bytes

def consFirst {α β : Type} (item : α) (items : List α × β) : List α × β :=
  (item :: items.1, items.2)

def joinLines (lines : List Line) : List UInt8 := lines.flatMap Line.bytes

/-- The lines of a stream and the unfinished one behind them, after the start of a line. -/
def readLines : Text → List UInt8 → List Line × Text
  | text, [] => ([], text)
  | text, byte :: rest =>
    if byte = carriageReturn then
      match rest with
      | [] => ([⟨text, .cr⟩], [])
      | next :: later =>
        if next = lineFeed then consFirst ⟨text, .crlf⟩ (readLines [] later)
        else consFirst ⟨text, .cr⟩ (readLines [] (next :: later))
    else if byte = lineFeed then consFirst ⟨text, .lf⟩ (readLines [] rest)
    else readLines (text ++ [byte]) rest

/-- Lines with content up to a blank line. -/
structure Block where
  lines : List Line
  blank : LineEnd
deriving DecidableEq, Repr

/-- A block counts up to the first byte that ends its blank line. -/
def Block.bytes (block : Block) : List UInt8 := joinLines block.lines ++ [block.blank.first]

/-- The blocks of a list of lines and the open one behind them. -/
def readBlocks : List Line → List Line → List Block × List Line
  | pending, [] => ([], pending)
  | pending, line :: rest =>
    if line.text.isEmpty then consFirst ⟨pending, line.ending⟩ (readBlocks [] rest)
    else readBlocks (pending ++ [line]) rest

/-- The frames up to the first block that is refused, and the result. -/
def readFrames (maxFrameBytes : Nat) (rest : List UInt8) :
    List Block → List SseFrame × Except ProviderError Unit
  | [] =>
    if rest.length > maxFrameBytes then ([], .error limitError)
    else if rest.all isAsciiWhitespace then ([], .ok ())
    else ([], .error protocolError)
  | block :: blocks =>
    if block.bytes.length > maxFrameBytes then ([], .error limitError)
    else if !validUtf8 block.bytes then ([], .error protocolError)
    else
      let (frames, result) := readFrames maxFrameBytes rest blocks
      ((frameOfLines (block.lines.map Line.text)).toList ++ frames, result)

/-- The parser that sees the whole stream at once. -/
def reference (maxFrameBytes : Nat) (stream : List UInt8) :
    List SseFrame × Except ProviderError Unit :=
  let (lines, last) := readLines [] (stripFront byteOrderMark stream)
  let (blocks, pending) := readBlocks [] lines
  readFrames maxFrameBytes (joinLines pending ++ last) blocks

end Reference

end Sse

end AutoHarness
