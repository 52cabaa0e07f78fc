import SyncPlus.Path
import SyncPlus.Lib.Numerals
import SyncPlus.Lib.Streams
import SyncPlus.Lib.Texts
import SyncPlus.Lib.Totals

/-!
# Transfer output

How the output of a transfer is read: byte by byte, with the line so far, until
it is longer than a record may be. A whole line gives an itemized record, a
progress record, a diagnostic or nothing (`parseLine`), within limits on the
records and the bytes of all lines (`appendLine`). What is read does not depend on
how the output is cut into chunks (`output_of_chunks`).
-/

namespace SyncPlus

/-! ## Events -/

structure ItemizedRecord where
  code : String
  path : PathBuf
  deriving DecidableEq

structure ProgressRecord where
  completedBytes : UInt64
  percent : UInt8
  deriving DecidableEq

inductive ParseDiagnostic where
  | invalidUtf8
  | invalidItemizedRecord
  | invalidEscape
  | invalidProgressRecord
  | unrecognizedRecord
  | truncatedRecord
  | recordTooLong
  | outputTooLarge
  deriving DecidableEq

inductive ParsedOutput where
  | itemized (record : ItemizedRecord)
  | progress (record : ProgressRecord)
  | diagnostic (diagnostic : ParseDiagnostic)
  deriving DecidableEq

def ParsedOutput.isDiagnostic : ParsedOutput → Bool
  | diagnostic _ => true
  | _ => false

/-! ## Lines -/

/-- The bytes of a text of the program. -/
def literal (text : String) : List UInt8 := (PathBuf.ofText text).bytes

def lineFeed : UInt8 := 10
def carriageReturn : UInt8 := 13
def backslash : UInt8 := 92
def percentSign : UInt8 := 37

/-- `u8::is_ascii_whitespace` -/
def isAsciiWhitespace (byte : UInt8) : Bool :=
  byte = 32 || byte = 9 || byte = 10 || byte = 12 || byte = 13

def withoutReturn (line : List UInt8) : List UInt8 :=
  if line.getLast? = some carriageReturn then line.dropLast else line

def isKnownRsyncInfo (line : List UInt8) : Bool :=
  line = literal "sending incremental file list" ||
    line = literal "receiving incremental file list" ||
    ["building file list", "created directory ", "sent ", "total size is ",
      "delta-transmission enabled", "Number of files: ", "Number of created files: ",
      "Number of deleted files: ", "Number of regular files transferred: ",
      "Total file size: ", "Total transferred file size: ", "Literal data: ",
      "Matched data: ", "File list size: ", "File list generation time: ",
      "File list transfer time: ", "Total bytes sent: ", "Total bytes received: ",
      "sent_bytes=", "received_bytes="].any fun beginning => (literal beginning).isPrefixOf line

def looksLikeItemizedRecord (line : List UInt8) : Bool :=
  line.head?.any (· ∈ literal "><ch.*") || (literal "*deleting").isPrefixOf line

/-- The code and the path, which is still escaped. -/
def splitItemizedLine (line : List UInt8) : Option (String × List UInt8) := do
  let code := line.takeWhile fun byte => !isAsciiWhitespace byte
  let rest := line.dropWhile fun byte => !isAsciiWhitespace byte
  guard (rest ≠ [])
  let text ← PathBuf.toText ⟨code⟩
  guard (code.length = 11 ∧ code.head?.any (· ∈ literal "><ch.*") = true ∧
    code[1]?.any (· ∈ literal "fdLDS") = true ∧
    (code.drop 2).all (· ∈ literal ".+cstpogunax?") = true)
  let path := rest.dropWhile isAsciiWhitespace
  guard (path ≠ [])
  return (text, path)

/-! ## Escapes -/

def hexDigitOf (byte : UInt8) : Option UInt8 :=
  (hexValue (Char.ofNat byte.toNat)).map UInt8.ofNat

def isOctalDigit (byte : UInt8) : Bool := 48 ≤ byte && byte ≤ 55

/-- The number of some octal digits, when one byte holds it at every digit. -/
def octalValue (digits : List UInt8) : Option UInt8 :=
  digits.foldlM (fun value digit =>
    let next := 8 * value.toNat + (digit - 48).toNat
    if next < 256 then some (UInt8.ofNat next) else none) 0

/-- The byte of an escape, from what follows its backslash, and how much of that
it takes. -/
def readEscape (encoded : List UInt8) : Except ParseDiagnostic (UInt8 × Nat) :=
  match encoded with
  | [] => .error .invalidEscape
  | escaped :: rest =>
      if escaped = backslash then .ok (backslash, 1)
      else if escaped = 110 then .ok (10, 1)
      else if escaped = 114 then .ok (13, 1)
      else if escaped = 116 then .ok (9, 1)
      else if escaped = 120 then
        match (rest[0]?).bind hexDigitOf, (rest[1]?).bind hexDigitOf with
        | some high, some low => .ok ((high <<< 4) ||| low, 3)
        | _, _ => .error .invalidEscape
      else if 48 ≤ escaped ∧ escaped ≤ 57 then
        let digits := (encoded.take 3).takeWhile isOctalDigit
        match octalValue digits with
        | some value => if digits = [] then .error .invalidEscape else .ok (value, digits.length)
        | none => .error .invalidEscape
      else .error .invalidEscape

/-- The loop of `unescape_path`, past the bytes that an escape has taken. -/
def unescapeBytes : Nat → List UInt8 → Except ParseDiagnostic (List UInt8)
  | _, [] => .ok []
  | taken + 1, _ :: encoded => unescapeBytes taken encoded
  | 0, byte :: encoded =>
      if byte = backslash then do
        let (decoded, taken) ← readEscape encoded
        let rest ← unescapeBytes taken encoded
        return decoded :: rest
      else do
        let rest ← unescapeBytes 0 encoded
        return byte :: rest

def unescapePath (encoded : List UInt8) : Except ParseDiagnostic PathBuf := do
  let decoded ← unescapeBytes 0 encoded
  if 0 ∈ decoded then .error .invalidEscape
  else if (PathBuf.toText ⟨decoded⟩).isNone then .error .invalidUtf8
  else return ⟨decoded⟩

/-! ## Progress -/

def parseProgress (line : List UInt8) : Option ProgressRecord := do
  let text ← PathBuf.toText ⟨line⟩
  let fields := pieces (fun c : Char => c.toNat < 128 && isAsciiWhitespace c.toNat.toUInt8)
    text.toList
  let completedBytes ← parseUnsigned (2 ^ 64) ((← fields[0]?).filter (· ≠ ','))
  let percentText ← fields[1]?
  guard (percentText.getLast? = some '%')
  let percent ← parseUnsigned (2 ^ 8) percentText.dropLast
  guard (percent ≤ 100)
  return ⟨.ofNat completedBytes, .ofNat percent⟩

/-- What a line gives. -/
def parseLine (line : List UInt8) : List ParsedOutput :=
  let line := withoutReturn line
  if line = [] then []
  else if isKnownRsyncInfo line then []
  else if looksLikeItemizedRecord line then
    match splitItemizedLine line with
    | some (code, encodedPath) =>
        match unescapePath encodedPath with
        | .ok path =>
            if path.bytes = [] then [.diagnostic .invalidItemizedRecord]
            else [.itemized ⟨code, path⟩]
        | .error diagnostic => [.diagnostic diagnostic]
    | none => [.diagnostic .invalidItemizedRecord]
  else if percentSign ∈ line then
    match parseProgress line with
    | some progress => [.progress progress]
    | none => [.diagnostic .invalidProgressRecord]
  else [.diagnostic .unrecognizedRecord]

/-! ## The parser -/

structure TransferOutputParser where
  buffer : List UInt8
  discardingOversizedRecord : Bool
  maxRecordBytes : Nat
  maxOutputRecords : Nat
  maxOutputBytes : Nat
  outputRecordCount : Nat
  outputByteCount : Nat
  outputLimitReached : Bool
  deriving DecidableEq

namespace TransferOutputParser

def new : TransferOutputParser where
  buffer := []
  discardingOversizedRecord := false
  maxRecordBytes := 1024 * 1024
  maxOutputRecords := 1000000
  maxOutputBytes := 64 * 1024 * 1024
  outputRecordCount := 0
  outputByteCount := 0
  outputLimitReached := false

def withOutputLimits (maxRecordBytes maxOutputRecords maxOutputBytes : Nat) :
    TransferOutputParser :=
  { new with
    maxRecordBytes := max maxRecordBytes 1
    maxOutputRecords := max maxOutputRecords 1
    maxOutputBytes := max maxOutputBytes 1 }

/-- `usize::saturating_add` -/
def countBytes (parser : TransferOutputParser) (line : List UInt8) : Nat :=
  (saturate (parser.outputByteCount + line.length)).toNat

/-- The loop of `append_line` over what the line gives. -/
def appendEvents (parser : TransferOutputParser) (line : List UInt8) :
    List ParsedOutput → TransferOutputParser × List ParsedOutput
  | [] => ({ parser with outputByteCount := parser.countBytes line }, [])
  | event :: events =>
      if parser.maxOutputRecords ≤ parser.outputRecordCount then
        ({ parser with outputLimitReached := true }, [.diagnostic .outputTooLarge])
      else
        let (parser, output) := appendEvents
          { parser with outputRecordCount := parser.outputRecordCount + 1 } line events
        (parser, event :: output)

def appendLine (parser : TransferOutputParser) (line : List UInt8) :
    TransferOutputParser × List ParsedOutput :=
  if parser.outputLimitReached then (parser, [])
  else if parser.maxOutputBytes < parser.countBytes line then
    ({ parser with outputLimitReached := true }, [.diagnostic .outputTooLarge])
  else parser.appendEvents line (parseLine line)

/-- The loop of `feed`, for one byte. -/
def feedByte (parser : TransferOutputParser) (byte : UInt8) :
    TransferOutputParser × List ParsedOutput :=
  if parser.discardingOversizedRecord then
    if byte = lineFeed then
      ({ parser with discardingOversizedRecord := false }, [.diagnostic .recordTooLong])
    else (parser, [])
  else if byte = lineFeed then
    { parser with buffer := [] }.appendLine parser.buffer
  else
    let buffer := parser.buffer ++ [byte]
    if parser.maxRecordBytes < buffer.length then
      ({ parser with buffer := [], discardingOversizedRecord := true }, [])
    else ({ parser with buffer }, [])

def feed (parser : TransferOutputParser) (chunk : List UInt8) :
    TransferOutputParser × List ParsedOutput :=
  feedEach feedByte parser chunk

def finish (parser : TransferOutputParser) : TransferOutputParser × List ParsedOutput :=
  if parser.buffer = [] ∧ parser.discardingOversizedRecord = false then (parser, [])
  else
    ({ parser with buffer := [], discardingOversizedRecord := false },
      [.diagnostic (if parser.discardingOversizedRecord then .recordTooLong
        else .truncatedRecord)])

/-- What the parser puts out for the chunks and at the end. -/
def output (parser : TransferOutputParser) (chunks : List (List UInt8)) : List ParsedOutput :=
  let (fed, events) := feedEach feed parser chunks
  events ++ fed.finish.2

theorem output_eq (parser : TransferOutputParser) (chunks : List (List UInt8)) :
    parser.output chunks = (parser.feed chunks.flatten).2 ++
      (parser.feed chunks.flatten).1.finish.2 := by
  unfold output feed
  rw [feedEach_flatten]

/-- **What is read does not depend on how the output is cut.** -/
theorem output_of_chunks (parser : TransferOutputParser) (chunks : List (List UInt8)) :
    parser.output chunks = parser.output [chunks.flatten] := by
  rw [output_eq, output_eq, List.flatten_singleton]

end TransferOutputParser

end SyncPlus
