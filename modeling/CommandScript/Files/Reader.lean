import CommandScript.Error.Kind
import CommandScript.Files.Tree
import CommandScript.Lines

/-! Files that are being read, line by line. A file is read in chunks, and only when a line cannot be
taken from what has been read; so a file that changes while it is read shows some of its new contents. -/

namespace CommandScript

structure Reader where
  place : Location
  offset : Nat := 0
  incomplete : List UInt8 := []
  /-- A carriage return was read last; a newline after it belongs to it. -/
  heldReturn : Bool := false
  text : Text := []
  deriving DecidableEq, Repr

namespace Reader

def chunkSize : Nat := 8192

def characterSize (first : UInt8) : Nat :=
  if first < 0x80 then 1
  else if first < 0xC2 then 0
  else if first < 0xE0 then 2
  else if first < 0xF0 then 3
  else if first < 0xF5 then 4
  else 0

def mayFollow (first second : UInt8) : Bool :=
  let low : UInt8 := if first = 0xE0 then 0xA0 else if first = 0xF0 then 0x90 else 0x80
  let high : UInt8 := if first = 0xED then 0x9F else if first = 0xF4 then 0x8F else 0xBF
  low ≤ second && second ≤ high

def isIncomplete : List UInt8 → Bool
  | [first] => 1 < characterSize first
  | [first, second] => 2 < characterSize first && mayFollow first second
  | [first, second, third] => 3 < characterSize first && mayFollow first second && mayFollow 0x80 third
  | _ => false

def incompleteCount (bytes : List UInt8) : Nat :=
  ([1, 2, 3].find? fun n => isIncomplete (bytes.drop (bytes.length - n))).getD 0

def decode (bytes : List UInt8) : Except Fault Text :=
  match String.fromUTF8? (ByteArray.mk bytes.toArray) with
  | some s => .ok s
  | none => .error .encoding

/-- Takes in decoded text. A carriage return at its end waits for what follows. -/
def addText (reader : Reader) (ended : Bool) (decoded : Text) : Reader :=
  let whole := if reader.heldReturn && (ended || !decoded.isEmpty) then .char '\r' :: decoded else decoded
  if whole.getLast? = some (.char '\r') && !ended then
    { reader with text := reader.text ++ Lines.plainNewlines whole.dropLast, heldReturn := true }
  else
    { reader with
      text := reader.text ++ Lines.plainNewlines whole
      heldReturn := reader.heldReturn && whole.isEmpty && !ended }

def readChunk (reader : Reader) (tree : FileTree) : Except Fault Reader := do
  let chunk := ((tree.contents reader.place).drop reader.offset).take chunkSize
  let bytes := reader.incomplete ++ chunk
  let kept := if chunk.isEmpty then 0 else incompleteCount bytes
  let decoded ← decode (bytes.take (bytes.length - kept))
  let moved :=
    { reader with
      offset := reader.offset + chunk.length
      incomplete := bytes.drop (bytes.length - kept) }
  return moved.addText chunk.isEmpty decoded

def readLine (tree : FileTree) : Nat → Reader → Except Fault (Option Text × Reader)
  | 0, reader => .ok (none, reader)
  | rounds + 1, reader =>
    match Text.cut? '\n' reader.text with
    | some (line, rest) => .ok (some line, { reader with text := rest })
    | none =>
      match reader.readChunk tree with
      | .error fault => .error fault
      | .ok after =>
        if after.offset = reader.offset ∧ after.text = reader.text then
          .ok (if after.text.isEmpty then none else some after.text, { after with text := [] })
        else readLine tree rounds after

/-- Takes a line. Every chunk but the last two has a byte of the file. -/
def nextLine (tree : FileTree) (reader : Reader) : Except Fault (Option Text × Reader) :=
  readLine tree ((tree.contents reader.place).length + 3) reader

end Reader

end CommandScript
