import CommandScript.Error.Kind
import CommandScript.Files.Tree

/-! Files that are open for writing. Bytes wait in a buffer of one block until they do not fit any more,
and text waits in front of the buffer; what waits reaches the tree at the latest when the file is closed. -/

namespace CommandScript

structure Handle where
  place : Location
  appends : Bool
  /-- Where the next bytes go, unless they go to the end of the file. -/
  position : Nat := 0
  buffer : Array UInt8 := #[]
  pending : Array UInt8 := #[]
  deriving DecidableEq, Repr

namespace Handle

def blockSize : Nat := 4096

def textSize : Nat := 8192

/-- Opens a file for writing; unless it is to be continued, its contents are dropped at once. -/
def openIn (tree : FileTree) (path : Text) (append : Bool) : Except OpenError (Handle × FileTree) :=
  match tree.find path with
  | .error .noSuchFile =>
    let components := List.splitOn (.char '/') path
    if components.getLast? = some [] && components.length > 1 && !Path.isAbsolute path then
      match tree.walk [] components.dropLast with
      | .ok (.vacant _) => .error .isDirectory
      | _ => .error .noSuchFile
    else .error .noSuchFile
  | .error error => .error error
  | .ok (.directory _) => .error .isDirectory
  | .ok (.vacant place) => .ok ({ place, appends := append }, tree.put place [])
  | .ok (.file place) =>
    .ok ({ place, appends := append }, if append then tree else tree.put place [])

/-- Puts bytes into the file. A gap before them, left when the file was cut short, is filled with zeros. -/
def store (handle : Handle) (bytes : List UInt8) (tree : FileTree) : Handle × FileTree :=
  let there := tree.contents handle.place
  let start := handle.position
  let before := there.take start ++ List.replicate (start - there.length) 0
  let after := there.drop (start + bytes.length)
  if bytes.isEmpty then (handle, tree)
  else
    ({ handle with position := start + bytes.length },
      tree.put handle.place (if handle.appends then there ++ bytes else before ++ bytes ++ after))

def flush (handle : Handle) (tree : FileTree) : Handle × FileTree :=
  let (handle, tree) := handle.store handle.buffer.toList tree
  ({ handle with buffer := #[] }, tree)

/-- Writes bytes. Those that do not fit into the buffer empty it, and more than a block of them does not
wait at all. -/
def write (handle : Handle) (bytes : List UInt8) (tree : FileTree) : Handle × FileTree :=
  if handle.buffer.size + bytes.length ≤ blockSize ∧ bytes.length < blockSize then
    ({ handle with buffer := handle.buffer ++ bytes }, tree)
  else
    let (handle, tree) := handle.flush tree
    if bytes.length > blockSize then handle.store bytes tree
    else ({ handle with buffer := bytes.toArray }, tree)

def release (handle : Handle) (tree : FileTree) : Handle × FileTree :=
  { handle with pending := #[] }.write handle.pending.toList tree

def writeText (handle : Handle) (bytes : List UInt8) (tree : FileTree) : Handle × FileTree :=
  let (handle, tree) := if bytes.length ≥ textSize then handle.release tree else (handle, tree)
  let handle := { handle with pending := handle.pending ++ bytes }
  if handle.pending.size ≥ textSize then handle.release tree else (handle, tree)

def close (handle : Handle) (tree : FileTree) : FileTree :=
  let (handle, tree) := handle.release tree
  (handle.flush tree).2

end Handle

def encodeWhole (s : Text) : Except Fault (List UInt8) :=
  match Text.encode? s with
  | some bytes => .ok bytes
  | none => .error .half

end CommandScript
