import CommandScript.Files.Path

/-! A tree of files and directories. -/

namespace CommandScript

inductive OpenError where
  | noSuchFile
  | isDirectory
  | notDirectory
  | nameTooLong
  deriving DecidableEq, Repr

def OpenError.text : OpenError → Text
  | noSuchFile => "No such file or directory"
  | isDirectory => "Is a directory"
  | notDirectory => "Not a directory"
  | nameTooLong => "File name too long"

abbrev Location := List Text

structure FileTree where
  files : List (Location × List UInt8) := []
  directories : List Location := []
  deriving DecidableEq, Repr

namespace FileTree

def isFile (tree : FileTree) (place : Location) : Bool := (tree.files.lookup place).isSome

def isDirectory (tree : FileTree) (place : Location) : Bool :=
  place.isEmpty || tree.directories.contains place

def makeDirectory (tree : FileTree) (place : Location) : FileTree :=
  let above := (List.range place.length).map fun n => place.take (n + 1)
  { tree with directories := tree.directories ++ above.filter (!tree.directories.contains ·) }

def put (tree : FileTree) (place : Location) (contents : List UInt8) : FileTree :=
  if tree.isFile place then
    { tree with files := tree.files.map fun (p, old) => (p, if p = place then contents else old) }
  else { tree with files := tree.files ++ [(place, contents)] }

def addFile (tree : FileTree) (place : Location) (contents : List UInt8) : FileTree :=
  (tree.makeDirectory place.dropLast).put place contents

inductive Target where
  | file (place : Location)
  | directory (place : Location)
  | vacant (place : Location)
  deriving DecidableEq, Repr

def byteLength (s : Text) : Nat := ((Path.bytes? s).getD []).length

def isLong (component : Text) : Bool := 255 < byteLength component

def isNameless (component : Text) : Bool :=
  component = [] || component = [.char '.'] || component = [.char '.', .char '.']

/-- Where a path leads outside the tree: there are directories, and nothing else in them. -/
def outside (components : List Text) : Except OpenError Target :=
  match components.find? (!isNameless ·) with
  | none => .ok (.directory [])
  | some name => .error (if isLong name then .nameTooLong else .noSuchFile)

def walk (tree : FileTree) (place : Location) : List Text → Except OpenError Target
  | [] => .ok (.directory place)
  | component :: rest =>
    if component = [] ∨ component = [.char '.'] then walk tree place rest
    else if component = [.char '.', .char '.'] then
      if place.isEmpty then outside rest else walk tree place.dropLast rest
    else if isLong component then .error .nameTooLong
    else
      let next := place ++ [component]
      if tree.isDirectory next then walk tree next rest
      else if tree.isFile next then if rest.isEmpty then .ok (.file next) else .error .notDirectory
      else if rest.isEmpty then .ok (.vacant next)
      else .error .noSuchFile

def find (tree : FileTree) (path : Text) : Except OpenError Target :=
  let components := List.splitOn (.char '/') path
  if path.isEmpty then .error .noSuchFile
  else if 4096 ≤ byteLength path then .error .nameTooLong
  else if Path.isAbsolute path then outside components
  else walk tree [] components

def locate (tree : FileTree) (path : Text) : Except OpenError Location :=
  match tree.find path with
  | .error error => .error error
  | .ok (.file place) => .ok place
  | .ok (.directory _) => .error .isDirectory
  | .ok (.vacant _) => .error .noSuchFile

def contents (tree : FileTree) (place : Location) : List UInt8 := (tree.files.lookup place).getD []

def filesIn (tree : FileTree) (path : Text) : List Text :=
  match tree.find path with
  | .ok (.directory place) =>
    let names := tree.files.filterMap fun (p, _) =>
      if p.dropLast = place then p.getLast? else none
    names.mergeSort fun a b => !decide (b < a)
  | _ => []

end FileTree

end CommandScript
