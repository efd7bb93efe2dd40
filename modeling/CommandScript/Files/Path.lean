import CommandScript.Text.Basic

/-! Paths of files, with slashes between their components. -/

namespace CommandScript.Path

/-- The bytes of a path. Those that are no text are written as halves of pairs; other halves have none. -/
def bytes? : Text → Option (List UInt8)
  | [] => some []
  | .char c :: rest => (bytes? rest).map (String.utf8EncodeChar c ++ ·)
  | .half n :: rest =>
    if 0x480 ≤ n.val ∧ n.val < 0x500 then (bytes? rest).map (UInt8.ofNat (n.val - 0x400) :: ·) else none

def isAbsolute (path : Text) : Bool := path.head? = some (.char '/')

def expandHome (home path : Text) : Text :=
  match path with
  | ['~'] => home
  | '~' :: '/' :: rest => home ++ .char '/' :: rest
  | _ => path

def join (base path : Text) : Text :=
  if isAbsolute path then path
  else if base.isEmpty || base.getLast? = some (.char '/') then base ++ path
  else base ++ .char '/' :: path

def directory (path : Text) : Text :=
  let head := (path.reverse.dropWhile (· ≠ .char '/')).reverse
  if head.all (· = .char '/') then head else (head.reverse.dropWhile (· = .char '/')).reverse

/-- Puts a component on the reversed list of those before it; a component that goes up takes back
the one before it, if that can be done. -/
def addComponent (rooted : Bool) (done : List Text) (component : Text) : List Text :=
  if component = [] ∨ component = [.char '.'] then done
  else if component ≠ [.char '.', .char '.'] then component :: done
  else
    match done with
    | [] => if rooted then [] else [component]
    | last :: rest => if last = [.char '.', .char '.'] then component :: done else rest

/-- The path without empty components, dots and pairs that cancel. Two leading slashes are kept. -/
def normalize (path : Text) : Text :=
  let slashes := (path.takeWhile (· = .char '/')).length
  let root := if slashes = 0 then 0 else if slashes = 2 then 2 else 1
  let components := ((List.splitOn (.char '/') path).foldl (addComponent (root > 0)) []).reverse
  Text.orElse (List.replicate root (CodePoint.char '/') ++ Text.join "/" components) "."

def resolveScript (home path : Text) (base : Option Text) (relative : Bool) : Text :=
  let path := expandHome home path
  let base := base.getD []
  normalize (if !isAbsolute path && relative && !base.isEmpty then join base path else path)

end CommandScript.Path
