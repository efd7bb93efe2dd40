import CommandScript.Flow.Loop

/-! Frames: one for the session itself and one for every script file that is open. -/

namespace CommandScript

structure Frame where
  path : Option Text := none
  line : Nat := 0
  statement : Text := []
  aliases : AliasTable := []
  loops : List Loop := []
  blocks : Flow.BlockCount := ⟨0, 0⟩
  conditions : List Branch := []
  relativePaths : Bool := true
  deriving DecidableEq, Repr

namespace Frame

def fileName (frame : Frame) : Text := Text.orElse (frame.path.getD []) "<stdin>"

def unclosedBlocks (frame : Frame) : List Text :=
  let count := frame.conditions.length
  (if count = 1 then [("missing 1 endif" : Text)]
   else if count > 1 then ["missing " ++ Text.ofNat count ++ " endif's"]
   else []) ++
  (if frame.loops.isEmpty then [] else [("missing endfor" : Text)])

/-- The alias tables in the order in which they are searched: that of the frame, then those of its
loops from the outermost. -/
def aliasTables (frame : Frame) : List AliasTable :=
  frame.aliases :: frame.loops.reverse.map (·.aliases)

def withAliasTables (frame : Frame) (tables : List AliasTable) : Frame :=
  let inner := (tables.drop 1).reverse
  { frame with
    aliases := tables.head?.getD []
    loops := (frame.loops.zip inner).map fun (loop, aliases) => { loop with aliases } }

def loopAt? (frame : Frame) (depth : Nat) : Option Loop := frame.loops.reverse[depth]?

def modifyLoopAt (frame : Frame) (depth : Nat) (f : Loop → Loop) : Frame :=
  { frame with loops := (frame.loops.reverse.modify depth f).reverse }

def modifyLoop (frame : Frame) (f : Loop → Loop) : Frame :=
  { frame with loops := frame.loops.modifyHead f }

def trimConditions (frame : Frame) (depth : Nat) : Frame :=
  { frame with conditions := frame.conditions.drop (frame.conditions.length - depth) }

def place (frame : Frame) (statement : Text) : Place := ⟨frame.fileName, frame.line, statement⟩

end Frame

end CommandScript
