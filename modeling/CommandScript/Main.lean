import CommandScript.CommandLine.Startup
import Std.Time.DateTime.Timestamp

/-! The program. A session runs on the files below the working directory as they are when it starts,
and what it changed is written when it ends. -/

namespace CommandScript.Program

def loadFiles : IO FileTree := do
  let root ← IO.currentDir
  let above := root.components.length
  (← root.walkDir).foldlM
    (fun files entry => do
      let place := (entry.components.drop above).map Text.ofString
      if ← entry.isDir then return files.makeDirectory place
      else return files.addFile place (← IO.FS.readBinFile entry).toList)
    {}

def saveFiles (before after : FileTree) : IO Unit :=
  after.files.forM fun (place, contents) => do
    if before.files.lookup place ≠ some contents then
      IO.FS.writeBinFile (Text.shown (Text.join "/" place)) (ByteArray.mk contents.toArray)

def clock : IO Float := do
  let now ← Std.Time.Timestamp.now
  return Float.ofInt now.toNanosecondsSinceUnixEpoch.val / 1000000000.0

def depth : Nat := 1000

def surroundings (readsInput : Bool) : IO CommandLine.World := do
  let now ← clock
  let input ← if readsInput then (← IO.getStdin).readToEnd else pure ""
  return {
    files := ← loadFiles
    home := (← IO.getEnv "HOME").getD "~"
    directory := (← IO.currentDir).toString
    input := input
    clock := fun _ => now
    shell := fun _ => .failed "no shell" }

/-- Shows what a session wrote, and saves its files; the result is the exit status. -/
def finish (before : FileTree) (result : CommandLine.Result) : IO UInt32 := do
  (← IO.getStdout).putStr (Text.shown result.output)
  (← IO.getStderr).putStr (Text.shown result.errors)
  saveFiles before result.files
  return (result.exitCode % 256).toNat.toUInt32

end CommandScript.Program

open CommandScript in
def main (arguments : List String) : IO UInt32 := do
  let arguments := arguments.map Text.ofString
  let readsInput := match CommandLine.parse arguments with | .ok args => !args.parseOnly | .error _ => false
  let world ← Program.surroundings readsInput
  match CommandLine.run world Program.depth arguments with
  | .ok result => Program.finish world.files result
  | .error (.usage usage) =>
    IO.eprintln "usage: [-i] [-c COMMAND] [--no-init] [--verbose] [--traceback-json] [SCRIPT | NAME=VALUE]..."
    return usage.code.toUInt32
  | .error (.exit _) =>
    IO.eprintln "the session ended with a fault"
    return 1
