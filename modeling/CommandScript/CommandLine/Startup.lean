import CommandScript.CommandLine.Arguments
import CommandScript.Schedule.Executor

/-! A session started from the command line: the scripts of the installation and of the user, those
named by the arguments, the commands given as options, and then standard input. -/

namespace CommandScript.CommandLine

def directive (path : Text) : Text := "parse \"" ++ path ++ "\""

def startup (files : FileTree) (home : Text) (installDir : Option Text) (name : Text) : List Text :=
  let below := fun (base : Text) => Path.join (Path.join base "scripts") "init"
  let installed := (installDir.filter (!·.isEmpty)).toList.map below
  let own := below (Path.join home (.char '.' :: name))
  (installed ++ [own]).flatMap fun directory =>
    (files.filesIn directory).map fun entry => directive (Path.join directory entry)

structure Result where
  exitCode : Int
  output : Text := []
  errors : Text := []
  files : FileTree := {}
  deriving DecidableEq, Repr

inductive Failure where
  | usage (usage : Usage)
  | exit (exit : Exit)
  deriving DecidableEq, Repr

structure World where
  files : FileTree := {}
  home : Text := []
  directory : Text := []
  input : Text := []
  /-- The readings of the clock, by how many there were before. -/
  clock : Nat → Float := fun _ => 0.0
  shell : Text → ShellReply

def directives (world : World) (args : Arguments) (scripts : List Text) : List Text :=
  (if args.noInit then [] else startup world.files world.home args.installDir args.name) ++
    scripts.map directive ++ args.commands

def runArguments (world : World) (depth : Nat) (args : Arguments) : Except Failure Result :=
  let requests := Requests.of args.plain
  let options : Options :=
    { parseOnly := args.parseOnly, standardInput := !args.parseOnly, verbose := args.verbose,
      jsonReports := args.jsonReports }
  let env : Env Nat :=
    { options, clock := fun readings => (world.clock readings, readings + 1), home := world.home
      shell := world.shell }
  let start := Session.start options 0 world.files
  let start := requests.assignments.foldl (fun session (name, value) => session.setGlobal name value) start
  let lines := directives world args requests.scripts
  let input := if args.parseOnly then none else some world.input
  match Interpreter.runSession env depth lines input start with
  | .error exit _ => .error (.exit exit)
  | .ok () session =>
    .ok
      { exitCode := session.exitCode
        output := session.output.toList.flatten
        errors := session.diagnostics.toList.flatMap fun text => text ++ "\n"
        files := session.files }

/-- Runs a command line. Adapters are looked for before anything is run. -/
def run (world : World) (depth : Nat) (arguments : List Text) : Except Failure Result :=
  match parse arguments with
  | .error usage => .error (.usage usage)
  | .ok args =>
    match args.adapters.head? with
    | some path =>
      let error := RegistrationError.notFound (Path.normalize (Path.join world.directory path))
      .ok { exitCode := 1, errors := "AdapterError: " ++ error.message ++ "\n", files := world.files }
    | none => runArguments world depth args

end CommandScript.CommandLine
