import PolledUart.Tasks.Runner

/-!
# The command line

A command line names a command and gives it an operand and an option, or asks for help.
The arguments are read from left to right, and the first one that asks for help, or that
cannot be, decides. Behind `--` every argument is an operand.
-/

namespace PolledUart.Tasks

/-- What help is asked about. -/
inductive Topic where
  /-- The program as a whole. -/
  | program
  /-- The command that runs one example. -/
  | qemu
  /-- The command that tests the examples. -/
  | test
  /-- The command that shows help. -/
  | help
deriving Repr, DecidableEq

/-- What a command line says. -/
inductive Invocation where
  /-- Carry out a command. -/
  | run (command : Command)
  /-- Show the help on something. -/
  | help (topic : Topic)
  /-- Nothing that can be understood. -/
  | refused
deriving Repr, DecidableEq

/-! ### Arguments of a command -/

/-- The arguments of a command: at most one operand, and an option that is given or not. -/
structure Arguments where
  /-- The operand. -/
  operand : Option String := none
  /-- Whether the option is given. -/
  flag : Bool := false
deriving Repr, DecidableEq

/-- Why no arguments can be read. -/
inductive Interruption where
  /-- An argument asks for help. -/
  | help
  /-- An argument cannot be. -/
  | refused
deriving Repr, DecidableEq

/-- Takes an operand, of which there is one at most. -/
def Arguments.withOperand (arguments : Arguments) (operand : String) :
    Except Interruption Arguments :=
  if arguments.operand.isSome then .error .refused
  else .ok { arguments with operand := some operand }

/-- Takes the option, which is given once at most. -/
def Arguments.withFlag (arguments : Arguments) : Except Interruption Arguments :=
  if arguments.flag then .error .refused else .ok { arguments with flag := true }

/-- Whether an argument asks for help: by its long name, or by the short one, with whatever
follows it. -/
def asksForHelp (argument : String) : Bool :=
  argument = "--help" || ['-', 'h'].isPrefixOf argument.toList

/-- Whether an argument reads as an option. A dash alone is an operand. -/
def isOption (argument : String) : Bool :=
  argument ≠ "-" && argument.toList.head? = some '-'

/-- Reads the arguments of a command that has the given option. -/
def Arguments.read (option : String) (arguments : Arguments) :
    List String → Except Interruption Arguments
  | [] => .ok arguments
  | argument :: rest =>
    if argument = "--" then rest.foldlM Arguments.withOperand arguments
    else if argument = option then do read option (← arguments.withFlag) rest
    else if asksForHelp argument then .error .help
    else if isOption argument then .error .refused
    else do read option (← arguments.withOperand argument) rest

/-- The invocation that arguments make. -/
def Invocation.ofArguments (topic : Topic) (command : Arguments → Option Command) :
    Except Interruption Arguments → Invocation
  | .error .help => .help topic
  | .error .refused => .refused
  | .ok arguments =>
    match command arguments with
    | some command => .run command
    | none => .refused

/-- The topic of the help on a command. -/
def Topic.ofCommands? : List String → Option Topic
  | [] => some .program
  | ["qemu"] => some .qemu
  | ["test"] => some .test
  | ["help"] => some .help
  | _ => none

/-- Reads a command line. -/
def Invocation.parse : List String → Invocation
  | [] => .refused
  | "qemu" :: rest =>
    .ofArguments .qemu (fun a => a.operand.map fun name => .emulate ⟨name, a.flag⟩)
      (Arguments.read "--release" {} rest)
  | "test" :: rest =>
    .ofArguments .test (fun a => some (.test a.operand a.flag))
      (Arguments.read "--bless" {} rest)
  | "help" :: rest =>
    match Topic.ofCommands? rest with
    | some topic => .help topic
    | none => .refused
  | argument :: _ => if asksForHelp argument then .help .program else .refused

/-! ### Help -/

/-- The help on a topic. -/
def Topic.text : Topic → String
  | .program =>
    "Build and test tasks for msm-uart-dm\n\n" ++
    "Usage: xtask <COMMAND>\n\n" ++
    "Commands:\n" ++
    "  qemu  Run an example in QEMU and show its console and driver log\n" ++
    "  test  Run all examples and compare console output against expected\n" ++
    "  help  Print this message or the help of the given subcommand(s)\n\n" ++
    "Options:\n" ++
    "  -h, --help  Print help\n"
  | .qemu =>
    "Run an example in QEMU and show its console and driver log\n\n" ++
    "Usage: xtask qemu [OPTIONS] <EXAMPLE>\n\n" ++
    "Arguments:\n" ++
    "  <EXAMPLE>  Name of the example to run\n\n" ++
    "Options:\n" ++
    "      --release  Run in release mode\n" ++
    "  -h, --help     Print help\n"
  | .test =>
    "Run all examples and compare console output against expected\n\n" ++
    "Usage: xtask test [OPTIONS] [FILTER]\n\n" ++
    "Arguments:\n" ++
    "  [FILTER]  Only run examples whose name contains this\n\n" ++
    "Options:\n" ++
    "      --bless  Update expected output files instead of comparing\n" ++
    "  -h, --help   Print help\n"
  | .help =>
    "Print this message or the help of the given subcommand(s)\n\n" ++
    "Usage: xtask help [COMMAND]...\n\n" ++
    "Arguments:\n" ++
    "  [COMMAND]...  Print help for the subcommand(s)\n"

/-! ### The whole program -/

/-- What the program leaves behind. -/
structure Exit where
  /-- The exit status. -/
  code : Nat
  /-- What was printed. -/
  output : List UInt8
  /-- What was printed as errors. A command line that cannot be understood is not worded. -/
  errors : List UInt8
  /-- The tools that were started. -/
  calls : List Call
  /-- The files of the project. -/
  tree : Tree

/-- Runs the program. -/
def runProgram (workspace : Workspace) (tools : Toolchain) (tree : Tree)
    (arguments : List String) : Exit :=
  match Invocation.parse arguments with
  | .refused => ⟨2, [], [], [], tree⟩
  | .help topic => ⟨0, Text.encode topic.text, [], [], tree⟩
  | .run command =>
    let outcome := perform workspace tools tree command
    ⟨outcome.exitCode, outcome.progress.output, outcome.errors workspace,
      outcome.progress.calls, outcome.progress.tree⟩

end PolledUart.Tasks
