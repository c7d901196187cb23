import GraphingCalculator.CommandLine.Arguments
import GraphingCalculator.Plot.Window

/-!
# Requests

A request is what a valid argument list asks for: a command with its settings,
and the definitions that every command starts from.
-/

namespace GraphingCalculator
namespace CommandLine

/-- What the program is asked to do.  Rows come from a file or from the
standard input. -/
inductive Command
  | eval (expression : Text) (x : Float)
  | sample (expression : Text) (window : Window)
  | intersect (first second : Text) (guess : Float)
  | rows (file? : Option Text) (x : Float)

/-- What an argument list asks for. -/
inductive Request
  | run (definitions : List Text) (command : Command)
  | help
  | version
  | refused

namespace Gathered

/-- The number given to an option. -/
def number (gathered : Gathered) (setting : Setting) (default : Float) :
    Float :=
  (gathered.values.findSome? fun (other, value) =>
    match value with
    | .number number => if other = setting then some number else none
    | _ => none).getD default

/-- The count given to an option. -/
def count (gathered : Gathered) (setting : Setting) (default : Nat) : Nat :=
  (gathered.values.findSome? fun (other, value) =>
    match value with
    | .count count => if other = setting then some count else none
    | _ => none).getD default

/-- The definitions, in the order in which they are given. -/
def definitions (gathered : Gathered) : List Text :=
  gathered.values.filterMap fun (_, value) =>
    match value with
    | .text text => some text
    | _ => none

end Gathered

/-- The commands. -/
inductive CommandName
  | eval
  | sample
  | intersect
  | rows

namespace CommandName

/-- Every command. -/
def all : List CommandName :=
  [eval, sample, intersect, rows]

/-- The argument that starts a command. -/
def name : CommandName → Text
  | eval => "eval".toList
  | sample => "sample".toList
  | intersect => "intersect".toList
  | rows => "rows".toList

/-- The command started by an argument. -/
def ofName? (name : Text) : Option CommandName :=
  all.find? fun command => command.name = name

/-- The arguments that a command knows. -/
def level : CommandName → Level
  | eval => ⟨[.define, .x], 1, false, []⟩
  | sample => ⟨[.define, .xMin, .xMax, .yMin, .yMax, .width], 1, false, []⟩
  | intersect => ⟨[.define, .guess], 2, false, []⟩
  | rows => ⟨[.define, .x], 1, false, []⟩

/-- The command with its arguments, if none is missing. -/
def toCommand? (name : CommandName) (gathered : Gathered) : Option Command :=
  match name, gathered.plain with
  | eval, [expression] => some (.eval expression (gathered.number .x 0))
  | sample, [expression] =>
      some (.sample expression
        { xMin := gathered.number .xMin (-10)
          xMax := gathered.number .xMax 10
          yMin := gathered.number .yMin (-10)
          yMax := gathered.number .yMax 10
          columns := gathered.count .width 80 })
  | intersect, [first, second] =>
      some (.intersect first second (gathered.number .guess 0))
  | rows, [] => some (.rows none (gathered.number .x 0))
  | rows, [file] =>
      if file.isEmpty then none
      else some (.rows (some file) (gathered.number .x 0))
  | _, _ => none

end CommandName

/-- The argument that asks for help on a command. -/
def helpName : Text := "help".toList

/-- The arguments before a command. -/
def topLevel : Level :=
  { settings := [.define]
    maxPlain := 0
    knowsVersion := true
    commands := helpName :: CommandName.all.map CommandName.name }

/-- Read the arguments after the word that asks for help. -/
def readHelp : List Text → Request
  | [] => .help
  | [name] => if topLevel.commands.contains name then .help else .refused
  | _ => .refused

/-- Read the arguments of a command.  Definitions that stand after the command
take the place of those before it. -/
def readCommand (name : CommandName) (before : Gathered)
    (arguments : List Text) : Request :=
  match readLevel name.level .empty arguments with
  | .complete gathered =>
      match name.toCommand? gathered with
      | some command =>
          let definitions := gathered.definitions
          .run (if definitions.isEmpty then before.definitions
            else definitions) command
      | none => .refused
  | .help => .help
  | .version => .version
  | .command _ _ _ | .refused => .refused

/-- What an argument list asks for. -/
def Request.ofArguments (arguments : List Text) : Request :=
  match readLevel topLevel .empty arguments with
  | .command name before rest =>
      if name = helpName then readHelp rest
      else
        match CommandName.ofName? name with
        | some command => readCommand command before rest
        | none => .refused
  | .help => .help
  | .version => .version
  | .complete _ | .refused => .refused

end CommandLine
end GraphingCalculator
