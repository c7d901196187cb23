import GraphingCalculator.CommandLine.FileTree
import GraphingCalculator.CommandLine.Request
import GraphingCalculator.Plot.Sampling
import GraphingCalculator.Secant
import GraphingCalculator.Text.Quoted
import GraphingCalculator.Worksheet.Editing

/-!
# Executing requests

A request ends with an exit code and with what is written to the two output
channels.  A failure is written with the chain of its causes.
-/

namespace GraphingCalculator
namespace CommandLine

/-- An error that ends the program, with its causes from the outermost to the
innermost one. -/
structure Failure where
  message : String
  causes : List String

/-- What a program leaves behind. -/
structure Outcome where
  code : Nat
  output : String
  errors : String

namespace Failure

/-- The lines of the causes.  Several of them are numbered. -/
def causeLines : List String → List String
  | [] => []
  | [cause] => ["    " ++ cause]
  | causes =>
      causes.zipIdx.map fun (cause, index) =>
        "    " ++ toString index ++ ": " ++ cause

/-- The text of a failure. -/
def report (failure : Failure) : String :=
  let causes :=
    match causeLines failure.causes with
    | [] => ""
    | lines => "\n\nCaused by:\n" ++ "\n".intercalate lines
  "Error: " ++ failure.message ++ causes ++ "\n"

/-- What a failure leaves behind. -/
def outcome (failure : Failure) : Outcome :=
  ⟨1, "", failure.report⟩

/-- A failure without causes. -/
def plain (message : String) : Failure :=
  ⟨message, []⟩

/-- The failure of a definition given on the command line. -/
def ofDefinition (definition : Text) (error : DefinitionError) : Failure :=
  { message := "invalid definition " ++ String.ofList (Text.quoted definition)
    causes := error.message :: error.sources }

/-- The failure of an expression given on the command line. -/
def ofSource (source : Text) (error : SyntaxError) : Failure :=
  { message := "cannot compile " ++ String.ofList (Text.quoted source)
    causes := [error.message] }

/-- The failure of a file that cannot be read. -/
def ofFile (path : Text) (fault : ReadingFault) : Failure :=
  { message := "can't open " ++ String.ofList (Text.quoted path)
    causes := [fault.message] }

/-- The failure of a standard input that cannot be read. -/
def ofInput (fault : ReadingFault) : Failure :=
  plain fault.message

end Failure

/-- The lines of a text, without the line breaks.  A carriage return before a
line feed belongs to the break.  The characters of the current line are given
last first. -/
def linesAfter (currentReversed : Text) : Text → List Text
  | [] =>
      if currentReversed.isEmpty then [] else [currentReversed.reverse]
  | '\n' :: rest =>
      let line :=
        match currentReversed with
        | '\r' :: before => before.reverse
        | _ => currentReversed.reverse
      line :: linesAfter [] rest
  | character :: rest => linesAfter (character :: currentReversed) rest

/-- The lines of a text. -/
def linesOf (text : Text) : List Text :=
  linesAfter [] text

/-- The environment with the definitions of the command line. -/
def startEnvironment (definitions : List Text) :
    Except Failure Environment :=
  definitions.foldlM
    (fun environment definition =>
      match environment.processDefinition definition with
      | .ok (_, defined) => .ok defined
      | .error error => .error (.ofDefinition definition error))
    (Environment.empty {})

/-- Compile an expression of the command line. -/
def compileSource (environment : Environment) (source : Text) :
    Except Failure Formula :=
  (environment.compile source).mapError (Failure.ofSource source)

/-- Evaluate an expression of the command line. -/
def evaluateFormula (environment : Environment) (formula : Formula)
    (x : Float) : Except Failure Float :=
  (environment.evaluate formula.expression x).mapError fun error =>
    .plain error.message

/-- The value of an expression, on a line. -/
def evalOutput (environment : Environment) (expression : Text) (x : Float) :
    Except Failure String := do
  let formula ← compileSource environment expression
  let value ← evaluateFormula environment formula x
  return String.ofList (showNumber value) ++ "\n"

/-- The line of a point, with a comma between its coordinates. -/
def pointLine (point : Point) : String :=
  String.ofList (showNumber point.x ++ ',' :: showNumber point.y) ++ "\n"

/-- The points of a curve, a line each, with an empty line between runs. -/
def sampleOutput (environment : Environment) (expression : Text)
    (window : Window) : Except Failure String := do
  let formula ← compileSource environment expression
  let runTexts := (environment.sample window formula).map fun run =>
    String.join (run.map pointLine)
  return "\n".intercalate runTexts

/-- The place where two expressions are equal, on a line. -/
def intersectOutput (environment : Environment) (first second : Text)
    (guess : Float) : Except Failure String := do
  let firstFormula ← compileSource environment first
  let secondFormula ← compileSource environment second
  let x ← (environment.intersection firstFormula secondFormula guess).mapError
    fun error => .plain error.message
  let y ← evaluateFormula environment firstFormula x
  return "x = " ++ String.ofList (showNumber x) ++ ", y = " ++
    String.ofList (showNumber y) ++ "\n"

/-- A worksheet with a row for every line.  Lines that fail stay as they are
typed. -/
def worksheetOfLines (environment : Environment) (lines : List Text) :
    Worksheet :=
  lines.foldl
    (fun sheet line =>
      let (index, extended) := sheet.pushRow
      match extended.edit? index line with
      | some (_, edited) => edited
      | none => extended)
    (Worksheet.ofEnvironment environment)

/-- The name, the text and the value of a row, on a line. -/
def rowLine (environment : Environment) (x : Float) (row : Row) : String :=
  let result :=
    match row.evaluate environment x with
    | .ok value => String.ofList (showNumber value)
    | .error error => "error: " ++ error.message
  String.ofList (row.name ++ '\t' :: row.text) ++ "\t" ++ result ++ "\n"

/-- The rows of an input with their values. -/
def rowsOutput (environment : Environment) (input : Text) (x : Float) :
    String :=
  let sheet := worksheetOfLines environment (linesOf input)
  String.join (sheet.rows.map (rowLine sheet.environment x))

/-- Execute a command.  The input is what was read for its rows. -/
def Command.output (command : Command) (environment : Environment)
    (input : Except Failure Text) : Except Failure String :=
  match command with
  | .eval expression x => evalOutput environment expression x
  | .sample expression window => sampleOutput environment expression window
  | .intersect first second guess =>
      intersectOutput environment first second guess
  | .rows _ x => do
      let text ← input
      return rowsOutput environment text x

/-- Execute a command after its definitions. -/
def execute (definitions : List Text) (command : Command)
    (input : Except Failure Text) : Outcome :=
  let result := do
    let environment ← startEnvironment definitions
    command.output environment input
  match result with
  | .ok output => ⟨0, output, ""⟩
  | .error failure => failure.outcome

/-- Execute a request.  The usage of the program is not explained here. -/
def Request.execute (request : Request) (input : Except Failure Text) :
    Outcome :=
  match request with
  | .run definitions command => CommandLine.execute definitions command input
  | .help => ⟨0, "", ""⟩
  | .version => ⟨0, "calculaterm 0.1.0\n", ""⟩
  | .refused => ⟨2, "", ""⟩

/-- The file from which a request reads rows. -/
def Request.file? : Request → Option Text
  | .run _ (.rows file? _) => file?
  | _ => none

/-- The rows that a request reads, from a file or from the standard input. -/
def Request.input (request : Request) (files : FileSystem)
    (standardInput : Text) : Except Failure Text :=
  match request.file? with
  | some path => (files.read path).mapError (Failure.ofFile path)
  | none => .ok standardInput

/-- Check whether a request reads rows from the standard input. -/
def Request.readsInput : Request → Bool
  | .run _ (.rows none _) => true
  | _ => false

end CommandLine
end GraphingCalculator
