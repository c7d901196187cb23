import GraphingCalculator.CommandLine.Execution

/-!
# The program

Reads the arguments and the input, executes the request and writes its outcome.
-/

namespace GraphingCalculator

/-- The fault behind an error of the operating system. -/
def readingFault : IO.Error → CommandLine.ReadingFault
  | .noFileOrDirectory _ _ _ => .missing
  | .permissionDenied _ _ _ => .denied
  | .inappropriateType _ code _ =>
      if code = 21 then .isDirectory else .notDirectory
  | .invalidArgument _ _ _ => .nameTooLong
  | _ => .notText

/-- Read the rows that a request needs. -/
def readRows (request : CommandLine.Request) :
    IO (Except CommandLine.Failure Text) := do
  match request.file? with
  | some path =>
      try
        let content ← IO.FS.readFile (String.ofList path)
        return .ok content.toList
      catch error => return .error (.ofFile path (readingFault error))
  | none =>
      if request.readsInput then
        try
          let content ← (← IO.getStdin).readToEnd
          return .ok content.toList
        catch error => return .error (.ofInput (readingFault error))
      else return .ok []

/-- Execute the request in the arguments, and return the exit code. -/
def runProgram (arguments : List String) : IO UInt32 := do
  let request := CommandLine.Request.ofArguments
    (arguments.map String.toList)
  let outcome := request.execute (← readRows request)
  (← IO.getStdout).putStr outcome.output
  (← IO.getStderr).putStr outcome.errors
  return outcome.code.toUInt32

end GraphingCalculator

/-- The entry point of the program. -/
def main (arguments : List String) : IO UInt32 :=
  GraphingCalculator.runProgram arguments
