import ShaderTrace.Cli.Run

/-!
# The command line program
-/

open ShaderTrace ShaderTrace.Cli

/-- Prints the reason and gives the exit code of a failure. -/
def reportFailure (error : CommandError) : IO UInt32 := do
  (← IO.getStderr).putStrLn ("error: " ++ error.message)
  return 1

def writeOutput (path content : String) : IO UInt32 := do
  try
    IO.FS.writeFile path content
    return 0
  catch error => reportFailure (.write path (toString error))

/-- Carries out a command line: exit code 0 for success, 1 for a command that failed, 2 for a line not understood. -/
def main (arguments : List String) : IO UInt32 := do
  match readCommandLine 0 arguments with
  | .error .helpRequested => return 0
  | .error _ => return 2
  | .ok (command, settings) =>
    match perform command settings (← (← IO.getStdout).isTty) with
    | .error error => reportFailure error
    | .ok (.print text) =>
      IO.print text
      return 0
    | .ok (.write path content) => writeOutput path content
