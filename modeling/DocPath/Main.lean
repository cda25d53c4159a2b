import DocPath.CommandLine.Run

/-!
# The program
-/

namespace DocPath.CommandLine

/-- The number of an error. Some are reported as the number below zero, in 32 bits. -/
def errorNumber (code : UInt32) : Nat :=
  min code.toNat (-code).toNat

def fileError (e : IO.Error) : FileError :=
  let numbered? := match e with
    | .noFileOrDirectory _ code _ => FileError.ofNumber? (errorNumber code)
    | .permissionDenied _ code _ => FileError.ofNumber? (errorNumber code)
    | .inappropriateType _ code _ => FileError.ofNumber? (errorNumber code)
    | .invalidArgument _ code _ => FileError.ofNumber? (errorNumber code)
    | _ => none
  numbered?.getD (.other (toString e))

def readFile (name : String) : IO (Except FileError ByteArray) := do
  try
    let bytes ← IO.FS.readBinFile name
    pure (.ok bytes)
  catch e =>
    pure (.error (fileError e))

end DocPath.CommandLine

open DocPath.CommandLine in
def main (arguments : List String) : IO UInt32 := do
  let request := Request.ofArguments arguments
  let input ← if request.any Request.readsStandardInput then (← IO.getStdin).readBinToEnd
    else pure ByteArray.empty
  let file ← match request with
    | some (.parse (some name)) => readFile name
    | _ => pure (.error .notFound)
  let finished := run ⟨arguments, input, fun _ => file⟩
  (← IO.getStdout).putStr finished.output
  (← IO.getStderr).putStr finished.errors
  pure finished.code.toUInt32
