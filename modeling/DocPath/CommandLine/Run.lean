import DocPath.CommandLine.Command
import DocPath.CommandLine.Files
import DocPath.CommandLine.Request

/-!
# Running the program

The program as a function of its arguments, its standard input and the files it may
read. What cannot be done is reported on standard error, with exit code 1; arguments
that are refused give exit code 2.
-/

namespace DocPath.CommandLine

/-- What the program finds around it. Reading a file gives its bytes, or says why not. -/
structure Surroundings where
  arguments : List String
  standardInput : ByteArray
  readFile : String → Except FileError ByteArray

structure Finished where
  code : Nat
  output : String
  errors : String

namespace Finished

def ok (output : String) : Finished :=
  ⟨0, output, ""⟩

def failed (output : String) (failure : Failure) : Finished :=
  ⟨1, output, failure.message ++ "\n"⟩

/-- What follows on what was done before. -/
def andThen (a b : Finished) : Finished :=
  ⟨b.code, a.output ++ b.output, a.errors ++ b.errors⟩

end Finished

def versionText : String :=
  "slotpath 0.2.0\n"

/-! ## Help -/

def optionsHelp : String :=
  "Options:
  -i, --input <INPUT>  JSON input (reads from stdin if not provided)
  -b, --bind <BIND>    Variable binding as name=JSON (repeatable)
  -p, --pretty         Pretty-print the output
  -h, --help           Print help
"

def helpText : Topic → String
  | .program =>
    "slotpath - address and mutate locations inside JSON documents

Usage: slotpath <COMMAND>

Commands:
  parse    Parse path expressions, one per line, and print their segments
  resolve  Resolve a path against a JSON document
  mutate   Apply add, append, set-field or remove and print the document
  help     Print this message or the help of the given subcommand(s)

Options:
  -h, --help     Print help
  -V, --version  Print version
"
  | .parse =>
    "Parse path expressions, one per line, and print their segments

Usage: slotpath parse [FILE]

Arguments:
  [FILE]  File with one path per line (reads from stdin if not provided)

Options:
  -h, --help  Print help
"
  | .resolve =>
    "Resolve a path against a JSON document

Usage: slotpath resolve [OPTIONS] <PATH>

Arguments:
  <PATH>  The path expression

" ++ optionsHelp
  | .mutate =>
    "Apply add, append, set-field or remove and print the document

Usage: slotpath mutate [OPTIONS] <VERB> <PATH> [VALUE]

Arguments:
  <VERB>   [possible values: add, append, set-field, remove]
  <PATH>   The path expression
  [VALUE]  JSON value to write (not used by remove)

" ++ optionsHelp
  | .help =>
    "Print this message or the help of the given subcommand(s)

Usage: slotpath help [COMMAND]...

Arguments:
  [COMMAND]...  Print help for the subcommand(s)
"

/-! ## Commands -/

def jsonText (pretty : Bool) (j : Json) : String :=
  (if pretty then j.pretty 0 else j.compact) ++ "\n"

/-- A path goes to standard output with its line, a failure to standard error. -/
def reportLine (line : ParsedLine) : Finished :=
  let heading := "\nin: " ++ line.text ++ "\n"
  match line.result with
  | .ok path => ⟨0, heading ++ "out: " ++ path.toJson.compact ++ "\n", ""⟩
  | .error e => ⟨0, heading, e.message ++ "\n"⟩

def runParse (w : Surroundings) (file : Option String) : Finished :=
  let input : Except Failure ByteArray := match file with
    | none => .ok w.standardInput
    | some name => (w.readFile name).mapError fun e => .io e.message
  match input.bind parseLines with
  | .ok lines => lines.foldl (fun done line => done.andThen (reportLine line)) (.ok "")
  | .error failure => .failed "" failure

/-- The input given as an option, or else standard input. -/
def inputText (w : Surroundings) : Option String → Except Failure String
  | some text => .ok text
  | none => match String.fromUTF8? w.standardInput with
    | some text => .ok text
    | none => .error .notText

def runResolve (w : Surroundings) (path : String) (o : Options) : Finished :=
  let result := do
    let input ← inputText w o.input
    resolve ⟨path, some input, o.bindings⟩
  match result with
  | .ok j => .ok (jsonText o.pretty j)
  | .error failure => .failed "" failure

/-- The document is printed even if the edit is rejected. -/
def runMutate (w : Surroundings) (verb : Verb) (path : String) (value : Option String)
    (o : Options) : Finished :=
  let result := do
    let input ← inputText w o.input
    mutate ⟨verb, path, value, some input, o.bindings⟩
  match result with
  | .ok ⟨.rejected e, document⟩ => .failed (jsonText o.pretty document) (.rejected e)
  | .ok ⟨_, document⟩ => .ok (jsonText o.pretty document)
  | .error failure => .failed "" failure

def run (w : Surroundings) : Finished :=
  match Request.ofArguments w.arguments with
  | none => ⟨2, "", ""⟩
  | some .version => .ok versionText
  | some (.help topic) => .ok (helpText topic)
  | some (.parse file) => runParse w file
  | some (.resolve path options) => runResolve w path options
  | some (.mutate verb path value options) => runMutate w verb path value options

end DocPath.CommandLine
