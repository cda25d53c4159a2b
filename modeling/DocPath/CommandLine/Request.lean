import DocPath.CommandLine.Error

/-!
# Requests

What the arguments of the command line ask for. Options may stand before, between and
behind the other arguments, up to an argument `--`. The value of an option is attached
to it or is the next argument, which must not look like an option. The arguments are
taken one by one, and the first that makes no sense has all of them refused, unless a
request for help stands before it.
-/

namespace DocPath.CommandLine

structure Options where
  input : Option String
  bindings : List String
  pretty : Bool

inductive Topic where
  | program
  | parse
  | resolve
  | mutate
  | help

inductive Request where
  | version
  | help (topic : Topic)
  | parse (file : Option String)
  | resolve (path : String) (options : Options)
  | mutate (verb : Verb) (path : String) (value : Option String) (options : Options)

namespace Request

/-! ## Options -/

/-- An option that has a value. -/
inductive ValueOption where
  | input
  | bind

/-- What a command takes: whether it has options besides the one for help, and for each
positional argument what it may be. -/
structure Shape where
  hasOptions : Bool
  slots : List (String → Bool)

/-- The arguments of a command, sorted out so far. -/
structure Sorted where
  positionals : List String
  options : Options
  /-- an option that waits for its value -/
  pending : Option ValueOption
  /-- whether only positional arguments follow -/
  literal : Bool
  help : Bool

namespace Sorted

def empty : Sorted :=
  ⟨[], ⟨none, [], false⟩, none, false, false⟩

/-- An input may be given once, bindings any number of times. -/
def give (s : Sorted) (option : ValueOption) (value : String) : Option Sorted :=
  let s := { s with pending := none }
  match option with
  | .bind => some { s with options.bindings := s.options.bindings ++ [value] }
  | .input =>
    if s.options.input.isSome then none else some { s with options.input := some value }

/-- The next positional argument. -/
def positional (shape : Shape) (s : Sorted) (argument : String) : Option Sorted :=
  match shape.slots[s.positionals.length]? with
  | some fits =>
    if fits argument then some { s with positionals := s.positionals ++ [argument] } else none
  | none => none

def prettyOnce (s : Sorted) : Option Sorted :=
  if s.options.pretty then none else some { s with options.pretty := true }

/-- An option by its long name, with the value attached to it, if any. -/
def long (s : Sorted) (hasOptions : Bool) (name : String) (value : Option String) :
    Option Sorted :=
  match name, value, hasOptions with
  | "help", none, _ => some { s with help := true }
  | "pretty", none, true => s.prettyOnce
  | "input", some value, true => s.give .input value
  | "input", none, true => some { s with pending := some .input }
  | "bind", some value, true => s.give .bind value
  | "bind", none, true => some { s with pending := some .bind }
  | _, _, _ => none

/-- An option with the text attached to its letter; an equals sign may stand between. -/
def attached (s : Sorted) (option : ValueOption) : List Char → Option Sorted
  | [] => some { s with pending := some option }
  | '=' :: value => s.give option (String.ofList value)
  | value => s.give option (String.ofList value)

/-- Options by their letters. -/
def short (s : Sorted) (hasOptions : Bool) : List Char → Option Sorted
  | [] => some s
  | c :: cs =>
    if s.help then some s
    else if c = 'h' then some { s with help := true }
    else if !hasOptions then none
    else if c = 'i' then s.attached .input cs
    else if c = 'b' then s.attached .bind cs
    else if c = 'p' then s.prettyOnce.bind fun s => s.short hasOptions cs
    else none

/-- Takes one argument. -/
def take (shape : Shape) (s : Sorted) (argument : String) : Option Sorted :=
  if s.help then some s
  else if s.literal then s.positional shape argument
  else
    match argument.toList, s.pending with
    | '-' :: _ :: _, some _ => none
    | _, some option => s.give option argument
    | ['-', '-'], none => some { s with literal := true }
    | '-' :: '-' :: rest, none =>
      let name := String.ofList (rest.takeWhile (· ≠ '='))
      match rest.dropWhile (· ≠ '=') with
      | [] => s.long shape.hasOptions name none
      | _ :: value => s.long shape.hasOptions name (some (String.ofList value))
    | '-' :: c :: cs, none => s.short shape.hasOptions (c :: cs)
    | _, none => s.positional shape argument

/-- Sorts all arguments of a command. -/
def ofArguments (shape : Shape) (arguments : List String) : Option Sorted := do
  let s ← arguments.foldlM (take shape) empty
  if s.pending.isSome && !s.help then none else some s

end Sorted

/-! ## Commands -/

def ofParse (arguments : List String) : Option Request := do
  let s ← Sorted.ofArguments ⟨false, [fun file => file ≠ ""]⟩ arguments
  if s.help then some (.help .parse)
  else match s.positionals with
    | [] => some (.parse none)
    | [file] => some (.parse (some file))
    | _ => none

def ofResolve (arguments : List String) : Option Request := do
  let s ← Sorted.ofArguments ⟨true, [fun _ => true]⟩ arguments
  if s.help then some (.help .resolve)
  else match s.positionals with
    | [path] => some (.resolve path s.options)
    | _ => none

def ofMutate (arguments : List String) : Option Request := do
  let isVerb (name : String) := (Verb.ofName? name).isSome
  let s ← Sorted.ofArguments ⟨true, [isVerb, fun _ => true, fun _ => true]⟩ arguments
  if s.help then some (.help .mutate)
  else match s.positionals with
    | [verb, path] => (Verb.ofName? verb).map fun verb => .mutate verb path none s.options
    | [verb, path, value] =>
      (Verb.ofName? verb).map fun verb => .mutate verb path (some value) s.options
    | _ => none

def ofHelp : List String → Option Request
  | [] => some (.help .program)
  | ["parse"] => some (.help .parse)
  | ["resolve"] => some (.help .resolve)
  | ["mutate"] => some (.help .mutate)
  | ["help"] => some (.help .help)
  | _ => none

/-- The request made by the arguments of the program, or none if they are refused. -/
def ofArguments : List String → Option Request
  | [] => none
  | "parse" :: rest => ofParse rest
  | "resolve" :: rest => ofResolve rest
  | "mutate" :: rest => ofMutate rest
  | "help" :: rest => ofHelp rest
  | "--version" :: _ => some .version
  | "--help" :: _ => some (.help .program)
  | argument :: _ =>
    match argument.toList with
    | '-' :: 'V' :: _ => some .version
    | '-' :: 'h' :: _ => some (.help .program)
    | _ => none

/-- Whether standard input is read. -/
def readsStandardInput : Request → Bool
  | .parse file => file.isNone
  | .resolve _ options => options.input.isNone
  | .mutate _ _ _ options => options.input.isNone
  | _ => false

end Request

end DocPath.CommandLine
