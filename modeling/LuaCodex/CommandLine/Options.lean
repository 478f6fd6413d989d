import LuaCodex.Extraction
import LuaCodex.Path

/-!
This module contains the reading of command line arguments.

Arguments are taken in one by one. What starts with a dash and is longer than the dash is an option,
and all others are files, unless the option in front of them is in need of a value. Behind `--` all
arguments are files. Options with a value and flags may not be repeated, apart from the one that
asks for more output.
-/

namespace LuaCodex
namespace CommandLine

/--
What a command line asks for.
-/
structure Options where
  /-- Files, directories and patterns. If there are none, the standard input is read. -/
  files : List String := []
  /-- The directory of the codex. -/
  output : Option Path := none
  /-- The name of the format. -/
  format : Option String := none
  /-- The file with a supplement. -/
  globals : Option Path := none
  /-- How the text behind a `@return` tag is divided. -/
  returns : Option ReturnStyle := none
  /-- Whether to leave out the globals of the board. -/
  noGlobals : Bool := false
  /-- Whether to leave out the comparison of arguments with documented parameters. -/
  noValidate : Bool := false
  /-- How often more output has been asked for. -/
  verbose : Nat := 0
  /-- Whether to report errors only. -/
  quiet : Bool := false
deriving DecidableEq, Repr, Inhabited

namespace Options

/--
The name of the format, which is JSON by default.
-/
def formatName (o : Options) : String :=
  o.format.getD "json"

/--
The choices for the extraction.
-/
def extraction (o : Options) : Extraction.Options where
  style := o.returns.getD .named
  crossCheck := !o.noValidate

/--
Decide whether notices of a level are shown.
-/
def shows (o : Options) : Level → Bool
  | .warn => !o.quiet
  | .info => !o.quiet && 1 ≤ o.verbose
  | .debug => !o.quiet && 2 ≤ o.verbose

end Options

/--
A reason for which arguments are not carried out.
-/
inductive Stop where
  /-- The arguments make no sense. -/
  | usage
  /-- The arguments ask for help. -/
  | help
deriving DecidableEq, Repr

/--
The options that take a value.
-/
inductive Setting where
  | output
  | format
  | globals
  | returns
deriving DecidableEq, Repr

/--
The options that take no value.
-/
inductive Flag where
  | noGlobals
  | noValidate
  | verbose
  | quiet
  | help
deriving DecidableEq, Repr

/--
The option with a long name.
-/
def ofLongName? : String → Option (Setting ⊕ Flag)
  | "output" => some (.inl .output)
  | "format" => some (.inl .format)
  | "globals" => some (.inl .globals)
  | "returns" => some (.inl .returns)
  | "no-globals" => some (.inr .noGlobals)
  | "no-validate" => some (.inr .noValidate)
  | "verbose" => some (.inr .verbose)
  | "quiet" => some (.inr .quiet)
  | "help" => some (.inr .help)
  | _ => none

/--
The option with a letter as its name.
-/
def ofShortName? : Char → Option (Setting ⊕ Flag)
  | 'o' => some (.inl .output)
  | 'f' => some (.inl .format)
  | 'v' => some (.inr .verbose)
  | 'q' => some (.inr .quiet)
  | 'h' => some (.inr .help)
  | _ => none

/--
Fill in a value that has not been given before.
-/
def fill {α : Type} (given : Option α) (value : Option α) : Except Stop (Option α) :=
  if given.isSome || value.isNone then .error .usage else .ok value

/--
The path that a value stands for. It must not be empty.
-/
def pathValue? (value : String) : Option Path :=
  if value = "" then none else some ⟨value⟩

/--
The way of dividing that a value stands for.
-/
def styleValue? : String → Option ReturnStyle
  | "named" => some .named
  | "folded" => some .folded
  | _ => none

/--
Take in an option with its value.
-/
def Options.set (o : Options) (value : String) : Setting → Except Stop Options
  | .output => do return { o with output := ← fill o.output (pathValue? value) }
  | .format => do return { o with format := ← fill o.format (some value) }
  | .globals => do return { o with globals := ← fill o.globals (pathValue? value) }
  | .returns => do return { o with returns := ← fill o.returns (styleValue? value) }

/--
Take in an option without a value.
-/
def Options.raise (o : Options) : Flag → Except Stop Options
  | .noGlobals => if o.noGlobals then .error .usage else .ok { o with noGlobals := true }
  | .noValidate => if o.noValidate then .error .usage else .ok { o with noValidate := true }
  | .quiet => if o.quiet then .error .usage else .ok { o with quiet := true }
  | .verbose => .ok { o with verbose := o.verbose + 1 }
  | .help => .error .help

/--
What the next argument is taken for.
-/
inductive Expectation where
  /-- An option or a file. -/
  | anything
  /-- The value of an option. -/
  | value (setting : Setting)
  /-- A file, whatever it looks like. -/
  | file
deriving DecidableEq, Repr

/--
Take in an option given by its long name, with the text behind its `=` if there is one.
-/
def takeLong (o : Options) (name : String) (value : Option String) :
    Except Stop (Options × Expectation) :=
  match ofLongName? name, value with
  | some (.inl setting), some value => do return (← o.set value setting, .anything)
  | some (.inl setting), none => .ok (o, .value setting)
  | some (.inr flag), none => do return (← o.raise flag, .anything)
  | _, _ => .error .usage

/--
Take in a sequence of options given by letters. The text behind a letter whose option takes a value
is that value, where a `=` in front does not count.
-/
def takeShort (o : Options) : List Char → Except Stop (Options × Expectation)
  | [] => .ok (o, .anything)
  | c :: s =>
    match ofShortName? c with
    | some (.inr flag) => do takeShort (← o.raise flag) s
    | some (.inl setting) =>
      match s with
      | [] => .ok (o, .value setting)
      | '=' :: value => do return (← o.set (String.ofList value) setting, .anything)
      | value => do return (← o.set (String.ofList value) setting, .anything)
    | none => .error .usage

/--
Take in an argument.
-/
def take (state : Options × Expectation) (arg : String) : Except Stop (Options × Expectation) :=
  let (o, expectation) := state
  match expectation, arg.toList with
  | .file, _ => .ok ({ o with files := o.files ++ [arg] }, .file)
  | .anything, ['-', '-'] => .ok (o, .file)
  | .anything, '-' :: '-' :: s =>
    match Text.cutAt? '=' s with
    | some (name, value) => takeLong o (String.ofList name) (some (String.ofList value))
    | none => takeLong o (String.ofList s) none
  | .anything, '-' :: c :: s => takeShort o (c :: s)
  | .anything, _ => .ok ({ o with files := o.files ++ [arg] }, .anything)
  | .value _, '-' :: _ :: _ => .error .usage
  | .value setting, _ => do return (← o.set arg setting, .anything)

/--
Read the arguments of a command line. Asking for more output and for errors only is a contradiction.
-/
def Options.ofArgs (args : List String) : Except Stop Options := do
  let (o, expectation) ← args.foldlM take ({}, .anything)
  if (expectation matches .value _) || (o.quiet && 0 < o.verbose) then
    throw .usage
  return o

end CommandLine
end LuaCodex
