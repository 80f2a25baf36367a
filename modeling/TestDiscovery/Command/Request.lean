-- SUMMARY: Reading the arguments of the command line.
/-!
# Requests

The arguments are options of the program, the name of a command and the arguments of the command. Options of the program
stand before the command. Two hyphens end the options at either place, and a single hyphen is an argument.
-/

namespace TestDiscovery

inductive Command where
  | discover (root : Option String)
  | scan (file : String)
  | asserts (file : String)
deriving DecidableEq, Repr

/-- What the arguments ask for. -/
inductive Request where
  | version
  /-- Options without a command. -/
  | nothing
  | usage
  | run (verbose : Bool) (command : Command)
deriving DecidableEq, Repr

namespace Request

/-- Whether an argument is written as an option. -/
def isOption (arg : String) : Bool :=
  match arg.toList with
  | '-' :: _ :: _ => true
  | _ => false

/-- The arguments of a command, which has no options. -/
def positional? : List String → Option (List String)
  | [] => some []
  | arg :: rest =>
    if arg = "--" then some rest
    else if isOption arg then none
    else (positional? rest).map (arg :: ·)

/-- The command with the given name and arguments. -/
def command? (name : String) (args : List String) : Option Command :=
  match name, positional? args with
  | "discover", some [] => some (.discover none)
  | "discover", some [root] => some (.discover (some root))
  | "scan", some [file] => some (.scan file)
  | "asserts", some [file] => some (.asserts file)
  | _, _ => none

/-- The options of the program. -/
structure Flags where
  verbose : Bool := false
  version : Bool := false
deriving DecidableEq, Repr

/-- The options in front of the command, and what follows them. -/
def flags? (f : Flags) : List String → Option (Flags × List String)
  | [] => some (f, [])
  | arg :: rest =>
    if arg = "--" then some (f, rest)
    else if arg = "--verbose" then flags? { f with verbose := true } rest
    else if arg = "--version" || arg = "-v" then flags? { f with version := true } rest
    else if isOption arg then none
    else some (f, arg :: rest)

/-- What the arguments ask for. The version goes before any command. -/
def ofArgs (args : List String) : Request :=
  match flags? {} args with
  | none => usage
  | some (f, rest) =>
    if f.version then version
    else match rest with
      | [] => if args.isEmpty then usage else nothing
      | name :: args =>
        match command? name args with
        | some c => run f.verbose c
        | none => usage

end Request

end TestDiscovery
