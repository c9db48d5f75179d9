/-!
# Command lines

A command line is a list of words: options that every command shares, one command, and the command's own options.  An option
may also come from a variable of the environment.  `Grammar.parse` is in `CommandLine.Parse`.
-/
namespace FlowMeter.CommandLine

/-- Why a command line is not carried out. -/
inductive Refusal where
  | help
  /-- There is nothing on the command line, so help is shown. -/
  | helpForNothing
  | commandMissing
  | noSuchCommand
  | unknownWord
  | valueRefused
  | valueMalformed
  | valueNotWanted
  | repeated
  deriving DecidableEq, Repr

/-- The status with which a program ends that does not carry out its command line. -/
def Refusal.status : Refusal → Nat
  | help => 0
  | _ => 2

inductive Kind where
  /-- Nothing; the option is a switch. -/
  | switch
  /-- A number of so many bits.  A narrow number may be written with a minus sign as long as it is zero. -/
  | number (bits : Nat)
  | choice (words : List String)
  /-- A path, which is never empty. -/
  | path
  | text
  deriving DecidableEq, Repr

structure Opt where
  name : String
  /-- The letter that may stand for the name; only an option with a value has one. -/
  letter : Option Char := none
  /-- The variable of the environment that may stand for the option. -/
  variableName : Option String := none
  kind : Kind
  deriving DecidableEq, Repr

structure Command where
  name : String
  options : List Opt
  /-- Words behind a double dash are taken as they are. -/
  takesWords : Bool := false
  deriving DecidableEq, Repr

structure Grammar where
  /-- Options that may stand before and behind the command. -/
  shared : List Opt
  commands : List Command
  deriving DecidableEq, Repr

abbrev Environment := String → Option String

end FlowMeter.CommandLine
