import FlowMeter.CommandLine.Value
import FlowMeter.CommandLine.Word
/-!
# Reading a command line

Words are read from left to right, at the outer level until a command comes, then at the command's level.  A value that
stands apart from its option is looked at only when the next option comes, or the end; an attached one is looked at at once.
Variables are read last, at each level for the options that the level's words do not give.
-/
namespace FlowMeter.CommandLine

/-- Where an option's value came from, the stronger source last. -/
inductive Source where
  | environment
  | words
  deriving DecidableEq, Repr

structure Setting where
  name : String
  value : String
  source : Source
  deriving DecidableEq, Repr

structure LevelGrammar where
  options : List Opt
  commands : List Command
  takesWords : Bool

/-- How far a level has been read. -/
structure Progress where
  settings : List Setting := []
  /-- An option whose value stands apart, with the value if it has come. -/
  pending : Option (Opt × Option String) := none

namespace Progress

def awaitsValue (p : Progress) : Bool :=
  match p.pending with
  | some (_, none) => true
  | _ => false

def gives (p : Progress) (name : String) : Bool := p.settings.any fun s => s.name = name

def record (p : Progress) (o : Opt) (value : String) (source : Source) : Except Refusal Progress :=
  if p.gives o.name then .error .repeated
  else
    match o.kind.refuse? value with
    | some e => .error e
    | none => .ok { p with settings := p.settings ++ [{ name := o.name, value, source }] }

def resolve (p : Progress) : Except Refusal Progress :=
  match p.pending with
  | none => .ok p
  | some (_, none) => .error .valueRefused
  | some (o, some value) => { p with pending := none }.record o value .words

/-- Takes an option that has been named, with the value attached to it. -/
def name (p : Progress) (o : Opt) (attached : Option String) : Except Refusal Progress :=
  match o.kind, attached with
  | .switch, some _ => .error .valueNotWanted
  | .switch, none => do (← p.resolve).record o "true" .words
  | _, some value => do (← p.resolve).record o value .words
  | _, none => return { ← p.resolve with pending := some (o, none) }

/-- Reads the variables for the options that are not given. -/
def readVariables (p : Progress) (environment : Environment) : List Opt → Except Refusal Progress
  | [] => .ok p
  | o :: rest => do
    let p ←
      match o.variableName.bind environment with
      | some value => if p.gives o.name then pure p else p.record o value .environment
      | none => pure p
    p.readVariables environment rest

def finish (p : Progress) (environment : Environment) (options : List Opt) : Except Refusal Progress := do
  (← p.resolve).readVariables environment options

end Progress

/-- The end of a level: all words are read, or a command has come and the words behind it are the command's. -/
structure LevelEnd where
  progress : Progress
  command : Option (Command × List String) := none
  words : List String := []

namespace LevelGrammar

def command? (g : LevelGrammar) (name : String) : Option Command := g.commands.find? fun c => c.name = name

def helpName : String := "help"

def stray (g : LevelGrammar) : Refusal := if g.commands.isEmpty then .unknownWord else .noSuchCommand

/-- Help was asked for, perhaps on one command or on help itself. -/
def helpOn (g : LevelGrammar) : List String → Refusal
  | [] => .help
  | [name] => if name = helpName ∨ (g.command? name).isSome then .help else .noSuchCommand
  | _ => .noSuchCommand

def readEscaped (g : LevelGrammar) (p : Progress) : List String → Except Refusal LevelEnd
  | [] => .ok { progress := p }
  | w :: rest =>
    if g.takesWords then return { progress := ← p.resolve, words := w :: rest }
    else if (g.command? w).isSome ∨ w = helpName ∧ ¬ g.commands.isEmpty then .error .unknownWord
    else .error g.stray

/-- Takes a word that may be an option. -/
def readOption (g : LevelGrammar) (p : Progress) : Word → Except Refusal Progress
  | .long name attached =>
    if name = helpName then
      match attached with
      | some _ => .error .valueNotWanted
      | none => do
        let _ ← p.resolve
        .error .help
    else
      match g.options.find? fun o => o.name = name with
      | some o => p.name o attached
      | none => .error .unknownWord
  | .short letter attached =>
    if letter = 'h' then do
      let _ ← p.resolve
      .error .help
    else
      match g.options.find? fun o => o.letter = some letter with
      | some o => p.name o attached
      | none => .error .unknownWord
  | .plain text =>
    match p.pending with
    | some (o, none) => .ok { p with pending := some (o, some text) }
    | _ => .error g.stray
  | .escape => .ok p

def read (g : LevelGrammar) (p : Progress) : List String → Except Refusal LevelEnd
  | [] => .ok { progress := p }
  | w :: rest =>
    let command := if p.awaitsValue then none else g.command? w
    match command with
    | some c => .ok { progress := p, command := some (c, rest) }
    | none =>
      if ¬ p.awaitsValue ∧ w = helpName ∧ ¬ g.commands.isEmpty then .error (g.helpOn rest)
      else
        match Word.ofString w with
        | .escape => g.readEscaped p rest
        | word => do g.read (← g.readOption p word) rest

end LevelGrammar

/-- A command line that can be carried out. -/
structure Parsed where
  command : String
  inner : List Setting
  outer : List Setting
  words : List String

namespace Parsed

def find (settings : List Setting) (name : String) (source : Source) : Option String :=
  (settings.find? fun s => s.name = name ∧ s.source = source).map Setting.value

/-- The value of an option: words count more than variables, and the inner level more than the outer one. -/
def value? (p : Parsed) (name : String) : Option String :=
  find p.inner name .words <|> find p.outer name .words <|> find p.inner name .environment <|>
    find p.outer name .environment

/-- The number given for an option, or else a default. -/
def numberD (p : Parsed) (name : String) (bits : Nat) (default : Nat) : Nat :=
  ((p.value? name).bind (number? bits)).getD default

def switchD (p : Parsed) (name : String) : Bool := ((p.value? name).bind switch?).getD false

def textD (p : Parsed) (name : String) (default : String) : String := (p.value? name).getD default

end Parsed

namespace Grammar

def outerLevel (g : Grammar) : LevelGrammar where
  options := g.shared
  commands := g.commands
  takesWords := false

def innerLevel (g : Grammar) (c : Command) : LevelGrammar where
  options := c.options ++ g.shared
  commands := []
  takesWords := c.takesWords

def parse (g : Grammar) (environment : Environment) (words : List String) : Except Refusal Parsed := do
  let outer ← g.outerLevel.read {} words
  match outer.command with
  | some (c, rest) =>
    let level := g.innerLevel c
    let inner ← level.read {} rest
    let innerDone ← inner.progress.finish environment level.options
    let outerDone ← outer.progress.finish environment g.shared
    return { command := c.name, inner := innerDone.settings, outer := outerDone.settings, words := inner.words }
  | none =>
    let done ← outer.progress.finish environment g.shared
    .error (if done.settings.isEmpty then .helpForNothing else .commandMissing)

end Grammar
end FlowMeter.CommandLine
