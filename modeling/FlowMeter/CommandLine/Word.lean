/-!
# Words of a command line

How a word looks before it is known what it means.
-/
namespace FlowMeter.CommandLine

inductive Word where
  /-- A double dash, behind which there are no options. -/
  | escape
  /-- A name behind a double dash, with what follows its equals sign. -/
  | long (name : String) (value : Option String)
  /-- A letter behind a dash, with what is attached to it. -/
  | short (letter : Char) (attached : Option String)
  | plain (text : String)
  deriving DecidableEq, Repr

namespace Word

/-- A name, and what follows the first equals sign. -/
def splitName (cs : List Char) : Word :=
  match cs.dropWhile (· ≠ '=') with
  | _ :: value => long (String.ofList (cs.takeWhile (· ≠ '='))) (some (String.ofList value))
  | [] => long (String.ofList cs) none

def ofChars : List Char → Word
  | ['-', '-'] => escape
  | '-' :: '-' :: cs => splitName cs
  | ['-', c] => short c none
  | '-' :: c :: '=' :: value => short c (some (String.ofList value))
  | '-' :: c :: value => short c (some (String.ofList value))
  | cs => plain (String.ofList cs)

/-- The look of a word.  A single dash is an ordinary word, and so is an empty one. -/
def ofString (s : String) : Word := ofChars s.toList

end Word
end FlowMeter.CommandLine
