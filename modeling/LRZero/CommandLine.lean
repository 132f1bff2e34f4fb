import LRZero.CommandLine.Arguments
import LRZero.GrammarFile
import LRZero.Report

/-!
# The command line

The program reads one grammar file and prints the grammar, its FIRST and
FOLLOW sets, its states and its table.  It ends with code 0 when there is
something to print, with 1 when the file cannot be read, and with 2 when the
arguments are wrong.  There are two failures that it does not take care of
itself: a file whose bytes are no text, and a name that no file can have.
-/

namespace LRZero.CommandLine

/-- The name under which the program speaks. -/
def programName : String := "grammarmodel"

/-- The line that shows the arguments. -/
def usage : String := "usage: " ++ programName ++ " [-h] [-v] [--strict] [--draw PATH] file\n"

/-- The text that help is given with. -/
def helpText : String :=
  usage ++ "\n" ++
  "FIRST/FOLLOW sets and LR(0) item-sets of a context-free grammar\n" ++ "\n" ++
  "positional arguments:\n" ++
  "  file           grammar file, one alternative per line\n" ++ "\n" ++
  "options:\n" ++
  "  -h, --help     show this help message and exit\n" ++
  "  -v, --verbose  log every closure and new state\n" ++
  "  --strict       reject malformed grammars\n" ++
  "  --draw PATH    save a drawing of the automaton to PATH\n"

/-- How a run of the program ends. -/
inductive Outcome
  /-- Nothing has been computed: the code, and what is printed on the two streams. -/
  | message (code : Nat) (output errors : String)
  /-- The analysis of a grammar, with the log lines. -/
  | report (result : Analysed) (errors : String)
  /-- The bytes of the file are no text. -/
  | undecodable (error : Text.DecodeError)
  /-- The name of the file holds a character that ends a name. -/
  | endedName

/-- The code with which the program ends. -/
def Outcome.code : Outcome → Nat
  | message code _ _ => code
  | report _ _ => 0
  | undecodable _ => 1
  | endedName => 1

/-- The failure of a name that holds the end of a name, in words. -/
def endedNameMessage : String := "embedded null byte"

/-- The log lines that are shown: warnings, and details on request. -/
def logText (verbose : Bool) (log : List Event) : String :=
  String.join ((log.filter fun e => verbose || e.level = .warning).map fun e =>
    e.level.name ++ " " ++ programName ++ ".reader: " ++ e.message ++ "\n")

/-- The line that says why there is no analysis. -/
def errorText (message : String) : String := "error: " ++ message ++ "\n"

/-- The run on a file with some content, when the arguments are right. -/
def respond (options : Options) (content : Except OpenFault ByteArray) : Outcome :=
  if '\x00' ∈ options.file.toList then .endedName
  else match content with
  | .error fault => .message 1 "" (errorText (fault.message options.file))
  | .ok bytes =>
    match readBytes options.strict bytes with
    | .error e => .undecodable e
    | .ok outcome =>
      let log := logText options.verbose outcome.log
      match outcome.result with
      | .error e => .message 1 "" (log ++ errorText e.message)
      | .ok result => .report result log

/-- The end of a run that does not come to a file. -/
def Stop.outcome : Stop → Outcome
  | help => .message 0 helpText ""
  | misuse e => .message 2 "" (usage ++ programName ++ ": error: " ++ e.message ++ "\n")

/-- The run with some arguments, where `content` opens files. -/
def run (arguments : List String) (content : String → Except OpenFault ByteArray) : Outcome :=
  match parse arguments with
  | .error stop => stop.outcome
  | .ok options => respond options (content options.file)

end LRZero.CommandLine
