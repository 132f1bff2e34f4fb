import LRZero.Text.Digit
import LRZero.Text.Quoted

/-!
# Arguments

The arguments of the command line are the name of one file and options, in
any order.  An option has a long name, which may be cut short as long as only
one option begins so, and perhaps a short one; short options that take no
value may share one dash.  A value is given in the next argument or behind an
equals sign.  After two dashes nothing is an option any more.

An argument that starts with a dash is a name all the same when it is a
single dash, a negative number, or holds a space and begins like no option.
-/

namespace LRZero.CommandLine

/-- An option. -/
inductive Flag
  | help
  | verbose
  | strict
  | draw
deriving DecidableEq

/-- The names of all options, in the order in which they are shown. -/
def flagNames : List (String × Flag) :=
  [("-h", .help), ("--help", .help), ("-v", .verbose), ("--verbose", .verbose),
    ("--strict", .strict), ("--draw", .draw)]

namespace Flag

/-- All names of an option. -/
def title (f : Flag) : String :=
  "/".intercalate ((flagNames.filter (·.2 = f)).map (·.1))

/-- Does the option take a value? -/
def takesValue (f : Flag) : Bool := f = draw

end Flag

/-! ## What can be wrong with the arguments -/

/-- Why arguments are refused. -/
inductive UsageError
  /-- Several options begin as the argument does. -/
  | ambiguous (argument : String) (names : List String)
  /-- An option that takes no value is given one. -/
  | unwantedValue (flag : Flag) (value : String)
  /-- An option that takes a value is given none. -/
  | missingValue (flag : Flag)
  /-- No file is named. -/
  | missingFile
  /-- Some arguments are no options, and there is a file already. -/
  | unrecognized (arguments : List String)
deriving DecidableEq

/-- The error in words. -/
def UsageError.message : UsageError → String
  | ambiguous argument names =>
    "ambiguous option: " ++ argument ++ " could match " ++ ", ".intercalate names
  | unwantedValue flag value =>
    "argument " ++ flag.title ++ ": ignored explicit argument " ++ Text.quoted value
  | missingValue flag => "argument " ++ flag.title ++ ": expected one argument"
  | missingFile => "the following arguments are required: file"
  | unrecognized arguments => "unrecognized arguments: " ++ " ".intercalate arguments

/-! ## Single arguments -/

/-- An argument by itself.  An option may have a value attached to it, behind
an equals sign or right behind the letter. -/
inductive Token
  | plain (text : String)
  | option (flag : Flag) (isLong : Bool) (attached : Option String)
  | unknown (text : String)
deriving DecidableEq

/-- The text before the first equals sign, and the text behind it if there is one. -/
def splitEquals (s : String) : String × Option String :=
  match s.toList.span (· ≠ '=') with
  | (before, []) => (String.ofList before, none)
  | (before, _ :: after) => (String.ofList before, some (String.ofList after))

/-- Does a text begin with another one? -/
def beginsWith (start s : String) : Bool := start.toList.isPrefixOf s.toList

/-- The option of a name. -/
def flag? (name : String) : Option Flag := flagNames.lookup name

/-- Does the text start with two dashes? -/
def isLongName (s : String) : Bool := beginsWith "--" s

/-- The options that an argument may stand for, by their names, when it is no
whole name: a long name cut short, or a letter with something behind it. -/
def candidates (s : String) : List (String × Token) :=
  if isLongName s then
    let (start, value?) := splitEquals s
    (flagNames.filter fun (name, _) => beginsWith start name).map fun (name, flag) =>
      (name, .option flag true value?)
  else
    (flagNames.filter fun (name, _) => name.toList = s.toList.take 2).map fun (name, flag) =>
      (name, .option flag false (some (String.ofList (s.toList.drop 2))))

/-- Is the text a negative number, with a point or without, and perhaps with
a line feed behind it? -/
def isNegativeNumber (s : String) : Bool :=
  match s.toList with
  | '-' :: rest =>
    let number := if rest.getLast? = some '\n' then rest.dropLast else rest
    match number.span Text.isDigit with
    | (whole, []) => whole ≠ []
    | (_, c :: fraction) => c = '.' && fraction ≠ [] && fraction.all Text.isDigit
  | _ => false

/-- What an argument is when it starts with a dash and names no option. -/
def Token.ofDashed (s : String) : Token :=
  if isNegativeNumber s || ' ' ∈ s.toList then .plain s else .unknown s

/-- What an argument is. -/
def Token.ofArgument (s : String) : Except UsageError Token :=
  if !beginsWith "-" s then .ok (.plain s)
  else match flag? s with
  | some flag => .ok (.option flag (isLongName s) none)
  | none =>
    if s = "-" then .ok (.plain s)
    else match splitEquals s with
    | (name, some value) =>
      match flag? name with
      | some flag => .ok (.option flag (isLongName name) (some value))
      | none => ofCandidates
    | (_, none) => ofCandidates
where
  ofCandidates : Except UsageError Token :=
    match candidates s with
    | [] => .ok (.ofDashed s)
    | [(_, token)] => .ok token
    | several => .error (.ambiguous s (several.map (·.1)))

/-! ## All arguments together -/

/-- What has been found in the arguments so far. -/
structure Found where
  file : Option String
  verbose : Bool
  strict : Bool
  draw : Option String
  extras : List String
deriving DecidableEq

/-- Why going through the arguments stops early. -/
inductive Stop
  | help
  | misuse (error : UsageError)
deriving DecidableEq

/-- The options that share a dash: one without a value, and one for each
letter attached to it.  What is left where a letter is no option would be a
value of the option before it. -/
def cluster (flag : Flag) : List Char → Except UsageError (List Flag)
  | [] => .ok [flag]
  | c :: rest =>
    match flag? (String.ofList ['-', c]) with
    | none => .error (.unwantedValue flag (String.ofList (c :: rest)))
    | some next => (cluster next rest).map (flag :: ·)

/-- An option without a value. -/
def Found.take (found : Found) : Flag → Except Stop Found
  | .help => .error .help
  | .verbose => .ok { found with verbose := true }
  | .strict => .ok { found with strict := true }
  | .draw => .ok found

/-- A name: that of the file, if there is none yet. -/
def Found.takeName (found : Found) (s : String) : Found :=
  match found.file with
  | none => { found with file := some s }
  | some _ => { found with extras := found.extras ++ [s] }

/-- An option with a value attached to it, which may be the letters of more
options instead. -/
def Found.takeAttached (found : Found) (flag : Flag) (isLong : Bool) (value : String) :
    Except Stop Found :=
  if flag.takesValue then .ok { found with draw := some value }
  else if isLong ∨ value = "" then .error (.misuse (.unwantedValue flag value))
  else match cluster flag value.toList with
  | .error e => .error (.misuse e)
  | .ok flags => flags.foldlM Found.take found

/-- What is found in the arguments before two dashes; the flag says whether
the last of them has become the file. -/
def Found.scan (found : Found) (lastIsFile : Bool) : List Token → Except Stop (Found × Bool)
  | [] => .ok (found, lastIsFile)
  | .plain s :: rest => (found.takeName s).scan found.file.isNone rest
  | .unknown s :: rest => Found.scan { found with extras := found.extras ++ [s] } false rest
  | .option flag isLong (some value) :: rest =>
    match found.takeAttached flag isLong value with
    | .error stop => .error stop
    | .ok found => found.scan false rest
  | .option flag _ none :: rest =>
    if flag.takesValue then
      match rest with
      | .plain value :: rest => Found.scan { found with draw := some value } false rest
      | _ => .error (.misuse (.missingValue flag))
    else match found.take flag with
    | .error stop => .error stop
    | .ok found => found.scan false rest

/-- The arguments behind two dashes are names.  The dashes themselves are
passed over together with the name of the file before or behind them;
elsewhere they are one name more. -/
def Found.names (found : Found) (lastIsFile : Bool) (names : List String) : Found :=
  match found.file, names with
  | some _, _ => { found with extras := found.extras ++ if lastIsFile then names else "--" :: names }
  | none, [] => { found with extras := found.extras ++ ["--"] }
  | none, file :: rest => { found with file := some file, extras := found.extras ++ rest }

/-- What the arguments ask for. -/
structure Options where
  file : String
  verbose : Bool
  strict : Bool
  /-- Where a drawing is wanted, which is not made here. -/
  draw : Option String
deriving DecidableEq

/-- The options that have been found, if a file is named and nothing is left over. -/
def Found.options (found : Found) : Except UsageError Options :=
  match found.file, found.extras with
  | none, _ => .error .missingFile
  | some _, e :: extras => .error (.unrecognized (e :: extras))
  | some file, [] => .ok ⟨file, found.verbose, found.strict, found.draw⟩

/-- What the arguments ask for. -/
def parse (arguments : List String) : Except Stop Options :=
  let (before, after) := arguments.span (· ≠ "--")
  match before.mapM Token.ofArgument with
  | .error e => .error (.misuse e)
  | .ok tokens =>
    match Found.scan ⟨none, false, false, none, []⟩ false tokens with
    | .error stop => .error stop
    | .ok (found, lastIsFile) =>
      let found := match after with
        | [] => found
        | _ :: names => found.names lastIsFile names
      match found.options with
      | .error e => .error (.misuse e)
      | .ok options => .ok options

end LRZero.CommandLine
