import LRZero.CommandLine

/-!
# The program

Opens the file that the arguments name, and prints what the run ends with.
-/

namespace LRZero.CommandLine

/-- The number of a failure of the system, which may come with its sign turned. -/
def failureNumber (code : UInt32) : UInt32 := min code (0 - code)

/-- Why a file cannot be opened, by the failure of the system. -/
def OpenFault.ofFailure : IO.Error → OpenFault
  | .inappropriateType _ code _ => if failureNumber code = 20 then .notDirectory else .directory
  | .invalidArgument _ code _ => if failureNumber code = 36 then .tooLong else .missing
  | .permissionDenied .. => .denied
  | _ => .missing

/-- The content of a file, or why it cannot be opened. -/
def openFile (path : String) : IO (Except OpenFault ByteArray) := do
  if path.isEmpty then return .error .missing
  try
    return .ok (← IO.FS.readBinFile path)
  catch failure => return .error (OpenFault.ofFailure failure)

/-- Prints what a run ends with. -/
def Outcome.print : Outcome → IO Unit
  | message _ output errors => do
    IO.eprint errors
    IO.print output
  | report result errors => do
    IO.eprint errors
    IO.print (result.analysis.text result.grammar)
  | undecodable e => IO.eprint (errorText e.message)
  | endedName => IO.eprint (errorText endedNameMessage)

end LRZero.CommandLine

open LRZero.CommandLine in
/-- Runs the program on its arguments and ends with its code. -/
def main (arguments : List String) : IO UInt32 := do
  let outcome ← match parse arguments with
    | .error stop => pure stop.outcome
    | .ok options => do pure (respond options (← openFile options.file))
  outcome.print
  return outcome.code.toUInt32
