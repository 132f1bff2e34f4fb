import LRZero.Reader
import LRZero.Text.Utf8

/-!
# Grammar files

A file holds a grammar text in UTF-8.  Reading it is reading that text, with
every line end of the file turned into a line feed first; bytes that are no
text are refused before anything is read.
-/

namespace LRZero

/-- The outcome of reading the bytes of a file. -/
def readBytes (strict : Bool) (bytes : ByteArray) : Except Text.DecodeError ReadOutcome :=
  (Text.decode bytes).map fun text => read strict (Text.normalizeLineEnds text)

/-- Why a file cannot be opened. -/
inductive OpenFault
  /-- There is nothing under the name. -/
  | missing
  /-- The file may not be read. -/
  | denied
  /-- The name goes on behind a file as if that were a directory. -/
  | notDirectory
  /-- The name is that of a directory. -/
  | directory
  /-- The name, or a part of it, is longer than names can be. -/
  | tooLong
deriving DecidableEq

/-- The fault in words, with the name of the file. -/
def OpenFault.message (f : OpenFault) (path : String) : String :=
  (match f with
    | missing => "[Errno 2] No such file or directory: "
    | denied => "[Errno 13] Permission denied: "
    | notDirectory => "[Errno 20] Not a directory: "
    | directory => "[Errno 21] Is a directory: "
    | tooLong => "[Errno 36] File name too long: ") ++ Text.quoted path

end LRZero
