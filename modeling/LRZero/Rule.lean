import LRZero.Symbol
import LRZero.Text.Quoted

/-!
# Rules

A rule produces its result from the symbols of its body.  The body may be
empty.
-/

namespace LRZero

/-- One alternative of a non-terminal. -/
structure Rule where
  /-- The symbol that the rule produces. -/
  result : Symbol
  /-- The symbols that it is produced from. -/
  body : List Symbol
deriving DecidableEq, Inhabited

namespace Rule

/-- Is there nothing in the body? -/
def isEmpty (r : Rule) : Bool := r.body.isEmpty

/-- The rule as it is written: result, colon and body. -/
def text (r : Rule) : String := r.result ++ " : " ++ " ".intercalate r.body

/-- The quoted symbols of a body between parentheses; a single one keeps a
comma behind it. -/
def quotedBody : List Symbol → String
  | [x] => "(" ++ Text.quoted x ++ ",)"
  | body => "(" ++ ", ".intercalate (body.map Text.quoted) ++ ")"

/-- The rule with its parts named and quoted. -/
def inspect (r : Rule) : String :=
  "Rule(lhs=" ++ Text.quoted r.result ++ ", rhs=" ++ quotedBody r.body ++ ")"

end Rule

end LRZero
