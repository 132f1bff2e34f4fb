import LRZero.Layout.Quotation

/-!
# Dictionaries on the page

A dictionary of groups is written on one line of eighty columns, if it fits.
Otherwise every entry gets a line of its own, and a group that is too long
for the rest of its line gets a line for each of its members, set below the
first one.  A member between quotes may itself take several lines.
-/

namespace LRZero.Layout

/-- A member of a group: a word as it is, or a text between quotes. -/
inductive Member
  | word (s : String)
  | quoted (s : String)

/-- The member on one line. -/
def Member.flat : Member → String
  | word s => s
  | quoted s => Text.quoted s

/-- The member from a column on, with some columns kept free behind it. -/
def Member.text (column room : Nat) : Member → String
  | word s => s
  | quoted s => quotation column room s

/-- Members between an opening and a closing mark. -/
structure Group where
  opening : String
  members : List Member
  closing : String

/-- The group on one line. -/
def Group.flat (g : Group) : String :=
  g.opening ++ ", ".intercalate (g.members.map Member.flat) ++ g.closing

/-- The members from a column on, a line for each.  One mark follows on every
member, and two on the last one. -/
def memberTexts (column : Nat) : List Member → List String
  | [] => []
  | [m] => [m.text column 2]
  | m :: rest => m.text column 1 :: memberTexts column rest

/-- The group from a column on, with one more mark behind it. -/
def Group.text (column : Nat) (g : Group) : String :=
  if column + g.flat.length + 1 ≤ pageWidth then g.flat
  else
    let inner := column + g.opening.length
    g.opening ++ (",\n" ++ spaces inner).intercalate (memberTexts inner g.members) ++ g.closing

/-- The entries of a dictionary, a key and a group each, on one line. -/
def flatDictionary (entries : List (String × Group)) : String :=
  "\x7b" ++ ", ".intercalate (entries.map fun (key, g) => key ++ ": " ++ g.flat) ++ "\x7d"

/-- The dictionary on the page. -/
def dictionary (entries : List (String × Group)) : String :=
  if (flatDictionary entries).length ≤ pageWidth then flatDictionary entries
  else
    "\x7b" ++ ",\n ".intercalate
      (entries.map fun (key, g) => key ++ ": " ++ g.text (key.length + 3)) ++ "\x7d"

end LRZero.Layout
