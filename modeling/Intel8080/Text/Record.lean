/-!
# Records as text

A record is shown as its name and its fields, each with a label, in braces. A
record that leaves fields out ends in two dots.
-/

namespace Intel8080.Record

def labelled (field : String × String) : String :=
  field.1 ++ ": " ++ field.2

def inBraces (name : String) (parts : List String) : String :=
  name ++ " \x7b " ++ String.intercalate ", " parts ++ " \x7d"

def complete (name : String) (fields : List (String × String)) : String :=
  inBraces name (fields.map labelled)

/-- A record that has more fields than are shown. -/
def abridged (name : String) (fields : List (String × String)) : String :=
  inBraces name (fields.map labelled ++ [".."])

end Intel8080.Record
