/-!
# Rows

The rows of a user table: a name and the digest of its password, in ascending order of
names.
-/

namespace PageServer
namespace Accounts

abbrev Rows := List (String × String)

namespace Rows

def digest? (rows : Rows) (name : String) : Option String :=
  (rows.find? (·.1 == name)).map (·.2)

def contains (rows : Rows) (name : String) : Bool :=
  rows.any (·.1 == name)

/-- Puts a row where its name belongs, in place of a row of that name. -/
def insert (name digest : String) : Rows → Rows
  | [] => [(name, digest)]
  | row :: rest =>
    if name < row.1 then (name, digest) :: row :: rest
    else if name = row.1 then (name, digest) :: rest
    else row :: insert name digest rest

def erase (rows : Rows) (name : String) : Rows :=
  rows.filter (·.1 != name)

/-- The names ascend. -/
def Ascending (rows : Rows) : Prop :=
  rows.Pairwise (·.1 < ·.1)

end Rows
end Accounts
end PageServer
