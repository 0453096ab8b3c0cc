import PageServer.Accounts.Rows
import PageServer.Json.Skip

/-!
# Table files

The text of a user table: an object whose member `users` maps names to digests. Members of
other names are read past, and a list that holds just that map is read as well.
-/

namespace PageServer
namespace Accounts

open Json

namespace TableFile

def line (name digest : String) : Bytes :=
  Text.encode "    " ++ quoted name ++ Text.encode ": " ++ quoted digest

def lines : Rows → Bytes
  | [] => []
  | [row] => line row.1 row.2 ++ Text.encode "\n"
  | row :: rest => line row.1 row.2 ++ Text.encode ",\n" ++ lines rest

def map (rows : Rows) : Bytes :=
  if rows.isEmpty then Text.encode "\x7b\x7d"
  else Text.encode "\x7b\n" ++ lines rows ++ Text.encode "  \x7d"

/-- The text under which a table is kept. -/
def write (rows : Rows) : Bytes :=
  Text.encode "\x7b\n  \"users\": " ++ map rows ++ Text.encode "\n\x7d"

/-- Reads the members of an object, each by `field`, up to and with the closing brace. -/
def members {σ : Type} (field : σ → String → Bytes → Option (σ × Bytes)) :
    Nat → σ → Bytes → Option (σ × Bytes)
  | 0, _, _ => none
  | fuel + 1, state, s =>
    match string? (skipSpace s) with
    | none => none
    | some (key, s) => match skipSpace s with
      | 0x3A :: s => match field state key s with
        | none => none
        | some (state, s) => match skipSpace s with
          | 0x2C :: s => members field fuel state s
          | 0x7D :: s => some (state, s)
          | _ => none
      | _ => none

def object {σ : Type} (field : σ → String → Bytes → Option (σ × Bytes)) (state : σ) (s : Bytes) :
    Option (σ × Bytes) :=
  match skipSpace s with
  | 0x7B :: s => match skipSpace s with
    | 0x7D :: s => some (state, s)
    | s => members field s.length state s
  | _ => none

/-- One row of the map; the last of two rows with one name counts. -/
def row (rows : Rows) (name : String) (s : Bytes) : Option (Rows × Bytes) :=
  (string? (skipSpace s)).map fun r => (rows.insert name r.1, r.2)

/-- One member of the table: the map, at most once, or something to read past. -/
def member (found : Option Rows) (key : String) (s : Bytes) : Option (Option Rows × Bytes) :=
  if key = "users" then
    match found with
    | some _ => none
    | none => (object row [] s).map fun r => (some r.1, r.2)
  else (skipValue? s.length s).map fun rest => (found, rest)

def table? (s : Bytes) : Option (Rows × Bytes) :=
  match skipSpace s with
  | 0x5B :: s => match object row [] s with
    | none => none
    | some (rows, s) => match skipSpace s with
      | 0x5D :: s => some (rows, s)
      | _ => none
  | s => match object member none s with
    | some (some rows, s) => some (rows, s)
    | _ => none

/-- The rows in the text of a table, if it is one. -/
def read? (s : Bytes) : Option Rows :=
  match table? s with
  | some (rows, rest) => if (skipSpace rest).isEmpty then some rows else none
  | none => none

end TableFile
end Accounts
end PageServer
