import PageServer.Text.Hidden

/-!
# Shown text

Text as it is shown for inspection: in quotes, with escapes for what would not be seen.
-/

namespace PageServer
namespace Text

def hexText (n : Nat) : String :=
  String.ofList (Nat.toDigits 16 n)

def shownChar (c : Char) : String :=
  if c = '"' then "\\\""
  else if c = '\\' then "\\\\"
  else if c = '\x00' then "\\0"
  else if c = '\t' then "\\t"
  else if c = '\n' then "\\n"
  else if c = '\r' then "\\r"
  else if isHidden c then "\\u\x7b" ++ hexText c.toNat ++ "\x7d"
  else String.singleton c

def shown (s : String) : String :=
  "\"" ++ String.join (s.toList.map shownChar) ++ "\""

end Text
end PageServer
