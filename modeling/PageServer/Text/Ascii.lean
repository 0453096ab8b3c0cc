/-!
# ASCII text

Methods, versions and header names are compared without regard to ASCII case, and words on
a line are separated by runs of spaces and tabs.
-/

namespace PageServer
namespace Text

/-- Equality up to ASCII case; letters outside ASCII match only themselves. -/
def eqIgnoreCase (s t : List Char) : Bool :=
  s.map Char.toLower == t.map Char.toLower

/-- The rest of `s` after `lead`, matched up to ASCII case. -/
def dropLead? (lead s : List Char) : Option (List Char) :=
  if eqIgnoreCase (s.take lead.length) lead then some (s.drop lead.length) else none

/-- A space or a tab. -/
def isBlank (c : Char) : Bool :=
  c == ' ' || c == '\t'

def trimLeft (s : List Char) : List Char :=
  s.dropWhile isBlank

/-- The word before the first blank and what follows that run of blanks. -/
def splitBlank? (s : List Char) : Option (List Char × List Char) :=
  let word := s.takeWhile fun c => !isBlank c
  match s.dropWhile fun c => !isBlank c with
  | [] => none
  | rest => some (word, trimLeft rest)

end Text
end PageServer
