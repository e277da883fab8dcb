/-!
# Parts of a text

A text is cut at every separator, or at the first one only.  Cutting at every
separator keeps empty parts.
-/

namespace TimeSync.Text

def parts (separator : Char) : List Char → List (List Char)
  | [] => [[]]
  | char :: rest =>
    if char = separator then
      [] :: parts separator rest
    else
      match parts separator rest with
      | [] => [[char]]
      | part :: others => (char :: part) :: others

def splitFirst? (separator : Char) : List Char → Option (List Char × List Char)
  | [] => none
  | char :: rest =>
    if char = separator then
      some ([], rest)
    else
      (splitFirst? separator rest).map fun cut => (char :: cut.1, cut.2)

end TimeSync.Text
