/-!
# Pieces of a text

A text is cut at every occurrence of a separator. There is always one piece more than there
are separators, and pieces may be empty.
-/

namespace Rollout.Text

def pieces (separator : Char) : List Char → List (List Char)
  | [] => [[]]
  | c :: rest =>
    if c = separator then [] :: pieces separator rest
    else
      match pieces separator rest with
      | [] => [[c]]
      | first :: later => (c :: first) :: later

def split (separator : Char) (s : String) : List String :=
  (pieces separator s.toList).map String.ofList

end Rollout.Text
