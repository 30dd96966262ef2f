import PartyGraph.Text.Pieces

/-!
# Paths

A path is a text whose components stand between slashes. One that begins with a slash is absolute.

## Main definitions

* `isAbsolute`: whether a path is absolute.
* `joined`: a path followed by another.
* `components`: the components of a path.
-/

namespace PartyGraph.Path

/-- Whether a path begins with a slash. -/
def isAbsolute (path : String) : Bool := path.toList.head? = some '/'

/-- A path followed by another, which replaces it when absolute. No slash is put in where there is
one already, nor in front when the first path is empty. -/
def joined (path further : String) : String :=
  if isAbsolute further then further
  else if path.isEmpty || path.toList.getLast? = some '/' then path ++ further
  else path ++ "/" ++ further

/-- The components of a path: the pieces between slashes that are neither empty nor a single
point. -/
def components (path : String) : List (List Char) :=
  (Text.pieces '/' path.toList).filter fun p => !p.isEmpty && p != ['.']

end PartyGraph.Path
