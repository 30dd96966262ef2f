import PartyGraph.Name.FullName
import PartyGraph.Store.Path

/-!
# Folders of parties

Below the root of a store every party has a folder, whose components are its environment, the
segments of its domain and its name. The mark of the environment at the beginning and that of the
party at the end keep the folders of different parties apart. A tenant domain has a second folder
inside, for what it does not share.

Every name has a folder, but a file system takes names and paths of limited length only. Creating a
folder that is beyond these limits fails, and it fails again at every further attempt.

## Main definitions

* `Folder`: a folder below a root.
* `Folder.shared`, `Folder.ownPart`: the folders of a party.
* `Folder.fits`: whether a folder keeps to the limits of a file system.
* `FolderTree`: the folders that exist, and `FolderTree.create?`.

## Main results

* `FolderTree.contains_create?`: a folder that is created comes with those around it, and with
  nothing else; what was there stays.
-/

namespace PartyGraph

/-- A folder: the root of the store, and the components that lead from it. -/
structure Folder where
  root : String
  components : List (List Char)
deriving DecidableEq, Repr

namespace Folder

/-- The components of the folder of a party. -/
def componentsOf (name : FullName) : List (List Char) :=
  ('#' :: name.environment.chars) :: name.domain.segments.map Segment.chars
    ++ ['$' :: name.party.chars]

/-- The folder of a party. -/
def shared (root : String) (name : FullName) : Folder := ⟨root, componentsOf name⟩

/-- The component of the folder within that of a tenant domain. -/
def ownComponent : List Char := ['-', 'L', 'o', 'c', 'a', 'l']

/-- The folder within that of a tenant domain for what it does not share. -/
def ownPart (f : Folder) : Folder := { f with components := f.components ++ [ownComponent] }

/-- The path of the folder below the root. -/
def relativeText (f : Folder) : String := String.ofList (Text.joined '/' f.components)

/-- The path of the folder. -/
def text (f : Folder) : String :=
  f.components.foldl (fun path c => Path.joined path (String.ofList c)) f.root

/-- Most bytes that a file system takes for the name of one folder. -/
def longestComponent : Nat := 255

/-- Most bytes that a file system takes for a path. -/
def longestPath : Nat := 4095

/-- Whether the folder keeps to the limits, in its path and in each of its components. -/
def fits (f : Folder) : Bool :=
  f.text.utf8ByteSize ≤ longestPath
    && f.components.all fun c => (String.ofList c).utf8ByteSize ≤ longestComponent

end Folder

/-- The folders that exist below a root: those that were made, and all around them. -/
structure FolderTree where
  made : List (List (List Char))

namespace FolderTree

/-- No folder. -/
def empty : FolderTree := ⟨[]⟩

/-- Whether a folder exists. -/
def contains (t : FolderTree) (f : Folder) : Bool :=
  t.made.any fun components => f.components.isPrefixOf components

/-- The tree with a folder, which may exist already, unless the folder is beyond the limits. -/
def create? (t : FolderTree) (f : Folder) : Option FolderTree :=
  if f.fits then some ⟨f.components :: t.made⟩ else none

theorem contains_create? {t t' : FolderTree} {f g : Folder} (h : t.create? f = some t') :
    t'.contains g = true ↔ g.components <+: f.components ∨ t.contains g = true := by
  obtain ⟨-, h⟩ := Option.ite_none_right_eq_some.mp h
  obtain rfl := Option.some.inj h
  rw [contains, List.any_cons, Bool.or_eq_true, List.isPrefixOf_iff_prefix, contains]

end FolderTree

end PartyGraph
