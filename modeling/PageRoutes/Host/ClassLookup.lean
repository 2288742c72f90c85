import PageRoutes.FileTree.Basic
import PageRoutes.Text.Recogniser
/-!
Finding the source file of a class by its name. Namespaces lead to base directories, the longest one
that the name starts with being tried first; controllers may also be looked up by the last parts of
their names in some directories.
-/

set_option autoImplicit false

namespace PageRoutes

open Text

/-- A namespace, which ends with a backslash unless it is empty, and its base directories. -/
structure NamespaceRoot where
  name : String
  directories : List FilePath
deriving DecidableEq, Repr

def bareClassName (className : String) : List Char :=
  className.toList.dropWhile (· == '\\')

/-- A namespace without backslashes in front and, unless nothing is left of it, with one at its
end. -/
def namespaceName (name : String) : String :=
  let bare := bareClassName name
  if bare.isEmpty ∨ bare.getLast? = some '\\' then String.ofList bare
  else String.ofList (bare ++ ['\\'])

def sourceFileName (className : List Char) : FilePath :=
  ⟨String.ofList (exchange '\\' '/' className) ++ ".php"⟩

/-- The namespaces of a project, the longest name first; of equally long names the one that was
given first. -/
structure NamespaceMap where
  root : FilePath
  namespaces : List NamespaceRoot
deriving DecidableEq, Repr

namespace NamespaceMap

def empty (root : FilePath) : NamespaceMap :=
  ⟨root, []⟩

/-- Puts a namespace behind all those with names that are as long or longer. -/
def insertByLength (new : NamespaceRoot) : List NamespaceRoot → List NamespaceRoot
  | [] => [new]
  | old :: rest =>
      if old.name.utf8ByteSize < new.name.utf8ByteSize then new :: old :: rest
      else old :: insertByLength new rest

def insert (map : NamespaceMap) (name : String) (directories : List FilePath) : NamespaceMap :=
  { map with
    namespaces :=
      insertByLength ⟨namespaceName name, directories.map map.root.join⟩ map.namespaces }

/-- The first file that is there for a class, over the namespaces in order and for each one over its
directories. -/
def locate (map : NamespaceMap) (tree : FileTree) (className : String) : Option FilePath :=
  map.namespaces.findSome? fun entry =>
    (after? entry.name.toList (bareClassName className)).bind fun rest =>
      (entry.directories.map (·.join (sourceFileName rest))).find? tree.isFile

end NamespaceMap

def behindFirst? (word text : List Char) : Option (List Char) :=
  leftmost? (after? word) text

def shortClassName (className : List Char) : List Char :=
  (className.reverse.takeWhile (· ≠ '\\')).reverse

/-- The names that a controller's file may have under a directory: the part of the class name behind
the namespace of controllers, then the class name without any namespace. -/
def controllerFileNames (className : String) : List FilePath :=
  let bare := bareClassName className
  let nested := (behindFirst? "Controllers\\".toList bare).map sourceFileName
  nested.toList ++ [⟨String.ofList (shortClassName bare) ++ ".php"⟩]

def locateController (tree : FileTree) (directories : List FilePath) (className : String) :
    Option FilePath :=
  directories.findSome? fun directory =>
    ((controllerFileNames className).map directory.join).find? tree.isFile

inductive ClassLookup where
  | namespaces (map : NamespaceMap)
  | controllers (directories : List FilePath)
  | assigned (find : String → Option FilePath)
  | chain (first second : ClassLookup)

def ClassLookup.locate (tree : FileTree) : ClassLookup → String → Option FilePath
  | .namespaces map, className => map.locate tree className
  | .controllers directories, className => locateController tree directories className
  | .assigned find, className => find className
  | .chain first second, className =>
      (first.locate tree className).or (second.locate tree className)

end PageRoutes
