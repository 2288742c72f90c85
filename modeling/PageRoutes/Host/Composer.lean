import PageRoutes.Host.ClassLookup
import PageRoutes.Json.Shape
/-!
The namespaces that a project declares in its `composer.json`, those for development behind the
others. A file that is missing or not of the right shape declares none.
-/

set_option autoImplicit false

namespace PageRoutes.Composer

open Json

structure Autoload where
  main : List (String × Value)
  development : List (String × Value)

def readNamespaces : Reading (List (String × Value)) :=
  readRecord [.of "psr-4" false (readMap Tree.value) fun _ namespaces => namespaces] []

def fields : List (RecordField Autoload) :=
  [ .of "autoload" false readNamespaces fun autoload main => { autoload with main },
    .of "autoload-dev" false readNamespaces fun autoload development =>
      { autoload with development } ]

def ofText (text : String) : Except Fault Autoload :=
  (Document.ofText text).read (readRecord fields ⟨[], []⟩)

/-- The base directories that a value gives: one text, or the texts among some items. Any other
value gives no namespace. -/
def directories? : Value → Option (List FilePath)
  | .str directory => some [⟨directory⟩]
  | .arr items => some (items.filterMap fun item => item.string?.map FilePath.mk)
  | _ => none

def addNamespaces (map : NamespaceMap) (namespaces : List (String × Value)) : NamespaceMap :=
  namespaces.foldl
    (fun map (name, value) =>
      match directories? value with
      | some directories => map.insert name directories
      | none => map)
    map

def Autoload.toMap (autoload : Autoload) (root : FilePath) : NamespaceMap :=
  addNamespaces (addNamespaces (.empty root) autoload.main) autoload.development

def fileName : FilePath :=
  ⟨"composer.json"⟩

def namespaceMap (tree : FileTree) (root : FilePath) : NamespaceMap :=
  match tree.readText? (root.join fileName) with
  | none => .empty root
  | some text =>
      match ofText text with
      | .error _ => .empty root
      | .ok autoload => autoload.toMap root

end PageRoutes.Composer
