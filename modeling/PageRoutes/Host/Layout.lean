import PageRoutes.Host.Composer
/-!
Where things are in the host application.
-/

set_option autoImplicit false

namespace PageRoutes

structure Layout where
  root : FilePath
  appDir : FilePath
  classes : ClassLookup

namespace Layout

def usual (tree : FileTree) (root : FilePath) : Layout where
  root := root
  appDir := root.join ⟨"app"⟩
  classes := .namespaces (Composer.namespaceMap tree root)

def resolve (layout : Layout) (path : FilePath) : FilePath :=
  layout.root.resolve path

def hasPackage (layout : Layout) (tree : FileTree) (package : String) : Bool :=
  tree.isDirectory ((layout.root.join ⟨"vendor"⟩).join ⟨package⟩)

def fortifyProvider (layout : Layout) : FilePath :=
  layout.appDir.join ⟨"Providers/FortifyServiceProvider.php"⟩

end Layout

end PageRoutes
