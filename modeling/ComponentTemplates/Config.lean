/-
Module: ComponentTemplates.Config
Purpose: Where the templates of components are looked for first.
Main exports: Config
-/

namespace ComponentTemplates

/-- The folders to search, in order. -/
structure Config where
  componentPaths : List String := ["components"]
deriving DecidableEq, Repr, Inhabited

end ComponentTemplates
