import PageRoutes.Manifest.Basic
import PageRoutes.Text.Pieces
/-!
Manifests as modules. A module exports one object with a list of routes, one line for each; texts
stand in single quotes, in which backslashes, single quotes and line ends are escaped.
-/

set_option autoImplicit false

namespace PageRoutes.Manifest

def escape (c : Char) : List Char :=
  if c = '\\' then ['\\', '\\']
  else if c = '\'' then ['\\', '\'']
  else if c = '\n' then ['\\', 'n']
  else if c = '\r' then ['\\', 'r']
  else [c]

def quote (text : String) : List Char :=
  '\'' :: text.toList.flatMap escape ++ ['\'']

def commaSeparated (items : List (List Char)) : List Char :=
  Text.joinWith ", ".toList items

def parameterText (parameter : Parameter) : List Char :=
  r"{ name: ".toList ++ quote parameter.name ++ ", required: ".toList ++
    (if parameter.required then "true" else "false").toList ++ r" }".toList

def entryText (entry : Manifest.Entry) : List Char :=
  r"    { pattern: ".toList ++ quote entry.pattern ++
    ", component: ".toList ++ quote entry.component ++
    ", middleware: [".toList ++ commaSeparated (entry.middleware.map quote) ++
    "], parameters: [".toList ++ commaSeparated (entry.parameters.map parameterText) ++
    r"] },".toList ++ "\n".toList

def moduleOpening : List Char :=
  "\nexport default ".toList ++ '{' :: "\n  routes: [\n".toList

def moduleHead : List Char :=
  "// This file is generated by `force10 generate`. Do not edit it by hand.\n".toList ++
    moduleOpening

def moduleFoot : List Char :=
  "  ],\n".toList ++ '}' :: ";\n".toList

def moduleChars (entries : List Manifest.Entry) : List Char :=
  moduleHead ++ entries.flatMap entryText ++ moduleFoot

def moduleText (entries : List Manifest.Entry) : String :=
  String.ofList (moduleChars entries)

end PageRoutes.Manifest
