/-
  Offside.Project.Skeleton
  ────────────────────────
  A new project to start from.

  The skeleton has a directory of sources with two pages, a directory for
  what is compiled, and a config file that spells out the defaults.  What is
  already there is kept.
-/
import Offside.Compiler.Compile

namespace Offside.Project

open Offside.Action Compiler

/-! ## §1. The files. -/

/-- The name of the config file. -/
def configName : String := "tinyhtml.toml"

/-- The start page of a new project. -/
def indexPage : String :=
  "!DOCTYPE html\nhtml[lang=\"en\"]:\n  head:\n    meta[charset=\"UTF-8\"]\n"
  ++ "    meta[name=\"viewport\"][content=\"width=device-width, initial-scale=1.0\"]\n"
  ++ "    title: \"My TinyHTML Project\"\n    style: |\n"
  ++ "      body \x7b font-family: Arial, sans-serif; margin: 0; padding: 20px; \x7d\n"
  ++ "      .container \x7b max-width: 800px; margin: 0 auto; \x7d\n"
  ++ "      .highlight \x7b background: #f0f8ff; padding: 10px; border-radius: 5px; \x7d\n"
  ++ "  body:\n    div.container:\n      h1: \"Hello, TinyHTML!\"\n"
  ++ "      div.highlight:\n        p: \"Welcome to your new TinyHTML project!\"\n"
  ++ "        p: \"Edit files in tinyhtml-views/ and run 'tinyhtml' to compile them.\"\n"
  ++ "      footer:\n        p: \"Created with TinyHTML\"\n"

/-- The second page of a new project. -/
def aboutPage : String :=
  "!DOCTYPE html\nhtml[lang=\"en\"]:\n  head:\n    meta[charset=\"UTF-8\"]\n"
  ++ "    title: \"About - TinyHTML Project\"\n  body:\n    div.container:\n"
  ++ "      h1: \"About\"\n"
  ++ "      p: \"This is the about page of your TinyHTML project.\"\n"
  ++ "      a[href=\"index.html\"]: \"Back to Home\"\n"

/-- The config file of a new project. -/
def configText : String :=
  "[output]\nindent_width = 2\nindent_style = \"spaces\"\nminify = false\n\n"
  ++ "[format]\nenabled = true\n\n[project]\n"
  ++ s!"source = \"{projectSource}\"\noutput = \"{projectOutput}\"\n"

/-! ## §2. Making it. -/

/-- Make a directory of the skeleton, unless something is there. -/
def addDirectory (created : List Path) (folder : Path) : Action (List Path) := do
  if (← get).files.isPresent folder then return created
  makeDirectories folder false
  return created ++ [folder]

/-- Write a file of the skeleton, unless something is there. -/
def addFile (created : List Path) (file : Path × String) : Action (List Path) := do
  if (← get).files.isPresent file.1 then return created
  writeText file.1 file.2
  return created ++ [file.1]

/-- **Create the skeleton** under a directory and say what was made. -/
def create (root : Path) : Action (List Path) := do
  let views := root.child projectSource
  let folders := [views, root.child projectOutput]
  let files := [(root.child configName, configText),
    (views.child "index.tml", indexPage), (views.child "about.tml", aboutPage)]
  let created ← folders.foldlM addDirectory []
  files.foldlM addFile created

end Offside.Project
