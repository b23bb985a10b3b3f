/-
  Offside.CommandLine.Switch
  ──────────────────────────
  The options of the command line, their spellings, and the help text.
-/

namespace Offside.CommandLine

/-! ## §1. Options. -/

/-- An option of the command line. -/
inductive Switch where
  | help
  | output
  | watch
  | recursive
  | minify
  | indentWidth
  | indentStyle
  | noFormat
  | formatTimeout
  | config
  | init
  | debug
  | verbose
  | version
  deriving Repr, DecidableEq

/-- The options in the order in which they are listed. -/
def Switch.all : List Switch :=
  [.help, .output, .watch, .recursive, .minify, .indentWidth, .indentStyle, .noFormat,
   .formatTimeout, .config, .init, .debug, .verbose, .version]

/-- The spellings of an option. -/
def Switch.spellings : Switch → List String
  | .help => ["-h", "--help"]
  | .output => ["-o", "--output"]
  | .watch => ["-w", "--watch"]
  | .recursive => ["-r", "--recursive"]
  | .minify => ["--minify"]
  | .indentWidth => ["--indent-width"]
  | .indentStyle => ["--indent-style"]
  | .noFormat => ["--no-format"]
  | .formatTimeout => ["--format-timeout"]
  | .config => ["--config"]
  | .init => ["--init"]
  | .debug => ["--debug"]
  | .verbose => ["-v", "--verbose"]
  | .version => ["--version"]

/-- Whether an option takes a value. -/
def Switch.takesValue : Switch → Bool
  | .output | .indentWidth | .indentStyle | .formatTimeout | .config => true
  | _ => false

/-- How messages name an option. -/
def Switch.title (s : Switch) : String := "/".intercalate s.spellings

/-- Every spelling with its option. -/
def allSpellings : List (String × Switch) :=
  Switch.all.flatMap fun s => s.spellings.map fun name => (name, s)

/-- The option with a given spelling. -/
def Switch.named? (name : String) : Option Switch :=
  (allSpellings.find? fun e => e.1 == name).map (·.2)

/-! ## §2. Texts. -/

/-- The name of the program. -/
def programName : String := "tinyhtml"

/-- What the program says about its version. -/
def versionText : String := programName ++ " 0.1.0\n"

/-- How the program is used, in short. -/
def usageText : String :=
  "usage: tinyhtml [-h] [-o OUTPUT] [-w] [-r] [--minify] [--indent-width N]\n"
  ++ "                [--indent-style \x7bspaces,tabs\x7d] [--no-format]\n"
  ++ "                [--format-timeout SECS] [--config FILE] [--init] [--debug]\n"
  ++ "                [-v] [--version]\n"
  ++ "                [input]\n"

/-- How the program is used, at length. -/
def helpText : String :=
  usageText
  ++ "\nCompile TinyHTML (.tml) files to HTML\n\n"
  ++ "positional arguments:\n"
  ++ "  input                 Input .tml file or directory (default: compile the\n"
  ++ "                        whole project)\n\n"
  ++ "options:\n"
  ++ "  -h, --help            show this help message and exit\n"
  ++ "  -o OUTPUT, --output OUTPUT\n"
  ++ "                        Output file or directory ('-' for stdout)\n"
  ++ "  -w, --watch           Watch for changes and recompile\n"
  ++ "  -r, --recursive       Process directories recursively\n"
  ++ "  --minify              Emit HTML without whitespace\n"
  ++ "  --indent-width N      Spaces per indentation level (default: 2)\n"
  ++ "  --indent-style \x7bspaces,tabs\x7d\n"
  ++ "                        Indent with spaces or tabs (default: spaces)\n"
  ++ "  --no-format           Skip the external formatter and use the built-in\n"
  ++ "                        normalizer\n"
  ++ "  --format-timeout SECS\n"
  ++ "                        External formatter timeout in seconds (default: 5.0)\n"
  ++ "  --config FILE         Config file (default: auto-discover tinyhtml.toml)\n"
  ++ "  --init                Create a new project skeleton\n"
  ++ "  --debug               Dump AST to stderr\n"
  ++ "  -v, --verbose         Log progress (-v) or debugging details (-vv)\n"
  ++ "  --version             show program's version number and exit\n"

end Offside.CommandLine
