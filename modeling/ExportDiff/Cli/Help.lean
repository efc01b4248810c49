/- What the program says about its own use. -/
import ExportDiff.Cli.Command

namespace ExportDiff.Cli

/-- The name of the program, and of a command of it. -/
def programName : Option CommandName → String
  | none => "integration-diff"
  | some c => "integration-diff " ++ c.word

def usage : Option CommandName → String
  | none => "usage: integration-diff [-h] \x7bcompare,flow,diff-file\x7d ...\n"
  | some .compare =>
      "usage: integration-diff compare [-h] [-v] [--no-pretty] [--no-flows]\n" ++
      "                                [--patch-lines PATCH_LINES]\n" ++
      "                                left right output\n"
  | some .flow => "usage: integration-diff flow [-h] [-v] archive\n"
  | some .diffFile =>
      "usage: integration-diff diff-file [-h] [-v] [--unified] [--format] left right\n"

/-- What stands below the usage. -/
def explanation : Option CommandName → String
  | none =>
      "Integration archive diff tool\n\n" ++
      "positional arguments:\n" ++
      "  \x7bcompare,flow,diff-file\x7d\n" ++
      "    compare             Compare two archives and write JSON reports\n" ++
      "    flow                Print the parsed flow of one archive as JSON\n" ++
      "    diff-file           Line diff of two files\n\n" ++
      "options:\n" ++
      "  -h, --help            show this help message and exit\n"
  | some .compare =>
      "positional arguments:\n" ++
      "  left                  Path to the older archive ZIP file\n" ++
      "  right                 Path to the newer archive ZIP file\n" ++
      "  output                Output directory\n\n" ++
      "options:\n" ++
      "  -h, --help            show this help message and exit\n" ++
      "  -v, --verbose         Enable debug logging\n" ++
      "  --no-pretty           Disable pretty printing\n" ++
      "  --no-flows            Skip flow parsing and comparison\n" ++
      "  --patch-lines PATCH_LINES\n" ++
      "                        Lines per side in diff patches (default: 50)\n"
  | some .flow =>
      "positional arguments:\n" ++
      "  archive        Path to archive ZIP file\n\n" ++
      "options:\n" ++
      "  -h, --help     show this help message and exit\n" ++
      "  -v, --verbose  Enable debug logging\n"
  | some .diffFile =>
      "positional arguments:\n" ++
      "  left           Old file\n" ++
      "  right          New file\n\n" ++
      "options:\n" ++
      "  -h, --help     show this help message and exit\n" ++
      "  -v, --verbose  Enable debug logging\n" ++
      "  --unified      Unified instead of side-by-side output\n" ++
      "  --format       Pretty-print XML/JSON before diffing\n"

def helpText (topic : Option CommandName) : String := usage topic ++ "\n" ++ explanation topic

def misuseLine (teller : Option CommandName) (m : Misuse) : String :=
  programName teller ++ ": error: " ++ m.message

end ExportDiff.Cli
