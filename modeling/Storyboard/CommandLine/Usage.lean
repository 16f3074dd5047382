-- SUMMARY: The usage line and the help text of the command line.

/-!
# Usage and help
-/

namespace Storyboard.CommandLine

/-- The name of the program. -/
def programName : String := "tanim"

/-- How the program is called. -/
def usage : String :=
  "usage: tanim [-h] [-c COMMAND] [-f FILE] [-v] [--json] [--delay DELAY]\n"
    ++ "             [--stable-ids] [--log-level \x7bDEBUG,INFO,WARNING,ERROR\x7d]\n"
    ++ "             tables\n"

/-- What the program does and what its options mean. -/
def helpText : String :=
  usage ++ "\nCompile table animation scripts into frames\n\n"
    ++ "positional arguments:\n"
    ++ "  tables                Path to a JSON file holding the table collection\n\n"
    ++ "options:\n"
    ++ "  -h, --help            show this help message and exit\n"
    ++ "  -c COMMAND, --command COMMAND\n"
    ++ "                        Run a script given on the command line and exit\n"
    ++ "  -f FILE, --file FILE  Run the script in a file and exit\n"
    ++ "  -v, --verbose         Print the compiled actions before the frames\n"
    ++ "  --json                Print frames as JSON instead of text\n"
    ++ "  --delay DELAY         Frame delay in milliseconds, passed through to the\n"
    ++ "                        output\n"
    ++ "  --stable-ids          Generate sequential ids for new rows and columns\n"
    ++ "  --log-level \x7bDEBUG,INFO,WARNING,ERROR\x7d\n"
    ++ "                        Logging level for diagnostics (default: WARNING)\n"

end Storyboard.CommandLine
