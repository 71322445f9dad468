import Courier.CommandLine.Arguments

/-!
What the program says about itself.
-/

namespace Courier
namespace CommandLine

def versionText : String := "pipe 0.1.0"

/-- Names and explanations in two columns. -/
def columns (rows : List (String × String)) : List String :=
  let width := (rows.map fun row => row.1.length).foldl max 0
  rows.map fun (name, text) =>
    "  " ++ name ++ String.ofList (List.replicate (width - name.length + 2) ' ') ++ text

def configRow : String × String :=
  ("-c, --config <CONFIG>", "Path to configuration file (defaults apply when omitted)")

def logLevelRow : String × String :=
  ("-l, --log-level <LOG_LEVEL>",
    "Log level (trace, debug, info, warn, error). Overrides config file")

def helpRow : String × String := ("-h, --help", "Print help")

def versionRow : String × String := ("-V, --version", "Print version")

def commandRows : List (String × String) :=
  [("check", "Load and validate the configuration, then print it"),
   ("send", "Transfer a file through the connector to a local receiver"),
   ("help", "Print this message or the help of the given subcommand(s)")]

def sendRows : List (String × String) :=
  [("    --data-file <DATA_FILE>", "Sealed data file to transfer"),
   ("    --mod-file <MOD_FILE>", "Modification file sent ahead of the data file"),
   configRow,
   ("    --out <OUT>", "Directory the receiver writes into"),
   logLevelRow,
   ("    --pipe <PIPE>", "Pipe name stamped on the event [default: pipe]"),
   ("    --region <REGION>", "Region (consensus group) of the event [default: 1]"),
   ("    --timeout-secs <TIMEOUT_SECS>",
     "Give up when the transfer has not completed after this many seconds [default: 60]"),
   helpRow]

def helpLines : Topic → List String
  | .program =>
      ["Command line front end for the pipe transport stage", "",
       "Usage: pipe [OPTIONS] <COMMAND>", "", "Commands:"] ++ columns commandRows ++
        ["", "Options:"] ++ columns [configRow, logLevelRow, helpRow, versionRow]
  | .check =>
      ["Load and validate the configuration, then print it", "", "Usage: pipe check [OPTIONS]", "",
       "Options:"] ++ columns [configRow, logLevelRow, helpRow]
  | .send =>
      ["Transfer a file through the connector to a local receiver", "",
       "Usage: pipe send [OPTIONS] --data-file <DATA_FILE> --out <OUT>", "", "Options:"] ++
        columns sendRows
  | .help =>
      ["Print this message or the help of the given subcommand(s)", "",
       "Usage: pipe help [COMMAND]...", "", "Arguments:"] ++
        columns [("[COMMAND]...", "Print help for the subcommand(s)")]

end CommandLine
end Courier
