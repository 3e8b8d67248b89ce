/-!
The options of the command and the texts that explain them.
-/

namespace TreeWatch.CommandLine

inductive Switch
  | help
  | pattern
  | interval
  | config
  | logLevel
  deriving DecidableEq, Repr

/-- All spellings of options, in the order in which they are listed. -/
def spellings : List (String × Switch) := [
  ("-h", .help), ("--help", .help), ("--pattern", .pattern), ("--interval", .interval),
  ("--config", .config), ("--log-level", .logLevel)]

/-- The option as errors name it. -/
def Switch.name : Switch → String
  | help => "-h/--help"
  | pattern => "--pattern"
  | interval => "--interval"
  | config => "--config"
  | logLevel => "--log-level"

def programName : String := "globwatch"

def usage : String := "\n".intercalate [
  "usage: globwatch [-h] [--pattern PATTERN] [--interval INTERVAL]",
  "                 [--config CONFIG] [--log-level LOG_LEVEL]",
  "                 [directory]",
  ""]

def help : String := usage ++ "\n".intercalate [
  "",
  "Watch a directory for files matching a glob pattern",
  "",
  "positional arguments:",
  "  directory             Directory to watch",
  "",
  "options:",
  "  -h, --help            show this help message and exit",
  "  --pattern PATTERN     Pattern of files to watch (default: **/*)",
  "  --interval INTERVAL   Seconds between change detection passes (default: 1.0)",
  "  --config CONFIG       Path to an optional YAML configuration file",
  "  --log-level LOG_LEVEL",
  "                        Logging level (DEBUG, INFO, WARNING, ERROR)",
  ""]

end TreeWatch.CommandLine
