import CommandLine.Text

namespace CommandLine.Tool

def programName : Text := "arg_parser".toText

def versionText : Text := programName ++ " 0.1.0\n".toText

def linesOf (lines : List String) : Text := lines.flatMap fun line => (line ++ "\n").toText

def usageText : Text := linesOf [
  "usage: arg_parser [-h] [--version] [-v] -t FILE [-f \x7btext,json\x7d] [--in-order]",
  "                  [-o FILE]",
  "                  [argv ...]"]

def helpText : Text := usageText ++ linesOf [
  "",
  "Decode a command line against a JSON option table.",
  "",
  "positional arguments:",
  "  argv                  Argument vector to decode (program name first).",
  "",
  "options:",
  "  -h, --help            show this help message and exit",
  "  --version             show program's version number and exit",
  "  -v, --verbose         Increase log verbosity (-v INFO, -vv DEBUG).",
  "  -t FILE, --table FILE",
  "                        JSON option table.",
  "  -f \x7btext,json\x7d, --format \x7btext,json\x7d",
  "                        Output format (default: text).",
  "  --in-order            Record operands where they appear instead of after all",
  "                        options.",
  "  -o FILE, --output FILE",
  "                        Output file (\"-\" or omit for stdout).",
  "",
  "Everything after -- is the argument vector, program name first."]

end CommandLine.Tool
