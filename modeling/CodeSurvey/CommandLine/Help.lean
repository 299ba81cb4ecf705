import CodeSurvey.CommandLine.Arguments

/-!
# Help

What the program prints when it is asked how to use it, for the program as a whole and for each of
its commands.
-/

namespace CodeSurvey.Help

/-- How to use the program. -/
def general : List String :=
  ["usage: codeingest [-h] [-v] [-q] [--log-file LOG_FILE]",
   "                  \x7banalyze,detect,gaps,serve\x7d ...",
   "",
   "Extract routes, models, controllers, components and services from a codebase.",
   "",
   "positional arguments:",
   "  \x7banalyze,detect,gaps,serve\x7d",
   "    analyze             Analyze a codebase and print the extracted facts.",
   "    detect              Print the detected language and framework.",
   "    gaps                List code features with no matching documentation",
   "                        title.",
   "    serve               Run the HTTP service.",
   "",
   "options:",
   "  -h, --help            show this help message and exit",
   "  -v, --verbose         Increase log verbosity for troubleshooting.",
   "  -q, --quiet           Only log warnings and errors.",
   "  --log-file LOG_FILE   Also write log records to this file."]

/-- How to ask for an analysis. -/
def analyze : List String :=
  ["usage: codeingest analyze [-h] [-v] [--format \x7bjson,summary\x7d]",
   "                          [--categories " ++
      "\x7broutes,models,controllers,components,services\x7d " ++
      "[\x7broutes,models,controllers,components,services\x7d ...]]",
   "                          [path]",
   "",
   "positional arguments:",
   "  path                  Path to the codebase root (defaults to current",
   "                        directory).",
   "",
   "options:",
   "  -h, --help            show this help message and exit",
   "  -v, --verbose         Increase log verbosity for troubleshooting.",
   "  --format \x7bjson,summary\x7d",
   "                        Print the full analysis as JSON or a short summary",
   "                        with samples.",
   "  --categories \x7broutes,models,controllers,components,services\x7d " ++
      "[\x7broutes,models,controllers,components,services\x7d ...]",
   "                        Limit extraction to these categories (overrides",
   "                        .codeingest.yml)."]

/-- How to ask for the stack. -/
def detect : List String :=
  ["usage: codeingest detect [-h] [-v] [path]",
   "",
   "positional arguments:",
   "  path           Path to the codebase root (defaults to current directory).",
   "",
   "options:",
   "  -h, --help     show this help message and exit",
   "  -v, --verbose  Increase log verbosity for troubleshooting."]

/-- How to ask for the gaps. -/
def gaps : List String :=
  ["usage: codeingest gaps [-h] [-v] --docs DOCS [path]",
   "",
   "positional arguments:",
   "  path           Path to the codebase root (defaults to current directory).",
   "",
   "options:",
   "  -h, --help     show this help message and exit",
   "  -v, --verbose  Increase log verbosity for troubleshooting.",
   "  --docs DOCS    Directory of markdown or HTML documentation to compare",
   "                 against."]

/-- How to ask for the service. -/
def serve : List String :=
  ["usage: codeingest serve [-h] [-v] [--host HOST] [--port PORT]",
   "",
   "options:",
   "  -h, --help     show this help message and exit",
   "  -v, --verbose  Increase log verbosity for troubleshooting.",
   "  --host HOST    Interface to bind.",
   "  --port PORT    Port to listen on."]

/-- The help on a command, or on the program. -/
def text (command : Option String) : Text :=
  let lines := match command with
    | some "analyze" => analyze
    | some "detect" => detect
    | some "gaps" => gaps
    | some "serve" => serve
    | _ => general
  lines.flatMap fun line => line.toList ++ ['\n']

end CodeSurvey.Help
