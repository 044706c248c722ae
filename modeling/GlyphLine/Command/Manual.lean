import GlyphLine.Command.Request
import GlyphLine.Report.Run

/-!
# Pages of help

* `page`: the page of help on a topic.
* `refusal`: what is told when a command line is refused.
-/

namespace GlyphLine
namespace Command

/-- The words of a command line on a topic. -/
def usage : Topic → String
  | .whole => "glyphlint --icemap <ICEMAP> [OPTIONS]\n       glyphlint <COMMAND>"
  | .markdown => "glyphlint md [OPTIONS] --report <REPORT>"
  | .annotations => "glyphlint annotations [OPTIONS] --report <REPORT>"
  | .explain => "glyphlint explain <IDENTIFIER>"
  | .help => "glyphlint help [COMMAND]"

/-- What the command of a topic does. -/
def purpose : Topic → String
  | .whole => "Fail-closed linter for GlyphLine tokens and IceLayer ICEMAP policies"
  | .markdown => "Render markdown from an existing JSON report"
  | .annotations => "Render GitHub Actions annotations from an existing JSON report"
  | .explain => "Explain a check_id or code with remediation guidance"
  | .help => "Print this message or the help of the given subcommand(s)"

/-- The options of a topic and what they are for. -/
def optionLines : Topic → List String
  | .whole => ["Commands:",
      "  md           Render markdown from an existing JSON report",
      "  annotations  Render GitHub Actions annotations from an existing JSON report",
      "  explain      Explain a check_id or code with remediation guidance",
      "  help         Print this message or the help of the given subcommand(s)",
      "",
      "Options:",
      "      --icemap <ICEMAP>              Path to the ICEMAP policy",
      "      --text <TEXT>                  Path to the text to lint (default: stdin)",
      "      --require                      Fail if no ~tokens are found",
      "      --report-out <REPORT_OUT>      Where to write the JSON report",
      "      --markdown-out <MARKDOWN_OUT>  Where to write a Markdown summary",
      "  -h, --help                         Print help",
      "  -V, --version                      Print version"]
  | .markdown => ["Options:",
      "      --report <REPORT>  Path to the JSON report file",
      "  -o, --output <OUTPUT>  Where to write the Markdown output",
      "  -h, --help             Print help"]
  | .annotations => ["Options:",
      "      --report <REPORT>  Path to the JSON report file",
      "      --max <MAX>        Maximum number of annotations to emit [default: 10]",
      "  -h, --help             Print help"]
  | .explain => ["Arguments:",
      "  <IDENTIFIER>  The check_id or code to explain",
      "",
      "Options:",
      "  -h, --help  Print help"]
  | .help => []

/-- The page of help on a topic. -/
def page (t : Topic) : String :=
  Text.lines ([purpose t, "", "Usage: " ++ usage t, ""] ++ optionLines t)

/-- The line with the name and the version. -/
def versionLine : String := Report.thisTool.name ++ " " ++ Report.thisTool.version

/-- What is told when a command line is refused. -/
def refusal (t : Topic) (why : Refusal) : String :=
  Text.lines ["error: " ++ why.message, "", "Usage: " ++ usage t, "",
    "For more information, try '--help'."]

end Command
end GlyphLine
