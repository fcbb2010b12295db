import Collate.Command.Request

/-
  What the program says about itself.

  Key definitions include:
    * `Topic.versionText`
    * `Topic.helpText`
    * `Topic.usageText`
-/

------------------------------------------------------------
-- Names and Versions
------------------------------------------------------------

namespace Collate

namespace Topic

/- The name of the program. -/
def programName : Text :=
  "stitch".toList

/- The words with which a topic is asked for. -/
def callName : Topic → Text
  | .program => programName
  | .verb v => programName ++ ' ' :: v.name

/- The name of a topic, in one word. -/
def fullName : Topic → Text
  | .program => programName
  | .verb v => programName ++ '-' :: v.name

/- The line with the version. -/
def versionText
    (topic : Topic) : Text :=
  topic.fullName ++ " 0.1.0\n".toList

------------------------------------------------------------
-- Help
------------------------------------------------------------

/- What a topic is about. -/
def about : Topic → Text
  | .program =>
      "Merge structured source files into one, ".toList ++
        "deduplicating imports".toList
  | .verb .merge =>
      "Merge input files into one output file".toList
  | .verb .run => "Run the merge groups of a config file".toList
  | .verb .coverage =>
      "Summarize `go tool cover -func` output by file".toList

/- How a topic is called. -/
def callText : Topic → Text
  | .program => "[OPTIONS] <COMMAND>".toList
  | .verb .merge =>
      "[OPTIONS] --output <OUTPUT> <INPUTS>...".toList
  | .verb .run => "[OPTIONS]".toList
  | .verb .coverage => "[OPTIONS] [INPUT]".toList

end Topic

/- What an option does. -/
def Key.about : Key → Text
  | .help => "Print help".toList
  | .version => "Print version".toList
  | .verbose => "Enable debug logging on stderr".toList
  | .output => "Output file".toList
  | .moduleName => "Module name for the output".toList
  | .dryRun =>
      "Show what would be merged without writing".toList
  | .strict => "Fail if any input is missing".toList
  | .config => "Config file".toList
  | .group => "Only run this group (repeatable)".toList
  | .parallel => "Run groups in parallel".toList
  | .profile =>
      "Run `go tool cover -func` on this profile".toList
  | .start =>
      "Only count functions whose path starts so".toList

/- How an option is written. -/
def Key.written
    (key : Key) : Text :=
  let letter :=
    match key.letter? with
    | some c => '-' :: c :: ", ".toList
    | none => "    ".toList
  letter ++ "--".toList ++ key.long ++
    match key.kind with
    | .announcement => []
    | .switch => []
    | _ => " <VALUE>".toList

/- The line on an option. -/
def Key.helpLine
    (key : Key) : Text :=
  "  ".toList ++ Text.padRight 26 key.written ++ key.about

/- The line on a verb. -/
def Verb.helpLine
    (verb : Verb) : Text :=
  "  ".toList ++ Text.padRight 10 verb.name ++
    (Topic.verb verb).about

namespace Topic

/- The lines on the verbs, where one can be given. -/
def verbLines : Topic → List Text
  | .program =>
      "Commands:".toList :: Verb.all.map Verb.helpLine ++ [[]]
  | .verb _ => []

/- The line that shows how a topic is called. -/
def callLine
    (topic : Topic) : Text :=
  "Usage: ".toList ++ topic.callName ++ ' ' :: topic.callText

/- The help on a topic. -/
def helpText
    (topic : Topic) : Text :=
  ([topic.about, [], topic.callLine, []] ++
    topic.verbLines ++
    "Options:".toList :: topic.keys.map Key.helpLine).flatMap
      fun line => line ++ ['\n']

/- What is said when a command line makes no sense. -/
def usageText : Text :=
  "error: these arguments make no command\n\n".toList ++
    program.callLine ++
    "\n\nFor more information, try '--help'.\n".toList

end Topic

end Collate
