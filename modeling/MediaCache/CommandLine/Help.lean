import MediaCache.CommandLine.Arguments

/-!
# Help

What the program prints about itself and its commands.
-/

namespace MediaCache.CommandLine

def columns (rows : List (String × String)) : List String :=
  let width := (rows.map (·.1.length)).foldl max 0
  rows.map fun row => "  " ++ row.1.pushn ' ' (width - row.1.length) ++ "  " ++ row.2

namespace CommandName

def summary : CommandName → String
  | check => "Verify every derived field is evicted by its source family"
  | impact => "Print a family's impact table"
  | replay => "Apply a mutation log to a cache snapshot"
  | config => "Print the effective configuration"

def usage : CommandName → String
  | impact => "[OPTIONS] <FAMILY>"
  | replay => "[OPTIONS] --snapshot <SNAPSHOT> --log <LOG>"
  | _ => "[OPTIONS]"

def argumentRows : CommandName → List (String × String)
  | impact => [("<FAMILY>", "Entity family, e.g. scene, gallery_chapter")]
  | _ => []

def optionRows : CommandName → List (String × String)
  | replay =>
    [("    --snapshot <SNAPSHOT>", "Snapshot to start from"),
      ("    --log <LOG>",
        "JSON-lines file of \x7b\"mutation\": ..., \"result\": ...\x7d records"),
      ("    --out <OUT>", "Write the resulting snapshot here instead of stdout")]
  | _ => []

end CommandName

namespace Topic

def configRow : String × String :=
  ("-c, --config <CONFIG>", "Project config file (default: .stash/cache.toml)")

def helpRow : String × String := ("-h, --help", "Print help")

def helpSummary : String := "Print this message or the help of the given subcommand(s)"

def summary : Topic → String
  | program => "Cache consistency tooling for the stash client"
  | command name => name.summary
  | help => helpSummary

def usage : Topic → String
  | program => "[OPTIONS] <COMMAND>"
  | command name => name.text ++ " " ++ name.usage
  | help => "help [COMMAND]..."

def tables : Topic → List (String × List (String × String))
  | program =>
    [("Commands",
        CommandName.all.map (fun name => (name.text, name.summary)) ++ [("help", helpSummary)]),
      ("Options", [configRow, helpRow, ("-V, --version", "Print version")])]
  | command name =>
    [("Arguments", name.argumentRows), ("Options", configRow :: name.optionRows ++ [helpRow])]
  | help => [("Arguments", [("[COMMAND]...", "Print help for the subcommand(s)")])]

def text (calledName : String) (t : Topic) : String :=
  let table (rows : String × List (String × String)) : List String :=
    if rows.2.isEmpty then [] else "" :: (rows.1 ++ ":") :: columns rows.2
  String.intercalate "\n"
    ([t.summary, "", "Usage: " ++ calledName ++ " " ++ t.usage] ++ t.tables.flatMap table)

end Topic

end MediaCache.CommandLine
