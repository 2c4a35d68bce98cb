/-!
The texts that a request for help is answered with: a summary, the usage, and tables whose second
column starts behind the widest entry of the first.
-/

namespace Symbolizer

inductive HelpTopic where
  | program
  | file
  | pid
  | help
  deriving DecidableEq, Repr

namespace HelpText

structure Listing where
  heading : String
  rows : List (String × String)

structure Page where
  summary : String
  usage : String
  sections : List Listing

def spaces (count : Nat) : String :=
  String.ofList (List.replicate count ' ')

def Listing.width (table : Listing) : Nat :=
  table.rows.foldl (fun width row => max width row.1.length) 0

def Listing.text (table : Listing) : String :=
  let width := table.width
  table.rows.foldl
    (fun text (entry, meaning) =>
      text ++ "  " ++ entry ++ spaces (width - entry.length) ++ "  " ++ meaning ++ "\n")
    ("\n" ++ table.heading ++ ":\n")

def Page.text (page : Page) : String :=
  page.sections.foldl (fun text table => text ++ table.text)
    (page.summary ++ "\n\nUsage: stackline " ++ page.usage ++ "\n")

def fileSummary : String := "Resolve addresses against one PE image on disk"
def pidSummary : String := "Resolve addresses inside a running process, using its module map"
def helpSummary : String := "Print this message or the help of the given subcommand(s)"

def sharedOptions : List (String × String) :=
  [("    --debug-dir <DEBUG_DIRS>",
      "Extra directory searched for \x60.gnu_debuglink\x60 satellite files (repeatable)"),
    ("    --no-demangle", "Print raw linkage names instead of demangled ones"),
    ("    --log-level <LOG_LEVEL>",
      "Log level (error, warn, info, debug, trace); overrides RUST_LOG"),
    ("    --log-format <LOG_FORMAT>",
      "Log format (pretty or json); overrides STACKLINE_LOG_FORMAT")]

def helpOption : String × String := ("-h, --help", "Print help")

def addressesRow : String × String :=
  ("<ADDRESSES>...", "Addresses to resolve (hex with 0x prefix, or decimal)")

def programPage : Page where
  summary := "Resolve instruction addresses to file, line and inlined call chains"
  usage := "[OPTIONS] <COMMAND>"
  sections :=
    [⟨"Commands", [("file", fileSummary), ("pid", pidSummary), ("help", helpSummary)]⟩,
      ⟨"Options", sharedOptions ++ [helpOption, ("-V, --version", "Print version")]⟩]

def filePage : Page where
  summary := fileSummary
  usage := "file [OPTIONS] <IMAGE> <ADDRESSES>..."
  sections :=
    [⟨"Arguments", [("<IMAGE>", "Path to the executable or DLL"), addressesRow]⟩,
      ⟨"Options",
        ("-b, --base <BASE>",
          "Address the image was loaded at (hex with 0x prefix, or decimal); 0 means the addresses "
            ++ "are already image-relative [default: 0]") :: sharedOptions ++ [helpOption]⟩]

def pidPage : Page where
  summary := pidSummary
  usage := "pid [OPTIONS] <PID> <ADDRESSES>..."
  sections :=
    [⟨"Arguments", [("<PID>", "Process ID whose loaded modules own the addresses"), addressesRow]⟩,
      ⟨"Options", sharedOptions ++ [helpOption]⟩]

def helpPage : Page where
  summary := helpSummary
  usage := "help [COMMAND]..."
  sections := [⟨"Arguments", [("[COMMAND]...", "Print help for the subcommand(s)")]⟩]

def page : HelpTopic → Page
  | .program => programPage
  | .file => filePage
  | .pid => pidPage
  | .help => helpPage

def render (topic : HelpTopic) : String :=
  (page topic).text

end HelpText

end Symbolizer
