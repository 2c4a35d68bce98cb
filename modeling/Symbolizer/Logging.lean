/-!
The settings of the log: a level and a format, read from words in any case, and a file. The log
itself is no part of the answers.
-/

namespace Symbolizer.Logging

inductive Level where
  | error
  | warn
  | info
  | debug
  | trace
  deriving DecidableEq, Repr

inductive Style where
  | pretty
  | json
  deriving DecidableEq, Repr

inductive WordFault where
  | level (word : String)
  | style (word : String)
  deriving DecidableEq, Repr

def WordFault.message : WordFault → String
  | .level word =>
    "Invalid log level: " ++ word ++ ". Use 'error', 'warn', 'info', 'debug', or 'trace'"
  | .style word => "Invalid log format: " ++ word ++ ". Use 'pretty' or 'json'"

/-- No letter outside ASCII has a lower-case form that occurs in the words below. -/
def lowerCase (word : String) : String :=
  String.ofList (word.toList.map Char.toLower)

def Level.parse (word : String) : Except WordFault Level :=
  match lowerCase word with
  | "error" | "err" => .ok .error
  | "warn" | "warning" => .ok .warn
  | "info" => .ok .info
  | "debug" | "dbg" => .ok .debug
  | "trace" => .ok .trace
  | _ => .error (.level word)

def Style.parse (word : String) : Except WordFault Style :=
  match lowerCase word with
  | "pretty" | "dev" | "text" => .ok .pretty
  | "json" | "prod" => .ok .json
  | _ => .error (.style word)

structure Config where
  level : Option Level
  style : Style
  file : Option String
  deriving DecidableEq, Repr

/-- A format that cannot be read counts as the pretty one, an empty file name as none. -/
def Config.ofEnvironment (style file : Option String) : Config :=
  { level := none
    style := (style.bind fun word => (Style.parse word).toOption).getD .pretty
    file := file.filter (!·.isEmpty) }

def styleVariable : String := "STACKLINE_LOG_FORMAT"
def fileVariable : String := "STACKLINE_LOG_FILE"

end Symbolizer.Logging
