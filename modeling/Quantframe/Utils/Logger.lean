import Quantframe.Utils.Text

/-!
# The logger

What one log line adds to the cache, the sink, the console and the log files.
-/

namespace Quantframe.Utils

open Lib
open LogParser (Text)

inductive LogLevel where
  | info
  | warning
  | error
  | debug
  | trace
  | critical
  deriving DecidableEq, Repr

/-- `LogLevel::prefix`. -/
def LogLevel.prefixText : LogLevel → Text
  | .info => "INFO".toList
  | .warning => "WARNING".toList
  | .error => "ERROR".toList
  | .debug => "DEBUG".toList
  | .trace => "TRACE".toList
  | .critical => "CRITICAL".toList

def LogLevel.priority : LogLevel → Nat
  | .debug => 0
  | .trace => 1
  | .info => 2
  | .warning => 3
  | .error => 4
  | .critical => 5

structure LoggerOptions where
  console : Bool
  file : Option Text
  showTime : Bool
  showComponent : Bool
  showElapsedTime : Bool
  showLevel : Bool
  color : Bool
  centered : Bool
  width : Nat
  enable : Bool

def LoggerOptions.default : LoggerOptions where
  console := true
  file := none
  showTime := true
  showComponent := true
  showElapsedTime := true
  showLevel := true
  color := true
  centered := false
  width := 0
  enable := true

/-- The process-wide settings and what a line needs from outside. -/
structure Logging where
  filterComponents : List Text
  minLogLevel : Option LogLevel
  /-- The time and the elapsed time as the line shows them. -/
  now : Text
  elapsed : Text
  removeAnsiCodes : Text → Text

structure CachedLogEntry where
  level : LogLevel
  message : Text

/-- The cache, and the lines given to the sink, the console and each file. -/
structure Logs where
  cached : List CachedLogEntry
  sunk : List (LogLevel × Text)
  printed : List Text
  files : List (Text × Text)

def maxCachedLogs : Nat := 10000

/-- `Vec::drain(0..n)`. -/
def drainFront {α : Type} (entries : List α) (n : Nat) : Except Panic (List α) :=
  if n ≤ entries.length then .ok (entries.drop n) else .error (.outOfRange n)

def cacheLogEntry (level : LogLevel) (message : Text) (entries : List CachedLogEntry) :
    Except Panic (List CachedLogEntry) := do
  let entries ←
    (if maxCachedLogs ≤ entries.length then
      let overflow := entries.length + 1 - maxCachedLogs
      drainFront entries overflow
    else .ok entries)
  return entries ++ [⟨level, message⟩]

def escape : Char := Char.ofNat 27

def formatText (text : Text) (color : String) (bold useColor : Bool) : Text :=
  if useColor then
    let colorCode :=
      match color with
      | "red" => "31"
      | "green" => "32"
      | "yellow" => "33"
      | "blue" => "34"
      | "magenta" => "35"
      | "cyan" => "36"
      | "white" => "37"
      | "orange" => "38;5;208"
      | _ => "0"
    let weight := if bold then "1;" else ""
    escape :: '[' :: weight.toList ++ colorCode.toList ++ 'm' :: text ++ escape :: "[0m".toList
  else text

def formatSquareBracket (msg : Text) (useColor : Bool) : Text :=
  formatText ['['] "cyan" false useColor ++ msg ++ formatText [']'] "cyan" false useColor

def levelColor : LogLevel → String
  | .info => "green"
  | .warning => "yellow"
  | .error => "red"
  | .debug => "blue"
  | .trace => "cyan"
  | .critical => "red"

/-- The message between dashes; `none` when it does not fit. -/
def centre (options : LoggerOptions) (message : Text) : Option Text :=
  if options.centered then
    let width := min options.width 80
    if width ≤ byteLen message then none
    else
      let padding := width - byteLen message
      let leftPadding := padding / 2
      some (List.replicate leftPadding '-' ++ message ++ List.replicate (padding - leftPadding) '-')
  else some message

def dolog (logging : Logging) (level : LogLevel) (component msg : Text) (options : LoggerOptions) (logs : Logs) :
    Except Panic Logs :=
  if !options.enable then .ok logs
  else if !logging.filterComponents.isEmpty && !logging.filterComponents.contains component then .ok logs
  else if logging.minLogLevel.any fun minLevel => level.priority < minLevel.priority then .ok logs
  else
    match centre options msg with
    | none => .ok logs
    | some message => do
      let bracket (shown : Bool) (text : Text) : Text :=
        if shown then formatSquareBracket text options.color ++ [' '] else []
      let front :=
        bracket options.showTime logging.now ++ bracket options.showElapsedTime logging.elapsed ++
          bracket options.showLevel (formatText level.prefixText (levelColor level) true options.color) ++
          bracket options.showComponent (formatText component "magenta" true options.color)
      let message := front ++ formatText message "white" false options.color
      let cleanMessage := logging.removeAnsiCodes message
      let cached ← cacheLogEntry level cleanMessage logs.cached
      return {
        cached := cached
        sunk := logs.sunk ++ [(level, cleanMessage)]
        printed := if options.console then logs.printed ++ [LogParser.trim message] else logs.printed
        -- the source unwraps `open` here: a file that cannot be opened is left out
        files := (options.file.map fun name => logs.files ++ [(name, cleanMessage)]).getD logs.files }

/-- The cache drains no more than it has. -/
theorem returns_cacheLogEntry (level : LogLevel) (message : Text) (entries : List CachedLogEntry) :
    Returns (cacheLogEntry level message entries) := by
  rw [cacheLogEntry, returns_bind_of fun _ => returns_pure _]
  split
  · next hfull =>
      have hdrain : entries.length + 1 - maxCachedLogs ≤ entries.length := by
        rw [maxCachedLogs] at hfull ⊢
        omega
      simp only [drainFront]
      rw [if_pos hdrain]
      exact returns_ok _
  · exact returns_ok _

theorem returns_dolog (logging : Logging) (level : LogLevel) (component msg : Text) (options : LoggerOptions)
    (logs : Logs) : Returns (dolog logging level component msg options logs) := by
  rw [dolog]
  split
  · exact returns_ok _
  · split
    · exact returns_ok _
    · split
      · exact returns_ok _
      · split
        · exact returns_ok _
        · rw [returns_bind_of fun _ => returns_pure _]
          exact returns_cacheLogEntry _ _ _

end Quantframe.Utils
