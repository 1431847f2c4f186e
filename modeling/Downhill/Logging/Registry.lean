import Downhill.Fault
import Downhill.Logging.Format
import Downhill.Report.Text

/-!
# Logger registry

Loggers by name, each with a level and its handlers.  Names live in one
namespace.  All loggers share the level that was last set for all of them, which
is also the level of a logger that is created later.  A handler writes records of
its level and above to a stream.
-/

namespace Downhill
namespace Logging

/-- Where a handler writes: the standard error stream, or a stream of the given
name. -/
inductive Stream
  | standardError
  | named (name : String)
  deriving DecidableEq, Repr

structure Handler where
  level : Int
  format : Format
  stream : Stream
  deriving DecidableEq, Repr

structure Logger where
  name : String
  level : Int
  propagate : Bool
  handlers : List Handler
  deriving DecidableEq, Repr

/-- All loggers, the level of new ones, and what has been written and not been
read yet, the oldest first. -/
structure Registry where
  loggers : List Logger
  defaultLevel : Int
  written : List (Stream × String)
  deriving DecidableEq, Repr

inductive LevelDraft
  | number (level : Int)
  | name (name : String)
  /-- Something that is no level at all. -/
  | other
  deriving DecidableEq, Repr

namespace Level

def warning : Int := 30

def named : List (String × Int) :=
  [("NOTSET", 0), ("DEBUG", 10), ("INFO", 20), ("WARN", 30), ("WARNING", 30), ("ERROR", 40),
    ("CRITICAL", 50), ("FATAL", 50)]

def shown (level : Int) : String :=
  if level = 0 then "NOTSET"
  else if level = 10 then "DEBUG"
  else if level = 20 then "INFO"
  else if level = 30 then "WARNING"
  else if level = 40 then "ERROR"
  else if level = 50 then "CRITICAL"
  else "Level " ++ toString level

/-- The capital letters of a letter.  Letters whose capitals are in no name stay. -/
def capitals (c : Char) : List Char :=
  if c = '\u0131' then ['I']
  else if c = '\u017f' then ['S']
  else if c = '\ufb05' ∨ c = '\ufb06' then ['S', 'T']
  else [c.toUpper]

/-- The level that is meant.  Names count in any case, and an unknown name means
the warning level.  Two names are taken by a text and a table. -/
def resolve : LevelDraft → Except Fault Int
  | .number level => .ok level
  | .name name =>
    let name := String.ofList (name.toList.flatMap capitals)
    if name = "BASIC_FORMAT" then .error .levelText
    else if name = "_STYLES" then .error .levelKind
    else .ok ((named.lookup name).getD warning)
  | .other => .error .levelKind

end Level

namespace Registry

def root : String := "descentkit"

/-- The full name of a logger.  No name stands for the logger of the namespace,
and a name outside it is put inside. -/
def fullName : Option String → String
  | none => root
  | some name =>
    if name = root || name.startsWith (root ++ ".") then name else root ++ "." ++ name

def find? (r : Registry) (name : String) : Option Logger := r.loggers.find? (·.name = name)

def newLogger (name : String) (level : Int) : Logger :=
  { name, level, propagate := false, handlers := [⟨level, Format.standard, .standardError⟩] }

/-- The logger of a full name, which is created if there is none. -/
def getFull (r : Registry) (name : String) : Logger × Registry :=
  match r.find? name with
  | some logger => (logger, r)
  | none =>
    let logger := newLogger name r.defaultLevel
    (logger, { r with loggers := r.loggers ++ [logger] })

def get (r : Registry) (name : Option String) : Logger × Registry := r.getFull (fullName name)

def initial : Registry where
  loggers := [Report.searchLogger, Report.descentLogger, Report.stochasticLogger].map
    (newLogger · Level.warning)
  defaultLevel := Level.warning
  written := []

/-- Set the level of all loggers and handlers, and of loggers to come.  What is no
level changes nothing. -/
def setLevel (r : Registry) (draft : LevelDraft) : Except Fault Registry := do
  let level ← Level.resolve draft
  return { r with
    loggers := r.loggers.map fun logger =>
      { logger with level, handlers := logger.handlers.map fun handler => { handler with level } }
    defaultLevel := level }

/-- The format of a text.  No text and an empty one stand for the standard
format. -/
def chooseFormat : Option String → Except Fault Format
  | none => .ok Format.standard
  | some text =>
    if text.isEmpty then .ok Format.standard else Fault.orElse .logFormat (Format.parse? text)

/-- Give every logger one new handler, and set all levels.  A text that is no
format and what is no level change nothing. -/
def configure (r : Registry) (draft : LevelDraft) (format : Option String) (stream : Stream) :
    Except Fault Registry := do
  let format ← chooseFormat format
  let level ← Level.resolve draft
  return { r with
    loggers := r.loggers.map fun logger =>
      { logger with level, handlers := [⟨level, format, stream⟩] }
    defaultLevel := level }

/-! ## Records -/

/-- The names that contain a dotted name, the nearest first. -/
def ancestors (name : String) : List String :=
  let letters := name.toList
  (List.range letters.length).reverse.filterMap fun i =>
    if letters[i]? = some '.' then some (String.ofList (letters.take i)) else none

/-- The level from which a logger emits.  A logger of level zero takes the level
of the nearest logger above it that has one. -/
def effectiveLevel (r : Registry) (logger : Logger) : Int :=
  let levels := logger.level :: (ancestors logger.name).filterMap fun name =>
    (r.find? name).map (·.level)
  (levels.find? (· ≠ 0)).getD Level.warning

def ownValues (record : LogRecord) : List (String × Value) :=
  [("name", .text record.logger), ("msg", .text record.text), ("args", .symbol "()"),
    ("levelname", .text (Level.shown record.level)), ("levelno", .number record.level)]

/-- The fields of a record that are the same for all records, and its message. -/
def commonValues (record : LogRecord) : List (String × Value) :=
  [("message", .text record.text), ("exc_info", .symbol "None"), ("exc_text", .symbol "None"),
    ("stack_info", .symbol "None"), ("threadName", .text "MainThread"),
    ("processName", .text "MainProcess")]

def fieldValue (record : LogRecord) (field : String) : Option Value :=
  (ownValues record ++ commonValues record).lookup field

/-- A record as a whole, by the fields it begins with. -/
def wholeRecord (record : LogRecord) : Value :=
  let shown := (ownValues record).map fun (key, value) =>
    Text.quote key ++ ": " ++ Style.quoted Text.quote value
  .symbol ("\x7b" ++ ", ".intercalate shown ++ "\x7d")

/-- What a handler writes for a record: one line, or nothing if the record lies
below its level or does not fit its format. -/
def emit? (record : LogRecord) (handler : Handler) : Option (Stream × String) :=
  if handler.level ≤ record.level then
    let line? := handler.format.render? (wholeRecord record) (fieldValue record)
    line?.map fun line => (handler.stream, line ++ "\n")
  else none

/-- Hand a record to the logger it names.  Levels up to zero are never emitted. -/
def log (r : Registry) (record : LogRecord) : Registry :=
  let (logger, r) := r.getFull record.logger
  if 0 < record.level ∧ r.effectiveLevel logger ≤ record.level then
    { r with written := r.written ++ logger.handlers.filterMap (emit? record) }
  else r

def logAll (r : Registry) (records : List LogRecord) : Registry := records.foldl log r

def logEvents (r : Registry) (events : List (Event Float)) : Registry :=
  r.logAll (events.filterMap Event.record?)

/-! ## Reading -/

def isLineEnd (c : Char) : Bool :=
  [0x0a, 0x0b, 0x0c, 0x0d, 0x1c, 0x1d, 0x1e, 0x85, 0x2028, 0x2029].contains c.toNat

/-- The lines of a text.  A carriage return and a line feed after it end one line
together.  `current` holds the letters of the line so far, the last first. -/
def splitLines (current : List Char) : List Char → List String
  | [] => if current.isEmpty then [] else [finish current]
  | '\r' :: '\n' :: rest => finish current :: splitLines [] rest
  | c :: rest =>
    if isLineEnd c then finish current :: splitLines [] rest else splitLines (c :: current) rest
where
  finish (letters : List Char) : String := String.ofList letters.reverse

/-- The lines written to a stream since it was last read. -/
def read (r : Registry) (stream : Stream) : List String × Registry :=
  let (mine, others) := r.written.partition fun entry => entry.1 = stream
  (splitLines [] (String.join (mine.map (·.2))).toList, { r with written := others })

end Registry

end Logging
end Downhill
