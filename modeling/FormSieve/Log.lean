import FormSieve.Json.Printer

/-!
# Log lines

One event is one line, a JSON object: the event, its severity, and then its fields in the order
of their names. Fields of the same name keep the order in which they were given. Since a JSON
text has no line break in it, a line can never pass for two.
-/

namespace FormSieve

inductive Severity where
  | info
  /-- A rejected request. -/
  | warning
  /-- A failure that the caller cannot mend. -/
  | error
deriving DecidableEq, Repr

def Severity.name : Severity → String
  | info => "INFO"
  | warning => "WARN"
  | error => "ERROR"

/-- Where a line is written. -/
inductive Stream where
  | output
  | diagnostics
deriving DecidableEq, Repr

def Severity.stream : Severity → Stream
  | error => .diagnostics
  | _ => .output

structure LogLine where
  severity : Severity
  event : String
  fields : List (String × String)
deriving DecidableEq, Repr

namespace LogLine

/-- The fields in the order of their names. -/
def sortedFields (line : LogLine) : List (String × String) :=
  line.fields.mergeSort fun a b => Text.order a.1 b.1 ≠ .gt

/-- The members of the written object. -/
def members (line : LogLine) : List (String × String) :=
  ("event", line.event) :: ("severity", line.severity.name) :: line.sortedFields

/-- The line with its line break. -/
def render (line : LogLine) : String :=
  Json.printRecord (line.members.map fun m => (m.1, Json.printText m.2)) ++ "\n"

end LogLine

/-- What log lines say about the request they belong to. -/
structure RequestContext where
  requestId : String
  formId : String
deriving DecidableEq, Repr

/-- A line about a request. -/
def RequestContext.line (context : RequestContext) (severity : Severity) (event : String)
    (fields : List (String × String)) : LogLine where
  severity := severity
  event := event
  fields := ("request_id", context.requestId) :: ("form_id", context.formId) :: fields

/-- What some log lines put on a stream. -/
def written (stream : Stream) (lines : List LogLine) : String :=
  String.join ((lines.filter (·.severity.stream = stream)).map LogLine.render)

end FormSieve
