import ServiceGraph.CommandLine.Request
import ServiceGraph.Json.Printer
import ServiceGraph.Settings.Basic

/-!
# Screens

A `Screen` decides how the results of a command look: in which format, whether at all, and in
which colours. Only text for people has colours. A result in JSON is shown even when little output
is asked for, since it is the result itself.
-/

set_option autoImplicit false

namespace ServiceGraph.CommandLine

/-- What a line of text is. -/
inductive Line where
  | heading (text : String)
  | text (text : String)
  | success (text : String)
  | warning (text : String)
  deriving DecidableEq, Repr

namespace Line

/-- A line without colours. -/
def plain : Line → String
  | .heading s => s
  | .text s => s
  | .success s => "ok: " ++ s
  | .warning s => "warning: " ++ s

/-- The codes that start and end the colour of a line. -/
def codes : Line → String × String
  | .heading _ => ("\x1b[1m", "\x1b[0m")
  | .text _ => ("", "")
  | .success _ => ("\x1b[32m", "\x1b[39m")
  | .warning _ => ("\x1b[33m", "\x1b[39m")

/-- A line with colours. -/
def colored (l : Line) : String := l.codes.1 ++ l.plain ++ l.codes.2

end Line

/-- How results are shown. -/
structure Screen where
  /-- The format, which is not `auto`. -/
  format : OutputFormat
  quiet : Bool
  colors : Bool
  deriving DecidableEq, Repr

namespace Screen

/-- The format that is asked for by options or, when they leave it open, by settings. -/
def requested (o : GlobalOptions) (s : Settings) : OutputFormat :=
  if o.format = .auto then (OutputFormat.ofNameInAnyCase? s.format).getD .auto else o.format

/-- The screen of a run; `terminal` tells whether the output is one. -/
def ofOptions (o : GlobalOptions) (s : Settings) (terminal : Bool) : Screen :=
  let format :=
    match requested o s with
    | .auto => if terminal then .human else .plain
    | format => format
  { format, quiet := o.quiet, colors := !o.noColor && !s.noColor && format = .human }

/-- The text of lines. -/
def lines (s : Screen) (l : List Line) : String :=
  if s.quiet then ""
  else String.join (l.map fun line => (if s.colors then line.colored else line.plain) ++ "\n")

/-- The text of a result in JSON. -/
def json (value : Json) : String := value.pretty ++ "\n"

end Screen

end ServiceGraph.CommandLine
