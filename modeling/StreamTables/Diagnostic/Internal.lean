import StreamTables.Diagnostic.Basic

/-!
# Reports of internal errors

A failure that should not be possible is reported with the place in the program where it was seen
and with all that a bug report needs.

## What is here

* `Site`: a place in the program.
* `Host`: where the program runs.
* `Diagnostic.internal`: the report.
-/

set_option autoImplicit false

namespace StreamTables

/-- A place in the program. -/
structure Site where
  file : String
  line : Nat
  column : Nat
  function : String
  modulePath : String

/-- The place of which nothing is known. -/
def Site.unknown : Site := ⟨"unknown", 0, 0, "unknown", "unknown"⟩

/-- The machine that the program runs on. -/
structure Host where
  system : String
  architecture : String

/-- The version of the program. -/
def version : String := "0.4.13"

namespace Site

/-- A text without any occurrence of the extension of program files. -/
def dropExtension : List Char → List Char
  | '.' :: 'r' :: 's' :: rest => dropExtension rest
  | c :: rest => c :: dropExtension rest
  | [] => []

/-- The last segment of a path. -/
def lastSegment (path : List Char) : List Char :=
  (path.reverse.takeWhile (· ≠ '/')).reverse

/-- The name by which an error at this place is known. -/
def errorId (s : Site) : String :=
  "ERR-" ++ String.ofList (dropExtension (lastSegment s.file.toList)) ++ ":" ++
    Digits.natText s.line

/-- File, line and column. -/
def position (s : Site) : String :=
  s.file ++ ":" ++ Digits.natText s.line ++ ":" ++ Digits.natText s.column

end Site

/-- What is asked of the user. -/
def internalHelp (site : Site) (host : Host) : String :=
  "This is an internal error that should never occur in normal operation.\n\n" ++
    "Include the following information in a bug report:\n" ++
    "Error ID: " ++ site.errorId ++ "\n" ++
    "Location: " ++ site.position ++ "\n" ++
    "Function: " ++ site.function ++ "\n" ++
    "Module: " ++ site.modulePath ++ "\n" ++
    "Version: " ++ version ++ "\n" ++
    "Platform: " ++ host.system ++ " " ++ host.architecture

/-- The report of an internal error. -/
def Diagnostic.internal (reason : String) (site : Site) (host : Host) : Diagnostic :=
  { top :=
      { code := internalCode
        statement := none
        message := "Internal error [" ++ site.errorId ++ "]: " ++ reason
        column := none
        label := some ("Internal invariant violated at " ++ site.position)
        help := some (internalHelp site host)
        notes :=
          ["Error occurred in function: " ++ site.function,
            "This error indicates an inconsistency between persisted source metadata and the " ++
              "engine.",
            "The affected query must be stopped; retrying will fail the same way."] }
    causes := [] }

end StreamTables
