/-!
# Errors

What can go wrong, by cause. The wording is in one place, `Error.message`.
-/

namespace CommandDesk

/-- Why an operation was refused. -/
inductive Error where
  | notInitialized
  | unknownCommand (name : String)
  | invalidCommandName (name : String)
  | invalidInputRef (text : String)
  | thresholdOutOfRange (name value : String)
  | rejectAboveDirect (reject direct : String)
  | noSuggestionsAllowed
  | emptySynonym
  | unknownPreset (id : String)
  | unknownHack (id : String)
  | unknownWord (kind word : String)
  /-- A document that is not well formed, or not of the right shape. -/
  | malformedDocument
  /-- A value that is not of the right shape. -/
  | malformedValue
  /-- A file that cannot be read or written. -/
  | fileAccess (path : String)
  deriving DecidableEq, Repr

namespace Error

/-- The text of an error. -/
def message : Error → String
  | notInitialized => "not initialized: run 'slashdash init'"
  | unknownCommand name => "unknown command: " ++ name
  | invalidCommandName name =>
    "invalid command name '" ++ name ++ "': must be lowercase words joined by hyphens"
  | invalidInputRef text =>
    "invalid input reference '" ++ text ++ "': expected <kind>:<id>"
  | thresholdOutOfRange name value =>
    "invalid threshold " ++ name ++ "=" ++ value ++ ": must be between 0 and 100"
  | rejectAboveDirect reject direct =>
    "invalid threshold reject_threshold=" ++ reject ++ ": must not exceed direct_threshold ("
      ++ direct ++ ")"
  | noSuggestionsAllowed => "invalid max_suggestions: must be at least 1"
  | emptySynonym => "invalid synonym: alias must not be empty"
  | unknownPreset id => "unknown preset: " ++ id
  | unknownHack id => "unknown hack: " ++ id
  | unknownWord kind word => "invalid " ++ kind ++ ": " ++ word
  | malformedDocument => "the document cannot be read"
  | malformedValue => "the value cannot be read"
  | fileAccess path => "cannot access " ++ path

end Error

end CommandDesk
