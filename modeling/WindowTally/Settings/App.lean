import WindowTally.Settings.Processing

/-!
# All settings of the program

Processing settings, the names of its input and output, and what it logs.
`AppSettings.check` names the first rule that settings break; the text of a log
level is not looked into before the log filter is made. How filters are written is
known to those who read them (`FilterReader`).
-/
namespace WindowTally

/-- Where records come from and where word counts go.
mirrors `BindingsConfig` -/
structure Bindings where
  input : String := "words"
  output : String := "counts"
  contentType : String := "application/json"
  deriving DecidableEq, Repr

/-- What is logged, and whether as JSON.
mirrors `telemetry.LoggingConfig` -/
structure Logging where
  level : String := "info"
  json : Bool := false
  deriving DecidableEq, Repr

/-- How log filters are read: a text makes a filter or is refused for a reason. Some texts break the
reader, so that there is no answer. -/
abbrev FilterReader (φ : Type) := String → Option (Except String φ)

/-- The log filter: the preset one if it can be read, otherwise the one that the level describes.
mirrors `telemetry.LoggingConfig.env_filter` -/
def Logging.filter {φ : Type} (read : FilterReader φ) (preset : Option String) (l : Logging) :
    Option (Except Fault φ) :=
  match preset.map read with
  | some none => none
  | some (some (.ok filter)) => some (.ok filter)
  | _ => (read l.level).map fun answer =>
    answer.mapError fun reason => .settings (.logFilter l.level reason)

/-- All settings.
mirrors `AppConfig` -/
structure AppSettings where
  processing : ProcessingSettings := {}
  bindings : Bindings := {}
  logging : Logging := {}
  deriving DecidableEq, Repr

/-- Why there are no settings to start with. -/
inductive AppFault where
  /-- A layer could not be read, or does not fit the settings. -/
  | unreadable
  | processing (fault : Fault)
  | destinations
  | contentType (given : String)
  | blankLevel
  deriving DecidableEq, Repr

/-- The text of a fault; a layer that could not be read has a text of its own. -/
def AppFault.message? : AppFault → Option String
  | unreadable => none
  | processing fault => some ("Invalid configuration: " ++ fault.message)
  | destinations => some "Invalid configuration: Input and output destinations are required"
  | contentType given => some s!"Invalid configuration: Unsupported content type '{given}'"
  | blankLevel => some "Invalid configuration: Logging level must not be empty"

/-- The first rule that the bindings break, if any.
mirrors `BindingsConfig.validate` -/
def Bindings.check (b : Bindings) : Except AppFault Unit :=
  if Text.isBlank b.input || Text.isBlank b.output then .error .destinations
  else if b.contentType ≠ "application/json" then .error (.contentType b.contentType)
  else .ok ()

/-- The first rule that the settings break, if any.
mirrors `AppConfig.validate` -/
def AppSettings.check (s : AppSettings) : Except AppFault Unit :=
  match s.processing.check with
  | .error fault => .error (.processing fault)
  | .ok _ =>
    match s.bindings.check with
    | .error fault => .error fault
    | .ok _ => if Text.isBlank s.logging.level then .error .blankLevel else .ok ()

end WindowTally
