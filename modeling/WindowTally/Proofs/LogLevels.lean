import WindowTally.Proofs.SettingsRules

/-!
# Which levels make a log filter

A log level is accepted with the other settings if it is not blank
(`AppSettings.check_of_level`). Whether it describes a log filter is found out where the filter is
made, by a reader of which nothing is known here (`FilterReader`).

So loaded settings make a filter just when the reader takes their level, and the rules for settings
have no part in that: they would accept any other level as well that is not blank
(`Logging.filter_iff_of_load`). A level that the reader refuses is reported as a fault of the
settings, which names it, and not before the filter is made (`Logging.not_exists_filter_of_load`).
-/
namespace WindowTally

namespace Logging

variable {φ : Type} {read : FilterReader φ} {l : Logging}

/-- A filter is made just when the reader takes the level. -/
theorem filter_eq_ok_iff {filter : φ} :
    l.filter read none = some (.ok filter) ↔ read l.level = some (.ok filter) := by
  simp only [Logging.filter, Option.map_none]
  cases read l.level with
  | none => exact iff_of_false nofun nofun
  | some answer =>
    cases answer with
    | error reason => exact iff_of_false nofun nofun
    | ok filter =>
      -- The two sides differ in the type of their faults alone.
      constructor <;> rintro ⟨⟩ <;> rfl

/-- A level that the reader refuses gives a fault that names it. -/
theorem filter_eq_error_iff {fault : Fault} : l.filter read none = some (.error fault) ↔
    ∃ reason, read l.level = some (.error reason) ∧
      fault = .settings (.logFilter l.level reason) := by
  simp only [Logging.filter, Option.map_none]
  cases read l.level with
  | none => exact iff_of_false nofun nofun
  | some answer =>
    cases answer with
    | error reason =>
      constructor
      · rintro ⟨⟩
        exact ⟨reason, rfl, rfl⟩
      · rintro ⟨_, ⟨⟩, rfl⟩
        rfl
    | ok filter => exact iff_of_false nofun nofun

theorem filter_eq_none_iff : l.filter read none = none ↔ read l.level = none := by
  simp [Logging.filter]

end Logging

namespace AppSettings

/-- The rules want no more of a level than that it is not blank. -/
theorem check_of_level {s : AppSettings} (h : s.check = .ok ()) {level : String}
    (hlevel : Text.isBlank level = false) :
    ({ s with logging := { s.logging with level := level } } : AppSettings).check = .ok () := by
  obtain ⟨hprocessing, hbindings, -⟩ := check_eq_ok_iff.1 h
  exact check_eq_ok_iff.2 ⟨hprocessing, hbindings, hlevel⟩

end AppSettings

/-- Loaded settings have a level that is not blank, and any other such level would be accepted. With
no filter preset they make the filter that is read from the level. If the level is refused, the fault
names it and says why; if it breaks the reader, there is no answer. -/
theorem Logging.filter_iff_of_load {φ : Type} (read : FilterReader φ) {file : Option String}
    {e : Environment} {s : AppSettings} (hload : AppSettings.load file e = .ok s) :
    Text.isBlank s.logging.level = false ∧
    (∀ level, Text.isBlank level = false →
      ({ s with logging := { s.logging with level := level } } : AppSettings).check = .ok ()) ∧
    (∀ filter, s.logging.filter read none = some (.ok filter) ↔
      read s.logging.level = some (.ok filter)) ∧
    (∀ fault, s.logging.filter read none = some (.error fault) ↔
      ∃ reason, read s.logging.level = some (.error reason) ∧
        fault = .settings (.logFilter s.logging.level reason)) ∧
    (s.logging.filter read none = none ↔ read s.logging.level = none) := by
  have hcheck := AppSettings.check_of_load hload
  exact ⟨(AppSettings.check_eq_ok_iff.1 hcheck).2.2,
    fun level hlevel => AppSettings.check_of_level hcheck hlevel,
    fun filter => filter_eq_ok_iff, fun fault => filter_eq_error_iff, filter_eq_none_iff⟩

/-- Why a level that is no level is refused. -/
def noLevel : String :=
  "error parsing level filter: expected one of \"off\", \"error\", \"warn\", \"info\", " ++
    "\"debug\", \"trace\", or a number 0-5"

/-- A reader of the filters that are in use: directives, each a target, if it has one, and a level. -/
def readsInUse : FilterReader (List (Option String × String)) := fun text =>
  some <|
    if text = "processor=debug,info" then .ok [(some "processor", "debug"), (none, "info")]
    else if text = "info" then .ok [(none, "info")]
    else .error noLevel

/-- A file sets a level. -/
theorem exists_load_of_level (text level : String)
    (h : ((AppSettings.load (some text) {}).map (·.logging.level)).toOption = some level) :
    ∃ s, AppSettings.load (some text) {} = .ok s ∧ s.logging.level = level := by
  cases hload : AppSettings.load (some text) {} with
  | error fault =>
    rw [hload] at h
    cases h
  | ok s =>
    rw [hload] at h
    exact ⟨s, rfl, Option.some.inj h⟩

/-- The theorem for a file whose level has two directives. -/
theorem Logging.filter_of_processor_debug :
    ∃ s, AppSettings.load (some "logging:\n  level: processor=debug,info\n") {} = .ok s ∧
      s.logging.filter readsInUse none = some (.ok [(some "processor", "debug"), (none, "info")]) ∧
      ({ s with logging := { s.logging with level := "processor=loud" } } : AppSettings).check =
        .ok () := by
  obtain ⟨s, hload, hlevel⟩ := exists_load_of_level
    "logging:\n  level: processor=debug,info\n" "processor=debug,info" (by decide +kernel)
  obtain ⟨-, hany, hfilter, -⟩ := Logging.filter_iff_of_load readsInUse hload
  exact ⟨s, hload, (hfilter _).2 (hlevel ▸ rfl), hany _ (by decide +kernel)⟩

/-- A level that the reader refuses makes no filter, though it is loaded. -/
theorem Logging.not_exists_filter_of_load :
    (∃ s, AppSettings.load (some "logging:\n  level: processor=loud\n") {} = .ok s ∧
      s.logging.filter readsInUse none =
        some (.error (.settings (.logFilter "processor=loud" noLevel)))) ∧
    ¬ ∀ file e s, AppSettings.load file e = .ok s →
      ∃ filter, s.logging.filter readsInUse none = some (.ok filter) := by
  obtain ⟨s, hload, hlevel⟩ := exists_load_of_level
    "logging:\n  level: processor=loud\n" "processor=loud" (by decide +kernel)
  have hrefused : s.logging.filter readsInUse none =
      some (.error (.settings (.logFilter "processor=loud" noLevel))) := by
    rw [Logging.filter_eq_error_iff, hlevel]
    exact ⟨_, rfl, rfl⟩
  refine ⟨⟨s, hload, hrefused⟩, fun hall => ?_⟩
  obtain ⟨filter, hfilter⟩ := hall _ _ s hload
  rw [hrefused] at hfilter
  cases hfilter

end WindowTally
