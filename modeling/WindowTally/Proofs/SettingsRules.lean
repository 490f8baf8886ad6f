import Mathlib.Tactic.MkIffOfInductiveProp
import WindowTally.Aggregator
import WindowTally.Settings.Layers

/-!
# The rules for settings

Settings are in order (`ProcessingSettings.Valid`) if they keep ten rules. The rules are looked
at one after the other, and the first one that is broken gives the fault (`check_eq`), whatever
else is wrong with the settings.

Settings are looked at twice where an aggregator is made: first the windows are made, then
everything is checked, the windows once more. It comes to the same: both ways agree on which
settings are in order and on the fault of those that are not (`check_iff_ofSettings`). Settings
that are loaded are in order.
-/
namespace WindowTally

/-! ## Rules -/

/-- A rule: whether it is broken, and the fault that says so. -/
structure Rule where
  broken : Bool
  fault : Fault

namespace Rule

/-- What rules come to: the first one that is broken decides. -/
def verdict (rules : List Rule) : Except Fault Unit :=
  match rules.find? (·.broken) with
  | some r => .error r.fault
  | none => .ok ()

theorem verdict_nil : verdict [] = .ok () := rfl

theorem verdict_cons (r : Rule) (rules : List Rule) :
    verdict (r :: rules) = if r.broken then .error r.fault else verdict rules := by
  unfold verdict
  cases h : r.broken with
  | true => simp [h]
  | false => simp [h]

variable {rules : List Rule}

theorem verdict_eq_ok_iff : verdict rules = .ok () ↔ ∀ r ∈ rules, r.broken = false := by
  unfold verdict
  split
  · next r hr =>
    have hbroken := List.find?_some hr
    simp only [reduceCtorEq, false_iff]
    intro hall
    rw [hall r (List.mem_of_find?_eq_some hr)] at hbroken
    cases hbroken
  · next hnone => simpa using hnone

theorem verdict_eq_error_iff {fault : Fault} :
    verdict rules = .error fault ↔ (rules.find? (·.broken)).map (·.fault) = some fault := by
  unfold verdict
  split
  · next r hr => simp [hr]
  · next hnone => simp [hnone]

end Rule

open Rule (verdict_nil verdict_cons)

/-- The rules for delivery settings, in the order in which they are looked at. -/
def DeliverySettings.rules (s : DeliverySettings) : List Rule := [
  ⟨s.maxInFlight = 0, .settings .nothingInFlight⟩,
  ⟨s.bufferSize = 0, .settings .noBuffer⟩,
  ⟨s.maxBackoff < s.baseBackoff, .settings .backoffAboveLimit⟩]

theorem DeliverySettings.check_eq (s : DeliverySettings) : s.check = Rule.verdict s.rules := by
  simp only [check, rules, verdict_cons, verdict_nil, decide_eq_true_eq]

namespace ProcessingSettings

/-- The rules for processing settings, in the order in which they are looked at. -/
def rules (s : ProcessingSettings) : List Rule := [
  ⟨s.windowLength ≤ 0, .window (.lengthNotPositive s.windowLength)⟩,
  ⟨s.windowLength < s.advance, .window (.advanceTooLong s.advance s.windowLength)⟩,
  ⟨s.advance < 0, .settings .negativeAdvance⟩,
  ⟨s.grace < 0, .settings .negativeGrace⟩,
  ⟨s.allowance < 0, .settings .negativeAllowance⟩,
  ⟨s.commitInterval = 0, .settings .noCommitInterval⟩,
  ⟨Text.isBlank s.store, .settings .blankStore⟩] ++ s.delivery.rules

/-- Settings that are in order. -/
@[mk_iff]
structure Valid (s : ProcessingSettings) : Prop where
  length_pos : 0 < s.windowLength
  advance_nonneg : 0 ≤ s.advance
  advance_le : s.advance ≤ s.windowLength
  grace_nonneg : 0 ≤ s.grace
  allowance_nonneg : 0 ≤ s.allowance
  commitInterval_pos : 0 < s.commitInterval
  store_not_blank : ∃ c ∈ s.store.toList, Text.isWhiteSpace c = false
  inFlight_pos : 0 < s.delivery.maxInFlight
  buffer_pos : 0 < s.delivery.bufferSize
  backoff_le : s.delivery.baseBackoff ≤ s.delivery.maxBackoff

variable {s : ProcessingSettings}

theorem valid_iff_forall : s.Valid ↔ ∀ r ∈ s.rules, r.broken = false := by
  have hstore : Text.isBlank s.store = false ↔
      ∃ c ∈ s.store.toList, Text.isWhiteSpace c = false := by
    simp [Text.isBlank]
  have hpos (n : UInt64) : ¬ n = 0 ↔ 0 < n := by
    rw [UInt64.lt_iff_toNat_lt, ← UInt64.toNat_inj, UInt64.toNat_zero]
    omega
  rw [valid_iff]
  simp only [rules, DeliverySettings.rules, List.forall_mem_append, List.forall_mem_cons,
    decide_eq_false_iff_not, Int64.not_le, Int64.not_lt, UInt64.not_lt, hstore, hpos]
  grind

/-- Windows are made if the rules about them are kept. Otherwise the first one that is broken is the
fault. -/
theorem windows_cases (s : ProcessingSettings) :
    (∃ fault, s.windows = .error fault ∧ Rule.verdict s.rules = .error fault) ∨
    ∃ h, s.windows = .ok h ∧ ¬ s.windowLength ≤ 0 ∧ ¬ s.windowLength < s.advance := by
  simp only [rules, List.cons_append, verdict_cons, decide_eq_true_eq]
  unfold windows Hopping.make
  split
  · next hlength => exact .inl ⟨_, rfl, rfl⟩
  · next hlength =>
    split
    · next hadvance =>
      have hshort : ¬ s.windowLength < s.advance := by
        rw [Int64.not_lt]
        exact Int64.le_trans hadvance (Int64.le_of_lt (Int64.not_le.1 hlength))
      exact .inr ⟨_, rfl, hlength, hshort⟩
    · split
      · next hlong => exact .inl ⟨_, rfl, rfl⟩
      · next hlong => exact .inr ⟨_, rfl, hlength, hlong⟩

theorem le_of_windows {h : Hopping} (hwindows : s.windows = .ok h) :
    0 < s.windowLength ∧ s.advance ≤ s.windowLength := by
  rcases s.windows_cases with ⟨fault, hfault, -⟩ | ⟨-, -, hlength, hlong⟩
  · rw [hwindows] at hfault
    cases hfault
  · exact ⟨Int64.not_le.1 hlength, Int64.not_lt.1 hlong⟩

theorem check_eq (s : ProcessingSettings) : s.check = Rule.verdict s.rules := by
  rcases s.windows_cases with ⟨fault, hwindows, hfault⟩ | ⟨h, hwindows, hlength, hlong⟩
  · rw [check, hwindows, hfault]
  · rw [check, hwindows]
    simp only [rules, List.cons_append, List.nil_append, verdict_cons, decide_eq_true_eq,
      if_neg hlength, if_neg hlong, DeliverySettings.check_eq]

theorem check_eq_ok_iff : s.check = .ok () ↔ s.Valid := by
  rw [check_eq, valid_iff_forall, Rule.verdict_eq_ok_iff]

theorem check_eq_error_iff {fault : Fault} :
    s.check = .error fault ↔ (s.rules.find? (·.broken)).map (·.fault) = some fault := by
  rw [check_eq, Rule.verdict_eq_error_iff]

/-- Settings that are in order have windows. -/
theorem Valid.exists_windows (h : s.Valid) : ∃ windows, s.windows = .ok windows := by
  rcases s.windows_cases with ⟨fault, -, hfault⟩ | ⟨windows, hwindows, -⟩
  · rw [← check_eq, check_eq_ok_iff.2 h] at hfault
    cases hfault
  · exact ⟨windows, hwindows⟩

end ProcessingSettings

/-! ## Making an aggregator -/

namespace Aggregator

variable {s : ProcessingSettings} {a : Aggregator} {windows : Hopping} {fault : Fault}

/-- Settings that make an aggregator are in order, and it starts empty. -/
theorem ofSettings_eq_ok (ha : ofSettings s = .ok a) :
    ∃ windows, s.windows = .ok windows ∧ s.check = .ok () ∧
      a = { settings := s, windows := windows, tally := { store := s.store },
            frontier := Frontier.make s.grace s.allowance } := by
  unfold ofSettings at ha
  split at ha
  · cases ha
  · next windows hwindows =>
    unfold ofParts at ha
    cases hcheck : s.check with
    | error fault => rw [hcheck] at ha; cases ha
    | ok u => rw [hcheck] at ha; cases ha; exact ⟨windows, hwindows, rfl, rfl⟩

theorem valid_of_ofSettings (ha : ofSettings s = .ok a) : s.Valid := by
  obtain ⟨windows, -, hcheck, -⟩ := ofSettings_eq_ok ha
  exact ProcessingSettings.check_eq_ok_iff.1 hcheck

theorem ofSettings_of_valid (h : s.Valid) (hwindows : s.windows = .ok windows) :
    ofSettings s = .ok { settings := s, windows := windows, tally := { store := s.store },
                         frontier := Frontier.make s.grace s.allowance } := by
  simp only [ofSettings, hwindows, ofParts, ProcessingSettings.check_eq_ok_iff.2 h]
  rfl

theorem exists_ofSettings_iff : (∃ a, ofSettings s = .ok a) ↔ s.Valid := by
  constructor
  · rintro ⟨a, ha⟩
    exact valid_of_ofSettings ha
  · intro h
    obtain ⟨windows, hwindows⟩ := h.exists_windows
    exact ⟨_, ofSettings_of_valid h hwindows⟩

/-- The fault is the same whether the windows are made first or not. -/
theorem ofSettings_eq_error_iff : ofSettings s = .error fault ↔ s.check = .error fault := by
  rcases s.windows_cases with ⟨other, hwindows, hother⟩ | ⟨windows, hwindows, -⟩
  · rw [ofSettings, hwindows, s.check_eq, hother]
    simp only [Except.error.injEq]
  · rw [ofSettings, hwindows]
    simp only [ofParts]
    cases s.check with
    | error other => simp [Except.map]
    | ok u => simp [Except.map]

/-- The advance is the one that is set, or the length if none is. -/
theorem windows_of_ofSettings (ha : ofSettings s = .ok a) : a.windows.length = s.windowLength ∧
    a.windows.advance = if s.advance = 0 then s.windowLength else s.advance := by
  obtain ⟨windows, hwindows, -, rfl⟩ := ofSettings_eq_ok ha
  have hnonneg := (valid_of_ofSettings ha).advance_nonneg
  unfold ProcessingSettings.windows Hopping.make at hwindows
  split at hwindows
  · cases hwindows
  split at hwindows
  · next hadvance =>
    cases hwindows
    exact ⟨rfl, (if_pos (Int64.le_antisymm hadvance hnonneg)).symm⟩
  split at hwindows
  · cases hwindows
  · next hadvance _ =>
    cases hwindows
    refine ⟨rfl, (if_neg ?_).symm⟩
    rintro hzero
    exact hadvance (Int64.le_of_eq hzero)

end Aggregator

namespace AppSettings

variable {s : AppSettings} {file : Option String} {e : Environment}

theorem check_eq_ok_iff : s.check = .ok () ↔
    s.processing.Valid ∧ s.bindings.check = .ok () ∧ Text.isBlank s.logging.level = false := by
  rw [← ProcessingSettings.check_eq_ok_iff]
  unfold check
  cases s.processing.check with
  | error fault => simp
  | ok u =>
    cases s.bindings.check with
    | error fault => simp
    | ok u => simp

/-- Settings that are loaded have been checked. -/
theorem check_of_load (h : load file e = .ok s) : s.check = .ok () := by
  unfold load at h
  split at h
  · cases h
  · next t ht =>
    unfold accepted at h
    cases hcheck : t.check with
    | error fault => rw [hcheck] at h; cases h
    | ok u => rw [hcheck] at h; cases h; exact hcheck

end AppSettings

/-- Settings are accepted if they are in order, and then just as well make an aggregator, whose
windows advance by at least a millisecond and by no more than their length. Otherwise both ways give
the fault of the first rule that is broken. So loaded settings always make an aggregator. -/
theorem ProcessingSettings.check_iff_ofSettings (s : ProcessingSettings) :
    (s.check = .ok () ↔ s.Valid) ∧
    ((∃ a, Aggregator.ofSettings s = .ok a) ↔ s.Valid) ∧
    (∀ fault, s.check = .error fault ↔
      (s.rules.find? (·.broken)).map (·.fault) = some fault) ∧
    (∀ fault, Aggregator.ofSettings s = .error fault ↔ s.check = .error fault) ∧
    (∀ a, Aggregator.ofSettings s = .ok a →
      0 < a.windows.advance ∧ a.windows.advance ≤ s.windowLength ∧
      a.windows.length = s.windowLength ∧
      a.windows.advance = if s.advance = 0 then s.windowLength else s.advance) ∧
    ∀ file e app, AppSettings.load file e = .ok app →
      ∃ a, Aggregator.ofSettings app.processing = .ok a := by
  refine ⟨check_eq_ok_iff, Aggregator.exists_ofSettings_iff, fun fault => check_eq_error_iff,
    fun fault => Aggregator.ofSettings_eq_error_iff, ?_, ?_⟩
  · intro a ha
    obtain ⟨hlength, hadvance⟩ := Aggregator.windows_of_ofSettings ha
    exact ⟨a.windows.advance_pos, hlength ▸ a.windows.advance_le, hlength, hadvance⟩
  · intro file e app hload
    have hvalid := (AppSettings.check_eq_ok_iff.1 (AppSettings.check_of_load hload)).1
    exact Aggregator.exists_ofSettings_iff.2 hvalid

/-- Settings that keep every rule, settings that break three of them, and settings from a file. -/
theorem ProcessingSettings.check_iff_ofSettings_of_faults :
    (∃ a, Aggregator.ofSettings { windowLength := 7, advance := 7, store := " x" } = .ok a ∧
      0 < a.windows.advance ∧ a.windows.advance ≤ 7) ∧
    Aggregator.ofSettings { windowLength := 1000, advance := 5000, grace := -1, store := " " } =
      .error (.window (.advanceTooLong 5000 1000)) ∧
    ∃ app, AppSettings.load (some "processor:\n  advanceByMs: 9\n") {} = .ok app ∧
      ∃ a, Aggregator.ofSettings app.processing = .ok a := by
  refine ⟨?_, ?_, ?_⟩
  · obtain ⟨a, ha⟩ := (check_iff_ofSettings
      { windowLength := 7, advance := 7, store := " x" }).2.1.2 (by
        rw [← check_eq_ok_iff]
        rfl)
    obtain ⟨hpos, hle, -⟩ := (check_iff_ofSettings _).2.2.2.2.1 a ha
    exact ⟨a, ha, hpos, hle⟩
  · obtain ⟨-, -, hfault, herror, -⟩ := check_iff_ofSettings
      { windowLength := 1000, advance := 5000, grace := -1, store := " " }
    exact (herror _).2 ((hfault _).2 (by decide))
  · have hloaded : (AppSettings.load (some "processor:\n  advanceByMs: 9\n") {}).toOption.isSome :=
      by decide +kernel
    cases happ : AppSettings.load (some "processor:\n  advanceByMs: 9\n") {} with
    | error fault =>
      rw [happ] at hloaded
      cases hloaded
    | ok app => exact ⟨app, rfl, (check_iff_ofSettings app.processing).2.2.2.2.2 _ _ app happ⟩

end WindowTally
