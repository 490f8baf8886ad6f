import WindowTally.Proofs.JsonWriting
import WindowTally.Settings.Schemas

/-!
# Settings are read from any JSON that gives them

For each group of settings there is a table of the names of its fields (`names`), and a list of
the values of the fields (`values`). `ProcessingSettings.only` are the settings of which some are
given, the others having their defaults.

An object that gives some of the settings is read as just these settings, whichever names it uses
and whatever else there is in it; an object that gives a setting twice is refused; and settings
are read back as they are written (`ProcessingSettings.parse_given_fields`).
-/
namespace WindowTally

open Json (Value Laid Tells namedFields)

namespace DeliverySettings

/-- The names of the fields. -/
def names : List (String × String) := [
  ("max_retries", "max_retries"), ("base_backoff_ms", "base_backoff_ms"),
  ("max_backoff_ms", "max_backoff_ms"), ("max_in_flight", "max_in_flight"),
  ("buffer_size", "buffer_size")]

/-- The value of each field, under its own name. -/
def values (s : DeliverySettings) : List (String × Value) := [
  ("max_retries", .number (.integer s.maxRetries.toNat)),
  ("base_backoff_ms", .number (.integer s.baseBackoff.toNat)),
  ("max_backoff_ms", .number (.integer s.maxBackoff.toNat)),
  ("max_in_flight", .number (.integer s.maxInFlight.toNat)),
  ("buffer_size", .number (.integer s.bufferSize.toNat))]

/-- The settings that are given, and the defaults of the others. -/
def only (s : DeliverySettings) (given : List String) : DeliverySettings where
  maxRetries := if "max_retries" ∈ given then s.maxRetries else 3
  baseBackoff := if "base_backoff_ms" ∈ given then s.baseBackoff else 100
  maxBackoff := if "max_backoff_ms" ∈ given then s.maxBackoff else 5000
  maxInFlight := if "max_in_flight" ∈ given then s.maxInFlight else 4
  bufferSize := if "buffer_size" ∈ given then s.bufferSize else 1024

theorem copies (s : DeliverySettings) : schema.Copies s.values s.only where
  base := rfl
  apart := by decide
  copied :=
    .cons (Schema.copied_ofKind (Kind.json_word32 _) fun given => by simp [only])
    (.cons (Schema.copied_ofKind (Kind.json_word64 _) fun given => by simp [only])
    (.cons (Schema.copied_ofKind (Kind.json_word64 _) fun given => by simp [only])
    (.cons (Schema.copied_ofKind (Kind.json_size _) fun given => by simp [only])
    (.cons (Schema.copied_ofKind (Kind.json_size _) fun given => by simp [only]) .nil))))

/-- Delivery settings are read from an object that tells them. -/
theorem json_of_tells (s : DeliverySettings) {ms : List (String × Value)}
    (h : Tells names s.values ms) (ts : List Json.Token) :
    schema.kind.json ((Value.object ms).tokens ++ ts) = .ok (s.only (namedFields names ms), ts) := by
  have hreverse : s.only (namedFields names ms).reverse = s.only (namedFields names ms) := by
    simp only [only, List.mem_reverse]
  have hjson := Schema.json_of_tells s.copies h rfl ts
  rwa [show schema.names = names from rfl, hreverse] at hjson

theorem laid_toJson (s : DeliverySettings) : Laid (Value.object s.values).tokens s.toJson :=
  Json.laid_object (.cons ⟨rfl, Json.laid_word32 s.maxRetries⟩
    (.cons ⟨rfl, Json.laid_word64 s.baseBackoff⟩ (.cons ⟨rfl, Json.laid_word64 s.maxBackoff⟩
      (.cons ⟨rfl, Json.laid_word64 s.maxInFlight⟩ (.cons ⟨rfl, Json.laid_word64 s.bufferSize⟩
        .nil)))))

end DeliverySettings

namespace ProcessingSettings

/-- The names of the fields, each with the own name of its field. -/
def names : List (String × String) := [
  ("window_length_ms", "window_length_ms"), ("windowLengthMs", "window_length_ms"),
  ("advance_by_ms", "advance_by_ms"), ("advanceByMs", "advance_by_ms"),
  ("grace_ms", "grace_ms"), ("graceMs", "grace_ms"),
  ("store_name", "store_name"), ("storeName", "store_name"),
  ("commit_interval_ms", "commit_interval_ms"), ("commitIntervalMs", "commit_interval_ms"),
  ("max_out_of_order_ms", "max_out_of_order_ms"), ("maxOutOfOrderMs", "max_out_of_order_ms"),
  ("flush_on_close", "flush_on_close"), ("flushOnClose", "flush_on_close"),
  ("egress", "egress")]

/-- The value of each field, under its own name; `egress` are the members of the group of delivery
settings. -/
def values (s : ProcessingSettings) (egress : List (String × Value)) : List (String × Value) := [
  ("window_length_ms", .number (.integer s.windowLength.toInt)),
  ("advance_by_ms", .number (.integer s.advance.toInt)),
  ("grace_ms", .number (.integer s.grace.toInt)),
  ("store_name", .text (some s.store)),
  ("commit_interval_ms", .number (.integer s.commitInterval.toNat)),
  ("max_out_of_order_ms", .number (.integer s.allowance.toInt)),
  ("flush_on_close", .flag s.flushOnClose),
  ("egress", .object egress)]

/-- The settings that are given, and the defaults of the others; `delivery` are the delivery
settings that are given. -/
def only (s : ProcessingSettings) (delivery : DeliverySettings) (given : List String) :
    ProcessingSettings where
  windowLength := if "window_length_ms" ∈ given then s.windowLength else 5000
  advance := if "advance_by_ms" ∈ given then s.advance else 0
  grace := if "grace_ms" ∈ given then s.grace else 0
  store := if "store_name" ∈ given then s.store else "WordCounts"
  commitInterval := if "commit_interval_ms" ∈ given then s.commitInterval else 1000
  allowance := if "max_out_of_order_ms" ∈ given then s.allowance else 0
  flushOnClose := if "flush_on_close" ∈ given then s.flushOnClose else true
  delivery := if "egress" ∈ given then delivery else {}

theorem copies (s : ProcessingSettings) {egress : List (String × Value)}
    (hegress : Tells DeliverySettings.names s.delivery.values egress) :
    schema.Copies (s.values egress)
      (s.only (s.delivery.only (namedFields DeliverySettings.names egress))) where
  base := rfl
  apart := by decide
  copied :=
    .cons (Schema.copied_ofKind (Kind.json_millis _) fun given => by simp [only])
    (.cons (Schema.copied_ofKind (Kind.json_millis _) fun given => by simp [only])
    (.cons (Schema.copied_ofKind (Kind.json_millis _) fun given => by simp [only])
    (.cons (Schema.copied_ofKind (Kind.json_text _) fun given => by simp [only])
    (.cons (Schema.copied_ofKind (Kind.json_word64 _) fun given => by simp [only])
    (.cons (Schema.copied_ofKind (Kind.json_millis _) fun given => by simp [only])
    (.cons (Schema.copied_ofKind (Kind.json_flag _) fun given => by simp [only])
    (.cons (Schema.copied_ofKind (s.delivery.json_of_tells hegress) fun given => by simp [only])
      .nil)))))))

/-- What is written tells all fields. -/
theorem laid_toJson (s : ProcessingSettings) :
    Laid (Value.object (s.values s.delivery.values)).tokens s.toJson :=
  Json.laid_object (.cons ⟨rfl, Json.laid_millis s.windowLength⟩
    (.cons ⟨rfl, Json.laid_millis s.advance⟩ (.cons ⟨rfl, Json.laid_millis s.grace⟩
      (.cons ⟨rfl, Json.laid_quoted s.store⟩ (.cons ⟨rfl, Json.laid_word64 s.commitInterval⟩
        (.cons ⟨rfl, Json.laid_millis s.allowance⟩ (.cons ⟨rfl, Json.laid_flag s.flushOnClose⟩
          (.cons ⟨rfl, s.delivery.laid_toJson⟩ .nil))))))))

variable {s : ProcessingSettings} {ms before after egress inner rest : List (String × Value)}
  {name field text : String} {v : Value}

/-- Settings are read from every text of an object that tells them. -/
theorem parse_of_tells (hms : Tells names (s.values egress) ms)
    (hegress : Tells DeliverySettings.names s.delivery.values egress)
    (htext : Laid (Value.object ms).tokens text.toList) : schema.parse text =
      .ok (s.only (s.delivery.only (namedFields DeliverySettings.names egress))
        (namedFields names ms)) := by
  have hparse := Schema.parse_of_tells (s.copies hegress) hms rfl htext
  rw [hparse, show schema.names = names from rfl]
  simp only [only, List.mem_reverse]

/-- A delivery setting that is given again is a fault of the whole. -/
theorem parse_of_duplicate_egress (hbefore : Tells names (s.values []) before)
    (hnew : "egress" ∉ namedFields names before)
    (hinner : Tells DeliverySettings.names s.delivery.values inner)
    (hname : DeliverySettings.names.lookup name = some field)
    (hgiven : field ∈ namedFields DeliverySettings.names inner)
    (htext : Laid (Value.object (before ++
      ("egress", .object (inner ++ (name, v) :: rest)) :: after)).tokens text.toList) :
    schema.parse text = .error (.mismatch (.duplicate field)) := by
  have hnone : Tells DeliverySettings.names s.delivery.values [] := ⟨by simp, .nil⟩
  have hfresh : (namedFields names before).reverse.contains "egress" = false := by simpa using hnew
  refine Schema.parse_of_json_error (Schema.json_of_fault (s.copies hnone) hbefore ?_) htext
  intro ts
  have hjson : DeliverySettings.schema.kind.json
      ((Value.object (inner ++ (name, v) :: rest)).tokens ++ ts) =
        .error (.mismatch (.duplicate field)) :=
    Schema.json_of_duplicate s.delivery.copies hinner hname hgiven ts
  exact Schema.readMember_of_json_error _ rfl hfresh (Schema.json_ofKind_error hjson)

/-- Settings are read from every JSON text of an object that gives some of their fields, by either
name, in any order and among any other members; what is not given keeps its default. If a field is
given again, be it one of the delivery settings, reading fails and names the field by its own name.
What is written is read back. -/
theorem parse_given_fields (s : ProcessingSettings) :
    (∀ ms egress text, Tells names (s.values egress) ms →
      Tells DeliverySettings.names s.delivery.values egress →
      Laid (Value.object ms).tokens text.toList →
      schema.parse text = .ok (s.only
        (s.delivery.only (namedFields DeliverySettings.names egress)) (namedFields names ms))) ∧
    (∀ before name v after egress field text, Tells names (s.values egress) before →
      Tells DeliverySettings.names s.delivery.values egress →
      names.lookup name = some field → field ∈ namedFields names before →
      Laid (Value.object (before ++ (name, v) :: after)).tokens text.toList →
      schema.parse text = .error (.mismatch (.duplicate field))) ∧
    (∀ before inner name v rest after field text, Tells names (s.values []) before →
      "egress" ∉ namedFields names before →
      Tells DeliverySettings.names s.delivery.values inner →
      DeliverySettings.names.lookup name = some field →
      field ∈ namedFields DeliverySettings.names inner →
      Laid (Value.object (before ++
        ("egress", .object (inner ++ (name, v) :: rest)) :: after)).tokens text.toList →
      schema.parse text = .error (.mismatch (.duplicate field))) ∧
    schema.parse (String.ofList s.toJson) = .ok s := by
  refine ⟨?_, ?_, ?_, ?_⟩
  · intro ms egress text hms hegress htext
    exact parse_of_tells hms hegress htext
  · intro before name v after egress field text hbefore hegress hname hgiven htext
    exact Schema.parse_of_json_error
      (Schema.json_of_duplicate (s.copies hegress) hbefore hname hgiven) htext
  · intro before inner name v rest after field text hbefore hnew hinner hname hgiven htext
    exact parse_of_duplicate_egress hbefore hnew hinner hname hgiven htext
  · have hlaid := s.laid_toJson
    rw [← String.toList_ofList (l := s.toJson)] at hlaid
    obtain ⟨htells, hfields⟩ : Tells names (s.values s.delivery.values)
        (s.values s.delivery.values) ∧
        namedFields names (s.values s.delivery.values) = ["window_length_ms", "advance_by_ms",
          "grace_ms", "store_name", "commit_interval_ms", "max_out_of_order_ms",
          "flush_on_close", "egress"] := Json.tells_self rfl (by simp [values])
    obtain ⟨hdelivery, hinner⟩ : Tells DeliverySettings.names s.delivery.values s.delivery.values ∧
        namedFields DeliverySettings.names s.delivery.values = ["max_retries", "base_backoff_ms",
          "max_backoff_ms", "max_in_flight", "buffer_size"] :=
      Json.tells_self rfl (by simp [DeliverySettings.values])
    rw [parse_of_tells htells hdelivery hlaid, hfields, hinner]
    simp [only, DeliverySettings.only]

/-- Settings by another name and with a member that is passed over, and fields that are given
again. -/
theorem parse_given_fields_of_graceMs :
    schema.parse (String.ofList ('\n' :: Json.object [("graceMs", Json.integer 25),
      ("note", '[' :: (Json.flag true ++ [']'])),
      ("egress", Json.object [("buffer_size", Json.integer 9)])])) =
      .ok { grace := 25, delivery := { bufferSize := 9 } } ∧
    schema.parse (String.ofList (Json.object [("graceMs", Json.integer 25),
      ("grace_ms", Json.integer 25)])) = .error (.mismatch (.duplicate "grace_ms")) ∧
    schema.parse (String.ofList (Json.object [("egress", Json.object [
      ("buffer_size", Json.integer 9), ("buffer_size", Json.integer 9)])])) =
      .error (.mismatch (.duplicate "buffer_size")) := by
  have hnine : Laid [.number (.integer 9)] (Json.integer 9) := Json.laid_word64 9
  have hgrace : Laid [.number (.integer 25)] (Json.integer 25) := Json.laid_millis 25
  have hnote : Laid (Value.list [.flag true]).tokens ('[' :: (Json.flag true ++ [']'])) :=
    .token .listOpen ((Json.laid_flag true).append (Json.laid_token .listClose))
  obtain ⟨hparse, hagain, hagainEgress, -⟩ :=
    parse_given_fields { grace := 25, delivery := { bufferSize := 9 } }
  refine ⟨?_, ?_, ?_⟩
  · refine hparse [("graceMs", .number (.integer 25)), ("note", .list [.flag true]),
      ("egress", .object [("buffer_size", .number (.integer 9))])]
      [("buffer_size", .number (.integer 9))] _ ⟨?_, ?_⟩ ⟨?_, ?_⟩ ?_
    · simp [names, values, List.lookup_cons]
    · decide
    · simp [DeliverySettings.names, DeliverySettings.values, List.lookup_cons]
    · decide
    · rw [String.toList_ofList]
      exact .space (by simp) (Json.laid_object (.cons ⟨rfl, hgrace⟩ (.cons ⟨rfl, hnote⟩
        (.cons ⟨rfl, Json.laid_object (.cons ⟨rfl, hnine⟩ .nil)⟩ .nil))))
  · refine hagain [("graceMs", .number (.integer 25))] "grace_ms" (.number (.integer 25)) [] []
      "grace_ms" _ ⟨?_, ?_⟩ ⟨by simp, .nil⟩ rfl (by decide) ?_
    · simp [names, values, List.lookup_cons]
    · decide
    · rw [String.toList_ofList]
      exact Json.laid_object (.cons ⟨rfl, hgrace⟩ (.cons ⟨rfl, hgrace⟩ .nil))
  · refine hagainEgress [] [("buffer_size", .number (.integer 9))] "buffer_size"
      (.number (.integer 9)) [] [] "buffer_size" _ ⟨by simp, .nil⟩ (by decide) ⟨?_, ?_⟩ rfl
      (by decide) ?_
    · simp [DeliverySettings.names, DeliverySettings.values, List.lookup_cons]
    · decide
    · rw [String.toList_ofList]
      exact Json.laid_object (.cons ⟨rfl, Json.laid_object
        (.cons ⟨rfl, hnine⟩ (.cons ⟨rfl, hnine⟩ .nil))⟩ .nil)

end ProcessingSettings

end WindowTally
