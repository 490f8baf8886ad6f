import Mathlib.Data.List.Pairwise
import WindowTally.Proofs.OpenRecords
import WindowTally.Settings.Layers

/-!
# The single settings

A setting of the program that is no group of others is a `Leaf`: a field of some group, with
the path to that group. `AppSettings.leaves` has them all, so settings are told apart by them
(`AppSettings.ext_leaves`).

A tree whose groups are tables, and which gives each single setting legibly and under one name
at most, can be read (`AppSettings.exists_setting`): a single setting is what the tree gives
for it, or its default. A tree with two names of one setting cannot be read
(`AppSettings.setting_eq_none_of_two`).
-/
namespace WindowTally

open Setting (lookup)

/-! ## Records in a tree -/

section

variable {α : Type} {s : Schema α} {slots : List (Slot α)} {slot : Slot α} {group : List String}
  {t u : Setting}

namespace Slot

/-- A field with values of a kind. -/
def ofKind {β : Type} (names : List String) (kind : Kind β) (get : α → β) : Slot α :=
  ⟨names, β, kind.setting, get⟩

/-- What a tree gives for a field of a group. -/
def givenAt (slot : Slot α) (group : List String) (t : Setting) : Option Setting :=
  slot.names.findSome? fun name => t.at? (group ++ [name])

/-- A tree gives a field of a group under one name at most, and so that it can be read. -/
structure Legible (slot : Slot α) (group : List String) (t : Setting) : Prop where
  oneName : ∀ n ∈ slot.names, ∀ m ∈ slot.names, (t.at? (group ++ [n])).isSome →
    (t.at? (group ++ [m])).isSome → n = m
  reads : ∀ v, slot.givenAt group t = some v → (slot.read v).isSome

theorem givenAt_eq (hu : t.at? group = some u) : slot.givenAt group t = slot.given u.entries := by
  rw [givenAt, funext fun name => Setting.at?_concat hu name]
  rfl

theorem givenAt_eq_none (h : t.at? group = none) : slot.givenAt group t = none :=
  List.findSome?_eq_none_iff.2 fun name _ => by rw [Setting.at?_append, h]; rfl

theorem givenAt_ofKind {β : Type} {kind : Kind β} {get : α → β} {name : String} :
    (ofKind [name] kind get).givenAt group t = t.at? (group ++ [name]) := by
  rw [givenAt, ofKind, List.findSome?_singleton]

/-- A field under one name at most is what is given under that name. -/
theorem Legible.givenAt_eq_some (h : slot.Legible group t) {name : String} {v : Setting}
    (hname : name ∈ slot.names) (hv : t.at? (group ++ [name]) = some v) :
    slot.givenAt group t = some v := by
  cases hgiven : slot.givenAt group t with
  | none =>
    have hnone := List.findSome?_eq_none_iff.1 hgiven name hname
    rw [hv] at hnone
    cases hnone
  | some w =>
    obtain ⟨other, hother, hw⟩ := List.exists_of_findSome?_eq_some hgiven
    obtain rfl := h.oneName name hname other hother (by rw [hv]; rfl) (by rw [hw]; rfl)
    rw [← hw, hv]

end Slot

namespace Schema

/-- A group with legible fields can be read. -/
theorem exists_setting_at (hshows : s.Shows slots) (ht : t.TableAt group)
    (hslots : ∀ slot ∈ slots, slot.Legible group t) (hu : t.at? group = some u) :
    ∃ a, s.setting u = some a ∧ ∀ slot ∈ slots,
      slot.get a = ((slot.givenAt group t).bind slot.read).getD (slot.get s.base) := by
  obtain ⟨es, rfl, hes⟩ := ht u hu
  have hentry {e : String × Setting} (he : e ∈ es) : t.at? (group ++ [e.1]) = some e.2 :=
    (Setting.at?_concat hu e.1).trans (Setting.lookup_of_mem hes he)
  have hfits : Fits slots es := by
    constructor
    case once =>
      refine (List.pairwise_map.1 hes).imp_of_mem fun hx hy hne slot hslot hn hm => hne ?_
      exact (hslots slot hslot).oneName _ hn _ hm (by rw [hentry hx]; rfl) (by rw [hentry hy]; rfl)
    case reads =>
      intro e he slot hslot hn
      exact (hslots slot hslot).reads _ ((hslots slot hslot).givenAt_eq_some hn (hentry he))
  obtain ⟨a, ha, hget⟩ := setting_of_fits hshows hfits
  refine ⟨a, ha, fun slot hslot => ?_⟩
  rw [Slot.givenAt_eq hu]
  exact hget slot hslot

/-- What a group is read as, or what it is to begin with where it is not given. -/
def readAt (s : Schema α) (group : List String) (t : Setting) : α :=
  ((t.at? group).bind s.setting).getD s.base

theorem get_readAt (hshows : s.Shows slots) (ht : t.TableAt group)
    (hslots : ∀ slot ∈ slots, slot.Legible group t) (hslot : slot ∈ slots) :
    slot.get (s.readAt group t) =
      ((slot.givenAt group t).bind slot.read).getD (slot.get s.base) := by
  unfold readAt
  cases hu : t.at? group with
  | none => rw [Slot.givenAt_eq_none hu]; rfl
  | some u =>
    obtain ⟨a, ha, hget⟩ := exists_setting_at hshows ht hslots hu
    rw [Option.bind_some, ha]
    exact hget slot hslot

/-- A group with legible fields is itself a legible field of the group that it belongs to. -/
theorem legible_ofKind {β : Type} {part : β → α} {name : String} (hshows : s.Shows slots)
    (ht : t.TableAt (group ++ [name])) (hslots : ∀ slot ∈ slots, slot.Legible (group ++ [name]) t) :
    (Slot.ofKind [name] s.kind part).Legible group t := by
  refine ⟨fun n hn m hm _ _ => ?_, fun v hv => ?_⟩
  · rw [List.mem_singleton.1 hn, List.mem_singleton.1 hm]
  · rw [Slot.givenAt_ofKind] at hv
    obtain ⟨a, ha, -⟩ := exists_setting_at hshows ht hslots hv
    exact Option.isSome_iff_exists.2 ⟨a, ha⟩

/-- A group that is given one field under two names cannot be read. -/
theorem setting_eq_none_of_two (hshows : s.Shows slots) (ht : t.TableAt group)
    (hu : t.at? group = some u) (hslot : slot ∈ slots) {n m : String} (hn : n ∈ slot.names)
    (hm : m ∈ slot.names) (hne : n ≠ m) (hgiven : (t.at? (group ++ [n])).isSome)
    (hgiven' : (t.at? (group ++ [m])).isSome) : s.setting u = none := by
  obtain ⟨es, rfl, -⟩ := ht u hu
  cases ha : s.setting (.table es) with
  | none => rfl
  | some a =>
    exfalso
    rw [Setting.at?_concat hu] at hgiven hgiven'
    obtain ⟨v, hv⟩ := Option.isSome_iff_exists.1 hgiven
    obtain ⟨w, hw⟩ := Option.isSome_iff_exists.1 hgiven'
    have honce := (fits_of_setting hshows ha).once
    have hsymm : Std.Symm fun x y : String × Setting =>
        ∀ slot ∈ slots, x.1 ∈ slot.names → y.1 ∉ slot.names :=
      ⟨fun x y h slot hslot hy hx => h slot hslot hx hy⟩
    exact honce.forall (Setting.mem_of_lookup hv) (Setting.mem_of_lookup hw)
      (fun heq => hne (congrArg Prod.fst heq)) slot hslot hn hm

/-- A group that is given a field that cannot be read cannot be read. -/
theorem setting_eq_none_of_unreadable (hshows : s.Shows slots) (ht : t.TableAt group)
    (hu : t.at? group = some u) (hslot : slot ∈ slots) {n : String} (hn : n ∈ slot.names)
    {v : Setting} (hv : t.at? (group ++ [n]) = some v) (hread : slot.read v = none) :
    s.setting u = none := by
  obtain ⟨es, rfl, -⟩ := ht u hu
  cases ha : s.setting (.table es) with
  | none => rfl
  | some a =>
    rw [Setting.at?_concat hu] at hv
    have hreads := (fits_of_setting hshows ha).reads _ (Setting.mem_of_lookup hv) slot hslot hn
    rw [hread] at hreads
    cases hreads

end Schema

end

/-! ## The fields of each group -/

def DeliverySettings.slots : List (Slot DeliverySettings) := [
  .ofKind ["max_retries"] .word32 (·.maxRetries),
  .ofKind ["base_backoff_ms"] .word64 (·.baseBackoff),
  .ofKind ["max_backoff_ms"] .word64 (·.maxBackoff),
  .ofKind ["max_in_flight"] .size (·.maxInFlight),
  .ofKind ["buffer_size"] .size (·.bufferSize)]

/-- The fields of processing settings but for the group of delivery settings. -/
def ProcessingSettings.ownSlots : List (Slot ProcessingSettings) := [
  .ofKind ["window_length_ms", "windowLengthMs"] .millis (·.windowLength),
  .ofKind ["advance_by_ms", "advanceByMs"] .millis (·.advance),
  .ofKind ["grace_ms", "graceMs"] .millis (·.grace),
  .ofKind ["store_name", "storeName"] .text (·.store),
  .ofKind ["commit_interval_ms", "commitIntervalMs"] .word64 (·.commitInterval),
  .ofKind ["max_out_of_order_ms", "maxOutOfOrderMs"] .millis (·.allowance),
  .ofKind ["flush_on_close", "flushOnClose"] .flag (·.flushOnClose)]

def ProcessingSettings.deliverySlot : Slot ProcessingSettings :=
  .ofKind ["egress"] DeliverySettings.schema.kind (·.delivery)

def ProcessingSettings.slots : List (Slot ProcessingSettings) := ownSlots ++ [deliverySlot]

def Bindings.slots : List (Slot Bindings) := [
  .ofKind ["input"] .text (·.input),
  .ofKind ["output"] .text (·.output),
  .ofKind ["content_type", "contentType"] .text (·.contentType)]

def Logging.slots : List (Slot Logging) := [
  .ofKind ["level"] .text (·.level),
  .ofKind ["json"] .flag (·.json)]

def AppSettings.processingSlot : Slot AppSettings :=
  .ofKind ["processor"] ProcessingSettings.schema.kind (·.processing)

def AppSettings.bindingsSlot : Slot AppSettings :=
  .ofKind ["bindings"] Bindings.schema.kind (·.bindings)

def AppSettings.loggingSlot : Slot AppSettings :=
  .ofKind ["logging"] Logging.schema.kind (·.logging)

def AppSettings.slots : List (Slot AppSettings) := [processingSlot, bindingsSlot, loggingSlot]

theorem DeliverySettings.shows : schema.Shows slots where
  isOpen := rfl
  names := rfl
  apart := by decide
  own := by
    simp [schema, slots, Slot.ofKind, Field.ofKind, Field.names, Function.comp_def]
  others := by
    simp [schema, slots, Slot.ofKind, Field.ofKind, Field.names]

theorem ProcessingSettings.shows : schema.Shows slots where
  isOpen := rfl
  names := rfl
  apart := by decide
  own := by
    simp [schema, slots, ownSlots, deliverySlot, Slot.ofKind, Field.ofKind, Field.names,
      Function.comp_def]
  others := by
    simp [schema, slots, ownSlots, deliverySlot, Slot.ofKind, Field.ofKind, Field.names]
    grind

theorem Bindings.shows : schema.Shows slots where
  isOpen := rfl
  names := rfl
  apart := by decide
  own := by
    simp [schema, slots, Slot.ofKind, Field.ofKind, Field.names, Function.comp_def]
  others := by
    simp [schema, slots, Slot.ofKind, Field.ofKind, Field.names]

theorem Logging.shows : schema.Shows slots where
  isOpen := rfl
  names := rfl
  apart := by decide
  own := by
    simp [schema, slots, Slot.ofKind, Field.ofKind, Field.names, Function.comp_def]
  others := by
    simp [schema, slots, Slot.ofKind, Field.ofKind, Field.names]
    grind

theorem AppSettings.shows : schema.Shows slots where
  isOpen := rfl
  names := rfl
  apart := by decide
  own := by
    simp [schema, slots, processingSlot, bindingsSlot, loggingSlot, Slot.ofKind, Field.ofKind,
      Field.names, Function.comp_def]
  others := by
    simp [schema, slots, processingSlot, bindingsSlot, loggingSlot, Slot.ofKind, Field.ofKind,
      Field.names]

/-! ## All single settings -/

/-- A single setting of the program: a field, and the path to the group that it belongs to. -/
structure Leaf extends Slot AppSettings where
  group : List String

/-- A field of a group that is part of the settings. -/
def Slot.within {α : Type} (slot : Slot α) (group : List String) (part : AppSettings → α) : Leaf :=
  ⟨⟨slot.names, slot.Value, slot.read, fun s => slot.get (part s)⟩, group⟩

theorem Slot.legible_within {α : Type} {slot : Slot α} {group : List String}
    {part : AppSettings → α} {t : Setting} :
    (slot.within group part).Legible group t ↔ slot.Legible group t :=
  ⟨fun h => ⟨h.oneName, h.reads⟩, fun h => ⟨h.oneName, h.reads⟩⟩

/-- What a tree gives for a single setting. -/
def Leaf.given (l : Leaf) (t : Setting) : Option Setting := l.givenAt l.group t

namespace AppSettings

/-- The single settings. -/
def leaves : List Leaf :=
  ProcessingSettings.ownSlots.map (·.within ["processor"] (·.processing)) ++
    DeliverySettings.slots.map (·.within ["processor", "egress"] (·.processing.delivery)) ++
    Bindings.slots.map (·.within ["bindings"] (·.bindings)) ++
    Logging.slots.map (·.within ["logging"] (·.logging))

theorem forall_mem_leaves {p : Leaf → Prop} : (∀ l ∈ leaves, p l) ↔
    (∀ slot ∈ ProcessingSettings.ownSlots, p (slot.within ["processor"] (·.processing))) ∧
    (∀ slot ∈ DeliverySettings.slots,
      p (slot.within ["processor", "egress"] (·.processing.delivery))) ∧
    (∀ slot ∈ Bindings.slots, p (slot.within ["bindings"] (·.bindings))) ∧
    ∀ slot ∈ Logging.slots, p (slot.within ["logging"] (·.logging)) := by
  simp only [leaves, List.forall_mem_append, List.forall_mem_map, and_assoc]

/-- Settings are the same if all single settings are. -/
theorem ext_leaves {s s' : AppSettings} (h : ∀ l ∈ leaves, l.get s = l.get s') : s = s' := by
  obtain ⟨⟨_, _, _, _, _, _, _, ⟨_, _, _, _, _⟩⟩, ⟨_, _, _⟩, ⟨_, _⟩⟩ := s
  obtain ⟨⟨_, _, _, _, _, _, _, ⟨_, _, _, _, _⟩⟩, ⟨_, _, _⟩, ⟨_, _⟩⟩ := s'
  obtain ⟨hprocessing, hdelivery, hbindings, hlogging⟩ := forall_mem_leaves.1 h
  simp only [ProcessingSettings.ownSlots, Slot.within, Slot.ofKind, List.forall_mem_cons]
    at hprocessing
  simp only [DeliverySettings.slots, Slot.within, Slot.ofKind, List.forall_mem_cons] at hdelivery
  simp only [Bindings.slots, Slot.within, Slot.ofKind, List.forall_mem_cons] at hbindings
  simp only [Logging.slots, Slot.within, Slot.ofKind, List.forall_mem_cons] at hlogging
  simp only [hprocessing, hdelivery, hbindings, hlogging]

/-- A table is no value of a single setting. -/
theorem read_table {l : Leaf} (hl : l ∈ leaves) (es : List (String × Setting)) :
    l.read (.table es) = none := by
  revert l
  simp [leaves, ProcessingSettings.ownSlots, DeliverySettings.slots, Bindings.slots, Logging.slots,
    Slot.within, Slot.ofKind, Kind.word32, Kind.word64, Kind.size, Kind.millis, Kind.integer,
    Kind.text, Kind.flag]

variable {t : Setting}

/-- A tree that gives each single setting legibly can be read: a setting is what the tree gives for
it, or its default. -/
theorem exists_setting (ht : ∀ l ∈ leaves, ∀ r, r <+: l.group → t.TableAt r)
    (h : ∀ l ∈ leaves, l.Legible l.group t) : ∃ s, schema.setting t = some s ∧
      ∀ l ∈ leaves, l.get s = ((l.given t).bind l.read).getD (l.get {}) := by
  obtain ⟨-, htdelivery, htbindings, htlogging⟩ := forall_mem_leaves.1 ht
  have htop := htbindings _ List.mem_cons_self [] List.nil_prefix
  have hprocessor := htdelivery _ List.mem_cons_self ["processor"] ⟨["egress"], rfl⟩
  have hegress := htdelivery _ List.mem_cons_self _ (List.prefix_refl _)
  have hbindings := htbindings _ List.mem_cons_self _ (List.prefix_refl _)
  have hlogging := htlogging _ List.mem_cons_self _ (List.prefix_refl _)
  obtain ⟨hown, hdelivery, hbinding, hlog⟩ := forall_mem_leaves.1 h
  -- From the innermost group outwards, each group is legible in its turn.
  replace hdelivery : ∀ slot ∈ DeliverySettings.slots, slot.Legible ["processor", "egress"] t :=
    fun slot hslot => Slot.legible_within.1 (hdelivery slot hslot)
  have hprocessing : ∀ slot ∈ ProcessingSettings.slots, slot.Legible ["processor"] t :=
    List.forall_mem_append.2 ⟨fun slot hslot => Slot.legible_within.1 (hown slot hslot),
      List.forall_mem_singleton.2 (Schema.legible_ofKind DeliverySettings.shows hegress hdelivery)⟩
  replace hbinding : ∀ slot ∈ Bindings.slots, slot.Legible ["bindings"] t :=
    fun slot hslot => Slot.legible_within.1 (hbinding slot hslot)
  replace hlog : ∀ slot ∈ Logging.slots, slot.Legible ["logging"] t :=
    fun slot hslot => Slot.legible_within.1 (hlog slot hslot)
  have hparts : ∀ slot ∈ slots, slot.Legible [] t := by
    simp only [slots, List.forall_mem_cons]
    exact ⟨Schema.legible_ofKind ProcessingSettings.shows hprocessor hprocessing,
      Schema.legible_ofKind Bindings.shows hbindings hbinding,
      Schema.legible_ofKind Logging.shows hlogging hlog, nofun⟩
  obtain ⟨s, hs, hget⟩ := Schema.exists_setting_at AppSettings.shows htop hparts rfl
  simp only [slots, List.forall_mem_cons, processingSlot, bindingsSlot, loggingSlot,
    Slot.givenAt_ofKind] at hget
  obtain ⟨hgetp, hgetb, hgetl, -⟩ := hget
  replace hgetp : s.processing = ProcessingSettings.schema.readAt ["processor"] t := hgetp
  replace hgetb : s.bindings = Bindings.schema.readAt ["bindings"] t := hgetb
  replace hgetl : s.logging = Logging.schema.readAt ["logging"] t := hgetl
  have hgetd : s.processing.delivery =
      DeliverySettings.schema.readAt ["processor", "egress"] t := by
    rw [hgetp]
    have hread := Schema.get_readAt ProcessingSettings.shows hprocessor hprocessing
      (List.mem_append_right _ List.mem_cons_self : ProcessingSettings.deliverySlot ∈ _)
    rw [ProcessingSettings.deliverySlot, Slot.givenAt_ofKind] at hread
    exact hread
  refine ⟨s, hs, forall_mem_leaves.2 ⟨fun slot hslot => ?_, fun slot hslot => ?_,
    fun slot hslot => ?_, fun slot hslot => ?_⟩⟩
  · exact (congrArg slot.get hgetp).trans (Schema.get_readAt ProcessingSettings.shows hprocessor
      hprocessing (List.mem_append_left _ hslot))
  · exact (congrArg slot.get hgetd).trans
      (Schema.get_readAt DeliverySettings.shows hegress hdelivery hslot)
  · exact (congrArg slot.get hgetb).trans
      (Schema.get_readAt Bindings.shows hbindings hbinding hslot)
  · exact (congrArg slot.get hgetl).trans (Schema.get_readAt Logging.shows hlogging hlog hslot)

/-- A tree that gives a single setting under two names cannot be read. -/
theorem setting_eq_none_of_two (l : Leaf) (hl : l ∈ leaves)
    (ht : ∀ r, r <+: l.group → t.TableAt r) {n m : String} (hn : n ∈ l.names) (hm : m ∈ l.names)
    (hne : n ≠ m) (hgiven : (t.at? (l.group ++ [n])).isSome)
    (hgiven' : (t.at? (l.group ++ [m])).isSome) : schema.setting t = none := by
  obtain ⟨u, hu⟩ := Setting.exists_at?_of_append hgiven
  have htop := ht [] List.nil_prefix
  have hgroup := ht _ (List.prefix_refl _)
  have houter {slot : Slot AppSettings} {name : String} {v : Setting} (hslot : slot ∈ slots)
      (hname : name ∈ slot.names) (hv : t.at? [name] = some v) (hread : slot.read v = none) :
      schema.setting t = none :=
    Schema.setting_eq_none_of_unreadable AppSettings.shows htop rfl hslot hname hv hread
  revert l
  refine forall_mem_leaves.2 ⟨fun slot hslot => ?_, fun slot hslot => ?_, fun slot hslot => ?_,
    fun slot hslot => ?_⟩
  · intro ht hn hm hgiven hgiven' hu hgroup
    refine houter List.mem_cons_self List.mem_cons_self hu ?_
    exact Schema.setting_eq_none_of_two ProcessingSettings.shows hgroup hu
      (List.mem_append_left _ hslot) hn hm hne hgiven hgiven'
  · intro ht hn hm hgiven hgiven' hu hgroup
    have hboth : (t.at? (["processor"] ++ ["egress"])).isSome :=
      Option.isSome_iff_exists.2 ⟨u, hu⟩
    obtain ⟨p, hp⟩ := Setting.exists_at?_of_append hboth
    refine houter List.mem_cons_self List.mem_cons_self hp ?_
    refine Schema.setting_eq_none_of_unreadable ProcessingSettings.shows
      (ht ["processor"] ⟨["egress"], rfl⟩) hp (List.mem_append_right _ List.mem_cons_self)
      List.mem_cons_self hu ?_
    exact Schema.setting_eq_none_of_two DeliverySettings.shows hgroup hu hslot hn hm hne hgiven
      hgiven'
  · intro ht hn hm hgiven hgiven' hu hgroup
    refine houter (List.mem_cons_of_mem _ List.mem_cons_self) List.mem_cons_self hu ?_
    exact Schema.setting_eq_none_of_two Bindings.shows hgroup hu hslot hn hm hne hgiven hgiven'
  · intro ht hn hm hgiven hgiven' hu hgroup
    refine houter (List.mem_cons_of_mem _ (List.mem_cons_of_mem _ List.mem_cons_self))
      List.mem_cons_self hu ?_
    exact Schema.setting_eq_none_of_two Logging.shows hgroup hu hslot hn hm hne hgiven hgiven'

end AppSettings

end WindowTally
