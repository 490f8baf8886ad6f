import WindowTally.Proofs.Trees
import WindowTally.Schema

/-!
# Reading records from tables

A record that is read from a table is known by its fields, seen one by one through `Slot`s. A
table can be read just when it gives no field twice and each value is of the kind of its
field (`Schema.setting_of_fits`, `Schema.fits_of_setting`). Then each field is what the table
gives for it, or else what it was to begin with, whatever else there is in the table and
whatever the order of its entries.
-/
namespace WindowTally

open Setting (lookup)

/-- A field as it is seen from outside: its names, how its values are read, and what it is in a
record. -/
structure Slot (α : Type) where
  names : List String
  Value : Type
  read : Setting → Option Value
  get : α → Value

namespace Slot

variable {α : Type} {slot : Slot α} {es : List (String × Setting)} {name : String} {v : Setting}

/-- What entries give for a field. -/
def given (slot : Slot α) (es : List (String × Setting)) : Option Setting :=
  slot.names.findSome? fun name => lookup name es

theorem given_nil (slot : Slot α) : slot.given [] = none :=
  List.findSome?_eq_none_iff.2 fun _ _ => rfl

theorem given_eq_none (h : ∀ e ∈ es, e.1 ∉ slot.names) : slot.given es = none := by
  refine List.findSome?_eq_none_iff.2 fun name hname => Setting.lookup_eq_none_iff.2 fun hmem => ?_
  obtain ⟨e, he, rfl⟩ := List.mem_map.1 hmem
  exact h e he hname

theorem given_cons_of_not_mem (h : name ∉ slot.names) : slot.given ((name, v) :: es) =
    slot.given es := by
  unfold given
  generalize slot.names = names at h
  induction names with
  | nil => rfl
  | cons n names ih =>
    rw [List.mem_cons, not_or] at h
    rw [List.findSome?_cons, List.findSome?_cons, lookup, if_neg h.1, ih h.2]

theorem given_cons_of_mem (h : name ∈ slot.names) (hes : ∀ e ∈ es, e.1 ∉ slot.names) :
    slot.given ((name, v) :: es) = some v := by
  have hnone := List.findSome?_eq_none_iff.1 (given_eq_none hes)
  unfold given
  generalize slot.names = names at h hnone
  induction names with
  | nil => cases h
  | cons n names ih =>
    rw [List.findSome?_cons, lookup]
    by_cases hn : name = n
    · rw [if_pos hn]
    · rw [if_neg hn, hnone n List.mem_cons_self]
      exact ih ((List.mem_cons.1 h).resolve_left hn) fun m hm => hnone m (List.mem_cons_of_mem _ hm)

end Slot

/-- The names that a field goes by. -/
def Field.names {α : Type} (f : Field α) : List String := f.name :: f.aliases

namespace Schema

variable {α : Type} {s : Schema α} {slots : List (Slot α)} {f : Field α} {slot : Slot α}
  {es : List (String × Setting)} {name : String} {v : Setting} {given : List String} {a b : α}

/-- The slots are the fields of an open record seen from outside. -/
structure Shows (s : Schema α) (slots : List (Slot α)) : Prop where
  isOpen : s.complete = false
  names : s.fields.map Field.names = slots.map (·.names)
  apart : ∀ ns ∈ slots.map (·.names), ∀ ms ∈ slots.map (·.names), ∀ n ∈ ns, n ∈ ms → ns = ms
  own : ∀ f ∈ s.fields, ∀ slot ∈ slots, f.names = slot.names → ∀ v,
    (f.setting v).map (fun change a => slot.get (change a)) = (slot.read v).map fun b _ => b
  others : ∀ f ∈ s.fields, ∀ slot ∈ slots, f.names ≠ slot.names → ∀ v change,
    f.setting v = some change → ∀ a, slot.get (change a) = slot.get a

theorem hasName_iff : f.hasName name = true ↔ name ∈ f.names := by
  rw [Field.hasName, Bool.or_eq_true, beq_iff_eq, List.contains_iff_mem, Field.names,
    List.mem_cons, eq_comm]

theorem field?_eq_some (h : s.field? name = some f) : f ∈ s.fields ∧ name ∈ f.names := by
  have hname := List.find?_some h
  exact ⟨List.mem_of_find?_eq_some h, hasName_iff.1 hname⟩

section
variable (hshows : s.Shows slots)
include hshows

theorem Shows.exists_slot (hf : f ∈ s.fields) : ∃ slot ∈ slots, f.names = slot.names := by
  have hmem := List.mem_map_of_mem (f := Field.names) hf
  rw [hshows.names] at hmem
  obtain ⟨slot, hslot, hnames⟩ := List.mem_map.1 hmem
  exact ⟨slot, hslot, hnames.symm⟩

/-- A name of a slot is one of its field, and of no other. -/
theorem Shows.field?_eq (hslot : slot ∈ slots) (hname : name ∈ slot.names) :
    ∃ f ∈ s.fields, s.field? name = some f ∧ f.names = slot.names := by
  have hmem := List.mem_map_of_mem (f := (·.names)) hslot
  rw [← hshows.names] at hmem
  obtain ⟨g, hg, hnames⟩ := List.mem_map.1 hmem
  cases hfield : s.field? name with
  | none =>
    refine absurd (hasName_iff.2 (hnames ▸ hname)) ?_
    exact List.find?_eq_none.1 hfield g hg
  | some f =>
    obtain ⟨hf, hmine⟩ := field?_eq_some hfield
    refine ⟨f, hf, rfl, ?_⟩
    have hall := List.mem_map_of_mem (f := Field.names) hf
    rw [hshows.names] at hall
    exact hshows.apart _ hall _ (List.mem_map_of_mem hslot) name hmine hname

/-- A value is read into a field just when it can be read, and is then what the field is. -/
theorem Shows.setting_eq_some (hf : f ∈ s.fields) (hslot : slot ∈ slots)
    (hnames : f.names = slot.names) {change : α → α} (h : f.setting v = some change) :
    ∃ b, slot.read v = some b ∧ ∀ a, slot.get (change a) = b := by
  have hown := hshows.own f hf slot hslot hnames v
  rw [h, Option.map_some] at hown
  obtain ⟨b, hb, hget⟩ := Option.map_eq_some_iff.1 hown.symm
  exact ⟨b, hb, fun a => (congrFun hget a).symm⟩

theorem Shows.isSome_setting (hf : f ∈ s.fields) (hslot : slot ∈ slots)
    (hnames : f.names = slot.names) : (f.setting v).isSome = (slot.read v).isSome := by
  have hown := congrArg Option.isSome (hshows.own f hf slot hslot hnames v)
  rwa [Option.isSome_map, Option.isSome_map] at hown

end

/-- No field is given twice, and each value is of the kind of its field. -/
structure Fits (slots : List (Slot α)) (es : List (String × Setting)) : Prop where
  once : es.Pairwise fun x y => ∀ slot ∈ slots, x.1 ∈ slot.names → y.1 ∉ slot.names
  reads : ∀ e ∈ es, ∀ slot ∈ slots, e.1 ∈ slot.names → (slot.read e.2).isSome = true

/-- Entries that fit can be read; each field becomes what is given for it, or stays as it is. -/
theorem settingEntries_of_fits (hshows : s.Shows slots) (hfits : Fits slots es)
    (hnew : ∀ e ∈ es, ∀ f, s.field? e.1 = some f → f.name ∉ given) :
    ∃ b, s.settingEntries given a es = some b ∧
      ∀ slot ∈ slots, slot.get b = ((slot.given es).bind slot.read).getD (slot.get a) := by
  induction es generalizing given a with
  | nil =>
    refine ⟨a, ?_, fun slot _ => by rw [slot.given_nil]; rfl⟩
    rw [settingEntries, missing?, hshows.isOpen]
    rfl
  | cons e es ih =>
    obtain ⟨n, v⟩ := e
    have honce := List.pairwise_cons.1 hfits.once
    have hrest : Fits slots es :=
      ⟨honce.2, fun e he => hfits.reads e (List.mem_cons_of_mem _ he)⟩
    have hlater : ∀ e ∈ es, ∀ f, s.field? e.1 = some f → f.name ∉ given :=
      fun e he => hnew e (List.mem_cons_of_mem _ he)
    rw [settingEntries]
    cases hfield : s.field? n with
    | none =>
      obtain ⟨b, hb, hget⟩ := ih (a := a) hrest hlater
      refine ⟨b, hb, fun slot hslot => ?_⟩
      rw [hget slot hslot, Slot.given_cons_of_not_mem fun hn => ?_]
      obtain ⟨f, -, hsome, -⟩ := hshows.field?_eq hslot hn
      rw [hfield] at hsome
      cases hsome
    | some f =>
      obtain ⟨hf, hn⟩ := field?_eq_some hfield
      obtain ⟨own, hown, hnames⟩ := hshows.exists_slot hf
      have hread := hfits.reads (n, v) List.mem_cons_self own hown (hnames ▸ hn)
      rw [← hshows.isSome_setting hf hown hnames] at hread
      obtain ⟨change, hchange⟩ := Option.isSome_iff_exists.1 hread
      have hunseen := hnew (n, v) List.mem_cons_self f hfield
      have hseen : ∀ e ∈ es, ∀ g, s.field? e.1 = some g → g.name ∉ f.name :: given := by
        intro e he g hg hmem
        rcases List.mem_cons.1 hmem with hsame | hmem
        · -- The field would be given twice.
          refine honce.1 e he own hown (hnames ▸ hn) ?_
          obtain ⟨hg', hmine⟩ := field?_eq_some hg
          obtain ⟨other, hother, hnames'⟩ := hshows.exists_slot hg'
          have hfirst : f.name ∈ other.names := hnames' ▸ hsame ▸ List.mem_cons_self
          have heq := hshows.apart _ (List.mem_map_of_mem hother) _ (List.mem_map_of_mem hown)
            f.name hfirst (hnames ▸ List.mem_cons_self)
          exact heq ▸ hnames' ▸ hmine
        · exact hlater e he g hg hmem
      obtain ⟨b, hb, hget⟩ := ih (a := change a) hrest hseen
      refine ⟨b, ?_, fun slot hslot => ?_⟩
      · simp only [if_neg (mt List.contains_iff_mem.1 hunseen), hchange]
        exact hb
      · rw [hget slot hslot]
        by_cases hsame : f.names = slot.names
        · obtain ⟨value, hvalue, hset⟩ := hshows.setting_eq_some hf hslot hsame hchange
          have hgone : ∀ e ∈ es, e.1 ∉ slot.names := fun e he =>
            honce.1 e he slot hslot (hsame ▸ hn)
          rw [Slot.given_eq_none hgone, Slot.given_cons_of_mem (hsame ▸ hn) hgone,
            Option.bind_some, hvalue, hset]
          rfl
        · rw [hshows.others f hf slot hslot hsame v change hchange,
            Slot.given_cons_of_not_mem fun hmem => hsame ?_]
          obtain ⟨g, -, hg, hnames'⟩ := hshows.field?_eq hslot hmem
          rw [hfield] at hg
          cases hg
          exact hnames'

/-- Entries that can be read fit. -/
theorem fits_of_settingEntries (hshows : s.Shows slots)
    (h : s.settingEntries given a es = some b) :
    Fits slots es ∧ ∀ e ∈ es, ∀ f, s.field? e.1 = some f → f.name ∉ given := by
  induction es generalizing given a with
  | nil => exact ⟨⟨.nil, by simp⟩, by simp⟩
  | cons e es ih =>
    obtain ⟨n, v⟩ := e
    rw [settingEntries] at h
    split at h
    · next hfield =>
      obtain ⟨hfits, hnew⟩ := ih h
      have hunknown : ∀ slot ∈ slots, n ∉ slot.names := fun slot hslot hn => by
        obtain ⟨f, -, hsome, -⟩ := hshows.field?_eq hslot hn
        rw [hfield] at hsome
        cases hsome
      refine ⟨⟨List.pairwise_cons.2 ⟨fun e he slot hslot hn => absurd hn (hunknown slot hslot),
        hfits.once⟩, List.forall_mem_cons.2 ⟨fun slot hslot hn => absurd hn (hunknown slot hslot),
        hfits.reads⟩⟩, List.forall_mem_cons.2 ⟨fun f hf => ?_, hnew⟩⟩
      rw [hfield] at hf
      cases hf
    · next f hfield =>
      split at h
      · cases h
      · next hunseen =>
        split at h
        · next change hchange =>
          obtain ⟨hfits, hnew⟩ := ih h
          have hmine {slot : Slot α} (hslot : slot ∈ slots) {m : String} (hm : m ∈ slot.names)
              (hn : n ∈ slot.names) : ∃ g, s.field? m = some g ∧ g.name = f.name := by
            obtain ⟨g, -, hg, hnames⟩ := hshows.field?_eq hslot hm
            obtain ⟨f', -, hf', hnames'⟩ := hshows.field?_eq hslot hn
            rw [hfield] at hf'
            cases hf'
            exact ⟨g, hg, (List.cons.inj (hnames.trans hnames'.symm)).1⟩
          refine ⟨⟨List.pairwise_cons.2 ⟨fun e he slot hslot hn hm => ?_, hfits.once⟩,
            List.forall_mem_cons.2 ⟨fun slot hslot hn => ?_, hfits.reads⟩⟩,
            List.forall_mem_cons.2 ⟨fun g hg => ?_, fun e he g hg hmem => ?_⟩⟩
          · obtain ⟨g, hg, hname⟩ := hmine hslot hm hn
            exact hnew e he g hg (hname ▸ List.mem_cons_self)
          · obtain ⟨f', hf, hf', hnames⟩ := hshows.field?_eq hslot hn
            rw [hfield] at hf'
            cases hf'
            rw [← hshows.isSome_setting hf hslot hnames, hchange]
            rfl
          · rw [hfield] at hg
            cases hg
            exact mt List.contains_iff_mem.2 hunseen
          · exact hnew e he g hg (List.mem_cons_of_mem _ hmem)
        · cases h

/-- A table that fits can be read: each field is what the table gives for it, or what it is to begin
with. -/
theorem setting_of_fits (hshows : s.Shows slots) (hfits : Fits slots es) :
    ∃ a, s.setting (.table es) = some a ∧
      ∀ slot ∈ slots, slot.get a = ((slot.given es).bind slot.read).getD (slot.get s.base) :=
  settingEntries_of_fits hshows hfits fun _ _ _ _ => List.not_mem_nil

/-- A table that can be read fits. -/
theorem fits_of_setting (hshows : s.Shows slots) (h : s.setting (.table es) = some a) :
    Fits slots es :=
  (fits_of_settingEntries hshows h).1

end Schema

end WindowTally
