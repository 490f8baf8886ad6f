import Mathlib.Data.List.Nodup
import WindowTally.Json.Records
import WindowTally.Proofs.JsonTexts

/-!
# Records are read from objects

A `Json.Value` is what a JSON text says, without regard to how it is written. Where nothing is
wanted of a value it is passed over, whatever it is and however deep (`Reader.skip_tokens`).

`Json.Tells names values ms` says that the members `ms` of an object give some of the fields of
a record, each once, with the value that `values` lists for it and by a name from the table
`names`; what their other members are does not matter. One such member is read into the record
of the fields given so far (`Schema.readMember_of_copies`), and so the members leave the record
of all the fields they name (`Schema.readMembers_of_tells`). Their order is the same to it, and
so is the layout of the text (`Schema.parse_of_tells`). Naming a field once more is a fault
(`Schema.json_of_duplicate`).
-/
namespace WindowTally

namespace Json

/-- A JSON value. A string in which half of a character is missing has no text. -/
inductive Value where
  | null
  | flag (b : Bool)
  | number (n : Numeral)
  | text (s : Option String)
  | list (items : List Value)
  | map (members : List (Option String × Value))

namespace Value

mutual

/-- The tokens of a value. -/
def tokens : Value → List Token
  | .null => [.null]
  | .flag b => [.flag b]
  | .number n => [.number n]
  | .text s => [.text s]
  | .list vs => .listOpen :: ((itemTokens vs).tail ++ [.listClose])
  | .map ms => .mapOpen :: ((memberTokens ms).tail ++ [.mapClose])

/-- The tokens of items, each behind a comma. -/
def itemTokens : List Value → List Token
  | [] => []
  | v :: vs => .comma :: (v.tokens ++ itemTokens vs)

/-- The tokens of members, each behind a comma. -/
def memberTokens : List (Option String × Value) → List Token
  | [] => []
  | (name, v) :: ms => .comma :: .text name :: .colon :: (v.tokens ++ memberTokens ms)

end

/-- An object whose names are all strings. -/
def object (ms : List (String × Value)) : Value := .map (ms.map fun m => (some m.1, m.2))

/-- The tokens of members whose names are strings, each behind a comma. -/
def namedTokens (ms : List (String × Value)) : List Token :=
  memberTokens (ms.map fun m => (some m.1, m.2))

theorem namedTokens_nil : namedTokens [] = [] := rfl

theorem namedTokens_cons (name : String) (v : Value) (ms : List (String × Value)) :
    namedTokens ((name, v) :: ms) =
      .comma :: .text (some name) :: .colon :: (v.tokens ++ namedTokens ms) := rfl

theorem namedTokens_eq_comma (m : String × Value) (ms : List (String × Value)) :
    namedTokens (m :: ms) = .comma :: (namedTokens (m :: ms)).tail := rfl

theorem namedTokens_append (ms ms' : List (String × Value)) :
    namedTokens (ms ++ ms') = namedTokens ms ++ namedTokens ms' := by
  induction ms with
  | nil => rfl
  | cons m ms ih =>
    rw [List.cons_append, namedTokens_cons, namedTokens_cons, ih]
    simp only [List.cons_append, List.append_assoc]

theorem length_le_namedTokens (ms : List (String × Value)) :
    2 * ms.length ≤ (namedTokens ms).length := by
  induction ms with
  | nil => exact Nat.le_refl 0
  | cons m ms ih =>
    rw [namedTokens_cons m.1 m.2]
    simp only [List.length_cons, List.length_append]
    omega

theorem tokens_object (ms : List (String × Value)) :
    (object ms).tokens = .mapOpen :: ((namedTokens ms).tail ++ [.mapClose]) := rfl

end Value

/-! ## Numbers in values -/

namespace Value

theorem head_itemTokens (vs : List Value) :
    ∀ t ∈ (itemTokens vs ++ [Token.listClose]).head?, t.isMark = true := by
  cases vs <;> simp [itemTokens, Token.isMark]

theorem head_memberTokens (ms : List (Option String × Value)) :
    ∀ t ∈ (memberTokens ms ++ [Token.mapClose]).head?, t.isMark = true := by
  cases ms <;> simp [memberTokens, Token.isMark]

mutual

/-- Behind a number in a value there is a comma, a closing bracket or nothing. -/
theorem separated_tokens (v : Value) : Separated v.tokens := by
  match v with
  | .null => exact .singleton _
  | .flag b => exact .singleton _
  | .number n => exact .singleton _
  | .text s => exact .singleton _
  | .list [] => exact Separated.cons (.singleton _) rfl
  | .list (v :: vs) =>
    have hitems := (separated_tokens v).append (separated_itemTokens vs) (head_itemTokens vs)
    simp only [tokens, itemTokens, List.tail_cons, List.append_assoc]
    exact hitems.cons rfl
  | .map [] => exact Separated.cons (.singleton _) rfl
  | .map ((name, v) :: ms) =>
    have hmembers := (separated_tokens v).append (separated_memberTokens ms) (head_memberTokens ms)
    simp only [tokens, memberTokens, List.tail_cons, List.cons_append, List.append_assoc]
    exact ((hmembers.cons rfl).cons rfl).cons rfl

theorem separated_itemTokens (vs : List Value) : Separated (itemTokens vs ++ [.listClose]) := by
  match vs with
  | [] => exact .singleton _
  | v :: vs =>
    have hitems := (separated_tokens v).append (separated_itemTokens vs) (head_itemTokens vs)
    simp only [itemTokens, List.cons_append, List.append_assoc]
    exact hitems.cons rfl

theorem separated_memberTokens (ms : List (Option String × Value)) :
    Separated (memberTokens ms ++ [.mapClose]) := by
  match ms with
  | [] => exact .singleton _
  | (name, v) :: ms =>
    have hmembers := (separated_tokens v).append (separated_memberTokens ms) (head_memberTokens ms)
    simp only [memberTokens, List.cons_append, List.append_assoc]
    exact ((hmembers.cons rfl).cons rfl).cons rfl

end

end Value

/-! ## Values that are passed over -/

namespace Reader

open Value (itemTokens memberTokens)

mutual

/-- A value is passed over, whatever it is; the induction is on the value, with its items and its
members. -/
theorem skipFrom_tokens (v : Value) (frames : List Bool) (ts : List Token) :
    skipFrom frames .value (v.tokens ++ ts) = skipFrom frames .separator ts ∧
    skipFrom frames .valueOrClose (v.tokens ++ ts) = skipFrom frames .separator ts := by
  match v with
  | .null => cases frames <;> exact ⟨rfl, rfl⟩
  | .flag b => cases frames <;> exact ⟨rfl, rfl⟩
  | .number n => cases frames <;> exact ⟨rfl, rfl⟩
  | .text s => cases frames <;> exact ⟨rfl, rfl⟩
  | .list [] => cases frames <;> exact ⟨rfl, rfl⟩
  | .list (v :: vs) =>
    have hopened : skipFrom (false :: frames) .valueOrClose
        (v.tokens ++ (itemTokens vs ++ .listClose :: ts)) = skipFrom frames .separator ts :=
      (skipFrom_tokens v (false :: frames) _).2.trans (skipFrom_itemTokens vs frames ts)
    simp only [Value.tokens, itemTokens, List.tail_cons, List.cons_append, List.append_assoc,
      List.nil_append]
    cases frames <;> exact ⟨hopened, hopened⟩
  | .map [] => cases frames <;> exact ⟨rfl, rfl⟩
  | .map ((name, v) :: ms) =>
    have hopened : skipFrom (true :: frames) .value
        (v.tokens ++ (memberTokens ms ++ .mapClose :: ts)) = skipFrom frames .separator ts :=
      (skipFrom_tokens v (true :: frames) _).1.trans (skipFrom_memberTokens ms frames ts)
    simp only [Value.tokens, memberTokens, List.tail_cons, List.cons_append, List.append_assoc,
      List.nil_append]
    cases frames <;> exact ⟨hopened, hopened⟩

theorem skipFrom_itemTokens (vs : List Value) (frames : List Bool) (ts : List Token) :
    skipFrom (false :: frames) .separator (itemTokens vs ++ .listClose :: ts) =
      skipFrom frames .separator ts := by
  match vs with
  | [] => rfl
  | v :: vs =>
    rw [itemTokens, List.cons_append, List.append_assoc]
    exact (skipFrom_tokens v (false :: frames) _).1.trans (skipFrom_itemTokens vs frames ts)

theorem skipFrom_memberTokens (ms : List (Option String × Value)) (frames : List Bool)
    (ts : List Token) :
    skipFrom (true :: frames) .separator (memberTokens ms ++ .mapClose :: ts) =
      skipFrom frames .separator ts := by
  match ms with
  | [] => rfl
  | (name, v) :: ms =>
    rw [memberTokens]
    simp only [List.cons_append, List.append_assoc]
    exact (skipFrom_tokens v (true :: frames) _).1.trans (skipFrom_memberTokens ms frames ts)

end

theorem skip_tokens (v : Value) (ts : List Token) : skip (v.tokens ++ ts) = .ok ((), ts) := by
  rw [skip, (skipFrom_tokens v [] ts).1]
  cases ts <;> rfl

end Reader

/-! ## What members tell -/

/-- The fields that members name, each by its own name. A table tells whose name a name is. -/
def namedFields (names : List (String × String)) (ms : List (String × Value)) : List String :=
  ms.filterMap fun m => names.lookup m.1

theorem namedFields_cons (names : List (String × String)) (m : String × Value)
    (ms : List (String × Value)) :
    namedFields names (m :: ms) = (names.lookup m.1).toList ++ namedFields names ms := by
  rw [namedFields, List.filterMap_cons]
  cases names.lookup m.1 <;> rfl

/-- Every member that names a field has the value that is listed for it, and no field is named
twice. -/
structure Tells (names : List (String × String)) (values : List (String × Value))
    (ms : List (String × Value)) : Prop where
  values : ∀ m ∈ ms, ∀ field, names.lookup m.1 = some field → (field, m.2) ∈ values
  once : (namedFields names ms).Nodup

/-- Values under the own names of their fields. -/
theorem tells_self {names : List (String × String)} {values : List (String × Value)}
    (hnames : (values.map fun m => names.lookup m.1) = values.map fun m => some m.1)
    (honce : (values.map (·.1)).Nodup) :
    Tells names values values ∧ namedFields names values = values.map (·.1) := by
  rw [List.map_inj_left] at hnames
  have hfields : namedFields names values = values.map (·.1) := by
    rw [namedFields, ← List.filterMap_eq_map]
    exact List.filterMap_congr hnames
  refine ⟨⟨fun m hm field hfield => ?_, hfields ▸ honce⟩, hfields⟩
  rw [hnames m hm, Option.some.injEq] at hfield
  exact hfield ▸ hm

end Json

open Json (Token Value Laid namedFields Tells)

/-! ## Values of fields -/

namespace Kind

/-- An integer is read if it is in range. -/
theorem json_integer {β : Type} {wanted : String} {least greatest n : Int} {ofInt : Int → β}
    (h : least ≤ n ∧ n ≤ greatest) (ts : List Token) :
    (integer wanted least greatest ofInt).json (.number (.integer n) :: ts) = .ok (ofInt n, ts) := by
  simp only [integer, Json.Reader.integer, if_pos h]
  rfl

theorem json_text (text : String) (ts : List Token) :
    Kind.text.json (.text (some text) :: ts) = .ok (text, ts) := rfl

theorem json_flag (b : Bool) (ts : List Token) :
    Kind.flag.json (.flag b :: ts) = .ok (b, ts) := rfl

theorem json_word64 (n : UInt64) (ts : List Token) :
    Kind.word64.json (.number (.integer n.toNat) :: ts) = .ok (n, ts) := by
  have hlt := n.toNat_lt
  rw [word64, json_integer (by omega), Int.toNat_natCast, UInt64.ofNat_toNat]

theorem json_size (n : UInt64) (ts : List Token) :
    Kind.size.json (.number (.integer n.toNat) :: ts) = .ok (n, ts) := by
  have hlt := n.toNat_lt
  rw [size, json_integer (by omega), Int.toNat_natCast, UInt64.ofNat_toNat]

theorem json_word32 (n : UInt32) (ts : List Token) :
    Kind.word32.json (.number (.integer n.toNat) :: ts) = .ok (n, ts) := by
  have hlt := n.toNat_lt
  rw [word32, json_integer (by omega), Int.toNat_natCast, UInt32.ofNat_toNat]

theorem json_millis (t : Millis) (ts : List Token) :
    Kind.millis.json (.number (.integer t.toInt) :: ts) = .ok (t, ts) := by
  rw [millis, json_integer ⟨Int64.minValue_le_toInt t, Int64.toInt_le t⟩, Int64.ofInt_toInt]

end Kind

namespace Schema

open Json.Value (namedTokens namedTokens_cons namedTokens_append length_le_namedTokens)

variable {α β : Type} {s : Schema α} {f : Field α} {name : String} {a : α} {change : α → α}
  {ts rest : List Token}

/-! ## One member -/

/-- A member that names a field not given before. -/
theorem readMember_field (given : List String) (hname : s.field? name = some f)
    (hnew : given.contains f.name = false) (hvalue : f.json ts = .ok (change, rest)) :
    s.readMember name given a (.colon :: ts) = .ok ((change a, f.name :: given), rest) := by
  rw [readMember, hname]
  simp only [hnew, hvalue]
  rfl

theorem json_ofKind_error {kind : Kind β} {set : β → α → α} {aliases : List String}
    {fault : Json.ReadFault} (h : kind.json ts = .error fault) :
    (Field.ofKind name kind set aliases).json ts = .error fault := by
  change (kind.json ts).map _ = _
  rw [h]
  rfl

theorem readMember_of_json_error {fault : Json.ReadFault} (given : List String)
    (hname : s.field? name = some f) (hnew : given.contains f.name = false)
    (hvalue : f.json ts = .error fault) :
    s.readMember name given a (.colon :: ts) = .error fault := by
  rw [readMember, hname]
  simp only [hnew, hvalue]
  rfl

/-- A member that names no field. -/
theorem readMember_unknown (given : List String) (hname : s.field? name = none) (v : Value) :
    s.readMember name given a (.colon :: (v.tokens ++ ts)) = .ok ((a, given), ts) := by
  rw [readMember, hname]
  simp only [Json.Reader.skip_tokens]
  rfl

/-! ## Copying a record -/

/-- The names of all fields, each with the own name of its field. -/
def names (s : Schema α) : List (String × String) :=
  s.fields.flatMap fun f => (f.name :: f.aliases).map fun name => (name, f.name)

theorem lookup_names (s : Schema α) (name : String) :
    s.names.lookup name = (s.field? name).map (·.name) := by
  have hone (f : Field α) (ns : List String) : (ns.map fun n => (n, f.name)).lookup name =
      if ns.contains name then some f.name else none := by
    induction ns with
    | nil => rfl
    | cons n ns ih =>
      rw [List.map_cons, List.lookup_cons, ih, List.contains_cons]
      cases name == n <;> rfl
  unfold names field?
  induction s.fields with
  | nil => rfl
  | cons f fs ih =>
    have hname : (f.name :: f.aliases).contains name = f.hasName name := by
      rw [List.contains_cons, Field.hasName, Bool.beq_comm]
    rw [List.flatMap_cons, List.lookup_append, ih, List.find?_cons, hone, hname]
    cases f.hasName name <;> rfl

/-- The field is read from a value that is listed under its name, and so copied into `only`, the
record of the fields that are given. -/
def Copied (only : List String → α) (f : Field α) (m : String × Value) : Prop :=
  f.name = m.1 ∧ ∃ change : α → α, (∀ ts, f.json (m.2.tokens ++ ts) = .ok (change, ts)) ∧
    ∀ given, change (only given) = only (f.name :: given)

theorem copied_ofKind {kind : Kind β} {set : β → α → α} {aliases : List String} {v : Value} {b : β}
    {only : List String → α} (hjson : ∀ ts, kind.json (v.tokens ++ ts) = .ok (b, ts))
    (hset : ∀ given, set b (only given) = only (name :: given)) :
    Copied only (.ofKind name kind set aliases) (name, v) := by
  refine ⟨rfl, set b, fun ts => ?_, hset⟩
  change (kind.json (v.tokens ++ ts)).map _ = _
  rw [hjson]
  rfl

/-- All fields are copied from the values that are listed for them. -/
structure Copies (s : Schema α) (values : List (String × Value)) (only : List String → α) :
    Prop where
  base : only [] = s.base
  apart : (s.fields.map (·.name)).Nodup
  copied : List.Forall₂ (Copied only) s.fields values

theorem exists_copied {fs : List (Field α)} {ms : List (String × Value)} {only : List String → α}
    (h : List.Forall₂ (Copied only) fs ms) {m : String × Value} (hm : m ∈ ms) :
    ∃ g ∈ fs, Copied only g m := by
  induction h with
  | nil => cases hm
  | cons hcopied _ ih =>
    rcases List.mem_cons.1 hm with rfl | hm
    · exact ⟨_, List.mem_cons_self, hcopied⟩
    · obtain ⟨g, hg, hcopied⟩ := ih hm
      exact ⟨g, List.mem_cons_of_mem _ hg, hcopied⟩

/-- A value is read by the field that it is listed for. -/
theorem Copies.of_mem {values : List (String × Value)} {only : List String → α}
    (h : s.Copies values only) (hf : f ∈ s.fields) {v : Value} (hv : (f.name, v) ∈ values) :
    Copied only f (f.name, v) := by
  obtain ⟨g, hg, hcopied⟩ := exists_copied h.copied hv
  obtain rfl : g = f := List.inj_on_of_nodup_map h.apart hg hf hcopied.1
  exact hcopied

section
variable {values ms before after : List (String × Value)} {only : List String → α}
  {given : List String} {field : String} {v : Value} {fault : Json.ReadFault}

/-- A member is read into the record of the fields given so far, or passed over. -/
theorem readMember_of_copies (hcopies : s.Copies values only)
    (hvalue : ∀ field, s.names.lookup name = some field → (field, v) ∈ values)
    (hnew : ∀ field, s.names.lookup name = some field → field ∉ given) (ts : List Token) :
    s.readMember name given (only given) (.colon :: (v.tokens ++ ts)) =
      .ok ((only ((s.names.lookup name).toList ++ given),
        (s.names.lookup name).toList ++ given), ts) := by
  rw [lookup_names] at hvalue hnew ⊢
  cases hname : s.field? name with
  | none => exact readMember_unknown given hname v
  | some f =>
    rw [hname] at hvalue hnew
    have hmem : f ∈ s.fields := List.mem_of_find?_eq_some hname
    obtain ⟨-, change, hjson, hchange⟩ := hcopies.of_mem hmem (hvalue _ rfl)
    have hfresh : given.contains f.name = false := by simpa using hnew _ rfl
    rw [readMember_field given hname hfresh (hjson ts), hchange]
    rfl

/-! ## All members -/

/-- Members are read one after the other; the fields that they name are added to those given
before. -/
theorem readMembers_of_tells (hcopies : s.Copies values only) (htells : Tells s.names values ms)
    (hnew : ∀ field ∈ namedFields s.names ms, field ∉ given) (n : Nat) :
    s.readMembers (n + ms.length) false given (only given) (namedTokens ms ++ ts) =
      s.readMembers n false ((namedFields s.names ms).reverse ++ given)
        (only ((namedFields s.names ms).reverse ++ given)) ts := by
  induction ms generalizing given with
  | nil => rfl
  | cons m ms ih =>
    obtain ⟨name, v⟩ := m
    obtain ⟨hvalues, honce⟩ := htells
    rw [List.forall_mem_cons] at hvalues
    rw [Json.namedFields_cons] at honce hnew ⊢
    obtain ⟨-, honce, hapart⟩ := List.nodup_append.1 honce
    have hread := readMember_of_copies hcopies hvalues.1
      (fun field hfield => hnew field (List.mem_append_left _ (by simp [hfield])))
      (namedTokens ms ++ ts)
    have hlater : ∀ field ∈ namedFields s.names ms,
        field ∉ (s.names.lookup name).toList ++ given := by
      intro field hfield hmem
      rcases List.mem_append.1 hmem with hsame | hgiven
      · exact hapart field hsame field hfield rfl
      · exact hnew field (List.mem_append_right _ hfield) hgiven
    have hrest := ih ⟨hvalues.2, honce⟩ hlater
    have hsingle : (s.names.lookup name).toList.reverse = (s.names.lookup name).toList := by
      cases s.names.lookup name <;> rfl
    rw [namedTokens_cons, List.length_cons, ← Nat.add_assoc]
    simp only [readMembers, List.cons_append, List.append_assoc, hread, hrest,
      List.reverse_append, hsingle]

/-- The members of an object are read as if a comma stood before the first one as well. -/
theorem exists_json_object (s : Schema α) (hms : ms ≠ []) (ts : List Token) :
    ∃ n, s.json ((Value.object ms).tokens ++ ts) =
      s.readMembers (n + ms.length + 1) false [] s.base (namedTokens ms ++ .mapClose :: ts) := by
  obtain ⟨m, more, rfl⟩ := List.exists_cons_of_ne_nil hms
  have hlength := length_le_namedTokens (m :: more)
  have htokens : (Value.object (m :: more)).tokens ++ ts =
      .mapOpen :: ((namedTokens (m :: more)).tail ++ .mapClose :: ts) := by
    simp [Value.tokens_object]
  obtain ⟨n, hn⟩ : ∃ n, ((namedTokens (m :: more)).tail ++ .mapClose :: ts).length =
      n + (m :: more).length := by
    refine Nat.exists_eq_add_of_le' ?_
    simp only [List.length_append, List.length_tail, List.length_cons] at hlength ⊢
    omega
  refine ⟨n, ?_⟩
  rw [htokens, json, hn, namedTokens_cons m.1 m.2]
  simp only [List.tail_cons, List.cons_append, readMembers]

/-- A record is read from an object that tells it, if it gives what is required. -/
theorem json_of_tells (hcopies : s.Copies values only) (htells : Tells s.names values ms)
    (hmissing : s.missing? (namedFields s.names ms).reverse = none) (ts : List Token) :
    s.json ((Value.object ms).tokens ++ ts) = .ok (only (namedFields s.names ms).reverse, ts) := by
  have hclose (n : Nat) (a : α) (first : Bool) :
      s.readMembers (n + 1) first (namedFields s.names ms).reverse a (.mapClose :: ts) =
        .ok (a, ts) := by
    simp only [readMembers, hmissing]
  cases ms with
  | nil =>
    change s.readMembers (ts.length + 1 + 1) true [] s.base (.mapClose :: ts) = .ok (only [], ts)
    rw [hcopies.base]
    exact hclose (ts.length + 1) s.base true
  | cons m more =>
    obtain ⟨n, hn⟩ := exists_json_object s (List.cons_ne_nil m more) ts
    rw [hn, ← hcopies.base, Nat.add_right_comm, readMembers_of_tells hcopies htells
      (fun _ _ => List.not_mem_nil), List.append_nil, hclose]

/-- A fault in a member is a fault in the object, if the members before it are read. -/
theorem json_of_fault (hcopies : s.Copies values only) (htells : Tells s.names values before)
    (hfault : ∀ ts, s.readMember name (namedFields s.names before).reverse
      (only (namedFields s.names before).reverse) (.colon :: (v.tokens ++ ts)) = .error fault)
    (ts : List Token) :
    s.json ((Value.object (before ++ (name, v) :: after)).tokens ++ ts) = .error fault := by
  have hmembers : before ++ (name, v) :: after ≠ [] := by simp
  obtain ⟨n, hn⟩ := exists_json_object s hmembers ts
  have hfuel : n + (before ++ (name, v) :: after).length + 1 =
      n + after.length + 1 + 1 + before.length := by
    simp
    omega
  rw [hn, ← hcopies.base, hfuel, namedTokens_append, List.append_assoc,
    readMembers_of_tells hcopies htells (fun _ _ => List.not_mem_nil), List.append_nil,
    namedTokens_cons]
  simp only [List.cons_append, readMembers, List.append_assoc, hfault]

/-- A field cannot be named again. -/
theorem json_of_duplicate (hcopies : s.Copies values only) (htells : Tells s.names values before)
    (hname : s.names.lookup name = some field) (hgiven : field ∈ namedFields s.names before)
    (ts : List Token) : s.json ((Value.object (before ++ (name, v) :: after)).tokens ++ ts) =
      .error (.mismatch (.duplicate field)) := by
  refine json_of_fault hcopies htells (fun ts => ?_) ts
  rw [lookup_names, Option.map_eq_some_iff] at hname
  obtain ⟨f, hf, rfl⟩ := hname
  rw [readMember, hf]
  simp [hgiven]

/-! ## Texts -/

variable {text : String}

theorem parse_of_json_ok (hjson : ∀ ts, s.json (v.tokens ++ ts) = .ok (a, ts))
    (htext : Laid v.tokens text.toList) : s.parse text = .ok a := by
  have hwhole := hjson []
  rw [List.append_nil] at hwhole
  rw [parse, Json.Reader.readText, Json.tokens_of_laid htext v.separated_tokens,
    hwhole]

theorem parse_of_json_error (hjson : ∀ ts, s.json (v.tokens ++ ts) = .error fault)
    (htext : Laid v.tokens text.toList) : s.parse text = .error fault := by
  have hwhole := hjson []
  rw [List.append_nil] at hwhole
  rw [parse, Json.Reader.readText, Json.tokens_of_laid htext v.separated_tokens,
    hwhole]

/-- A record is read from every text of an object that tells it. -/
theorem parse_of_tells (hcopies : s.Copies values only) (htells : Tells s.names values ms)
    (hmissing : s.missing? (namedFields s.names ms).reverse = none)
    (htext : Laid (Value.object ms).tokens text.toList) :
    s.parse text = .ok (only (namedFields s.names ms).reverse) :=
  parse_of_json_ok (json_of_tells hcopies htells hmissing) htext

end

end Schema

end WindowTally
