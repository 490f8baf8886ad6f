import Mathlib.Data.List.Chain
import WindowTally.Json.Token
import WindowTally.Proofs.Utf8

/-!
# JSON texts

What JSON texts look like, apart from how they are read. `Writes t cs` says that the
characters `cs` are one way of writing the token `t`: a string may have any of its characters
escaped, and a number may have a fraction and an exponent. `Laid ts cs` says that `cs` are the
tokens `ts`, one after the other, with white space wherever there may be some.

However tokens are written and laid out, it is these tokens that are read, if nothing but a mark
comes behind a number, as is so everywhere in JSON (`tokens_of_laid`).
-/
namespace WindowTally.Json

/-! ## Strings -/

/-- The letters that may follow a backslash, each with the character that is meant. -/
def escapes : List (Char × Char) :=
  [('"', '"'), ('\\', '\\'), ('/', '/'), ('b', '\x08'), ('f', '\x0c'), ('n', '\n'), ('r', '\r'),
    ('t', '\t')]

/-- How the units of a string are written: as they are, with a letter after a backslash, or by their
number. -/
inductive WritesUnits : List TextUnit → List Char → Prop
  | nil : WritesUnits [] []
  | plain {c : Char} {us : List TextUnit} {cs : List Char} : c ≠ '"' → c ≠ '\\' → 32 ≤ c.toNat →
      WritesUnits us cs → WritesUnits (.whole c :: us) (c :: cs)
  | letter {e c : Char} {us : List TextUnit} {cs : List Char} : (e, c) ∈ escapes →
      WritesUnits us cs → WritesUnits (.whole c :: us) ('\\' :: e :: cs)
  | number {n : Nat} {a b c d : Char} {us : List TextUnit} {cs : List Char} :
      Text.hexNumber [a, b, c, d] = some n →
      WritesUnits us cs → WritesUnits (.ofNat n :: us) ('\\' :: 'u' :: a :: b :: c :: d :: cs)

/-- The characters that units stand for. A character beyond sixteen bits may be in two halves. -/
inductive Joins : List TextUnit → List Char → Prop
  | nil : Joins [] []
  | whole {c : Char} {us : List TextUnit} {s : List Char} : Joins us s →
      Joins (.whole c :: us) (c :: s)
  | halves {c : Char} {us : List TextUnit} {s : List Char} : 0x10000 ≤ c.toNat → Joins us s →
      Joins (.half (0xD800 + (c.toNat - 0x10000) / 0x400) ::
        .half (0xDC00 + (c.toNat - 0x10000) % 0x400) :: us) (c :: s)

theorem unescape_of_mem {e c : Char} (h : (e, c) ∈ escapes) : unescape e = some c := by
  revert h
  simp only [escapes, List.mem_cons, List.not_mem_nil, or_false, Prod.mk.injEq]
  rintro (⟨rfl, rfl⟩ | ⟨rfl, rfl⟩ | ⟨rfl, rfl⟩ | ⟨rfl, rfl⟩ | ⟨rfl, rfl⟩ | ⟨rfl, rfl⟩ |
    ⟨rfl, rfl⟩ | ⟨rfl, rfl⟩) <;> rfl

theorem lexUnits_plain {c : Char} (hquote : c ≠ '"') (hslash : c ≠ '\\') (hlow : ¬ c.toNat < 32)
    (rest : List Char) :
    lexUnits (c :: rest) = (lexUnits rest).map fun r => (.whole c :: r.1, r.2) := by
  rw [lexUnits.eq_def]
  split
  · next h => cases h
  · next h => exact absurd (List.cons.inj h).1 hquote
  · next h => exact absurd (List.cons.inj h).1 hslash
  · next h => exact absurd (List.cons.inj h).1 hslash
  · next h =>
    obtain ⟨rfl, rfl⟩ := List.cons.inj h
    rw [if_neg (by simp [hlow, hslash])]

theorem lexUnits_letter {e c : Char} (h : unescape e = some c) (rest : List Char) :
    lexUnits ('\\' :: e :: rest) = (lexUnits rest).map fun r => (.whole c :: r.1, r.2) := by
  have hu : e ≠ 'u' := by
    rintro rfl
    cases h
  rw [lexUnits.eq_def]
  split
  · next heq => cases heq
  · next heq => cases heq
  · next heq =>
    simp only [List.cons.injEq] at heq
    exact absurd heq.2.1 hu
  · next heq =>
    simp only [List.cons.injEq, true_and] at heq
    obtain ⟨rfl, rfl⟩ := heq
    rw [h]
  · next hnot heq =>
    simp only [List.cons.injEq] at heq
    obtain ⟨rfl, rfl⟩ := heq
    exact (hnot e rest rfl rfl).elim

/-- Units are read up to the closing quote. -/
theorem lexUnits_of_writes {us : List TextUnit} {cs : List Char} (h : WritesUnits us cs)
    (rest : List Char) : lexUnits (cs ++ '"' :: rest) = some (us, rest) := by
  induction h with
  | nil => rfl
  | plain hquote hslash hlow _ ih =>
    rw [List.cons_append, lexUnits_plain hquote hslash (Nat.not_lt.2 hlow), ih]
    rfl
  | letter hmem _ ih =>
    rw [List.cons_append, List.cons_append, lexUnits_letter (unescape_of_mem hmem), ih]
    rfl
  | number hnumber _ ih =>
    simp only [List.cons_append, lexUnits, hnumber, ih]
    rfl

/-- Halves of a character are a high and a low one, and the pair of them is the character. -/
theorem pairValue_halves {c : Char} (h : 0x10000 ≤ c.toNat) :
    isHighSurrogate (0xD800 + (c.toNat - 0x10000) / 0x400) = true ∧
    isLowSurrogate (0xDC00 + (c.toNat - 0x10000) % 0x400) = true ∧
    pairValue (0xD800 + (c.toNat - 0x10000) / 0x400) (0xDC00 + (c.toNat - 0x10000) % 0x400) = c := by
  have hlt : c.toNat < 0x110000 := by
    rcases c.valid with hlow | hhigh
    · exact Nat.lt_trans hlow (by decide)
    · exact hhigh.2
  refine ⟨?_, ?_, ?_⟩
  · simp [isHighSurrogate]
    omega
  · simp [isLowSurrogate]
    omega
  · have hvalue : (0xD800 + (c.toNat - 0x10000) / 0x400 - 0xD800) * 1024 +
        (0xDC00 + (c.toNat - 0x10000) % 0x400 - 0xDC00) + 0x10000 = c.toNat := by omega
    rw [pairValue, hvalue, Char.ofNat_toNat]

/-- A pair of a high and a low half is the character that has these halves. -/
theorem toNat_pairValue {n m : Nat} (h : (isHighSurrogate n && isLowSurrogate m) = true) :
    0x10000 ≤ (pairValue n m).toNat ∧
    n = 0xD800 + ((pairValue n m).toNat - 0x10000) / 0x400 ∧
    m = 0xDC00 + ((pairValue n m).toNat - 0x10000) % 0x400 := by
  simp only [isHighSurrogate, isLowSurrogate, Bool.and_eq_true, decide_eq_true_eq] at h
  have hvalid : Nat.isValidChar ((n - 0xD800) * 1024 + (m - 0xDC00) + 0x10000) :=
    .inr (by omega)
  have hvalue : (pairValue n m).toNat = (n - 0xD800) * 1024 + (m - 0xDC00) + 0x10000 :=
    Utf8.toNat_ofNat hvalid
  omega

/-- Characters are joined from units just when the units stand for them. -/
theorem joinUnits_eq_some_iff {us : List TextUnit} {s : List Char} :
    joinUnits us = some s ↔ Joins us s := by
  constructor
  · intro h
    induction us using joinUnits.induct generalizing s with
    | case1 => cases h; exact .nil
    | case2 c us ih =>
      rw [joinUnits, Option.map_eq_some_iff] at h
      obtain ⟨s, hs, rfl⟩ := h
      exact (ih hs).whole
    | case3 n m us hpair ih =>
      rw [joinUnits, if_pos hpair, Option.map_eq_some_iff] at h
      obtain ⟨s, hs, rfl⟩ := h
      obtain ⟨hbeyond, hhigh, hlow⟩ := toNat_pairValue hpair
      have hjoins := (ih hs).halves hbeyond
      rwa [← hhigh, ← hlow] at hjoins
    | case4 n m us hpair =>
      rw [joinUnits, if_neg hpair] at h
      cases h
    | case5 n us hus =>
      rw [joinUnits] at h
      · cases h
      · exact hus
  · intro h
    induction h with
    | nil => rfl
    | whole _ ih => rw [joinUnits, ih]; rfl
    | halves hc _ ih =>
      obtain ⟨hhigh, hlow, hvalue⟩ := pairValue_halves hc
      rw [joinUnits, hhigh, hlow, ih, hvalue]
      rfl

/-! ## Numbers -/

/-- A row of digits. -/
structure Digits where
  chars : List Char
  nonempty : chars ≠ []
  digits : ∀ c ∈ chars, c.isDigit = true

/-- The values of the digits. -/
def Digits.values (ds : Digits) : List Nat := ds.chars.map fun c => c.toNat - 48

/-- An exponent as it is written: a letter, a sign or none, and digits. -/
structure ExponentText where
  capital : Bool
  /-- Whether the sign, if there is one, is a minus. -/
  minus : Option Bool
  digits : Digits

namespace ExponentText

def chars (e : ExponentText) : List Char :=
  let sign := match e.minus with
    | none => []
    | some false => ['+']
    | some true => ['-']
  (if e.capital then 'E' else 'e') :: (sign ++ e.digits.chars)

def value (e : ExponentText) : Int :=
  let n : Int := Decimal.digitsValue e.digits.values
  if e.minus = some true then -n else n

end ExponentText

/-- A number as it is written: a minus or none, digits, and then a fraction and an exponent or none.
The digits before the point have no zero in front. -/
structure NumberText where
  negative : Bool
  whole : Digits
  shortest : ∀ ds, whole.chars = '0' :: ds → ds = []
  fraction : Option Digits
  exponent : Option ExponentText

namespace NumberText

/-- The fraction, behind its point. -/
def fractionChars (n : NumberText) : List Char :=
  match n.fraction with
  | none => []
  | some ds => '.' :: ds.chars

def exponentChars (n : NumberText) : List Char :=
  match n.exponent with
  | none => []
  | some e => e.chars

/-- The number without its sign. -/
def unsigned (n : NumberText) : List Char := n.whole.chars ++ (n.fractionChars ++ n.exponentChars)

def chars (n : NumberText) : List Char := if n.negative then '-' :: n.unsigned else n.unsigned

/-- The parts of a number that is written. -/
def lexeme (n : NumberText) : Lexeme :=
  ⟨n.negative, n.whole.values, n.fraction.map Digits.values, n.exponent.map ExponentText.value⟩

end NumberText

/-- What follows a number does not go on with it. -/
def EndsNumber (rest : List Char) : Prop :=
  ∀ c ∈ rest.head?, c.isDigit = false ∧ c ≠ '.' ∧ c ≠ 'e' ∧ c ≠ 'E'

theorem takeDigits_append {ds rest : List Char} (hds : ∀ c ∈ ds, c.isDigit = true)
    (hrest : ∀ c ∈ rest.head?, c.isDigit = false) :
    Decimal.takeDigits (ds ++ rest) = (ds.map fun c => c.toNat - 48, rest) := by
  have hstop : rest.takeWhile Char.isDigit = [] ∧ rest.dropWhile Char.isDigit = rest := by
    cases rest with
    | nil => exact ⟨rfl, rfl⟩
    | cons c rest =>
      have hc := hrest c rfl
      simp [hc]
  rw [Decimal.takeDigits, List.takeWhile_append_of_pos hds, List.dropWhile_append_of_pos hds,
    hstop.1, hstop.2, List.append_nil]

theorem lexExponent_none {rest : List Char} (h : EndsNumber rest) :
    lexExponent rest = some (none, rest) := by
  unfold lexExponent
  split
  · exact absurd rfl (h 'e' rfl).2.2.1
  · exact absurd rfl (h 'E' rfl).2.2.2
  · exact absurd rfl (h 'e' rfl).2.2.1
  · exact absurd rfl (h 'E' rfl).2.2.2
  · exact absurd rfl (h 'e' rfl).2.2.1
  · exact absurd rfl (h 'E' rfl).2.2.2
  · rfl

theorem takeDigits_digits (ds : Digits) {rest : List Char}
    (hrest : ∀ c ∈ rest.head?, c.isDigit = false) :
    Decimal.takeDigits (ds.chars ++ rest) = (ds.values, rest) :=
  takeDigits_append ds.digits hrest

theorem Digits.exists_values (ds : Digits) : ∃ v vs, ds.values = v :: vs := by
  obtain ⟨c, cs, hcs⟩ := List.exists_cons_of_ne_nil ds.nonempty
  exact ⟨_, _, by rw [Digits.values, hcs]; rfl⟩

theorem lexExponentDigits_digits (ds : Digits) (negative : Bool) {rest : List Char}
    (hrest : EndsNumber rest) : lexExponentDigits negative (ds.chars ++ rest) =
      some (some (if negative then -(Decimal.digitsValue ds.values : Int)
        else Decimal.digitsValue ds.values), rest) := by
  obtain ⟨v, vs, hvs⟩ := ds.exists_values
  rw [lexExponentDigits, takeDigits_digits ds fun c hc => (hrest c hc).1, hvs]

/-- An exponent without a sign is not taken to have one. -/
theorem lexExponent_unsigned {letter : Char} (hletter : letter = 'e' ∨ letter = 'E') (ds : Digits)
    (rest : List Char) :
    lexExponent (letter :: (ds.chars ++ rest)) = lexExponentDigits false (ds.chars ++ rest) := by
  obtain ⟨c, cs, hcs⟩ := List.exists_cons_of_ne_nil ds.nonempty
  have hdigit : c.isDigit = true := ds.digits c (hcs ▸ List.mem_cons_self)
  have hplus : c ≠ '+' := by
    rintro rfl
    cases hdigit
  have hminus : c ≠ '-' := by
    rintro rfl
    cases hdigit
  rw [hcs, List.cons_append, lexExponent.eq_def]
  rcases hletter with rfl | rfl
  · simp [hplus, hminus]
  · simp [hplus, hminus]

theorem lexExponent_chars (e : ExponentText) {rest : List Char} (hrest : EndsNumber rest) :
    lexExponent (e.chars ++ rest) = some (some e.value, rest) := by
  obtain ⟨capital, minus, ds⟩ := e
  have hvalue := lexExponentDigits_digits ds (minus == some true) hrest
  have hletter : (if capital then 'E' else 'e') = 'e' ∨ (if capital then 'E' else 'e') = 'E' := by
    cases capital <;> simp
  match minus with
  | none =>
    have hunsigned := lexExponent_unsigned hletter ds rest
    exact hunsigned.trans hvalue
  | some false =>
    cases capital with
    | true => exact hvalue
    | false => exact hvalue
  | some true =>
    cases capital with
    | true => exact hvalue
    | false => exact hvalue

namespace NumberText

variable (n : NumberText) {rest : List Char}

theorem lexExponent_exponentChars (hrest : EndsNumber rest) :
    lexExponent (n.exponentChars ++ rest) = some (n.exponent.map ExponentText.value, rest) := by
  unfold exponentChars
  cases n.exponent with
  | none => exact lexExponent_none hrest
  | some e => exact lexExponent_chars e hrest

/-- What follows the fraction is no part of it. -/
theorem head_exponentChars (hrest : EndsNumber rest) :
    ∀ c ∈ (n.exponentChars ++ rest).head?, c.isDigit = false ∧ c ≠ '.' := by
  unfold exponentChars
  cases n.exponent with
  | none =>
    intro c hc
    exact ⟨(hrest c hc).1, (hrest c hc).2.1⟩
  | some e =>
    intro c hc
    cases hc
    cases e.capital <;> decide

theorem lexFraction_fractionChars (hrest : EndsNumber rest) :
    lexFraction (n.fractionChars ++ (n.exponentChars ++ rest)) =
      some (n.fraction.map Digits.values, n.exponentChars ++ rest) := by
  have hhead := n.head_exponentChars hrest
  unfold fractionChars
  cases n.fraction with
  | none =>
    rw [List.nil_append, lexFraction]
    · rfl
    · intro cs hcs
      rw [hcs] at hhead
      exact (hhead '.' rfl).2 rfl
  | some ds =>
    obtain ⟨v, vs, hvs⟩ := ds.exists_values
    rw [List.cons_append, lexFraction, takeDigits_digits ds fun c hc => (hhead c hc).1, hvs,
      Option.map_some, hvs]

/-- What follows the whole digits is none of them. -/
theorem head_fractionChars (hrest : EndsNumber rest) :
    ∀ c ∈ (n.fractionChars ++ (n.exponentChars ++ rest)).head?, c.isDigit = false := by
  unfold fractionChars
  cases n.fraction with
  | none =>
    intro c hc
    exact (n.head_exponentChars hrest c hc).1
  | some ds =>
    intro c hc
    cases hc
    rfl

/-- A number is read as far as it goes. -/
theorem lexNumber_unsigned (hrest : EndsNumber rest) :
    lexNumber n.negative (n.unsigned ++ rest) = some (.ofLexeme n.lexeme, rest) := by
  have hzero : ∀ v vs, n.whole.values = 0 :: v :: vs → False := by
    intro v vs hvs
    obtain ⟨c, cs, hcs⟩ := List.exists_cons_of_ne_nil n.whole.nonempty
    rw [Digits.values, hcs, List.map_cons, List.cons.injEq] at hvs
    have hdigit := n.whole.digits c (hcs ▸ List.mem_cons_self)
    simp only [Char.isDigit, Bool.and_eq_true, decide_eq_true_eq, ge_iff_le,
      UInt32.le_iff_toNat_le] at hdigit
    have hcode : c.toNat = '0'.toNat := Nat.le_antisymm (Nat.sub_eq_zero_iff_le.1 hvs.1) hdigit.1
    obtain rfl : c = '0' := by
      rw [← Char.ofNat_toNat c, hcode]
      rfl
    rw [n.shortest cs hcs] at hvs
    cases hvs.2
  obtain ⟨v, vs, hvs⟩ := n.whole.exists_values
  have hfraction := n.lexFraction_fractionChars hrest
  have hexponent := n.lexExponent_exponentChars hrest
  rw [unsigned, List.append_assoc, List.append_assoc, lexNumber,
    takeDigits_digits n.whole (n.head_fractionChars hrest)]
  simp only [hfraction, hexponent, Option.bind_eq_bind, Option.bind_some, lexeme, hvs]
  split
  · next h => cases h
  · next h =>
    obtain ⟨rfl, rfl⟩ := List.cons.inj h
    exact (hzero _ _ hvs).elim
  · rfl

end NumberText

/-! ## Tokens -/

/-- The ways of writing a token. -/
inductive Writes : Token → List Char → Prop
  | listOpen : Writes .listOpen ['[']
  | listClose : Writes .listClose [']']
  | mapOpen : Writes .mapOpen ['{']
  | mapClose : Writes .mapClose ['}']
  | comma : Writes .comma [',']
  | colon : Writes .colon [':']
  | null : Writes .null ['n', 'u', 'l', 'l']
  | true : Writes (.flag true) ['t', 'r', 'u', 'e']
  | false : Writes (.flag false) ['f', 'a', 'l', 's', 'e']
  | number (n : NumberText) : Writes (.number (.ofLexeme n.lexeme)) n.chars
  | text {us : List TextUnit} {cs s : List Char} : WritesUnits us cs → Joins us s →
      Writes (.text (some (String.ofList s))) ('"' :: (cs ++ ['"']))
  /-- A string in which the other half of a character is missing. -/
  | torn {us : List TextUnit} {cs : List Char} : WritesUnits us cs → (∀ s, ¬ Joins us s) →
      Writes (.text none) ('"' :: (cs ++ ['"']))

/-- Tokens one after the other, with white space anywhere between them. -/
inductive Laid : List Token → List Char → Prop
  | nil : Laid [] []
  | space {c : Char} {ts : List Token} {cs : List Char} : c ∈ [' ', '\n', '\t', '\r'] →
      Laid ts cs → Laid ts (c :: cs)
  | token {t : Token} {ts : List Token} {w cs : List Char} : Writes t w → Laid ts cs →
      Laid (t :: ts) (w ++ cs)

/-! ## Numbers end before marks -/

def Token.isNumber : Token → Bool
  | .number _ => true
  | _ => false

/-- Whether a token is a bracket, a comma or a colon. -/
def Token.isMark : Token → Bool
  | .listOpen | .listClose | .mapOpen | .mapClose | .comma | .colon => true
  | _ => false

/-- Nothing but a mark comes behind a number. -/
def Separated (ts : List Token) : Prop :=
  ts.IsChain fun t t' => t.isNumber = true → t'.isMark = true

theorem Separated.cons {t : Token} {ts : List Token} (h : Separated ts)
    (ht : t.isNumber = false) : Separated (t :: ts) := by
  refine List.IsChain.cons h fun t' _ hnumber => ?_
  rw [ht] at hnumber
  cases hnumber

theorem Separated.append {ts ts' : List Token} (h : Separated ts) (h' : Separated ts')
    (hmark : ∀ t ∈ ts'.head?, t.isMark = true) : Separated (ts ++ ts') :=
  List.isChain_append.2 ⟨h, h', fun _ _ t ht _ => hmark t ht⟩

theorem endsNumber_cons {c : Char} (h : c.isDigit = false ∧ c ≠ '.' ∧ c ≠ 'e' ∧ c ≠ 'E')
    (rest : List Char) : EndsNumber (c :: rest) := by
  intro d hd
  cases hd
  exact h

/-- White space and marks do not go on with a number. -/
theorem endsNumber_of_laid {ts : List Token} {cs : List Char} (h : Laid ts cs)
    (hmark : ∀ t ∈ ts.head?, t.isMark = true) : EndsNumber cs := by
  cases h with
  | nil => exact nofun
  | space hspace _ =>
    refine endsNumber_cons ?_ _
    simp only [List.mem_cons, List.not_mem_nil, or_false] at hspace
    rcases hspace with rfl | rfl | rfl | rfl <;> decide
  | token hwrites _ =>
    have hfirst := hmark _ rfl
    cases hwrites with
    | listOpen | listClose | mapOpen | mapClose | comma | colon =>
      exact endsNumber_cons (by decide) _
    | null | true | false | number | text | torn => cases hfirst

/-! ## Reading tokens -/

theorem isSpace_of_isDigit {c : Char} (h : c.isDigit = true) : isSpace c = false := by
  rw [Bool.eq_false_iff]
  intro hspace
  simp only [isSpace, Bool.or_eq_true, decide_eq_true_eq] at hspace
  rcases hspace with ((rfl | rfl) | rfl) | rfl <;> exact absurd h (by decide)

/-- The token of a number that begins with a digit. -/
theorem lexToken_digit {c : Char} (h : c.isDigit = true) (cs : List Char) :
    lexToken c cs = (lexNumber false (c :: cs)).map fun r => (.number r.1, r.2) := by
  unfold lexToken
  split
  all_goals first | exact absurd h (by decide) | skip
  rw [if_pos h]

/-- A token is read from any way of writing it. -/
theorem lexToken_of_writes {t : Token} {w rest : List Char} (h : Writes t w)
    (hends : t.isNumber = true → EndsNumber rest) :
    ∃ c cs, w = c :: cs ∧ isSpace c = false ∧ lexToken c (cs ++ rest) = some (t, rest) := by
  cases h with
  | listOpen | listClose | mapOpen | mapClose | comma | colon | null | true | false =>
    exact ⟨_, _, rfl, rfl, rfl⟩
  | number n =>
    have hnumber := n.lexNumber_unsigned (hends rfl)
    unfold NumberText.chars
    cases hnegative : n.negative with
    | true =>
      rw [hnegative] at hnumber
      refine ⟨'-', n.unsigned, rfl, rfl, ?_⟩
      change (lexNumber true (n.unsigned ++ rest)).map _ = _
      rw [hnumber]
      rfl
    | false =>
      rw [hnegative] at hnumber
      obtain ⟨c, cs, hcs⟩ := List.exists_cons_of_ne_nil n.whole.nonempty
      have hdigit := n.whole.digits c (hcs ▸ List.mem_cons_self)
      have hunsigned : n.unsigned = c :: (cs ++ (n.fractionChars ++ n.exponentChars)) := by
        rw [NumberText.unsigned, hcs]
        rfl
      rw [hunsigned] at hnumber ⊢
      refine ⟨c, _, rfl, isSpace_of_isDigit hdigit, ?_⟩
      rw [lexToken_digit hdigit, ← List.cons_append, hnumber]
      rfl
  | @text us cs s hunits hjoins =>
    refine ⟨'"', _, rfl, rfl, ?_⟩
    rw [List.append_assoc]
    change (lexText (cs ++ '"' :: rest)).map _ = _
    rw [lexText, lexUnits_of_writes hunits, Option.map_some, joinUnits_eq_some_iff.2 hjoins]
    rfl
  | @torn us cs hunits htorn =>
    have hnone : joinUnits us = none := by
      refine Option.eq_none_iff_forall_not_mem.2 fun s hs => ?_
      exact htorn s (joinUnits_eq_some_iff.1 hs)
    refine ⟨'"', _, rfl, rfl, ?_⟩
    rw [List.append_assoc]
    change (lexText (cs ++ '"' :: rest)).map _ = _
    rw [lexText, lexUnits_of_writes hunits, Option.map_some, hnone]
    rfl

theorem lex_of_lexToken {c : Char} {cs rest : List Char} {t : Token} (n : Nat)
    (hspace : isSpace c = false) (h : lexToken c cs = some (t, rest)) :
    lex (n + 1) (c :: cs) = t :: lex n rest := by
  rw [lex, hspace, h]
  rfl

theorem isSpace_of_mem {c : Char} (h : c ∈ [' ', '\n', '\t', '\r']) : isSpace c = true := by
  simp only [List.mem_cons, List.not_mem_nil, or_false] at h
  rcases h with rfl | rfl | rfl | rfl <;> rfl

/-- Every step takes a character, so that there are steps enough to read everything. -/
theorem lex_of_laid {ts : List Token} {cs : List Char} (h : Laid ts cs) (hts : Separated ts) :
    ∀ n, cs.length < n → lex n cs = ts := by
  induction h with
  | nil =>
    intro n hn
    obtain ⟨n, rfl⟩ := Nat.exists_eq_add_one_of_ne_zero (Nat.ne_of_gt hn)
    rfl
  | space hspace _ ih =>
    intro n hn
    obtain ⟨n, rfl⟩ := Nat.exists_eq_add_one_of_ne_zero (Nat.ne_zero_of_lt hn)
    rw [lex, isSpace_of_mem hspace, if_pos rfl]
    exact ih hts n (Nat.lt_of_succ_lt_succ hn)
  | @token t ts w rest hwrites hlaid ih =>
    intro n hn
    obtain ⟨hhead, htail⟩ := List.isChain_cons.1 hts
    have hends : t.isNumber = true → EndsNumber rest := fun hnumber =>
      endsNumber_of_laid hlaid fun t' ht' => hhead t' ht' hnumber
    obtain ⟨n, rfl⟩ := Nat.exists_eq_add_one_of_ne_zero (Nat.ne_zero_of_lt hn)
    obtain ⟨c, cs, rfl, hspace, hlex⟩ := lexToken_of_writes hwrites hends
    rw [List.cons_append, lex_of_lexToken n hspace hlex, ih htail n]
    simp at hn
    omega

/-- The tokens of a text are those it is written for. -/
theorem tokens_of_laid {ts : List Token} {cs : List Char} (h : Laid ts cs) (hts : Separated ts) :
    tokens cs = ts :=
  lex_of_laid h hts _ (Nat.lt_succ_self _)

end WindowTally.Json
