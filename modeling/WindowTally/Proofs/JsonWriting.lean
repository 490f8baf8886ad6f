import Mathlib.Algebra.Ring.Int.Defs
import WindowTally.Json.Text
import WindowTally.Proofs.JsonObjects
import WindowTally.Proofs.WindowNames

/-!
# What is written is JSON

Everything that the program writes is a JSON text of what it stands for: strings with their
escapes (`writes_quoted`), integers up to 64 bits (`writes_integer`), truth values, and objects
of written values (`laid_object`).
-/
namespace WindowTally.Json

/-! ## Strings -/

theorem hexValue_hexDigit : ∀ d < 16, Text.hexValue (Text.hexDigit d) = some d := by decide

/-- The four digits of the escape of a control character. -/
theorem hexNumber_hexDigits {n : Nat} (h : n < 256) :
    Text.hexNumber ['0', '0', Text.hexDigit (n / 16), Text.hexDigit (n % 16)] = some n := by
  have hhigh := hexValue_hexDigit (n / 16) (by omega)
  have hlow := hexValue_hexDigit (n % 16) (by omega)
  have hzero : Text.hexValue '0' = some 0 := rfl
  have hn : n / 16 * 16 + n % 16 = n := by omega
  simp [Text.hexNumber, List.foldlM, hzero, hhigh, hlow, hn]

/-- A control character is no half of one. -/
theorem ofNat_of_control {c : Char} (h : c.toNat < 32) : TextUnit.ofNat c.toNat = .whole c := by
  have hhigh : isHighSurrogate c.toNat = false := by
    simp [isHighSurrogate]
    omega
  have hlow : isLowSurrogate c.toNat = false := by
    simp [isLowSurrogate]
    omega
  rw [TextUnit.ofNat, hhigh, hlow, Char.ofNat_toNat]
  rfl

theorem writesUnits_escape (c : Char) {us : List TextUnit} {cs : List Char}
    (h : WritesUnits us cs) : WritesUnits (.whole c :: us) (escape c ++ cs) := by
  have hletter {e : Char} (hmem : (e, c) ∈ escapes) :
      WritesUnits (.whole c :: us) (['\\', e] ++ cs) := h.letter hmem
  unfold escape
  split
  · next hc => exact hletter (by simp [escapes, hc])
  split
  · next hc => exact hletter (by simp [escapes, hc])
  split
  · next hc => exact hletter (by simp [escapes, hc])
  split
  · next hc => exact hletter (by simp [escapes, hc])
  split
  · next hc => exact hletter (by simp [escapes, hc])
  split
  · next hc => exact hletter (by simp [escapes, hc])
  split
  · next hc => exact hletter (by simp [escapes, hc])
  split
  · next hlow =>
    have hnumber := hexNumber_hexDigits (show c.toNat < 256 by omega)
    rw [← ofNat_of_control hlow]
    exact h.number hnumber
  · next hquote hslash _ _ _ _ _ hlow => exact h.plain hquote hslash (Nat.not_lt.1 hlow)

/-- Characters are written as themselves, or escaped. -/
theorem writesUnits_whole (cs : List Char) :
    WritesUnits (cs.map .whole) (cs.flatMap escape) := by
  induction cs with
  | nil => exact .nil
  | cons c cs ih =>
    rw [List.map_cons, List.flatMap_cons]
    exact writesUnits_escape c ih

theorem joins_whole (cs : List Char) : Joins (cs.map .whole) cs := by
  induction cs with
  | nil => exact .nil
  | cons c cs ih => exact ih.whole

theorem writes_quoted (s : String) : Writes (.text (some s)) (quoted s.toList) := by
  have hwrites := Writes.text (writesUnits_whole s.toList) (joins_whole s.toList)
  rwa [String.ofList_toList] at hwrites

/-! ## Numbers and truth values -/

theorem digitsValue_toDigits (n : Nat) :
    Decimal.digitsValue ((Nat.toDigits 10 n).map fun c => c.toNat - 48) = n := by
  have hvalue := Nat.ofDigitChars_toDigits (b := 10) (n := n) (by decide) (by decide)
  rw [Decimal.digitsValue, List.foldl_map]
  simp only [Nat.ofDigitChars, Nat.mul_comm 10] at hvalue
  exact hvalue

/-- A number other than zero is written without a leading zero. -/
theorem head_toDigits_ne_zero {n : Nat} (h : 0 < n) :
    ∃ d ds, Nat.toDigits 10 n = d :: ds ∧ d.toNat - 48 ≠ 0 := by
  induction n using Nat.strongRecOn with
  | ind n ih =>
    rw [Nat.toDigits_eq_if (by decide)]
    split
    · next hlt =>
      have hdigit : ∀ m < 10, 0 < m → m.digitChar.toNat - 48 ≠ 0 := by decide
      exact ⟨_, [], rfl, hdigit n hlt h⟩
    · obtain ⟨d, ds, heq, hd⟩ := ih (n / 10) (by omega) (by omega)
      exact ⟨d, ds ++ _, by rw [heq]; rfl, hd⟩

theorem toList_ofNat (n : Nat) : (toString (Int.ofNat n)).toList = Nat.toDigits 10 n := by
  change (Nat.repr n).toList = _
  rw [Nat.repr, String.toList_ofList]

/-- The digits of a number. -/
def Digits.ofNat (n : Nat) : Digits where
  chars := Nat.toDigits 10 n
  nonempty := Nat.toDigits_ne_nil
  digits _ := Nat.isDigit_of_mem_toDigits (by decide) (by decide)

/-- An integer as it is written. -/
def NumberText.ofNat (negative : Bool) (n : Nat) : NumberText where
  negative := negative
  whole := .ofNat n
  shortest ds hds := by
    cases n with
    | zero => cases hds; rfl
    | succ n =>
      obtain ⟨d, ds', heq, hd⟩ := head_toDigits_ne_zero (Nat.succ_pos n)
      cases heq.symm.trans hds
      exact absurd rfl hd
  fraction := none
  exponent := none

/-- A sign and digits are an integer, if it is in range. -/
theorem ofLexeme_ofNat {negative : Bool} {n : Nat} {i : Int}
    (hsign : i = if negative then -(n : Int) else n)
    (hrange : if negative then 0 < n ∧ n ≤ 1 <<< 63 else n < UInt64.size) :
    Numeral.ofLexeme (NumberText.ofNat negative n).lexeme = .integer i := by
  have hvalue : Decimal.digitsValue (Digits.ofNat n).values = n := digitsValue_toDigits n
  simp only [Numeral.ofLexeme, Numeral.integer?, NumberText.lexeme, NumberText.ofNat, Option.map_none,
    hvalue]
  cases negative with
  | true => simp_all
  | false => simp_all

theorem writes_integer {i : Int} (hleast : -2 ^ 63 ≤ i) (hgreatest : i < 2 ^ 64) :
    Writes (.number (.integer i)) (integer i) := by
  cases i with
  | ofNat n =>
    have hrange : n < UInt64.size := by
      have hsize : UInt64.size = 2 ^ 64 := rfl
      have hlt : (n : Int) < 2 ^ 64 := hgreatest
      omega
    have hlexeme : Numeral.ofLexeme (NumberText.ofNat false n).lexeme = .integer n :=
      ofLexeme_ofNat rfl hrange
    have hwrites := Writes.number (.ofNat false n)
    rw [hlexeme] at hwrites
    rw [integer, toList_ofNat]
    simpa [NumberText.chars, NumberText.unsigned, NumberText.ofNat, Digits.ofNat,
      NumberText.fractionChars, NumberText.exponentChars] using hwrites
  | negSucc n =>
    have hrange : 0 < n + 1 ∧ n + 1 ≤ 1 <<< 63 := by
      have hshift : 1 <<< 63 = 2 ^ 63 := rfl
      omega
    have hlexeme : Numeral.ofLexeme (NumberText.ofNat true (n + 1)).lexeme =
        .integer (Int.negSucc n) := ofLexeme_ofNat rfl hrange
    have hwrites := Writes.number (.ofNat true (n + 1))
    rw [hlexeme] at hwrites
    rw [integer, toList_negSucc, Nat.repr, String.toList_ofList]
    simpa [NumberText.chars, NumberText.unsigned, NumberText.ofNat, Digits.ofNat,
      NumberText.fractionChars, NumberText.exponentChars] using hwrites

theorem writes_flag (b : Bool) : Writes (.flag b) (flag b) := by
  cases b with
  | true => exact .true
  | false => exact .false

/-! ## Texts -/

theorem laid_token {t : Token} {w : List Char} (h : Writes t w) : Laid [t] w := by
  have hlaid : Laid [t] (w ++ []) := .token h .nil
  rwa [List.append_nil] at hlaid

theorem laid_quoted (s : String) : Laid [.text (some s)] (quoted s.toList) :=
  laid_token (writes_quoted s)

theorem laid_flag (b : Bool) : Laid [.flag b] (flag b) := laid_token (writes_flag b)

theorem laid_word32 (n : UInt32) : Laid [.number (.integer n.toNat)] (integer n.toNat) := by
  have hlt := n.toNat_lt
  exact laid_token (writes_integer (by omega) (by omega))

theorem laid_word64 (n : UInt64) : Laid [.number (.integer n.toNat)] (integer n.toNat) := by
  have hlt := n.toNat_lt
  exact laid_token (writes_integer (by omega) (by omega))

theorem laid_millis (t : Millis) : Laid [.number (.integer t.toInt)] (integer t.toInt) := by
  have hle := Int64.le_toInt t
  have hlt := Int64.toInt_lt t
  exact laid_token (writes_integer (by omega) (by omega))

theorem Laid.append {ts ts' : List Token} {cs cs' : List Char} (h : Laid ts cs)
    (h' : Laid ts' cs') : Laid (ts ++ ts') (cs ++ cs') := by
  induction h with
  | nil => exact h'
  | space hspace _ ih => exact ih.space hspace
  | token hwrites _ ih =>
    rw [List.append_assoc]
    exact ih.token hwrites

/-- A member that is written: its name, and a text of its value. -/
def WrittenMember (m : String × Value) (w : String × List Char) : Prop :=
  m.1 = w.1 ∧ Laid m.2.tokens w.2

theorem laid_members {ms : List (String × Value)} {ws : List (String × List Char)}
    (h : List.Forall₂ WrittenMember ms ws) : Laid (Value.namedTokens ms).tail (members ws) := by
  induction h with
  | nil => exact .nil
  | @cons m w ms ws hmember hmembers ih =>
    obtain ⟨name, v⟩ := m
    obtain ⟨name', value⟩ := w
    obtain ⟨rfl, hvalue⟩ := hmember
    have hmember {ts : List Token} {cs : List Char} (hrest : Laid ts cs) :
        Laid (.text (some name) :: .colon :: (v.tokens ++ ts))
          (quoted name.toList ++ ':' :: (value ++ cs)) :=
      .token (writes_quoted name) (.token .colon (hvalue.append hrest))
    cases hmembers with
    | nil => simpa [Value.namedTokens_cons, Value.namedTokens_nil, members] using hmember .nil
    | @cons m' w' ms ws _ _ =>
      have hrest := hmember (.token .comma ih)
      rw [← Value.namedTokens_eq_comma] at hrest
      simpa [Value.namedTokens_cons, members] using hrest

/-- An object of written values. -/
theorem laid_object {ms : List (String × Value)} {ws : List (String × List Char)}
    (h : List.Forall₂ WrittenMember ms ws) : Laid (Value.object ms).tokens (object ws) := by
  rw [Value.tokens_object]
  exact .token .mapOpen ((laid_members h).append (laid_token .mapClose))

end WindowTally.Json
