import WindowTally.Proofs.Budgets
import WindowTally.Proofs.Calendar

/-!
# Texts of windows

A window is shown by its ends, as dates with times of day if both have a calendar form, as plain
numbers otherwise. Either way the text tells the window (`Window.text_inj`).

* Numbers in dates have leading zeros, which do not change their value (`ofDigitChars_padded`), and
  no separator in them. A year outside of 0 to 9999 has a sign, which ends where the digits begin.
* A time of day is told by its hours, minutes, seconds and milliseconds, and a day by its date
  (`Civil.ofDay_inj`).
* A window with dates has a colon in its text, one without has none.

The name of a window tells the window as well (`Window.id_inj`). So the failure table of a sink
in memory and the faults of deliveries, which know windows by their names, are about one window
(`Window.told_apart`).
-/
namespace WindowTally

/-- Two texts with the same first separator agree before it and after it. -/
theorem eq_of_first_separator {sep : Char} {before before' after after' : List Char}
    (hbefore : sep ∉ before) (hbefore' : sep ∉ before')
    (h : before ++ sep :: after = before' ++ sep :: after') :
    before = before' ∧ after = after' := by
  rcases List.append_eq_append_iff.1 h with ⟨more, hmore, hsep⟩ | ⟨more, hmore, hsep⟩
  · cases more with
    | nil => exact ⟨by simpa using hmore.symm, (List.cons.inj hsep).2⟩
    | cons ch more =>
      obtain ⟨rfl, -⟩ := List.cons.inj hsep
      exact absurd (hmore ▸ List.mem_append_right _ List.mem_cons_self) hbefore'
  · cases more with
    | nil => exact ⟨by simpa using hmore, (List.cons.inj hsep).2.symm⟩
    | cons ch more =>
      obtain ⟨rfl, -⟩ := List.cons.inj hsep
      exact absurd (hmore ▸ List.mem_append_right _ List.mem_cons_self) hbefore

/-! ## Numbers with leading zeros -/

theorem toList_padded (width n : Nat) : (padded width n).toList =
    List.replicate (width - (Nat.toDigits 10 n).length) '0' ++ Nat.toDigits 10 n :=
  String.toList_ofList

theorem isDigit_of_mem_padded {width n : Nat} {ch : Char} (h : ch ∈ (padded width n).toList) :
    ch.isDigit = true := by
  rw [toList_padded, List.mem_append] at h
  rcases h with hzero | hdigit
  · rw [List.eq_of_mem_replicate hzero]
    rfl
  · exact Nat.isDigit_of_mem_toDigits (by decide) (by decide) hdigit

theorem not_mem_padded {width n : Nat} {ch : Char} (h : ch.isDigit = false) :
    ch ∉ (padded width n).toList := by
  intro hmem
  rw [isDigit_of_mem_padded hmem] at h
  cases h

theorem padded_ne_nil (width n : Nat) : (padded width n).toList ≠ [] := by
  rw [toList_padded]
  exact List.append_ne_nil_of_right_ne_nil _ Nat.toDigits_ne_nil

theorem ofDigitChars_zeros (k : Nat) : Nat.ofDigitChars 10 (List.replicate k '0') 0 = 0 := by
  induction k with
  | zero => rfl
  | succ k ih =>
    rw [List.replicate_succ, Nat.ofDigitChars_cons]
    exact ih

/-- Leading zeros do not change the number. -/
theorem ofDigitChars_padded (width n : Nat) :
    Nat.ofDigitChars 10 (padded width n).toList 0 = n := by
  rw [toList_padded, Nat.ofDigitChars_append, ofDigitChars_zeros]
  exact Nat.ofDigitChars_toDigits (by decide) (by decide)

theorem padded_inj {width m n : Nat} (h : (padded width m).toList = (padded width n).toList) :
    m = n := by
  rw [← ofDigitChars_padded width m, h, ofDigitChars_padded]

/-- A number with leading zeros is told from what comes after its separator. -/
theorem eq_of_padded_separator {width m n : Nat} {sep : Char} {after after' : List Char}
    (hsep : sep.isDigit = false)
    (h : (padded width m).toList ++ sep :: after = (padded width n).toList ++ sep :: after') :
    m = n ∧ after = after' := by
  obtain ⟨hnumber, hafter⟩ := eq_of_first_separator (not_mem_padded hsep) (not_mem_padded hsep) h
  exact ⟨padded_inj hnumber, hafter⟩

/-! ## Dates -/

namespace Civil

/-- What a year has before its digits. -/
def yearSign (year : Int) : List Char :=
  if 0 ≤ year ∧ year ≤ 9999 then [] else if year < 0 then ['-'] else ['+']

theorem toList_yearText (year : Int) :
    (yearText year).toList = yearSign year ++ (padded 4 year.natAbs).toList := by
  unfold yearText yearSign
  split
  · next h =>
    rw [List.nil_append, show year.toNat = year.natAbs by omega]
  · split
    · rw [String.toList_append]
      rfl
    · rw [String.toList_append]
      rfl

theorem isDigit_of_mem_yearSign {year : Int} {ch : Char} (h : ch ∈ yearSign year) :
    ch.isDigit = false := by
  unfold yearSign at h
  split at h
  · cases h
  · split at h
    · rw [List.mem_singleton.1 h]
      rfl
    · rw [List.mem_singleton.1 h]
      rfl

/-- The sign ends where the digits begin. -/
theorem takeWhile_yearText (year : Int) (after : List Char) :
    (yearSign year ++ ((padded 4 year.natAbs).toList ++ after)).takeWhile (fun ch => !ch.isDigit) =
      yearSign year := by
  rw [List.takeWhile_append_of_pos]
  · obtain ⟨ch, digits, hdigits⟩ := List.exists_cons_of_ne_nil (padded_ne_nil 4 year.natAbs)
    have hch : ch.isDigit = true := by
      have hmem : ch ∈ (padded 4 year.natAbs).toList := hdigits ▸ List.mem_cons_self
      exact isDigit_of_mem_padded hmem
    rw [hdigits, List.cons_append, List.takeWhile_cons_of_neg (by simp [hch]), List.append_nil]
  · intro ch hch
    rw [isDigit_of_mem_yearSign hch]
    rfl

theorem eq_of_sign {y z : Int} (hsign : yearSign y = yearSign z) (habs : y.natAbs = z.natAbs) :
    y = z := by
  unfold yearSign at hsign
  grind

theorem yearText_inj {y z : Int} {after after' : List Char}
    (h : (yearText y).toList ++ '-' :: after = (yearText z).toList ++ '-' :: after') :
    y = z ∧ after = after' := by
  rw [toList_yearText, toList_yearText, List.append_assoc, List.append_assoc] at h
  have hsign : yearSign y = yearSign z := by
    rw [← takeWhile_yearText y ('-' :: after), h, takeWhile_yearText]
  rw [hsign, List.append_cancel_left_eq] at h
  obtain ⟨habs, hafter⟩ := eq_of_padded_separator (by decide) h
  exact ⟨eq_of_sign hsign habs, hafter⟩

theorem text_inj {c d : Civil} (h : c.text.toList = d.text.toList) : c = d := by
  have hdash : "-".toList = ['-'] := rfl
  simp only [text, String.toList_append, List.append_assoc, hdash, List.cons_append,
    List.nil_append] at h
  obtain ⟨hyear, h⟩ := yearText_inj h
  obtain ⟨hmonth, hday⟩ := eq_of_padded_separator (by decide) h
  cases c
  cases d
  simp only [mk.injEq]
  exact ⟨hyear, hmonth, padded_inj hday⟩

end Civil

/-! ## Times of day -/

namespace Moment

/-- The time of day, as it is written. -/
def timeText (t : Moment) : List Char := t.clockText.toList ++ t.fractionText.toList

theorem toList_textMillis (t : Moment) :
    t.textMillis.toList = t.date.text.toList ++ ' ' :: t.timeText := by
  have hblank : " ".toList = [' '] := rfl
  simp only [textMillis, timeText, String.toList_append, List.append_assoc, hblank,
    List.cons_append, List.nil_append]

theorem timeText_eq (t : Moment) : t.timeText =
    (padded 2 (t.milliOfDay / 3600000)).toList ++ ':' ::
      ((padded 2 (t.milliOfDay / 60000 % 60)).toList ++ ':' ::
        ((padded 2 (t.milliOfDay / 1000 % 60)).toList ++ '.' ::
          (padded 3 (t.milliOfDay % 1000)).toList)) := by
  have hcolon : ":".toList = [':'] := rfl
  have hpoint : ".".toList = ['.'] := rfl
  simp only [timeText, clockText, fractionText, String.toList_append, List.append_assoc, hcolon,
    hpoint, List.cons_append, List.nil_append]

theorem timeText_inj {t u : Moment} (h : t.timeText = u.timeText) :
    t.milliOfDay = u.milliOfDay := by
  rw [timeText_eq, timeText_eq] at h
  obtain ⟨hhours, h⟩ := eq_of_padded_separator (by decide) h
  obtain ⟨hminutes, h⟩ := eq_of_padded_separator (by decide) h
  obtain ⟨hseconds, h⟩ := eq_of_padded_separator (by decide) h
  have hmillis := padded_inj h
  omega

theorem not_mem_timeText {ch : Char} (hdigit : ch.isDigit = false) (hcolon : ch ≠ ':')
    (hpoint : ch ≠ '.') (t : Moment) : ch ∉ t.timeText := by
  rw [timeText_eq]
  simp [not_mem_padded hdigit, hcolon, hpoint]

theorem blank_not_mem_date (c : Civil) : ' ' ∉ c.text.toList := by
  have hsign : ' ' ∉ Civil.yearSign c.year := by
    unfold Civil.yearSign
    split
    · decide
    · split <;> decide
  have hdash : ' ' ∉ "-".toList := by decide
  have hdigits (width n : Nat) : ' ' ∉ (padded width n).toList := not_mem_padded (by decide)
  simp only [Civil.text, String.toList_append, Civil.toList_yearText, List.mem_append, hsign, hdash,
    hdigits, or_false, not_false_eq_true]

/-- The text of a moment tells the moment, whatever follows after a separator. -/
theorem eq_of_text {t u : Moment} {sep : Char} {after after' : List Char}
    (hdigit : sep.isDigit = false) (hcolon : sep ≠ ':') (hpoint : sep ≠ '.')
    (h : t.textMillis.toList ++ sep :: after = u.textMillis.toList ++ sep :: after') :
    t = u ∧ after = after' := by
  rw [toList_textMillis, toList_textMillis, List.append_assoc, List.append_assoc] at h
  obtain ⟨hdate, h⟩ := eq_of_first_separator (blank_not_mem_date _) (blank_not_mem_date _) h
  obtain ⟨htime, hafter⟩ := eq_of_first_separator (not_mem_timeText hdigit hcolon hpoint t)
    (not_mem_timeText hdigit hcolon hpoint u) h
  refine ⟨?_, hafter⟩
  cases t
  cases u
  exact (mk.injEq ..).mpr ⟨Civil.text_inj hdate, timeText_inj htime⟩

/-- Two times with the same calendar form are the same. -/
theorem ofMillis?_inj {m n : Millis} {t : Moment} (hm : ofMillis? m = some t)
    (hn : ofMillis? n = some t) : m = n := by
  unfold ofMillis? at hm hn
  split at hm
  · split at hn
    · have hsame := (Option.some.inj hm).trans (Option.some.inj hn).symm
      obtain ⟨hday, hmilli⟩ := (mk.injEq ..).mp hsame
      rw [Civil.ofDay_inj] at hday
      rw [← Int64.toInt_inj]
      omega
    · cases hn
  · cases hm

end Moment

/-! ## Windows -/

namespace Window

/-- The text of a window with dates. -/
def datedText (a b : Moment) : List Char :=
  '[' :: (a.textMillis.toList ++ ' ' :: '-' :: ' ' :: (b.textMillis.toList ++ [')']))

/-- The text of a window without. -/
def plainText (w : Window) : List Char :=
  '[' :: ((toString w.start.toInt).toList ++ ' ' :: '-' :: ' ' ::
    ((toString w.stop.toInt).toList ++ [')']))

/-- A window is written with dates if both its ends have one. -/
theorem text_cases (w : Window) :
    (∃ a b, Moment.ofMillis? w.start = some a ∧ Moment.ofMillis? w.stop = some b ∧
      w.text.toList = datedText a b) ∨ w.text.toList = w.plainText := by
  have hopen : "[".toList = ['['] := rfl
  have hto : " - ".toList = [' ', '-', ' '] := rfl
  have hclose : ")".toList = [')'] := rfl
  unfold text
  split
  · next a b ha hb =>
    refine .inl ⟨a, b, ha, hb, ?_⟩
    simp only [datedText, String.toList_append, List.append_assoc, hopen, hto, hclose,
      List.cons_append, List.nil_append]
  · refine .inr ?_
    simp only [plainText, String.toList_append, List.append_assoc, hopen, hto, hclose,
      List.cons_append, List.nil_append]

theorem colon_mem_datedText (a b : Moment) : ':' ∈ datedText a b := by
  simp [datedText, Moment.toList_textMillis, Moment.timeText_eq]

theorem colon_not_mem_plainText (w : Window) : ':' ∉ w.plainText := by
  have hnumber (n : Int) : ':' ∉ (toString n).toList := not_mem_toString (by decide) (by decide) n
  simp only [plainText, List.mem_cons, List.mem_append, hnumber]
  decide

theorem datedText_inj {a b c d : Moment} (h : datedText a b = datedText c d) : a = c ∧ b = d := by
  obtain ⟨hstart, h⟩ :=
    Moment.eq_of_text (by decide) (by decide) (by decide) (List.cons.inj h).2
  have hrest := (List.cons.inj (List.cons.inj h).2).2
  exact ⟨hstart, (Moment.eq_of_text (by decide) (by decide) (by decide) hrest).1⟩

theorem plainText_inj {v w : Window} (h : v.plainText = w.plainText) : v = w := by
  have hblank (n : Int) : ' ' ∉ (toString n).toList := not_mem_toString (by decide) (by decide) n
  have hclose (n : Int) : ')' ∉ (toString n).toList := not_mem_toString (by decide) (by decide) n
  obtain ⟨hstart, h⟩ := eq_of_first_separator (hblank _) (hblank _) (List.cons.inj h).2
  have hrest := (List.cons.inj (List.cons.inj h).2).2
  obtain ⟨hstop, -⟩ := eq_of_first_separator (hclose _) (hclose _) hrest
  cases v
  cases w
  exact (mk.injEq ..).mpr ⟨Int64.toInt_inj.1 (toList_toString_inj hstart),
    Int64.toInt_inj.1 (toList_toString_inj hstop)⟩

/-- No two windows have the same text. -/
theorem text_inj {v w : Window} : v.text = w.text ↔ v = w := by
  refine ⟨fun h => ?_, congrArg text⟩
  have hlist : v.text.toList = w.text.toList := congrArg String.toList h
  rcases v.text_cases with ⟨a, b, ha, hb, hv⟩ | hv
  · rcases w.text_cases with ⟨c, d, hc, hd, hw⟩ | hw
    · obtain ⟨rfl, rfl⟩ := datedText_inj (hv.symm.trans (hlist.trans hw))
      cases v
      cases w
      exact (mk.injEq ..).mpr ⟨Moment.ofMillis?_inj ha hc, Moment.ofMillis?_inj hb hd⟩
    · have hcolon := colon_mem_datedText a b
      rw [← hv, hlist, hw] at hcolon
      exact absurd hcolon w.colon_not_mem_plainText
  · rcases w.text_cases with ⟨c, d, -, -, hw⟩ | hw
    · have hcolon := colon_mem_datedText c d
      rw [← hw, ← hlist, hv] at hcolon
      exact absurd hcolon v.colon_not_mem_plainText
    · exact plainText_inj (hv.symm.trans (hlist.trans hw))

end Window

/-! ## What knows windows by their names -/

/-- The word and the name of the window that a fault is about, if it is about one. -/
def DeliveryFault.about? : DeliveryFault → Option (String × String)
  | rejected word windowId _ => some (word, windowId)
  | exhausted word windowId _ _ => some (word, windowId)
  | taskFailed _ => none
  | closed => none

/-- A fault names a word and a window. -/
def DeliveryFault.Names (fault : DeliveryFault) (word : String) (w : Window) : Prop :=
  fault.about? = some (word, w.id)

theorem DeliveryFault.Names.unique {fault : DeliveryFault} {word word' : String} {v w : Window}
    (hv : fault.Names word v) (hw : fault.Names word' w) : word = word' ∧ v = w := by
  obtain ⟨hword, hid⟩ := Prod.mk.inj (Option.some.inj (hv.symm.trans hw))
  exact ⟨hword, Window.id_inj.1 hid⟩

/-- A delivery reports a fault about its own word and window. -/
theorem Delivery.names_of_resolve {d : Delivery} {settings : DeliverySettings} {now : Nat}
    {answer : Except DeliveryFault Unit} {fault : DeliveryFault}
    (h : (d.resolve settings now answer).outcome? = some (.error fault)) :
    fault.Names d.count.word d.count.window := by
  rw [outcome_resolve] at h
  cases answer with
  | ok u => cases h
  | error last =>
    dsimp only at h
    split at h
    · cases h
    · cases h
      rfl

open MemorySink

theorem MemorySink.key_eq_iff {c : WordCount} {word : String} {w : Window} :
    (word, w.id) = key c ↔ c.word = word ∧ c.window = w := by
  rw [key, Prod.mk.injEq, Window.id_inj]
  exact and_congr eq_comm eq_comm

/-- Windows that differ have different names and different texts. To order failures for one
changes no budget of the other, nor does a delivery. A fault names one window, which for what a sink
refuses and for what a delivery reports is the window of the word count. -/
theorem Window.told_apart (v w : Window) :
    (v.id = w.id ↔ v = w) ∧
    (v.text = w.text ↔ v = w) ∧
    (∀ (s : MemorySink) (word : String) (times : UInt32) (c : WordCount),
      (s.failTimes word v.id times).budget c =
        if c.word = word ∧ c.window = v then times else s.budget c) ∧
    (∀ (s : MemorySink) (c x : WordCount), s.Keyed → c.window = v → x.window = w → v ≠ w →
      (s.deliver c).2.budget x = s.budget x) ∧
    (∀ (fault : DeliveryFault) (word word' : String),
      fault.Names word v → fault.Names word' w → word = word' ∧ v = w) ∧
    (∀ (c : WordCount) (reason : String), (c.rejected reason).Names c.word c.window) ∧
    ∀ (d : Delivery) (settings : DeliverySettings) (now : Nat) (answer : Except DeliveryFault Unit)
      (fault : DeliveryFault), (d.resolve settings now answer).outcome? = some (.error fault) →
        fault.Names d.count.word d.count.window := by
  refine ⟨id_inj, text_inj, fun s word times c => ?_, ?_, fun _ _ _ hv hw => hv.unique hw,
    fun _ _ => rfl, fun _ _ _ _ _ => Delivery.names_of_resolve⟩
  · rw [budget_failTimes]
    simp only [key_eq_iff]
  · rintro s c x hs rfl rfl hne
    refine budget_deliver_of_ne hs fun hkey => hne ?_
    exact (key_eq_iff.1 hkey).2

/-- Two windows with the same end, of which one starts in the last millisecond before the year 0 and
the other at the least time, which has no date. -/
theorem Window.told_apart_before_year_zero :
    let v : Window := ⟨-62167219200001, 5000⟩
    let w : Window := ⟨-9223372036854775808, 5000⟩
    let s : MemorySink := ({} : MemorySink).failTimes "a" v.id 2
    v.text = "[-0001-12-31 23:59:59.999 - 1970-01-01 00:00:05.000)" ∧
    w.text = "[-9223372036854775808 - 5000)" ∧ v.text ≠ w.text ∧ v.id ≠ w.id ∧
    s.budget ⟨"a", 1, v⟩ = 2 ∧ (s.deliver ⟨"a", 1, w⟩).2.budget ⟨"a", 1, v⟩ = 2 ∧
    ¬ (WordCount.rejected ⟨"a", 1, v⟩ "injected failure").Names "a" w := by
  intro v w s
  have hne : v ≠ w := by decide
  have hempty : ({} : MemorySink).Keyed := List.nodup_nil
  obtain ⟨hid, htext, hbudget, -, hnames, hrejected, -⟩ := told_apart v w
  obtain ⟨-, -, -, hdeliver, -⟩ := told_apart w v
  have htwo : s.budget ⟨"a", 1, v⟩ = 2 := (hbudget {} "a" 2 ⟨"a", 1, v⟩).trans (if_pos ⟨rfl, rfl⟩)
  refine ⟨by decide +kernel, by decide +kernel, mt htext.1 hne, mt hid.1 hne, htwo, ?_,
    fun hw => hne (hnames _ _ _ (hrejected ⟨"a", 1, v⟩ "injected failure") hw).2⟩
  rw [← htwo]
  exact hdeliver s ⟨"a", 1, w⟩ ⟨"a", 1, v⟩ (keyed_failTimes hempty _ _ _) rfl rfl hne.symm

end WindowTally
