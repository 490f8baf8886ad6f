import WindowTally.Text.Lowercase
import WindowTally.Text.Utf8
import WindowTally.Text.WordRanges

/-!
# The words of a text

A word is a maximal run of alphanumeric characters and underscores, written in
lower case. Lower-casing looks at the run alone, never past its ends.

* `wordRuns` lists the maximal runs in order,
* `words` lists the words of a text,
* `wordsOfBytes` lists those of a payload, which has none to list unless it is UTF-8.
-/
namespace WindowTally.Text

/-- The characters that words are made of.
mirrors `tokenizer.is_word_char` -/
def isWordChar (c : Char) : Bool := c = '_' || alphanumericRanges.contains c.toNat

/-- The maximal runs of word characters. -/
def wordRuns : List Char → List (List Char)
  | [] => []
  | c :: cs =>
    if isWordChar c then
      match cs, wordRuns cs with
      | d :: _, run :: runs => if isWordChar d then (c :: run) :: runs else [c] :: run :: runs
      | _, runs => [c] :: runs
    else wordRuns cs

/-- The words of a text, in order.
mirrors `tokenizer.tokenize` -/
def words (cs : List Char) : List String :=
  (wordRuns cs).map fun run => String.ofList (lowercase run)

/-- The words of a payload, if its bytes are text.
mirrors `tokenizer.tokenize_bytes` -/
def wordsOfBytes (bytes : List UInt8) : Option (List String) :=
  match Utf8.decode bytes with
  | .ok cs => some (words cs)
  | .error _ => none

end WindowTally.Text
