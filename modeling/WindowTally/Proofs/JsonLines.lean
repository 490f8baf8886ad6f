import WindowTally.Delivery.Sink
import WindowTally.Proofs.JsonWriting
import WindowTally.Source.Lines

/-!
# Lines of JSON are read as they are written

A `LineSink` writes one document per line, and a `LineSource` makes a record of every
line. A document is read as the word count it was written for (`parse_toJson`), and no
document has a line feed in it or ends with a carriage return, so a line is one document
(`poll_line`). Together, what a sink has written is read back as one record per word
count, in order (`json_lines_round_trip`).
-/
namespace WindowTally

open Json (Value Laid namedFields)

/-! ## Documents of word counts -/

namespace WordCount

/-- The members of the document of a word count. -/
def members (c : WordCount) : List (String × Value) := [
  ("word", .text (some c.word)), ("count", .number (.integer c.count.toNat)),
  ("start", .number (.integer c.window.start.toInt)),
  ("end", .number (.integer c.window.stop.toInt))]

/-- The word count of which only some fields are given. -/
def only (c : WordCount) (given : List String) : WordCount where
  word := if "word" ∈ given then c.word else ""
  count := if "count" ∈ given then c.count else 0
  window := {
    start := if "start" ∈ given then c.window.start else 0
    stop := if "end" ∈ given then c.window.stop else 0 }

theorem laid_toJson (c : WordCount) : Laid (Value.object c.members).tokens c.toJson :=
  Json.laid_object (.cons ⟨rfl, Json.laid_quoted c.word⟩ (.cons ⟨rfl, Json.laid_word64 c.count⟩
    (.cons ⟨rfl, Json.laid_millis c.window.start⟩ (.cons ⟨rfl, Json.laid_millis c.window.stop⟩
      .nil))))

theorem copies (c : WordCount) : schema.Copies c.members c.only where
  base := rfl
  apart := by decide
  copied :=
    .cons (Schema.copied_ofKind (Kind.json_text _) fun given => by simp [only])
    (.cons (Schema.copied_ofKind (Kind.json_word64 _) fun given => by simp [only])
    (.cons (Schema.copied_ofKind (Kind.json_millis _) fun given => by simp [only])
    (.cons (Schema.copied_ofKind (Kind.json_millis _) fun given => by simp [only]) .nil)))

/-- The document of a word count is read as that word count. -/
theorem parse_toJson (c : WordCount) : schema.parse (String.ofList c.toJson) = .ok c := by
  obtain ⟨htells, hfields⟩ : Json.Tells schema.names c.members c.members ∧
      namedFields schema.names c.members = ["word", "count", "start", "end"] :=
    Json.tells_self rfl (show ["word", "count", "start", "end"].Nodup by decide)
  have hlaid := c.laid_toJson
  rw [← String.toList_ofList (l := c.toJson)] at hlaid
  rw [Schema.parse_of_tells c.copies htells ?_ hlaid, hfields]
  · simp [only]
  · rw [hfields]
    rfl

end WordCount

/-! ## One document, one line -/

namespace Json

theorem lineFeed_not_mem_escape (c : Char) : '\n' ∉ escape c := by
  have hdigit : ∀ d < 16, '\n' ≠ Text.hexDigit d := by decide
  unfold escape
  split
  · decide
  split
  · decide
  split
  · decide
  split
  · decide
  split
  · decide
  split
  · decide
  split
  · decide
  split
  · next hlow =>
    simp [hdigit (c.toNat / 16) (by omega), hdigit (c.toNat % 16) (by omega)]
  · next hfeed _ _ _ =>
    rw [List.mem_singleton]
    exact Ne.symm hfeed

theorem lineFeed_not_mem_quoted (cs : List Char) : '\n' ∉ quoted cs := by
  simp [quoted, lineFeed_not_mem_escape]

theorem lineFeed_not_mem_integer (n : Int) : '\n' ∉ integer n :=
  not_mem_toString (by decide) (by decide) n

theorem lineFeed_not_mem_members {ms : List (String × List Char)} (h : ∀ m ∈ ms, '\n' ∉ m.2) :
    '\n' ∉ members ms := by
  induction ms using members.induct with
  | case1 => exact List.not_mem_nil
  | case2 name value => simp [members, lineFeed_not_mem_quoted, h (name, value) (by simp)]
  | case3 name value rest hrest ih =>
    have hvalue := h (name, value) List.mem_cons_self
    have hmembers := ih fun m hm => h m (List.mem_cons_of_mem _ hm)
    simp only [members]
    simp [lineFeed_not_mem_quoted, hvalue, hmembers]

theorem lineFeed_not_mem_object {ms : List (String × List Char)} (h : ∀ m ∈ ms, '\n' ∉ m.2) :
    '\n' ∉ object ms := by
  simp [object, lineFeed_not_mem_members h]

end Json

theorem WordCount.lineFeed_not_mem_toJson (c : WordCount) : '\n' ∉ c.toJson := by
  refine Json.lineFeed_not_mem_object fun m hm => ?_
  simp only [List.mem_cons, List.not_mem_nil, or_false] at hm
  rcases hm with rfl | rfl | rfl | rfl
  · exact Json.lineFeed_not_mem_quoted _
  · exact Json.lineFeed_not_mem_integer _
  · exact Json.lineFeed_not_mem_integer _
  · exact Json.lineFeed_not_mem_integer _

/-- A line is the UTF-8 of the JSON text and one line feed. -/
theorem LineSink.line_eq (c : WordCount) : line c = Utf8.encode c.toJson ++ [10] := by
  have hfeed : Utf8.encode ['\n'] = [10] := rfl
  rw [line, Utf8.encode_append, hfeed]

namespace LineSource

theorem cutLine_lineFeed {bytes : List UInt8} (h : 10 ∉ bytes) (rest : List UInt8) :
    cutLine (bytes ++ 10 :: rest) = (bytes ++ [10], rest) := by
  induction bytes with
  | nil => rfl
  | cons b bytes ih =>
    rw [List.mem_cons, not_or] at h
    rw [List.cons_append, cutLine, if_neg (Ne.symm h.1), ih h.2]
    rfl

/-- Only a carriage return would go with the line feed. -/
theorem stripBreak_lineFeed (cs : List Char) {c : Char} (hc : c ≠ '\r') :
    stripBreak (cs ++ [c] ++ ['\n']) = cs ++ [c] := by
  have hreverse : (cs ++ [c] ++ ['\n']).reverse = '\n' :: c :: cs.reverse := by simp
  rw [stripBreak, hreverse]
  split
  · next h =>
    obtain ⟨hreturn, -⟩ := List.cons.inj (List.cons.inj h).2
    exact absurd hreturn hc
  · next h =>
    obtain ⟨-, rfl⟩ := List.cons.inj h
    simp
  · next h => exact absurd rfl (h _)

/-- A source that begins with the line of a word count answers with its document. -/
theorem poll_line (s : LineSource) (c : WordCount) (rest : List UInt8) :
    poll { s with bytes := LineSink.line c ++ rest } =
      (.record { timestamp := s.now, payload := Utf8.encode c.toJson },
        { s with bytes := rest }) := by
  have hcut : cutLine (LineSink.line c ++ rest) = (LineSink.line c, rest) := by
    rw [LineSink.line_eq, List.append_assoc]
    exact cutLine_lineFeed (mt Utf8.lineFeed_mem_encode c.lineFeed_not_mem_toJson) rest
  have hdecode : Utf8.decode (LineSink.line c) = .ok (c.toJson ++ ['\n']) := Utf8.decode_encode _
  have hstrip : stripBreak (c.toJson ++ ['\n']) = c.toJson :=
    stripBreak_lineFeed ('{' :: Json.members _) (show '}' ≠ '\r' by decide)
  obtain ⟨b, bs, hbytes⟩ : ∃ b bs, LineSink.line c ++ rest = b :: bs := ⟨_, _, rfl⟩
  rw [poll]
  simp only [hbytes]
  rw [← hbytes, hcut]
  simp only [hdecode, hstrip]

end LineSource

/-! ## Round trip -/

/-- Deliver word counts one after the other: the answers, and the sink after them. -/
def Sink.deliverAll {σ : Type} [Sink σ] (s : σ) :
    List WordCount → List (Except DeliveryFault Unit) × σ
  | [] => ([], s)
  | c :: cs =>
    let (answer, s) := Sink.deliver s c
    let (answers, s) := deliverAll s cs
    (answer :: answers, s)

/-- The answers of a source that is polled at these times. -/
def LineSource.answersAt (s : LineSource) : List Millis → List Polled
  | [] => []
  | t :: ts =>
    let (polled, s) := poll { s with now := t }
    polled :: s.answersAt ts

/-- Read a payload as the document of a word count. -/
def WordCount.ofPayload? (payload : List UInt8) : Option WordCount :=
  match Utf8.decode payload with
  | .ok cs => (schema.parse (String.ofList cs)).toOption
  | .error _ => none

theorem WordCount.ofPayload?_encode (c : WordCount) :
    ofPayload? (Utf8.encode c.toJson) = some c := by
  rw [ofPayload?, Utf8.decode_encode]
  simp only [parse_toJson]
  rfl

/-- A sink without a limit takes every word count and writes its line. -/
theorem LineSink.deliverAll_eq (s : LineSink) (hs : s.capacity = none) (cs : List WordCount) :
    Sink.deliverAll s cs =
      (cs.map fun _ => .ok (), { s with written := s.written ++ cs.flatMap line }) := by
  induction cs generalizing s with
  | nil => simp [Sink.deliverAll]
  | cons c cs ih =>
    have hfirst : Sink.deliver s c = (.ok (), { s with written := s.written ++ line c }) := by
      change deliver s c = _
      rw [deliver, hs]
    have hrest := ih { s with written := s.written ++ line c } hs
    rw [Sink.deliverAll, hfirst]
    simp only [hrest, List.map_cons, List.flatMap_cons, List.append_assoc]

theorem LineSource.answersAt_of_ended (s : LineSource) (hs : s.bytes = []) (times : List Millis) :
    s.answersAt times = List.replicate times.length .ended := by
  induction times generalizing s with
  | nil => rfl
  | cons t ts ih =>
    have hpoll : poll { s with now := t } = (.ended, { s with now := t }) := by
      rw [poll, hs]
    have hrest := ih { s with now := t } hs
    rw [answersAt, hpoll]
    simp only [hrest]
    rfl

theorem LineSource.answersAt_lines (s : LineSource) (cs : List WordCount) (times : List Millis)
    (hs : s.bytes = cs.flatMap LineSink.line) : s.answersAt times =
      List.zipWith (fun t c => .record { timestamp := t, payload := Utf8.encode c.toJson })
        times cs ++ List.replicate (times.length - cs.length) .ended := by
  induction times generalizing s cs with
  | nil => simp [answersAt]
  | cons t ts ih =>
    cases cs with
    | nil => exact answersAt_of_ended s hs (t :: ts)
    | cons c cs =>
      have hpoll := poll_line { s with now := t } c (cs.flatMap LineSink.line)
      have hrest := ih { s with bytes := cs.flatMap LineSink.line, now := t } cs rfl
      rw [List.flatMap_cons] at hs
      rw [← hs] at hpoll
      rw [answersAt, hpoll]
      simp only [hrest]
      simp

/-- Word counts that are written to a sink without a limit are all taken. Of what is written, a
source makes one record per word count, in order, stamped with the time of the poll, and then ends;
and each payload is read as its word count. -/
theorem json_lines_round_trip (name name' : String) (cs : List WordCount) (times : List Millis) :
    (∀ answer ∈ (Sink.deliverAll ({ name := name } : LineSink) cs).1, answer = .ok ()) ∧
    ∃ payloads, payloads.map WordCount.ofPayload? = cs.map some ∧
      LineSource.answersAt
          { name := name'
            bytes := (Sink.deliverAll ({ name := name } : LineSink) cs).2.written } times =
        List.zipWith (fun t payload => .record { timestamp := t, payload := payload }) times
            payloads ++
          List.replicate (times.length - cs.length) .ended := by
  rw [LineSink.deliverAll_eq _ rfl]
  refine ⟨fun answer hanswer => ?_, cs.map fun c => Utf8.encode c.toJson, ?_, ?_⟩
  · obtain ⟨-, -, rfl⟩ := List.mem_map.1 hanswer
    rfl
  · rw [List.map_map]
    exact List.map_congr_left fun c _ => c.ofPayload?_encode
  · rw [LineSource.answersAt_lines _ cs times rfl, List.zipWith_map_right]

end WindowTally
