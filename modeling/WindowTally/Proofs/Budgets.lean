import WindowTally.Proofs.Attempts
import WindowTally.Proofs.Reading
import WindowTally.Proofs.WindowNames

/-!
# Failure budgets

A sink in memory refuses each word count as often as its budget says. Deliveries share
that table, the totals and the slots, and still do not disturb each other: when the word
counts that the queue takes are about different words or windows, each is delivered just
when its budget is no larger than the number of retries, and is offered as often as its
budget and the retries have it, in whatever order the parties take their turns
(`outcomes_of_budgets`). That is so if there is room for the slots; if there is none,
nothing is offered in any order (`Served.given_up`).

What carries this is what is left of the budget of a running delivery: the whole budget
less the attempts made so far (`Left`).
-/
namespace WindowTally

/-! ## Sinks in memory -/

namespace MemorySink

/-- What a failure table tells word counts apart by. -/
def key (c : WordCount) : String × String := (c.word, c.window.id)

/-- The table has no two budgets for the same word in the same window. -/
def Keyed (s : MemorySink) : Prop := (s.failures.map fun b => (b.word, b.windowId)).Nodup

/-- How many more times deliveries of a word count fail. -/
def budget (s : MemorySink) (c : WordCount) : UInt32 :=
  ((s.failures.find? (concerns c)).map (·.times)).getD 0

/-- What one failure leaves of a budget. -/
def spent (k : UInt32) : UInt32 := if k = FailureBudget.always then k else k - 1

theorem concerns_iff {c : WordCount} {b : FailureBudget} :
    concerns c b = true ↔ (b.word, b.windowId) = key c := by
  rw [concerns, Bool.and_eq_true, beq_iff_eq, beq_iff_eq, key, Prod.mk.injEq]

theorem budget_congr (s : MemorySink) {c x : WordCount} (h : key x = key c) :
    s.budget x = s.budget c := by
  have hconcerns : concerns x = concerns c := by
    funext b
    rw [Bool.eq_iff_iff, concerns_iff, concerns_iff, h]
  rw [budget, budget, hconcerns]

theorem spend_eq (b : FailureBudget) : spend b = { b with times := spent b.times } := by
  unfold spend spent
  split <;> rfl

theorem keyed_failTimes {s : MemorySink} (hs : s.Keyed) (word windowId : String) (times : UInt32) :
    (s.failTimes word windowId times).Keyed := by
  refine List.nodup_cons.2 ⟨fun hmem => ?_, ?_⟩
  · obtain ⟨b, hb, hkey⟩ := List.mem_map.1 hmem
    simp only [List.mem_filter, Bool.not_eq_true', Bool.and_eq_false_iff, beq_eq_false_iff_ne] at hb
    rw [Prod.mk.injEq] at hkey
    rcases hb.2 with hword | hwindow
    · exact hword hkey.1
    · exact hwindow hkey.2
  · exact hs.sublist (List.filter_sublist.map _)

/-- A budget is what it was last set to. -/
theorem budget_failTimes (s : MemorySink) (word windowId : String) (times : UInt32)
    (c : WordCount) : (s.failTimes word windowId times).budget c =
      if (word, windowId) = key c then times else s.budget c := by
  unfold budget failTimes
  by_cases hkey : (word, windowId) = key c
  · rw [List.find?_cons_of_pos (concerns_iff.2 hkey), if_pos hkey]
    rfl
  · rw [List.find?_cons_of_neg (mt concerns_iff.1 hkey), if_neg hkey, List.find?_filter]
    congr 2
    refine congrArg (List.find? · _) (funext fun b => ?_)
    rw [Bool.eq_iff_iff, decide_eq_true_iff, concerns_iff, and_iff_right_iff_imp]
    intro hb
    rw [Bool.not_eq_true', Bool.and_eq_false_iff, beq_eq_false_iff_ne, beq_eq_false_iff_ne,
      ← not_and_or]
    exact fun hsame => hkey (by rw [← hb, hsame.1, hsame.2])

/-- A delivery fails just when something is left of its budget. -/
theorem fails_iff {s : MemorySink} (hs : s.Keyed) (c : WordCount) :
    s.fails c = true ↔ s.budget c ≠ 0 := by
  unfold fails budget
  cases hfind : s.failures.find? (concerns c) with
  | none =>
    have hnone := List.find?_eq_none.1 hfind
    simp only [List.any_eq_true, Bool.and_eq_true, Option.map_none, Option.getD_none, ne_eq,
      not_true_eq_false, iff_false, not_exists, not_and]
    exact fun b hb hconcerns => absurd hconcerns (hnone b hb)
  | some b =>
    have hb := List.mem_of_find?_eq_some hfind
    have hconcerns := List.find?_some hfind
    simp only [List.any_eq_true, Bool.and_eq_true, bne_iff_ne, Option.map_some, Option.getD_some]
    refine ⟨fun ⟨b', hb', hconcerns', htimes⟩ => ?_, fun htimes => ⟨b, hb, hconcerns, htimes⟩⟩
    have hsame := List.inj_on_of_nodup_map hs hb' hb
      ((concerns_iff.1 hconcerns').trans (concerns_iff.1 hconcerns).symm)
    rwa [hsame] at htimes

theorem deliver_eq (s : MemorySink) (c : WordCount) : s.deliver c =
    if s.fails c then
      (.error (c.rejected "injected failure"),
        { s with
          attempts := s.attempts + 1
          failures := s.failures.map fun b => if concerns c b then spend b else b })
    else (.ok (), { s with delivered := s.delivered ++ [c], attempts := s.attempts + 1 }) := rfl

theorem attempts_deliver (s : MemorySink) (c : WordCount) :
    (s.deliver c).2.attempts = s.attempts + 1 := by
  rw [deliver_eq]
  split <;> rfl

theorem keyed_deliver {s : MemorySink} (hs : s.Keyed) (c : WordCount) : (s.deliver c).2.Keyed := by
  rw [deliver_eq]
  unfold Keyed at hs
  split
  · have hkeys : (s.failures.map fun b => if concerns c b then spend b else b).map
        (fun b => (b.word, b.windowId)) = s.failures.map fun b => (b.word, b.windowId) := by
      rw [List.map_map]
      refine List.map_congr_left fun b _ => ?_
      simp only [Function.comp_apply, spend_eq]
      split <;> rfl
    rw [← hkeys] at hs
    exact hs
  · exact hs

/-- With nothing left of its budget a word count is taken. -/
theorem deliver_of_budget_eq_zero {s : MemorySink} (hs : s.Keyed) {c : WordCount}
    (h : s.budget c = 0) : s.deliver c =
      (.ok (), { s with delivered := s.delivered ++ [c], attempts := s.attempts + 1 }) := by
  rw [deliver_eq, if_neg fun hfails => (fails_iff hs c).1 hfails h]

/-- With something left it is refused, and less is left of its own budget alone. -/
theorem deliver_of_budget_ne_zero {s : MemorySink} (hs : s.Keyed) {c : WordCount}
    (h : s.budget c ≠ 0) : (∃ fault, (s.deliver c).1 = .error fault) ∧
      (s.deliver c).2.delivered = s.delivered ∧
      ∀ x, (s.deliver c).2.budget x = if key x = key c then spent (s.budget x) else s.budget x := by
  rw [deliver_eq, if_pos ((fails_iff hs c).2 h)]
  refine ⟨⟨_, rfl⟩, rfl, fun x => ?_⟩
  have hsame : (concerns x ∘ fun b => if concerns c b then spend b else b) = concerns x := by
    funext b
    simp only [Function.comp_apply, spend_eq]
    split <;> rfl
  unfold budget
  rw [List.find?_map, hsame]
  cases hfind : s.failures.find? (concerns x) with
  | none =>
    rw [if_neg fun hkey => h ?_]
    · rfl
    · rw [← budget_congr s hkey, budget, hfind]
      rfl
  | some b =>
    have hkey := concerns_iff.1 (List.find?_some hfind)
    simp only [Option.map_some, Option.getD_some, concerns_iff, hkey]
    split
    · rw [spend_eq]
    · rfl

theorem budget_of_ok {s : MemorySink} (hs : s.Keyed) {c : WordCount}
    (h : (s.deliver c).1 = .ok ()) : s.budget c = 0 := by
  by_contra hsome
  obtain ⟨⟨fault, hfault⟩, -, -⟩ := deliver_of_budget_ne_zero hs hsome
  rw [hfault] at h
  cases h

theorem budget_of_error {s : MemorySink} (hs : s.Keyed) {c : WordCount}
    (h : ∃ fault, (s.deliver c).1 = .error fault) : s.budget c ≠ 0 := by
  intro hzero
  obtain ⟨fault, hfault⟩ := h
  rw [deliver_of_budget_eq_zero hs hzero] at hfault
  cases hfault

/-- A delivery does not touch the budgets of others. -/
theorem budget_deliver_of_ne {s : MemorySink} (hs : s.Keyed) {c x : WordCount}
    (h : key x ≠ key c) : (s.deliver c).2.budget x = s.budget x := by
  by_cases hzero : s.budget c = 0
  · rw [deliver_of_budget_eq_zero hs hzero]
    rfl
  · rw [(deliver_of_budget_ne_zero hs hzero).2.2, if_neg h]

end MemorySink

open MemorySink

/-! ## What is left of a budget -/

/-- What is left of a budget `k` after `a` failures is `b`. -/
def Left (k a b : UInt32) : Prop := a ≤ k ∧ b = if k = FailureBudget.always then k else k - a

namespace Left
variable {k a b : UInt32}

theorem start (k : UInt32) : Left k 0 k := by
  refine ⟨UInt32.le_iff_toNat_le.2 (Nat.zero_le _), ?_⟩
  rw [UInt32.sub_zero, ite_self]

theorem eq_of_zero (h : Left k a 0) : a = k := by
  obtain ⟨hle, hleft⟩ := h
  split at hleft
  · next halways => rw [halways] at hleft; cases hleft
  · have hsub := congrArg UInt32.toNat hleft
    rw [UInt32.toNat_sub_of_le _ _ hle, UInt32.toNat_zero] at hsub
    rw [UInt32.le_iff_toNat_le] at hle
    rw [← UInt32.toNat_inj]
    omega

theorem lt (h : Left k a b) (hb : b ≠ 0)
    (ha : k = FailureBudget.always → a < FailureBudget.always) : a < k := by
  obtain ⟨hle, rfl⟩ := h
  split at hb
  · next halways =>
    rw [halways]
    exact ha halways
  · refine UInt32.lt_of_le_of_ne hle fun hsame => hb ?_
    rw [hsame, UInt32.sub_self]

theorem spend (h : Left k a b) (hb : b ≠ 0)
    (ha : k = FailureBudget.always → a < FailureBudget.always) : Left k (a + 1) (spent b) := by
  have hlt := h.lt hb ha
  obtain ⟨hle, rfl⟩ := h
  rw [UInt32.lt_iff_toNat_lt] at hlt
  have hk := k.toNat_lt
  have hsucc : (a + 1).toNat = a.toNat + 1 := by
    rw [UInt32.toNat_add, UInt32.toNat_one]
    omega
  refine ⟨?_, ?_⟩
  · rw [UInt32.le_iff_toNat_le, hsucc]
    omega
  · unfold spent
    by_cases halways : k = FailureBudget.always
    · rw [if_pos halways, if_pos halways, if_pos halways]
    · rw [if_neg halways, if_neg halways, if_neg ?_]
      · grind
      · intro hsub
        have hnat := congrArg UInt32.toNat hsub
        have hbound : k.toNat ≠ FailureBudget.always.toNat :=
          fun hsame => halways (UInt32.toNat_inj.1 hsame)
        have hmax : FailureBudget.always.toNat = 4294967295 := rfl
        rw [UInt32.toNat_sub_of_le _ _ hle] at hnat
        omega

end Left

namespace Pipeline

open Event (counts)

variable {ι : Type} {p q r : Pipeline ι MemorySink} {es es' : List Event}

/-! ## The offers of a run -/

/-- How often the budget of a word count and the retries have it tried again. -/
def share (p : Pipeline ι MemorySink) (c : WordCount) : Nat :=
  min (p.sink.budget c).toNat p.maxRetries.toNat

/-- How often deliveries have been tried again: the shares of those that ended and the attempts of
those that run. -/
def retried (p : Pipeline ι MemorySink) (es : List Event) (q : Pipeline ι MemorySink) : Nat :=
  ((counts .delivered es ++ counts .failed es).map p.share).sum +
    (q.active.map (·.attempts.toNat)).sum

/-- What a run from `p` to `q` has made of the budgets. -/
structure Budgeted (p : Pipeline ι MemorySink) (es : List Event) (q : Pipeline ι MemorySink) :
    Prop where
  keyed : q.sink.Keyed
  taken : q.sink.delivered = p.sink.delivered ++ counts .delivered es
  /-- The budget of what was not offered is whole. -/
  untouched : ∀ c, (∀ x ∈ counts .attempted es, key x ≠ key c) →
    q.sink.budget c = p.sink.budget c
  running : ∀ d ∈ q.active, Left (p.sink.budget d.count) d.attempts (q.sink.budget d.count)
  delivered : ∀ c ∈ counts .delivered es, p.sink.budget c ≤ p.maxRetries
  failed : ∀ c ∈ counts .failed es, p.maxRetries < p.sink.budget c
  retries : q.stats.retries = p.stats.retries + UInt64.ofNat (p.retried es q)
  attempts : q.sink.attempts = p.sink.attempts + UInt64.ofNat
    (p.retried es q + (counts .delivered es).length + (counts .failed es).length)

/-- Where nothing is offered and the same deliveries run, all stays as it was. -/
theorem Budgeted.quiet (hq : Budgeted p es q) (hsink : r.sink = q.sink)
    (hactive : r.active.map (fun d => (d.count, d.attempts)) =
      q.active.map fun d => (d.count, d.attempts))
    (hretries : r.stats.retries = q.stats.retries) (hattempted : counts .attempted es' = [])
    (hdelivered : counts .delivered es' = []) (hfailed : counts .failed es' = []) :
    Budgeted p (es ++ es') r := by
  have hsum : (r.active.map (·.attempts.toNat)).sum = (q.active.map (·.attempts.toNat)).sum := by
    have hattempts := congrArg (fun ps => (ps.map fun d => d.2.toNat).sum) hactive
    simp only [List.map_map] at hattempts
    exact hattempts
  have hretried : p.retried (es ++ es') r = p.retried es q := by
    rw [retried, retried, hsum]
    simp only [Event.counts_append, hdelivered, hfailed, List.append_nil]
  refine ⟨hsink ▸ hq.keyed, ?_, ?_, fun d hd => ?_, ?_, ?_, ?_, ?_⟩
  · rw [hsink, hq.taken, Event.counts_append, hdelivered, List.append_nil]
  · rw [hsink, Event.counts_append, hattempted, List.append_nil]
    exact hq.untouched
  · have hmem : (d.count, d.attempts) ∈ q.active.map fun d => (d.count, d.attempts) :=
      hactive ▸ List.mem_map_of_mem hd
    obtain ⟨e, he, hsame⟩ := List.mem_map.1 hmem
    obtain ⟨hcount, hattempts⟩ := Prod.mk.inj hsame
    rw [hsink, ← hcount, ← hattempts]
    exact hq.running e he
  · rw [Event.counts_append, hdelivered, List.append_nil]
    exact hq.delivered
  · rw [Event.counts_append, hfailed, List.append_nil]
    exact hq.failed
  · rw [hretries, hretried, hq.retries]
  · rw [hsink, hretried, hq.attempts, Event.counts_append, hdelivered, Event.counts_append, hfailed,
      List.append_nil, List.append_nil]

/-- A delivery that ends leaves its attempts to the share of its word count. -/
theorem retried_of_settling {before after : List Delivery} {d : Delivery}
    (hactive : q.active = before ++ d :: after) (hleft : r.active = before ++ after)
    (hends : counts .delivered es' ++ counts .failed es' = [d.count])
    (hshare : p.share d.count = d.attempts.toNat) :
    p.retried (es ++ es') r = p.retried es q := by
  have hsum := congrArg (fun cs => (cs.map p.share).sum) hends
  simp only [List.map_append, List.sum_append, List.map_cons, List.map_nil, List.sum_cons,
    List.sum_nil, hshare] at hsum
  unfold retried
  rw [hactive, hleft]
  simp only [Event.counts_append, List.map_append, List.sum_append, List.map_cons, List.sum_cons]
  omega

theorem Budgeted.starts (hq : Budgeted p es q) {c : WordCount}
    (hfree : ∀ x ∈ counts .attempted es, key x ≠ key c) (hsink : r.sink = q.sink)
    (hactive : r.active = q.active ++ [{ count := c }])
    (hretries : r.stats.retries = q.stats.retries) :
    Budgeted p (es ++ [⟨.started, c⟩]) r := by
  have hretried : p.retried (es ++ [⟨.started, c⟩]) r = p.retried es q := by
    rw [retried, retried, hactive]
    simp
  have hsame {stage : Stage} (hstage : stage ≠ .started) :
      counts stage (es ++ [⟨.started, c⟩]) = counts stage es :=
    Event.counts_concat_of_ne hstage.symm
  refine ⟨hsink ▸ hq.keyed, ?_, ?_, fun d hd => ?_, ?_, ?_, ?_, ?_⟩
  · rw [hsink, hq.taken, hsame (by simp)]
  · rw [hsink, hsame (by simp)]
    exact hq.untouched
  · rw [hactive, List.mem_append, List.mem_singleton] at hd
    rw [hsink]
    rcases hd with hd | rfl
    · exact hq.running d hd
    · rw [hq.untouched c hfree]
      exact Left.start _
  · rw [hsame (by simp)]
    exact hq.delivered
  · rw [hsame (by simp)]
    exact hq.failed
  · rw [hretries, hretried, hq.retries]
  · rw [hsink, hretried, hq.attempts, hsame (by simp), hsame (by simp)]

/-- From `q` to `r` a running delivery offers its word count, which no other one delivers. -/
structure Offers (q r : Pipeline ι MemorySink) (before : List Delivery) (d : Delivery)
    (after : List Delivery) : Prop where
  active : q.active = before ++ d :: after
  apart : ∀ e ∈ before ++ after, key e.count ≠ key d.count
  sink : r.sink = (q.sink.deliver d.count).2

section
variable {before after : List Delivery} {d : Delivery}

theorem Offers.mem (h : Offers q r before d after) : d ∈ q.active :=
  h.active ▸ List.mem_append_right _ List.mem_cons_self

/-- An offer touches the budget of its own word count alone. -/
theorem Budgeted.others (hq : Budgeted p es q) (h : Offers q r before d after) (es' : List Event)
    (hattempted : counts .attempted es' = [d.count]) :
    (∀ c, (∀ x ∈ counts .attempted (es ++ es'), key x ≠ key c) →
      r.sink.budget c = p.sink.budget c) ∧
    ∀ e ∈ before ++ after, Left (p.sink.budget e.count) e.attempts (r.sink.budget e.count) := by
  refine ⟨fun c hc => ?_, fun e he => ?_⟩
  · rw [Event.counts_append, hattempted] at hc
    have hne := hc d.count (List.mem_append_right _ (List.mem_singleton_self _))
    rw [h.sink, budget_deliver_of_ne hq.keyed hne.symm]
    exact hq.untouched c fun x hx => hc x (List.mem_append_left _ hx)
  · rw [h.sink, budget_deliver_of_ne hq.keyed (h.apart e he)]
    refine hq.running e ?_
    rw [h.active]
    exact List.mem_append.2 ((List.mem_append.1 he).imp_right (List.mem_cons_of_mem d))

/-- A word count is taken once its budget is used up. -/
theorem Budgeted.delivers (hq : Budgeted p es q) (h : Offers q r before d after)
    (hle : d.attempts ≤ p.maxRetries) (hok : (q.sink.deliver d.count).1 = .ok ())
    (hleft : r.active = before ++ after) (hretries : r.stats.retries = q.stats.retries) :
    Budgeted p (es ++ [⟨.attempted, d.count⟩, ⟨.delivered, d.count⟩]) r := by
  have hzero := budget_of_ok hq.keyed hok
  have hall : d.attempts = p.sink.budget d.count := (hzero ▸ hq.running d h.mem).eq_of_zero
  have hdelivered : counts .delivered (es ++ [⟨.attempted, d.count⟩, ⟨.delivered, d.count⟩]) =
      counts .delivered es ++ [d.count] := Event.counts_append _ _ _
  have hfailed : counts .failed (es ++ [⟨.attempted, d.count⟩, ⟨.delivered, d.count⟩]) =
      counts .failed es := by simp
  have hretried : p.retried (es ++ [⟨.attempted, d.count⟩, ⟨.delivered, d.count⟩]) r =
      p.retried es q := by
    refine retried_of_settling h.active hleft rfl ?_
    rw [share, ← hall, Nat.min_eq_left (UInt32.le_iff_toNat_le.1 hle)]
  obtain ⟨huntouched, hrunning⟩ :=
    hq.others h [⟨.attempted, d.count⟩, ⟨.delivered, d.count⟩] rfl
  refine ⟨h.sink ▸ keyed_deliver hq.keyed _, ?_, huntouched, hleft ▸ hrunning, fun c hc => ?_, ?_,
    ?_, ?_⟩
  · rw [h.sink, deliver_of_budget_eq_zero hq.keyed hzero, hdelivered, ← List.append_assoc,
      ← hq.taken]
  · rw [hdelivered, List.mem_append, List.mem_singleton] at hc
    rcases hc with hc | rfl
    · exact hq.delivered c hc
    · exact hall ▸ hle
  · rw [hfailed]
    exact hq.failed
  · rw [hretries, hretried, hq.retries]
  · rw [h.sink, attempts_deliver, hq.attempts, hretried, hdelivered, hfailed, List.length_append,
      List.length_singleton, UInt64.add_assoc, ← UInt64.ofNat_one, ← UInt64.ofNat_add]
    congr 2
    omega

/-- A word count fails when its budget outlasts the retries. -/
theorem Budgeted.fails (hq : Budgeted p es q) (h : Offers q r before d after)
    (hm : p.maxRetries < FailureBudget.always) (hall : d.attempts = p.maxRetries)
    (herror : ∃ cause, (q.sink.deliver d.count).1 = .error cause)
    (hleft : r.active = before ++ after) (hretries : r.stats.retries = q.stats.retries) :
    Budgeted p (es ++ [⟨.attempted, d.count⟩, ⟨.failed, d.count⟩]) r := by
  have hsome := budget_of_error hq.keyed herror
  have hlt : p.maxRetries < p.sink.budget d.count :=
    hall ▸ (hq.running d h.mem).lt hsome fun _ => hall ▸ hm
  have hdelivered : counts .delivered (es ++ [⟨.attempted, d.count⟩, ⟨.failed, d.count⟩]) =
      counts .delivered es := by simp
  have hfailed : counts .failed (es ++ [⟨.attempted, d.count⟩, ⟨.failed, d.count⟩]) =
      counts .failed es ++ [d.count] := Event.counts_append _ _ _
  have hretried : p.retried (es ++ [⟨.attempted, d.count⟩, ⟨.failed, d.count⟩]) r =
      p.retried es q := by
    refine retried_of_settling h.active hleft rfl ?_
    rw [share, hall, Nat.min_eq_right (Nat.le_of_lt (UInt32.lt_iff_toNat_lt.1 hlt))]
  obtain ⟨huntouched, hrunning⟩ := hq.others h [⟨.attempted, d.count⟩, ⟨.failed, d.count⟩] rfl
  refine ⟨h.sink ▸ keyed_deliver hq.keyed _, ?_, huntouched, hleft ▸ hrunning, ?_, fun c hc => ?_,
    ?_, ?_⟩
  · rw [h.sink, (deliver_of_budget_ne_zero hq.keyed hsome).2.1, hdelivered, ← hq.taken]
  · rw [hdelivered]
    exact hq.delivered
  · rw [hfailed, List.mem_append, List.mem_singleton] at hc
    rcases hc with hc | rfl
    · exact hq.failed c hc
    · exact hlt
  · rw [hretries, hretried, hq.retries]
  · rw [h.sink, attempts_deliver, hq.attempts, hretried, hdelivered, hfailed, List.length_append,
      List.length_singleton, UInt64.add_assoc, ← UInt64.ofNat_one, ← UInt64.ofNat_add]
    congr 2

/-- A failure that is not the last one takes its part of the budget. -/
theorem Budgeted.pauses (hq : Budgeted p es q) (h : Offers q r before d after)
    (hlt : p.sink.budget d.count = FailureBudget.always → d.attempts < FailureBudget.always)
    (herror : ∃ cause, (q.sink.deliver d.count).1 = .error cause) {e : Delivery}
    (hagain : r.active = before ++ e :: after) (hcount : e.count = d.count)
    (hattempts : e.attempts = d.attempts + 1)
    (hretries : r.stats.retries = q.stats.retries + 1) :
    Budgeted p (es ++ [⟨.attempted, d.count⟩]) r := by
  have hsome := budget_of_error hq.keyed herror
  have hsame {stage : Stage} (hstage : stage ≠ .attempted) :
      counts stage (es ++ [⟨.attempted, d.count⟩]) = counts stage es :=
    Event.counts_concat_of_ne hstage.symm
  have hsucc : (d.attempts + 1).toNat = d.attempts.toNat + 1 := by
    have hless := UInt32.lt_iff_toNat_lt.1 ((hq.running d h.mem).lt hsome hlt)
    exact toNat_succ (UInt32.le_refl _)
      (Nat.lt_of_le_of_lt hless (p.sink.budget d.count).toNat_lt)
  have hretried : p.retried (es ++ [⟨.attempted, d.count⟩]) r = p.retried es q + 1 := by
    unfold retried
    rw [hsame (by simp), hsame (by simp), h.active, hagain]
    simp only [List.map_append, List.sum_append, List.map_cons, List.sum_cons, hattempts, hsucc]
    omega
  obtain ⟨huntouched, hrunning⟩ := hq.others h [⟨.attempted, d.count⟩] rfl
  obtain ⟨-, htaken, hspent⟩ := deliver_of_budget_ne_zero hq.keyed hsome
  refine ⟨h.sink ▸ keyed_deliver hq.keyed _, ?_, huntouched, fun x hx => ?_, ?_, ?_, ?_, ?_⟩
  · rw [h.sink, htaken, hsame (by simp), hq.taken]
  · rw [hagain] at hx
    rcases List.mem_append.1 hx with hx | hx
    · exact hrunning x (List.mem_append_left _ hx)
    rcases List.mem_cons.1 hx with rfl | hx
    · rw [hcount, hattempts, h.sink, hspent, if_pos rfl]
      exact (hq.running d h.mem).spend hsome hlt
    · exact hrunning x (List.mem_append_right _ hx)
  · rw [hsame (by simp)]
    exact hq.delivered
  · rw [hsame (by simp)]
    exact hq.failed
  · rw [hretries, hretried, hq.retries, UInt64.ofNat_add, UInt64.add_assoc]
    rfl
  · rw [h.sink, attempts_deliver, hq.attempts, hretried, hsame (by simp), hsame (by simp),
      UInt64.add_assoc, ← UInt64.ofNat_one, ← UInt64.ofNat_add]
    congr 2
    omega

end

section
variable [Source ι] {ms : List Move}

/-- A table of failures tells word counts apart that are about different words or windows. -/
theorem distinct_key (hes : Distinct (fun c => (c.word, c.window)) es) : Distinct key es := by
  rw [Distinct, List.Nodup, List.pairwise_map] at hes ⊢
  refine hes.imp fun hne hkey => hne ?_
  obtain ⟨hword, hwindow⟩ := Prod.mk.inj hkey
  rw [hword, Window.id_inj.1 hwindow]

/-- Where the number of retries leaves no room for one attempt more, the sink does not refuse for
ever any word count that the queue takes. -/
def Exhaustible (p : Pipeline ι MemorySink) (es : List Event) : Prop :=
  ∀ c ∈ counts .accepted es, p.sink.budget c = FailureBudget.always →
    p.maxRetries < FailureBudget.always

theorem budgeted_of_advance (hp : p.Fresh) (h : p.moves ms = some q)
    (hes : Distinct key (p.history ms)) (hm : p.Exhaustible (p.history ms)) {m : Move}
    (hadvance : Advance q m es r) (hq : Budgeted p (p.history ms) q) :
    Budgeted p (p.history ms ++ es) r := by
  have hmax : q.maxRetries = p.maxRetries := maxRetries_of_moves h
  have htame := tame_of_moves hp.tame h
  have hapart := (hes.apart hp h).2
  cases hadvance with
  | rests same aggregator inHand result =>
    refine hq.quiet same.sink (by rw [same.active]) ?_ rfl rfl rfl
    rw [stats, stats, aggregator]
  | operates op inHand going taken =>
    exact hq.quiet rfl rfl (Aggregator.retries_operate q.aggregator op) (by simp) (by simp)
      (by simp)
  | givesUp isClosed inHand => exact hq.quiet rfl rfl rfl (by simp) (by simp) (by simp)
  | @starts c next phase slot =>
    have hheld : c ∈ q.held ++ q.queue := by
      rcases phase with ⟨hphase, -⟩ | ⟨hphase, -⟩ <;> simp [held, hphase]
    exact hq.starts (unattempted_of_waiting hp h hes hheld) rfl rfl rfl
  | @settles i d outcome running phase ended =>
    obtain ⟨before, after, hactive, herase, -⟩ := active_split running
    have hle : d.attempts ≤ q.maxRetries := (htame d (List.mem_of_getElem? running)).2
    rw [hmax] at hle
    cases outcome with
    | ok u =>
      refine hq.delivers ⟨hactive, (alone hapart hactive).1, rfl⟩ hle (deliver_of_ok ended)
        herase ?_
      simp only [stats, countAnswer, ended]
    | error fault =>
      obtain ⟨cause, hcause, hlast, -⟩ := deliver_of_error ended
      rw [hmax] at hlast
      obtain ⟨hall, hroom⟩ := attempts_of_exhausted hle hlast
      have hbounded : p.maxRetries < FailureBudget.always :=
        UInt32.lt_iff_toNat_lt.2 (Nat.succ_lt_succ_iff.1 hroom)
      refine hq.fails ⟨hactive, (alone hapart hactive).1, rfl⟩ hbounded hall ⟨cause, hcause⟩
        herase ?_
      simp only [stats, countAnswer, ended]
  | @retries i d wake running phase pauses =>
    obtain ⟨before, after, hactive, -, hset⟩ := active_split running
    have hle : d.attempts ≤ q.maxRetries := (htame d (List.mem_of_getElem? running)).2
    rw [hmax] at hle
    have haccepted := mem_accepted hp h
      (List.mem_append_left _ (List.mem_map_of_mem (List.mem_of_getElem? running)))
    refine hq.pauses ⟨hactive, (alone hapart hactive).1, rfl⟩
      (fun halways => UInt32.lt_of_le_of_lt hle (hm _ haccepted halways))
      (deliver_of_pausing pauses).1 (hset _) (count_answered q d) (attempts_answered q d) ?_
    simp only [stats, countAnswer, pauses]
  | @wakes i d t running phase due =>
    refine hq.quiet rfl ?_ rfl rfl rfl rfl
    obtain ⟨before, after, hactive, -, hset⟩ := active_split running
    rw [hset, hactive, List.map_append, List.map_append]
    rfl
  | _ => exact hq.quiet rfl rfl rfl (by simp) (by simp) (by simp)

theorem budgeted_of_moves (hp : p.Fresh) (hkeyed : p.sink.Keyed) (h : p.moves ms = some q)
    (hes : Distinct key (p.history ms)) (hm : p.Exhaustible (p.history ms)) :
    Budgeted p (p.history ms) q := by
  revert hes hm
  refine run_induction (P := fun ms q => Distinct key (p.history ms) →
    p.Exhaustible (p.history ms) → Budgeted p (p.history ms) q) (fun _ _ => ?_) ?_ h
  · have hzero : p.retried [] p = 0 := by simp [retried, hp.active]
    refine ⟨hkeyed, (List.append_nil _).symm, fun c _ => rfl, fun d hd => ?_, nofun, nofun,
      ?_, ?_⟩
    · rw [hp.active] at hd
      cases hd
    · rw [history, hzero]
      exact (UInt64.add_zero _).symm
    · rw [history, hzero]
      exact (UInt64.add_zero _).symm
  · intro ms m q r hq hr ih hes hm
    rw [history_concat hq hr] at hes hm ⊢
    have hbefore : p.Exhaustible (p.history ms) := fun c hc => by
      refine hm c ?_
      rw [Event.counts_append]
      exact List.mem_append_left _ hc
    exact budgeted_of_advance hp hq hes.of_append hbefore (advance_of_move hr)
      (ih hes.of_append hbefore)

/-! ## Outcomes -/

/-- A run of the delivering side from its start to its end, over word counts of which no two are
about the same word in the same window, with a number of retries that leaves room for one attempt
more. -/
structure Served (reason : String) (p : Pipeline ι MemorySink) (ms : List Move)
    (q : Pipeline ι MemorySink) : Prop where
  idle : p.Idle
  keyed : p.sink.Keyed
  bounded : p.maxRetries < FailureBudget.always
  run : p.makeAll reason ms = some (.ok q)
  distinct : Distinct (fun c => (c.word, c.window)) (p.chronicle reason ms)
  finished : q.dispatcher = .finished

section
variable {reason : String} (h : Served reason p ms q)
include h

/-! ### With room for the slots -/

section
variable (hslots : p.slots ≤ maxPermits)
include hslots

theorem Served.budgeted : Budgeted p (p.chronicle reason ms) q := by
  obtain ⟨hmoves, hhistory⟩ := moves_of_makeAll hslots h.run
  have hdistinct := h.distinct
  rw [hhistory] at hdistinct ⊢
  exact budgeted_of_moves h.idle.toFresh h.keyed hmoves (distinct_key hdistinct) fun _ _ _ => h.bounded

theorem Served.ended : (counts .accepted (p.chronicle reason ms)).Perm
    (counts .delivered (p.chronicle reason ms) ++ counts .failed (p.chronicle reason ms)) := by
  obtain ⟨hmoves, hhistory⟩ := moves_of_makeAll hslots h.run
  rw [hhistory]
  exact ended_of_moves h.idle.toFresh hmoves h.finished

theorem Served.delivered_perm : (counts .delivered (p.chronicle reason ms)).Perm
    ((counts .accepted (p.chronicle reason ms)).filter
      fun c => p.sink.budget c ≤ p.maxRetries) := by
  refine .trans ?_ ((h.ended hslots).filter _).symm
  rw [List.filter_append, List.filter_eq_self.2 fun c hc =>
    decide_eq_true ((h.budgeted hslots).delivered c hc), List.filter_eq_nil_iff.2 fun c hc => by
    simpa using (h.budgeted hslots).failed c hc, List.append_nil]

theorem Served.failed_perm : (counts .failed (p.chronicle reason ms)).Perm
    ((counts .accepted (p.chronicle reason ms)).filter
      fun c => p.maxRetries < p.sink.budget c) := by
  refine .trans ?_ ((h.ended hslots).filter _).symm
  rw [List.filter_append, List.filter_eq_nil_iff.2 fun c hc => by
    simpa using (h.budgeted hslots).delivered c hc, List.filter_eq_self.2 fun c hc =>
    decide_eq_true ((h.budgeted hslots).failed c hc), List.nil_append]

theorem Served.retried_eq : p.retried (p.chronicle reason ms) q =
    ((counts .accepted (p.chronicle reason ms)).map p.share).sum := by
  have horderly := h.idle.toFresh.orderly (moves_of_makeAll hslots h.run).1
  rw [retried, (horderly.joined h.finished).1, ((h.ended hslots).map p.share).sum_nat]
  rfl

theorem Served.attempts_eq : q.sink.attempts = p.sink.attempts +
    UInt64.ofNat ((counts .accepted (p.chronicle reason ms)).map fun c => p.share c + 1).sum := by
  rw [(h.budgeted hslots).attempts, h.retried_eq hslots, List.sum_map_add, List.map_const',
    List.sum_replicate, (h.ended hslots).length_eq, List.length_append, Nat.add_assoc]
  simp

theorem Served.retries_eq : q.stats.retries = p.stats.retries +
    UInt64.ofNat ((counts .accepted (p.chronicle reason ms)).map p.share).sum := by
  rw [(h.budgeted hslots).retries, h.retried_eq hslots]

theorem Served.failure_iff : q.failure ≠ none ↔
    ∃ c ∈ counts .accepted (p.chronicle reason ms), p.maxRetries < p.sink.budget c := by
  obtain ⟨hmoves, hhistory⟩ := moves_of_makeAll hslots h.run
  have horderly := h.idle.toFresh.orderly hmoves
  have hunreported : ∀ fault, ¬ p.Reports fault := by
    simp [Reports, h.idle.settled, h.idle.failure]
  have hreports := (reports_of_moves h.idle.toFresh.tame hunreported hmoves).2
  simp only [Reports, (horderly.joined h.finished).2, List.not_mem_nil, or_false] at hreports
  rw [← Option.ne_none_iff_exists'] at hreports
  rw [hreports, ← hhistory, ne_eq, ← List.length_eq_zero_iff, (h.failed_perm hslots).length_eq,
    List.length_eq_zero_iff, List.filter_eq_nil_iff]
  simp

end

/-! ### Without room for the slots -/

theorem Served.given_up (hslots : maxPermits < p.slots) :
    counts .delivered (p.chronicle reason ms) = [] ∧ counts .failed (p.chronicle reason ms) = [] ∧
      q.sink = p.sink ∧ q.stats.retries = p.stats.retries ∧
      q.failure = some (.taskFailed reason) := by
  obtain ⟨hbarren, hsame, hnothing⟩ := barren_of_makeAll hslots (h.idle.barren reason) h.run
  refine ⟨hnothing .delivered rfl, hnothing .failed rfl, hsame.sink, hsame.retries, ?_⟩
  rcases hbarren.phase with ⟨hserving, -⟩ | ⟨-, -, hfailure⟩
  · rw [h.finished] at hserving
    cases hserving
  · exact hfailure

/-- Two runs that serve the same word counts from the same sink agree in everything, if both have
room for their slots or neither has. -/
theorem Served.agree {reason' : String} {p' : Pipeline ι MemorySink} {ms' : List Move}
    {q' : Pipeline ι MemorySink} (h' : Served reason' p' ms' q')
    (hmax : p'.maxRetries = p.maxRetries)
    (hroom : p'.slots ≤ maxPermits ↔ p.slots ≤ maxPermits)
    (haccepted : (counts .accepted (p'.chronicle reason' ms')).Perm
      (counts .accepted (p.chronicle reason ms)))
    (hsink : p'.sink = p.sink) (hretries : p'.stats.retries = p.stats.retries) :
    (counts .delivered (p'.chronicle reason' ms')).Perm
        (counts .delivered (p.chronicle reason ms)) ∧
      (counts .failed (p'.chronicle reason' ms')).Perm (counts .failed (p.chronicle reason ms)) ∧
      q'.sink.attempts = q.sink.attempts ∧ q'.stats.retries = q.stats.retries ∧
      (q'.failure ≠ none ↔ q.failure ≠ none) := by
  rcases Nat.lt_or_ge maxPermits p.slots with hslots | hslots
  · have hslots' := Nat.not_le.1 (mt hroom.1 (Nat.not_le.2 hslots))
    obtain ⟨hdelivered, hfailed, hkept, hsame, hfailure⟩ := h.given_up hslots
    obtain ⟨hdelivered', hfailed', hkept', hsame', hfailure'⟩ := h'.given_up hslots'
    rw [hdelivered, hdelivered', hfailed, hfailed', hkept, hkept', hsame, hsame', hfailure,
      hfailure', hsink, hretries]
    exact ⟨.rfl, .rfl, rfl, rfl, by simp⟩
  · have hslots' := hroom.2 hslots
    have hshare : p'.share = p.share := by
      funext c
      rw [share, share, hsink, hmax]
    have hdelivered := h'.delivered_perm hslots'
    have hfailed := h'.failed_perm hslots'
    rw [hsink, hmax] at hdelivered hfailed
    refine ⟨hdelivered.trans ((haccepted.filter _).trans (h.delivered_perm hslots).symm),
      hfailed.trans ((haccepted.filter _).trans (h.failed_perm hslots).symm), ?_, ?_, ?_⟩
    · rw [h'.attempts_eq hslots', h.attempts_eq hslots, hsink, hshare, (haccepted.map _).sum_nat]
    · rw [h'.retries_eq hslots', h.retries_eq hslots, hretries, hshare, (haccepted.map _).sum_nat]
    · rw [h'.failure_iff hslots', h.failure_iff hslots, hsink, hmax]
      simp only [haccepted.mem_iff]

/-- Whatever the order of moves, a word count is delivered just when its budget is no larger than
the number of retries, and otherwise fails, if there is room for the slots; offers and retries are as
many as the budgets and the number of retries have it, and there is a failure to report just when a
budget is larger. Without room for the slots nothing is offered, and a failure is reported all the
same. So two runs with the same number of retries treat a word count alike if their budgets for it
are the same, and agree in everything if they serve the same word counts from the same sink. -/
theorem outcomes_of_budgets {es : List Event} (hes : p.chronicle reason ms = es) :
    (p.slots ≤ maxPermits →
      (counts .delivered es).Perm
        ((counts .accepted es).filter fun c => p.sink.budget c ≤ p.maxRetries) ∧
      q.sink.delivered = p.sink.delivered ++ counts .delivered es ∧
      (counts .failed es).Perm
        ((counts .accepted es).filter fun c => p.maxRetries < p.sink.budget c) ∧
      q.sink.attempts = p.sink.attempts +
        UInt64.ofNat ((counts .accepted es).map fun c => p.share c + 1).sum ∧
      q.stats.retries = p.stats.retries +
        UInt64.ofNat ((counts .accepted es).map p.share).sum ∧
      (q.failure ≠ none ↔ ∃ c ∈ counts .accepted es, p.maxRetries < p.sink.budget c)) ∧
    (maxPermits < p.slots →
      counts .delivered es = [] ∧ counts .failed es = [] ∧ q.sink = p.sink ∧
        q.stats.retries = p.stats.retries ∧ q.failure = some (.taskFailed reason)) ∧
    ∀ {reason' : String} {p' : Pipeline ι MemorySink} {ms' : List Move}
      {q' : Pipeline ι MemorySink} {es' : List Event}, Served reason' p' ms' q' →
      p'.chronicle reason' ms' = es' → p'.maxRetries = p.maxRetries →
      (p'.slots ≤ maxPermits ↔ p.slots ≤ maxPermits) →
      (∀ c ∈ counts .accepted es, c ∈ counts .accepted es' →
        p'.sink.budget c = p.sink.budget c →
        (c ∈ counts .delivered es' ↔ c ∈ counts .delivered es) ∧
        (c ∈ counts .failed es' ↔ c ∈ counts .failed es)) ∧
      ((counts .accepted es').Perm (counts .accepted es) →
        p'.sink = p.sink → p'.stats.retries = p.stats.retries →
        (counts .delivered es').Perm (counts .delivered es) ∧
        (counts .failed es').Perm (counts .failed es) ∧
        q'.sink.attempts = q.sink.attempts ∧ q'.stats.retries = q.stats.retries ∧
        (q'.failure ≠ none ↔ q.failure ≠ none)) := by
  subst hes
  refine ⟨fun hslots => ⟨h.delivered_perm hslots, (h.budgeted hslots).taken, h.failed_perm hslots,
    h.attempts_eq hslots, h.retries_eq hslots, h.failure_iff hslots⟩, h.given_up,
    fun {reason' p' ms' q' es'} h' hes' hmax hroom => ?_⟩
  subst hes'
  refine ⟨fun c hc hc' hbudget => ?_, h.agree h' hmax hroom⟩
  rcases Nat.lt_or_ge maxPermits p.slots with hslots | hslots
  · have hslots' := Nat.not_le.1 (mt hroom.1 (Nat.not_le.2 hslots))
    simp [(h.given_up hslots).1, (h.given_up hslots).2.1, (h'.given_up hslots').1,
      (h'.given_up hslots').2.1]
  · have hslots' := hroom.2 hslots
    simp only [(h.delivered_perm hslots).mem_iff, (h'.delivered_perm hslots').mem_iff,
      (h.failed_perm hslots).mem_iff, (h'.failed_perm hslots').mem_iff, List.mem_filter, hc, hc',
      hmax, hbudget, and_self]

end

/-- Three word counts of one window, with one retry: the sink refuses `a` once, `b` always and `c`
never. -/
def triedOnce : Pipeline ListSource MemorySink :=
  atRest { tightAggregator with settings := { delivery := { maxRetries := 1 } } } { records := [] }
    ((({} : MemorySink).failTimes "a" "0_5000" 1).failTimes "b" "0_5000" FailureBudget.always)

/-- The moves before the first offer: the three word counts are handed in and started. -/
def threeStarted : List Move :=
  .turn .read :: ["a", "b", "c"].map (fun word => .hand ⟨word, 1, ⟨0, 5000⟩⟩) ++
    List.replicate 6 (.turn .dispatch)

/-- The moves after the last offer: the reader leaves and the dispatcher collects the rest. -/
def closedUp : List Move :=
  List.replicate 5 (.turn .read) ++ List.replicate 2 (.turn .dispatch) ++
    List.replicate 3 (.turn (.collect 0)) ++ [.turn .dispatch]

/-- An order in which each word count is offered in turn. -/
def inTurn : List Move :=
  threeStarted ++ [.turn (.offer 0), .turn (.offer 1), .turn (.offer 2), .turn (.elapse 100),
    .turn (.wake 0), .turn (.offer 0), .turn (.wake 0), .turn (.offer 0)] ++ closedUp

/-- An order in which `b` fails before `a` is offered at all. -/
def failureFirst : List Move :=
  threeStarted ++ [.turn (.offer 1), .turn (.elapse 100), .turn (.wake 1), .turn (.offer 1),
    .turn (.offer 0), .turn (.offer 1), .turn (.elapse 100), .turn (.wake 0), .turn (.offer 0)] ++
    closedUp

theorem served_of_triedOnce {ms : List Move} {q : Pipeline ListSource MemorySink}
    (hrun : triedOnce.makeAll "" ms = some (.ok q))
    (hdistinct : Distinct (fun c => (c.word, c.window)) (triedOnce.chronicle "" ms))
    (hfinished : q.dispatcher = .finished) : Served "" triedOnce ms q := by
  have hempty : ({} : MemorySink).Keyed := List.nodup_nil
  exact ⟨⟨⟨rfl, rfl, rfl, rfl, rfl, rfl⟩, rfl, rfl, rfl⟩,
    keyed_failTimes (keyed_failTimes hempty _ _ _) _ _ _, by decide, hrun, hdistinct, hfinished⟩

/-- The theorem for two orders of moves after the same hand-overs. -/
theorem outcomes_of_budgets_in_two_orders : ∃ q q', Served "" triedOnce inTurn q ∧
    Served "" triedOnce failureFirst q' ∧
    (counts .delivered (triedOnce.chronicle "" inTurn)).map (·.word) = ["c", "a"] ∧
    (counts .failed (triedOnce.chronicle "" inTurn)).map (·.word) = ["b"] ∧
    q.sink.attempts = 5 ∧ q.stats.retries = 2 ∧ q.failure ≠ none ∧
    q'.sink.attempts = q.sink.attempts := by
  have hend : (triedOnce.makeAll "" inTurn).bind (·.toOption.map (·.dispatcher)) =
      some .finished := rfl
  have hend' : (triedOnce.makeAll "" failureFirst).bind (·.toOption.map (·.dispatcher)) =
      some .finished := rfl
  obtain ⟨q, hrun, hdone⟩ := exists_of_answer hend
  obtain ⟨q', hrun', hdone'⟩ := exists_of_answer hend'
  have hserved := served_of_triedOnce hrun (by decide +kernel) hdone
  have hserved' := served_of_triedOnce hrun' (by decide +kernel) hdone'
  obtain ⟨hends, -, hagree⟩ := outcomes_of_budgets hserved rfl
  obtain ⟨-, -, -, hattempts, hretries, hfailure⟩ := hends (by decide)
  obtain ⟨-, hsame⟩ := hagree hserved' rfl rfl Iff.rfl
  refine ⟨q, q', hserved, hserved', by decide +kernel, by decide +kernel,
    hattempts.trans (by decide +kernel), hretries.trans (by decide +kernel),
    hfailure.2 (by decide +kernel), ?_⟩
  exact (hsame (by decide +kernel) rfl rfl).2.2.1

/-- With more slots than there is room for, word counts that the sink would have taken at once are
not delivered, nothing is offered, and a failure is reported. -/
theorem none_offered_without_slots : ∃ q,
    Served "" overstaffed (queuedFirst.map .turn) q ∧
    (counts .accepted (overstaffed.chronicle "" (queuedFirst.map .turn))).map
      overstaffed.sink.budget = [0, 0] ∧
    counts .delivered (overstaffed.chronicle "" (queuedFirst.map .turn)) = [] ∧
    q.sink.attempts = 0 ∧ q.failure = some (.taskFailed "") := by
  have hend : (overstaffed.makeAll "" (queuedFirst.map .turn)).bind (·.toOption.map fun q =>
      (q.dispatcher, q.sink.attempts, q.failure)) =
        some (.finished, 0, some (.taskFailed "")) := rfl
  obtain ⟨q, hrun, hanswer⟩ := exists_of_answer hend
  rw [Prod.mk.injEq, Prod.mk.injEq] at hanswer
  obtain ⟨hfinished, hattempts, hfailure⟩ := hanswer
  refine ⟨q, ⟨⟨⟨rfl, rfl, rfl, rfl, rfl, rfl⟩, rfl, rfl, rfl⟩, List.nodup_nil, by decide, hrun,
    by decide +kernel, hfinished⟩, by decide +kernel, by decide +kernel, hattempts, hfailure⟩

end

end Pipeline

end WindowTally
