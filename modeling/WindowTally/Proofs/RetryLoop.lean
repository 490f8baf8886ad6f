import WindowTally.Proofs.DeliveryTime

/-!
# The retries of one delivery

A delivery offers its word count until the sink takes it or the retries run out, and pauses
before each retry. Here the turns of one delivery are followed from its first offer to its
end, whatever the sink answers (`Pipeline.retry_loop`): after each refusal it pauses exactly as
long as the settings say, it ends with the first offer that is taken or with the one after the
last retry, and it accounts for every retry and for its end. Nothing else of the pipeline
changes, whatever else is under way.

A sink in memory refuses a word count as often as its budget says, so there the number of
offers is known beforehand (`Pipeline.FollowsBudget`).
-/
namespace WindowTally

/-! ## Offering one word count again and again -/

section
variable {σ : Type} [Sink σ]

/-- The sink after so many offers of a word count. -/
def Sink.offered (s : σ) (c : WordCount) : Nat → σ
  | 0 => s
  | k + 1 => (Sink.deliver (offered s c k) c).2

/-- What it answers to the offer after so many. -/
def Sink.answerAfter (s : σ) (c : WordCount) (k : Nat) : Except DeliveryFault Unit :=
  (Sink.deliver (Sink.offered s c k) c).1

end

namespace Pipeline

variable {ι σ : Type}

/-! ## The turns of one delivery -/

section
variable [Sink σ] (p : Pipeline ι σ) (i : Nat) (c : WordCount)

/-- How long a delivery pauses before its retry number `k`. -/
def pauseBefore (k : Nat) : Nat := (p.settings.delivery.backoff (UInt32.ofNat k)).toNat

/-- The turns in which the delivery at `i` is refused so many times and pauses after each, no longer
than it has to. -/
def retryTurns (p : Pipeline ι σ) (i : Nat) : Nat → List Turn
  | 0 => []
  | k + 1 => p.retryTurns i k ++ [.offer i, .elapse (p.pauseBefore (k + 1)), .wake i]

/-- The delivery at `i` has been refused `k` times and is about to offer again. -/
def retrying (k : Nat) : Pipeline ι σ :=
  { p with
    sink := Sink.offered p.sink c k
    clock := p.clock + p.settings.delivery.pauses k
    active := p.active.set i { count := c, attempts := UInt32.ofNat k }
    aggregator := { p.aggregator with
      stats := { p.stats with retries := p.stats.retries + UInt64.ofNat k } } }

/-- It has been refused once more and pauses. -/
def refused (k : Nat) : Pipeline ι σ :=
  { p with
    sink := Sink.offered p.sink c (k + 1)
    clock := p.clock + p.settings.delivery.pauses k
    active := p.active.set i
      { count := c
        attempts := UInt32.ofNat (k + 1)
        phase := .pausing (p.clock + p.settings.delivery.pauses k + p.pauseBefore (k + 1)) }
    aggregator := { p.aggregator with
      stats := { p.stats with retries := p.stats.retries + UInt64.ofNat (k + 1) } } }

/-- It has ended, with the offer after `k` refusals. -/
def ended (k : Nat) (outcome : Except DeliveryFault Unit) (stats : Stats) : Pipeline ι σ :=
  { p with
    sink := Sink.offered p.sink c (k + 1)
    clock := p.clock + p.settings.delivery.pauses k
    active := p.active.eraseIdx i
    settled := p.settled ++ [outcome]
    aggregator := { p.aggregator with stats := stats } }

end

section
variable [Sink σ] {p : Pipeline ι σ} {i k : Nat} {c : WordCount}

theorem retrying_zero (h : p.active[i]? = some { count := c }) : p.retrying i c 0 = p := by
  have hactive : p.active.set i { count := c, attempts := UInt32.ofNat 0 } = p.active := by
    obtain ⟨before, after, hsplit, -, hset⟩ := active_split h
    rw [hset, hsplit]
    rfl
  have hretries : p.stats.retries + UInt64.ofNat 0 = p.stats.retries := UInt64.add_zero _
  rw [retrying, hactive, hretries]
  rfl

/-- What an offer makes of the pipeline. -/
theorem offer_eq {d : Delivery} (h : p.active[i]? = some d) (hphase : d.phase = .offering) :
    p.offer i = some ({ p with
      sink := (Sink.deliver p.sink d.count).2
      aggregator := { p.aggregator with stats := countAnswer p.stats (p.answered d) } }.replace i
        (p.answered d)) := by
  simp only [offer, h, hphase]
  rfl

theorem active_retrying (hi : i < p.active.length) :
    (p.retrying i c k).active[i]? = some { count := c, attempts := UInt32.ofNat k } := by
  simp [retrying, hi]

/-- What the answer makes of a delivery that has been refused so many times. -/
theorem answered_retrying : (p.retrying i c k).answered { count := c, attempts := UInt32.ofNat k } =
    Delivery.resolve { count := c, attempts := UInt32.ofNat k } p.settings.delivery
      (p.clock + p.settings.delivery.pauses k) (Sink.answerAfter p.sink c k) := rfl

/-- While retries are left, the number of the next attempt is in range. -/
theorem ofNat_succ_le {m : UInt32} (hk : k < m.toNat) : UInt32.ofNat (k + 1) ≤ m := by
  have hsucc : (UInt32.ofNat (k + 1)).toNat = k + 1 :=
    UInt32.toNat_ofNat_of_lt' (Nat.lt_of_le_of_lt hk m.toNat_lt)
  rw [UInt32.le_iff_toNat_le, hsucc]
  exact hk

/-- While the counter allows for another retry, a refusal makes the delivery pause. -/
theorem offer_of_refused (hi : i < p.active.length) (hk : UInt32.ofNat (k + 1) ≤ p.maxRetries)
    {fault : DeliveryFault} (h : Sink.answerAfter p.sink c k = .error fault) :
    (p.retrying i c k).offer i = some (p.refused i c k) := by
  have hnext : UInt32.ofNat (k + 1) = UInt32.ofNat k + 1 := UInt32.ofNat_add k 1
  have hle : UInt32.ofNat k + 1 ≤ p.maxRetries := hnext ▸ hk
  have hanswered : (p.retrying i c k).answered { count := c, attempts := UInt32.ofNat k } =
      { count := c
        attempts := UInt32.ofNat (k + 1)
        phase := .pausing (p.clock + p.settings.delivery.pauses k + p.pauseBefore (k + 1)) } := by
    rw [answered_retrying, h, pauseBefore, hnext]
    exact if_pos hle
  have hretries : p.stats.retries + UInt64.ofNat k + 1 =
      p.stats.retries + UInt64.ofNat (k + 1) := by
    rw [UInt64.ofNat_add, UInt64.add_assoc]
    rfl
  rw [offer_eq (active_retrying hi) rfl, hanswered, refused, ← hretries]
  simp only [replace, Delivery.outcome?, retrying, List.set_set]
  rfl

/-- An offer that is taken ends the delivery. -/
theorem offer_of_taken (hi : i < p.active.length) (h : Sink.answerAfter p.sink c k = .ok ()) :
    (p.retrying i c k).offer i = some (p.ended i c k (.ok ()) { p.stats with
      retries := p.stats.retries + UInt64.ofNat k
      delivered := p.stats.delivered + 1 }) := by
  have hanswered := answered_retrying (p := p) (i := i) (c := c) (k := k)
  rw [h] at hanswered
  rw [offer_eq (active_retrying hi) rfl, hanswered]
  simp only [replace, Delivery.resolve, Delivery.outcome?, retrying, List.eraseIdx_set_eq]
  rfl

/-- So does a refusal after the last retry. -/
theorem offer_of_exhausted (hi : i < p.active.length) (hmax : p.maxRetries.toNat + 1 < 2 ^ 32)
    {fault : DeliveryFault} (h : Sink.answerAfter p.sink c p.maxRetries.toNat = .error fault) :
    (p.retrying i c p.maxRetries.toNat).offer i = some (p.ended i c p.maxRetries.toNat
      (.error (.exhausted c.word c.window.id (p.maxRetries + 1) fault.message)) { p.stats with
        retries := p.stats.retries + UInt64.ofNat p.maxRetries.toNat
        failed := p.stats.failed + 1 }) := by
  have hlt : ¬ p.maxRetries + 1 ≤ p.maxRetries := by
    intro hle
    rw [UInt32.le_iff_toNat_le, toNat_succ (UInt32.le_refl _) hmax] at hle
    exact Nat.not_succ_le_self _ hle
  have hanswered : (p.retrying i c p.maxRetries.toNat).answered
      { count := c, attempts := UInt32.ofNat p.maxRetries.toNat } =
      { count := c
        attempts := p.maxRetries + 1
        phase := .settled
          (.error (.exhausted c.word c.window.id (p.maxRetries + 1) fault.message)) } := by
    rw [answered_retrying, h, UInt32.ofNat_toNat]
    exact if_neg hlt
  rw [offer_eq (active_retrying hi) rfl, hanswered]
  simp only [replace, Delivery.outcome?, retrying, List.eraseIdx_set_eq]
  rfl

variable [Source ι]

/-- A pause is over when its time has passed, and not before. -/
theorem wake_refused (hi : i < p.active.length) (ms : Nat) :
    (p.refused i c k).steps [.elapse ms, .wake i] =
      if p.pauseBefore (k + 1) ≤ ms then
        some { p.retrying i c (k + 1) with
          clock := p.clock + p.settings.delivery.pauses k + ms }
      else none := by
  have hat : ({ p.refused i c k with
      clock := p.clock + p.settings.delivery.pauses k + ms } : Pipeline ι σ).active[i]? = some
        { count := c
          attempts := UInt32.ofNat (k + 1)
          phase := .pausing
            (p.clock + p.settings.delivery.pauses k + p.pauseBefore (k + 1)) } := by
    simp [refused, hi]
  have hsteps : (p.refused i c k).steps [.elapse ms, .wake i] =
      ({ p.refused i c k with
        clock := p.clock + p.settings.delivery.pauses k + ms } : Pipeline ι σ).wake i :=
    (Option.bind_some _ _).trans (Option.bind_fun_some _)
  rw [hsteps, wake, hat]
  simp only [Nat.add_le_add_iff_left]
  simp only [refused, retrying, List.set_set]

/-- As long as it is refused and its counter allows for another retry, a delivery pauses and offers
again. -/
theorem steps_retryTurns (h : p.active[i]? = some { count := c })
    (hk : ∀ j < k, UInt32.ofNat (j + 1) ≤ p.maxRetries)
    (hrefused : ∀ j < k, ∃ fault, Sink.answerAfter p.sink c j = .error fault) :
    p.steps (p.retryTurns i k) = some (p.retrying i c k) := by
  have hi : i < p.active.length := (List.getElem?_eq_some_iff.1 h).1
  induction k with
  | zero =>
    rw [retrying_zero h]
    rfl
  | succ k ih =>
    obtain ⟨fault, hfault⟩ := hrefused k (Nat.lt_succ_self k)
    have hsofar := ih (fun j hj => hk j (Nat.lt_succ_of_lt hj))
      fun j hj => hrefused j (Nat.lt_succ_of_lt hj)
    have hoffer : (p.retrying i c k).step (.offer i) = some (p.refused i c k) :=
      offer_of_refused hi (hk k (Nat.lt_succ_self k)) hfault
    have hpause : (p.refused i c k).steps [.elapse (p.pauseBefore (k + 1)), .wake i] =
        some (p.retrying i c (k + 1)) := by
      rw [wake_refused hi, if_pos (Nat.le_refl _), retrying, DeliverySettings.pauses_succ,
        ← Nat.add_assoc]
      rfl
    refine steps_append hsofar ?_
    rw [steps, hoffer, Option.bind_some]
    exact hpause

end

/-! ## The whole of a delivery -/

section
variable [Source ι] [Sink σ]

/-- How the delivery of `c` at `i` goes if it ends with the offer after `k` refusals. -/
structure Retries (p : Pipeline ι σ) (i : Nat) (c : WordCount) (k : Nat)
    (outcome : Except DeliveryFault Unit) (stats : Stats) : Prop where
  refused : ∀ j < k, ∃ fault, Sink.answerAfter p.sink c j = .error fault
  /-- A refused offer is followed by a pause. -/
  pauses : ∀ j < k, p.steps (p.retryTurns i j ++ [.offer i]) = some (p.refused i c j)
  /-- The pause lasts just as long as the settings say. -/
  wakes : ∀ j < k, ∀ ms, ((p.refused i c j).steps [.elapse ms, .wake i]).isSome = true ↔
    p.pauseBefore (j + 1) ≤ ms
  /-- After that many pauses one offer is made, and it is the last. -/
  ends : p.steps (p.retryTurns i k ++ [.offer i]) = some (p.ended i c k outcome stats)

/-- The totals after a delivery that the sink took at the offer after `k` refusals. -/
def statsDelivered (p : Pipeline ι σ) (k : Nat) : Stats :=
  { p.stats with
    retries := p.stats.retries + UInt64.ofNat k
    delivered := p.stats.delivered + 1 }

/-- The totals after a delivery that ran out of retries. -/
def statsFailed (p : Pipeline ι σ) : Stats :=
  { p.stats with
    retries := p.stats.retries + UInt64.ofNat p.maxRetries.toNat
    failed := p.stats.failed + 1 }

/-- What a delivery reports that ran out of retries. -/
def exhausted (p : Pipeline ι σ) (c : WordCount) (last : DeliveryFault) : DeliveryFault :=
  .exhausted c.word c.window.id (p.maxRetries + 1) last.message

end

section
variable [Source ι] [Sink σ] {p : Pipeline ι σ} {i k : Nat} {c : WordCount}

/-- A delivery goes on to its last offer if all those before it are refused. -/
theorem retries_of_refused (h : p.active[i]? = some { count := c }) (hk : k ≤ p.maxRetries.toNat)
    (hrefused : ∀ j < k, ∃ fault, Sink.answerAfter p.sink c j = .error fault)
    {outcome : Except DeliveryFault Unit} {stats : Stats}
    (hlast : (p.retrying i c k).offer i = some (p.ended i c k outcome stats)) :
    p.Retries i c k outcome stats := by
  have hi : i < p.active.length := (List.getElem?_eq_some_iff.1 h).1
  have hleft (j : Nat) (hj : j < k) : UInt32.ofNat (j + 1) ≤ p.maxRetries :=
    ofNat_succ_le (Nat.lt_of_lt_of_le hj hk)
  refine ⟨hrefused, fun j hj => ?_, fun j _ ms => ?_, ?_⟩
  · obtain ⟨fault, hfault⟩ := hrefused j hj
    have hsofar := steps_retryTurns h (fun l hl => hleft l (Nat.lt_trans hl hj))
      fun l hl => hrefused l (Nat.lt_trans hl hj)
    exact steps_concat hsofar (offer_of_refused hi (hleft j hj) hfault)
  · rw [wake_refused hi]
    split
    · next hle => exact iff_of_true rfl hle
    · next hlt => exact iff_of_false Bool.false_ne_true hlt
  · exact steps_concat (steps_retryTurns h hleft hrefused) hlast

theorem retries_of_taken (h : p.active[i]? = some { count := c }) (hk : k ≤ p.maxRetries.toNat)
    (hrefused : ∀ j < k, ∃ fault, Sink.answerAfter p.sink c j = .error fault)
    (htaken : Sink.answerAfter p.sink c k = .ok ()) :
    p.Retries i c k (.ok ()) (p.statsDelivered k) :=
  retries_of_refused h hk hrefused
    (offer_of_taken (List.getElem?_eq_some_iff.1 h).1 htaken)

theorem retries_of_exhausted (h : p.active[i]? = some { count := c })
    (hmax : p.maxRetries.toNat + 1 < 2 ^ 32)
    (hrefused : ∀ j < p.maxRetries.toNat, ∃ fault, Sink.answerAfter p.sink c j = .error fault)
    {fault : DeliveryFault}
    (hlast : Sink.answerAfter p.sink c p.maxRetries.toNat = .error fault) :
    p.Retries i c p.maxRetries.toNat (.error (p.exhausted c fault)) p.statsFailed :=
  retries_of_refused h (Nat.le_refl _) hrefused
    (offer_of_exhausted (List.getElem?_eq_some_iff.1 h).1 hmax hlast)

end

end Pipeline

/-- Either one of the offers up to number `m` is the first to be taken, or all are refused. -/
theorem Sink.first_taken {σ : Type} [Sink σ] (s : σ) (c : WordCount) (m : Nat) :
    (∃ k ≤ m, (∀ j < k, ∃ fault, Sink.answerAfter s c j = .error fault) ∧
      Sink.answerAfter s c k = .ok ()) ∨
    ∀ j ≤ m, ∃ fault, Sink.answerAfter s c j = .error fault := by
  have hanswer (j : Nat) : Sink.answerAfter s c j = .ok () ∨
      ∃ fault, Sink.answerAfter s c j = .error fault := by
    cases Sink.answerAfter s c j with
    | ok u => exact .inl rfl
    | error fault => exact .inr ⟨fault, rfl⟩
  induction m with
  | zero =>
    rcases hanswer 0 with htaken | hrefused
    · exact .inl ⟨0, Nat.le_refl _, fun j hj => absurd hj (Nat.not_lt_zero j), htaken⟩
    · refine .inr fun j hj => ?_
      rwa [Nat.le_zero.1 hj]
  | succ m ih =>
    rcases ih with ⟨k, hk, htaken⟩ | hrefused
    · exact .inl ⟨k, Nat.le_succ_of_le hk, htaken⟩
    · rcases hanswer (m + 1) with htaken | hlast
      · exact .inl ⟨m + 1, Nat.le_refl _, fun j hj => hrefused j (Nat.le_of_lt_succ hj), htaken⟩
      · refine .inr fun j hj => ?_
        rcases Nat.lt_or_eq_of_le hj with hlt | rfl
        · exact hrefused j (Nat.le_of_lt_succ hlt)
        · exact hlast

/-! ## A sink in memory -/

namespace MemorySink

/-- A sink that has refused a word count `j` times and so has spent as much of its budget. -/
structure Refused (s : MemorySink) (c : WordCount) (j : Nat) (t : MemorySink) : Prop where
  keyed : t.Keyed
  budget : (t.budget c).toNat = (s.budget c).toNat - j
  delivered : t.delivered = s.delivered

theorem spent_of_lt {k : UInt32} (h : k < FailureBudget.always) (hk : k ≠ 0) :
    (spent k).toNat = k.toNat - 1 := by
  have hone : (1 : UInt32) ≤ k := by
    have hpos := mt UInt32.toNat_inj.1 hk
    rw [UInt32.le_iff_toNat_le, UInt32.toNat_one]
    exact Nat.pos_of_ne_zero hpos
  rw [spent, if_neg (UInt32.ne_of_lt h), UInt32.toNat_sub_of_le _ _ hone, UInt32.toNat_one]

/-- As long as something is left of its budget, a word count is refused and spends it. -/
theorem refused_offered {s : MemorySink} (hs : s.Keyed) {c : WordCount}
    (hb : s.budget c < FailureBudget.always) {j : Nat} (hj : j ≤ (s.budget c).toNat) :
    s.Refused c j (Sink.offered s c j) := by
  induction j with
  | zero => exact ⟨hs, rfl, rfl⟩
  | succ j ih =>
    have ht := ih (Nat.le_of_succ_le hj)
    have hleft : (Sink.offered s c j).budget c ≠ 0 := by
      intro hzero
      have hnat := ht.budget
      rw [hzero, UInt32.toNat_zero] at hnat
      omega
    have hless : (Sink.offered s c j).budget c < FailureBudget.always := by
      have hnat := ht.budget
      rw [UInt32.lt_iff_toNat_lt] at hb ⊢
      omega
    obtain ⟨-, hdelivered, hbudget⟩ := deliver_of_budget_ne_zero ht.keyed hleft
    refine ⟨keyed_deliver ht.keyed c, ?_, hdelivered.trans ht.delivered⟩
    have hc := hbudget c
    rw [if_pos rfl] at hc
    have hnat := congrArg UInt32.toNat hc
    rw [spent_of_lt hless hleft, ht.budget] at hnat
    exact hnat.trans (Nat.sub_sub _ _ _)

/-- Then it is taken, and nothing is left. -/
theorem taken_offered {s : MemorySink} (hs : s.Keyed) {c : WordCount}
    (hb : s.budget c < FailureBudget.always) :
    Sink.answerAfter s c (s.budget c).toNat = .ok () ∧
      (Sink.offered s c ((s.budget c).toNat + 1)).budget c = 0 ∧
      (Sink.offered s c ((s.budget c).toNat + 1)).delivered = s.delivered ++ [c] := by
  have ht := refused_offered hs hb (Nat.le_refl _)
  have hzero : (Sink.offered s c (s.budget c).toNat).budget c = 0 := by
    rw [← UInt32.toNat_inj, ht.budget, Nat.sub_self, UInt32.toNat_zero]
  have hdeliver := deliver_of_budget_eq_zero ht.keyed hzero
  refine ⟨congrArg Prod.fst hdeliver, ?_, ?_⟩
  · rw [← hzero]
    exact congrArg (fun r => budget r.2 c) hdeliver
  · rw [← ht.delivered]
    exact congrArg (fun r => delivered r.2) hdeliver

theorem answerAfter_of_lt {s : MemorySink} (hs : s.Keyed) {c : WordCount}
    (hb : s.budget c < FailureBudget.always) {j : Nat} (hj : j < (s.budget c).toNat) :
    Sink.answerAfter s c j = .error (c.rejected "injected failure") := by
  have ht := refused_offered hs hb (Nat.le_of_lt hj)
  have hleft : (Sink.offered s c j).budget c ≠ 0 := by
    intro hzero
    have hnat := ht.budget
    rw [hzero, UInt32.toNat_zero] at hnat
    omega
  refine (congrArg Prod.fst (deliver_eq (Sink.offered s c j) c)).trans ?_
  rw [if_pos ((fails_iff ht.keyed c).2 hleft)]

theorem attempts_offered (s : MemorySink) (c : WordCount) (j : Nat) :
    (Sink.offered s c j).attempts = s.attempts + UInt64.ofNat j := by
  induction j with
  | zero => exact (UInt64.add_zero _).symm
  | succ j ih =>
    refine (attempts_deliver _ c).trans ?_
    rw [ih, UInt64.ofNat_add, UInt64.add_assoc]
    rfl

end MemorySink

/-! ## What becomes of a delivery -/

namespace Pipeline

open MemorySink

variable {ι σ : Type} [Source ι]

/-- What a budget makes of the delivery of its word count. -/
structure FollowsBudget (p : Pipeline ι MemorySink) (i : Nat) (c : WordCount) : Prop where
  /-- A budget that the retries use up lets the word count be taken. -/
  taken : p.sink.budget c ≤ p.maxRetries →
    p.Retries i c (p.sink.budget c).toNat (.ok ()) (p.statsDelivered (p.sink.budget c).toNat) ∧
    (Sink.offered p.sink c ((p.sink.budget c).toNat + 1)).budget c = 0 ∧
    (Sink.offered p.sink c ((p.sink.budget c).toNat + 1)).delivered = p.sink.delivered ++ [c]
  /-- A larger one outlasts them, and the rest of it stays. -/
  failed : p.maxRetries < p.sink.budget c →
    p.Retries i c p.maxRetries.toNat
      (.error (p.exhausted c (c.rejected "injected failure"))) p.statsFailed ∧
    ((Sink.offered p.sink c (p.maxRetries.toNat + 1)).budget c).toNat =
      (p.sink.budget c).toNat - p.maxRetries.toNat - 1 ∧
    (Sink.offered p.sink c (p.maxRetries.toNat + 1)).delivered = p.sink.delivered
  /-- The sink counts the offers. -/
  offers : ∀ k, (Sink.offered p.sink c k).attempts = p.sink.attempts + UInt64.ofNat k

theorem followsBudget {p : Pipeline ι MemorySink} {i : Nat} {c : WordCount}
    (h : p.active[i]? = some { count := c }) (hmax : p.maxRetries.toNat + 1 < 2 ^ 32)
    (hkeyed : p.sink.Keyed) (hbudget : p.sink.budget c < FailureBudget.always) :
    p.FollowsBudget i c := by
  refine ⟨fun hle => ?_, fun hlt => ?_, attempts_offered p.sink c⟩
  · obtain ⟨htaken, hspent, hdelivered⟩ := taken_offered hkeyed hbudget
    exact ⟨retries_of_taken h (UInt32.le_iff_toNat_le.1 hle)
      (fun j hj => ⟨_, answerAfter_of_lt hkeyed hbudget hj⟩) htaken, hspent, hdelivered⟩
  · rw [UInt32.lt_iff_toNat_lt] at hlt
    have hrefused := refused_offered hkeyed hbudget (Nat.succ_le_of_lt hlt)
    exact ⟨retries_of_exhausted h hmax
      (fun j hj => ⟨_, answerAfter_of_lt hkeyed hbudget (Nat.lt_trans hj hlt)⟩)
      (answerAfter_of_lt hkeyed hbudget hlt), hrefused.budget, hrefused.delivered⟩

/-- Every delivery ends: with the first offer that the sink takes, or with the refusal after the
last retry. A sink in memory takes a word count once its budget is spent, if there are that many
retries. -/
theorem retry_loop [Sink σ] {p : Pipeline ι σ} {i : Nat} {c : WordCount}
    (h : p.active[i]? = some { count := c }) (hmax : p.maxRetries.toNat + 1 < 2 ^ 32) :
    ((∃ k ≤ p.maxRetries.toNat, Sink.answerAfter p.sink c k = .ok () ∧
        p.Retries i c k (.ok ()) (p.statsDelivered k)) ∨
      ∃ last, Sink.answerAfter p.sink c p.maxRetries.toNat = .error last ∧
        p.Retries i c p.maxRetries.toNat (.error (p.exhausted c last)) p.statsFailed) ∧
    ∀ q : Pipeline ι MemorySink, q.active[i]? = some { count := c } →
      q.maxRetries.toNat + 1 < 2 ^ 32 → q.sink.Keyed →
      q.sink.budget c < FailureBudget.always → q.FollowsBudget i c := by
  refine ⟨?_, fun q => followsBudget⟩
  rcases Sink.first_taken p.sink c p.maxRetries.toNat with ⟨k, hk, hrefused, htaken⟩ | hrefused
  · exact .inl ⟨k, hk, htaken, retries_of_taken h hk hrefused htaken⟩
  · obtain ⟨last, hlast⟩ := hrefused _ (Nat.le_refl _)
    exact .inr ⟨last, hlast, retries_of_exhausted h hmax
      (fun j hj => hrefused j (Nat.le_of_lt hj)) hlast⟩

/-- Two deliveries with one retry each: the sink refuses `a` once and `b` three times. -/
def twoRunning : Pipeline ListSource MemorySink :=
  { triedOnce with
    sink := (({} : MemorySink).failTimes "a" "0_5000" 1).failTimes "b" "0_5000" 3
    active := [{ count := ⟨"a", 1, ⟨0, 5000⟩⟩ }, { count := ⟨"b", 1, ⟨0, 5000⟩⟩ }] }

/-- The theorem for each of them: `a` is taken at the second offer, `b` runs out of retries and
one failure is left. -/
theorem retry_loop_twoRunning :
    twoRunning.Retries 0 ⟨"a", 1, ⟨0, 5000⟩⟩ 1 (.ok ()) (twoRunning.statsDelivered 1) ∧
    twoRunning.Retries 1 ⟨"b", 1, ⟨0, 5000⟩⟩ 1
      (.error (.exhausted "b" "0_5000" 2
        "sink rejected record for 'b' in window 0_5000: injected failure"))
      twoRunning.statsFailed ∧
    ((Sink.offered twoRunning.sink ⟨"b", 1, ⟨0, 5000⟩⟩ 2).budget ⟨"b", 1, ⟨0, 5000⟩⟩).toNat =
      1 := by
  have hempty : ({} : MemorySink).Keyed := List.nodup_nil
  have hkeyed : twoRunning.sink.Keyed := keyed_failTimes (keyed_failTimes hempty _ _ _) _ _ _
  obtain ⟨-, ha⟩ := retry_loop (p := twoRunning) (i := 0) rfl (by decide)
  obtain ⟨-, hb⟩ := retry_loop (p := twoRunning) (i := 1) rfl (by decide)
  have hfollows := ha twoRunning rfl (by decide) hkeyed (by decide)
  have hfollows' := hb twoRunning rfl (by decide) hkeyed (by decide)
  obtain ⟨htaken, -, -⟩ := hfollows.taken (by decide)
  obtain ⟨hfailed, hleft, -⟩ := hfollows'.failed (by decide)
  exact ⟨htaken, hfailed, hleft⟩

end Pipeline

end WindowTally
