import WindowTally.Proofs.Conservation

/-!
# How often a word count is offered

A delivery offers its word count until the sink takes it or the retries run out. When
the word counts that the queue takes are distinct, a delivery is known by its word
count, and this says how often the sink was offered it: as often as the running
delivery says (`Attempting.running`), and one time more than there are retries if it
has failed (`Attempting.failed`).

A delivery that has failed is reported, collected or not yet, and what is reported says
which word count ran out of retries (`reports_of_moves`).
-/
namespace WindowTally.Pipeline

open Event (counts)

variable {ι σ : Type}

/-- How often a delivery is tried again at most. -/
def maxRetries (p : Pipeline ι σ) : UInt32 := p.settings.delivery.maxRetries

/-! ## Answers of the sink -/

section
variable [Sink σ] {p : Pipeline ι σ} {d : Delivery}

theorem attempts_answered (p : Pipeline ι σ) (d : Delivery) :
    (p.answered d).attempts = d.attempts + 1 :=
  d.attempts_resolve ..

/-- What an answer of the sink makes of a delivery. -/
theorem answered_cases (p : Pipeline ι σ) (d : Delivery) :
    ((Sink.deliver p.sink d.count).1 = .ok () ∧ (p.answered d).phase = .settled (.ok ())) ∨
    ∃ cause, (Sink.deliver p.sink d.count).1 = .error cause ∧
      (d.attempts + 1 ≤ p.maxRetries ∧ (∃ wake, (p.answered d).phase = .pausing wake) ∨
        ¬ d.attempts + 1 ≤ p.maxRetries ∧ (p.answered d).phase = .settled (.error
          (.exhausted d.count.word d.count.window.id (d.attempts + 1) cause.message))) := by
  unfold answered Delivery.resolve maxRetries
  cases (Sink.deliver p.sink d.count).1 with
  | ok u => exact .inl ⟨rfl, rfl⟩
  | error cause =>
    refine .inr ⟨cause, rfl, ?_⟩
    simp only
    split
    · next hle => exact .inl ⟨hle, _, rfl⟩
    · next hlt => exact .inr ⟨hlt, rfl⟩

theorem deliver_of_ok (h : (p.answered d).phase = .settled (.ok ())) :
    (Sink.deliver p.sink d.count).1 = .ok () := by
  rcases p.answered_cases d with ⟨hok, -⟩ | ⟨cause, -, ⟨-, wake, hphase⟩ | ⟨-, hphase⟩⟩
  · exact hok
  · rw [hphase] at h
    cases h
  · rw [hphase] at h
    cases h

theorem deliver_of_error {fault : DeliveryFault}
    (h : (p.answered d).phase = .settled (.error fault)) :
    ∃ cause, (Sink.deliver p.sink d.count).1 = .error cause ∧ ¬ d.attempts + 1 ≤ p.maxRetries ∧
      fault = .exhausted d.count.word d.count.window.id (d.attempts + 1) cause.message := by
  rcases p.answered_cases d with ⟨-, hphase⟩ | ⟨cause, herror, ⟨-, wake, hphase⟩ | ⟨hlt, hphase⟩⟩
  · rw [hphase] at h
    cases h
  · rw [hphase] at h
    cases h
  · rw [hphase] at h
    cases h
    exact ⟨cause, herror, hlt, rfl⟩

theorem deliver_of_pausing {wake : Nat} (h : (p.answered d).phase = .pausing wake) :
    (∃ cause, (Sink.deliver p.sink d.count).1 = .error cause) ∧ d.attempts + 1 ≤ p.maxRetries := by
  rcases p.answered_cases d with ⟨-, hphase⟩ | ⟨cause, herror, ⟨hle, -⟩ | ⟨-, hphase⟩⟩
  · rw [hphase] at h
    cases h
  · exact ⟨⟨cause, herror⟩, hle⟩
  · rw [hphase] at h
    cases h

end

/-- A delivery that has no retry left has been offered one time more than there are retries, and
that number is representable. -/
theorem attempts_of_exhausted {a m : UInt32} (hle : a ≤ m) (hlt : ¬ a + 1 ≤ m) :
    a = m ∧ m.toNat + 1 < 2 ^ 32 := by
  have ha := a.toNat_lt
  have hm := m.toNat_lt
  rw [UInt32.le_iff_toNat_le, UInt32.toNat_add, UInt32.toNat_one] at hlt
  rw [UInt32.le_iff_toNat_le] at hle
  rw [← UInt32.toNat_inj]
  omega

theorem toNat_succ {a m : UInt32} (hle : a ≤ m) (hm : m.toNat + 1 < 2 ^ 32) :
    (a + 1).toNat = a.toNat + 1 := by
  rw [UInt32.le_iff_toNat_le] at hle
  rw [UInt32.toNat_add, UInt32.toNat_one]
  omega

/-! ## Running deliveries -/

/-- The running deliveries around one of them. -/
theorem active_split {p : Pipeline ι σ} {i : Nat} {d : Delivery} (h : p.active[i]? = some d) :
    ∃ before after, p.active = before ++ d :: after ∧
      p.active.eraseIdx i = before ++ after ∧ ∀ e, p.active.set i e = before ++ e :: after := by
  obtain ⟨hi, rfl⟩ := List.getElem?_eq_some_iff.1 h
  refine ⟨p.active.take i, p.active.drop (i + 1), ?_, ?_, fun e => ?_⟩
  · rw [List.cons_getElem_drop_succ, List.take_append_drop]
  · exact List.eraseIdx_eq_take_drop_succ _ _
  · exact List.set_eq_take_append_cons_drop.trans (if_pos hi)

section
variable [Sink σ] {p q : Pipeline ι σ} {m : Move} {es : List Event}

theorem maxRetries_of_advance (h : Advance p m es q) : q.maxRetries = p.maxRetries := by
  rw [maxRetries, settings_of_advance h, maxRetries]

/-- What every running delivery is like: it is about to offer or pauses, and has not been tried
again too often. -/
def Tame (p : Pipeline ι σ) : Prop :=
  ∀ d ∈ p.active, d.outcome? = none ∧ d.attempts ≤ p.maxRetries

theorem tame_of_advance (hp : p.Tame) (h : Advance p m es q) : q.Tame := by
  have hmax := maxRetries_of_advance h
  unfold Tame
  rw [hmax]
  cases h with
  | rests same aggregator inHand result =>
    rw [same.active]
    exact hp
  | starts phase slot =>
    intro d hd
    rcases List.mem_append.1 hd with hd | hd
    · exact hp d hd
    · rw [List.mem_singleton.1 hd]
      exact ⟨rfl, UInt32.le_iff_toNat_le.2 (Nat.zero_le _)⟩
  | @settles i d outcome running phase ended =>
    exact fun e he => hp e (List.mem_of_mem_eraseIdx he)
  | @retries i d wake running phase pauses =>
    intro e he
    rcases List.mem_or_eq_of_mem_set he with he | rfl
    · exact hp e he
    · refine ⟨by rw [Delivery.outcome?, pauses], ?_⟩
      rw [attempts_answered]
      exact (deliver_of_pausing pauses).2
  | @wakes i d t running phase due =>
    intro e he
    rcases List.mem_or_eq_of_mem_set he with he | rfl
    · exact hp e he
    · exact ⟨rfl, (hp d (List.mem_of_getElem? running)).2⟩
  | _ => exact hp

theorem tame_of_moves [Source ι] (hp : p.Tame) {ms : List Move} (h : p.moves ms = some q) :
    q.Tame :=
  run_induction (P := fun _ q => q.Tame) hp
    (fun _ hr hq => tame_of_advance hq (advance_of_move hr)) h

theorem maxRetries_of_moves [Source ι] {ms : List Move} (h : p.moves ms = some q) :
    q.maxRetries = p.maxRetries :=
  run_induction (P := fun _ q => q.maxRetries = p.maxRetries) rfl
    (fun _ hr hq => (maxRetries_of_advance (advance_of_move hr)).trans hq) h

end

/-! ## Distinct word counts -/

section
variable [Source ι] [Sink σ] {p q r : Pipeline ι σ} {ms : List Move}

omit [Source ι] [Sink σ] in
theorem Fresh.tame (hp : p.Fresh) : p.Tame := by
  intro d hd
  rw [hp.active] at hd
  cases hd

theorem Fresh.orderly (hp : p.Fresh) (h : p.moves ms = some q) : q.Orderly :=
  orderly_of_moves (orderly_of_busy hp.outcome (by simp [hp.dispatcher])) h

/-- From a fresh start, what the queue has taken was started or waits to be, and what was started
runs or has ended. -/
theorem custody_of_moves (hp : p.Fresh) (h : p.moves ms = some q) :
    counts .accepted (p.history ms) =
      counts .started (p.history ms) ++ (q.held ++ q.queue) ∧
    (counts .started (p.history ms)).Perm (q.underWay ++
      (counts .delivered (p.history ms) ++ counts .failed (p.history ms))) := by
  have hfifo := fifo_of_moves h
  have hperm := perm_of_moves h
  rw [held, hp.dispatcher, hp.queue, List.nil_append, List.nil_append] at hfifo
  rw [underWay, hp.active, List.map_nil, List.nil_append] at hperm
  exact ⟨hfifo, hperm⟩

/-- Only what the queue has taken is delivered or fails. -/
theorem mem_accepted (hp : p.Fresh) (h : p.moves ms = some q) {c : WordCount}
    (hc : c ∈ q.underWay ++
      (counts .delivered (p.history ms) ++ counts .failed (p.history ms))) :
    c ∈ counts .accepted (p.history ms) := by
  obtain ⟨haccepted, hstarted⟩ := custody_of_moves hp h
  rw [haccepted]
  exact List.mem_append_left _ (hstarted.mem_iff.2 hc)

/-- Once the dispatcher is done, what the queue has taken has been started. -/
theorem started_of_finished (hp : p.Fresh) (h : p.moves ms = some q)
    (hdone : q.dispatcher = .finished) :
    counts .started (p.history ms) = counts .accepted (p.history ms) := by
  have haccepted := (custody_of_moves hp h).1
  rw [held, hdone, (hp.orderly h).emptied (.inr hdone), List.append_nil, List.append_nil]
    at haccepted
  exact haccepted.symm

/-- Then it has ended. -/
theorem ended_of_moves (hp : p.Fresh) (h : p.moves ms = some q) (hdone : q.dispatcher = .finished) :
    (counts .accepted (p.history ms)).Perm
      (counts .delivered (p.history ms) ++ counts .failed (p.history ms)) := by
  have hstarted := (custody_of_moves hp h).2
  rw [underWay, ((hp.orderly h).joined hdone).1, started_of_finished hp h hdone] at hstarted
  exact hstarted

/-- No two of the word counts that the queue has taken are told to be the same by `key`. -/
def Distinct {α : Type} (key : WordCount → α) (es : List Event) : Prop :=
  ((counts .accepted es).map key).Nodup

instance {α : Type} [DecidableEq α] (key : WordCount → α) (es : List Event) :
    Decidable (Distinct key es) :=
  inferInstanceAs (Decidable ((counts .accepted es).map key).Nodup)

variable {α : Type} {key : WordCount → α}

omit [Source ι] [Sink σ] in
theorem Distinct.of_append {es es' : List Event} (h : Distinct key (es ++ es')) :
    Distinct key es := by
  rw [Distinct, Event.counts_append, List.map_append] at h
  exact (List.nodup_append.1 h).1

/-- Then no two of the word counts that wait, run or have ended are the same. -/
theorem Distinct.apart (hp : p.Fresh) (h : p.moves ms = some q)
    (hes : Distinct key (p.history ms)) :
    ((counts .started (p.history ms) ++ (q.held ++ q.queue)).map key).Nodup ∧
    ((q.underWay ++
      (counts .delivered (p.history ms) ++ counts .failed (p.history ms))).map key).Nodup := by
  obtain ⟨haccepted, hstarted⟩ := custody_of_moves hp h
  rw [Distinct, haccepted] at hes
  refine ⟨hes, ((hstarted.map key).nodup_iff).1 ?_⟩
  rw [List.map_append] at hes
  exact (List.nodup_append.1 hes).1

omit [Source ι] [Sink σ] in
/-- Then a running delivery differs from the other running ones and from those that have ended. -/
theorem alone {before after : List Delivery} {d : Delivery} {ended : List WordCount}
    (h : ((p.underWay ++ ended).map key).Nodup) (hsplit : p.active = before ++ d :: after) :
    (∀ e ∈ before ++ after, key e.count ≠ key d.count) ∧ ∀ c ∈ ended, key c ≠ key d.count := by
  rw [underWay, hsplit, List.map_append, List.map_append, List.map_cons, List.map_append,
    List.map_cons, List.append_assoc, List.cons_append] at h
  have hfirst := (List.nodup_cons.1 (List.perm_middle.nodup_iff.1 h)).1
  simp only [List.mem_append, not_or, List.mem_map, not_exists, not_and] at hfirst
  refine ⟨fun e he hkey => ?_, hfirst.2.2⟩
  rcases List.mem_append.1 he with he | he
  · exact hfirst.1 e.count ⟨e, he, rfl⟩ hkey
  · exact hfirst.2.1 e.count ⟨e, he, rfl⟩ hkey

/-- What was offered was started, so what waits was not offered yet. -/
theorem unattempted_of_waiting (hp : p.Fresh) (h : p.moves ms = some q)
    (hes : Distinct key (p.history ms)) {c : WordCount} (hc : c ∈ q.held ++ q.queue) :
    ∀ x ∈ counts .attempted (p.history ms), key x ≠ key c := by
  intro x hx
  have hstarted : x ∈ counts .started (p.history ms) := by
    simpa [underWay, hp.active] using attempted_of_moves h x hx
  have hapart := (hes.apart hp h).1
  rw [List.map_append, List.nodup_append] at hapart
  exact hapart.2.2 (key x) (List.mem_map_of_mem hstarted) (key c) (List.mem_map_of_mem hc)

/-! ## Tries -/

/-- How often the sink was offered a word count. -/
def tries (c : WordCount) (es : List Event) : Nat := (counts .attempted es).count c

@[simp]
theorem tries_append (c : WordCount) (es es' : List Event) :
    tries c (es ++ es') = tries c es + tries c es' := by
  rw [tries, Event.counts_append, List.count_append, tries, tries]

/-- An offer is a try for its own word count alone. -/
theorem tries_of_offer {c x : WordCount} {es : List Event} (hes : counts .attempted es = [x]) :
    tries c es = if c = x then 1 else 0 := by
  rw [tries, hes]
  by_cases hcx : c = x
  · rw [if_pos hcx, hcx, List.count_singleton_self]
  · rw [if_neg hcx, List.count_eq_zero_of_not_mem (by simpa using hcx)]

theorem attempted_of_settling (c : WordCount) (outcome : Except DeliveryFault Unit) :
    counts .attempted [⟨.attempted, c⟩, ⟨ending outcome, c⟩] = [c] := by
  cases outcome <;> rfl

/-- How often the word counts that run and those that failed were offered. -/
structure Attempting (es : List Event) (q : Pipeline ι σ) : Prop where
  running : ∀ d ∈ q.active, tries d.count es = d.attempts.toNat
  failed : ∀ c ∈ counts .failed es, tries c es = q.maxRetries.toNat + 1

section
variable {es es' : List Event}

omit [Source ι] [Sink σ] in
/-- Where nothing is offered and the same deliveries run, all stays as it was. -/
theorem Attempting.quiet (hq : Attempting es q) (hmax : r.maxRetries = q.maxRetries)
    (hactive : ∀ d ∈ r.active, ∃ e ∈ q.active, e.count = d.count ∧ e.attempts = d.attempts)
    (hattempted : counts .attempted es' = []) (hfailed : counts .failed es' = []) :
    Attempting (es ++ es') r := by
  have hsame (c : WordCount) : tries c (es ++ es') = tries c es := by
    rw [tries_append, tries, tries, hattempted]
    rfl
  refine ⟨fun d hd => ?_, fun c hc => ?_⟩
  · obtain ⟨e, he, hcount, hattempts⟩ := hactive d hd
    rw [hsame, ← hcount, ← hattempts]
    exact hq.running e he
  · rw [Event.counts_append, hfailed, List.append_nil] at hc
    rw [hsame, hmax]
    exact hq.failed c hc

omit [Source ι] [Sink σ] in
/-- An offer is one try more for the word count of its own delivery alone. -/
theorem Attempting.offered (hq : Attempting es q) {before after : List Delivery} {d : Delivery}
    (hactive : q.active = before ++ d :: after)
    (hothers : ∀ e ∈ before ++ after, e.count ≠ d.count)
    (hfailed : ∀ c ∈ counts .failed es, c ≠ d.count) (hoffer : counts .attempted es' = [d.count]) :
    (∀ e ∈ before ++ after, tries e.count (es ++ es') = e.attempts.toNat) ∧
      (∀ c ∈ counts .failed es, tries c (es ++ es') = q.maxRetries.toNat + 1) ∧
      tries d.count (es ++ es') = d.attempts.toNat + 1 := by
  have htries (c : WordCount) :
      tries c (es ++ es') = tries c es + if c = d.count then 1 else 0 := by
    rw [tries_append, tries_of_offer hoffer]
  refine ⟨fun e he => ?_, fun c hc => ?_, ?_⟩
  · rw [htries, if_neg (hothers e he)]
    refine hq.running e ?_
    rw [hactive]
    exact List.mem_append.2 ((List.mem_append.1 he).imp_right (List.mem_cons_of_mem d))
  · rw [htries, if_neg (hfailed c hc)]
    exact hq.failed c hc
  · rw [htries, if_pos rfl, hq.running d (hactive ▸ List.mem_append_right _ List.mem_cons_self)]

end

theorem attempting_of_advance (hm : p.maxRetries.toNat + 1 < 2 ^ 32) (hp : p.Fresh)
    (h : p.moves ms = some q) (hes : Distinct id (p.history ms)) {m : Move} {es : List Event}
    (hadvance : Advance q m es r) (hq : Attempting (p.history ms) q) :
    Attempting (p.history ms ++ es) r := by
  have hmax : q.maxRetries = p.maxRetries := maxRetries_of_moves h
  have hmax' : r.maxRetries = q.maxRetries := maxRetries_of_advance hadvance
  have htame := tame_of_moves hp.tame h
  have hapart := (hes.apart hp h).2
  have hidle (hactive : r.active = q.active) (hattempted : counts .attempted es = [])
      (hfailed : counts .failed es = []) : Attempting (p.history ms ++ es) r :=
    hq.quiet hmax' (fun d hd => ⟨d, hactive ▸ hd, rfl, rfl⟩) hattempted hfailed
  cases hadvance with
  | rests same aggregator inHand result => exact hidle same.active rfl rfl
  | operates op inHand going taken => exact hidle rfl (by simp) (by simp)
  | givesUp isClosed inHand => exact hidle rfl (by simp) (by simp)
  | @starts c next phase slot =>
    have hheld : c ∈ q.held ++ q.queue := by
      rcases phase with ⟨hphase, -⟩ | ⟨hphase, -⟩ <;> simp [held, hphase]
    have hnone (x : WordCount) : tries x [⟨.started, c⟩] = 0 := rfl
    refine ⟨fun d hd => ?_, fun x hx => ?_⟩
    · rw [tries_append, hnone]
      rcases List.mem_append.1 hd with hd | hd
      · exact hq.running d hd
      · rw [List.mem_singleton.1 hd]
        exact List.count_eq_zero_of_not_mem fun hc =>
          unattempted_of_waiting hp h hes hheld c hc rfl
    · rw [tries_append, hnone, hmax']
      exact hq.failed x (by simpa using hx)
  | @settles i d outcome running phase ended =>
    obtain ⟨before, after, hactive, herase, -⟩ := active_split running
    obtain ⟨hothers, hended⟩ := alone hapart hactive
    obtain ⟨hrunning, hfailed, hown⟩ := hq.offered hactive hothers
      (fun c hc => hended c (List.mem_append_right _ hc))
      (attempted_of_settling d.count outcome)
    refine ⟨fun e he => ?_, fun c hc => ?_⟩
    · simp only [herase] at he
      exact hrunning e he
    rw [hmax']
    rw [Event.counts_append, List.mem_append] at hc
    rcases hc with hc | hc
    · exact hfailed c hc
    cases outcome with
    | ok u => cases hc
    | error fault =>
      obtain ⟨cause, -, hlt, -⟩ := deliver_of_error ended
      obtain ⟨hall, -⟩ := attempts_of_exhausted (htame d (List.mem_of_getElem? running)).2 hlt
      have hcd : c = d.count := by simpa [ending] using hc
      rw [hcd, hown, hall]
  | @retries i d wake running phase pauses =>
    obtain ⟨before, after, hactive, -, hset⟩ := active_split running
    obtain ⟨hothers, hended⟩ := alone hapart hactive
    have hoffer : counts .attempted [⟨.attempted, d.count⟩] = [d.count] := rfl
    obtain ⟨hrunning, hfailed, hown⟩ := hq.offered hactive hothers
      (fun c hc => hended c (List.mem_append_right _ hc)) hoffer
    refine ⟨fun e he => ?_, fun c hc => ?_⟩
    · simp only [hset] at he
      rcases List.mem_append.1 he with he | he
      · exact hrunning e (List.mem_append_left _ he)
      rcases List.mem_cons.1 he with rfl | he
      · rw [count_answered, hown, attempts_answered,
          toNat_succ (htame d (List.mem_of_getElem? running)).2 (hmax ▸ hm)]
      · exact hrunning e (List.mem_append_right _ he)
    · rw [hmax']
      exact hfailed c (by simpa using hc)
  | @wakes i d t running phase due =>
    refine hq.quiet hmax' (fun e he => ?_) rfl rfl
    rcases List.mem_or_eq_of_mem_set he with he | rfl
    · exact ⟨e, he, rfl, rfl⟩
    · exact ⟨d, List.mem_of_getElem? running, rfl, rfl⟩
  | _ => exact hidle rfl (by simp) (by simp)

omit [Source ι] in
/-- A failure needs a last attempt whose number is representable. -/
theorem maxRetries_lt_of_advance (hp : p.Tame) {m : Move} {es : List Event}
    (h : Advance p m es q) (hfailed : counts .failed es ≠ []) :
    p.maxRetries.toNat + 1 < 2 ^ 32 := by
  cases h with
  | @settles i d outcome running phase ended =>
    cases outcome with
    | ok u => exact absurd rfl hfailed
    | error fault =>
      obtain ⟨cause, -, hlt, -⟩ := deliver_of_error ended
      exact (attempts_of_exhausted (hp d (List.mem_of_getElem? running)).2 hlt).2
  | _ => simp at hfailed

theorem maxRetries_lt_of_failed (hp : p.Fresh) (h : p.moves ms = some q)
    (hfailed : counts .failed (p.history ms) ≠ []) : p.maxRetries.toNat + 1 < 2 ^ 32 := by
  revert hfailed
  refine run_induction (P := fun ms _ => counts .failed (p.history ms) ≠ [] →
    p.maxRetries.toNat + 1 < 2 ^ 32) (fun hfailed => absurd rfl hfailed) ?_ h
  intro ms m q r hq hr ih hfailed
  rw [history_concat hq hr, Event.counts_append] at hfailed
  by_cases hbefore : counts .failed (p.history ms) = []
  · rw [hbefore, List.nil_append] at hfailed
    rw [← maxRetries_of_moves hq]
    exact maxRetries_lt_of_advance (tame_of_moves hp.tame hq) (advance_of_move hr) hfailed
  · exact ih hbefore

/-- From a fresh start, while word counts are distinct, running deliveries tell how often the sink
was offered what they deliver, and what failed was offered one time more than there are retries. -/
theorem attempting_of_moves (hm : p.maxRetries.toNat + 1 < 2 ^ 32) (hp : p.Fresh)
    (h : p.moves ms = some q) (hes : Distinct id (p.history ms)) :
    Attempting (p.history ms) q := by
  revert hes
  refine run_induction (P := fun ms q => Distinct id (p.history ms) → Attempting (p.history ms) q)
    (fun _ => ⟨fun d hd => ?_, fun c hc => by cases hc⟩) ?_ h
  · rw [hp.active] at hd
    cases hd
  · intro ms m q r hq hr ih hes
    rw [history_concat hq hr] at hes ⊢
    exact attempting_of_advance hm hp hq hes.of_append (advance_of_move hr) (ih hes.of_append)

end

/-! ## Failures -/

/-- A fault that a delivery ended with, collected first or not collected yet. -/
def Reports (p : Pipeline ι σ) (fault : DeliveryFault) : Prop :=
  p.failure = some fault ∨ .error fault ∈ p.settled

section
variable [Sink σ] {p q : Pipeline ι σ} {m : Move} {es : List Event}

omit [Sink σ] in
theorem reports_of_settles (outcome : Except DeliveryFault Unit) (fault : DeliveryFault)
    (hsettled : q.settled = p.settled ++ [outcome]) (hfailure : q.failure = p.failure) :
    q.Reports fault ↔ p.Reports fault ∨ outcome = .error fault := by
  rw [Reports, Reports, hsettled, hfailure, List.mem_append, List.mem_singleton, or_assoc,
    eq_comm (a := outcome)]

omit [Sink σ] in
/-- Collecting an outcome, the dispatcher reports nothing new, and goes on reporting something. -/
theorem reports_of_collects {i : Nat} {outcome : Except DeliveryFault Unit}
    (ended : p.settled[i]? = some outcome) (hsettled : q.settled = p.settled.eraseIdx i)
    (hfailure : q.failure = p.failure.or (fault? outcome)) :
    (∀ fault, q.Reports fault → p.Reports fault) ∧
      ((∃ fault, p.Reports fault) → ∃ fault, q.Reports fault) := by
  obtain ⟨hi, hget⟩ := List.getElem?_eq_some_iff.1 ended
  have hperm := List.getElem_cons_eraseIdx_perm hi
  rw [hget] at hperm
  have hmem (fault : DeliveryFault) (hfault : fault? outcome = some fault) :
      .error fault ∈ p.settled := by
    cases outcome with
    | ok u => cases hfault
    | error f =>
      cases hfault
      exact List.mem_of_getElem? ended
  unfold Reports
  rw [hsettled, hfailure]
  cases hfirst : p.failure with
  | some first =>
    exact ⟨fun fault => Or.imp_right List.mem_of_mem_eraseIdx, fun _ => ⟨first, .inl rfl⟩⟩
  | none =>
    rw [Option.none_or]
    refine ⟨fun fault => ?_, ?_⟩
    · rintro (hfault | hfault)
      · exact .inr (hmem fault hfault)
      · exact .inr (List.mem_of_mem_eraseIdx hfault)
    · rintro ⟨fault, hnone | hfault⟩
      · cases hnone
      · rcases List.mem_cons.1 (hperm.mem_iff.2 hfault) with rfl | hleft
        · exact ⟨fault, .inl rfl⟩
        · exact ⟨fault, .inr hleft⟩

/-- A move adds the faults of the deliveries that fail in it to what is reported; each says which
word count ran out of retries. -/
theorem reports_of_advance (hp : p.Tame) (h : Advance p m es q) :
    (∀ fault, q.Reports fault → p.Reports fault ∨ ∃ c ∈ counts .failed es, ∃ last,
      fault = .exhausted c.word c.window.id (p.maxRetries + 1) last) ∧
    ((∃ fault, q.Reports fault) ↔ (∃ fault, p.Reports fault) ∨ counts .failed es ≠ []) := by
  have hquiet (hfailed : counts .failed es = [])
      (hsame : ∀ fault, q.Reports fault ↔ p.Reports fault) :
      (∀ fault, q.Reports fault → p.Reports fault ∨ ∃ c ∈ counts .failed es, ∃ last,
        fault = .exhausted c.word c.window.id (p.maxRetries + 1) last) ∧
      ((∃ fault, q.Reports fault) ↔ (∃ fault, p.Reports fault) ∨ counts .failed es ≠ []) := by
    simp only [hsame, hfailed, ne_eq, not_true_eq_false, or_false, and_true]
    exact fun fault => .inl
  cases h with
  | rests same aggregator inHand result =>
    exact hquiet rfl fun fault => by rw [Reports, Reports, same.failure, same.settled]
  | @collects i outcome next ended phase =>
    have hcollects := reports_of_collects (p := p) (q := { p with
      settled := p.settled.eraseIdx i
      failure := p.failure.or (fault? outcome)
      dispatcher := next }) ended rfl rfl
    refine ⟨fun fault hfault => .inl (hcollects.1 fault hfault), ?_⟩
    simp only [Event.counts_nil, ne_eq, not_true_eq_false, or_false]
    exact ⟨fun ⟨fault, hfault⟩ => ⟨fault, hcollects.1 fault hfault⟩, hcollects.2⟩
  | @settles i d outcome running phase ended =>
    have hsettles (fault : DeliveryFault) := reports_of_settles (p := p) (q := { p with
      sink := (Sink.deliver p.sink d.count).2
      aggregator := { p.aggregator with stats := countAnswer p.stats (p.answered d) }
      active := p.active.eraseIdx i
      settled := p.settled ++ [outcome] }) outcome fault rfl rfl
    cases outcome with
    | ok u => exact hquiet rfl fun fault => by simpa using hsettles fault
    | error cause =>
      obtain ⟨last, -, hlt, hcause⟩ := deliver_of_error ended
      have hall := (attempts_of_exhausted (hp d (List.mem_of_getElem? running)).2 hlt).1
      refine ⟨fun fault hfault => ?_, ?_⟩
      · rcases (hsettles fault).1 hfault with hfault | hfault
        · exact .inl hfault
        · cases hfault
          exact .inr ⟨d.count, by simp [ending], last.message, hall ▸ hcause⟩
      · exact iff_of_true ⟨cause, (hsettles cause).2 (.inr rfl)⟩ (.inr (by simp [ending]))
  | _ => exact hquiet (by simp) fun fault => Iff.rfl

variable [Source ι] {ms : List Move}

/-- What is reported at the end of a run that began with nothing to report. -/
theorem reports_of_moves (hp : p.Tame) (hnone : ∀ fault, ¬ p.Reports fault)
    (h : p.moves ms = some q) :
    (∀ fault, q.Reports fault → ∃ c ∈ counts .failed (p.history ms), ∃ last,
      fault = .exhausted c.word c.window.id (p.maxRetries + 1) last) ∧
    ((∃ fault, q.Reports fault) ↔ counts .failed (p.history ms) ≠ []) := by
  refine run_induction (P := fun ms q =>
    (∀ fault, q.Reports fault → ∃ c ∈ counts .failed (p.history ms), ∃ last,
      fault = .exhausted c.word c.window.id (p.maxRetries + 1) last) ∧
    ((∃ fault, q.Reports fault) ↔ counts .failed (p.history ms) ≠ [])) ?_ ?_ h
  · exact ⟨fun fault hfault => absurd hfault (hnone fault),
      iff_of_false (fun ⟨fault, hfault⟩ => hnone fault hfault) (fun hfailed => hfailed rfl)⟩
  · intro ms m q r hq hr ih
    have hadvance := reports_of_advance (tame_of_moves hp hq) (advance_of_move hr)
    rw [maxRetries_of_moves hq, ih.2] at hadvance
    rw [history_concat hq hr, Event.counts_append]
    refine ⟨fun fault hfault => ?_, ?_⟩
    · rcases hadvance.1 fault hfault with hfault | ⟨c, hc, last, hlast⟩
      · obtain ⟨c, hc, last, hlast⟩ := ih.1 fault hfault
        exact ⟨c, List.mem_append_left _ hc, last, hlast⟩
      · exact ⟨c, List.mem_append_right _ hc, last, hlast⟩
    · rw [hadvance.2, ne_eq, ne_eq, ne_eq, List.append_eq_nil_iff, not_and_or]

end

end WindowTally.Pipeline
