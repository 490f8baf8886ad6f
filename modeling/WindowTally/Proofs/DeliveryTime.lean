import WindowTally.Proofs.Backpressure
import WindowTally.Proofs.Budgets
import WindowTally.Proofs.ListScheduling
import WindowTally.Proofs.Punctual
import WindowTally.Proofs.StepByStep

/-!
# How long a run takes

In virtual time only the pauses of deliveries take time. A sink in memory that refuses a word
count so many times has its delivery take as long as the pauses before so many retries
(`duration`). A run then takes as long as a schedule in which each word count goes, in the
order in which they are emitted, to the slot that is free first (`clock_eq_makespan`),
whatever the size of the queue, if there is room for the queue and for the slots. A dispatcher
that has no room for its slots breaks down, and no time passes (`clock_of_overstaffed`).

What carries this is that a slot is never left free while a word count is to come: whenever
time passes, either the deliveries that run take up all slots or the last one has been
started. So, as long as there are more to come, the free times of the schedule are the ends of
the deliveries that run and, for slots that are free, the present (`Scheduled`).
-/
namespace WindowTally

/-- How long so many retries pause together. -/
def DeliverySettings.pauses (s : DeliverySettings) (k : Nat) : Nat :=
  ((List.range k).map fun j => (s.backoff (UInt32.ofNat (j + 1))).toNat).sum

theorem DeliverySettings.pauses_succ (s : DeliverySettings) (k : Nat) :
    s.pauses (k + 1) = s.pauses k + (s.backoff (UInt32.ofNat (k + 1))).toNat := by
  simp [pauses, List.range_succ]

theorem DeliverySettings.pauses_mono (s : DeliverySettings) {j k : Nat} (h : j ≤ k) :
    s.pauses j ≤ s.pauses k := by
  induction h with
  | refl => exact Nat.le_refl _
  | step _ ih =>
    rw [pauses_succ]
    omega

/-- When a delivery goes on. -/
def Delivery.resumes (now : Nat) (d : Delivery) : Nat :=
  match d.phase with
  | .pausing wake => wake
  | _ => now

namespace Pipeline

open Event (counts)
open MemorySink Schedule

variable {ι : Type} {p q r : Pipeline ι MemorySink} {es es' : List Event}

/-- How long the delivery of a word count takes, from its start. -/
def duration (p : Pipeline ι MemorySink) (c : WordCount) : Nat :=
  p.settings.delivery.pauses (p.sink.budget c).toNat

/-- When a delivery will end that runs at `now`. -/
def endsAt (p : Pipeline ι MemorySink) (now : Nat) (d : Delivery) : Nat :=
  d.resumes now + (p.duration d.count - p.settings.delivery.pauses d.attempts.toNat)

/-- When slots are free that take on the deliveries started so far as early as can be. -/
def schedule (p : Pipeline ι MemorySink) (es : List Event) : List Nat :=
  freeTimes p.slots ((counts .started es).map p.duration)

theorem slots_pos {ι σ : Type} (p : Pipeline ι σ) : 1 ≤ p.slots := Nat.le_max_right _ _

theorem length_schedule (p : Pipeline ι MemorySink) (es : List Event) :
    (p.schedule es).length = p.slots :=
  length_freeTimes p.slots_pos _

/-- The schedule that a run from `p` to `q` has kept to. -/
structure Scheduled (p : Pipeline ι MemorySink) (es : List Event) (q : Pipeline ι MemorySink) :
    Prop where
  /-- No delivery oversleeps. -/
  resumes : ∀ d ∈ q.active, q.clock ≤ d.resumes q.clock
  /-- A slot is taken up until its delivery ends, or has been free for some time. -/
  slots : ∃ idle, (p.schedule es).Perm (q.active.map (p.endsAt q.clock) ++ idle) ∧
    ∀ t ∈ idle, t ≤ q.clock
  /-- As long as there are more to start, no slot was left free. -/
  busy : q.dispatcher ≠ .joining → q.dispatcher ≠ .finished → ∀ t ∈ p.schedule es, q.clock ≤ t
  /-- No time passes after the last delivery. -/
  last : q.clock ≤ largest (p.schedule es)

theorem schedule_of_quiet (hstarted : counts .started es' = []) :
    p.schedule (es ++ es') = p.schedule es := by
  rw [schedule, Event.counts_append, hstarted, List.append_nil, schedule]

/-- Where the same deliveries run at the same time, the schedule is kept. -/
theorem Scheduled.quiet (hq : Scheduled p es q) (hstarted : counts .started es' = [])
    (hclock : r.clock = q.clock) (hactive : r.active = q.active)
    (hdispatcher : r.dispatcher ≠ .joining → r.dispatcher ≠ .finished →
      q.dispatcher ≠ .joining ∧ q.dispatcher ≠ .finished) : Scheduled p (es ++ es') r := by
  refine ⟨?_, ?_, ?_, ?_⟩
  · rw [hactive, hclock]
    exact hq.resumes
  · rw [schedule_of_quiet hstarted, hactive, hclock]
    exact hq.slots
  · rw [schedule_of_quiet hstarted, hclock]
    intro hjoining hfinished
    obtain ⟨hjoining', hfinished'⟩ := hdispatcher hjoining hfinished
    exact hq.busy hjoining' hfinished'
  · rw [schedule_of_quiet hstarted, hclock]
    exact hq.last

/-- A delivery is started in a slot that is free now, and no slot is free any earlier. -/
theorem Scheduled.starts (hq : Scheduled p es q) {c : WordCount}
    (hbusy : q.dispatcher ≠ .joining ∧ q.dispatcher ≠ .finished)
    (hslot : q.active.length < p.slots) (hclock : r.clock = q.clock)
    (hactive : r.active = q.active ++ [{ count := c }]) :
    Scheduled p (es ++ [⟨.started, c⟩]) r := by
  obtain ⟨idle, hperm, hidle⟩ := hq.slots
  have hall := hq.busy hbusy.1 hbusy.2
  have hfree : q.clock ∈ idle := by
    have hlength := hperm.length_eq
    rw [length_schedule, List.length_append, List.length_map] at hlength
    obtain ⟨t, ht⟩ := List.exists_mem_of_length_pos (l := idle) (by omega)
    have hle := hall t (hperm.mem_iff.2 (List.mem_append_right _ ht))
    exact Nat.le_antisymm hle (hidle t ht) ▸ ht
  have hmem : q.clock ∈ p.schedule es := hperm.mem_iff.2 (List.mem_append_right _ hfree)
  have hassign : p.schedule (es ++ [⟨.started, c⟩]) =
      (q.clock + p.duration c) :: (p.schedule es).erase q.clock := by
    rw [schedule, Event.counts_append, List.map_append]
    exact (freeTimes_concat _ _ _).trans (assign_eq hmem hall _)
  have hnew : p.endsAt q.clock { count := c } = q.clock + p.duration c := by
    simp [endsAt, Delivery.resumes, DeliverySettings.pauses]
  refine ⟨fun d hd => ?_, ⟨idle.erase q.clock, ?_, fun t ht => ?_⟩, fun _ _ t ht => ?_, ?_⟩
  · rw [hclock]
    rw [hactive, List.mem_append, List.mem_singleton] at hd
    rcases hd with hd | rfl
    · exact hq.resumes d hd
    · exact Nat.le_refl _
  · have hrest : (p.schedule es).Perm
        (q.clock :: (q.active.map (p.endsAt q.clock) ++ idle.erase q.clock)) :=
      hperm.trans (((List.perm_cons_erase hfree).append_left _).trans List.perm_middle)
    have herase := hrest.erase q.clock
    rw [List.erase_cons_head] at herase
    rw [hassign, hactive, hclock, List.map_append, List.map_singleton, hnew, List.append_assoc]
    exact (herase.cons _).trans List.perm_middle.symm
  · rw [hclock]
    exact hidle t (List.mem_of_mem_erase ht)
  · rw [hassign] at ht
    rw [hclock]
    rcases List.mem_cons.1 ht with rfl | ht
    · exact Nat.le_add_right _ _
    · exact hall t (List.mem_of_mem_erase ht)
  · rw [hassign, hclock]
    exact (Nat.le_add_right _ _).trans (le_largest List.mem_cons_self)

section
variable {before after : List Delivery} {d e : Delivery}

/-- A delivery ends when its end has come. -/
theorem Scheduled.settles (hq : Scheduled p es q) (hstarted : counts .started es' = [])
    (hclock : r.clock = q.clock) (hdispatcher : r.dispatcher = q.dispatcher)
    (hactive : q.active = before ++ d :: after) (hleft : r.active = before ++ after)
    (hend : p.endsAt q.clock d = q.clock) : Scheduled p (es ++ es') r := by
  obtain ⟨idle, hperm, hidle⟩ := hq.slots
  refine ⟨fun d hd => ?_, ⟨q.clock :: idle, ?_, fun t ht => ?_⟩, ?_, ?_⟩
  · rw [hclock]
    rw [hleft] at hd
    refine hq.resumes d ?_
    rw [hactive]
    exact List.mem_append.2 ((List.mem_append.1 hd).imp_right (List.mem_cons_of_mem _))
  · rw [hactive, List.map_append, List.map_cons, hend] at hperm
    rw [schedule_of_quiet hstarted, hleft, hclock, List.map_append]
    refine hperm.trans ?_
    simp only [List.append_assoc, List.cons_append]
    refine List.Perm.append_left _ ?_
    exact List.perm_middle.symm
  · rw [hclock]
    rcases List.mem_cons.1 ht with rfl | ht
    · exact Nat.le_refl _
    · exact hidle t ht
  · rw [hdispatcher, schedule_of_quiet hstarted, hclock]
    exact hq.busy
  · rw [schedule_of_quiet hstarted, hclock]
    exact hq.last

/-- A delivery that goes on ends when it was to end. -/
theorem Scheduled.goesOn (hq : Scheduled p es q) (hstarted : counts .started es' = [])
    (hclock : r.clock = q.clock) (hdispatcher : r.dispatcher = q.dispatcher)
    (hactive : q.active = before ++ d :: after) (hagain : r.active = before ++ e :: after)
    (hresumes : q.clock ≤ e.resumes q.clock) (hend : p.endsAt q.clock e = p.endsAt q.clock d) :
    Scheduled p (es ++ es') r := by
  refine ⟨fun x hx => ?_, ?_, ?_, ?_⟩
  · rw [hclock]
    rw [hagain] at hx
    have hold := hq.resumes x
    rw [hactive] at hold
    simp only [List.mem_append, List.mem_cons] at hx hold
    grind
  · have hsame : r.active.map (p.endsAt q.clock) = q.active.map (p.endsAt q.clock) := by
      rw [hagain, hactive, List.map_append, List.map_append, List.map_cons, List.map_cons, hend]
    rw [schedule_of_quiet hstarted, hclock, hsame]
    exact hq.slots
  · rw [hdispatcher, schedule_of_quiet hstarted, hclock]
    exact hq.busy
  · rw [schedule_of_quiet hstarted, hclock]
    exact hq.last

end

/-! ## Time -/

/-- Time may pass only up to the end of each pause. -/
theorem MayElapse.le_resumes {q : Pipeline ListSource MemorySink} {ms : Nat} (h : q.MayElapse ms)
    (htame : q.Tame) {d : Delivery} (hd : d ∈ q.active) :
    q.clock + ms ≤ d.resumes q.clock ∧ d.resumes (q.clock + ms) = d.resumes q.clock := by
  obtain ⟨hrests, next, hnext, hle⟩ := h
  obtain ⟨wake, hphase, hlater⟩ := hrests.pausing htame hd
  have hfirst :=
    (List.min?_eq_some_iff.1 hnext).2 wake (hrests.mem_timers.2 ⟨d, hd, hphase⟩)
  rw [Delivery.resumes, hphase, Delivery.resumes, hphase]
  exact ⟨by simp only; omega, rfl⟩

/-- When time passes, deliveries run, and they take up all slots if there are more to start. -/
theorem MayElapse.full {q : Pipeline ListSource MemorySink} {ms : Nat} (h : q.MayElapse ms)
    (hclosed : q.queueClosed = true → q.readerGone = true) :
    q.active ≠ [] ∧ (q.dispatcher ≠ .joining → q.dispatcher ≠ .finished →
      q.slots ≤ q.active.length) := by
  obtain ⟨hrests, next, hnext, -⟩ := h
  obtain ⟨d, hd, -⟩ := hrests.mem_timers.1 (List.min?_eq_some_iff.1 hnext).1
  refine ⟨List.ne_nil_of_mem hd, fun hmore hgoing => ?_⟩
  rcases hrests.full_or_joining hclosed with ⟨-, -, hfull⟩ | ⟨hjoining, -⟩ | ⟨hdone, -⟩
  · exact hfull
  · exact absurd hjoining hmore
  · exact absurd hdone hgoing

theorem Scheduled.elapses {p q r : Pipeline ListSource MemorySink} {ms : Nat}
    (hq : Scheduled p es q) (hslots : q.slots = p.slots) (htame : q.Tame)
    (hclosed : q.queueClosed = true → q.readerGone = true) (h : q.MayElapse ms)
    (hr : r = { q with clock := q.clock + ms }) : Scheduled p es r := by
  obtain ⟨hactive, hfull⟩ := h.full hclosed
  obtain ⟨idle, hperm, hidle⟩ := hq.slots
  have hsame : q.active.map (p.endsAt (q.clock + ms)) = q.active.map (p.endsAt q.clock) :=
    List.map_congr_left fun d hd => by rw [endsAt, (h.le_resumes htame hd).2, endsAt]
  have hends : ∀ t ∈ q.active.map (p.endsAt q.clock), q.clock + ms ≤ t := by
    intro t ht
    obtain ⟨d, hd, rfl⟩ := List.mem_map.1 ht
    exact (h.le_resumes htame hd).1.trans (Nat.le_add_right _ _)
  subst hr
  refine ⟨fun d hd => ?_, ⟨idle, hsame ▸ hperm, fun t ht => ?_⟩, fun hjoining hfinished t ht => ?_,
    ?_⟩
  · rw [(h.le_resumes htame hd).2]
    exact (h.le_resumes htame hd).1
  · exact (hidle t ht).trans (Nat.le_add_right _ _)
  · -- All slots are taken up, so none is free already.
    have hlength := hperm.length_eq
    rw [length_schedule, List.length_append, List.length_map] at hlength
    have hall := hfull hjoining hfinished
    have hnone : idle = [] := List.eq_nil_of_length_eq_zero (by omega)
    rw [hnone, List.append_nil] at hperm
    exact hends t (hperm.mem_iff.1 ht)
  · obtain ⟨d, hd⟩ := List.exists_mem_of_ne_nil _ hactive
    have hmem := List.mem_map_of_mem (f := p.endsAt q.clock) hd
    exact (hends _ hmem).trans (le_largest (hperm.mem_iff.2 (List.mem_append_left _ hmem)))

/-! ## Runs -/

/-- The sink refuses no word count that is emitted more often than it is tried again. -/
def Bearable [Source ι] (p : Pipeline ι MemorySink) (ts : List Turn) : Prop :=
  ∀ c ∈ counts .emitted (p.history (ts.map .turn)),
    p.sink.budget c ≤ p.maxRetries ∧ p.sink.budget c ≠ FailureBudget.always

section
variable [Source ι] {ts : List Turn} {t : Turn}

theorem Bearable.of_append (h : p.steps ts = some q) (hr : q.step t = some r)
    (hb : p.Bearable (ts ++ [t])) : p.Bearable ts := by
  intro c hc
  refine hb c ?_
  rw [history_turn_concat h hr, Event.counts_append]
  exact List.mem_append_left _ hc

theorem mem_emitted_of_accepted (hp : p.Idle) (h : p.steps ts = some q) {c : WordCount}
    (hc : c ∈ counts .accepted (p.history (ts.map .turn))) :
    c ∈ counts .emitted (p.history (ts.map .turn)) := by
  rw [emitted_in_order hp h, List.append_assoc]
  exact List.mem_append_left _ hc

/-- Then the budgets tell what happens to each delivery, and none fails. -/
theorem budgeted_of_bearable (hp : p.Idle) (hcoupled : p.aggregator.Coupled)
    (hkeyed : p.sink.Keyed) (h : p.steps ts = some q) (hb : p.Bearable ts) :
    Budgeted p (p.history (ts.map .turn)) q ∧ counts .failed (p.history (ts.map .turn)) = [] := by
  have hmoves := (moves_turn ts).trans h
  have hdistinct : Distinct (fun c => (c.word, c.window)) (p.history (ts.map .turn)) := by
    have hnodup := nodup_emitted hcoupled h
    rw [emitted_in_order hp h, List.append_assoc, List.map_append] at hnodup
    exact (List.nodup_append.1 hnodup).1
  have hbudgeted := budgeted_of_moves hp.toFresh hkeyed hmoves (distinct_key hdistinct)
    fun c hc halways => absurd halways (hb c (mem_emitted_of_accepted hp h hc)).2
  refine ⟨hbudgeted, List.eq_nil_iff_forall_not_mem.2 fun c hc => ?_⟩
  have haccepted := mem_accepted hp.toFresh hmoves
    (List.mem_append_right _ (List.mem_append_right _ hc))
  exact absurd (hbudgeted.failed c hc)
    (UInt32.not_lt.2 (hb c (mem_emitted_of_accepted hp h haccepted)).1)

end

/-- A delivery that the sink has refused pauses before it goes on. -/
theorem wake_of_answered {σ : Type} [Sink σ] {p : Pipeline ι σ} {d : Delivery} {wake : Nat}
    (h : (p.answered d).phase = .pausing wake) :
    wake = p.clock + (p.settings.delivery.backoff (d.attempts + 1)).toNat := by
  unfold answered Delivery.resolve at h
  cases hanswer : (Sink.deliver p.sink d.count).1 with
  | ok u => simp [hanswer] at h
  | error fault =>
    simp only [hanswer] at h
    split at h
    · cases h
      rfl
    · cases h

/-- A delivery that is taken has no time left. -/
theorem endsAt_of_ok (hq : Budgeted p es q) {d : Delivery} (hd : d ∈ q.active)
    (hphase : d.phase = .offering) (hok : (q.sink.deliver d.count).1 = .ok ()) :
    p.endsAt q.clock d = q.clock := by
  have hall : d.attempts = p.sink.budget d.count :=
    (budget_of_ok hq.keyed hok ▸ hq.running d hd).eq_of_zero
  rw [endsAt, duration, hall, Nat.sub_self, Nat.add_zero, Delivery.resumes, hphase]

/-- A delivery that is refused uses up as much of its time as it pauses. -/
theorem endsAt_of_error (hq : Budgeted p es q) (hsettings : q.settings = p.settings) {d : Delivery}
    (hd : d ∈ q.active) (hphase : d.phase = .offering)
    (hfinite : p.sink.budget d.count ≠ FailureBudget.always)
    (herror : ∃ cause, (q.sink.deliver d.count).1 = .error cause) {wake : Nat}
    (hpauses : (q.answered d).phase = .pausing wake) :
    p.endsAt q.clock (q.answered d) = p.endsAt q.clock d := by
  have hlt := (hq.running d hd).lt (budget_of_error hq.keyed herror) fun h => absurd h hfinite
  rw [UInt32.lt_iff_toNat_lt] at hlt
  have hsucc : (d.attempts + 1).toNat = d.attempts.toNat + 1 :=
    toNat_succ (UInt32.le_refl _) (Nat.lt_of_le_of_lt hlt (p.sink.budget d.count).toNat_lt)
  have hretry : UInt32.ofNat (d.attempts.toNat + 1) = d.attempts + 1 := by
    rw [← UInt32.toNat_inj, UInt32.toNat_ofNat_of_lt' (by rw [← hsucc]; exact UInt32.toNat_lt _),
      hsucc]
  have hpause := p.settings.delivery.pauses_succ d.attempts.toNat
  have hleft : p.settings.delivery.pauses (d.attempts.toNat + 1) ≤
      p.settings.delivery.pauses (p.sink.budget d.count).toNat :=
    p.settings.delivery.pauses_mono hlt
  have hwake := wake_of_answered hpauses
  rw [hretry] at hpause
  rw [hsettings] at hwake
  rw [endsAt, endsAt, Delivery.resumes, Delivery.resumes, hpauses, hphase, count_answered,
    attempts_answered, hsucc, duration]
  simp only
  omega

section
variable {p q r : Pipeline ListSource MemorySink} {ts : List Turn} {t : Turn}

/-- If no delivery fails, the queue is closed only once the reader has left. -/
theorem gone_of_closed (hp : p.Idle) (h : p.steps ts = some q)
    (hfailed : counts .failed (p.history (ts.map .turn)) = []) (hclosed : q.queueClosed = true) :
    q.readerGone = true := by
  refine ((closing_of_steps hp h).1 hclosed).resolve_right fun hfailure => ?_
  obtain ⟨fault, hfault⟩ := Option.ne_none_iff_exists'.1 hfailure
  exact (reports_of_steps hp h).2.1 ⟨fault, .inl hfault⟩ hfailed

theorem scheduled_of_step (hp : p.Idle) (hcoupled : p.aggregator.Coupled) (hkeyed : p.sink.Keyed)
    (h : p.steps ts = some q) (hr : q.step t = some r) (hb : p.Bearable (ts ++ [t]))
    (hpunctual : Punctual p (ts ++ [t])) (hq : Scheduled p (p.history (ts.map .turn)) q) :
    Scheduled p (p.history (ts.map .turn) ++ q.events (.turn t)) r := by
  have hmoves := (moves_turn ts).trans h
  have hsettings := settings_of_moves hmoves
  have hslots : q.slots = p.slots := by rw [slots, slots, hsettings]
  have htame := tame_of_moves hp.tame hmoves
  obtain ⟨hbudgeted, hfailed⟩ := budgeted_of_bearable hp hcoupled hkeyed h (hb.of_append h hr)
  by_cases ht : ∃ ms, t = .elapse ms
  · obtain ⟨ms, rfl⟩ := ht
    have hclosed := gone_of_closed hp h hfailed
    cases hr
    rw [show q.events (.turn (.elapse ms)) = [] from rfl, List.append_nil]
    exact hq.elapses hslots htame hclosed (hpunctual.last h) rfl
  · have hclock := clock_of_step (fun ms hms => ht ⟨ms, hms⟩) hr
    have hnone : counts .failed (q.events (.turn t)) = [] := by
      have hall := (budgeted_of_bearable hp hcoupled hkeyed (steps_concat h hr) hb).2
      rw [history_turn_concat h hr, Event.counts_append, hfailed] at hall
      exact hall
    have hfinite : ∀ d ∈ q.active, p.sink.budget d.count ≠ FailureBudget.always := fun d hd =>
      ((hb.of_append h hr) d.count (mem_emitted_of_accepted hp h (mem_accepted hp.toFresh hmoves
        (List.mem_append_left _ (List.mem_map_of_mem hd))))).2
    have hadvance := advance_of_move (m := .turn t) hr
    generalize q.events (.turn t) = es at hadvance hnone ⊢
    cases hadvance with
    | rests same aggregator inHand result =>
      exact hq.quiet rfl hclock same.active fun hj hf =>
        ⟨same.dispatcher ▸ hj, same.dispatcher ▸ hf⟩
    | starts phase slot =>
      refine hq.starts ?_ (hslots ▸ slot) rfl rfl
      rcases phase with ⟨hphase, -⟩ | ⟨hphase, -⟩ <;> simp [hphase]
    | @settles i d outcome running phase ended =>
      obtain ⟨before, after, hactive, herase, -⟩ := active_split running
      cases outcome with
      | ok u =>
        exact hq.settles rfl hclock rfl hactive herase
          (endsAt_of_ok hbudgeted (List.mem_of_getElem? running) phase (deliver_of_ok ended))
      | error fault => simp [ending] at hnone
    | @retries i d wake running phase pauses =>
      obtain ⟨before, after, hactive, -, hset⟩ := active_split running
      have hd := List.mem_of_getElem? running
      refine hq.goesOn rfl hclock rfl hactive (hset _) ?_
        (endsAt_of_error hbudgeted hsettings hd phase (hfinite d hd) (deliver_of_pausing pauses).1
          pauses)
      rw [Delivery.resumes, pauses, wake_of_answered pauses]
      exact Nat.le_add_right _ _
    | @wakes i d wake running phase due =>
      obtain ⟨before, after, hactive, -, hset⟩ := active_split running
      have hresumes := hq.resumes d (List.mem_of_getElem? running)
      rw [Delivery.resumes, phase] at hresumes
      have hnow : wake = q.clock := Nat.le_antisymm due hresumes
      refine hq.goesOn rfl hclock rfl hactive (hset _) (Nat.le_refl _) ?_
      rw [endsAt, endsAt, Delivery.resumes, Delivery.resumes, phase, hnow]
    | takes queue phase =>
      refine hq.quiet rfl hclock rfl fun _ _ => ?_
      rcases phase with ⟨hphase, -⟩ | ⟨hphase, -⟩ <;> simp [hphase]
    | collects ended phase =>
      refine hq.quiet rfl hclock rfl fun hj _ => ?_
      rcases phase with ⟨hphase, -⟩ | ⟨hphase, hnext⟩
      · simp [hphase]
      · exact absurd hnext hj
    | closes phase queue gone | joins phase queue =>
      exact hq.quiet rfl hclock rfl fun _ _ => by simp [phase]
    | finishes phase active settled =>
      exact hq.quiet rfl hclock rfl fun _ hf => absurd rfl hf
    | _ => exact hq.quiet (by simp) hclock rfl fun hj hf => ⟨hj, hf⟩

/-- In a run that keeps virtual time the deliveries keep to their schedule. -/
theorem scheduled_of_steps (hp : p.Idle) (hcoupled : p.aggregator.Coupled) (hkeyed : p.sink.Keyed)
    (hclock : p.clock = 0) (h : p.steps ts = some q) (hb : p.Bearable ts)
    (hpunctual : Punctual p ts) : Scheduled p (p.history (ts.map .turn)) q := by
  revert hb hpunctual
  refine steps_induction (P := fun ts q => p.Bearable ts → Punctual p ts →
    Scheduled p (p.history (ts.map .turn)) q) (fun _ _ => ?_) ?_ h
  · have hnone : p.schedule [] = List.replicate p.slots 0 := rfl
    refine ⟨fun d hd => ?_, ⟨List.replicate p.slots 0, ?_, fun t ht => ?_⟩, fun _ _ t _ => ?_, ?_⟩
    · rw [hp.active] at hd
      cases hd
    · rw [hp.active]
      exact .refl _
    · rw [List.eq_of_mem_replicate ht]
      exact Nat.zero_le _
    · rw [hclock]
      exact Nat.zero_le _
    · rw [hclock]
      exact Nat.zero_le _
  · intro ts t q r hq hr ih hb hpunctual
    rw [history_turn_concat hq hr]
    exact scheduled_of_step hp hcoupled hkeyed hq hr hb hpunctual
      (ih (hb.of_append hq hr) hpunctual.of_append)

/-! ## To the end -/

/-- As long as a run is not over, it goes on: a party takes a turn, or time passes. -/
theorem goesOn_or_mayElapse (htame : q.Tame)
    (hclosed : q.queueClosed = true → q.readerGone = true) (hgoing : q.outcome? = none) :
    (∃ t r, (t.works = true ∨ t.flushes = true) ∧ q.step t = some r) ∨
      ∃ ms, 0 < ms ∧ q.MayElapse ms := by
  by_cases hrests : q.Rests
  · have hactive : q.active ≠ [] := by
      rcases hrests.full_or_joining hclosed with ⟨-, -, hfull⟩ | ⟨-, hactive⟩ | ⟨-, hover⟩
      · intro hnone
        have hpos := q.slots_pos
        rw [hnone, List.length_nil] at hfull
        omega
      · exact hactive
      · exact absurd hgoing hover
    obtain ⟨next, hnext, hlater⟩ := hrests.exists_timer htame hactive
    exact .inr ⟨next - q.clock, by omega, hrests, next, hnext, by omega⟩
  · refine .inl ?_
    by_contra hnone
    refine hrests fun t ht => Option.eq_none_iff_forall_ne_some.2 fun r hr => ?_
    exact hnone ⟨t, r, ht, hr⟩

/-- Once a run is over, all that it emitted was started, in this order. -/
theorem started_of_over (hp : p.Idle) (h : p.steps ts = some q) (hover : q.outcome? ≠ none)
    (hfailed : counts .failed (p.history (ts.map .turn)) = []) :
    counts .started (p.history (ts.map .turn)) = counts .emitted (p.history (ts.map .turn)) := by
  have hmoves := (moves_turn ts).trans h
  have hdone := (hp.orderly hmoves).returns hover
  have hnothing : q.remaining = [] := by
    unfold outcome? at hover
    split at hover
    · next hreader => rw [remaining, hreader]; rfl
    · exact absurd rfl hover
  rw [emitted_in_order hp h, lost_eq_nil hp h hfailed, hnothing, List.append_nil, List.append_nil,
    started_of_finished hp.toFresh hmoves hdone]

/-- Once a run is over nothing runs any more, so all slots have been free for some time, and the clock
shows when the last one became so. -/
theorem clock_of_over (hp : p.Idle) (h : p.steps ts = some q) (hover : q.outcome? ≠ none)
    (hscheduled : Scheduled p (p.history (ts.map .turn)) q) :
    q.clock = largest (p.schedule (p.history (ts.map .turn))) := by
  have horderly := hp.orderly ((moves_turn ts).trans h)
  obtain ⟨idle, hperm, hfree⟩ := hscheduled.slots
  rw [(horderly.joined (horderly.returns hover)).1, List.map_nil, List.nil_append] at hperm
  exact Nat.le_antisymm hscheduled.last
    (largest_le_iff.2 fun t ht => hfree t (hperm.mem_iff.1 ht))

/-- What the reader has done once a run over a list of records has come to its end undisturbed. -/
theorem operations_of_undisturbed {s : ProcessingSettings} {a : Aggregator}
    (ha : Aggregator.ofSettings s = .ok a) {rs : List Record} {fault : Option SourceFault}
    {sink : MemorySink} (hp : p = atRest a { records := rs, fault := fault } sink)
    (hts : Undisturbed ts) (h : p.steps ts = some q) (hover : q.outcome? ≠ none)
    (hfailed : counts .failed (p.history (ts.map .turn)) = []) :
    p.operations ts = stepwise s rs fault := by
  have hidle : p.Idle := hp ▸ idle_atRest ha _ sink
  have hunasked : p.Unasked := by
    rw [hp]
    exact ⟨rfl, fun hbegun => absurd rfl hbegun⟩
  have hcourse := course_of_steps hunasked hts h (lost_eq_nil hidle h hfailed)
  have hoperations := hcourse.operations
  rwa [(due_of_outcome hover).1, List.append_nil, hp, dueOperations_atRest ha, ← hp] at hoperations

end

/-- A pipeline with two slots and room for one word count in the queue; the sink refuses `a` and `b`
once and `c` twice. -/
def refusing : Pipeline ListSource MemorySink :=
  atRest { tightAggregator with settings := { delivery := { maxInFlight := 2, bufferSize := 1 } } }
    { records := [⟨0, [97, 32, 98, 32, 99], none⟩] }
    (((({} : MemorySink).failTimes "a" "0_5000" 1).failTimes "b" "0_5000" 1).failTimes "c"
      "0_5000" 2)

/-- While all wait, nobody waits for a time: no delivery runs, and a reader over a list does not
wait. -/
theorem timers_eq_nil {p : Pipeline ListSource MemorySink} {reason : String} {wall : Millis}
    (hactive : p.active = []) (h : p.next? reason wall = none) : p.timers = [] := by
  have hturn {t : Turn} (hmem : t ∈ p.turns wall) : p.carry reason t = none :=
    List.findSome?_eq_none_iff.1 h t hmem
  have hread : p.read = none := Option.map_eq_none_iff.1 (hturn (t := .read) (by simp [turns]))
  have hflush : p.flush (p.wallClock wall) = none :=
    Option.map_eq_none_iff.1 (hturn (t := .flush (p.wallClock wall)) (by simp [turns]))
  have hready : p.sourceReady = true := by
    rw [sourceReady, bne_iff_ne]
    exact p.source.poll_ne_waiting
  unfold timers
  split
  · next hreader =>
    simp only [read, hreader, hready, Bool.or_true, if_true] at hread
    split at hread <;> cases hread
  · next hreader =>
    by_cases hdue : p.flushDue = true
    · simp [flush, hreader, hdue] at hflush
    · simp [read, hreader, hdue] at hread
  · rw [hactive]
    rfl

/-- Without room for the slots no time passes, however long the pauses would have been. -/
theorem clock_of_overstaffed {reason : String} {wall : Millis} {n : Nat}
    {p q : Pipeline ListSource MemorySink} (hslots : maxPermits < p.slots)
    (hp : p.Barren reason) (h : runFor reason wall none n p = .ok q) : q.clock = p.clock := by
  induction n generalizing p with
  | zero =>
    cases h
    rfl
  | succ n ih =>
    cases hnext : p.next? reason wall with
    | none =>
      simp only [runFor, hnext, timers_eq_nil hp.active hnext, List.min?_nil] at h
      cases h
      rfl
    | some answer =>
      obtain ⟨t, hmem, -, ht⟩ := find?_of_findSome? hnext
      cases answer with
      | error overrun => simp only [runFor, hnext] at h; cases h
      | ok r =>
        simp only [runFor, hnext] at h
        have hslots' : maxPermits < r.slots := slots_of_make (m := .turn t) ht ▸ hslots
        rw [ih hslots' (barren_of_make (m := .turn t) hslots hp ht).1 h]
        rcases make_cases (m := .turn t) ht with hstep | ⟨-, -, rfl⟩
        · exact clock_of_step (ne_elapse_of_mem_turns hmem) hstep
        · rfl

/-- A pipeline with as many slots as can be asked for; the sink refuses `a` once. -/
def refusingOnce : Pipeline ListSource MemorySink :=
  { overstaffed with sink := ({} : MemorySink).failTimes "a" "0_5000" 1 }

end Pipeline

end WindowTally
