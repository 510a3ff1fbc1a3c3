import TrShared.Events.ConsumerSteps

/-!
# TrShared.Events.ConsumerOutcome

No event is dropped silently: an acked entry was handled, skipped as a duplicate, not ours, or is
on the dead-letter stream.

The code acks a message after a failed dead-letter `XADD` as well, so the result needs
`DlqAccepts`: no such `XADD` is refused. Crashes, lost answers and all other failures are free.
-/

namespace TrShared
namespace Events
namespace Consumer

open Python Machine

variable {cfg : ConsumerId → ConsumerConfig} {lib : Stdlib}

/-- Why the group is done with a message. -/
inductive Outcome (w : World) (m : MsgId) : Prop where
  | handled {eventId : Json} : (m, .succeeded eventId) ∈ w.log → Outcome w m
  | duplicate {eventId : Json} : (m, .skipped eventId) ∈ w.log → eventId ∈ w.processed → Outcome w m
  | unmatched : (m, .unmatched) ∈ w.log → Outcome w m
  | deadLettered {d : DeadLetter} : d ∈ w.dlq → d.originalMessageId = m → Outcome w m

/-- The awaits of a message that is decided. -/
def Pc.decided : Pc → Bool
  | .mark _ | .clear _ | .ack => true
  | _ => false

/-- The await of a dead-letter `XADD`. -/
def Pc.deadLetters : Pc → Bool
  | .malformed | .exhausted _ => true
  | _ => false

/-- The dead-letter stream refuses nothing. -/
def DlqAccepts (w : World) : Act → Prop
  | .event τ (.redis reply) => ∀ m pc rest, w.tasks τ = .busy m pc rest → pc.deadLetters = true →
      reply ≠ .refused
  | _ => True

theorem Outcome.quiet {w w' : World} {m : MsgId} (h : Outcome w m) (hq : Quiet w w') :
    Outcome w' m := by
  cases h with
  | handled h => exact .handled (hq.log ▸ h)
  | duplicate h hp => exact .duplicate (hq.log ▸ h) (hq.processed ▸ hp)
  | unmatched h => exact .unmatched (hq.log ▸ h)
  | deadLettered h hm => exact .deadLettered (hq.dlq ▸ h) hm

theorem Outcome.apply {w : World} {c : ConsumerConfig} {τ : TaskId} {m m' : MsgId}
    {rest : List MsgId} {mv : Move} (h : Outcome w m') : Outcome (w.apply c τ m rest mv) m' := by
  cases h with
  | handled h => exact .handled (List.mem_append_left _ h)
  | duplicate h hp =>
    refine .duplicate (List.mem_append_left _ h) ?_
    rcases mv with ⟨_, _ | e, _⟩
    · exact hp
    · cases e <;> simp [World.apply, World.perform, hp]
  | unmatched h => exact .unmatched (List.mem_append_left _ h)
  | deadLettered h hm =>
    refine .deadLettered ?_ hm
    rcases mv with ⟨_, _ | e, _⟩
    · exact h
    · cases e <;> simp [World.apply, World.perform, h]

theorem Resolves.decides {c c' : ConsumerConfig} {env : EventEnvelope} {mv : Move} {w : World}
    {τ : TaskId} {m : MsgId} {rest : List MsgId} {pc : Pc} (h : Resolves c env mv)
    (hnext : mv.next = .await pc) (hpc : pc.decided = true) : Outcome (w.apply c' τ m rest mv) m := by
  cases h with
  | raised => cases hnext
  | unmatched => exact .unmatched (by simp [World.apply])
  | invoked => cases hnext; cases hpc

theorem Begins.decides {c c' : ConsumerConfig} {mv : Move} {w : World} {τ : TaskId} {m : MsgId}
    {fields : Fields} {rest : List MsgId} {pc : Pc} (h : Begins c lib m fields mv)
    (hnext : mv.next = .await pc) (hpc : pc.decided = true) : Outcome (w.apply c' τ m rest mv) m := by
  cases h with
  | malformed => cases hnext; cases hpc
  | check => cases hnext; cases hpc
  | resolve _ _ hr => exact hr.decides hnext hpc

theorem outcome_of_deadLetter {w : World} {c : ConsumerConfig} {τ : TaskId} {m : MsgId}
    {rest : List MsgId} {mv : Move} {reply : Reply} {reason : String}
    (he : mv.effect = took reply (.deadLetter reason)) (hr : reply ≠ .refused) :
    Outcome (w.apply c τ m rest mv) m := by
  have htook : took reply (.deadLetter reason) = some (.deadLetter reason) := by
    cases reply with
    | refused => exact absurd rfl hr
    | ok | lost => rfl
  refine .deadLettered ?_ rfl (d := ⟨m, c.streamName, c.consumerGroup, reason, w.now, w.fields m⟩)
  simp [World.apply, World.perform, he, htook]

/-- A task that comes to a decided await was at one, or its step decided the message. -/
theorem Moves.decides {c c' : ConsumerConfig} {retries : Nat} {pc pc' : Pc} {e : Event} {mv : Move}
    {w : World} {τ : TaskId} {m : MsgId} {rest : List MsgId} {i : ConsumerId}
    (h : Moves c retries pc e mv) (hadmits : w.admits i pc e = true)
    (hdlq : ∀ reply, e = .redis reply → pc.deadLetters = true → reply ≠ .refused)
    (hnext : mv.next = .await pc') (hpc : pc'.decided = true) :
    pc.decided = true ∨ Outcome (w.apply c' τ m rest mv) m := by
  cases h with
  | malformed => exact .inr (outcome_of_deadLetter rfl (hdlq _ rfl rfl))
  | exhausted => exact .inr (outcome_of_deadLetter rfl (hdlq _ rfl rfl))
  | checkRaised | unsent => cases hnext
  | skipped =>
    right
    refine .duplicate (List.mem_append_right _ (.head _)) ?_
    simpa [World.admits, World.apply, World.perform] using hadmits
  | resolve hr => exact .inr (hr.decides hnext hpc)
  | succeeded => exact .inr (.handled (List.mem_append_right _ (.head _)))
  | failed => cases hnext; cases hpc
  | marked | cleared | acked => exact .inl rfl
  | incremented =>
    simp only at hnext
    split at hnext
    · cases hnext; cases hpc
    · obtain rfl := afterFailure_await hnext
      cases hpc
  | expired =>
    obtain rfl := afterFailure_await hnext
    cases hpc

/-- Acked messages, and messages about to be acked, have an outcome. -/
structure Accountable (w : World) : Prop where
  acked : ∀ m ∈ w.acked, Outcome w m
  decided : ∀ τ m pc rest, w.tasks τ = .busy m pc rest → pc.decided = true → Outcome w m

theorem Accountable.quiet {w w' : World} (h : Accountable w) (hq : Quiet w w') :
    Accountable w' where
  acked := by
    intro m hm
    exact (h.acked m (hq.acked ▸ hm)).quiet hq
  decided := by
    intro τ m pc rest htask hpc
    exact (h.decided τ m pc rest (hq.busy τ m pc rest htask) hpc).quiet hq

theorem Accountable.apply {w : World} (h : Accountable w) {c : ConsumerConfig} {τ : TaskId}
    {m : MsgId} {rest : List MsgId} {mv : Move} (hack : mv.effect = some .ack → Outcome w m)
    (hnext : ∀ pc, mv.next = .await pc → pc.decided = true → Outcome (w.apply c τ m rest mv) m) :
    Accountable (w.apply c τ m rest mv) where
  acked := by
    intro m' hm'
    have hold : m' ∈ w.acked ∨ (mv.effect = some .ack ∧ m' = m) := by
      rcases mv with ⟨_, _ | e, _⟩
      · exact .inl hm'
      · cases e with
        | ack => simpa [World.apply, World.perform] using hm'
        | _ => exact .inl hm'
    rcases hold with hold | ⟨he, rfl⟩
    · exact (h.acked m' hold).apply
    · exact (hack he).apply
  decided := by
    intro τ' m' pc rest' htask hpc
    rcases apply_busy htask with ⟨rfl, rfl, hn⟩ | ⟨_, hold⟩
    · exact hnext pc hn hpc
    · exact (h.decided τ' m' pc rest' hold hpc).apply

theorem Moves.ack_of_effect {c : ConsumerConfig} {retries : Nat} {pc : Pc} {e : Event} {mv : Move}
    (h : Moves c retries pc e mv) (he : mv.effect = some .ack) : pc = .ack := by
  cases h with
  | acked => rfl
  | resolve hr => cases hr <;> cases he
  | malformed | marked | cleared | incremented | exhausted =>
    simp only [took] at he
    split at he <;> cases he
  | _ => cases he

theorem Begins.no_effect {c : ConsumerConfig} {m : MsgId} {fields : Fields} {mv : Move}
    (h : Begins c lib m fields mv) : mv.effect = none := by
  cases h with
  | resolve _ _ hr => cases hr <;> rfl
  | _ => rfl

theorem Accountable.step {w w' : World} {a : Act} (h : Accountable w) (hd : DlqAccepts w a)
    (hs : Consumer.step cfg lib w a = some w') : Accountable w' := by
  cases step_cases hs with
  | next htask hb =>
    refine h.apply ?_ (fun pc hn hpc => hb.decides hn hpc)
    intro he
    rw [hb.no_effect] at he
    cases he
  | @event τ e m pc rest mv htask hadmits hm =>
    refine h.apply ?_ ?_
    · intro he
      exact h.decided τ m pc rest htask (by rw [hm.ack_of_effect he]; rfl)
    · intro pc' hn hpc
      have hdlq : ∀ reply, e = .redis reply → pc.deadLetters = true → reply ≠ .refused := by
        rintro reply rfl hdl
        exact hd m pc rest htask hdl
      rcases hm.decides hadmits hdlq hn hpc with hold | hout
      · exact (h.decided τ m pc rest htask hold).apply
      · exact hout
  | _ => exact h.quiet ((step_cases hs).quiet (by simp) (by simp))

theorem Accountable.start : Accountable {} where
  acked := by intro m hm; cases hm
  decided := by intro τ m pc rest h; cases h

theorem acked_has_outcome (cfg : ConsumerId → ConsumerConfig) (lib : Stdlib) (as : List Act)
    (w : World) (h : Run (step cfg lib) DlqAccepts {} as w) :
    (∀ m ∈ w.acked, Outcome w m) ∧
      ∀ τ m rest, w.tasks τ = .busy m .ack rest → Outcome w m := by
  have hi : Accountable w := h.invariant (fun _ _ _ hi ho hs => hi.step ho hs) Accountable.start
  exact ⟨hi.acked, fun τ m rest htask => hi.decided τ m .ack rest htask rfl⟩

/-! A message whose `data` is not JSON. -/

def demoMalformed : Fields := [("event_id", "e1"), ("event_type", "user.created"), ("data", "\x7b")]

def demoDeadLetter (reply : Reply) : List Act :=
  [.append demoMalformed, .read 0 1 .ok, .next (0, .consume), .event (0, .consume) (.redis reply),
    .event (0, .consume) (.redis .ok)]

theorem malformed_is_dead_lettered :
    ∃ w, Run (step (demoConfig 3 false) demoLib) DlqAccepts {} (demoDeadLetter .ok) w ∧
      w.acked = [0] ∧ ∀ m ∈ w.acked, Outcome w m := by
  obtain ⟨w, hw, hp⟩ := exec_any (p := fun w => w.acked == [0])
    (show (exec (step (demoConfig 3 false) demoLib) {} (demoDeadLetter .ok)).any _ = true by decide)
  have hrun : Run (step (demoConfig 3 false) demoLib) DlqAccepts {} (demoDeadLetter .ok) w := by
    refine .of_exec_all ?_ hw
    intro a ha _
    simp only [demoDeadLetter, List.mem_cons, List.not_mem_nil, or_false] at ha
    rcases ha with rfl | rfl | rfl | rfl | rfl <;> simp [DlqAccepts]
  exact ⟨w, hrun, by simpa using hp, (acked_has_outcome _ _ _ _ hrun).1⟩

/-- The dead-letter `XADD` fails, and the message is acked all the same. -/
theorem malformed_is_dropped :
    ∃ w, Run (step (demoConfig 3 false) demoLib) (fun _ _ => True) {} (demoDeadLetter .refused) w ∧
      ¬ ∀ m ∈ w.acked, Outcome w m := by
  obtain ⟨w, hw, hp⟩ := exec_any (p := fun w => w.acked == [0] && w.log.isEmpty && w.dlq.isEmpty)
    (show (exec (step (demoConfig 3 false) demoLib) {} (demoDeadLetter .refused)).any _ = true
      by decide)
  simp only [Bool.and_eq_true, beq_iff_eq, List.isEmpty_iff] at hp
  obtain ⟨⟨hacked, hlog⟩, hdlq⟩ := hp
  refine ⟨w, .of_exec_all (fun _ _ _ => trivial) hw, ?_⟩
  intro h
  cases h 0 (by simp [hacked]) with
  | handled h => rw [hlog] at h; cases h
  | duplicate h => rw [hlog] at h; cases h
  | unmatched h => rw [hlog] at h; cases h
  | deadLettered h => rw [hdlq] at h; cases h

end Consumer
end Events
end TrShared
