import TrShared.Events.Consumer

/-!
# TrShared.Events.ConsumerLifecycle

The life of a consumer from `start()` to its deregistration (`connect`, `_sweep_zombie_consumers`,
the two loops, `_deregister_consumer`), and the Redis group it shares with the others: who is
registered and who owns which pending entry. What happens to a message between its delivery and its
ack is the subject of `TrShared.Events.Consumer`.

A loop sends `XREADGROUP` or `XAUTOCLAIM` (`issue`), and Redis executes it later (`read`, `claim`),
also after the client is closed; `wire` are the commands on their way. Both removals of a consumer
are check-then-act: the sweep deletes what an earlier `XINFO` showed, `_deregister_consumer` deletes
itself after an earlier `XPENDING`. `deletions` records what every executed `DELCONSUMER` discarded.

`delconsumer_discards_nothing`: nothing, in every run in which

* names are not reused (a name is spawned once),
* consumers with running loops are not idle for `zombie_idle_ms` (`Lively`),
* commands of a closed connection are executed before later `XINFO` and `XPENDING` (`Ordered`).

The invariant is `Finished`: a consumer whose loops have ended, with nothing on the wire and nothing
pending, stays that way.
-/

namespace TrShared
namespace Events
namespace Lifecycle

open Machine Consumer

/-- Before `start()`; in `connect()`, before (`none`) and after `XINFO`; with its loops running,
`todo` being the rest of a sweep after a reconnect; closed, both loops having ended; with an empty
`XPENDING` answer; done or dead. -/
inductive Stage where
  | absent
  | connecting (todo : Option (List ConsumerId))
  | running (todo : List ConsumerId)
  | closed
  | checked
  | gone

def Stage.todo : Stage → List ConsumerId
  | .connecting todo => todo.getD []
  | .running todo => todo
  | _ => []

def Stage.ended : Stage → Bool
  | .closed | .checked | .gone => true
  | _ => false

structure World where
  now : Nat := 0
  stage : ConsumerId → Stage := fun _ => .absent
  wire : ConsumerId → List Loop := fun _ => []
  next : MsgId := 0
  registered : List ConsumerId := []
  pel : PendingList := []
  deletions : List (ConsumerId × List MsgId) := []

inductive Act where
  | tick (dt : Nat)
  | spawn (n : ConsumerId)
  | xinfo (n : ConsumerId) (idle : ConsumerId → Nat)
  | sweep (n : ConsumerId) (reply : Reply)
  | giveUp (n : ConsumerId)
  | loops (n : ConsumerId)
  | issue (n : ConsumerId) (l : Loop)
  | read (n : ConsumerId) (count : Nat)
  | claim (n : ConsumerId) (ids : List MsgId)
  | drop (n : ConsumerId) (l : Loop)
  | ack (m : MsgId)
  | close (n : ConsumerId)
  | xpending (n : ConsumerId)
  | deregister (n : ConsumerId) (reply : Reply)
  | crash (n : ConsumerId)

def World.setStage (w : World) (n : ConsumerId) (st : Stage) : World :=
  { w with stage := Function.update w.stage n st }

def World.setWire (w : World) (n : ConsumerId) (wire : List Loop) : World :=
  { w with wire := Function.update w.wire n wire }

/-- `XREADGROUP` and `XAUTOCLAIM` create the consumer they name. -/
def World.register (w : World) (n : ConsumerId) : World :=
  { w with registered := if n ∈ w.registered then w.registered else w.registered ++ [n] }

def World.delConsumer (w : World) (n : ConsumerId) : World :=
  { w with
    registered := w.registered.filter (fun x => x != n)
    pel := w.pel.delConsumer n
    deletions := w.deletions ++ [(n, w.pel.owned n)] }

/-- The consumers `_sweep_zombie_consumers` of `n` deletes after an `XINFO` answer. -/
def World.zombies (w : World) (n : ConsumerId) (zombieIdleMs : Nat) (idle : ConsumerId → Nat) :
    List ConsumerId :=
  w.registered.filter fun x =>
    x != n && (w.pel.owned x).isEmpty && decide (zombieIdleMs ≤ idle x)

def step (cfg : ConsumerId → ConsumerConfig) (w : World) : Act → Option World
  | .tick dt => some { w with now := w.now + dt }
  | .spawn n =>
    match w.stage n with
    | .absent => some (w.setStage n (.connecting none))
    | _ => none
  | .xinfo n idle =>
    match w.stage n with
    | .connecting none =>
      some (w.setStage n (.connecting (some (w.zombies n (cfg n).zombieIdleMs idle))))
    | .running [] => some (w.setStage n (.running (w.zombies n (cfg n).zombieIdleMs idle)))
    | _ => none
  | .sweep n reply =>
    match w.stage n with
    | .connecting (some (x :: rest)) =>
      some ((if reply.took then w.delConsumer x else w).setStage n (.connecting (some rest)))
    | .running (x :: rest) =>
      some ((if reply.took then w.delConsumer x else w).setStage n (.running rest))
    | _ => none
  | .giveUp n =>
    -- `XINFO` answers with an error, or an exception leaves the sweep of a reconnect
    match w.stage n with
    | .connecting none => some (w.setStage n (.connecting (some [])))
    | .running _ => some (w.setStage n (.running []))
    | _ => none
  | .loops n =>
    match w.stage n with
    | .connecting (some []) => some (w.setStage n (.running []))
    | _ => none
  | .issue n l =>
    match w.stage n with
    | .running _ => some (w.setWire n (w.wire n ++ [l]))
    | _ => none
  | .read n count =>
    if .consume ∈ w.wire n then
      some { (w.setWire n ((w.wire n).erase .consume)).register n with
        next := w.next + count
        pel := w.pel.read ((List.range count).map (fun i => w.next + i)) n w.now }
    else none
  | .claim n ids =>
    if .claimer ∈ w.wire n then
      some { (w.setWire n ((w.wire n).erase .claimer)).register n with
        pel := w.pel.claim ids n w.now }
    else none
  | .drop n l => some (w.setWire n ((w.wire n).erase l))
  | .ack m => some { w with pel := w.pel.ack m }
  | .close n =>
    match w.stage n with
    | .running _ => some (w.setStage n .closed)
    | _ => none
  | .xpending n =>
    match w.stage n with
    | .closed => some (w.setStage n (if (w.pel.owned n).isEmpty then .checked else .gone))
    | _ => none
  | .deregister n reply =>
    match w.stage n with
    | .checked => some ((if reply.took then w.delConsumer n else w).setStage n .gone)
    | _ => none
  | .crash n =>
    match w.stage n with
    | .absent => none
    | _ => some (w.setStage n .gone)

variable {cfg : ConsumerId → ConsumerConfig}

/-! ## What a step can do -/

def Stage.unborn : Stage → Bool
  | .absent | .connecting _ => true
  | _ => false

/-- The consumer that acts. -/
def Act.name : Act → Option ConsumerId
  | .spawn n | .xinfo n _ | .sweep n _ | .giveUp n | .loops n | .issue n _ | .read n _ | .claim n _
  | .drop n _ | .close n | .xpending n | .deregister n _ | .crash n => some n
  | .tick _ | .ack _ => none

/-- A stage follows another one: a life that has ended stays ended, only a consumer that has not begun
its loops is one that has not begun them before, and no sweep gets longer. -/
structure Follows (old new : Stage) : Prop where
  ended : old.ended = true → new.ended = true
  unborn : new.unborn = true → old.unborn = true
  todo : ∀ x ∈ new.todo, x ∈ old.todo
  checked : new ≠ .checked

/-- The world after a `DELCONSUMER` that may have failed. -/
def World.removing (w : World) (n : ConsumerId) (reply : Reply) : World :=
  if reply.took then w.delConsumer n else w

inductive Stepped (cfg : ConsumerId → ConsumerConfig) (w : World) : Act → World → Prop where
  | tick (dt : Nat) : Stepped cfg w (.tick dt) { w with now := w.now + dt }
  | advance {a : Act} {n : ConsumerId} {st : Stage} (hname : a.name = some n)
      (h : Follows (w.stage n) st) : Stepped cfg w a (w.setStage n st)
  | xinfo {n : ConsumerId} {idle : ConsumerId → Nat} {st : Stage}
      (hended : (w.stage n).ended = false) (hunborn : st.unborn = true → (w.stage n).unborn = true)
      (hchecked : st ≠ .checked) (htodo : st.todo = w.zombies n (cfg n).zombieIdleMs idle) :
      Stepped cfg w (.xinfo n idle) (w.setStage n st)
  | sweep {n x : ConsumerId} {reply : Reply} {st : Stage} (hx : x ∈ (w.stage n).todo)
      (h : Follows (w.stage n) st) : Stepped cfg w (.sweep n reply) ((w.removing x reply).setStage n st)
  | checked {n : ConsumerId} (hclosed : w.stage n = .closed) (hempty : w.pel.owned n = []) :
      Stepped cfg w (.xpending n) (w.setStage n .checked)
  | deregister {n : ConsumerId} {reply : Reply} (hchecked : w.stage n = .checked) :
      Stepped cfg w (.deregister n reply) ((w.removing n reply).setStage n .gone)
  | issue {n : ConsumerId} {l : Loop} {todo : List ConsumerId} (hrunning : w.stage n = .running todo) :
      Stepped cfg w (.issue n l) (w.setWire n (w.wire n ++ [l]))
  | read {n : ConsumerId} {count : Nat} (hwire : .consume ∈ w.wire n) :
      Stepped cfg w (.read n count)
        { (w.setWire n ((w.wire n).erase .consume)).register n with
          next := w.next + count
          pel := w.pel.read ((List.range count).map (fun i => w.next + i)) n w.now }
  | claim {n : ConsumerId} {ids : List MsgId} (hwire : .claimer ∈ w.wire n) :
      Stepped cfg w (.claim n ids)
        { (w.setWire n ((w.wire n).erase .claimer)).register n with
          pel := w.pel.claim ids n w.now }
  | drop {n : ConsumerId} {l : Loop} :
      Stepped cfg w (.drop n l) (w.setWire n ((w.wire n).erase l))
  | ack {m : MsgId} : Stepped cfg w (.ack m) { w with pel := w.pel.ack m }

theorem follows_gone (old : Stage) : Follows old .gone := by
  constructor <;> simp [Stage.ended, Stage.unborn, Stage.todo]

theorem step_cases {w w' : World} {a : Act} (h : step cfg w a = some w') : Stepped cfg w a w' := by
  cases a with
  | tick dt => cases h; exact .tick dt
  | spawn n =>
    simp only [step] at h
    split at h
    · rename_i hst
      cases h
      refine .advance rfl ?_
      rw [hst]
      constructor <;> simp [Stage.ended, Stage.unborn, Stage.todo]
    · cases h
  | xinfo n idle =>
    simp only [step] at h
    split at h
    · rename_i hst
      cases h
      exact .xinfo (by rw [hst]; rfl) (fun _ => by rw [hst]; rfl) (by simp) rfl
    · rename_i hst
      cases h
      exact .xinfo (by rw [hst]; rfl) (fun h => by cases h) (by simp) rfl
    · cases h
  | sweep n reply =>
    simp only [step] at h
    split at h
    · rename_i x rest hst
      cases h
      refine .sweep (x := x) (by rw [hst]; exact .head _) ?_
      rw [hst]
      constructor <;> simp +contextual [Stage.ended, Stage.unborn, Stage.todo]
    · rename_i x rest hst
      cases h
      refine .sweep (x := x) (by rw [hst]; exact .head _) ?_
      rw [hst]
      constructor <;> simp +contextual [Stage.ended, Stage.unborn, Stage.todo]
    · cases h
  | giveUp n =>
    simp only [step] at h
    split at h
    · rename_i hst
      cases h
      refine .advance rfl ?_
      rw [hst]
      constructor <;> simp [Stage.ended, Stage.unborn, Stage.todo]
    · rename_i hst
      cases h
      refine .advance rfl ?_
      rw [hst]
      constructor <;> simp [Stage.ended, Stage.unborn, Stage.todo]
    · cases h
  | loops n =>
    simp only [step] at h
    split at h
    · rename_i hst
      cases h
      refine .advance rfl ?_
      rw [hst]
      constructor <;> simp [Stage.ended, Stage.unborn, Stage.todo]
    · cases h
  | issue n l =>
    simp only [step] at h
    split at h
    · cases h; exact .issue ‹_›
    · cases h
  | read n count =>
    simp only [step] at h
    split at h
    · cases h; exact .read ‹_›
    · cases h
  | claim n ids =>
    simp only [step] at h
    split at h
    · cases h; exact .claim ‹_›
    · cases h
  | drop n l => cases h; exact .drop
  | ack m => cases h; exact .ack
  | close n =>
    simp only [step] at h
    split at h
    · cases h
      refine .advance rfl ?_
      constructor <;> simp [Stage.ended, Stage.unborn, Stage.todo]
    · cases h
  | xpending n =>
    simp only [step] at h
    split at h
    · rename_i hst
      cases h
      split
      · rename_i hempty
        exact .checked hst (List.isEmpty_iff.1 hempty)
      · exact .advance rfl (follows_gone _)
    · cases h
  | deregister n reply =>
    simp only [step] at h
    split at h
    · cases h; exact .deregister ‹_›
    · cases h
  | crash n =>
    simp only [step] at h
    split at h
    · cases h
    · cases h; exact .advance rfl (follows_gone _)

/-! ## Finished consumers -/

/-- A consumer with running loops is not idle for `zombie_idle_ms`. -/
def Lively (cfg : ConsumerId → ConsumerConfig) (w : World) : Act → Prop
  | .xinfo n idle => ∀ x todo, w.stage x = .running todo → idle x < (cfg n).zombieIdleMs
  | _ => True

/-- What was sent on a connection that is closed now is executed before these commands are. -/
def Ordered (w : World) : Act → Prop
  | .xinfo _ _ | .xpending _ => ∀ n, (w.stage n).ended = true → w.wire n = []
  | _ => True

structure Finished (w : World) (n : ConsumerId) : Prop where
  ended : (w.stage n).ended = true
  wire : w.wire n = []
  empty : ∀ p ∈ w.pel, p.owner ≠ n

theorem ended_update {stage : ConsumerId → Stage} {n x : ConsumerId} {st : Stage}
    (h : (stage x).ended = true) (hn : (stage n).ended = true → st.ended = true) :
    (Function.update stage n st x).ended = true := by
  by_cases hx : x = n
  · subst hx
    rw [Function.update_self]
    exact hn h
  · rwa [Function.update_of_ne hx]

theorem wire_update {wire : ConsumerId → List Loop} {n x : ConsumerId} {l : List Loop}
    (h : wire x = []) (hn : wire n = [] → l = []) : Function.update wire n l x = [] := by
  by_cases hx : x = n
  · subst hx
    rw [Function.update_self]
    exact hn h
  · rwa [Function.update_of_ne hx]

theorem removing_wire (w : World) (n : ConsumerId) (reply : Reply) :
    (w.removing n reply).wire = w.wire := by
  simp only [World.removing]
  split <;> rfl

theorem removing_stage (w : World) (n : ConsumerId) (reply : Reply) :
    (w.removing n reply).stage = w.stage := by
  simp only [World.removing]
  split <;> rfl

theorem removing_setStage (w : World) (n x : ConsumerId) (reply : Reply) (st : Stage) :
    ((w.removing x reply).setStage n st).stage = Function.update w.stage n st := by
  rw [World.setStage, removing_stage]

theorem mem_removing_pel {w : World} {n : ConsumerId} {reply : Reply} {p : Delivered}
    (h : p ∈ (w.removing n reply).pel) : p ∈ w.pel := by
  simp only [World.removing] at h
  split at h
  · exact PendingList.mem_of_mem_delConsumer h
  · exact h

theorem Finished.step {w w' : World} {a : Act} {x : ConsumerId} (h : Finished w x)
    (hs : Lifecycle.step cfg w a = some w') : Finished w' x := by
  cases step_cases hs with
  | tick dt => exact ⟨h.ended, h.wire, h.empty⟩
  | advance _ hf => exact ⟨ended_update h.ended hf.ended, h.wire, h.empty⟩
  | xinfo hended hunborn hchecked htodo =>
    refine ⟨ended_update h.ended ?_, h.wire, h.empty⟩
    intro ho
    rw [hended] at ho
    cases ho
  | sweep hx hf =>
    refine ⟨ended_update ?_ ?_, ?_, fun p hp => h.empty p (mem_removing_pel hp)⟩
    · rw [removing_stage]; exact h.ended
    · rw [removing_stage]; exact hf.ended
    · exact (congrFun (removing_wire w _ _) x).trans h.wire
  | checked hclosed hempty => exact ⟨ended_update h.ended (fun _ => rfl), h.wire, h.empty⟩
  | deregister hchecked =>
    refine ⟨ended_update ?_ (fun _ => rfl), ?_, fun p hp => h.empty p (mem_removing_pel hp)⟩
    · rw [removing_stage]; exact h.ended
    · exact (congrFun (removing_wire w _ _) x).trans h.wire
  | @issue n l todo hrunning =>
    have hne : x ≠ n := by
      rintro rfl
      have := h.ended
      rw [hrunning] at this
      cases this
    exact ⟨h.ended, (Function.update_of_ne hne _ _).trans h.wire, h.empty⟩
  | @read n count hwire =>
    have hne : x ≠ n := by rintro rfl; rw [h.wire] at hwire; cases hwire
    exact ⟨h.ended, (Function.update_of_ne hne _ _).trans h.wire,
      PendingList.read_disowned hne h.empty⟩
  | @claim n ids hwire =>
    have hne : x ≠ n := by rintro rfl; rw [h.wire] at hwire; cases hwire
    exact ⟨h.ended, (Function.update_of_ne hne _ _).trans h.wire,
      PendingList.claim_disowned hne h.empty⟩
  | drop =>
    refine ⟨h.ended, wire_update h.wire ?_, h.empty⟩
    intro he
    rw [he]
    rfl
  | ack => exact ⟨h.ended, h.wire, fun p hp => h.empty p (PendingList.mem_of_mem_ack hp)⟩

/-! ## Every removal is of a finished consumer -/

structure Safe (w : World) : Prop where
  unborn : ∀ n, (w.stage n).unborn = true → n ∉ w.registered ∧ w.wire n = []
  swept : ∀ n, ∀ x ∈ (w.stage n).todo, Finished w x
  checked : ∀ n, w.stage n = .checked → Finished w n
  clean : ∀ d ∈ w.deletions, d.2 = []

/-- The consumers a sweep picks are finished, and not only at the time of its `XINFO`. -/
theorem Safe.zombies_finished {w : World} (h : Safe w) {n : ConsumerId} {idle : ConsumerId → Nat}
    (hl : Lively cfg w (.xinfo n idle)) (ho : Ordered w (.xinfo n idle)) {x : ConsumerId}
    (hx : x ∈ w.zombies n (cfg n).zombieIdleMs idle) : Finished w x := by
  simp only [World.zombies, List.mem_filter, Bool.and_eq_true, List.isEmpty_iff,
    decide_eq_true_eq] at hx
  obtain ⟨hreg, ⟨_, hempty⟩, hidle⟩ := hx
  have hended : (w.stage x).ended = true := by
    cases hst : w.stage x with
    | absent => exact absurd hreg (h.unborn x (by rw [hst]; rfl)).1
    | connecting todo => exact absurd hreg (h.unborn x (by rw [hst]; rfl)).1
    | running todo =>
      have := hl x todo hst
      omega
    | closed | checked | gone => rfl
  exact ⟨hended, ho x hended, PendingList.owned_eq_nil.1 hempty⟩

theorem clean_removing {w : World} {n : ConsumerId} {reply : Reply}
    (h : ∀ d ∈ w.deletions, d.2 = []) (hf : Finished w n) :
    ∀ d ∈ (w.removing n reply).deletions, d.2 = [] := by
  intro d hd
  simp only [World.removing] at hd
  split at hd
  · rcases List.mem_append.1 hd with hd | hd
    · exact h d hd
    · rw [List.mem_singleton.1 hd]
      exact PendingList.owned_eq_nil.2 hf.empty
  · exact h d hd

theorem removing_registered {w : World} {n x : ConsumerId} {reply : Reply}
    (h : x ∈ (w.removing n reply).registered) : x ∈ w.registered := by
  simp only [World.removing] at h
  split at h
  · exact (List.mem_filter.1 h).1
  · exact h

theorem stage_update {stage : ConsumerId → Stage} {n x : ConsumerId} {st : Stage} {P : Stage → Prop}
    (h : P (Function.update stage n st x)) : (x = n ∧ P st) ∨ (x ≠ n ∧ P (stage x)) := by
  rcases update_cases stage n st x with ⟨hx, hst⟩ | ⟨hx, hst⟩
  · rw [hst] at h
    exact .inl ⟨hx, h⟩
  · rw [hst] at h
    exact .inr ⟨hx, h⟩

theorem Safe.unborn_setStage {w : World} (h : Safe w) {n x : ConsumerId} {st : Stage}
    (hst : st.unborn = true → (w.stage n).unborn = true)
    (hx : (Function.update w.stage n st x).unborn = true) :
    x ∉ w.registered ∧ w.wire x = [] := by
  rcases stage_update (P := fun st => st.unborn = true) hx with ⟨rfl, hu⟩ | ⟨_, hu⟩
  · exact h.unborn x (hst hu)
  · exact h.unborn x hu

/-- A stage is set, to one that follows the old one or with a sweep of finished consumers. -/
theorem Safe.setStage {w w' : World} (h : Safe w) {n : ConsumerId} {st : Stage}
    (hunborn : st.unborn = true → (w.stage n).unborn = true)
    (htodo : ∀ x ∈ st.todo, Finished w x) (hchecked : st = .checked → Finished w n)
    (hfin : ∀ x, Finished w x → Finished w' x)
    (hstage : w'.stage = Function.update w.stage n st) (hwire : w'.wire = w.wire)
    (hreg : ∀ x ∈ w'.registered, x ∈ w.registered) (hclean : ∀ d ∈ w'.deletions, d.2 = []) :
    Safe w' := by
  constructor
  case unborn =>
    intro x hx
    rw [hstage] at hx
    obtain ⟨hr, hw⟩ := h.unborn_setStage hunborn hx
    exact ⟨fun hmem => hr (hreg x hmem), by rw [hwire]; exact hw⟩
  case swept =>
    intro y x hx
    rw [hstage] at hx
    rcases stage_update (P := fun st => x ∈ st.todo) hx with ⟨_, hmem⟩ | ⟨_, hmem⟩
    · exact hfin x (htodo x hmem)
    · exact hfin x (h.swept y x hmem)
  case checked =>
    intro x hx
    rw [hstage] at hx
    rcases stage_update (P := fun st => st = .checked) hx with ⟨rfl, hc⟩ | ⟨_, hc⟩
    · exact hfin x (hchecked hc)
    · exact hfin x (h.checked x hc)
  case clean => exact hclean

/-- The stages stay, and only a consumer with a command on the wire is registered. -/
theorem Safe.sameStage {w w' : World} (h : Safe w) (hfin : ∀ x, Finished w x → Finished w' x)
    (hstage : w'.stage = w.stage)
    (hunborn : ∀ n, (w.stage n).unborn = true → n ∉ w'.registered ∧ w'.wire n = [])
    (hdel : w'.deletions = w.deletions) : Safe w' := by
  constructor
  case unborn => intro n hn; rw [hstage] at hn; exact hunborn n hn
  case swept => intro n x hx; rw [hstage] at hx; exact hfin x (h.swept n x hx)
  case checked => intro n hn; rw [hstage] at hn; exact hfin n (h.checked n hn)
  case clean => rw [hdel]; exact h.clean

theorem Safe.fetch {w : World} (h : Safe w) {n x : ConsumerId} {l : Loop} (hwire : l ∈ w.wire n)
    (hx : (w.stage x).unborn = true) :
    x ∉ (w.register n).registered ∧ Function.update w.wire n ((w.wire n).erase l) x = [] := by
  obtain ⟨hr, hw⟩ := h.unborn x hx
  have hne : x ≠ n := by rintro rfl; rw [hw] at hwire; cases hwire
  refine ⟨?_, (Function.update_of_ne hne _ _).trans hw⟩
  simp only [World.register]
  split
  · exact hr
  · simp [hr, hne]

theorem Safe.step {w w' : World} {a : Act} (h : Safe w) (hl : Lively cfg w a) (ho : Ordered w a)
    (hs : Lifecycle.step cfg w a = some w') : Safe w' := by
  have hfin : ∀ x, Finished w x → Finished w' x := fun x hx => hx.step hs
  cases step_cases hs with
  | tick dt => exact h.sameStage hfin rfl h.unborn rfl
  | @advance _ n st _ hf =>
    exact h.setStage hf.unborn (fun x hx => h.swept n x (hf.todo x hx))
      (fun hc => absurd hc hf.checked) hfin rfl rfl (fun _ hx => hx) h.clean
  | @xinfo n idle st hended hunborn hchecked htodo =>
    refine h.setStage hunborn ?_ (fun hc => absurd hc hchecked) hfin rfl rfl (fun _ hx => hx) h.clean
    intro x hx
    rw [htodo] at hx
    exact h.zombies_finished hl ho hx
  | @sweep n x reply st hx hf =>
    exact h.setStage hf.unborn (fun y hy => h.swept n y (hf.todo y hy))
      (fun hc => absurd hc hf.checked) hfin (removing_setStage w n x reply st)
      (removing_wire w x reply) (fun _ hy => removing_registered hy)
      (clean_removing h.clean (h.swept n x hx))
  | @checked n hclosed hempty =>
    have hended : (w.stage n).ended = true := by rw [hclosed]; rfl
    refine h.setStage (fun hu => by cases hu) (fun x hx => by cases hx) ?_ hfin rfl rfl
      (fun _ hx => hx) h.clean
    intro _
    exact ⟨hended, ho n hended, PendingList.owned_eq_nil.1 hempty⟩
  | @deregister n reply hchecked =>
    refine h.setStage ?_ ?_ ?_ hfin (removing_setStage w n n reply .gone) (removing_wire w n reply)
      (fun _ hy => removing_registered hy) (clean_removing h.clean (h.checked n hchecked))
    · intro hu; cases hu
    · intro x hx; cases hx
    · intro hc; cases hc
  | @issue n l todo hrunning =>
    refine h.sameStage hfin rfl ?_ rfl
    intro x hx
    obtain ⟨hr, hw⟩ := h.unborn x hx
    refine ⟨hr, (Function.update_of_ne ?_ _ _).trans hw⟩
    rintro rfl
    rw [hrunning] at hx
    cases hx
  | read hwire => exact h.sameStage hfin rfl (fun x hx => h.fetch hwire hx) rfl
  | claim hwire => exact h.sameStage hfin rfl (fun x hx => h.fetch hwire hx) rfl
  | drop =>
    refine h.sameStage hfin rfl ?_ rfl
    intro x hx
    obtain ⟨hr, hw⟩ := h.unborn x hx
    exact ⟨hr, wire_update hw (fun he => by rw [he]; rfl)⟩
  | ack => exact h.sameStage hfin rfl h.unborn rfl

/-- Nobody lives yet; names registered earlier belong to consumers that are gone. -/
structure Start (w : World) : Prop where
  stage : ∀ n, w.stage n = .absent ∨ w.stage n = .gone
  wire : ∀ n, w.wire n = []
  names : ∀ n ∈ w.registered, w.stage n = .gone
  deletions : w.deletions = []

theorem Start.safe {w : World} (h : Start w) : Safe w := by
  constructor
  case unborn =>
    intro n hn
    refine ⟨?_, h.wire n⟩
    intro hr
    rw [h.names n hr] at hn
    cases hn
  case swept =>
    intro n x hx
    rcases h.stage n with hst | hst <;> rw [hst] at hx <;> cases hx
  case checked =>
    intro n hn
    rcases h.stage n with hst | hst <;> rw [hst] at hn <;> cases hn
  case clean =>
    intro d hd
    rw [h.deletions] at hd
    cases hd

theorem delconsumer_discards_nothing (cfg : ConsumerId → ConsumerConfig) (w₀ : World)
    (h₀ : Start w₀) (as : List Act) (w : World)
    (h : Run (step cfg) (fun w a => Lively cfg w a ∧ Ordered w a) w₀ as w) :
    ∀ d ∈ w.deletions, d.2 = [] := by
  have hi : Safe w := h.invariant (fun _ _ _ hi ho hs => hi.step ho.1 ho.2 hs) h₀.safe
  exact hi.clean

/-! A consumer that reads an entry, acks it and leaves, and one that sweeps a dead name. -/

def demoNames : List ConsumerId := [0, 1, 7]

/-- The group as an earlier process left it: `7` is registered and owns nothing. -/
def demoGroup : World :=
  { stage := fun n => if n = 7 then .gone else .absent, registered := [7] }

theorem demoGroup_start : Start demoGroup where
  stage := by
    intro n
    by_cases hn : n = 7
    · exact .inr (by simp [demoGroup, hn])
    · exact .inl (by simp [demoGroup, hn])
  wire := fun _ => rfl
  names := by simp [demoGroup]
  deletions := rfl

def World.within (w : World) : Prop := ∀ n, n ∉ demoNames → w.stage n = .absent ∧ w.wire n = []

theorem within_step {w w' : World} {a : Act} (h : w.within)
    (ha : a.name.all (fun n => demoNames.contains n) = true)
    (hs : step cfg w a = some w') : w'.within := by
  have hmem : ∀ n, a.name = some n → n ∈ demoNames := by
    intro n hn
    simpa [hn] using ha
  intro x hx
  have hne : ∀ n, a.name = some n → x ≠ n := by
    rintro n hn rfl
    exact hx (hmem x hn)
  obtain ⟨hst, hw⟩ := h x hx
  cases step_cases hs with
  | tick | ack => exact ⟨hst, hw⟩
  | advance hname _ => exact ⟨(Function.update_of_ne (hne _ hname) _ _).trans hst, hw⟩
  | xinfo | checked => exact ⟨(Function.update_of_ne (hne _ rfl) _ _).trans hst, hw⟩
  | sweep | deregister =>
    refine ⟨?_, (congrFun (removing_wire w _ _) x).trans hw⟩
    rw [removing_setStage]
    exact (Function.update_of_ne (hne _ rfl) _ _).trans hst
  | issue | drop | read | claim => exact ⟨hst, (Function.update_of_ne (hne _ rfl) _ _).trans hw⟩

/-- `Lively` and `Ordered`, for a schedule of these consumers. -/
def demoCheck (zombieIdleMs : Nat) (w : World) (a : Act) : Bool :=
  a.name.all (fun n => demoNames.contains n) &&
    match a with
    | .xinfo _ idle => demoNames.all fun x =>
        match w.stage x with
        | .running _ => decide (idle x < zombieIdleMs)
        | st => !st.ended || (w.wire x).isEmpty
    | .xpending _ => demoNames.all fun x => !(w.stage x).ended || (w.wire x).isEmpty
    | _ => true

theorem ordered_of_demo {w : World} (hw : w.within)
    (h : ∀ x ∈ demoNames, (w.stage x).ended = true → w.wire x = []) :
    ∀ x, (w.stage x).ended = true → w.wire x = [] := by
  intro x hx
  by_cases hmem : x ∈ demoNames
  · exact h x hmem hx
  · exact (hw x hmem).2

theorem demoCheck_sound {w : World} {a : Act} (hw : w.within)
    (h : demoCheck 86400000 w a = true) : Lively (fun _ => {}) w a ∧ Ordered w a := by
  simp only [demoCheck, Bool.and_eq_true] at h
  obtain ⟨_, h⟩ := h
  cases a with
  | xinfo n idle =>
    simp only [List.all_eq_true] at h
    refine ⟨?_, ordered_of_demo hw ?_⟩
    · intro x todo hst
      by_cases hmem : x ∈ demoNames
      · simpa [hst] using h x hmem
      · rw [(hw x hmem).1] at hst
        cases hst
    · intro x hmem hended
      have := h x hmem
      cases hst : w.stage x with
      | running todo => rw [hst] at hended; cases hended
      | _ => simpa [hst, hst ▸ hended] using this
  | xpending n =>
    simp only [List.all_eq_true] at h
    refine ⟨trivial, ordered_of_demo hw ?_⟩
    intro x hmem hended
    simpa [hended] using h x hmem
  | _ => exact ⟨trivial, trivial⟩

def demoLife : List Act :=
  [.spawn 0, .giveUp 0, .loops 0, .issue 0 .consume, .read 0 1, .ack 0, .issue 0 .claimer,
    .spawn 1, .xinfo 1 (fun n => if n = 7 then 86400000 else 0), .sweep 1 .ok, .loops 1,
    .close 0, .claim 0 [], .xpending 0, .deregister 0 .ok]

theorem two_consumers_removed :
    ∃ w, Run (step (fun _ => {})) (fun w a => Lively (fun _ => {}) w a ∧ Ordered w a) demoGroup
        demoLife w ∧
      w.deletions.map Prod.fst = [7, 0] ∧ ∀ d ∈ w.deletions, d.2 = [] := by
  obtain ⟨w, hw, hp⟩ := exec_any (p := fun w => w.deletions.map Prod.fst == [7, 0])
    (show (exec (Run.guarded (step (fun _ => {})) (demoCheck 86400000)) demoGroup demoLife).any _ =
      true by decide)
  have hrun : Run (step (fun _ => {})) (fun w a => Lively (fun _ => {}) w a ∧ Ordered w a)
      demoGroup demoLife w := by
    refine .of_guarded (I := World.within) ?_ (fun _ _ hi hc => demoCheck_sound hi hc) ?_ hw
    · intro s a s' hi hc hs
      simp only [demoCheck, Bool.and_eq_true] at hc
      exact within_step hi hc.1 hs
    · intro n hn
      have : n ≠ 7 := by rintro rfl; simp [demoNames] at hn
      exact ⟨by simp [demoGroup, this], rfl⟩
  exact ⟨w, hrun, by simpa using hp, delconsumer_discards_nothing _ _ demoGroup_start _ _ hrun⟩

end Lifecycle
end Events
end TrShared
