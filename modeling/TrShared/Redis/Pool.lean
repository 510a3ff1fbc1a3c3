import TrShared.Machine.Ledger

/-!
# TrShared.Redis.Pool

`LoopBoundRedis` (`redis/pool.py`) and the process-wide client over it (`redis/client.py`). The tasks
of a process run on one thread, on any number of event loops one after the other; a task gives way to
others only where it awaits, and the one await is the closing of a pool. The URL is a plain `redis://` one:
with any other no client is ever made.

A pool is known by the number of pools built before it. Of one whose `aclose` raised or was cancelled nothing
is known: its connections can be open, and nobody refers to it.

* `handed_pool_open`: whatever the order of the calls, the client handed out uses a pool of the running
  loop that nobody has begun to close, and a pool is closed at most once, on its own loop.
* `pool_lost_iff`: a pool ends up neither in use nor closed exactly when a step of four kinds gave it
  up: a call from another loop, a close from another loop, the end of a close that overlapped with
  a new call, and the end of its own close with an exception.
* `one_loop_lost_iff`: on one loop, with no call while a close is awaiting, only the last kind is left.
-/

namespace TrShared
namespace Redis

open Machine

abbrev EventLoop := Nat

abbrev Pool := Nat

/-- `self._bound`. -/
structure LoopBoundRedis where
  bound : Option (EventLoop × Pool) := none
  deriving DecidableEq, Repr

/-- The pools of a process. -/
structure Pools where
  /-- The loop on which each was built. -/
  built : List EventLoop := []
  /-- The tasks that await `aclose`: on which loop, and of which pool. -/
  closing : List (EventLoop × Pool) := []
  closed : List Pool := []
  deriving DecidableEq, Repr

namespace LoopBoundRedis

/-- `(loop, Redis(connection_pool=self._build_pool()))`. -/
def build (loop : EventLoop) (w : Pools) : LoopBoundRedis × Pools :=
  (⟨some (loop, w.built.length)⟩, { w with built := w.built ++ [loop] })

/-- `LoopBoundRedis.client`, up to its `return self._bound[1]`. -/
def client (r : LoopBoundRedis) (loop : EventLoop) (w : Pools) : LoopBoundRedis × Pools :=
  match r.bound with
  | none => build loop w
  | some (bound, _) => if bound ≠ loop then build loop w else (r, w)

/-- `LoopBoundRedis.aclose`, up to its await; the flag says that it awaits. -/
def aclose (r : LoopBoundRedis) (loop : EventLoop) (w : Pools) : LoopBoundRedis × Pools × Bool :=
  match r.bound with
  | none => (⟨none⟩, w, false)
  | some (bound, pool) =>
    if bound = loop then (⟨none⟩, { w with closing := w.closing ++ [(loop, pool)] }, true)
    else (⟨none⟩, w, false)

end LoopBoundRedis

/-- `redis/client.py`: the module global `_redis`, and the pools. -/
structure Process where
  redis : Option LoopBoundRedis := none
  pools : Pools := {}
  deriving DecidableEq, Repr

/-- `get_redis_client`. -/
def getRedisClient (s : Process) (loop : EventLoop) : Process :=
  let (r, w) := (s.redis.getD {}).client loop s.pools
  ⟨some r, w⟩

/-- The pool of the client that `get_redis_client` returned. -/
def Process.handed (s : Process) : Option Pool := (s.redis.bind LoopBoundRedis.bound).map Prod.snd

/-- `close_redis_client`, up to its await, or to its end where it does not await. -/
def closeRedisClient (s : Process) (loop : EventLoop) : Process :=
  match s.redis with
  | none => s
  | some r =>
    match r.aclose loop s.pools with
    | (r, w, true) => ⟨some r, w⟩
    | (_, w, false) => ⟨none, w⟩

/-- A close ends. Where closing the pool raised or was cancelled, the exception leaves `close_redis_client`
before it clears the global. -/
def closeEnded (s : Process) (i : Nat) (raised : Bool) : Option Process :=
  match s.pools.closing[i]? with
  | none => none
  | some (_, pool) =>
    some { redis := if raised then s.redis else none
           pools := { s.pools with closing := s.pools.closing.eraseIdx i
                                   closed := if raised then s.pools.closed else s.pools.closed ++ [pool] } }

inductive PoolAct where
  | get (loop : EventLoop)
  | close (loop : EventLoop)
  | ended (i : Nat) (raised : Bool)
  deriving DecidableEq, Repr

def poolStep (s : Process) : PoolAct → Option Process
  | .get loop => some (getRedisClient s loop)
  | .close loop => some (closeRedisClient s loop)
  | .ended i raised => closeEnded s i raised

/-! ## The books -/

/-- What `_redis` is bound to. -/
def Process.bound (s : Process) : Option (EventLoop × Pool) := s.redis.bind LoopBoundRedis.bound

def Process.made (s : Process) : Nat := s.pools.built.length

/-- Where a pool can be: bound, being closed, closed. -/
def Process.places (s : Process) : List Pool :=
  (s.bound.map Prod.snd).toList ++ (s.pools.closing.map Prod.snd ++ s.pools.closed)

/-- The pools that a step gives up without having closed them. -/
def gaveUp (s : Process) : PoolAct → List Pool
  | .get loop => (s.bound.filter (fun b => b.1 != loop)).toList.map Prod.snd
  | .close loop => (s.bound.filter (fun b => b.1 != loop)).toList.map Prod.snd
  | .ended i raised =>
    if raised then (s.pools.closing[i]?.map Prod.snd).toList else s.bound.toList.map Prod.snd

structure Inv (s : Process) : Prop where
  ledger : Ledger s.made s.places
  bound : ∀ loop pool, s.bound = some (loop, pool) → s.pools.built[pool]? = some loop
  closing : ∀ b ∈ s.pools.closing, s.pools.built[b.2]? = some b.1

theorem LoopBoundRedis.client_cases (r : LoopBoundRedis) (loop : EventLoop) (w : Pools) :
    (∃ pool, r.bound = some (loop, pool) ∧ r.client loop w = (r, w)) ∨
    ((∀ pool, r.bound ≠ some (loop, pool)) ∧ r.client loop w = build loop w) := by
  unfold client
  cases h : r.bound with
  | none => exact .inr ⟨by simp, rfl⟩
  | some b =>
    obtain ⟨l, pool⟩ := b
    by_cases hl : l = loop
    · subst hl
      exact .inl ⟨pool, rfl, by simp⟩
    · refine .inr ⟨?_, by simp [hl]⟩
      intro p hp
      exact hl (congrArg Prod.fst (Option.some.inj hp))

/-- What a call to `get_redis_client` does: it keeps the pool of the running loop, or binds a new one. -/
theorem getRedisClient_cases (s : Process) (loop : EventLoop) :
    (∃ pool, s.bound = some (loop, pool) ∧ (getRedisClient s loop).pools = s.pools ∧
      (getRedisClient s loop).bound = some (loop, pool)) ∨
    ((∀ pool, s.bound ≠ some (loop, pool)) ∧
      (getRedisClient s loop).pools = { s.pools with built := s.pools.built ++ [loop] } ∧
      (getRedisClient s loop).bound = some (loop, s.made)) := by
  have hb : (s.redis.getD {}).bound = s.bound := by
    cases h : s.redis <;> simp [Process.bound, h]
  rcases (s.redis.getD {}).client_cases loop s.pools with ⟨pool, hp, hc⟩ | ⟨hp, hc⟩
  · rw [hb] at hp
    refine .inl ⟨pool, hp, by simp [getRedisClient, hc], ?_⟩
    simp only [getRedisClient, hc]
    exact hb.trans hp
  · rw [hb] at hp
    refine .inr ⟨hp, by simp [getRedisClient, hc, LoopBoundRedis.build], ?_⟩
    simp only [getRedisClient, hc]
    rfl

/-- What the synchronous part of `close_redis_client` does: it hands the pool of the running loop to a
closing task, or drops what is bound. -/
theorem closeRedisClient_cases (s : Process) (loop : EventLoop) :
    (∃ pool, s.bound = some (loop, pool) ∧ (closeRedisClient s loop).bound = none ∧
      (closeRedisClient s loop).pools =
        { s.pools with closing := s.pools.closing ++ [(loop, pool)] }) ∨
    ((∀ pool, s.bound ≠ some (loop, pool)) ∧ (closeRedisClient s loop).bound = none ∧
      (closeRedisClient s loop).pools = s.pools) := by
  cases hr : s.redis with
  | none =>
    exact .inr ⟨by simp [Process.bound, hr], by simp [closeRedisClient, Process.bound, hr],
      by simp [closeRedisClient, hr]⟩
  | some r =>
    have hb : s.bound = r.bound := by simp [Process.bound, hr]
    cases h : r.bound with
    | none =>
      refine .inr ⟨by simp [hb, h], ?_⟩
      simp [closeRedisClient, hr, LoopBoundRedis.aclose, h, Process.bound]
    | some b =>
      obtain ⟨l, pool⟩ := b
      by_cases hl : l = loop
      · subst hl
        refine .inl ⟨pool, by rw [hb, h], ?_⟩
        simp [closeRedisClient, hr, LoopBoundRedis.aclose, h, Process.bound]
      · refine .inr ⟨?_, ?_⟩
        · intro p hp
          rw [hb, h] at hp
          exact hl (congrArg Prod.fst (Option.some.inj hp))
        · simp [closeRedisClient, hr, LoopBoundRedis.aclose, h, hl, Process.bound]

theorem closeEnded_cases {s s' : Process} {i : Nat} {raised : Bool}
    (h : closeEnded s i raised = some s') :
    ∃ b, s.pools.closing[i]? = some b ∧ s'.bound = (if raised then s.bound else none) ∧
      s'.pools = { s.pools with closing := s.pools.closing.eraseIdx i
                                closed := if raised then s.pools.closed else s.pools.closed ++ [b.2] } := by
  unfold closeEnded at h
  split at h
  · cases h
  · rename_i l pool hi
    cases h
    refine ⟨(l, pool), hi, ?_, rfl⟩
    cases raised <;> simp [Process.bound]

/-- What is bound, if it is bound to another loop. -/
theorem gaveUp_stray {s : Process} {loop : EventLoop}
    (h : ∀ pool, s.bound ≠ some (loop, pool)) :
    (s.bound.filter (fun b => b.1 != loop)).toList.map Prod.snd =
      (s.bound.map Prod.snd).toList := by
  cases hb : s.bound with
  | none => rfl
  | some b =>
    have hne : b.1 ≠ loop := fun e => h b.2 (by rw [hb, ← e])
    simp [Option.filter, hne]

theorem gaveUp_own {s : Process} {loop : EventLoop} {pool : Pool}
    (h : s.bound = some (loop, pool)) :
    (s.bound.filter (fun b => b.1 != loop)).toList.map Prod.snd = [] := by
  simp [h, Option.filter]

theorem getElem?_append_built {built : List EventLoop} {pool : Pool} {loop loop' : EventLoop}
    (h : built[pool]? = some loop) : (built ++ [loop'])[pool]? = some loop := by
  rw [List.getElem?_append_left (List.getElem?_eq_some_iff.1 h).1, h]

/-- The step lemma: the books stay in order, and only what `gaveUp` lists goes missing. -/
theorem poolStep_books {s s' : Process} {a : PoolAct} (hi : Inv s) (h : poolStep s a = some s') :
    Inv s' ∧ ∀ pool, Missing s'.made s'.places pool ↔
      Missing s.made s.places pool ∨ pool ∈ gaveUp s a := by
  cases a with
  | get loop =>
    cases h
    rcases getRedisClient_cases s loop with ⟨pool, hb, hp, hb'⟩ | ⟨hb, hp, hb'⟩
    · have hm : (getRedisClient s loop).made = s.made := by simp [Process.made, hp]
      have hpl : (getRedisClient s loop).places = s.places := by
        simp [Process.places, hp, hb, hb']
      refine ⟨⟨by rw [hm, hpl]; exact hi.ledger, ?_, by rw [hp]; exact hi.closing⟩, ?_⟩
      · intro l p hlp
        rw [hp]
        exact hi.bound l p (by rw [hb, ← hlp, hb'])
      · intro p
        simp only [gaveUp]
        rw [gaveUp_own hb, hm, hpl]
        simp
    · -- the old binding is dropped first, and then the new pool is made
      have hm : (getRedisClient s loop).made = s.made + 1 := by simp [Process.made, hp]
      have hdrop : ((s.bound.map Prod.snd).toList ++
          (s.pools.closing.map Prod.snd ++ s.pools.closed)).Perm s.places := List.Perm.refl _
      have hmake : (getRedisClient s loop).places.Perm
          (s.made :: (s.pools.closing.map Prod.snd ++ s.pools.closed)) := by
        simp [Process.places, hp, hb']
      refine ⟨⟨by rw [hm]; exact (hi.ledger.drop hdrop).make hmake, ?_, ?_⟩, ?_⟩
      · intro l p hlp
        rw [hb'] at hlp
        cases hlp
        simp [hp, Process.made]
      · intro b hbm
        rw [hp] at hbm ⊢
        exact getElem?_append_built (hi.closing b hbm)
      · intro p
        rw [hm, Ledger.missing_make hmake, hi.ledger.missing_drop hdrop]
        simp only [gaveUp]
        rw [gaveUp_stray hb]
  | close loop =>
    cases h
    rcases closeRedisClient_cases s loop with ⟨pool, hb, hb', hp⟩ | ⟨hb, hb', hp⟩
    · have hm : (closeRedisClient s loop).made = s.made := by simp [Process.made, hp]
      have hmove : (closeRedisClient s loop).places.Perm s.places := by
        simp only [Process.places, hp, hb, hb', List.map_append, List.append_assoc]
        exact List.perm_middle
      refine ⟨⟨by rw [hm]; exact hi.ledger.move hmove, by simp [hb'], ?_⟩, ?_⟩
      · intro b hbm
        rw [hp] at hbm ⊢
        rcases List.mem_append.1 hbm with hbm | hbm
        · exact hi.closing b hbm
        · cases List.mem_singleton.1 hbm
          exact hi.bound loop pool hb
      · intro p
        rw [hm, Ledger.missing_move hmove]
        simp only [gaveUp]
        rw [gaveUp_own hb]
        simp
    · have hm : (closeRedisClient s loop).made = s.made := by simp [Process.made, hp]
      have hdrop : ((s.bound.map Prod.snd).toList ++ (closeRedisClient s loop).places).Perm
          s.places := by
        simp [Process.places, hp, hb']
      refine ⟨⟨by rw [hm]; exact hi.ledger.drop hdrop, by simp [hb'], by rw [hp]; exact hi.closing⟩,
        ?_⟩
      intro p
      rw [hm, hi.ledger.missing_drop hdrop]
      simp only [gaveUp]
      rw [gaveUp_stray hb]
  | ended i raised =>
    obtain ⟨b, hi', hb', hp⟩ := closeEnded_cases h
    have hm : s'.made = s.made := by simp [Process.made, hp]
    have hc := (Ledger.perm_eraseIdx hi').map Prod.snd
    have hdrop : (gaveUp s (.ended i raised) ++ s'.places).Perm s.places := by
      cases raised with
      | true =>
        -- the pool whose closing raised is given up; what is bound by now stays
        have hmoved := (hc.append_right s.pools.closed).append_left (s.bound.map Prod.snd).toList
        have hfront : (b.2 :: ((s.bound.map Prod.snd).toList ++
            ((s.pools.closing.eraseIdx i).map Prod.snd ++ s.pools.closed))).Perm
            ((s.bound.map Prod.snd).toList ++
              (b.2 :: ((s.pools.closing.eraseIdx i).map Prod.snd ++ s.pools.closed))) :=
          List.perm_middle.symm
        simpa [gaveUp, Process.places, hp, hb', hi'] using hfront.trans hmoved
      | false =>
        -- the pool of the ended close is closed; what is bound by now is dropped
        have hmoved : ((s.pools.closing.eraseIdx i).map Prod.snd ++ (s.pools.closed ++ [b.2])).Perm
            (s.pools.closing.map Prod.snd ++ s.pools.closed) := by
          rw [← List.append_assoc]
          exact List.perm_append_comm.trans (hc.append_right s.pools.closed)
        have hg : s.bound.toList.map Prod.snd = (s.bound.map Prod.snd).toList := by
          cases s.bound <;> rfl
        simpa [gaveUp, Process.places, hp, hb', hg] using hmoved.append_left _
    refine ⟨⟨by rw [hm]; exact hi.ledger.drop hdrop, ?_, ?_⟩, ?_⟩
    · intro l p hlp
      rw [hp]
      rw [hb'] at hlp
      split at hlp
      · exact hi.bound l p hlp
      · cases hlp
    · intro c hc
      rw [hp] at hc ⊢
      exact hi.closing c (List.mem_of_mem_eraseIdx hc)
    · intro p
      rw [hm, hi.ledger.missing_drop hdrop]

/-! ## Runs -/

def anyPoolAct (_ : Process) (_ : PoolAct) : Prop := True

theorem Inv.start : Inv {} := ⟨Ledger.empty, by simp [Process.bound], by simp⟩

theorem Inv.run {s : Process} {as : List PoolAct} (h : Run poolStep anyPoolAct {} as s) : Inv s :=
  h.invariant (fun _ _ _ hi _ hs => (poolStep_books hi hs).1) .start

/-- A client on loop 0, a call from loop 1, and a close on loop 1 that a second call overtakes. -/
def overtaken : List PoolAct := [.get 0, .get 1, .close 1, .get 1, .ended 0 false]

def overtakenEnd : Process :=
  { redis := none, pools := { built := [0, 1, 1], closing := [], closed := [1] } }

theorem overtaken_run : Run poolStep anyPoolAct {} overtaken overtakenEnd :=
  .of_exec_all (fun _ _ _ => trivial) rfl

/-- A client is handed out on the loop its pool was built on, and nobody has begun to close that pool;
a pool is closed once at most, by a task of its own loop. -/
theorem handed_pool_open {as : List PoolAct} {s : Process} (h : Run poolStep anyPoolAct {} as s) :
    (∀ loop, ∃ pool, (getRedisClient s loop).handed = some pool ∧
      (getRedisClient s loop).pools.built[pool]? = some loop ∧
      pool ∉ s.pools.closing.map Prod.snd ∧ pool ∉ s.pools.closed) ∧
    (∀ b ∈ s.pools.closing, s.pools.built[b.2]? = some b.1) ∧
    (s.pools.closing.map Prod.snd ++ s.pools.closed).Nodup := by
  have hi := Inv.run h
  refine ⟨?_, hi.closing, (List.nodup_append'.1 hi.ledger.nodup).2.1⟩
  intro loop
  have hi' : Inv (getRedisClient s loop) := (poolStep_books (a := .get loop) hi rfl).1
  obtain ⟨pool, hb, hc, hd⟩ : ∃ pool, (getRedisClient s loop).bound = some (loop, pool) ∧
      (getRedisClient s loop).pools.closing = s.pools.closing ∧
      (getRedisClient s loop).pools.closed = s.pools.closed := by
    rcases getRedisClient_cases s loop with ⟨pool, _, hp, hb⟩ | ⟨_, hp, hb⟩
    · exact ⟨pool, hb, by rw [hp], by rw [hp]⟩
    · exact ⟨s.made, hb, by rw [hp], by rw [hp]⟩
  have hdis := hi'.ledger.disjoint
  rw [hb, hc, hd] at hdis
  have hout : pool ∉ s.pools.closing.map Prod.snd ++ s.pools.closed := hdis (by simp)
  rw [List.mem_append, not_or] at hout
  exact ⟨pool, congrArg (Option.map Prod.snd) hb, hi'.bound loop pool hb, hout.1, hout.2⟩

theorem handed_pool_open_overtaken :
    (∀ loop, ∃ pool, (getRedisClient overtakenEnd loop).handed = some pool ∧
      (getRedisClient overtakenEnd loop).pools.built[pool]? = some loop ∧
      pool ∉ overtakenEnd.pools.closing.map Prod.snd ∧ pool ∉ overtakenEnd.pools.closed) ∧
    (∀ b ∈ overtakenEnd.pools.closing, overtakenEnd.pools.built[b.2]? = some b.1) ∧
    (overtakenEnd.pools.closing.map Prod.snd ++ overtakenEnd.pools.closed).Nodup :=
  handed_pool_open overtaken_run

/-- The exact leak: a pool that is neither bound nor being closed nor closed was given up by a step, and
what a step gives up is never closed. -/
theorem pool_lost_iff {as : List PoolAct} {s : Process} (h : Run poolStep anyPoolAct {} as s)
    (pool : Pool) :
    Missing s.made s.places pool ↔
      ∃ bs a cs s₁, as = bs ++ a :: cs ∧ Run poolStep anyPoolAct {} bs s₁ ∧ pool ∈ gaveUp s₁ a := by
  rw [missing_iff (fun _ _ _ hi _ hs => (poolStep_books hi hs).1)
    (fun _ _ _ hi _ hs => (poolStep_books hi hs).2) h .start]
  exact or_iff_right Ledger.not_missing_empty

/-- Pool 0 was left on the first loop, pool 2 was cleared away by the end of the close. -/
theorem pool_lost_overtaken :
    (∃ bs a cs s₁, overtaken = bs ++ a :: cs ∧ Run poolStep anyPoolAct {} bs s₁ ∧
      0 ∈ gaveUp s₁ a) ∧
    ∃ bs a cs s₁, overtaken = bs ++ a :: cs ∧ Run poolStep anyPoolAct {} bs s₁ ∧
      2 ∈ gaveUp s₁ a :=
  ⟨(pool_lost_iff overtaken_run 0).1 ⟨by decide, by decide⟩,
    (pool_lost_iff overtaken_run 2).1 ⟨by decide, by decide⟩⟩

/-! ## One loop -/

/-- Everything runs on one loop, and nobody asks for a client while a close is awaiting. -/
def oneLoop (loop : EventLoop) (s : Process) : PoolAct → Prop
  | .get l => l = loop ∧ s.pools.closing = []
  | .close l => l = loop
  | .ended _ _ => True

/-- While a close is awaiting nothing is bound, and what is bound is bound to the loop. -/
structure OneLoopInv (loop : EventLoop) (s : Process) : Prop where
  books : Inv s
  idle : s.pools.closing ≠ [] → s.bound = none
  loop : ∀ b, s.bound = some b → b.1 = loop

/-- The pool of a close that ends with an exception. -/
def failed (s : Process) : PoolAct → List Pool
  | .ended i true => (s.pools.closing[i]?.map Prod.snd).toList
  | _ => []

theorem OneLoopInv.gaveUp_failed {loop : EventLoop} {s s' : Process} {a : PoolAct}
    (hi : OneLoopInv loop s) (ho : oneLoop loop s a) (h : poolStep s a = some s') :
    gaveUp s a = failed s a := by
  have hown : (s.bound.filter (fun b => b.1 != loop)).toList.map Prod.snd = [] := by
    cases hb : s.bound with
    | none => rfl
    | some b => simp [Option.filter, hi.loop b hb]
  cases a with
  | get l =>
    obtain ⟨rfl, _⟩ := ho
    exact hown
  | close l =>
    cases ho
    exact hown
  | ended i raised =>
    obtain ⟨b, hb, _, _⟩ := closeEnded_cases h
    have hne : s.pools.closing ≠ [] := by
      intro he
      rw [he] at hb
      cases hb
    cases raised with
    | true => rfl
    | false => simp [gaveUp, failed, hi.idle hne]

theorem OneLoopInv.step {loop : EventLoop} {s s' : Process} {a : PoolAct}
    (hi : OneLoopInv loop s) (ho : oneLoop loop s a) (h : poolStep s a = some s') :
    OneLoopInv loop s' := by
  refine ⟨(poolStep_books hi.books h).1, ?_, ?_⟩
  · cases a with
    | get l =>
      cases h
      obtain ⟨rfl, hc⟩ := ho
      intro hne
      rcases getRedisClient_cases s l with ⟨_, _, hp, _⟩ | ⟨_, hp, _⟩ <;>
        · rw [hp] at hne
          exact absurd hc hne
    | close l =>
      cases h
      intro _
      rcases closeRedisClient_cases s l with ⟨_, _, hb, _⟩ | ⟨_, hb, _⟩ <;> exact hb
    | ended i raised =>
      obtain ⟨b, hb, hb', _⟩ := closeEnded_cases h
      intro _
      have hne : s.pools.closing ≠ [] := by
        intro he
        rw [he] at hb
        cases hb
      rw [hb', hi.idle hne, ite_self]
  · intro b hb
    cases a with
    | get l =>
      cases h
      obtain ⟨rfl, hc⟩ := ho
      rcases getRedisClient_cases s l with ⟨_, _, _, hb'⟩ | ⟨_, _, hb'⟩ <;>
        · rw [hb'] at hb
          cases hb
          rfl
    | close l =>
      cases h
      rcases closeRedisClient_cases s l with ⟨_, _, hb', _⟩ | ⟨_, hb', _⟩ <;>
        · rw [hb'] at hb
          cases hb
    | ended i raised =>
      obtain ⟨_, _, hb', _⟩ := closeEnded_cases h
      rw [hb'] at hb
      split at hb
      · exact hi.loop b hb
      · cases hb

/-- On one loop, with no call while a close is awaiting, a pool is lost exactly if its own closing raised or
was cancelled; and if none did, every pool ever built is closed after a close that has ended. -/
theorem one_loop_lost_iff {loop : EventLoop} {as : List PoolAct} {s : Process}
    (h : Run poolStep (oneLoop loop) {} as s) :
    (∀ pool, Missing s.made s.places pool ↔
      ∃ bs a cs s₁, as = bs ++ a :: cs ∧ Run poolStep (oneLoop loop) {} bs s₁ ∧ pool ∈ failed s₁ a) ∧
    ((∀ i, .ended i true ∉ as) → s.bound = none → s.pools.closing = [] →
      s.pools.closed.Perm (List.range s.made)) := by
  have hstart : OneLoopInv loop {} := ⟨.start, by simp, by simp [Process.bound]⟩
  have hi : OneLoopInv loop s := h.invariant (fun _ _ _ hi ho hs => hi.step ho hs) hstart
  have hlost : ∀ pool, Missing s.made s.places pool ↔
      ∃ bs a cs s₁, as = bs ++ a :: cs ∧ Run poolStep (oneLoop loop) {} bs s₁ ∧ pool ∈ failed s₁ a := by
    intro pool
    rw [missing_iff (I := OneLoopInv loop) (fun _ _ _ hi ho hs => hi.step ho hs)
      (fun _ _ _ hi ho hs n => by rw [(poolStep_books hi.books hs).2 n, hi.gaveUp_failed ho hs]) h hstart]
    exact or_iff_right Ledger.not_missing_empty
  refine ⟨hlost, fun hnone hb hc => ?_⟩
  have hplaces : s.places = s.pools.closed := by simp [Process.places, hb, hc]
  have hall : ∀ pool < s.made, pool ∈ s.pools.closed := by
    intro pool hlt
    by_contra hn
    obtain ⟨bs, a, cs, s₁, has, -, hfailed⟩ := (hlost pool).1 ⟨hlt, by rwa [hplaces]⟩
    rcases a with _ | _ | ⟨i, _ | _⟩
    · cases hfailed
    · cases hfailed
    · cases hfailed
    · exact hnone i (by rw [has]; simp)
  have hnd : s.pools.closed.Nodup := hplaces ▸ hi.books.ledger.nodup
  refine (List.perm_ext_iff_of_nodup hnd List.nodup_range).2 (fun pool => ?_)
  rw [List.mem_range]
  exact ⟨fun hm => hi.books.ledger.lt pool (hplaces ▸ hm), hall pool⟩

/-- The first close ends with an exception, and the second one does not. -/
def orderly : List PoolAct := [.get 0, .get 0, .close 0, .ended 0 true, .get 0, .close 0, .ended 0 false]

def orderlyEnd : Process :=
  { redis := none, pools := { built := [0, 0], closing := [], closed := [1] } }

theorem one_loop_lost_orderly :
    ∃ bs a cs s₁, orderly = bs ++ a :: cs ∧ Run poolStep (oneLoop 0) {} bs s₁ ∧ 0 ∈ failed s₁ a :=
  ((@one_loop_lost_iff 0 orderly orderlyEnd
    (.cons ⟨rfl, rfl⟩ rfl (.cons ⟨rfl, rfl⟩ rfl (.cons rfl rfl (.cons trivial rfl
      (.cons ⟨rfl, rfl⟩ rfl (.cons rfl rfl (.cons trivial rfl .nil)))))))).1 0).1 ⟨by decide, by decide⟩

end Redis
end TrShared
