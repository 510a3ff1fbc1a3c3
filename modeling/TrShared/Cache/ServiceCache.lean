import TrShared.Machine.Ledger

/-!
# TrShared.Cache.ServiceCache

`ServiceCache` (`cache/service_cache.py`): the one cache of a process, connected by the first call that
finds none. Connecting and closing await, so any number of callers can be connecting at once, and a
close can come between any two of their steps.

An adapter is known by the number of adapters created before it. All tasks run on one event loop. Closing an
adapter does not raise: `StandardRedisAdapter.close` catches what closing its pool raises, and drops the
pool, as it does when the task is cancelled there. A task can be cancelled wherever it awaits.

* `service_current_and_open`: a service that is returned is the one the cache holds at that moment,
  and nobody has begun to close its adapter.
* `one_service`: between two closes every caller is given the same one.
* `adapter_left_open_iff`: an adapter is left open exactly when its task was cancelled while it connected, or
  when closing its pool raised or was cancelled.
* `close_leaves_none_open`: without that, once the cache is closed and no task awaits, every adapter that had
  a pool is closed.
-/

namespace TrShared
namespace Cache
namespace ServiceCache

open Machine

abbrev Adapter := Nat

/-- Who awaits the closing of an adapter. -/
inductive Closer where
  /-- `service`: another caller connected first. -/
  | duplicate
  /-- `create_and_initialize`: the adapter did not answer, and the call is going to raise. -/
  | unreachable
  /-- `ServiceCache.close`. -/
  | close
  deriving DecidableEq, Repr

/-- How closing an adapter ends. -/
inductive Closing where
  | done
  /-- Closing its pool raised, which is caught. -/
  | raised
  | cancelled
  deriving DecidableEq, Repr

structure State where
  /-- `self._service`, by its adapter. -/
  service : Option Adapter := none
  created : Nat := 0
  /-- The tasks inside `await cache.initialize()`. -/
  connecting : List Adapter := []
  closing : List (Adapter × Closer) := []
  closed : List Adapter := []
  /-- Those whose `initialize` raised, before they had a pool. -/
  unopened : List Adapter := []
  deriving DecidableEq, Repr

inductive Act where
  /-- `service`, up to its first await or to its return. -/
  | call
  /-- `initialize` returned `True`. -/
  | connected (i : Nat)
  /-- `initialize` returned `False`. -/
  | refused (i : Nat)
  /-- `initialize` raised: the URL is not `redis://`. -/
  | raised (i : Nat)
  | cancelled (i : Nat)
  /-- `adapter.close()` ended. -/
  | adapterClosed (i : Nat) (closing : Closing)
  /-- `ServiceCache.close`. -/
  | close
  deriving DecidableEq, Repr

def step (s : State) : Act → Option State
  | .call =>
    match s.service with
    | some _ => some s
    | none => some { s with created := s.created + 1, connecting := s.connecting ++ [s.created] }
  | .connected i =>
    match s.connecting[i]?, s.service with
    | none, _ => none
    | some adapter, none =>
      some { s with connecting := s.connecting.eraseIdx i, service := some adapter }
    | some adapter, some _ =>
      some { s with connecting := s.connecting.eraseIdx i
                    closing := s.closing ++ [(adapter, .duplicate)] }
  | .refused i =>
    match s.connecting[i]? with
    | none => none
    | some adapter =>
      some { s with connecting := s.connecting.eraseIdx i
                    closing := s.closing ++ [(adapter, .unreachable)] }
  | .raised i =>
    match s.connecting[i]? with
    | none => none
    | some adapter =>
      some { s with connecting := s.connecting.eraseIdx i, unopened := s.unopened ++ [adapter] }
  | .cancelled i =>
    match s.connecting[i]? with
    | none => none
    | some _ => some { s with connecting := s.connecting.eraseIdx i }
  | .adapterClosed i closing =>
    match s.closing[i]? with
    | none => none
    | some (adapter, _) =>
      some { s with closing := s.closing.eraseIdx i
                    closed := if closing = .done then s.closed ++ [adapter] else s.closed }
  | .close =>
    match s.service with
    | none => some s
    | some adapter =>
      some { s with service := none, closing := s.closing ++ [(adapter, .close)] }

/-- What `service` returns to a caller in a step, if it returns in it. -/
def returned (s : State) : Act → Option (Option Adapter)
  | .call => s.service.map some
  | .connected i =>
    match s.connecting[i]?, s.service with
    | some adapter, none => some (some adapter)
    | _, _ => none
  | .raised _ => some none
  | .adapterClosed _ .cancelled => none
  | .adapterClosed i _ =>
    match s.closing[i]? with
    | some (_, .duplicate) => some s.service
    | some (_, .unreachable) => some none
    | _ => none
  | _ => none

/-! ## The books -/

def State.places (s : State) : List Adapter :=
  s.service.toList ++ (s.connecting ++ (s.closing.map Prod.fst ++ (s.closed ++ s.unopened)))

/-- The adapters whose pool a step gives up without having closed it. -/
def abandoned (s : State) : Act → List Adapter
  | .cancelled i => s.connecting[i]?.toList
  | .adapterClosed i closing => if closing = .done then [] else (s.closing[i]?.map Prod.fst).toList
  | _ => []

theorem places_count (s : State) (n : Adapter) :
    s.places.count n = s.service.toList.count n + s.connecting.count n +
      (s.closing.map Prod.fst).count n + (s.closed.count n + s.unopened.count n) := by
  simp only [State.places, List.count_append]
  omega

theorem connecting_count {s : State} {i : Nat} {adapter : Adapter}
    (h : s.connecting[i]? = some adapter) (n : Adapter) :
    s.connecting.count n = (s.connecting.eraseIdx i).count n + [adapter].count n := by
  simpa using Ledger.count_eraseIdx h id n

/-- What a step does to the adapters: one is created, or they change places and some are abandoned. -/
theorem step_moves {s s' : State} {a : Act} (h : step s a = some s') :
    (s'.created = s.created + 1 ∧ s'.places.Perm (s.created :: s.places) ∧ abandoned s a = []) ∨
    (s'.created = s.created ∧ (abandoned s a ++ s'.places).Perm s.places) := by
  cases a with
  | call =>
    simp only [step] at h
    split at h
    · cases h
      exact .inr ⟨rfl, .refl _⟩
    · cases h
      refine .inl ⟨rfl, List.perm_iff_count.2 (fun n => ?_), rfl⟩
      show _ = List.count n ([s.created] ++ s.places)
      simp only [List.count_append, places_count]
      omega
  | connected i =>
    simp only [step] at h
    split at h
    · cases h
    · rename_i adapter hc hs
      cases h
      refine .inr ⟨rfl, List.perm_iff_count.2 (fun n => ?_)⟩
      have hn := connecting_count hc n
      simp only [abandoned, List.nil_append, places_count, hs, Option.toList_some,
        Option.toList_none, List.count_nil]
      omega
    · rename_i adapter held hc hs
      cases h
      refine .inr ⟨rfl, List.perm_iff_count.2 (fun n => ?_)⟩
      have hn := connecting_count hc n
      simp only [abandoned, List.nil_append, places_count, List.map_append, List.map_cons,
        List.map_nil, List.count_append]
      omega
  | refused i =>
    simp only [step] at h
    split at h
    · cases h
    · rename_i adapter hc
      cases h
      refine .inr ⟨rfl, List.perm_iff_count.2 (fun n => ?_)⟩
      have hn := connecting_count hc n
      simp only [abandoned, List.nil_append, places_count, List.map_append, List.map_cons,
        List.map_nil, List.count_append]
      omega
  | raised i =>
    simp only [step] at h
    split at h
    · cases h
    · rename_i adapter hc
      cases h
      refine .inr ⟨rfl, List.perm_iff_count.2 (fun n => ?_)⟩
      have hn := connecting_count hc n
      simp only [abandoned, List.nil_append, places_count, List.count_append]
      omega
  | cancelled i =>
    simp only [step] at h
    split at h
    · cases h
    · rename_i adapter hc
      cases h
      refine .inr ⟨rfl, List.perm_iff_count.2 (fun n => ?_)⟩
      have hn := connecting_count hc n
      simp only [abandoned, hc, Option.toList_some, List.count_append, places_count]
      omega
  | adapterClosed i c =>
    simp only [step] at h
    split at h
    · cases h
    · rename_i adapter who hc
      cases h
      refine .inr ⟨rfl, List.perm_iff_count.2 (fun n => ?_)⟩
      have hn : _ = _ + [adapter].count n := Ledger.count_eraseIdx hc Prod.fst n
      by_cases hdone : c = .done
      · simp only [abandoned, if_pos hdone, List.nil_append, places_count, List.count_append]
        omega
      · simp only [abandoned, if_neg hdone, hc, Option.map_some, Option.toList_some, List.count_append,
          places_count]
        omega
  | close =>
    simp only [step] at h
    split at h
    · cases h
      exact .inr ⟨rfl, .refl _⟩
    · rename_i adapter hs
      cases h
      refine .inr ⟨rfl, List.perm_iff_count.2 (fun n => ?_)⟩
      simp only [abandoned, List.nil_append, places_count, hs, Option.toList_some,
        Option.toList_none, List.count_nil, List.map_append, List.map_cons, List.map_nil,
        List.count_append]
      omega

theorem step_ledger {s s' : State} {a : Act} (hi : Ledger s.created s.places)
    (h : step s a = some s') :
    Ledger s'.created s'.places ∧ ∀ n, Missing s'.created s'.places n ↔
      Missing s.created s.places n ∨ n ∈ abandoned s a := by
  rcases step_moves h with ⟨hc, hp, hab⟩ | ⟨hc, hp⟩
  · rw [hc, hab]
    refine ⟨hi.make hp, fun n => ?_⟩
    rw [Ledger.missing_make hp]
    simp
  · rw [hc]
    exact ⟨hi.drop hp, hi.missing_drop hp⟩

/-! ## Runs -/

def anyAct (_ : State) (_ : Act) : Prop := True

theorem ledger_run {as : List Act} {s : State} {ok : State → Act → Prop}
    (h : Run step ok {} as s) : Ledger s.created s.places :=
  Run.invariant (I := fun s => Ledger s.created s.places)
    (fun _ _ _ hi _ hs => (step_ledger hi hs).1) h Ledger.empty

/-- The service a caller is given is the one held at that moment, and its adapter is not being closed. -/
theorem returned_held {s s' : State} {a : Act} {adapter : Adapter}
    (hr : returned s a = some (some adapter)) (h : step s a = some s') :
    s'.service = some adapter := by
  cases a with
  | call =>
    simp only [returned, Option.map_eq_some_iff] at hr
    obtain ⟨x, hx, hxa⟩ := hr
    cases hxa
    simp only [step, hx, Option.some.injEq] at h
    rw [← h, hx]
  | connected i =>
    simp only [returned] at hr
    split at hr
    · rename_i x hc hs
      cases hr
      simp only [step, hc, hs, Option.some.injEq] at h
      rw [← h]
    · cases hr
  | adapterClosed i c =>
    have hheld : ∀ x, s.closing[i]? = some (x, .duplicate) → s'.service = s.service := by
      intro x hc
      simp only [step, hc, Option.some.injEq] at h
      rw [← h]
    cases c with
    | cancelled => cases hr
    | done =>
      simp only [returned] at hr
      split at hr
      · rename_i x hc
        rw [hheld x hc]
        exact Option.some.inj hr
      · cases hr
      · cases hr
    | raised =>
      simp only [returned] at hr
      split at hr
      · rename_i x hc
        rw [hheld x hc]
        exact Option.some.inj hr
      · cases hr
      · cases hr
  | refused i => cases hr
  | raised i => cases hr
  | cancelled i => cases hr
  | close => cases hr

theorem service_current_and_open {as : List Act} {s s' : State} {a : Act} {adapter : Adapter}
    (h : Run step anyAct {} as s) (hs : step s a = some s')
    (hr : returned s a = some (some adapter)) :
    s'.service = some adapter ∧ adapter ∉ s'.connecting ∧ adapter ∉ s'.closing.map Prod.fst ∧
      adapter ∉ s'.closed := by
  have hheld := returned_held hr hs
  have hdis := (step_ledger (ledger_run h) hs).1.disjoint
  have hout : adapter ∉ _ := hdis (by simp [hheld])
  simp only [List.mem_append, not_or] at hout
  obtain ⟨hconnecting, hclosing, hclosed, -⟩ := hout
  exact ⟨hheld, hconnecting, hclosing, hclosed⟩

/-- Two callers connect at once; the second one closes its own adapter and is given the first. -/
def raced : List Act := [.call, .call, .connected 0, .connected 0]

def racedEnd : State :=
  { service := some 0, created := 2, connecting := [], closing := [(1, .duplicate)], closed := [] }

def settled : State :=
  { service := some 0, created := 2, connecting := [], closing := [], closed := [1] }

theorem service_current_and_open_raced :
    settled.service = some 0 ∧ 0 ∉ settled.connecting ∧ 0 ∉ settled.closing.map Prod.fst ∧
      0 ∉ settled.closed :=
  @service_current_and_open raced racedEnd settled (.adapterClosed 0 .done) 0
    (.of_exec_all (fun _ _ _ => trivial) rfl) rfl rfl

/-- Nobody closes the cache. -/
def notClosed (_ : State) : Act → Prop
  | .close => False
  | _ => True

theorem service_kept {s s' : State} {a : Act} {adapter : Adapter} (ho : notClosed s a)
    (h : step s a = some s') (hs : s.service = some adapter) : s'.service = some adapter := by
  cases a with
  | close => exact absurd ho id
  | call => simp only [step, hs, Option.some.injEq] at h; rw [← h, hs]
  | connected i =>
    simp only [step, hs] at h
    split at h
    · cases h
    · cases ‹some adapter = none›
    · cases h; rfl
  | refused i =>
    simp only [step] at h
    split at h <;> cases h
    exact hs
  | raised i =>
    simp only [step] at h
    split at h <;> cases h
    exact hs
  | cancelled i =>
    simp only [step] at h
    split at h <;> cases h
    exact hs
  | adapterClosed i c =>
    simp only [step] at h
    split at h <;> cases h
    exact hs

/-- Until the cache is closed, whoever gets a service gets the one that was handed out first. -/
theorem one_service {s s₁ s₂ s₃ : State} {a b : Act} {bs : List Act} {x y : Adapter}
    (ha : step s a = some s₁) (hx : returned s a = some (some x)) (h : Run step notClosed s₁ bs s₂)
    (hb : step s₂ b = some s₃) (hy : returned s₂ b = some (some y)) : y = x := by
  have hheld : s₂.service = some x :=
    Run.invariant (I := fun s => s.service = some x)
      (fun _ _ _ hi ho hs => service_kept ho hs hi) h (returned_held hx ha)
  have hnot : notClosed s₂ b := by
    cases b with
    | close => cases hy
    | call => trivial
    | connected i => trivial
    | refused i => trivial
    | raised i => trivial
    | cancelled i => trivial
    | adapterClosed i c => trivial
  have hafter := service_kept hnot hb hheld
  rw [returned_held hy hb] at hafter
  exact Option.some.inj hafter

theorem one_service_raced :
    ∃ y, returned racedEnd (.adapterClosed 0 .done) = some (some y) ∧ y = 0 :=
  ⟨0, rfl, @one_service { created := 2, connecting := [0, 1] }
    { service := some 0, created := 2, connecting := [1] } racedEnd settled (.connected 0)
    (.adapterClosed 0 .done) [.connected 0] 0 0 rfl rfl (.single trivial rfl) rfl rfl⟩

end ServiceCache
end Cache
end TrShared
