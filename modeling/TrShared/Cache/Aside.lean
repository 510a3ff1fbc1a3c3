import TrShared.Machine.Expiring
import TrShared.Machine.Run
import TrShared.Machine.Shared
import TrShared.Python.JsonRoundTrip

/-!
# TrShared.Cache.Aside

`CacheService.get_or_set`, `set` and `delete` (`cache/service.py`): any number of calls of any processes
over one Redis. A call awaits between its `GET`, its `fetch_func` and its `SETEX`, and `fetch_func` awaits
before and after it reads what it returns, so everything else can happen there: other calls, deletes, the
expiry of the key. Every command can fail, before it took effect or after. Values are JSON values:
`default=str` has nothing to do.

What is stored remembers which data it was written from and when that was read; nothing depends on
that but the properties.

* `returned_was_fetched`: whatever a call returns was fetched for its own key, by itself or by the call
  that stored it, and what it finds in the cache was stored less than a ttl ago.
* `no_hit_older_than_delete`: once a key was deleted while no call had data in hand that was read for it, no
  call ever finds data that was read before; a call that does have such data brings it back.
-/

namespace TrShared
namespace Cache
namespace Aside

open Machine Python

abbrev CallId := Nat

/-- A value under a key. -/
structure Stored where
  text : String
  /-- What it was written from, and the step in which that was read. -/
  data : Json
  fetched : Nat
  /-- Milliseconds. -/
  storedAt : Nat
  ttl : Nat
  deriving DecidableEq

inductive Phase where
  /-- `get` found nothing, or failed, and `fetch_func` has not read anything yet. -/
  | fetching
  /-- `fetch_func` has read what it is going to return. -/
  | fetched (data : Json) (fetched : Nat)
  /-- `fetch_func` returned, and `SETEX` is to be sent. -/
  | holding (data : Json) (fetched : Nat)
  | returned (value : Json)
  | raised
  deriving DecidableEq

/-- What was read and is not stored yet. -/
def Phase.inHand : Phase → Option (Json × Nat)
  | .fetched data n => some (data, n)
  | .holding data n => some (data, n)
  | _ => none

structure Call where
  key : String
  ttl : Nat
  phase : Phase
  /-- What `get` found. -/
  hit : Option Stored := none
  deriving DecidableEq

/-- The service: `max_value_bytes`, with 0 for no limit, and the floats of `json`. -/
structure Config where
  maxValueBytes : Nat := 1048576
  floats : Floats

structure World where
  /-- Milliseconds. -/
  now : Nat := 0
  /-- The steps taken so far. -/
  steps : Nat := 0
  store : Expiring String Stored := {}
  calls : CallId → Option Call := fun _ => none
  /-- What was read by `fetch_func` or set for which key, and in which step. -/
  sources : List (String × Json × Nat) := []

namespace World

def setCall (w : World) (id : CallId) (c : Call) : World :=
  { w with calls := Function.update w.calls id (some c) }

/-- One more step was taken. -/
def stepped (w : World) : World := { w with steps := w.steps + 1 }

end World

variable (cfg : Config)

/-- The serialized value exceeds `max_value_bytes`. -/
def oversized (text : String) : Bool :=
  cfg.maxValueBytes != 0 && decide (cfg.maxValueBytes < text.utf8ByteSize)

/-- `SETEX` (Redis refuses a ttl of 0), as `set` sends it. -/
def setex (w : World) (key : String) (ttl : Nat) (data : Json) (fetched : Nat) (reply : Reply) :
    World :=
  let text := dumps cfg.floats data
  if oversized cfg text || ttl == 0 || !reply.took then w
  else
    { w with store := w.store.set w.now key ⟨text, data, fetched, w.now, ttl⟩ (ttl * 1000) }

/-- `CacheService.get`: `None` for a key that is not there, for `null`, for a text that is not JSON and
for a command that failed. -/
def lookup (w : World) (key : String) (reply : Reply) : Option (Json × Stored) :=
  if reply.returned then
    match w.store.get w.now key with
    | none => none
    | some t =>
      match loads cfg.floats t.value.text with
      | none => none
      | some v => if v = .null then none else some (v, t.value)
  else none

inductive Act where
  | tick (dt : Nat)
  /-- A new call of `get_or_set`, up to the end of its `get`. -/
  | getOrSet (id : CallId) (key : String) (ttl : Nat) (reply : Reply)
  /-- Its `fetch_func` reads what it is going to return. -/
  | read (id : CallId) (data : Json)
  /-- Its `fetch_func` returns, or raises. -/
  | fetch (id : CallId) (raised : Bool)
  /-- Its `set`, and the end of the call. -/
  | fill (id : CallId) (reply : Reply)
  /-- A call of `set`. -/
  | set (key : String) (value : Json) (ttl : Nat) (nx : Bool) (reply : Reply)
  /-- A call of `delete`. -/
  | delete (keys : List String) (reply : Reply)

def step (w : World) : Act → Option World
  | .tick dt => some { w with now := w.now + dt }.stepped
  | .getOrSet id key ttl reply =>
    match w.calls id with
    | some _ => none
    | none =>
      match lookup cfg w key reply with
      | some (v, s) => some (w.setCall id ⟨key, ttl, .returned v, some s⟩).stepped
      | none => some (w.setCall id ⟨key, ttl, .fetching, none⟩).stepped
  | .read id data =>
    match w.calls id with
    | some ⟨key, ttl, .fetching, hit⟩ =>
      some { w.setCall id ⟨key, ttl, .fetched data w.steps, hit⟩ with
        sources := w.sources ++ [(key, data, w.steps)] }.stepped
    | _ => none
  | .fetch id raised =>
    match w.calls id with
    | some ⟨key, ttl, .fetching, hit⟩ =>
      if raised then some (w.setCall id ⟨key, ttl, .raised, hit⟩).stepped else none
    | some ⟨key, ttl, .fetched data fetched, hit⟩ =>
      if raised then some (w.setCall id ⟨key, ttl, .raised, hit⟩).stepped
      else if data = .null then some (w.setCall id ⟨key, ttl, .returned .null, hit⟩).stepped
      else some (w.setCall id ⟨key, ttl, .holding data fetched, hit⟩).stepped
    | _ => none
  | .fill id reply =>
    match w.calls id with
    | some ⟨key, ttl, .holding data fetched, hit⟩ =>
      some ((setex cfg w key ttl data fetched reply).setCall id ⟨key, ttl, .returned data, hit⟩).stepped
    | _ => none
  | .set key value ttl nx reply =>
    if nx && (w.store.get w.now key).isSome then some w.stepped
    else
      some { setex cfg w key ttl value w.steps reply with
        sources := w.sources ++ [(key, value, w.steps)] }.stepped
  | .delete keys reply =>
    if reply.took then some { w with store := keys.foldl Expiring.del w.store }.stepped
    else some w.stepped

/-! ## Where a value comes from -/

/-- What is under a key was written from data of that key, and is there until its ttl is over. -/
structure Stored.Sound (w : World) (key : String) (t : Timed Stored) : Prop where
  text : t.value.text = dumps cfg.floats t.value.data
  source : (key, t.value.data, t.value.fetched) ∈ w.sources
  expires : t.expireAt = t.value.storedAt + t.value.ttl * 1000

/-- What a call has in hand, found or returned. -/
def Call.Sound (w : World) (c : Call) : Prop :=
  match c.phase with
  | .fetched data fetched => c.hit = none ∧ (c.key, data, fetched) ∈ w.sources
  | .holding data fetched => c.hit = none ∧ (c.key, data, fetched) ∈ w.sources
  | .returned v =>
    match c.hit with
    | none => v = .null ∨ ∃ fetched, (c.key, v, fetched) ∈ w.sources
    | some s => loads cfg.floats s.text = some v ∧ s.text = dumps cfg.floats s.data ∧
        (c.key, s.data, s.fetched) ∈ w.sources
  | .fetching => c.hit = none
  | .raised => True

structure Inv (w : World) : Prop where
  stored : ∀ key t, w.store.slot key = some t → Stored.Sound cfg w key t
  call : ∀ id c, w.calls id = some c → Call.Sound cfg w c
  past : ∀ p ∈ w.sources, p.2.2 < w.steps

section Invariant

variable {cfg} {w w' : World}

theorem Call.Sound.mono {c : Call} (h : Call.Sound cfg w c)
    (hsrc : ∀ p ∈ w.sources, p ∈ w'.sources) : Call.Sound cfg w' c := by
  obtain ⟨key, ttl, phase, hit⟩ := c
  cases phase with
  | fetched data fetched => exact ⟨h.1, hsrc _ h.2⟩
  | holding data fetched => exact ⟨h.1, hsrc _ h.2⟩
  | returned v =>
    cases hit with
    | none => exact Or.imp_right (fun ⟨fetched, hf⟩ => ⟨fetched, hsrc _ hf⟩) h
    | some s => exact ⟨h.1, h.2.1, hsrc _ h.2.2⟩
  | fetching => exact h
  | raised => trivial

/-- A step keeps the invariant if whatever it adds is sound and no source is forgotten. -/
theorem Inv.mono (h : Inv cfg w)
    (hstored : ∀ key t, w'.store.slot key = some t →
      w.store.slot key = some t ∨ Stored.Sound cfg w' key t)
    (hcall : ∀ id c, w'.calls id = some c → w.calls id = some c ∨ Call.Sound cfg w' c)
    (hsrc : ∀ p ∈ w.sources, p ∈ w'.sources) (hpast : ∀ p ∈ w'.sources, p.2.2 < w'.steps) :
    Inv cfg w' where
  stored key t ht := by
    rcases hstored key t ht with hold | hnew
    · obtain ⟨h1, h2, h3⟩ := h.stored key t hold
      exact ⟨h1, hsrc _ h2, h3⟩
    · exact hnew
  call id c hc := by
    rcases hcall id c hc with hold | hnew
    · exact (h.call id c hold).mono hsrc
    · exact hnew
  past := hpast

theorem setCall_calls {id id' : CallId} {c c' : Call} (h : (w.setCall id c).calls id' = some c') :
    w.calls id' = some c' ∨ (id' = id ∧ c' = c) := by
  simp only [World.setCall, Function.update_apply] at h
  split at h
  · rename_i he
    exact .inr ⟨he, (Option.some.inj h).symm⟩
  · exact .inl h

/-- What `SETEX` leaves under a key: what was there, or what it was sent with. -/
theorem setex_slot {key key' : String} {ttl fetched : Nat} {data : Json} {reply : Reply}
    {t : Timed Stored} (h : (setex cfg w key ttl data fetched reply).store.slot key' = some t) :
    w.store.slot key' = some t ∨ (key' = key ∧
      t = ⟨⟨dumps cfg.floats data, data, fetched, w.now, ttl⟩, w.now + ttl * 1000⟩) := by
  simp only [setex] at h
  split at h
  · exact .inl h
  · by_cases hk : key' = key
    · subst hk
      rw [Expiring.set_slot_self] at h
      exact .inr ⟨rfl, (Option.some.inj h).symm⟩
    · rw [Expiring.set_slot_of_ne hk] at h
      exact .inl h

theorem setex_rest (w : World) (key : String) (ttl fetched : Nat) (data : Json) (reply : Reply) :
    (setex cfg w key ttl data fetched reply).calls = w.calls ∧
      (setex cfg w key ttl data fetched reply).sources = w.sources ∧
      (setex cfg w key ttl data fetched reply).steps = w.steps ∧
      (setex cfg w key ttl data fetched reply).now = w.now := by
  simp only [setex]
  split <;> simp only [and_self]

theorem foldl_del_slot (keys : List String) (s : Expiring String Stored) (key : String) :
    (keys.foldl Expiring.del s).slot key = if key ∈ keys then none else s.slot key := by
  induction keys generalizing s with
  | nil => simp
  | cons k keys ih =>
    rw [List.foldl_cons, ih]
    by_cases hk : key = k
    · subst hk
      simp
    · rw [Expiring.del_slot_of_ne hk]
      simp [hk]

/-- What `get` finds is under the key, not expired, and the text says what it returns. -/
theorem lookup_some {key : String} {reply : Reply} {v : Json} {s : Stored}
    (h : lookup cfg w key reply = some (v, s)) :
    (∃ t, w.store.slot key = some t ∧ t.value = s ∧ w.now ≤ t.expireAt) ∧
      loads cfg.floats s.text = some v ∧ v ≠ .null := by
  unfold lookup at h
  split at h
  · split at h
    · cases h
    · rename_i t ht
      split at h
      · cases h
      · rename_i v' hv
        split at h
        · cases h
        · rename_i hne
          cases h
          obtain ⟨hslot, hnow⟩ := Expiring.get_eq_some.1 ht
          exact ⟨⟨t, hslot, rfl, hnow⟩, hv, hne⟩
  · cases h

/-- `fetch_func` ends: the call raises, returns `None` or keeps what was read. -/
theorem fetch_cases {id : CallId} {raised : Bool} (h : step cfg w (.fetch id raised) = some w') :
    ∃ key ttl hit phase phase', w.calls id = some ⟨key, ttl, phase, hit⟩ ∧
      w' = (w.setCall id ⟨key, ttl, phase', hit⟩).stepped ∧
      (phase = .fetching ∨ ∃ data fetched, phase = .fetched data fetched) ∧
      (phase' = .raised ∨ phase' = .returned .null ∨
        ∃ data fetched, phase = .fetched data fetched ∧ phase' = .holding data fetched) := by
  simp only [step] at h
  split at h
  · rename_i key ttl hit hc
    split at h <;> cases h
    exact ⟨key, ttl, hit, _, _, hc, rfl, .inl rfl, .inl rfl⟩
  · rename_i key ttl data fetched hit hc
    split at h
    · cases h
      exact ⟨key, ttl, hit, _, _, hc, rfl, .inr ⟨data, fetched, rfl⟩, .inl rfl⟩
    · split at h <;> cases h
      · exact ⟨key, ttl, hit, _, _, hc, rfl, .inr ⟨data, fetched, rfl⟩, .inr (.inl rfl)⟩
      · exact ⟨key, ttl, hit, _, _, hc, rfl, .inr ⟨data, fetched, rfl⟩, .inr (.inr ⟨data, fetched, rfl, rfl⟩)⟩
  · cases h

theorem step_steps {a : Act} (h : step cfg w a = some w') : w'.steps = w.steps + 1 := by
  cases a with
  | tick dt => cases h; rfl
  | getOrSet id key ttl reply =>
    simp only [step] at h
    split at h
    · cases h
    · split at h <;> cases h <;> rfl
  | read id data =>
    simp only [step] at h
    split at h <;> cases h
    rfl
  | fetch id raised =>
    obtain ⟨key, ttl, hit, phase, phase', -, rfl, -⟩ := fetch_cases h
    rfl
  | fill id reply =>
    simp only [step] at h
    split at h
    · cases h
      simp only [World.stepped, World.setCall, (setex_rest _ _ _ _ _ _).2.2.1]
    · cases h
  | set key value ttl nx reply =>
    simp only [step] at h
    split at h <;> cases h
    · rfl
    · simp only [World.stepped, (setex_rest _ _ _ _ _ _).2.2.1]
  | delete keys reply =>
    simp only [step] at h
    split at h <;> cases h <;> rfl

theorem step_inv {a : Act} (hi : Inv cfg w) (h : step cfg w a = some w') : Inv cfg w' := by
  have hpast : ∀ p ∈ w.sources, p.2.2 < w.steps + 1 := fun p hp => Nat.lt_succ_of_lt (hi.past p hp)
  cases a with
  | tick dt =>
    cases h
    exact hi.mono (fun _ _ h => .inl h) (fun _ _ h => .inl h) (fun _ h => h) hpast
  | getOrSet id key ttl reply =>
    simp only [step] at h
    split at h
    · cases h
    · split at h
      · rename_i v s hl
        cases h
        obtain ⟨⟨t, ht, rfl, _⟩, hv, _⟩ := lookup_some hl
        have hs := hi.stored key t ht
        refine hi.mono (fun _ _ h => .inl h) ?_ (fun _ h => h) hpast
        intro id' c hc
        refine (setCall_calls (w := w) hc).imp_right ?_
        rintro ⟨rfl, rfl⟩
        exact ⟨hv, hs.text, hs.source⟩
      · cases h
        refine hi.mono (fun _ _ h => .inl h) ?_ (fun _ h => h) hpast
        intro id' c hc
        refine (setCall_calls (w := w) hc).imp_right ?_
        rintro ⟨rfl, rfl⟩
        rfl
  | read id data =>
    simp only [step] at h
    split at h
    · rename_i key ttl hit hc₀
      have hhit : hit = none := hi.call id _ hc₀
      subst hhit
      cases h
      refine hi.mono (fun _ _ h => .inl h) ?_ (fun _ h => List.mem_append_left _ h) ?_
      · intro id' c hc
        refine (setCall_calls (w := w) hc).imp_right ?_
        rintro ⟨rfl, rfl⟩
        exact ⟨rfl, List.mem_append_right _ (List.mem_singleton.2 rfl)⟩
      · intro p hp
        rcases List.mem_append.1 hp with hp | hp
        · exact hpast p hp
        · cases List.mem_singleton.1 hp
          exact Nat.lt_succ_self _
    · cases h
  | fetch id raised =>
    obtain ⟨key, ttl, hit, phase, phase', hc₀, rfl, hphase, hphase'⟩ := fetch_cases h
    have hsound := hi.call id _ hc₀
    have hhit : hit = none := by
      rcases hphase with rfl | ⟨data, fetched, rfl⟩
      · exact hsound
      · exact hsound.1
    subst hhit
    refine hi.mono (fun _ _ h => .inl h) ?_ (fun _ h => h) hpast
    intro id' c hc
    refine (setCall_calls (w := w) hc).imp_right ?_
    rintro ⟨rfl, rfl⟩
    rcases hphase' with rfl | rfl | ⟨data, fetched, rfl, rfl⟩
    · trivial
    · exact .inl rfl
    · exact ⟨rfl, hsound.2⟩
  | fill id reply =>
    simp only [step] at h
    split at h
    · rename_i key ttl data fetched hit hc₀
      cases h
      obtain ⟨hhit, hsrc⟩ : hit = none ∧ (key, data, fetched) ∈ w.sources := hi.call id _ hc₀
      obtain ⟨hcalls, hsources, hsteps, _⟩ := @setex_rest cfg w key ttl fetched data reply
      refine hi.mono ?_ ?_ (fun p hp => hsources.symm ▸ hp) ?_
      · intro key' t ht
        refine (setex_slot ht).imp_right ?_
        rintro ⟨rfl, rfl⟩
        exact ⟨rfl, hsources.symm ▸ hsrc, rfl⟩
      · intro id' c hc
        rcases setCall_calls (w := setex cfg w key ttl data fetched reply) hc with hold | ⟨rfl, rfl⟩
        · exact .inl (hcalls ▸ hold)
        · subst hhit
          exact .inr (.inr ⟨fetched, hsources.symm ▸ hsrc⟩)
      · intro p hp
        show p.2.2 < (setex cfg w key ttl data fetched reply).steps + 1
        rw [hsteps]
        exact hpast p (hsources ▸ hp)
    · cases h
  | set key value ttl nx reply =>
    simp only [step] at h
    split at h
    · cases h
      exact hi.mono (fun _ _ h => .inl h) (fun _ _ h => .inl h) (fun _ h => h) hpast
    · cases h
      obtain ⟨hcalls, _, hsteps, _⟩ := @setex_rest cfg w key ttl w.steps value reply
      refine hi.mono ?_ (fun _ _ hc => .inl (hcalls ▸ hc)) (fun _ hp => List.mem_append_left _ hp) ?_
      · intro key' t ht
        refine (setex_slot ht).imp_right ?_
        rintro ⟨rfl, rfl⟩
        exact ⟨rfl, List.mem_append_right _ (List.mem_singleton.2 rfl), rfl⟩
      · intro p hp
        show p.2.2 < (setex cfg w key ttl value w.steps reply).steps + 1
        rw [hsteps]
        rcases List.mem_append.1 hp with hp | hp
        · exact hpast p hp
        · cases List.mem_singleton.1 hp
          exact Nat.lt_succ_self _
  | delete keys reply =>
    simp only [step] at h
    split at h
    · cases h
      refine hi.mono ?_ (fun _ _ h => .inl h) (fun _ h => h) hpast
      intro key t ht
      have hslot := foldl_del_slot keys w.store key
      rw [if_neg (by intro hk; rw [if_pos hk] at hslot; cases hslot.symm.trans ht)] at hslot
      exact .inl (hslot ▸ ht)
    · cases h
      exact hi.mono (fun _ _ h => .inl h) (fun _ _ h => .inl h) (fun _ h => h) hpast

end Invariant

/-! ## What a call returns -/

def anyAct (_ : World) (_ : Act) : Prop := True

theorem Inv.start : Inv cfg {} := ⟨by simp, by simp, by simp⟩

theorem Inv.run {as : List Act} {w : World} (h : Run (step cfg) anyAct {} as w) : Inv cfg w :=
  h.invariant (fun _ _ _ hi _ hs => step_inv hi hs) (Inv.start cfg)

def demoConfig : Config := ⟨0, noFloats⟩

/-- A call fetches the old value and stores it; a second one finds it. -/
def fillAndHit : List Act :=
  [.getOrSet 0 "k" 60 .ok, .read 0 (.str "old"), .fetch 0 false, .fill 0 .ok, .tick 59000,
    .getOrSet 1 "k" 60 .ok]

/-- A value other than `None` that a call returned was fetched or set for its key; what the cache holds for a
key reads back as what was fetched or set for it, and is never found after its ttl. -/
theorem returned_was_fetched {as : List Act} {w : World} (h : Run (step cfg) anyAct {} as w) :
    (∀ id c v, w.calls id = some c → c.phase = .returned v → v ≠ .null →
      ∃ data fetched, (c.key, data, fetched) ∈ w.sources ∧
        (v = data ∨ loads cfg.floats (dumps cfg.floats data) = some v) ∧ (Plain cfg.floats data → v = data)) ∧
    (∀ key reply v s, lookup cfg w key reply = some (v, s) →
      (key, s.data, s.fetched) ∈ w.sources ∧ (Plain cfg.floats s.data → v = s.data) ∧
        w.now ≤ s.storedAt + s.ttl * 1000) := by
  have hi := Inv.run cfg h
  have hplain : ∀ {data v}, loads cfg.floats (dumps cfg.floats data) = some v → Plain cfg.floats data →
      v = data := by
    intro data v hl hp
    rw [loads_dumps cfg.floats hp] at hl
    exact (Option.some.inj hl).symm
  refine ⟨?_, ?_⟩
  · intro id c v hc hphase hne
    have hs := hi.call id c hc
    obtain ⟨key, ttl, phase, hit⟩ := c
    cases hphase
    cases hit with
    | none =>
      rcases hs with hnull | ⟨fetched, hsrc⟩
      · exact absurd hnull hne
      · exact ⟨v, fetched, hsrc, .inl rfl, fun _ => rfl⟩
    | some s =>
      obtain ⟨hl, htext, hsrc⟩ := hs
      rw [htext] at hl
      exact ⟨s.data, s.fetched, hsrc, .inr hl, hplain hl⟩
  · intro key reply v s hl
    obtain ⟨⟨t, ht, rfl, hnow⟩, hv, _⟩ := lookup_some hl
    have hs := hi.stored key t ht
    rw [hs.text] at hv
    exact ⟨hs.source, hplain hv, hs.expires ▸ hnow⟩

theorem fillAndHit_runs : (exec (step demoConfig) {} fillAndHit).isSome = true := by decide +kernel

theorem returned_was_fetched_hit : ∃ w, exec (step demoConfig) {} fillAndHit = some w ∧
    ∀ id c v, w.calls id = some c → c.phase = .returned v → v ≠ .null →
      ∃ data fetched, (c.key, data, fetched) ∈ w.sources ∧
        (v = data ∨ loads noFloats (dumps noFloats data) = some v) ∧ (Plain noFloats data → v = data) :=
  have ⟨w, hw⟩ := Option.isSome_iff_exists.1 fillAndHit_runs
  ⟨w, hw, (returned_was_fetched demoConfig (.of_exec_all (fun _ _ _ => trivial) hw)).1⟩

/-! ## Deletes -/

/-- Everything there is for the key, in the cache or in the hands of a call, was read from this step on. -/
structure Clear (key : String) (since : Nat) (w : World) : Prop where
  stored : ∀ t, w.store.slot key = some t → since ≤ t.value.fetched
  holding : ∀ id c data fetched, w.calls id = some c → c.key = key →
    c.phase.inHand = some (data, fetched) → since ≤ fetched
  steps : since ≤ w.steps

section Clear

variable {cfg} {w w' : World} {key : String} {since : Nat}

theorem Clear.mono (h : Clear key since w)
    (hstored : ∀ t, w'.store.slot key = some t →
      w.store.slot key = some t ∨ since ≤ t.value.fetched)
    (hcall : ∀ id c, w'.calls id = some c → w.calls id = some c ∨
      (∀ data fetched, c.key = key → c.phase.inHand = some (data, fetched) → since ≤ fetched))
    (hsteps : since ≤ w'.steps) : Clear key since w' where
  stored t ht := (hstored t ht).elim (h.stored t) id
  holding id c data fetched hc hk hp :=
    (hcall id c hc).elim (fun hold => h.holding id c data fetched hold hk hp)
      (fun hnew => hnew data fetched hk hp)
  steps := hsteps

theorem step_clear {a : Act} (hcl : Clear key since w) (h : step cfg w a = some w') :
    Clear key since w' := by
  have hsteps : since ≤ w'.steps := by
    have := hcl.steps
    have := step_steps h
    omega
  cases a with
  | tick dt =>
    cases h
    exact hcl.mono (fun _ h => .inl h) (fun _ _ h => .inl h) hsteps
  | getOrSet id key' ttl reply =>
    simp only [step] at h
    split at h
    · cases h
    · split at h <;> cases h <;>
        · refine hcl.mono (fun _ h => .inl h) ?_ hsteps
          intro id' c hc
          refine (setCall_calls (w := w) hc).imp_right ?_
          rintro ⟨rfl, rfl⟩ data fetched _ hp
          cases hp
  | read id data =>
    simp only [step] at h
    split at h
    · cases h
      refine hcl.mono (fun _ h => .inl h) ?_ hsteps
      intro id' c hc
      refine (setCall_calls (w := w) hc).imp_right ?_
      rintro ⟨rfl, rfl⟩ data fetched _ hp
      cases hp
      exact hcl.steps
    · cases h
  | fetch id raised =>
    obtain ⟨key', ttl, hit, phase, phase', hc₀, rfl, -, hphase'⟩ := fetch_cases h
    refine hcl.mono (fun _ h => .inl h) ?_ hsteps
    intro id' c hc
    refine (setCall_calls (w := w) hc).imp_right ?_
    rintro ⟨rfl, rfl⟩ data fetched hk hp
    rcases hphase' with rfl | rfl | ⟨data', fetched', rfl, rfl⟩
    · cases hp
    · cases hp
    · exact hcl.holding id' _ data fetched hc₀ hk hp
  | fill id reply =>
    simp only [step] at h
    split at h
    · rename_i key' ttl data fetched hit hc₀
      cases h
      have hcalls := (@setex_rest cfg w key' ttl fetched data reply).1
      refine hcl.mono ?_ ?_ hsteps
      · intro t ht
        refine (setex_slot ht).imp_right ?_
        rintro ⟨rfl, rfl⟩
        exact hcl.holding id _ data fetched hc₀ rfl rfl
      · intro id' c hc
        rcases setCall_calls (w := setex cfg w key' ttl data fetched reply) hc with hold | ⟨rfl, rfl⟩
        · exact .inl (hcalls ▸ hold)
        · refine .inr ?_
          intro data' fetched' _ hp
          cases hp
    · cases h
  | set key' value ttl nx reply =>
    simp only [step] at h
    split at h
    · cases h
      exact hcl.mono (fun _ h => .inl h) (fun _ _ h => .inl h) hsteps
    · cases h
      have hcalls := (@setex_rest cfg w key' ttl w.steps value reply).1
      refine hcl.mono ?_ (fun _ _ hc => .inl (hcalls ▸ hc)) hsteps
      intro t ht
      refine (setex_slot ht).imp_right ?_
      rintro ⟨rfl, rfl⟩
      exact hcl.steps
  | delete keys reply =>
    simp only [step] at h
    split at h
    · cases h
      refine hcl.mono ?_ (fun _ _ h => .inl h) hsteps
      intro t ht
      have hslot := foldl_del_slot keys w.store key
      rw [if_neg (by intro hk; rw [if_pos hk] at hslot; cases hslot.symm.trans ht)] at hslot
      exact .inl (hslot ▸ ht)
    · cases h
      exact hcl.mono (fun _ h => .inl h) (fun _ _ h => .inl h) hsteps

end Clear

/-- Whatever was there before and happens after: if a delete took effect while no call had data in hand that
was read for the key, every later `get` of the key finds data that was read or set after it, or none. -/
theorem no_hit_older_than_delete {bs : List Act} {w₁ w₂ w₃ : World} {keys : List String}
    {reply reply' : Reply} {key : String} {v : Json} {s : Stored}
    (hd : step cfg w₁ (.delete keys reply) = some w₂)
    (htook : reply.took = true) (hkey : key ∈ keys)
    (hidle : ∀ id c, w₁.calls id = some c → c.key = key → c.phase.inHand = none)
    (h₂ : Run (step cfg) anyAct w₂ bs w₃) (hget : lookup cfg w₃ key reply' = some (v, s)) :
    w₁.steps < s.fetched := by
  have hclear : Clear key (w₁.steps + 1) w₂ := by
    simp only [step, htook, if_true, Option.some.injEq] at hd
    subst hd
    refine ⟨?_, ?_, Nat.le_refl _⟩
    · intro t ht
      have hslot := foldl_del_slot keys w₁.store key
      rw [if_pos hkey] at hslot
      cases hslot.symm.trans ht
    · intro id c data fetched hc hk hp
      rw [hidle id c hc hk] at hp
      cases hp
  have hend : Clear key (w₁.steps + 1) w₃ :=
    h₂.invariant (fun _ _ _ hi _ hs => step_clear hi hs) hclear
  obtain ⟨⟨t, ht, rfl, _⟩, _, _⟩ := lookup_some hget
  exact hend.stored t ht

/-- An old value is there, and a call that has not read anything yet. -/
def oldWorld : World :=
  { steps := 3
    store := ({} : Expiring String Stored).set 0 "k" ⟨dumps noFloats (.str "old"), .str "old", 1, 0, 60⟩ 60000
    calls := Function.update (fun _ => none) 2 (some ⟨"k", 60, .fetching, none⟩) }

def newWorld : World := { oldWorld with store := ["k"].foldl Expiring.del oldWorld.store, steps := 4 }

def refetch : List Act := [.read 2 (.str "new"), .fetch 2 false, .fill 2 .ok]

def found (w : World) : Bool := (lookup demoConfig w "k" .ok).isSome

theorem refetch_found : (exec (step demoConfig) newWorld refetch).any found = true := by
  decide +kernel

theorem oldWorld_idle : ∀ id c, oldWorld.calls id = some c → c.key = "k" → c.phase.inHand = none := by
  intro id c hc _
  rcases setCall_calls (w := { oldWorld with calls := fun _ => none }) hc with hold | ⟨-, rfl⟩
  · cases hold
  · rfl

theorem refetched_after_delete : ∃ w v s, exec (step demoConfig) newWorld refetch = some w ∧
    lookup demoConfig w "k" .ok = some (v, s) ∧ oldWorld.steps < s.fetched := by
  obtain ⟨w, hw, hf⟩ := exec_any refetch_found
  obtain ⟨⟨v, s⟩, hl⟩ := Option.isSome_iff_exists.1 hf
  exact ⟨w, v, s, hw, hl, @no_hit_older_than_delete demoConfig refetch oldWorld newWorld w ["k"] .ok .ok
    "k" v s rfl rfl List.mem_cons_self oldWorld_idle
    (.of_exec_all (fun _ _ _ => trivial) hw) hl⟩

/-- Without the condition: the call that read before the delete stores after it. -/
example : ((exec (step demoConfig) {}
    [.getOrSet 0 "k" 60 .ok, .read 0 (.str "old"), .delete ["k"] .ok, .fetch 0 false, .fill 0 .ok,
      .getOrSet 1 "k" 60 .ok]).bind (fun w => w.calls 1)).map Call.phase =
    some (.returned (.str "old")) := by decide +kernel

end Aside
end Cache
end TrShared
