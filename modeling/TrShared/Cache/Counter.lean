import Mathlib.Algebra.Group.Int.Defs
import Mathlib.Logic.Function.Basic
import TrShared.Machine.Run
import TrShared.Machine.Shared

/-!
# TrShared.Cache.Counter

`CacheService.increment` (`cache/service.py`): `INCRBY`, and then `EXPIRE` when the new value equals the
amount. Any number of calls of any clients are under way at once, keys expire between any two
commands, and a command may fail or lose its answer, for which the call returns 0. A key remembers the
call that created it; nothing depends on that but the property.

A key that holds 0 answers like one that is not there, and a call whose answer is lost does not know
that it has created the key.

* `ttl_on_creation`: in every run in which no call with a ttl increments a key that holds 0, none that
  creates the key loses the answer, and every `EXPIRE` takes effect, `EXPIRE` is applied by exactly the
  calls with a ttl that created the key, and finds the key its own call created.
* `zero_counter_rearmed`: the third call finds 0 and gives the key a new time to live.
-/

namespace TrShared
namespace Cache
namespace Counter

open Machine

abbrev CallId := Nat

structure Entry where
  /-- `none` is a value that `INCRBY` refuses. -/
  value : Option Int
  /-- Milliseconds. -/
  expireAt : Option Nat := none
  /-- The call whose `INCRBY` created the key, if any did. -/
  creator : Option CallId := none
  deriving DecidableEq

inductive Phase where
  /-- `INCRBY` has answered and `EXPIRE` is to be sent. -/
  | expiring (newVal : Int)
  | returned (value : Int)
  deriving DecidableEq

structure Call where
  key : String
  amount : Int
  ttl : Option Int
  /-- The key was not there. -/
  created : Bool
  phase : Phase
  /-- What `EXPIRE` found under the key, once it was applied. -/
  expired : Option (Option Entry) := none
  deriving DecidableEq

structure World where
  now : Nat := 0
  slot : String → Option Entry := fun _ => none
  calls : CallId → Option Call := fun _ => none

/-- The integers of Redis. -/
def isInt64 (n : Int) : Bool := decide (-2 ^ 63 ≤ n ∧ n < 2 ^ 63)

def Entry.visible (now : Nat) (e : Entry) : Bool :=
  match e.expireAt with
  | some t => decide (now ≤ t)
  | none => true

namespace World

/-- What a command finds under the key. -/
def find (w : World) (key : String) : Option Entry := (w.slot key).filter (Entry.visible w.now)

def put (w : World) (key : String) (e : Option Entry) : World :=
  { w with slot := Function.update w.slot key e }

def setCall (w : World) (id : CallId) (c : Call) : World :=
  { w with calls := Function.update w.calls id (some c) }

/-- `INCRBY`: the new value and entry; `none` is an error, which changes nothing. -/
def incrby (w : World) (id : CallId) (key : String) (amount : Int) : Option (Int × Entry) :=
  if isInt64 amount then
    match w.find key with
    | none => some (amount, { value := some amount, creator := some id })
    | some ⟨some n, t, creator⟩ =>
      if isInt64 (n + amount) then some (n + amount, ⟨some (n + amount), t, creator⟩) else none
    | some ⟨none, _, _⟩ => none
  else none

/-- `EXPIRE`: `none` for a time Redis does not accept; one that is not positive deletes the key. -/
def expire (w : World) (key : String) (ttl : Int) : Option World :=
  if isInt64 (ttl * 1000) && decide (w.now + ttl * 1000 < 2 ^ 63) then
    match w.find key with
    | some e =>
      if ttl ≤ 0 then some (w.put key none)
      else some (w.put key (some { e with expireAt := some (w.now + ttl.toNat * 1000) }))
    | none => some w
  else none

end World

inductive Act where
  | tick (dt : Nat)
  /-- The first command of a new call of `increment`. -/
  | incrby (id : CallId) (key : String) (amount : Int) (ttl : Option Int) (reply : Reply)
  | expire (id : CallId) (reply : Reply)

def step (w : World) : Act → Option World
  | .tick dt => some { w with now := w.now + dt }
  | .incrby id key amount ttl reply =>
    match w.calls id with
    | some _ => none
    | none =>
      let call : Call := { key := key, amount := amount, ttl := ttl, created := false,
                           phase := .returned 0 }
      if reply.took then
        match w.incrby id key amount with
        | none => some (w.setCall id call)
        | some (newVal, e) =>
          let phase :=
            if !reply.returned then .returned 0
            else if ttl.isSome && decide (newVal = amount) then .expiring newVal
            else .returned newVal
          some ((w.put key (some e)).setCall id
            { call with created := (w.find key).isNone, phase := phase })
      else some (w.setCall id call)
  | .expire id reply =>
    match w.calls id with
    | some ⟨key, amount, some ttl, created, .expiring newVal, _⟩ =>
      let call : Call := { key := key, amount := amount, ttl := some ttl, created := created,
                           phase := .returned 0 }
      if reply.took then
        match w.expire key ttl with
        | some w' =>
          some (w'.setCall id { call with phase := .returned (if reply.returned then newVal else 0)
                                          expired := some (w.find key) })
        | none => some (w.setCall id call)
      else some (w.setCall id call)
    | _ => none

/-! ## The invariant -/

section Invariant

variable {w w' : World} {id : CallId} {key : String}

/-- `EXPIRE` was applied by this call if and only if it created the key and has a ttl; then it found the
key that the call created. -/
structure Call.Fair (id : CallId) (c : Call) : Prop where
  applied : c.expired.isSome = true ↔ c.created = true ∧ c.ttl.isSome = true
  own : ∀ found, c.expired = some found → ∃ e, found = some e ∧ e.creator = some id

/-- The call is between its two commands, and its key is there without a time to live. -/
structure Call.Armed (w : World) (id : CallId) (c : Call) : Prop where
  created : c.created = true
  ttl : c.ttl.isSome = true
  entry : ∃ e, w.slot c.key = some e ∧ e.creator = some id ∧ e.expireAt = none

structure Sound (w : World) : Prop where
  returned : ∀ id c v, w.calls id = some c → c.phase = .returned v → c.Fair id
  expiring : ∀ id c v, w.calls id = some c → c.phase = .expiring v → c.Armed w id

theorem find_of_entry {e : Entry} (h : w.slot key = some e) (ht : e.expireAt = none) :
    w.find key = some e := by
  have hv : e.visible w.now = true := by simp only [Entry.visible, ht]
  rw [World.find, h, Option.filter_some, if_pos hv]

/-- What `INCRBY` leaves under the key: the key it created, or the one that was there with another
value. -/
theorem incrby_cases {amount newVal : Int} {e : Entry}
    (h : w.incrby id key amount = some (newVal, e)) :
    (w.find key = none ∧ newVal = amount ∧ e.creator = some id ∧ e.expireAt = none) ∨
    ∃ e₀ n, w.find key = some e₀ ∧ e₀.value = some n ∧ newVal = n + amount ∧
      e.creator = e₀.creator ∧ e.expireAt = e₀.expireAt := by
  simp only [World.incrby] at h
  split at h
  · split at h
    · rename_i hf
      cases h
      exact .inl ⟨hf, rfl, rfl, rfl⟩
    · rename_i n t creator hf
      split at h
      · cases h
        exact .inr ⟨_, n, hf, rfl, rfl, rfl, rfl⟩
      · cases h
    · cases h
  · cases h

theorem setCall_calls (w : World) (id : CallId) (c : Call) (id' : CallId) :
    (w.setCall id c).calls id' = if id' = id then some c else w.calls id' := by
  simp only [World.setCall, Function.update_apply]

theorem put_slot (w : World) (key : String) (e : Option Entry) (key' : String) :
    (w.put key e).slot key' = if key' = key then e else w.slot key' := by
  simp only [World.put, Function.update_apply]

/-- A key that is waited for keeps its creator and stays without a time to live. -/
theorem Call.Armed.put {c : Call} {e : Entry} (h : c.Armed w id)
    (he : ∀ e₀, w.slot key = some e₀ → e₀.expireAt = none →
      e.creator = e₀.creator ∧ e.expireAt = none) :
    c.Armed (w.put key (some e)) id := by
  obtain ⟨e₀, hslot, hcreator, hexp⟩ := h.entry
  refine ⟨h.created, h.ttl, ?_⟩
  rw [put_slot]
  split
  · rename_i hk
    rw [hk] at hslot
    obtain ⟨hc, ht⟩ := he e₀ hslot hexp
    exact ⟨e, rfl, hc.trans hcreator, ht⟩
  · exact ⟨e₀, hslot, hcreator, hexp⟩

theorem Call.Armed.setCall {c c' : Call} {id' : CallId} (h : c.Armed w id) :
    c.Armed (w.setCall id' c') id :=
  ⟨h.created, h.ttl, h.entry⟩

/-- One call changes, and the keys the others wait for stay as they are. -/
theorem Sound.setCall {c : Call} (h : Sound w) (hcalls : w'.calls = w.calls)
    (hothers : ∀ id' c' v, id' ≠ id → w.calls id' = some c' → c'.phase = .expiring v →
      c'.Armed w' id')
    (hreturned : ∀ v, c.phase = .returned v → c.Fair id)
    (hexpiring : ∀ v, c.phase = .expiring v → c.Armed w' id) : Sound (w'.setCall id c) := by
  constructor
  · intro id' c' v hc hph
    rw [setCall_calls] at hc
    split at hc
    · rename_i hid
      cases hc
      subst hid
      exact hreturned v hph
    · rw [hcalls] at hc
      exact h.returned id' c' v hc hph
  · intro id' c' v hc hph
    rw [setCall_calls] at hc
    split at hc
    · rename_i hid
      cases hc
      subst hid
      exact (hexpiring v hph).setCall
    · rename_i hid
      rw [hcalls] at hc
      exact (hothers id' c' v hid hc hph).setCall

end Invariant

/-! ## Runs -/

section Runs

variable {w w' : World}

/-- No call with a ttl increments a key that holds 0, or creates the key and loses the answer; and the
`EXPIRE` of a call takes effect. -/
def Regular (w : World) : Act → Prop
  | .incrby id key amount ttl reply => ttl.isSome = true → w.incrby id key amount ≠ none →
      (reply = .ok → (w.find key).bind Entry.value ≠ some 0) ∧ (reply = .lost → w.find key ≠ none)
  | .expire id reply => reply ≠ .refused ∧
      ∀ c ttl, w.calls id = some c → c.ttl = some ttl → w.expire c.key ttl ≠ none
  | .tick _ => True

theorem Sound.incrby (h : Sound w) {id : CallId} {key : String} {amount : Int} {ttl : Option Int}
    {reply : Reply} (hok : Regular w (.incrby id key amount ttl reply))
    (hs : step w (.incrby id key amount ttl reply) = some w') : Sound w' := by
  -- a call that did nothing at the store
  have hidle : Sound (w.setCall id { key := key, amount := amount, ttl := ttl, created := false,
                                     phase := .returned 0 }) := by
    refine h.setCall rfl (fun id' c' v _ hc hph => h.expiring id' c' v hc hph) ?_ ?_
    · intro v _
      exact ⟨by simp, fun found hfound => by cases hfound⟩
    · intro v hph
      cases hph
  simp only [step] at hs
  split at hs
  · cases hs
  · split at hs
    · rename_i htook
      split at hs
      · cases hs
        exact hidle
      · rename_i newVal e hincr
        cases hs
        have hok' := fun httl => hok httl (by rw [hincr]; simp)
        refine h.setCall rfl ?_ ?_ ?_
        · intro id' c' v _ hc hph
          refine (h.expiring id' c' v hc hph).put ?_
          intro e₀ hslot hexp
          have hf := find_of_entry hslot hexp
          rcases incrby_cases hincr with ⟨hnone, -⟩ | ⟨e₁, n, hsome, -, -, hcreator, ht⟩
          · rw [hf] at hnone
            cases hnone
          · rw [hf] at hsome
            cases hsome
            exact ⟨hcreator, ht.trans hexp⟩
        · intro v hph
          refine ⟨?_, fun found hfound => by cases hfound⟩
          rcases incrby_cases hincr with ⟨hnone, hval, -⟩ | ⟨e₁, n, hsome, -⟩
          · cases ttl with
            | none => simp
            | some t =>
              -- the call created the key, so it has its answer and goes on to `EXPIRE`
              cases reply with
              | ok => simp [hval, Reply.returned] at hph
              | lost => exact absurd hnone ((hok' rfl).2 rfl)
              | refused => cases htook
          · simp [hsome]
        · intro v hph
          cases reply with
          | lost => simp [Reply.returned] at hph
          | refused => cases htook
          | ok =>
            rcases incrby_cases hincr with ⟨hnone, -, hcreator, hexp⟩ | ⟨e₁, n, hsome, hn, hval, -⟩
            · refine ⟨by simp [hnone], ?_, e, ?_, hcreator, hexp⟩
              · cases ttl with
                | none => simp [Reply.returned] at hph
                | some t => rfl
              · rw [put_slot, if_pos rfl]
            · -- the value was not 0, so the new one is not the amount
              cases ttl with
              | none => simp [Reply.returned] at hph
              | some t =>
                have hne : newVal ≠ amount := by
                  intro heq
                  refine (hok' rfl).1 rfl ?_
                  rw [hsome, Option.bind_some, hn, Option.some.injEq]
                  omega
                simp [hne, Reply.returned] at hph
    · cases hs
      exact hidle

theorem expire_calls {key : String} {ttl : Int} (h : w.expire key ttl = some w') :
    w'.calls = w.calls ∧ ∀ key', key' ≠ key → w'.slot key' = w.slot key' := by
  simp only [World.expire] at h
  split at h
  · split at h
    · split at h
      · cases h
        exact ⟨rfl, fun key' hne => by rw [put_slot, if_neg hne]⟩
      · cases h
        exact ⟨rfl, fun key' hne => by rw [put_slot, if_neg hne]⟩
    · cases h
      exact ⟨rfl, fun _ _ => rfl⟩
  · cases h

theorem Sound.expire (h : Sound w) {id : CallId} {reply : Reply} (hok : Regular w (.expire id reply))
    (hs : step w (.expire id reply) = some w') : Sound w' := by
  obtain ⟨hreply, haccepted⟩ := hok
  simp only [step] at hs
  split at hs
  · rename_i key amount ttl created newVal expired hcall
    have harmed := h.expiring id _ newVal hcall rfl
    obtain ⟨e, hslot, hcreator, hexp⟩ := harmed.entry
    have hfind : w.find key = some e := find_of_entry hslot hexp
    have hfair : ∀ phase, Call.Fair id ⟨key, amount, some ttl, created, phase, some (w.find key)⟩ := by
      intro phase
      refine ⟨by simp [show created = true from harmed.created], ?_⟩
      rintro found ⟨⟩
      exact ⟨e, hfind, hcreator⟩
    rw [if_pos (by cases reply <;> first | rfl | exact absurd rfl hreply)] at hs
    split at hs
    · rename_i w₁ hw
      cases hs
      obtain ⟨hcalls, hslots⟩ := expire_calls hw
      refine h.setCall hcalls ?_ (fun _ _ => hfair _) (fun _ hph => by cases hph)
      intro id' c' v hid hc hph
      have hother := h.expiring id' c' v hc hph
      obtain ⟨e', hslot', hcreator', hexp'⟩ := hother.entry
      -- the other call waits for a key of its own
      have hkey : c'.key ≠ key := by
        intro hk
        rw [hk, hslot] at hslot'
        cases hslot'
        rw [hcreator] at hcreator'
        cases hcreator'
        exact hid rfl
      exact ⟨hother.created, hother.ttl, e', by rw [hslots _ hkey, hslot'], hcreator', hexp'⟩
    · rename_i hnone
      exact absurd hnone (haccepted _ ttl hcall rfl)
  · cases hs

theorem Sound.step {a : Act} (h : Sound w) (hok : Regular w a) (hs : Counter.step w a = some w') :
    Sound w' := by
  cases a with
  | tick dt =>
    cases hs
    refine ⟨h.returned, ?_⟩
    intro id c v hc hph
    obtain ⟨hcreated, httl, hentry⟩ := h.expiring id c v hc hph
    exact ⟨hcreated, httl, hentry⟩
  | incrby id key amount ttl reply => exact h.incrby hok hs
  | expire id reply => exact h.expire hok hs

end Runs

/-- For every key and every run of `increment` calls with any amounts and ttls, interleaved in any order
with each other and with expiry, from any content of the store and with commands that fail or lose their
answers: if no call with a ttl increments a key that holds 0 or creates the key and loses the answer, and
every `EXPIRE` takes effect, then every call that has returned applied `EXPIRE` if and only if it created
the key and was given a ttl, and the `EXPIRE` found the key that the call created. -/
theorem ttl_on_creation (slot : String → Option Entry) (now : Nat) (acts : List Act) (w : World)
    (hrun : Run step Regular { now := now, slot := slot } acts w) :
    ∀ id c v, w.calls id = some c → c.phase = .returned v → c.Fair id := by
  have hstart : Sound { now := now, slot := slot } := by
    constructor
    · intro id c v hc
      cases hc
    · intro id c v hc
      cases hc
  exact (hrun.invariant (fun _ _ _ hi hok hs => Sound.step hi hok hs) hstart).returned

/-- A window of a minute, counted up twice; the answer to the second call is lost. -/
def twoIncrements : List Act :=
  [.incrby 0 "hits" 1 (some 60) .ok, .expire 0 .ok, .tick 1000, .incrby 1 "hits" 1 (some 60) .lost]

/-- Decides `Regular` on these steps: whose call an `EXPIRE` is of is looked up. -/
def regularCheck (w : World) : Act → Bool
  | .incrby id key amount ttl reply =>
    !ttl.isSome || (w.incrby id key amount).isNone ||
      (decide (reply = .ok → (w.find key).bind Entry.value ≠ some 0) &&
        decide (reply = .lost → w.find key ≠ none))
  | .expire id reply => decide (reply ≠ .refused) &&
      match w.calls id with
      | some ⟨key, _, some ttl, _, _, _⟩ => (w.expire key ttl).isSome
      | _ => true
  | .tick _ => true

theorem regular_of_check {w : World} {a : Act} (h : regularCheck w a = true) : Regular w a := by
  cases a with
  | tick dt => trivial
  | incrby id key amount ttl reply =>
    intro httl hincr
    simpa [regularCheck, httl, hincr, imp_iff_not_or] using h
  | expire id reply =>
    simp only [regularCheck, Bool.and_eq_true, decide_eq_true_eq] at h
    refine ⟨h.1, ?_⟩
    rintro ⟨key, amount, ttl', created, phase, expired⟩ ttl hc httl
    obtain rfl : ttl' = some ttl := httl
    have hsome := h.2
    rw [hc] at hsome
    exact Option.isSome_iff_ne_none.1 hsome

theorem second_increment_keeps_ttl : ∃ w, Run step Regular {} twoIncrements w ∧
    (w.slot "hits").map Entry.expireAt = some (some 60000) ∧
    ∀ id c v, w.calls id = some c → c.phase = .returned v → c.Fair id := by
  have hx : (exec (Run.guarded step regularCheck) {} twoIncrements).any
      (fun w => decide ((w.slot "hits").map Entry.expireAt = some (some 60000))) = true := by
    decide +kernel
  obtain ⟨w, hw, hslot⟩ := exec_any hx
  have hrun : Run step Regular {} twoIncrements w :=
    Run.of_guarded (I := fun _ => True) (fun _ _ _ _ _ _ => trivial)
      (fun _ _ _ ha => regular_of_check ha) trivial hw
  exact ⟨w, hrun, of_decide_eq_true hslot, ttl_on_creation _ _ _ w hrun⟩

/-- One up, one down, and one up again thirty seconds into the minute. -/
def throughZero : List Act :=
  [.incrby 0 "hits" 1 (some 60) .ok, .expire 0 .ok, .tick 30000, .incrby 1 "hits" (-1) none .ok,
    .incrby 2 "hits" 1 (some 60) .ok, .expire 2 .ok]

/-- Every command is answered. -/
def Answered (_ : World) : Act → Prop
  | .incrby _ _ _ _ reply | .expire _ reply => reply = .ok
  | .tick _ => True

theorem zero_counter_rearmed : ¬ ∀ (acts : List Act) (w : World), Run step Answered {} acts w →
    ∀ id c v, w.calls id = some c → c.phase = .returned v → c.Fair id := by
  intro h
  have hx : (exec step {} throughZero).any (fun w => decide
      (w.calls 2 = some ⟨"hits", 1, some 60, false, .returned 1,
        some (some ⟨some 1, some 60000, some 0⟩)⟩ ∧
       (w.slot "hits").map Entry.expireAt = some (some 90000))) = true := by
    decide +kernel
  obtain ⟨w, hw, hp⟩ := exec_any hx
  obtain ⟨hcall, -⟩ := of_decide_eq_true hp
  have hrun : Run step Answered {} throughZero w := by
    refine Run.of_exec_all ?_ hw
    intro a ha s
    simp only [throughZero, List.mem_cons, List.not_mem_nil, or_false] at ha
    rcases ha with rfl | rfl | rfl | rfl | rfl | rfl <;> simp [Answered]
  have hfair := h throughZero w hrun 2 _ 1 hcall rfl
  have hcreated := (hfair.applied.1 rfl).1
  cases hcreated

end Counter
end Cache
end TrShared
