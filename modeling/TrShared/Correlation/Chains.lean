import TrShared.Correlation.Headers
import TrShared.Machine.Run

/-!
# TrShared.Correlation.Chains

The requests and tasks of all services that one request sets off: its calls through
`ServiceHTTPClient`, the tasks that are published for it, and whatever these call and publish. A message
may be delivered any number of times and at any moment, a worker goes from task to task with the same
context variables, and code may start more code that keeps a copy of its own.

* `Traced` is the invariant: where code runs for a chain, its context variables hold the chain's id.
* `one_id_along_every_chain`: so do all calls and tasks that come of it, and all responses.
-/

namespace TrShared
namespace Correlation

open Machine Python
open Middleware.Errors (lower)

/-- Where code runs: the handler of a request, the task process of a worker, or a script. -/
structure Site where
  ctx : Context
  /-- The chain that the code runs for; none between two tasks of a worker. -/
  chain : Option Nat
  /-- `correlation_id` in the state of a request. -/
  requestId : Option String := none
  /-- The baseline of a worker. -/
  worker : Option Context := none

structure Call where
  headers : Headers
  chain : Option Nat

structure TaskMessage where
  headers : OrderedDict String String
  chain : Nat

structure Response where
  headers : Headers
  chain : Nat

structure World where
  sites : List Site
  calls : List Call := []
  messages : List TaskMessage := []
  responses : List Response := []
  /-- How many ids `uuid4` has made. -/
  drawn : Nat := 0
  /-- The id of each chain, as it was chosen where the chain began. -/
  ids : List String := []

inductive Act where
  /-- A request from outside. -/
  | arrive (base : Context) (headers : Headers)
  /-- A script calls `bind_correlation_id`. -/
  | script (base : Context) (id : String)
  | call (site : Nat) (client : Headers) (headers : OrderedDict String String)
  | deliver (call : Nat) (base : Context)
  | respond (site : Nat) (headers : Headers)
  | publish (site : Nat) (headers : OrderedDict String String)
  | startTask (site : Nat) (message : Nat) (taskId taskName : String)
  | finishTask (site : Nat) (taskId taskName : String)
  /-- The code binds another variable. -/
  | bind (site : Nat) (name value : String)
  /-- The code starts more code, with a copy of the variables. -/
  | spawn (site : Nat)

namespace World

variable (uuid4 : Nat → String)

/-- A request begins. -/
def addRequest (w : World) (base : Context) (chain : Nat) (id : String) : World :=
  { w with
    sites := w.sites ++ [{ ctx := base.set "correlation_id" id, chain := some chain, requestId := some id }]
    drawn := w.drawn + 1 }

def newChain (w : World) (id : String) : World := { w with ids := w.ids ++ [id] }

def setSite (w : World) (i : Nat) (s : Site) : World := { w with sites := w.sites.set i s }

/-- A request whose sender runs for no chain begins one. -/
def arrive (w : World) (base : Context) (headers : Headers) : World :=
  let id := requestCorrelationId (uuid4 w.drawn) headers
  (w.newChain id).addRequest base w.ids.length id

def deliver (w : World) (c : Call) (base : Context) : World :=
  match c.chain with
  | some chain => w.addRequest base chain (requestCorrelationId (uuid4 w.drawn) c.headers)
  | none => w.arrive uuid4 base c.headers

/-- A task that is published for no chain begins one. -/
def publish (w : World) (s : Site) (headers : OrderedDict String String) : World :=
  let stamped := stampCorrelationId (uuid4 w.drawn) s.ctx headers
  match s.chain with
  | some chain =>
    { w with messages := w.messages ++ [⟨stamped, chain⟩], drawn := w.drawn + 1 }
  | none =>
    { w with
      messages := w.messages ++ [⟨stamped, w.ids.length⟩]
      drawn := w.drawn + 1
      ids := w.ids ++ [(stamped.get celeryCorrelationHeader).getD ""] }

def respond (w : World) (s : Site) (headers : Headers) : Option World :=
  match s.chain, s.requestId with
  | some chain, some id =>
    some { w with responses := w.responses ++ [⟨setHeader correlationHeader id headers, chain⟩] }
  | _, _ => none

def startTask (w : World) (i : Nat) (s : Site) (m : TaskMessage) (taskId taskName : String) :
    Option World :=
  match s.chain, s.worker with
  | none, some baseline =>
    let task : TaskRequest := { headers := m.headers, taskId := taskId, taskName := taskName }
    some { w.setSite i { s with
        ctx := bindTaskContext (uuid4 w.drawn) baseline s.ctx task
        chain := some m.chain } with
      drawn := w.drawn + 1 }
  | _, _ => none

def finishTask (w : World) (i : Nat) (s : Site) (taskId taskName : String) : Option World :=
  match s.chain, s.worker with
  | some _, some baseline =>
    let task : TaskRequest := { headers := .empty, taskId := taskId, taskName := taskName }
    some (w.setSite i { s with ctx := restoreBaseline baseline s.ctx task, chain := none })
  | _, _ => none

def step (w : World) : Act → Option World
  | .arrive base headers => some (w.arrive uuid4 base headers)
  | .script base id =>
    some { w.newChain id with
      sites := w.sites ++ [{ ctx := base.set "correlation_id" id, chain := some w.ids.length }] }
  | .call i client headers => do
    let s ← w.sites[i]?
    return { w with calls := w.calls ++ [⟨sentHeaders client (mergedHeaders s.ctx headers), s.chain⟩] }
  | .deliver i base => do
    let c ← w.calls[i]?
    return w.deliver uuid4 c base
  | .respond i headers => do
    let s ← w.sites[i]?
    w.respond s headers
  | .publish i headers => do
    let s ← w.sites[i]?
    return w.publish uuid4 s headers
  | .startTask i j taskId taskName => do
    let s ← w.sites[i]?
    let m ← w.messages[j]?
    w.startTask uuid4 i s m taskId taskName
  | .finishTask i taskId taskName => do
    let s ← w.sites[i]?
    w.finishTask i s taskId taskName
  | .bind i name value => do
    let s ← w.sites[i]?
    return w.setSite i { s with ctx := s.ctx.set name value }
  | .spawn i => do
    let s ← w.sites[i]?
    return { w with sites := w.sites ++ [{ s with worker := none }] }

end World

/-- The caller leaves the correlation id to the library, or passes the one that it has. -/
def Act.Leaves (w : World) : Act → Prop
  | .script _ id => isValidCorrelationId id = true
  | .call _ _ headers => headers.get correlationHeader = none
  | .publish i headers => ∀ id, headers.get celeryCorrelationHeader = some id →
      ∀ s, w.sites[i]? = some s →
        if s.chain = none then isValidCorrelationId id = true else getCorrelationId s.ctx = some id
  | .bind _ name _ => name ≠ "correlation_id"
  | _ => True

def World.start (workers : List Context) : World :=
  { sites := workers.map (fun baseline => { ctx := baseline, chain := none, worker := some baseline }) }

/-! ## The invariant -/

/-- The chain has this id. -/
def World.HasId (w : World) (chain : Nat) (id : String) : Prop := w.ids[chain]? = some id

structure Site.Traced (w : World) (s : Site) : Prop where
  chain : ∀ c, s.chain = some c → ∃ id, w.HasId c id ∧ getCorrelationId s.ctx = some id ∧
    ∀ r, s.requestId = some r → r = id
  idle : s.chain = none → getCorrelationId s.ctx = none
  worker : ∀ baseline, s.worker = some baseline → FreeForTasks baseline ∧ s.requestId = none

/-- The service that is called reads the id of the chain. -/
def Call.Traced (w : World) (m : Call) : Prop :=
  ∀ c, m.chain = some c → ∃ id, w.HasId c id ∧ headerGet m.headers correlationHeader = some id

def TaskMessage.Traced (w : World) (m : TaskMessage) : Prop :=
  ∃ id, w.HasId m.chain id ∧ m.headers.get celeryCorrelationHeader = some id

/-- The response has the id of the chain, once. -/
def Response.Traced (w : World) (r : Response) : Prop :=
  ∃ id, w.HasId r.chain id ∧
    r.headers.filter (fun e => decide (e.1 = lower correlationHeader)) = [(lower correlationHeader, id)]

structure Traced (w : World) : Prop where
  valid : ∀ id ∈ w.ids, isValidCorrelationId id = true
  sites : ∀ s ∈ w.sites, s.Traced w
  calls : ∀ m ∈ w.calls, m.Traced w
  messages : ∀ m ∈ w.messages, m.Traced w
  responses : ∀ r ∈ w.responses, r.Traced w

section Kept

variable {w w' : World} {c : Nat} {id : String} {l : List String}

theorem World.HasId.mono (h : w.HasId c id) (hids : w'.ids = w.ids ++ l) : w'.HasId c id := by
  rw [World.HasId, hids, List.getElem?_append_left (List.getElem?_eq_some_iff.1 h).1]
  exact h

theorem Traced.valid_of (h : Traced w) (hid : w.HasId c id) : isValidCorrelationId id = true :=
  h.valid id (List.mem_of_getElem? hid)

/-- A step that adds to the world, told by what is new. -/
theorem Traced.extend (h : Traced w) (hids : w'.ids = w.ids ++ l)
    (hvalid : ∀ id ∈ l, isValidCorrelationId id = true)
    (hsites : ∀ s ∈ w'.sites, s ∈ w.sites ∨ s.Traced w')
    (hcalls : ∀ m ∈ w'.calls, m ∈ w.calls ∨ m.Traced w')
    (hmessages : ∀ m ∈ w'.messages, m ∈ w.messages ∨ m.Traced w')
    (hresponses : ∀ r ∈ w'.responses, r ∈ w.responses ∨ r.Traced w') : Traced w' where
  valid id hid := by
    rw [hids] at hid
    rcases List.mem_append.1 hid with hid | hid
    · exact h.valid id hid
    · exact hvalid id hid
  sites s hs := by
    rcases hsites s hs with hs | hs
    · have hold := h.sites s hs
      refine ⟨fun c hc => ?_, hold.idle, hold.worker⟩
      obtain ⟨id, hid, hctx⟩ := hold.chain c hc
      exact ⟨id, hid.mono hids, hctx⟩
    · exact hs
  calls m hm := by
    rcases hcalls m hm with hm | hm
    · intro c hc
      obtain ⟨id, hid, hget⟩ := h.calls m hm c hc
      exact ⟨id, hid.mono hids, hget⟩
    · exact hm
  messages m hm := by
    rcases hmessages m hm with hm | hm
    · obtain ⟨id, hid, hget⟩ := h.messages m hm
      exact ⟨id, hid.mono hids, hget⟩
    · exact hm
  responses r hr := by
    rcases hresponses r hr with hr | hr
    · obtain ⟨id, hid, hget⟩ := h.responses r hr
      exact ⟨id, hid.mono hids, hget⟩
    · exact hr

/-- One site of the world changes. -/
theorem Traced.setSite {i n : Nat} {s : Site} (h : Traced w) (hs : s.Traced w) :
    Traced { w.setSite i s with drawn := n } := by
  refine h.extend (l := []) (List.append_nil _).symm (fun _ hid => by cases hid) (fun s' hs' => ?_)
    (fun _ hm => .inl hm) (fun _ hm => .inl hm) (fun _ hr => .inl hr)
  rcases List.mem_or_eq_of_mem_set hs' with hs' | rfl
  · exact .inl hs'
  · exact .inr ⟨hs.chain, hs.idle, hs.worker⟩

theorem mem_snoc_or {α : Type} {l : List α} {x y : α} {p : α → Prop} (hx : x ∈ l ++ [y]) (hy : p y) :
    x ∈ l ∨ p x := by
  rcases List.mem_append.1 hx with hx | hx
  · exact .inl hx
  · rw [List.mem_singleton.1 hx]
    exact .inr hy

end Kept

section Steps

variable {uuid4 : Nat → String} {w w' : World}

/-- A request of a chain begins: the id that it chose is the chain's. -/
theorem Traced.addRequest {c : Nat} {id : String} (h : Traced w) (hid : w.HasId c id) (base : Context) :
    Traced (w.addRequest base c id) := by
  refine h.extend (l := []) (List.append_nil _).symm (fun _ hid => by cases hid)
    (fun s hs => mem_snoc_or hs ?_) (fun _ hm => .inl hm) (fun _ hm => .inl hm) (fun _ hr => .inl hr)
  refine ⟨fun c' hc => ?_, (fun hidle => by cases hidle), (fun _ hb => by cases hb)⟩
  cases hc
  refine ⟨id, hid, OrderedDict.get_set_self, fun r hr => ?_⟩
  cases hr
  rfl

theorem Traced.newChain {id : String} (h : Traced w) (hv : isValidCorrelationId id = true) :
    Traced (w.newChain id) ∧ (w.newChain id).HasId w.ids.length id := by
  refine ⟨h.extend rfl (fun x hx => ?_) (fun _ hs => .inl hs) (fun _ hm => .inl hm)
    (fun _ hm => .inl hm) (fun _ hr => .inl hr), List.getElem?_concat_length⟩
  rw [List.mem_singleton.1 hx]
  exact hv

theorem Traced.arrive (hu : ∀ n, isValidCorrelationId (uuid4 n) = true) (h : Traced w) (base : Context)
    (headers : Headers) : Traced (w.arrive uuid4 base headers) := by
  obtain ⟨hnew, hid⟩ := h.newChain (requestCorrelationId_isValid (hu w.drawn) headers)
  exact hnew.addRequest hid base

theorem Traced.deliver (hu : ∀ n, isValidCorrelationId (uuid4 n) = true) (h : Traced w) {m : Call}
    (hm : m.Traced w) (base : Context) : Traced (w.deliver uuid4 m base) := by
  unfold World.deliver
  split
  · rename_i c hc
    obtain ⟨id, hid, hget⟩ := hm c hc
    rw [requestCorrelationId_valid hget (h.valid_of hid)]
    exact h.addRequest hid base
  · exact h.arrive hu base m.headers

theorem Traced.script {id : String} (h : Traced w) (hv : isValidCorrelationId id = true)
    (base : Context) : Traced { w.newChain id with
      sites := w.sites ++ [{ ctx := base.set "correlation_id" id, chain := some w.ids.length }] } := by
  obtain ⟨hnew, hid⟩ := h.newChain hv
  refine hnew.extend (l := []) (List.append_nil _).symm (fun _ hid => by cases hid)
    (fun s hs => mem_snoc_or hs ?_) (fun _ hm => .inl hm) (fun _ hm => .inl hm) (fun _ hr => .inl hr)
  refine ⟨fun c' hc => ?_, (fun hidle => by cases hidle), (fun _ hb => by cases hb)⟩
  cases hc
  exact ⟨id, hid, OrderedDict.get_set_self, fun _ hr => by cases hr⟩

theorem Traced.call {s : Site} {headers : OrderedDict String String} (h : Traced w)
    (hs : s.Traced w) (hnone : headers.get correlationHeader = none) (client : Headers) :
    Traced { w with
      calls := w.calls ++ [⟨sentHeaders client (mergedHeaders s.ctx headers), s.chain⟩] } := by
  refine h.extend (l := []) (List.append_nil _).symm (fun _ hid => by cases hid) (fun _ hs => .inl hs)
    (fun m hm => mem_snoc_or hm ?_) (fun _ hm => .inl hm) (fun _ hr => .inl hr)
  intro c hc
  obtain ⟨id, hid, hctx, _⟩ := hs.chain c hc
  exact ⟨id, hid, headerGet_sent hctx (valid_ne_empty (h.valid_of hid)) hnone client⟩

theorem Traced.respond {s : Site} {headers : Headers} (h : Traced w) (hs : s.Traced w)
    (hr : w.respond s headers = some w') : Traced w' := by
  unfold World.respond at hr
  split at hr
  · rename_i c id hc hid
    cases hr
    refine h.extend (l := []) (List.append_nil _).symm (fun _ hid => by cases hid)
      (fun _ hs => .inl hs) (fun _ hm => .inl hm) (fun _ hm => .inl hm) (fun r hr => mem_snoc_or hr ?_)
    obtain ⟨id', hid', _, hrequest⟩ := hs.chain c hc
    obtain rfl := hrequest id hid
    exact ⟨id, hid', setHeader_unique correlationHeader id headers⟩
  · cases hr

/-- A task is published: what the message gets is the chain's id, or the id of a new chain. -/
theorem Traced.publish (hu : ∀ n, isValidCorrelationId (uuid4 n) = true) {s : Site}
    {headers : OrderedDict String String} (h : Traced w) (hs : s.Traced w)
    (hown : ∀ id, headers.get celeryCorrelationHeader = some id →
      if s.chain = none then isValidCorrelationId id = true else getCorrelationId s.ctx = some id) :
    Traced (w.publish uuid4 s headers) := by
  have hstamped := stampCorrelationId_get (uuid4 w.drawn) s.ctx headers
  unfold World.publish
  dsimp only
  cases hc : s.chain with
  | some c =>
    refine h.extend (l := []) (List.append_nil _).symm (fun _ hid => by cases hid)
      (fun _ hs => .inl hs) (fun _ hm => .inl hm) (fun m hm => mem_snoc_or hm ?_) (fun _ hr => .inl hr)
    obtain ⟨id, hid, hctx, _⟩ := hs.chain c hc
    refine ⟨id, hid, ?_⟩
    show (stampCorrelationId _ _ _).get _ = some id
    rw [hstamped]
    cases hget : headers.get celeryCorrelationHeader with
    | none =>
      simp only [Option.getD_none, correlationIdOr, hctx, if_neg (valid_ne_empty (h.valid_of hid))]
    | some x =>
      have hx := hown x hget
      rw [hc, if_neg (by simp), hctx] at hx
      exact hx.symm
  | none =>
    have hidle := hs.idle hc
    have hv : isValidCorrelationId ((headers.get celeryCorrelationHeader).getD
        (correlationIdOr s.ctx (uuid4 w.drawn))) = true := by
      cases hget : headers.get celeryCorrelationHeader with
      | none =>
        simp only [Option.getD_none, correlationIdOr, hidle]
        exact hu w.drawn
      | some x =>
        have hx := hown x hget
        rw [hc, if_pos rfl] at hx
        exact hx
    rw [hstamped, Option.getD_some]
    refine h.extend rfl (fun x hx => ?_) (fun _ hs => .inl hs) (fun _ hm => .inl hm)
      (fun m hm => mem_snoc_or hm ?_) (fun _ hr => .inl hr)
    · rw [List.mem_singleton.1 hx]
      exact hv
    · exact ⟨_, List.getElem?_concat_length, hstamped⟩

theorem Traced.startTask {i : Nat} {s : Site} {m : TaskMessage} {taskId taskName : String}
    (h : Traced w) (hs : s.Traced w) (hm : m.Traced w)
    (hstart : w.startTask uuid4 i s m taskId taskName = some w') : Traced w' := by
  unfold World.startTask at hstart
  split at hstart
  · rename_i baseline _ hworker
    cases hstart
    obtain ⟨hfree, hrequest⟩ := hs.worker baseline hworker
    obtain ⟨id, hid, hget⟩ := hm
    refine h.setSite ⟨fun c hc => ?_, (fun hidle => by cases hidle), hs.worker⟩
    cases hc
    refine ⟨id, hid, bindTaskContext_id hfree rfl hget (valid_ne_empty (h.valid_of hid)), ?_⟩
    intro r hr
    rw [hrequest] at hr
    cases hr
  · cases hstart

theorem Traced.finishTask {i : Nat} {s : Site} {taskId taskName : String} (h : Traced w)
    (hs : s.Traced w) (hfinish : w.finishTask i s taskId taskName = some w') : Traced w' := by
  unfold World.finishTask at hfinish
  split at hfinish
  · rename_i baseline _ hworker
    cases hfinish
    refine h.setSite (n := w.drawn) ⟨(fun c hc => by cases hc), fun _ => ?_, hs.worker⟩
    exact (hs.worker baseline hworker).1 "correlation_id" (by simp)
  · cases hfinish

theorem Traced.bind {i : Nat} {s : Site} {name value : String} (h : Traced w) (hs : s.Traced w)
    (hname : name ≠ "correlation_id") :
    Traced (w.setSite i { s with ctx := s.ctx.set name value }) := by
  have hsame : getCorrelationId (s.ctx.set name value) = getCorrelationId s.ctx :=
    OrderedDict.get_set_of_ne (Ne.symm hname)
  refine h.setSite (n := w.drawn) ⟨fun c hc => ?_, fun hidle => ?_, hs.worker⟩
  · rw [hsame]
    exact hs.chain c hc
  · rw [hsame]
    exact hs.idle hidle

theorem Traced.spawn {s : Site} (h : Traced w) (hs : s.Traced w) :
    Traced { w with sites := w.sites ++ [{ s with worker := none }] } := by
  refine h.extend (l := []) (List.append_nil _).symm (fun _ hid => by cases hid)
    (fun s' hs' => mem_snoc_or hs' ?_) (fun _ hm => .inl hm) (fun _ hm => .inl hm)
    (fun _ hr => .inl hr)
  exact ⟨hs.chain, hs.idle, (fun _ hb => by cases hb)⟩

theorem Traced.step (hu : ∀ n, isValidCorrelationId (uuid4 n) = true) {a : Act} (h : Traced w)
    (ha : a.Leaves w) (hstep : w.step uuid4 a = some w') : Traced w' := by
  have hsite : ∀ {i : Nat} {s : Site}, w.sites[i]? = some s → s.Traced w :=
    fun hs => h.sites _ (List.mem_of_getElem? hs)
  cases a with
  | arrive base headers =>
    cases hstep
    exact h.arrive hu base headers
  | script base id =>
    cases hstep
    exact h.script ha base
  | call i client headers =>
    obtain ⟨s, hs, hstep⟩ := Option.bind_eq_some_iff.1 hstep
    cases hstep
    exact h.call (hsite hs) ha client
  | deliver i base =>
    obtain ⟨m, hm, hstep⟩ := Option.bind_eq_some_iff.1 hstep
    cases hstep
    exact h.deliver hu (h.calls m (List.mem_of_getElem? hm)) base
  | respond i headers =>
    obtain ⟨s, hs, hstep⟩ := Option.bind_eq_some_iff.1 hstep
    exact h.respond (hsite hs) hstep
  | publish i headers =>
    obtain ⟨s, hs, hstep⟩ := Option.bind_eq_some_iff.1 hstep
    cases hstep
    exact h.publish hu (hsite hs) (fun id hid => ha id hid s hs)
  | startTask i j taskId taskName =>
    obtain ⟨s, hs, hstep⟩ := Option.bind_eq_some_iff.1 hstep
    obtain ⟨m, hm, hstep⟩ := Option.bind_eq_some_iff.1 hstep
    exact h.startTask (hsite hs) (h.messages m (List.mem_of_getElem? hm)) hstep
  | finishTask i taskId taskName =>
    obtain ⟨s, hs, hstep⟩ := Option.bind_eq_some_iff.1 hstep
    exact h.finishTask (hsite hs) hstep
  | bind i name value =>
    obtain ⟨s, hs, hstep⟩ := Option.bind_eq_some_iff.1 hstep
    cases hstep
    exact h.bind (hsite hs) ha
  | spawn i =>
    obtain ⟨s, hs, hstep⟩ := Option.bind_eq_some_iff.1 hstep
    cases hstep
    exact h.spawn (hsite hs)

end Steps

theorem Traced.start {workers : List Context} (h : ∀ b ∈ workers, FreeForTasks b) :
    Traced (.start workers) where
  valid _ hid := by cases hid
  calls _ hm := by cases hm
  messages _ hm := by cases hm
  responses _ hr := by cases hr
  sites s hs := by
    obtain ⟨b, hb, rfl⟩ := List.mem_map.1 hs
    refine ⟨(fun c hc => by cases hc), fun _ => h b hb "correlation_id" (by simp), fun b' hb' => ?_⟩
    cases hb'
    exact ⟨h b hb, rfl⟩

/-- A chain that has begun keeps its id. -/
theorem step_ids {uuid4 : Nat → String} {w w' : World} {a : Act} (h : w.step uuid4 a = some w') :
    w.ids <+: w'.ids := by
  cases a with
  | arrive base headers =>
    cases h
    exact List.prefix_append _ _
  | script base id =>
    cases h
    exact List.prefix_append _ _
  | call i client headers =>
    obtain ⟨s, -, h⟩ := Option.bind_eq_some_iff.1 h
    cases h
    exact List.prefix_refl _
  | deliver i base =>
    obtain ⟨m, -, h⟩ := Option.bind_eq_some_iff.1 h
    cases h
    unfold World.deliver
    split
    · exact List.prefix_refl _
    · exact List.prefix_append _ _
  | respond i headers =>
    obtain ⟨s, -, h⟩ := Option.bind_eq_some_iff.1 h
    unfold World.respond at h
    split at h
    · cases h
      exact List.prefix_refl _
    · cases h
  | publish i headers =>
    obtain ⟨s, -, h⟩ := Option.bind_eq_some_iff.1 h
    cases h
    unfold World.publish
    dsimp only
    split
    · exact List.prefix_refl _
    · exact List.prefix_append _ _
  | startTask i j taskId taskName =>
    obtain ⟨s, -, h⟩ := Option.bind_eq_some_iff.1 h
    obtain ⟨m, -, h⟩ := Option.bind_eq_some_iff.1 h
    unfold World.startTask at h
    split at h
    · cases h
      exact List.prefix_refl _
    · cases h
  | finishTask i taskId taskName =>
    obtain ⟨s, -, h⟩ := Option.bind_eq_some_iff.1 h
    unfold World.finishTask at h
    split at h
    · cases h
      exact List.prefix_refl _
    · cases h
  | bind i name value =>
    obtain ⟨s, -, h⟩ := Option.bind_eq_some_iff.1 h
    cases h
    exact List.prefix_refl _
  | spawn i =>
    obtain ⟨s, -, h⟩ := Option.bind_eq_some_iff.1 h
    cases h
    exact List.prefix_refl _

/-- For every run of requests, calls, tasks and scripts whose callers leave the correlation id to the
library, with any workers whose baselines leave the names of a task free, and with new ids that are
valid: wherever code runs for a chain its context has the id that was chosen where the chain began,
every call and every task that it sends carries it, every response of the chain has it once, and no
step changes it. -/
theorem one_id_along_every_chain (uuid4 : Nat → String)
    (huuid : ∀ n, isValidCorrelationId (uuid4 n) = true) (workers : List Context)
    (hworkers : ∀ b ∈ workers, FreeForTasks b) (acts : List Act) (w : World)
    (hrun : Run (World.step uuid4) (fun w a => a.Leaves w) (.start workers) acts w) :
    (∀ s ∈ w.sites, ∀ c, s.chain = some c → ∃ id, w.HasId c id ∧ getCorrelationId s.ctx = some id) ∧
    (∀ m ∈ w.calls, m.Traced w) ∧ (∀ m ∈ w.messages, m.Traced w) ∧
    (∀ r ∈ w.responses, r.Traced w) ∧
    ∀ a w', w.step uuid4 a = some w' → w.ids <+: w'.ids := by
  have h : Traced w := hrun.invariant (fun _ _ _ hi ha hs => hi.step huuid ha hs) (.start hworkers)
  refine ⟨fun s hs c hc => ?_, h.calls, h.messages, h.responses, fun _ _ => step_ids⟩
  obtain ⟨id, hid, hctx, _⟩ := (h.sites s hs).chain c hc
  exact ⟨id, hid, hctx⟩

/-- Ids as `uuid4` makes them. -/
def someIds : Nat → String
  | 0 => "0b5cbd76-6a1d-4d0c-9a3e-5d5a7b0c1f10"
  | 1 => "7c9e6679-7425-40de-944b-e07fc1f90ae7"
  | _ => "f47ac10b-58cc-4372-a567-0e02b2c3d479"

/-- A request with the id `gateway-7` calls a service and publishes a task; the task, which a worker
runs after it has run another one, calls a service as well. -/
def gatewayActs : List Act :=
  let tenant : OrderedDict String String := OrderedDict.set .empty "X-Tenant-ID" "t1"
  let own : Headers := [("accept", "*/*"), ("Content-Type", "application/json")]
  [.arrive .empty [("host", "crm"), ("x-correlation-id", "gateway-7")], .bind 1 "step" "one",
    .call 1 own tenant, .publish 1 .empty, .deliver 0 .empty, .respond 2 [("x-correlation-id", "other")],
    .publish 0 .empty, .startTask 0 1 "t0" "svc.beat", .bind 0 "leak" "yes",
    .finishTask 0 "t0" "svc.beat", .startTask 0 0 "t1" "svc.emit", .spawn 0,
    .finishTask 0 "t1" "svc.emit", .call 3 own .empty, .deliver 1 .empty, .respond 4 []]

theorem gateway_id_kept : ∃ w,
    exec (World.step someIds) (.start [.empty]) gatewayActs = some w ∧
    w.ids[0]? = some "gateway-7" ∧ w.sites.map (fun s => s.chain) = [none, some 0, some 0, some 0, some 0] ∧
    (∀ s ∈ w.sites, ∀ c, s.chain = some c → ∃ id, w.HasId c id ∧ getCorrelationId s.ctx = some id) := by
  have hx : (exec (World.step someIds) (.start [.empty]) gatewayActs).any (fun w =>
      decide (w.ids[0]? = some "gateway-7") &&
        decide (w.sites.map (fun s => s.chain) = [none, some 0, some 0, some 0, some 0])) = true := by
    decide +kernel
  obtain ⟨w, hw, hids⟩ := exec_any hx
  rw [Bool.and_eq_true, decide_eq_true_eq, decide_eq_true_eq] at hids
  have huuid : ∀ n, isValidCorrelationId (someIds n) = true := by
    intro n
    unfold someIds
    split <;> decide
  have hleaves : ∀ a ∈ gatewayActs, ∀ w : World, a.Leaves w := by
    intro a ha w
    simp only [gatewayActs, List.mem_cons, List.not_mem_nil, or_false] at ha
    rcases ha with rfl | rfl | rfl | rfl | rfl | rfl | rfl | rfl | rfl | rfl | rfl | rfl | rfl | rfl |
      rfl | rfl <;> simp [Act.Leaves, correlationHeader, OrderedDict.get_set_of_ne]
  exact ⟨w, hw, hids.1, hids.2, (one_id_along_every_chain someIds huuid [.empty]
    (by simp [FreeForTasks]) _ w (Run.of_exec_all hleaves hw)).1⟩

end Correlation
end TrShared
