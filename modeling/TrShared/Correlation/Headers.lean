import TrShared.Middleware.ExceptionHandlers
import TrShared.Python.OrderedDict

/-!
# TrShared.Correlation.Headers

The correlation id at each place that it passes: the context variables of `structlog`, the header that
`http/correlation.py` adds to the calls of `ServiceHTTPClient`, `middleware/correlation_id.py` and
`celery/log_context.py`.

* `headerGet_sent`: what a service reads from the headers of a call is the caller's id.
* `setHeader_unique`: a response has the id once.
* `bindTaskContext_eq`: a task sees nothing of the task before it.
-/

namespace TrShared
namespace Correlation

open Python
open Middleware.Errors (lower)

/-- The context variables that `structlog` has bound. -/
abbrev Context := OrderedDict String String

abbrev Headers := List (String × String)

def correlationHeader : String := "X-Correlation-ID"

/-- `CELERY_CORRELATION_HEADER`. -/
def celeryCorrelationHeader : String := "x_tr_correlation_id"

def isValidCorrelationId (value : String) : Bool :=
  decide (1 ≤ value.length ∧ value.length ≤ 64) && value.toList.all (fun c => c.isAlphanum || c == '-')

def getCorrelationId (ctx : Context) : Option String := ctx.get "correlation_id"

/-- `get_correlation_id() or default`. -/
def correlationIdOr (ctx : Context) (default : String) : String :=
  match getCorrelationId ctx with
  | some id => if id = "" then default else id
  | none => default

/-! ## HTTP -/

def correlationHeaders (ctx : Context) : OrderedDict String String :=
  match getCorrelationId ctx with
  | some id => if id = "" then .empty else OrderedDict.set .empty correlationHeader id
  | none => .empty

/-- `{**correlation_headers(), **headers}`. -/
def mergedHeaders (ctx : Context) (headers : OrderedDict String String) : OrderedDict String String :=
  headers.entries.foldl (fun d e => d.set e.1 e.2) (correlationHeaders ctx)

/-- What the client sends: its own headers, without those that the request has, and the request's. -/
def sentHeaders (client : Headers) (request : OrderedDict String String) : Headers :=
  client.filter (fun e => !request.entries.any (fun r => lower r.1 == lower e.1)) ++ request.entries

/-- `Headers(scope=scope).get(name)`: the first one. -/
def headerGet (headers : Headers) (name : String) : Option String :=
  (headers.find? (fun e => lower e.1 == lower name)).map Prod.snd

/-- The id of a request: the incoming one, or a new one. -/
def requestCorrelationId (uuid : String) (headers : Headers) : String :=
  match headerGet headers correlationHeader with
  | some incoming => if incoming ≠ "" ∧ isValidCorrelationId incoming then incoming else uuid
  | none => uuid

/-- `MutableHeaders.__setitem__`: in place of the first one, and the others go. -/
def setHeader (name value : String) : Headers → Headers
  | [] => [(lower name, value)]
  | e :: headers =>
    if e.1 = lower name then
      (lower name, value) :: headers.filter (fun e => decide (e.1 ≠ lower name))
    else e :: setHeader name value headers

/-! ## Celery -/

/-- `_stamp_correlation_id`; `uuid` is the new id if one is needed. -/
def stampCorrelationId (uuid : String) (ctx : Context) (headers : OrderedDict String String) :
    OrderedDict String String :=
  match headers.get celeryCorrelationHeader with
  | some _ => headers
  | none => headers.set celeryCorrelationHeader (correlationIdOr ctx uuid)

/-- `_rebind`. A name that is given twice is a `TypeError` of the second call, and the receiver of a
signal only logs it: the variables stay cleared. -/
def rebind (baseline : Context) (fields : List (String × String)) : Context :=
  if fields.any (fun f => (baseline.get f.1).isSome) then .empty
  else fields.foldl (fun ctx f => ctx.set f.1 f.2) baseline

structure TaskRequest where
  headers : OrderedDict String String
  taskId : String
  taskName : String
  isEager : Bool := false

def bindTaskContext (uuid : String) (baseline ctx : Context) (task : TaskRequest) : Context :=
  if task.isEager then ctx
  else
    let id :=
      match task.headers.get celeryCorrelationHeader with
      | some id => if id = "" then uuid else id
      | none => uuid
    rebind baseline [("correlation_id", id), ("task_id", task.taskId), ("task_name", task.taskName)]

def restoreBaseline (baseline ctx : Context) (task : TaskRequest) : Context :=
  if task.isEager then ctx else rebind baseline []

/-- The baseline of a worker leaves the names of a task free. -/
def FreeForTasks (baseline : Context) : Prop :=
  ∀ name ∈ ["correlation_id", "task_id", "task_name"], baseline.get name = none

/-! ## What they do -/

section Hops

variable {ctx : Context} {headers : OrderedDict String String} {client : Headers} {id uuid : String}

theorem valid_ne_empty (h : isValidCorrelationId id = true) : id ≠ "" := by
  rintro rfl
  exact absurd h (by decide)

/-- Assignments to other keys leave the first entry alone. -/
theorem head_foldl_set {l : List (String × String)} {d : OrderedDict String String}
    {e : String × String} (hd : d.entries.head? = some e) (hl : ∀ x ∈ l, x.1 ≠ e.1) :
    (l.foldl (fun d x => d.set x.1 x.2) d).entries.head? = some e := by
  induction l generalizing d with
  | nil => exact hd
  | cons x l ih =>
    obtain ⟨hx, hl⟩ := List.forall_mem_cons.1 hl
    refine ih ?_ hl
    cases hentries : d.entries with
    | nil =>
      rw [hentries] at hd
      cases hd
    | cons y rest =>
      obtain rfl : y = e := by simpa [hentries] using hd
      simp only [OrderedDict.set]
      split
      · simp [hentries, Ne.symm hx]
      · simp [hentries]

theorem mergedHeaders_head (hid : getCorrelationId ctx = some id) (hne : id ≠ "")
    (hnone : headers.get correlationHeader = none) :
    (mergedHeaders ctx headers).entries.head? = some (correlationHeader, id) := by
  refine head_foldl_set ?_ (fun x hx hk => ?_)
  · simp only [correlationHeaders, hid, if_neg hne]
    rfl
  · have hget : headers.get x.1 = some x.2 := OrderedDict.get_eq_some_iff.2 hx
    rw [hk, hnone] at hget
    cases hget

/-- A call from a context with an id: the service that is called reads this id, whatever headers the
client has of its own and whatever the caller adds under other names. -/
theorem headerGet_sent (hid : getCorrelationId ctx = some id) (hne : id ≠ "")
    (hnone : headers.get correlationHeader = none) (client : Headers) :
    headerGet (sentHeaders client (mergedHeaders ctx headers)) correlationHeader = some id := by
  have hhead := mergedHeaders_head hid hne hnone
  cases hentries : (mergedHeaders ctx headers).entries with
  | nil =>
    rw [hentries] at hhead
    cases hhead
  | cons e rest =>
    obtain rfl : e = (correlationHeader, id) := by simpa [hentries] using hhead
    have hclient : ∀ x ∈ client.filter (fun e => !(((correlationHeader, id) :: rest).any
        (fun r => lower r.1 == lower e.1))), (lower x.1 == lower correlationHeader) = false := by
      intro x hx
      have hx := (List.mem_filter.1 hx).2
      rw [List.any_cons, Bool.not_or, Bool.and_eq_true, Bool.not_eq_true', beq_eq_false_iff_ne] at hx
      exact beq_eq_false_iff_ne.2 (Ne.symm hx.1)
    rw [headerGet, sentHeaders, hentries, List.find?_append, List.find?_eq_none.2 (by simpa using hclient)]
    simp

/-- A valid id is kept. -/
theorem requestCorrelationId_valid {hs : Headers} (h : headerGet hs correlationHeader = some id)
    (hv : isValidCorrelationId id = true) : requestCorrelationId uuid hs = id := by
  rw [requestCorrelationId, h]
  exact if_pos ⟨valid_ne_empty hv, hv⟩

theorem requestCorrelationId_isValid (hu : isValidCorrelationId uuid = true) (hs : Headers) :
    isValidCorrelationId (requestCorrelationId uuid hs) = true := by
  unfold requestCorrelationId
  split
  · split
    · rename_i hv
      exact hv.2
    · exact hu
  · exact hu

/-- The name that was set is there once. -/
theorem setHeader_unique (name value : String) (hs : Headers) :
    (setHeader name value hs).filter (fun e => decide (e.1 = lower name)) = [(lower name, value)] := by
  induction hs with
  | nil => simp [setHeader]
  | cons e hs ih =>
    simp only [setHeader]
    split
    · rw [List.filter_cons_of_pos (by simp), List.filter_filter]
      have hnone : hs.filter (fun e => decide (e.1 = lower name) && decide (e.1 ≠ lower name)) = [] :=
        List.filter_eq_nil_iff.2 (fun x _ => by by_cases hx : x.1 = lower name <;> simp [hx])
      rw [hnone]
    · rename_i hne
      rw [List.filter_cons_of_neg (by simpa using hne)]
      exact ih

theorem stampCorrelationId_get (uuid : String) (ctx : Context) (headers : OrderedDict String String) :
    (stampCorrelationId uuid ctx headers).get celeryCorrelationHeader =
      some ((headers.get celeryCorrelationHeader).getD (correlationIdOr ctx uuid)) := by
  unfold stampCorrelationId
  split
  · rename_i h
    rw [h]
    rfl
  · rename_i h
    rw [h, OrderedDict.get_set_self]
    rfl

/-- The context of a task is the worker's baseline with the three names of the task: nothing that was
bound before is left. -/
theorem bindTaskContext_eq {baseline : Context} {task : TaskRequest} (hb : FreeForTasks baseline)
    (he : task.isEager = false) (hid : task.headers.get celeryCorrelationHeader = some id)
    (hne : id ≠ "") : bindTaskContext uuid baseline ctx task =
      ((baseline.set "correlation_id" id).set "task_id" task.taskId).set "task_name" task.taskName := by
  have hfree : [("correlation_id", id), ("task_id", task.taskId), ("task_name", task.taskName)].any
      (fun f => (baseline.get f.1).isSome) = false := by
    simp [hb "correlation_id" (by simp), hb "task_id" (by simp), hb "task_name" (by simp)]
  simp only [bindTaskContext, he, hid, if_neg hne, rebind, hfree]
  rfl

theorem bindTaskContext_id {baseline : Context} {task : TaskRequest} (hb : FreeForTasks baseline)
    (he : task.isEager = false) (hid : task.headers.get celeryCorrelationHeader = some id)
    (hne : id ≠ "") : getCorrelationId (bindTaskContext uuid baseline ctx task) = some id := by
  rw [bindTaskContext_eq hb he hid hne, getCorrelationId, OrderedDict.get_set_of_ne (by decide),
    OrderedDict.get_set_of_ne (by decide), OrderedDict.get_set_self]

end Hops

end Correlation
end TrShared
