import TrShared.Python.Urlencoded
import TrShared.Schemas.UnstorableText

/-!
# TrShared.Middleware.UnstorableText

`UnstorableTextMiddleware` of `middleware/unstorable_text.py`: it drains the request out of the server's
`receive`, looks for unstorable text in it, and hands the app a `replay` that returns the drained messages
before it goes on with the live `receive`.

`json.loads` is a parameter (`none` when it raises a `ValueError` or a `RecursionError`). The messages of
the server may go on forever, or stop at any point: a `receive` that does not return is `none`.

* `drain_iff`: draining ends with the messages up to the first one that ends the body, if there is one.
* `replay_message`: the replay followed by the live messages is what the server produced.
* `middleware_transparent`: what the app receives, and when it is called.
-/

namespace TrShared
namespace Middleware
namespace UnstorableText

open Python Schemas

abbrev Bytes := List UInt8

/-- An ASGI message; `body` and `more_body` may be missing. -/
structure Message where
  type : String
  body : Option Bytes := none
  moreBody : Option Bool := none
  deriving DecidableEq

/-- The messages of the server's `receive`, call by call; once it does not return, it never does. -/
structure Server where
  message : Nat → Option Message
  stopped : ∀ k, message k = none → message (k + 1) = none

structure Scope where
  type : String
  path : Text
  queryString : Bytes
  headers : List (Bytes × Bytes)

/-! ## The content type -/

/-- `Headers(scope=scope).get("content-type")`. -/
def Scope.contentType (scope : Scope) : Option Text :=
  (scope.headers.find? (fun h => decide (decodeLatin1 h.1 = text "content-type"))).map
    (fun h => decodeLatin1 h.2)

/-- `str.lower`, below U+0100. -/
def lowerChar (c : CodePoint) : CodePoint :=
  if (65 ≤ c.val ∧ c.val ≤ 90) ∨ (192 ≤ c.val ∧ c.val ≤ 222 ∧ c.val ≠ 215) then c + 32 else c

/-- `Message.get_content_type` of the `email` package for a header with this value. -/
def getContentType (value : Text) : Text :=
  let ctype := (strip (partition (codePoint ';') value).1).map lowerChar
  if ctype.count (codePoint '/') = 1 then ctype else text "text/plain"

def getContentMaintype (value : Text) : Text :=
  (partition (codePoint '/') (getContentType value)).1

def getContentSubtype (value : Text) : Text :=
  (partition (codePoint '/') (getContentType value)).2

/-- `_content_type`: an empty header counts as a missing one. -/
def contentType (raw : Option Text) : Option Text := raw.filter (fun value => !value.isEmpty)

def isJson : Option Text → Bool
  | none => true
  | some value =>
    let subtype := getContentSubtype value
    decide (getContentMaintype value = text "application") &&
      (decide (subtype = text "json") || (text "+json").isSuffixOf subtype)

def isForm : Option Text → Bool
  | none => false
  | some value => decide (getContentType value = text "application/x-www-form-urlencoded")

/-! ## The search -/

section Locations

variable {σ : Type}

def pairsLocation : List (Text × Text) → Option (Path σ)
  | [] => none
  | (name, value) :: pairs =>
    if (unstorableTextLocation (.str name : Value σ)).isSome then some []
    else if (unstorableTextLocation (.str value : Value σ)).isSome then some [.str name]
    else pairsLocation pairs

def urlencodedLocation (raw : Bytes) : Option (Path σ) := pairsLocation (parseQsl (decodeLatin1 raw))

def jsonLocation (loads : Bytes → Option (Value σ)) (raw : Bytes) : Option (Path σ) :=
  match loads raw with
  | none => none
  | some parsed => unstorableTextLocation parsed

/-- What is done with the body; `none` when it is not looked at. -/
def bodyLocation (loads : Bytes → Option (Value σ)) (ct : Option Text) :
    Option (Bytes → Option (Path σ)) :=
  if isJson ct then some (jsonLocation loads)
  else if isForm ct then some urlencodedLocation
  else none

end Locations

/-! ## `__call__` -/

/-- The message is not the last one that the loop takes only if it announces more of the body. -/
def Message.last (m : Message) : Bool := m.type != "http.request" || !m.moreBody.getD false

/-- The loop; `none` when it has not ended. -/
def drain (server : Server) : (fuel : Nat) → (messages : List Message) → Option (List Message)
  | 0, _ => none
  | fuel + 1, messages =>
    match server.message messages.length with
    | none => none
    | some m =>
      if m.last then some (messages ++ [m]) else drain server fuel (messages ++ [m])

def body (messages : List Message) : Bytes :=
  (messages.filter (fun m => m.type == "http.request")).flatMap (fun m => m.body.getD [])

/-- The `receive` of the app: the messages still to be replayed, and how many were taken from the
server. -/
structure Replay where
  messages : List Message := []
  taken : Nat := 0

def Replay.receive (server : Server) (r : Replay) : Option (Message × Replay) :=
  match r.messages with
  | m :: messages => some (m, { r with messages := messages })
  | [] => (server.message r.taken).map (fun m => (m, { r with taken := r.taken + 1 }))

/-- What the app gets from its `receive` when it calls it for the `k`-th time, counted from 0. -/
def Replay.message (server : Server) : Replay → (k : Nat) → Option Message
  | r, 0 => (r.receive server).map Prod.fst
  | r, k + 1 =>
    match r.receive server with
    | some (_, r) => r.message server k
    | none => none

inductive Outcome (σ : Type) where
  /-- 422, with the location that the answer names. -/
  | rejected (loc : Path σ)
  | called (receive : Replay)

def call {σ : Type} (loads : Bytes → Option (Value σ)) (fuel : Nat) (scope : Scope)
    (server : Server) : Option (Outcome σ) :=
  if scope.type ≠ "http" then some (.called {})
  else if (unstorableTextLocation (.str scope.path : Value σ)).isSome then
    some (.rejected [.str (text "path")])
  else
    match (urlencodedLocation scope.queryString : Option (Path σ)) with
    | some query => some (.rejected (.str (text "query") :: query))
    | none =>
      match bodyLocation loads (contentType scope.contentType) with
      | none => some (.called {})
      | some location =>
        match drain server fuel [] with
        | none => none
        | some messages =>
          match location (body messages) with
          | some loc => some (.rejected (.str (text "body") :: loc))
          | none => some (.called { messages := messages, taken := messages.length })

/-! ## What the app receives -/

section Transparency

variable {server : Server} {messages : List Message} {fuel : Nat}

theorem stopped_later {k j : Nat} (h : server.message k = none) (hle : k ≤ j) :
    server.message j = none := by
  induction hle with
  | refl => exact h
  | step _ ih => exact server.stopped _ ih

/-- The messages so far are the first ones of the server. -/
def Taken (server : Server) (messages : List Message) : Prop :=
  ∀ k, k < messages.length → server.message k = messages[k]?

theorem Taken.snoc {m : Message} (h : Taken server messages)
    (hm : server.message messages.length = some m) : Taken server (messages ++ [m]) := by
  intro k hk
  by_cases hlt : k < messages.length
  · rw [List.getElem?_append_left hlt]
    exact h k hlt
  · have heq : k = messages.length := by
      simp only [List.length_append, List.length_singleton] at hk
      omega
    subst heq
    simp [hm]

theorem live_message (k taken : Nat) :
    (Replay.mk [] taken).message server k = server.message (taken + k) := by
  induction k generalizing taken with
  | zero =>
    simp only [Replay.message, Replay.receive, Option.map_map, Nat.add_zero]
    cases server.message taken <;> rfl
  | succ k ih =>
    simp only [Replay.message, Replay.receive]
    cases hm : server.message taken with
    | none => exact (stopped_later hm (by omega)).symm
    | some m =>
      simp only [Option.map_some]
      rw [ih, Nat.add_right_comm, Nat.add_assoc]

/-- The replay and then the live messages are the messages from `start` on. -/
theorem replay_message {start : Nat}
    (h : ∀ k, k < messages.length → server.message (start + k) = messages[k]?) (k : Nat) :
    (Replay.mk messages (start + messages.length)).message server k =
      server.message (start + k) := by
  induction messages generalizing start k with
  | nil => exact live_message k start
  | cons m messages ih =>
    cases k with
    | zero =>
      have h0 := h 0 (by simp)
      simp only [Replay.message, Replay.receive, Option.map_some]
      rw [h0]
      rfl
    | succ k =>
      simp only [Replay.message, Replay.receive]
      have hnext := @ih (start + 1) (fun j hj => by
        have hj' := h (j + 1) (by simpa using hj)
        rw [Nat.add_right_comm, Nat.add_assoc, hj']
        rfl) k
      have hlength : start + (m :: messages).length = start + 1 + messages.length := by
        simp only [List.length_cons]
        omega
      rw [hlength, hnext, Nat.add_right_comm, Nat.add_assoc]

/-! ## When draining ends -/

/-- The messages of one request: the first ones of the server, up to the one that ends the body. -/
structure Request (server : Server) (messages : List Message) : Prop where
  taken : Taken server messages
  ends : ∃ before m, messages = before ++ [m] ∧ m.last = true ∧ ∀ x ∈ before, x.last = false

theorem drain_request (ht : Taken server messages) (hl : ∀ x ∈ messages, x.last = false)
    {drained : List Message} (h : drain server fuel messages = some drained) :
    Request server drained := by
  induction fuel generalizing messages with
  | zero => cases h
  | succ fuel ih =>
    simp only [drain] at h
    split at h
    · cases h
    · rename_i m hm
      split at h
      · rename_i hlast
        cases h
        exact ⟨ht.snoc hm, messages, m, rfl, hlast, hl⟩
      · rename_i hlast
        refine ih (ht.snoc hm) ?_ h
        intro x hx
        rcases List.mem_append.mp hx with hx | hx
        · exact hl x hx
        · obtain rfl := List.mem_singleton.mp hx
          simpa using hlast

/-- With a step for each message that is missing, the loop takes them all. -/
theorem drain_of_request {later : List Message} (h : Request server (messages ++ later))
    (hlater : later ≠ []) : drain server later.length messages = some (messages ++ later) := by
  induction later generalizing messages with
  | nil => exact absurd rfl hlater
  | cons m later ih =>
    have hm : server.message messages.length = some m := by
      rw [h.taken messages.length (by simp)]
      simp
    obtain ⟨before, m', heq, hlast, hbefore⟩ := h.ends
    simp only [List.length_cons, drain, hm]
    cases later with
    | nil =>
      obtain ⟨-, hm'⟩ := List.append_inj' heq rfl
      cases hm'
      rw [if_pos hlast]
    | cons n later =>
      have hnot : m.last = false := by
        refine hbefore m ?_
        have hdrop := congrArg List.dropLast heq
        rw [List.dropLast_concat, List.dropLast_append_of_ne_nil (by simp)] at hdrop
        rw [← hdrop]
        simp
      rw [if_neg (by rw [hnot]; exact Bool.false_ne_true)]
      have hrest : messages ++ m :: n :: later = (messages ++ [m]) ++ n :: later := by simp
      rw [hrest] at h ⊢
      exact ih h (by simp)

/-- Draining ends exactly when the body does, with the messages of the request. -/
theorem drain_iff : (∃ fuel, drain server fuel [] = some messages) ↔ Request server messages := by
  constructor
  · rintro ⟨fuel, h⟩
    exact drain_request (fun k hk => by cases hk) (fun x hx => by cases hx) h
  · intro h
    obtain ⟨before, m, rfl, -⟩ := h.ends
    exact ⟨_, @drain_of_request server [] _ h (by simp)⟩

end Transparency

/-! ## When the app is called -/

section Called

/-- No name and no value is unstorable. -/
def PairsClean (pairs : List (Text × Text)) : Prop :=
  ∀ pair ∈ pairs, ¬ Unstorable pair.1 ∧ ¬ Unstorable pair.2

variable {σ : Type} {loads : Bytes → Option (Value σ)} {scope : Scope} {server : Server}

/-- No string in the decoded body is unstorable; a body that is not JSON has none. -/
def JsonClean (loads : Bytes → Option (Value σ)) (raw : Bytes) : Prop :=
  ∀ value, loads raw = some value → ∀ s, Occurs s value → ¬ Unstorable s

/-- The body that the content type asks to look at comes to its end and is clean. -/
def BodyClean (loads : Bytes → Option (Value σ)) (ct : Option Text) (server : Server) : Prop :=
  if isJson ct then ∃ messages, Request server messages ∧ JsonClean loads (body messages)
  else if isForm ct then
    ∃ messages, Request server messages ∧ PairsClean (parseQsl (decodeLatin1 (body messages)))
  else True

/-- The path, the query string and the body are clean. -/
structure Clean (loads : Bytes → Option (Value σ)) (scope : Scope) (server : Server) : Prop where
  path : ¬ Unstorable scope.path
  query : PairsClean (parseQsl (decodeLatin1 scope.queryString))
  body : BodyClean loads (contentType scope.contentType) server

/-- The app is called, after some number of messages were drained. -/
def Calls (loads : Bytes → Option (Value σ)) (scope : Scope) (server : Server) : Prop :=
  ∃ fuel receive, call loads fuel scope server = some (.called receive)

theorem str_location (s : Text) :
    (unstorableTextLocation (.str s : Value σ)).isSome = false ↔ ¬ Unstorable s := by
  classical
  rw [Option.isSome_eq_false_iff, Option.isNone_iff_eq_none, unstorableTextLocation_eq_none]
  constructor
  · exact fun h => h s .here
  · intro h t ht
    cases ht
    exact h

theorem pairsLocation_eq_none (pairs : List (Text × Text)) :
    (pairsLocation pairs : Option (Path σ)) = none ↔ PairsClean pairs := by
  induction pairs with
  | nil => simp [pairsLocation, PairsClean]
  | cons pair pairs ih =>
    obtain ⟨name, value⟩ := pair
    have hname := @str_location σ name
    have hvalue := @str_location σ value
    simp only [pairsLocation, PairsClean, List.forall_mem_cons]
    rw [← hname, ← hvalue]
    cases (unstorableTextLocation (.str name : Value σ)).isSome with
    | true => simp
    | false =>
      cases (unstorableTextLocation (.str value : Value σ)).isSome with
      | true => simp
      | false => simpa [PairsClean] using ih

theorem jsonLocation_eq_none {raw : Bytes} : jsonLocation loads raw = none ↔
    JsonClean loads raw := by
  classical
  simp only [jsonLocation, JsonClean]
  cases loads raw with
  | none => simp
  | some value =>
    simp only [unstorableTextLocation_eq_none]
    constructor
    · rintro h value' ⟨⟩
      exact h
    · exact fun h => h value rfl

/-- What is left of a call once the path and the query string are clean. -/
theorem call_of_clean_head {fuel : Nat} (ht : scope.type = "http") (hp : ¬ Unstorable scope.path)
    (hq : PairsClean (parseQsl (decodeLatin1 scope.queryString))) :
    call loads fuel scope server =
      match bodyLocation loads (contentType scope.contentType) with
      | none => some (.called {})
      | some location =>
        match drain server fuel [] with
        | none => none
        | some messages =>
          match location (body messages) with
          | some loc => some (.rejected (.str (text "body") :: loc))
          | none => some (.called { messages := messages, taken := messages.length }) := by
  have hpath := (@str_location σ scope.path).mpr hp
  have hquery : (urlencodedLocation scope.queryString : Option (Path σ)) = none :=
    (pairsLocation_eq_none _).mpr hq
  simp only [call, ht, hpath, hquery, ne_eq, not_true_eq_false, Bool.false_eq_true, if_false]

/-- A body that is looked at: the app is called iff the request ends and nothing is found in it. -/
theorem calls_iff_location {location : Bytes → Option (Path σ)} (ht : scope.type = "http")
    (hp : ¬ Unstorable scope.path) (hq : PairsClean (parseQsl (decodeLatin1 scope.queryString)))
    (hl : bodyLocation loads (contentType scope.contentType) = some location) :
    Calls loads scope server ↔
      ∃ messages, Request server messages ∧ location (body messages) = none := by
  constructor
  · rintro ⟨fuel, receive, hc⟩
    rw [call_of_clean_head ht hp hq, hl] at hc
    simp only at hc
    split at hc
    · cases hc
    · rename_i messages hd
      split at hc
      · cases hc
      · rename_i hnone
        exact ⟨messages, drain_iff.mp ⟨fuel, hd⟩, hnone⟩
  · rintro ⟨messages, hr, hnone⟩
    obtain ⟨fuel, hd⟩ := drain_iff.mpr hr
    refine ⟨fuel, ⟨messages, messages.length⟩, ?_⟩
    rw [call_of_clean_head ht hp hq, hl]
    simp only [hd, hnone]

theorem calls_iff_bodyClean (ht : scope.type = "http") (hp : ¬ Unstorable scope.path)
    (hq : PairsClean (parseQsl (decodeLatin1 scope.queryString))) :
    Calls loads scope server ↔ BodyClean loads (contentType scope.contentType) server := by
  cases hj : isJson (contentType scope.contentType) with
  | true =>
    have hl : bodyLocation loads (contentType scope.contentType) = some (jsonLocation loads) := by
      simp only [bodyLocation, hj, if_true]
    simp only [calls_iff_location ht hp hq hl, BodyClean, hj, if_true, jsonLocation_eq_none]
  | false =>
    cases hf : isForm (contentType scope.contentType) with
    | true =>
      have hl : bodyLocation loads (contentType scope.contentType) = some urlencodedLocation := by
        simp [bodyLocation, hj, hf]
      simp only [calls_iff_location ht hp hq hl, BodyClean, hj, hf, Bool.false_eq_true, if_false,
        if_true, urlencodedLocation, pairsLocation_eq_none]
    | false =>
      have hl : bodyLocation loads (contentType scope.contentType) = none := by
        simp [bodyLocation, hj, hf]
      refine iff_of_true ⟨0, {}, ?_⟩ (by simp [BodyClean, hj, hf])
      rw [call_of_clean_head ht hp hq, hl]

/-- A call of the app means that the path and the query string are clean. -/
theorem clean_head_of_calls (ht : scope.type = "http") (h : Calls loads scope server) :
    ¬ Unstorable scope.path ∧ PairsClean (parseQsl (decodeLatin1 scope.queryString)) := by
  obtain ⟨fuel, receive, hc⟩ := h
  simp only [call, ht, ne_eq, not_true_eq_false, if_false] at hc
  split at hc
  · cases hc
  · rename_i hp
    split at hc
    · cases hc
    · rename_i hq
      exact ⟨str_location scope.path |>.mp (by simpa using hp), (pairsLocation_eq_none _).mp hq⟩

/-- The `receive` that the app gets. -/
theorem called_receive {fuel : Nat} {receive : Replay}
    (h : call loads fuel scope server = some (.called receive)) : Taken server receive.messages ∧
      receive.taken = receive.messages.length := by
  have hlive : Taken server [] := fun k hk => by cases hk
  simp only [call] at h
  split at h
  · cases h
    exact ⟨hlive, rfl⟩
  · split at h
    · cases h
    · split at h
      · cases h
      · split at h
        · cases h
          exact ⟨hlive, rfl⟩
        · split at h
          · cases h
          · rename_i messages hd
            split at h
            · cases h
            · cases h
              exact ⟨(drain_iff.mp ⟨fuel, hd⟩).taken, rfl⟩

end Called

/-- For every scope and every sequence of messages of the server: if the app is called, its `k`-th
`receive` returns what the server's `k`-th one does, for every `k`; and it is called exactly when the
scope is not an HTTP one, or the path, the query string and the body that the content type asks to look
at contain no unstorable text. -/
theorem middleware_transparent {σ : Type} (loads : Bytes → Option (Value σ)) (scope : Scope)
    (server : Server) :
    (∀ fuel receive, call loads fuel scope server = some (.called receive) →
      ∀ k, receive.message server k = server.message k) ∧
    (Calls loads scope server ↔ scope.type ≠ "http" ∨ Clean loads scope server) := by
  constructor
  · intro fuel receive h k
    obtain ⟨htaken, hlength⟩ := called_receive h
    obtain ⟨messages, taken⟩ := receive
    simp only at htaken hlength
    have hreplay := @replay_message server messages 0 (fun j hj => by
      rw [Nat.zero_add]
      exact htaken j hj) k
    simpa [hlength] using hreplay
  · by_cases ht : scope.type = "http"
    · simp only [ht, ne_eq, not_true_eq_false, false_or]
      constructor
      · intro h
        obtain ⟨hp, hq⟩ := clean_head_of_calls ht h
        exact ⟨hp, hq, (calls_iff_bodyClean ht hp hq).mp h⟩
      · intro h
        exact (calls_iff_bodyClean ht h.path h.query).mpr h.body
    · refine iff_of_true ⟨0, {}, ?_⟩ (.inl ht)
      simp only [call, if_pos ht]

end UnstorableText
end Middleware
end TrShared
