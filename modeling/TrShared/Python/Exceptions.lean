import Mathlib.Data.List.Basic
import TrShared.Python.Text

/-!
# TrShared.Python.Exceptions

How an error goes through statements: calls, `raise`, `try` with its handlers and `finally`, loops,
branches and `with`. What a condition decides and which function a call runs is left open, so every
execution of a program is one of `Exec`; its log has the calls, and what became of the errors. `except*`
is left out.

* `Exec.thrown`: an error that is raised comes from a call among the own nodes of what runs, from the
  handler it runs in, or is logged as raised by no call.
* `Exec.caught_spec`: the same of every error that a handler takes.
* `Exec.outside_kept`: an error that came from outside ends the execution, or the log says what took it.
-/

namespace TrShared
namespace Python
namespace Exceptions

section Syntax

/-- What a block of statements belongs to: `if`, `match`, a loop, `with`. -/
inductive BlockKind where
  | branch
  | cases
  | loop
  | context
  deriving DecidableEq

/-- What a nested scope defines. -/
inductive Definition (φ : Type) where
  | function (f : φ)
  | cls (name : Text)

variable (φ κ τ : Type)

mutual

/-- A statement, with the calls of its own expressions. A `match` is a `cases` block in the `orelse` of
another. -/
inductive Stmt where
  | simple (calls : List κ)
  /-- `return`, `break`, `continue` -/
  | leave (calls : List κ)
  | raise (bare : Bool) (calls : List κ)
  | block (kind : BlockKind) (calls : List κ) (body orelse : Body)
  | attempt (body : Body) (handlers : Handlers) (orelse finalbody : Body)
  | define (definition : Definition φ) (body : Body)

inductive Body where
  | nil
  | cons (s : Stmt) (rest : Body)

inductive Handlers where
  | nil
  | cons (lineno : Nat) (type : Option τ) (body : Body) (rest : Handlers)

end

structure Handler where
  lineno : Nat
  type : Option τ
  body : Body φ κ τ

structure Try where
  body : Body φ κ τ
  handlers : Handlers φ κ τ
  orelse : Body φ κ τ
  finalbody : Body φ κ τ

variable {φ κ τ}

def Handlers.list : Handlers φ κ τ → List (Handler φ κ τ)
  | .nil => []
  | .cons lineno type body rest => ⟨lineno, type, body⟩ :: rest.list

variable (φ κ τ) in
/-- The nodes of a body that are told apart. -/
inductive Node where
  | call (c : κ)
  | raise
  | attempt (t : Try φ κ τ)

mutual

/-- The nodes of a statement outside nested scopes, from the last to the first. -/
def Stmt.ownNodes : Stmt φ κ τ → List (Node φ κ τ)
  | .simple calls => calls.map .call
  | .leave calls => calls.map .call
  | .raise _ calls => .raise :: calls.map .call
  | .block _ calls body orelse => orelse.ownNodes ++ body.ownNodes ++ calls.map .call
  | .attempt body handlers orelse finalbody =>
    .attempt ⟨body, handlers, orelse, finalbody⟩ ::
      (finalbody.ownNodes ++ orelse.ownNodes ++ handlers.ownNodes ++ body.ownNodes)
  | .define _ _ => []

def Body.ownNodes : Body φ κ τ → List (Node φ κ τ)
  | .nil => []
  | .cons s rest => rest.ownNodes ++ s.ownNodes

def Handlers.ownNodes : Handlers φ κ τ → List (Node φ κ τ)
  | .nil => []
  | .cons _ _ body rest => rest.ownNodes ++ body.ownNodes

end

def Node.call? : Node φ κ τ → Option κ
  | .call c => some c
  | _ => none

def Node.isRaise : Node φ κ τ → Bool
  | .raise => true
  | _ => false

def Try.ownNodes (t : Try φ κ τ) : List (Node φ κ τ) :=
  t.finalbody.ownNodes ++ t.orelse.ownNodes ++ t.handlers.ownNodes ++ t.body.ownNodes

theorem Handlers.ownNodes_mem {h : Handler φ κ τ} {n : Node φ κ τ} (hn : n ∈ h.body.ownNodes) :
    ∀ hs : Handlers φ κ τ, h ∈ hs.list → n ∈ hs.ownNodes
  | .nil, hh => absurd hh List.not_mem_nil
  | .cons lineno type body rest, hh => by
    rw [Handlers.ownNodes, List.mem_append]
    rcases List.mem_cons.mp hh with rfl | hh
    · exact .inr hn
    · exact .inl (ownNodes_mem hn rest hh)

/-! The own nodes of a part are own nodes of the whole. -/

section Parts

variable {n : Node φ κ τ} {s : Stmt φ κ τ} {body orelse finalbody rest : Body φ κ τ}
variable {hs : Handlers φ κ τ} {calls : List κ} {t : Try φ κ τ}

theorem Body.mem_first (h : n ∈ s.ownNodes) : n ∈ (Body.cons s rest).ownNodes := by
  simp [Body.ownNodes, h]

theorem Body.mem_rest (h : n ∈ rest.ownNodes) : n ∈ (Body.cons s rest).ownNodes := by
  simp [Body.ownNodes, h]

theorem Stmt.mem_calls (h : n ∈ calls.map Node.call) :
    n ∈ orelse.ownNodes ++ body.ownNodes ++ calls.map Node.call := List.mem_append_right _ h

theorem Stmt.mem_body (h : n ∈ body.ownNodes) :
    n ∈ orelse.ownNodes ++ body.ownNodes ++ calls.map Node.call := by simp [h]

theorem Stmt.mem_orelse (h : n ∈ orelse.ownNodes) :
    n ∈ orelse.ownNodes ++ body.ownNodes ++ calls.map Node.call := by simp [h]

theorem Stmt.mem_finally (h : n ∈ finalbody.ownNodes) :
    n ∈ (Stmt.attempt body hs orelse finalbody).ownNodes := by
  simp [Stmt.ownNodes, h]

theorem Try.mem_body (h : n ∈ t.body.ownNodes) : n ∈ Node.attempt t :: t.ownNodes := by
  simp [Try.ownNodes, h]

theorem Try.mem_orelse (h : n ∈ t.orelse.ownNodes) : n ∈ Node.attempt t :: t.ownNodes := by
  simp [Try.ownNodes, h]

theorem Try.mem_handler {h : Handler φ κ τ} (hh : h ∈ t.handlers.list) (hn : n ∈ h.body.ownNodes) :
    n ∈ Node.attempt t :: t.ownNodes := by
  simp [Try.ownNodes, Handlers.ownNodes_mem hn _ hh]

theorem Stmt.mem_attempt (h : n ∈ Node.attempt ⟨body, hs, orelse, finalbody⟩ ::
    Try.ownNodes ⟨body, hs, orelse, finalbody⟩) : n ∈ (Stmt.attempt body hs orelse finalbody).ownNodes := by
  rw [Stmt.ownNodes]
  exact h

end Parts

end Syntax

section Execution

variable {φ κ τ σ ε : Type}

/-- The functions of a program: what each does, and the scope that its names belong to. -/
structure Program (φ κ τ σ : Type) where
  body : φ → Body φ κ τ
  scope : φ → σ

inductive Ending (ε : Type) where
  | normal
  | left
  | raised (e : ε)

/-- An error that a handler takes. -/
structure Catch (φ κ τ σ ε : Type) where
  scope : σ
  /-- The error that was being handled when the `try` began. -/
  current : Option ε
  attempt : Try φ κ τ
  before : List (Handler φ κ τ)
  handler : Handler φ κ τ
  error : ε
  /-- How the body of the handler ended. -/
  ending : Ending ε

inductive Event (φ κ τ σ ε : Type) where
  /-- A call ran a function of the program. -/
  | ran (scope : σ) (call : κ) (f : φ)
  /-- A call ran code outside the program, which raised. -/
  | outside (scope : σ) (call : κ) (e : ε)
  /-- Raised by no call: by an operator, by a `raise` of another error, or while a nested scope is
  defined. -/
  | unseen (e : ε)
  | caught (c : Catch φ κ τ σ ε)
  /-- Dropped by a `finally` that ends in another way, or by a context manager. -/
  | lost (e : ε)

def Ending.error : Ending ε → Option ε
  | .raised e => some e
  | _ => none

/-- How a body ends after a statement that leaves it if it ends normally. -/
def Ending.leaving : Ending ε → Ending ε
  | .normal => .left
  | o => o

def Ending.dropped : Ending ε → List (Event φ κ τ σ ε)
  | .raised e => [.lost e]
  | _ => []

variable (φ κ τ σ ε) in
/-- What there is to run, in a scope, while an error is being handled or not. -/
inductive Task where
  | stmt (scope : σ) (current : Option ε) (s : Stmt φ κ τ)
  | body (scope : σ) (current : Option ε) (b : Body φ κ τ)
  | calls (scope : σ) (current : Option ε) (cs : List κ)
  /-- a `try` up to its `finally` -/
  | guarded (scope : σ) (current : Option ε) (t : Try φ κ τ)

def Task.scope : Task φ κ τ σ ε → σ
  | .stmt s _ _ => s
  | .body s _ _ => s
  | .calls s _ _ => s
  | .guarded s _ _ => s

def Task.current : Task φ κ τ σ ε → Option ε
  | .stmt _ cur _ => cur
  | .body _ cur _ => cur
  | .calls _ cur _ => cur
  | .guarded _ cur _ => cur

def Task.ownNodes : Task φ κ τ σ ε → List (Node φ κ τ)
  | .stmt _ _ s => s.ownNodes
  | .body _ _ b => b.ownNodes
  | .calls _ _ cs => cs.map .call
  | .guarded _ _ t => .attempt t :: t.ownNodes

variable (P : Program φ κ τ σ) (isinstance : σ → τ → ε → Prop)

/-- An `except` without a type takes every error; another one those of its type, by what its names mean
in the scope. -/
def Handler.Catches (h : Handler φ κ τ) (s : σ) (e : ε) : Prop :=
  match h.type with
  | none => True
  | some type => isinstance s type e

/-- The executions. -/
inductive Exec : Task φ κ τ σ ε → List (Event φ κ τ σ ε) → Ending ε → Prop where
  | nil {s cur} : Exec (.body s cur .nil) [] .normal
  | cons {s cur st rest l l' o} : Exec (.stmt s cur st) l .normal → Exec (.body s cur rest) l' o →
      Exec (.body s cur (.cons st rest)) (l ++ l') o
  | stop {s cur st rest l o} : Exec (.stmt s cur st) l o → o ≠ .normal →
      Exec (.body s cur (.cons st rest)) l o
  -- some of the calls of an expression, in any order
  | done {s cur cs} : Exec (.calls s cur cs) [] .normal
  | unseen {s cur cs} (e : ε) : Exec (.calls s cur cs) [.unseen e] (.raised e)
  | outside {s cur cs c} (e : ε) : c ∈ cs → Exec (.calls s cur cs) [.outside s c e] (.raised e)
  | returned {s cur cs c f l l' o o'} : c ∈ cs → Exec (.body (P.scope f) cur (P.body f)) l o →
      o.error = none → Exec (.calls s cur cs) l' o' →
      Exec (.calls s cur cs) (.ran s c f :: (l ++ l')) o'
  | propagated {s cur cs c f l e} : c ∈ cs → Exec (.body (P.scope f) cur (P.body f)) l (.raised e) →
      Exec (.calls s cur cs) (.ran s c f :: l) (.raised e)
  | simple {s cur cs l o} : Exec (.calls s cur cs) l o → Exec (.stmt s cur (.simple cs)) l o
  | leave {s cur cs l o} : Exec (.calls s cur cs) l o → Exec (.stmt s cur (.leave cs)) l o.leaving
  | raiseFailed {s cur bare cs l e} : Exec (.calls s cur cs) l (.raised e) →
      Exec (.stmt s cur (.raise bare cs)) l (.raised e)
  | reraised {s bare cs l e} : Exec (.calls s (some e) cs) l .normal →
      Exec (.stmt s (some e) (.raise bare cs)) l (.raised e)
  | raised {s cur bare cs l} (e : ε) : (bare = true → cur = none) → Exec (.calls s cur cs) l .normal →
      Exec (.stmt s cur (.raise bare cs)) (l ++ [.unseen e]) (.raised e)
  | skipped {s cur k cs body orelse l o} : Exec (.calls s cur cs) l o →
      Exec (.stmt s cur (.block k cs body orelse)) l o
  | entered {s cur k cs body orelse b l l' o} : Exec (.calls s cur cs) l .normal →
      b = body ∨ b = orelse → Exec (.body s cur b) l' o →
      Exec (.stmt s cur (.block k cs body orelse)) (l ++ l') o
  | again {s cur cs body orelse l l' l'' o o'} : Exec (.calls s cur cs) l .normal →
      Exec (.body s cur body) l' o → o.error = none →
      Exec (.stmt s cur (.block .loop cs body orelse)) l'' o' →
      Exec (.stmt s cur (.block .loop cs body orelse)) (l ++ (l' ++ l'')) o'
  | broke {s cur cs body orelse l l'} : Exec (.calls s cur cs) l .normal →
      Exec (.body s cur body) l' .left → Exec (.stmt s cur (.block .loop cs body orelse)) (l ++ l') .normal
  -- leaving a `with`, the context manager may raise or drop an error
  | closed {s cur cs body orelse l l' l'' o o'} : Exec (.calls s cur cs) l .normal →
      Exec (.body s cur body) l' o → Exec (.calls s cur cs) l'' o' →
      Exec (.stmt s cur (.block .context cs body orelse)) (l ++ (l' ++ (o.dropped ++ l''))) o'
  | passed {s cur t l l' o} : Exec (.body s cur t.body) l .normal → Exec (.body s cur t.orelse) l' o →
      Exec (.guarded s cur t) (l ++ l') o
  | left {s cur t l} : Exec (.body s cur t.body) l .left → Exec (.guarded s cur t) l .left
  | uncaught {s cur t l e} : Exec (.body s cur t.body) l (.raised e) →
      (∀ h ∈ t.handlers.list, ¬ h.Catches isinstance s e) → Exec (.guarded s cur t) l (.raised e)
  | handled {s cur t l l' o e before h after} : Exec (.body s cur t.body) l (.raised e) →
      t.handlers.list = before ++ h :: after → (∀ h' ∈ before, ¬ h'.Catches isinstance s e) →
      h.Catches isinstance s e → Exec (.body s (some e) h.body) l' o →
      Exec (.guarded s cur t) (l ++ .caught ⟨s, cur, t, before, h, e, o⟩ :: l') o
  | finished {s cur body handlers orelse finalbody l l' o} :
      Exec (.guarded s cur ⟨body, handlers, orelse, finalbody⟩) l o →
      Exec (.body s (o.error.or cur) finalbody) l' .normal →
      Exec (.stmt s cur (.attempt body handlers orelse finalbody)) (l ++ l') o
  | overridden {s cur body handlers orelse finalbody l l' o o'} :
      Exec (.guarded s cur ⟨body, handlers, orelse, finalbody⟩) l o →
      Exec (.body s (o.error.or cur) finalbody) l' o' → o' ≠ .normal →
      Exec (.stmt s cur (.attempt body handlers orelse finalbody)) (l ++ (o.dropped ++ l')) o'
  | defined {s cur d b} : Exec (.stmt s cur (.define d b)) [] .normal
  | undefined {s cur d b} (e : ε) : Exec (.stmt s cur (.define d b)) [.unseen e] (.raised e)

/-- An error came out of one of the calls: from outside the program, or from a call of the function that
the call ran. -/
inductive Throws (l : List (Event φ κ τ σ ε)) (e : ε) : σ → List (Node φ κ τ) → Prop where
  | outside {s ns c} : .call c ∈ ns → .outside s c e ∈ l → Throws l e s ns
  | ran {s ns c f} : .call c ∈ ns → .ran s c f ∈ l → Throws l e (P.scope f) (P.body f).ownNodes →
      Throws l e s ns

/-- An error is the one that is being handled, or is logged as raised by no call, or came through calls. -/
def Thrown (l : List (Event φ κ τ σ ε)) (current : Option ε) (s : σ) (ns : List (Node φ κ τ))
    (e : ε) : Prop :=
  current = some e ∨ .unseen e ∈ l ∨ Throws P l e s ns

variable {P isinstance}

theorem Throws.mono {l l' : List (Event φ κ τ σ ε)} {e : ε} {s : σ} {ns ns' : List (Node φ κ τ)}
    (h : Throws P l e s ns) (hl : ∀ ev ∈ l, ev ∈ l') (hn : ∀ n ∈ ns, n ∈ ns') : Throws P l' e s ns' := by
  induction h generalizing ns' with
  | outside hc he => exact .outside (hn _ hc) (hl _ he)
  | ran hc he _ ih => exact .ran (hn _ hc) (hl _ he) (ih (fun _ h => h))

theorem Thrown.mono {l l' : List (Event φ κ τ σ ε)} {e : ε} {cur : Option ε} {s : σ}
    {ns ns' : List (Node φ κ τ)} (h : Thrown P l cur s ns e) (hl : ∀ ev ∈ l, ev ∈ l')
    (hn : ∀ n ∈ ns, n ∈ ns') : Thrown P l' cur s ns' e := by
  rcases h with h | h | h
  · exact .inl h
  · exact .inr (.inl (hl _ h))
  · exact .inr (.inr (h.mono hl hn))

/-- Where an error that a task raises comes from. -/
theorem Exec.thrown {task : Task φ κ τ σ ε} {l : List (Event φ κ τ σ ε)} {o : Ending ε}
    (h : Exec P isinstance task l o) :
    ∀ e, o.error = some e → Thrown P l task.current task.scope task.ownNodes e := by
  induction h with
  | nil => intro e he; cases he
  | cons _ _ _ ih =>
    intro e he
    exact (ih e he).mono (by simp +contextual) (fun _ => Body.mem_rest)
  | stop _ _ ih =>
    intro e he
    exact (ih e he).mono (by simp) (fun _ => Body.mem_first)
  | done => intro e he; cases he
  | unseen e' =>
    intro e he
    cases he
    exact .inr (.inl (by simp))
  | outside e' hc =>
    intro e he
    cases he
    exact .inr (.inr (.outside (List.mem_map_of_mem hc) List.mem_cons_self))
  | returned _ _ _ _ _ ih =>
    intro e he
    exact (ih e he).mono (by simp +contextual) (by simp)
  | propagated hc _ ih =>
    intro e he
    rcases ih e he with h | h | h
    · exact .inl h
    · exact .inr (.inl (List.mem_cons_of_mem _ h))
    · exact .inr (.inr (.ran (List.mem_map_of_mem hc) List.mem_cons_self
        (h.mono (fun _ => List.mem_cons_of_mem _) (fun _ hn => hn))))
  | simple _ ih =>
    intro e he
    exact (ih e he).mono (by simp) (fun _ hn => hn)
  | @leave _ _ _ _ o _ ih =>
    intro e he
    have ho : o.error = some e := by cases o <;> exact he
    exact (ih e ho).mono (by simp) (fun _ hn => hn)
  | raiseFailed _ ih =>
    intro e he
    exact (ih e he).mono (by simp) (fun _ => List.mem_cons_of_mem _)
  | reraised _ _ => intro e he; exact .inl he
  | raised e' _ _ _ =>
    intro e he
    cases he
    exact .inr (.inl (by simp))
  | skipped _ ih =>
    intro e he
    exact (ih e he).mono (by simp) (fun _ => Stmt.mem_calls)
  | entered _ hb _ _ ih =>
    intro e he
    rcases hb with rfl | rfl
    · exact (ih e he).mono (by simp +contextual) (fun _ => Stmt.mem_body)
    · exact (ih e he).mono (by simp +contextual) (fun _ => Stmt.mem_orelse)
  | again _ _ _ _ _ _ ih =>
    intro e he
    exact (ih e he).mono (by simp +contextual) (by simp)
  | broke => intro e he; cases he
  | closed _ _ _ _ _ ih =>
    intro e he
    exact (ih e he).mono (by simp +contextual) (fun _ => Stmt.mem_calls)
  | passed _ _ _ ih =>
    intro e he
    exact (ih e he).mono (by simp +contextual) (fun _ => Try.mem_orelse)
  | left => intro e he; cases he
  | uncaught _ _ ih =>
    intro e he
    exact (ih e he).mono (by simp) (fun _ => Try.mem_body)
  | handled hbody hlist _ _ _ ihbody ih =>
    intro e he
    rcases ih e he with h | h
    · -- the handler raises what it took
      exact (ihbody e h).mono (by simp +contextual) (fun _ => Try.mem_body)
    · refine Thrown.mono (.inr h) (by simp +contextual) ?_
      exact fun _ => Try.mem_handler (hlist ▸ by simp)
  | finished _ _ ih _ =>
    intro e he
    exact (ih e he).mono (by simp +contextual) (fun _ => Stmt.mem_attempt)
  | @overridden _ _ _ _ _ _ _ _ o _ _ _ _ ihguarded ih =>
    intro e he
    rcases ih e he with h | h
    · -- the `finally` raises the error that was on its way, or the one that was handled before
      cases ho : o.error with
      | none =>
        rw [Task.current, ho, Option.none_or] at h
        exact .inl h
      | some e' =>
        rw [Task.current, ho, Option.some_or] at h
        exact (ihguarded e (ho.trans h)).mono (by simp +contextual) (fun _ => Stmt.mem_attempt)
    · exact Thrown.mono (.inr h) (by simp +contextual) (fun _ => Stmt.mem_finally)
  | defined => intro e he; cases he
  | undefined e' =>
    intro e he
    cases he
    exact .inr (.inl (by simp))

variable (P isinstance) in
/-- What is known of an error that a handler took: where the `try` stands, where the error came from, and
that the handlers before it did not take it. -/
structure Catch.Explained (l : List (Event φ κ τ σ ε)) (s : σ) (ns : List (Node φ κ τ))
    (c : Catch φ κ τ σ ε) : Prop where
  stands : (c.scope = s ∧ .attempt c.attempt ∈ ns) ∨ ∃ s' call f, .ran s' call f ∈ l ∧
    c.scope = P.scope f ∧ .attempt c.attempt ∈ (P.body f).ownNodes
  thrown : Thrown P l c.current c.scope c.attempt.body.ownNodes c.error
  listed : ∃ after, c.attempt.handlers.list = c.before ++ c.handler :: after
  passed : ∀ h ∈ c.before, ¬ h.Catches isinstance c.scope c.error
  catches : c.handler.Catches isinstance c.scope c.error

theorem Catch.Explained.mono {l l' : List (Event φ κ τ σ ε)} {s : σ} {ns ns' : List (Node φ κ τ)}
    {c : Catch φ κ τ σ ε} (h : c.Explained P isinstance l s ns) (hl : ∀ ev ∈ l, ev ∈ l')
    (hn : ∀ n ∈ ns, n ∈ ns') : c.Explained P isinstance l' s ns' := by
  refine ⟨?_, h.thrown.mono hl (fun _ hn => hn), h.listed, h.passed, h.catches⟩
  rcases h.stands with ⟨hs, hc⟩ | ⟨s', call, f, hran, hs, hc⟩
  · exact .inl ⟨hs, hn _ hc⟩
  · exact .inr ⟨s', call, f, hl _ hran, hs, hc⟩

/-- The same for a function that was called. -/
theorem Catch.Explained.ran {l l' : List (Event φ κ τ σ ε)} {s s' : σ} {ns : List (Node φ κ τ)} {call : κ}
    {f : φ} {c : Catch φ κ τ σ ε} (h : c.Explained P isinstance l (P.scope f) (P.body f).ownNodes)
    (hl : ∀ ev ∈ l, ev ∈ l') (hran : .ran s' call f ∈ l') : c.Explained P isinstance l' s ns := by
  refine ⟨?_, h.thrown.mono hl (fun _ hn => hn), h.listed, h.passed, h.catches⟩
  rcases h.stands with ⟨hs, hc⟩ | ⟨s'', call', g, hran', hs, hc⟩
  · exact .inr ⟨s', call, f, hran, hs, hc⟩
  · exact .inr ⟨s'', call', g, hl _ hran', hs, hc⟩

variable (P isinstance) in
/-- Every error that was taken is explained, from the log and the own nodes. -/
def Explains (l : List (Event φ κ τ σ ε)) (s : σ) (ns : List (Node φ κ τ)) : Prop :=
  ∀ c, .caught c ∈ l → c.Explained P isinstance l s ns

theorem Explains.nodes {l : List (Event φ κ τ σ ε)} {s : σ} {ns ns' : List (Node φ κ τ)}
    (h : Explains P isinstance l s ns) (hn : ∀ n ∈ ns, n ∈ ns') : Explains P isinstance l s ns' :=
  fun c hc => (h c hc).mono (fun _ he => he) hn

theorem Explains.append {l l' : List (Event φ κ τ σ ε)} {s : σ} {ns : List (Node φ κ τ)}
    (h : Explains P isinstance l s ns) (h' : Explains P isinstance l' s ns) :
    Explains P isinstance (l ++ l') s ns := by
  intro c hc
  rcases List.mem_append.mp hc with hc | hc
  · exact (h c hc).mono (fun _ => List.mem_append_left _) (fun _ hn => hn)
  · exact (h' c hc).mono (fun _ => List.mem_append_right _) (fun _ hn => hn)

theorem Explains.of_notMem {l : List (Event φ κ τ σ ε)} {s : σ} {ns : List (Node φ κ τ)}
    (h : ∀ c, .caught c ∉ l) : Explains P isinstance l s ns := fun c hc => absurd hc (h c)

theorem Explains.ran {l : List (Event φ κ τ σ ε)} {s s' : σ} {ns : List (Node φ κ τ)} {call : κ} {f : φ}
    (h : Explains P isinstance l (P.scope f) (P.body f).ownNodes) :
    Explains P isinstance (.ran s' call f :: l) s ns := by
  intro c hc
  exact (h c (List.mem_of_ne_of_mem (by simp) hc)).ran (fun _ => List.mem_cons_of_mem _) List.mem_cons_self

theorem caught_notMem_dropped {o : Ending ε} {c : Catch φ κ τ σ ε} : Event.caught c ∉ o.dropped := by
  cases o <;> simp [Ending.dropped]

theorem Exec.caught_spec {task : Task φ κ τ σ ε} {l : List (Event φ κ τ σ ε)} {o : Ending ε}
    (h : Exec P isinstance task l o) : Explains P isinstance l task.scope task.ownNodes := by
  induction h with
  | nil => exact .of_notMem (by simp)
  | cons _ _ ih ih' =>
    exact (ih.nodes (fun _ => Body.mem_first)).append (ih'.nodes (fun _ => Body.mem_rest))
  | stop _ _ ih => exact ih.nodes (fun _ => Body.mem_first)
  | done => exact .of_notMem (by simp)
  | unseen e => exact .of_notMem (by simp)
  | outside e _ => exact .of_notMem (by simp)
  | returned _ _ _ _ ih ih' =>
    rw [← List.cons_append]
    exact ih.ran.append ih'
  | propagated _ _ ih => exact ih.ran
  | simple _ ih => exact ih
  | leave _ ih => exact ih
  | raiseFailed _ ih => exact ih.nodes (fun _ => List.mem_cons_of_mem _)
  | reraised _ ih => exact ih.nodes (fun _ => List.mem_cons_of_mem _)
  | raised e _ _ ih =>
    exact (ih.nodes (fun _ => List.mem_cons_of_mem _)).append (.of_notMem (by simp))
  | skipped _ ih => exact ih.nodes (fun _ => Stmt.mem_calls)
  | entered _ hb _ ih ih' =>
    refine (ih.nodes (fun _ => Stmt.mem_calls)).append ?_
    rcases hb with rfl | rfl
    · exact ih'.nodes (fun _ => Stmt.mem_body)
    · exact ih'.nodes (fun _ => Stmt.mem_orelse)
  | again _ _ _ _ ih ihbody ih' =>
    exact (ih.nodes (fun _ => Stmt.mem_calls)).append ((ihbody.nodes (fun _ => Stmt.mem_body)).append ih')
  | broke _ _ ih ih' =>
    exact (ih.nodes (fun _ => Stmt.mem_calls)).append (ih'.nodes (fun _ => Stmt.mem_body))
  | closed _ _ _ ih ihbody ih' =>
    refine (ih.nodes (fun _ => Stmt.mem_calls)).append ((ihbody.nodes (fun _ => Stmt.mem_body)).append ?_)
    exact .append (.of_notMem (fun _ => caught_notMem_dropped)) (ih'.nodes (fun _ => Stmt.mem_calls))
  | passed _ _ ih ih' =>
    exact (ih.nodes (fun _ => Try.mem_body)).append (ih'.nodes (fun _ => Try.mem_orelse))
  | left _ ih => exact ih.nodes (fun _ => Try.mem_body)
  | uncaught _ _ ih => exact ih.nodes (fun _ => Try.mem_body)
  | handled hbody hlist hbefore hcatches _ ih ih' =>
    intro c hc
    rcases List.mem_append.mp hc with hc | hc
    · exact (ih c hc).mono (by simp +contextual) (fun _ => Try.mem_body)
    rcases List.mem_cons.mp hc with hc | hc
    · cases hc
      exact ⟨.inl ⟨rfl, List.mem_cons_self⟩,
        (hbody.thrown _ rfl).mono (by simp +contextual) (by simp [Task.ownNodes]), ⟨_, hlist⟩, hbefore,
        hcatches⟩
    · refine (ih' c hc).mono (by simp +contextual) ?_
      exact fun _ => Try.mem_handler (hlist ▸ by simp)
  | finished _ _ ih ih' =>
    exact (ih.nodes (fun _ => Stmt.mem_attempt)).append (ih'.nodes (fun _ => Stmt.mem_finally))
  | overridden _ _ _ ih ih' =>
    refine (ih.nodes (fun _ => Stmt.mem_attempt)).append ?_
    exact .append (.of_notMem (fun _ => caught_notMem_dropped)) (ih'.nodes (fun _ => Stmt.mem_finally))
  | defined => exact .of_notMem (by simp)
  | undefined e => exact .of_notMem (by simp)

/-- An error was dropped, or taken by a handler that did not raise it again. -/
def Taken (l : List (Event φ κ τ σ ε)) (e : ε) : Prop :=
  .lost e ∈ l ∨ ∃ c, .caught c ∈ l ∧ c.error = e ∧ c.ending.error ≠ some e

theorem Taken.mono {l l' : List (Event φ κ τ σ ε)} {e : ε} (h : Taken l e) (hl : ∀ ev ∈ l, ev ∈ l') :
    Taken l' e := by
  rcases h with h | ⟨c, hc, he, hending⟩
  · exact .inl (hl _ h)
  · exact .inr ⟨c, hl _ hc, he, hending⟩

/-- No error from outside is gone without a trace. -/
def Kept (l : List (Event φ κ τ σ ε)) (o : Ending ε) : Prop :=
  ∀ s c e, .outside s c e ∈ l → o.error = some e ∨ Taken l e

theorem Kept.of_notMem {l : List (Event φ κ τ σ ε)} {o : Ending ε} (h : ∀ s c e, .outside s c e ∉ l) :
    Kept l o := fun s c e he => absurd he (h s c e)

theorem Kept.append {l l' : List (Event φ κ τ σ ε)} {o o' : Ending ε} (h : Kept l o)
    (ho : ∀ e, o.error = some e → o'.error = some e ∨ Taken l' e) (h' : Kept l' o') :
    Kept (l ++ l') o' := by
  intro s c e he
  rcases List.mem_append.mp he with he | he
  · rcases h s c e he with h | h
    · exact (ho e h).imp_right (fun h => h.mono (fun _ => List.mem_append_right _))
    · exact .inr (h.mono (fun _ => List.mem_append_left _))
  · exact (h' s c e he).imp_right (fun h => h.mono (fun _ => List.mem_append_right _))

theorem Kept.append_ended {l l' : List (Event φ κ τ σ ε)} {o o' : Ending ε} (h : Kept l o)
    (ho : o.error = none) (h' : Kept l' o') : Kept (l ++ l') o' := by
  refine h.append ?_ h'
  intro e he
  rw [ho] at he
  cases he

theorem Kept.cons {l : List (Event φ κ τ σ ε)} {o : Ending ε} {ev : Event φ κ τ σ ε} (h : Kept l o)
    (hev : ∀ s c e, ev ≠ .outside s c e) : Kept (ev :: l) o := by
  intro s c e he
  have he := List.mem_of_ne_of_mem (hev s c e).symm he
  exact (h s c e he).imp_right (fun h => h.mono (fun _ => List.mem_cons_of_mem _))

theorem taken_dropped {o : Ending ε} (l : List (Event φ κ τ σ ε)) :
    ∀ e, o.error = some e → Taken (o.dropped ++ l) e := by
  intro e he
  cases o with
  | raised e' =>
    cases he
    exact .inl List.mem_cons_self
  | _ => cases he

theorem Kept.dropped {l : List (Event φ κ τ σ ε)} {o : Ending ε} (h : Kept l o) (o' : Ending ε) :
    Kept (o'.dropped ++ l) o := by
  cases o' with
  | raised e => exact h.cons (by simp)
  | _ => exact h

theorem Exec.outside_kept {task : Task φ κ τ σ ε} {l : List (Event φ κ τ σ ε)} {o : Ending ε}
    (h : Exec P isinstance task l o) : Kept l o := by
  induction h with
  | nil => exact .of_notMem (by simp)
  | cons _ _ ih ih' => exact ih.append_ended rfl ih'
  | stop _ _ ih => exact ih
  | done => exact .of_notMem (by simp)
  | unseen e => exact .of_notMem (by simp)
  | outside e' _ =>
    intro s c e he
    simp only [List.mem_singleton, Event.outside.injEq] at he
    exact .inl (he.2.2 ▸ rfl)
  | returned _ _ ho _ ih ih' => exact (ih.append_ended ho ih').cons (by simp)
  | propagated _ _ ih => exact ih.cons (by simp)
  | simple _ ih => exact ih
  | @leave _ _ _ _ o _ ih => cases o <;> exact ih
  | raiseFailed _ ih => exact ih
  | reraised _ ih =>
    intro s c e he
    rcases ih s c e he with h | h
    · cases h
    · exact .inr h
  | raised e _ _ ih => exact ih.append_ended rfl (.of_notMem (by simp))
  | skipped _ ih => exact ih
  | entered _ _ _ ih ih' => exact ih.append_ended rfl ih'
  | again _ _ ho _ ih ihbody ih' => exact ih.append_ended rfl (ihbody.append_ended ho ih')
  | broke _ _ ih ih' =>
    intro s c e he
    rcases ih.append_ended rfl ih' s c e he with h | h
    · cases h
    · exact .inr h
  | closed _ _ _ ih ihbody ih' =>
    refine ih.append_ended rfl (ihbody.append ?_ (ih'.dropped _))
    exact fun e he => .inr (taken_dropped _ e he)
  | passed _ _ ih ih' => exact ih.append_ended rfl ih'
  | left _ ih => exact ih
  | uncaught _ _ ih => exact ih
  | @handled _ _ _ _ _ o e _ _ _ _ _ _ _ _ ih ih' =>
    refine ih.append ?_ (ih'.cons (by simp))
    intro e' he
    cases he
    by_cases ho : o.error = some e
    · exact .inl ho
    · exact .inr (.inr ⟨_, List.mem_cons_self, rfl, ho⟩)
  | finished _ _ ih ih' =>
    intro s c e he
    rcases List.mem_append.mp he with he | he
    · exact (ih s c e he).imp_right (fun h => h.mono (fun _ => List.mem_append_left _))
    · rcases ih' s c e he with h | h
      · cases h
      · exact .inr (h.mono (fun _ => List.mem_append_right _))
  | overridden _ _ _ ih ih' => exact ih.append (fun e he => .inr (taken_dropped _ e he)) (ih'.dropped _)
  | defined => exact .of_notMem (by simp)
  | undefined e => exact .of_notMem (by simp)

end Execution

end Exceptions
end Python
end TrShared
