/-!
# TrShared.Machine.Recursion

Mutually recursive procedures that may not end. A query is a procedure with its arguments; the body of a
query is a program that may ask other queries before it returns its answer, so nothing is assumed about
which calls it makes or in what order. `run` carries the calls out to a bounded depth.

* `run_mono`: a deeper bound gives the same answer.
* `run_total`: if every query that a body may ask, whatever the answers so far, is smaller in a
  well-founded order, every query is answered.
-/

namespace TrShared
namespace Machine

/-- A procedure's body: it returns, or asks a query and goes on with the answer. -/
inductive Prog (Q : Type) (A : Q → Type) (β : Type) : Type where
  | ret (b : β)
  | call (q : Q) (next : A q → Prog Q A β)

namespace Prog

section Monad

variable {Q : Type} {A : Q → Type} {β γ : Type}

def bind : Prog Q A β → (β → Prog Q A γ) → Prog Q A γ
  | .ret b, f => f b
  | .call q next, f => .call q (fun a => (next a).bind f)

instance monadProg : Monad (Prog Q A) where
  pure := .ret
  bind := bind

/-- Ask a query. -/
def ask (q : Q) : Prog Q A (A q) := .call q .ret

/-- `[y for x in l for y in f(x)]`. -/
def collect (l : List β) (f : β → Prog Q A (List γ)) : Prog Q A (List γ) :=
  match l with
  | [] => .ret []
  | x :: l => (f x).bind (fun ys => (collect l f).bind (fun rest => .ret (ys ++ rest)))

/-- A loop over a list with a state. -/
def fold (l : List β) (s : γ) (f : γ → β → Prog Q A γ) : Prog Q A γ :=
  match l with
  | [] => .ret s
  | x :: l => (f s x).bind (fun s => fold l s f)

/-- `all(f(x) for x in l)`. -/
def every (l : List β) (f : β → Prog Q A Bool) : Prog Q A Bool :=
  match l with
  | [] => .ret true
  | x :: l => (f x).bind (fun b => if b then every l f else .ret false)

/-- Every query that the program may ask, whatever the answers before it, satisfies `P`. -/
def Asks (P : Q → Prop) : Prog Q A β → Prop
  | .ret _ => True
  | .call q next => P q ∧ ∀ a, (next a).Asks P

/-- The result, where `answer` has answers for the queries that are asked. -/
def eval (answer : (q : Q) → Option (A q)) : Prog Q A β → Option β
  | .ret b => some b
  | .call q next => (answer q).bind (fun a => (next a).eval answer)

variable {P : Q → Prop}

theorem asks_pure (b : β) : (pure b : Prog Q A β).Asks P := trivial

theorem asks_ask {q : Q} (h : P q) : (ask q : Prog Q A (A q)).Asks P := ⟨h, fun _ => trivial⟩

theorem asks_bind {p : Prog Q A β} {f : β → Prog Q A γ} (hp : p.Asks P) (hf : ∀ b, (f b).Asks P) :
    (p.bind f).Asks P := by
  induction p with
  | ret b => exact hf b
  | call q next ih => exact ⟨hp.1, fun a => ih a (hp.2 a)⟩

theorem asks_monad_bind {p : Prog Q A β} {f : β → Prog Q A γ} (hp : p.Asks P) (hf : ∀ b, (f b).Asks P) :
    (p >>= f).Asks P :=
  asks_bind hp hf

/-- A body that asks one query and goes on. -/
theorem asks_ask_bind {q : Q} {f : A q → Prog Q A γ} (hq : P q) (hf : ∀ a, (f a).Asks P) :
    (ask q >>= f).Asks P :=
  asks_bind (asks_ask hq) hf

theorem asks_collect {l : List β} {f : β → Prog Q A (List γ)} (h : ∀ x ∈ l, (f x).Asks P) :
    (collect l f).Asks P := by
  induction l with
  | nil => trivial
  | cons x l ih =>
    obtain ⟨hx, hl⟩ := List.forall_mem_cons.mp h
    exact asks_bind hx (fun _ => asks_bind (ih hl) (fun _ => trivial))

theorem asks_fold {l : List β} {s : γ} {f : γ → β → Prog Q A γ} (h : ∀ s, ∀ x ∈ l, (f s x).Asks P) :
    (fold l s f).Asks P := by
  induction l generalizing s with
  | nil => trivial
  | cons x l ih =>
    exact asks_bind (h s x (by simp)) (fun s => ih (fun s y hy => h s y (List.mem_cons_of_mem _ hy)))

theorem asks_every {l : List β} {f : β → Prog Q A Bool} (h : ∀ x ∈ l, (f x).Asks P) :
    (every l f).Asks P := by
  induction l with
  | nil => trivial
  | cons x l ih =>
    obtain ⟨hx, hl⟩ := List.forall_mem_cons.mp h
    refine asks_bind hx (fun b => ?_)
    cases b with
    | false => trivial
    | true => exact ih hl

theorem eval_mono {answer answer' : (q : Q) → Option (A q)} {p : Prog Q A β} {b : β}
    (hle : ∀ q a, answer q = some a → answer' q = some a) (h : p.eval answer = some b) :
    p.eval answer' = some b := by
  induction p with
  | ret b' => exact h
  | call q next ih =>
    obtain ⟨a, ha, hnext⟩ := Option.bind_eq_some_iff.mp h
    rw [eval, hle q a ha]
    exact ih a hnext

end Monad

section Run

variable {Q : Type} {A : Q → Type}

/-- Carries out the calls to a depth of `n`. -/
def run (body : (q : Q) → Prog Q A (A q)) : Nat → (q : Q) → Option (A q)
  | 0, _ => none
  | n + 1, q => (body q).eval (run body n)

variable {body : (q : Q) → Prog Q A (A q)}

theorem run_succ {n : Nat} {q : Q} {a : A q} (h : run body n q = some a) : run body (n + 1) q = some a := by
  induction n generalizing q with
  | zero => cases h
  | succ n ih => exact eval_mono (fun q a ha => ih ha) h

theorem run_mono {n m : Nat} (hle : n ≤ m) {q : Q} {a : A q} (h : run body n q = some a) :
    run body m q = some a := by
  induction hle with
  | refl => exact h
  | step _ ih => exact run_succ ih

/-- The depth that a program needs, when each of its queries has one. -/
theorem exists_depth {β : Type} {p : Prog Q A β} (h : p.Asks (fun q => ∃ n a, run body n q = some a)) :
    ∃ n b, p.eval (run body n) = some b := by
  induction p with
  | ret b => exact ⟨0, b, rfl⟩
  | call q next ih =>
    obtain ⟨⟨n, a, ha⟩, hnext⟩ := h
    obtain ⟨m, b, hb⟩ := ih a (hnext a)
    refine ⟨max n m, b, ?_⟩
    rw [eval, run_mono (Nat.le_max_left n m) ha]
    exact eval_mono (fun q a ha => run_mono (Nat.le_max_right n m) ha) hb

theorem asks_mono {β : Type} {P P' : Q → Prop} {p : Prog Q A β} (hle : ∀ q, P q → P' q) (h : p.Asks P) :
    p.Asks P' := by
  induction p with
  | ret b => trivial
  | call q next ih => exact ⟨hle q h.1, fun a => ih a (h.2 a)⟩

/-- Calls that go down a well-founded order end, with one answer. -/
theorem run_total {r : Q → Q → Prop} (hwf : WellFounded r) (hbody : ∀ q, (body q).Asks (fun q' => r q' q))
    (q : Q) : ∃ n a, ∀ m, n ≤ m → run body m q = some a := by
  have hanswer : ∃ n a, run body n q = some a := by
    induction q using hwf.induction with
    | _ q ih =>
      obtain ⟨n, a, ha⟩ := exists_depth (asks_mono ih (hbody q))
      exact ⟨n + 1, a, ha⟩
  obtain ⟨n, a, ha⟩ := hanswer
  exact ⟨n, a, fun m hm => run_mono hm ha⟩

end Run

end Prog

end Machine
end TrShared
