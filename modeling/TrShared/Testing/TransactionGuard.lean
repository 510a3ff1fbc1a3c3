import TrShared.Python.Repr

/-!
# TrShared.Testing.TransactionGuard

`track_session` and the `task_prerun` receiver of `install_transaction_guard`, around any test code. In
eager mode a task runs in the stack of its caller; the receiver notes in a context variable that the
tracked session had an open transaction, and the block that tracks the session raises at its end.

`run` is the dynamic extent of test code: dispatches nest, blocks nest, tasks track sessions of their own,
exceptions pass through, and a child asyncio task runs in a copy of the context.

* `block_raises`: a block raises the last violation dispatched in it, and nothing else of its own.
* `guard_exact`: test code that catches nothing ends with a violation iff one was dispatched in a block.
-/

namespace TrShared
namespace Testing
namespace TransactionGuard

open Python

abbrev Session := Nat

/-- A registered task, with what the guard and the tracer read of its app. -/
structure Task where
  name : Text
  alwaysEager : Bool
  eagerPropagates : Bool
  deriving DecidableEq

inductive Exn where
  | assertion (violation : Text)
  | other (type : String)
  deriving DecidableEq

inductive Outcome where
  | returned
  | raised (e : Exn)
  deriving DecidableEq

/-- The two context variables. -/
structure Context where
  activeSession : Option Session := none
  violation : Option Text := none
  deriving DecidableEq

/-- Which sessions are `in_transaction()`. -/
abbrev Opened := Session → Bool

def violationText (u : UnicodeData) (task : Task) : Text :=
  reprText u task.name ++ text (" was dispatched via .delay()/.apply_async() " ++
    "while the tracked session still has an open, uncommitted transaction (G6d). " ++
    "Under eager mode this task now runs synchronously inside that transaction and " ++
    "can see uncommitted rows a real worker never would — commit (or roll back) " ++
    "before dispatching, or stop tracking this session with track_session() if the " ++
    "task intentionally shares it.")

def checkNoOpenTransaction (u : UnicodeData) (task : Task) (o : Opened) (c : Context) : Context :=
  if !task.alwaysEager then c
  else
    match c.activeSession with
    | none => c
    | some session =>
      if !o session then c else { c with violation := some (violationText u task) }

/-- What the code of a test does, one constructor for each thing that the guard can see. -/
inductive Code where
  | pass
  | seq (first second : Code)
  /-- `session.begin()` and its end, by commit or rollback -/
  | setOpen (session : Session) (value : Bool)
  | raises (type : String)
  /-- `try: body` with `except:` for the exceptions that are caught -/
  | attempt (body : Code) (catches : Exn → Bool) (handler : Code)
  /-- `try: body` with `finally: last` -/
  | ensure (body last : Code)
  /-- `task.apply()`: the tracer runs the body here -/
  | apply (task : Task) (body : Code)
  /-- `await asyncio.create_task(body())` -/
  | child (body : Code)
  /-- `with track_session(session): body` -/
  | track (session : Session) (body : Code)

/-- `.delay()` and `.apply_async()`: without eager mode the task is published and runs elsewhere. -/
def Code.delay (task : Task) (body : Code) : Code := if task.alwaysEager then .apply task body else .pass

/-- What a dispatch stands in, up to the code that is run. -/
inductive Frame where
  | child
  | track (session : Session)
  deriving DecidableEq

/-- A dispatch that ran: its frames, the innermost first, and the sessions with an open transaction. -/
structure Dispatch where
  task : Task
  opened : Opened
  frames : List Frame := []

def Dispatch.inside (f : Frame) (d : Dispatch) : Dispatch := { d with frames := d.frames ++ [f] }

structure Result where
  context : Context
  opened : Opened
  outcome : Outcome
  /-- the dispatches that ran, in order -/
  log : List Dispatch

/-- The end of the block of `track_session`, with the context that is reset. -/
def leaveBlock (outer : Context) (r : Result) : Result :=
  { r with
    context := outer
    outcome :=
      match r.context.violation with
      | some violation => .raised (.assertion violation)
      | none => r.outcome }

/-- `then_` runs after `r`. -/
def Result.andThen (r : Result) (next : Context → Opened → Result) : Result :=
  { next r.context r.opened with log := r.log ++ (next r.context r.opened).log }

def Result.inside (f : Frame) (r : Result) : Result := { r with log := r.log.map (·.inside f) }

def run (u : UnicodeData) : Code → Context → Opened → Result
  | .pass, c, o => ⟨c, o, .returned, []⟩
  | .seq first second, c, o =>
    match (run u first c o).outcome with
    | .returned => (run u first c o).andThen (run u second)
    | .raised _ => run u first c o
  | .setOpen session value, c, o => ⟨c, Function.update o session value, .returned, []⟩
  | .raises type, c, o => ⟨c, o, .raised (.other type), []⟩
  | .attempt body catches handler, c, o =>
    match (run u body c o).outcome with
    | .returned => run u body c o
    | .raised e => if catches e then (run u body c o).andThen (run u handler) else run u body c o
  | .ensure body last, c, o =>
    let r := (run u body c o).andThen (run u last)
    match r.outcome with
    | .returned => { r with outcome := (run u body c o).outcome }
    | .raised _ => r
  | .apply task body, c, o =>
    let r := run u body (checkNoOpenTransaction u task o c) o
    { r with
      -- without propagation the exception of an eager task stays in its `EagerResult`
      outcome := if task.eagerPropagates then r.outcome else .returned
      log := { task := task, opened := o } :: r.log }
  | .child body, c, o => { (run u body c o).inside .child with context := c }
  | .track session body, c, o =>
    leaveBlock c ((run u body { activeSession := some session } o).inside (.track session))

/-! ## What a block sees -/

/-- A dispatch that the guard objects to, with `session` tracked. -/
def Dispatch.Violates (d : Dispatch) (session : Session) : Prop :=
  d.task.alwaysEager = true ∧ d.opened session = true

instance (d : Dispatch) (session : Session) : Decidable (d.Violates session) :=
  inferInstanceAs (Decidable (_ ∧ _))

/-- The violations of code that runs in the block of `session`: not those of inner blocks, which report to
their own block, and not those of child tasks, which set the variable of their own context. -/
def violations (session : Session) (log : List Dispatch) : List Dispatch :=
  log.filter (fun d => d.frames = [] ∧ d.Violates session)

def reported (u : UnicodeData) (active : Option Session) (log : List Dispatch) : Option Text :=
  active.bind (fun session => (violations session log).getLast?.map (fun d => violationText u d.task))

section Blocks

variable {u : UnicodeData}

theorem reported_nil (active : Option Session) : reported u active [] = none := by
  cases active <;> rfl

theorem reported_append (active : Option Session) (l l' : List Dispatch) :
    reported u active (l ++ l') = (reported u active l').or (reported u active l) := by
  cases active with
  | none => rfl
  | some session =>
    simp only [reported, Option.bind_some, violations, List.filter_append, List.getLast?_append, Option.map_or]

/-- What is dispatched in an inner frame is not reported to the outer one. -/
theorem reported_inside (active : Option Session) (f : Frame) (l : List Dispatch) :
    reported u active (l.map (·.inside f)) = none := by
  cases active with
  | none => rfl
  | some session =>
    have hnone : violations session (l.map (·.inside f)) = [] := by
      rw [violations, List.filter_eq_nil_iff]
      intro d hd
      obtain ⟨d', _, rfl⟩ := List.mem_map.1 hd
      simp [Dispatch.inside]
    rw [reported, Option.bind_some, hnone]
    rfl

/-- What code makes of the context variables: the tracked session stays, the last violation is noted. -/
structure Keeps (u : UnicodeData) (c : Context) (r : Result) : Prop where
  active : r.context.activeSession = c.activeSession
  violation : r.context.violation = (reported u c.activeSession r.log).or c.violation

theorem Keeps.unchanged {c : Context} {r : Result} (hc : r.context = c)
    (hr : reported u c.activeSession r.log = none) : Keeps u c r where
  active := congrArg Context.activeSession hc
  violation := by
    rw [hr, hc]
    rfl

theorem Keeps.andThen {c : Context} {r : Result} {f : Context → Opened → Result} (h : Keeps u c r)
    (hf : Keeps u r.context (f r.context r.opened)) : Keeps u c (r.andThen f) where
  active := hf.active.trans h.active
  violation := by
    show (f r.context r.opened).context.violation = _
    rw [hf.violation, h.active, h.violation]
    show _ = (reported u c.activeSession (r.log ++ _)).or _
    rw [reported_append, Option.or_assoc]

/-- The receiver notes the dispatch that is about to run. -/
theorem check_keeps (task : Task) (o : Opened) (c : Context) (outcome : Outcome) :
    Keeps u c ⟨checkNoOpenTransaction u task o c, o, outcome, [{ task := task, opened := o }]⟩ := by
  cases hs : c.activeSession with
  | none =>
    refine Keeps.unchanged ?_ (by rw [hs]; rfl)
    show checkNoOpenTransaction u task o c = c
    unfold checkNoOpenTransaction
    rw [hs]
    exact ite_self c
  | some session =>
    by_cases hv : task.alwaysEager = true ∧ o session = true
    · have hlast : violations session [{ task := task, opened := o }] = [{ task := task, opened := o }] := by
        rw [violations, List.filter_cons_of_pos (by simp [Dispatch.Violates, hv])]
        rfl
      have hcheck : checkNoOpenTransaction u task o c = { c with violation := some (violationText u task) } := by
        unfold checkNoOpenTransaction
        simp only [hs, hv.1, hv.2, Bool.not_true, Bool.false_eq_true, if_false]
      refine ⟨by rw [hcheck], ?_⟩
      rw [hcheck, hs, reported, Option.bind_some, hlast]
      rfl
    · have hnone : violations session [{ task := task, opened := o }] = [] := by
        rw [violations, List.filter_cons_of_neg (by simp [Dispatch.Violates]; simpa using hv)]
        rfl
      refine Keeps.unchanged ?_ (by rw [hs, reported, Option.bind_some, hnone]; rfl)
      show checkNoOpenTransaction u task o c = c
      unfold checkNoOpenTransaction
      cases he : task.alwaysEager with
      | false => rfl
      | true =>
        have ho : o session = false := by
          cases hos : o session with
          | false => rfl
          | true => exact absurd ⟨he, hos⟩ hv
        simp only [hs, ho, Bool.not_true, Bool.not_false, Bool.false_eq_true, if_false, if_true]

theorem run_keeps (code : Code) (c : Context) (o : Opened) : Keeps u c (run u code c o) := by
  induction code generalizing c o with
  | pass => exact .unchanged rfl (reported_nil _)
  | setOpen session value => exact .unchanged rfl (reported_nil _)
  | raises type => exact .unchanged rfl (reported_nil _)
  | seq first second ihf ihs =>
    unfold run
    split
    · exact (ihf c o).andThen (ihs _ _)
    · exact ihf c o
  | attempt body catches handler ihb ihh =>
    unfold run
    split
    · exact ihb c o
    · split
      · exact (ihb c o).andThen (ihh _ _)
      · exact ihb c o
  | ensure body last ihb ihl =>
    have h := (ihb c o).andThen (f := run u last) (ihl _ _)
    unfold run
    dsimp only
    split
    · exact ⟨h.active, h.violation⟩
    · exact h
  | apply task body ih =>
    -- the note of the receiver, then what the body does
    have h := (check_keeps (u := u) task o c .returned).andThen (f := run u body) (ih _ _)
    exact ⟨h.active, h.violation⟩
  | child body ih => exact .unchanged rfl (reported_inside _ _ _)
  | track session body ih => exact .unchanged rfl (reported_inside _ _ _)

/-- A block ends with the last violation that was dispatched in it, or else as its body does. -/
theorem run_track (u : UnicodeData) (session : Session) (body : Code) (c : Context) (o : Opened) :
    (run u (.track session body) c o).outcome =
      match (violations session (run u body { activeSession := some session } o).log).getLast? with
      | some d => .raised (.assertion (violationText u d.task))
      | none => (run u body { activeSession := some session } o).outcome := by
  have h : (run u body { activeSession := some session } o).context.violation = _ :=
    (run_keeps body { activeSession := some session } o).violation
  show (match (run u body { activeSession := some session } o).context.violation with
    | some violation => Outcome.raised (.assertion violation)
    | none => (run u body { activeSession := some session } o).outcome) = _
  rw [h, reported, Option.bind_some, Option.or_none]
  cases (violations session (run u body { activeSession := some session } o).log).getLast? <;> rfl

/-- A block, whatever runs in it and wherever it stands, leaves the context as it found it. It raises the
last violation that was dispatched in it, in place of any exception of its body; without one it ends as
its body does. -/
theorem block_raises (u : UnicodeData) (session : Session) (body : Code) (c : Context) (o : Opened) :
    let r := run u body { activeSession := some session } o
    (run u (.track session body) c o).context = c ∧
      (run u (.track session body) c o).outcome =
        match (violations session r.log).getLast? with
        | some d => .raised (.assertion (violationText u d.task))
        | none => r.outcome := by
  intro r
  exact ⟨rfl, run_track u session body c o⟩

end Blocks

/-! ## What test code ends with -/

/-- Clean-up that raises nothing and dispatches nothing. -/
def Code.Quiet : Code → Prop
  | .pass | .setOpen _ _ => True
  | .seq first second => first.Quiet ∧ second.Quiet
  | _ => False

/-- No exception is caught or replaced on its way out, and eager tasks propagate theirs. -/
def Code.CatchesNothing : Code → Prop
  | .pass | .setOpen _ _ | .raises _ => True
  | .seq first second => first.CatchesNothing ∧ second.CatchesNothing
  | .attempt _ _ _ => False
  | .ensure body last => body.CatchesNothing ∧ last.Quiet
  | .apply task body => task.eagerPropagates = true ∧ body.CatchesNothing
  | .child body | .track _ body => body.CatchesNothing

/-- A dispatch straight in a block, with an open transaction of the session of the block. -/
def Dispatch.Reported (d : Dispatch) : Prop :=
  ∃ session, d.frames.head? = some (.track session) ∧ d.Violates session

section Ends

variable {u : UnicodeData}

theorem run_seq (first second : Code) (c : Context) (o : Opened) :
    ((run u first c o).outcome = .returned ∧
      run u (.seq first second) c o = (run u first c o).andThen (run u second)) ∨
    ((run u first c o).outcome ≠ .returned ∧ run u (.seq first second) c o = run u first c o) := by
  conv => rhs; rhs; lhs; unfold run
  conv => lhs; rhs; lhs; unfold run
  cases (run u first c o).outcome with
  | returned => exact .inl ⟨rfl, rfl⟩
  | raised e => exact .inr ⟨(fun h => by cases h), rfl⟩

theorem run_attempt (body handler : Code) (catches : Exn → Bool) (c : Context) (o : Opened) :
    run u (.attempt body catches handler) c o = run u body c o ∨
      run u (.attempt body catches handler) c o = (run u body c o).andThen (run u handler) := by
  conv => lhs; lhs; unfold run
  conv => rhs; lhs; unfold run
  cases (run u body c o).outcome with
  | returned => exact .inl rfl
  | raised e =>
    dsimp only
    split
    · exact .inr rfl
    · exact .inl rfl

theorem run_ensure (body last : Code) (c : Context) (o : Opened) :
    (run u (.ensure body last) c o).log = ((run u body c o).andThen (run u last)).log ∧
      (run u (.ensure body last) c o).outcome =
        match ((run u body c o).andThen (run u last)).outcome with
        | .returned => (run u body c o).outcome
        | .raised e => .raised e := by
  conv => lhs; lhs; unfold run
  conv => rhs; lhs; unfold run
  dsimp only
  cases hl : ((run u body c o).andThen (run u last)).outcome with
  | returned => exact ⟨rfl, rfl⟩
  | raised e => exact ⟨rfl, hl⟩

theorem Code.Quiet.run_eq {code : Code} (h : code.Quiet) (c : Context) (o : Opened) :
    (run u code c o).outcome = .returned ∧ (run u code c o).log = [] := by
  induction code generalizing c o with
  | pass => exact ⟨rfl, rfl⟩
  | setOpen session value => exact ⟨rfl, rfl⟩
  | seq first second ihf ihs =>
    obtain ⟨hreturned, hlog⟩ := ihf h.1 c o
    obtain ⟨hreturned', hlog'⟩ := ihs h.2 (run u first c o).context (run u first c o).opened
    rcases run_seq (u := u) first second c o with ⟨_, hrun⟩ | ⟨hne, _⟩
    · rw [hrun]
      refine ⟨hreturned', ?_⟩
      show (run u first c o).log ++ _ = []
      rw [hlog, hlog']
      rfl
    · exact absurd hreturned hne
  | raises | attempt | ensure | apply | child | track => exact h.elim

theorem Dispatch.Reported.inside {d : Dispatch} (h : d.Reported) (f : Frame) : (d.inside f).Reported := by
  obtain ⟨session, hf, hv⟩ := h
  exact ⟨session, by rw [Dispatch.inside, List.head?_append, hf]; rfl, hv⟩

/-- What is reported from within a frame was reported already, or the frame is the block that reports it. -/
theorem Dispatch.reported_of_inside {d : Dispatch} {f : Frame} (h : (d.inside f).Reported) :
    d.Reported ∨ ∃ session, f = .track session ∧ d.frames = [] ∧ d.Violates session := by
  obtain ⟨session, hf, hv⟩ := h
  cases hd : d.frames with
  | nil =>
    rw [Dispatch.inside, hd] at hf
    cases hf
    exact .inr ⟨session, rfl, rfl, hv⟩
  | cons f' rest =>
    rw [Dispatch.inside, hd] at hf
    exact .inl ⟨session, by rw [hd]; exact hf, hv⟩

/-- How a block ends, by whether a violation was dispatched straight in it. -/
theorem track_outcome (session : Session) (body : Code) (c : Context) (o : Opened) :
    (∃ d ∈ (run u body { activeSession := some session } o).log, d.frames = [] ∧ d.Violates session ∧
      (run u (.track session body) c o).outcome = .raised (.assertion (violationText u d.task))) ∨
    (∀ d ∈ (run u body { activeSession := some session } o).log, ¬ (d.frames = [] ∧ d.Violates session)) ∧
      (run u (.track session body) c o).outcome = (run u body { activeSession := some session } o).outcome := by
  have houtcome := run_track u session body c o
  cases hl : (violations session (run u body { activeSession := some session } o).log).getLast? with
  | some d =>
    rw [hl] at houtcome
    have hd := List.mem_filter.1 (List.mem_of_getLast? hl)
    have hv := of_decide_eq_true hd.2
    exact .inl ⟨d, hd.1, hv.1, hv.2, houtcome⟩
  | none =>
    rw [hl] at houtcome
    rw [List.getLast?_eq_none_iff, violations, List.filter_eq_nil_iff] at hl
    exact .inr ⟨fun d hd hv => hl d hd (decide_eq_true hv), houtcome⟩

/-- A violation that goes up names a task that was dispatched in one. -/
theorem reported_of_raised {code : Code} {c : Context} {o : Opened} {v : Text}
    (h : (run u code c o).outcome = .raised (.assertion v)) :
    ∃ d ∈ (run u code c o).log, d.Reported ∧ v = violationText u d.task := by
  induction code generalizing c o with
  | pass => cases h
  | setOpen session value => cases h
  | raises type => cases h
  | seq first second ihf ihs =>
    rcases run_seq (u := u) first second c o with ⟨_, hrun⟩ | ⟨_, hrun⟩
    · rw [hrun] at h ⊢
      obtain ⟨d, hd, hr⟩ := ihs h
      exact ⟨d, List.mem_append_right _ hd, hr⟩
    · rw [hrun] at h ⊢
      exact ihf h
  | attempt body catches handler ihb ihh =>
    rcases run_attempt (u := u) body handler catches c o with hrun | hrun
    · rw [hrun] at h ⊢
      exact ihb h
    · rw [hrun] at h ⊢
      obtain ⟨d, hd, hr⟩ := ihh h
      exact ⟨d, List.mem_append_right _ hd, hr⟩
  | ensure body last ihb ihl =>
    obtain ⟨hlog, houtcome⟩ := run_ensure (u := u) body last c o
    rw [houtcome] at h
    rw [hlog]
    cases hl : ((run u body c o).andThen (run u last)).outcome with
    | returned =>
      rw [hl] at h
      obtain ⟨d, hd, hr⟩ := ihb h
      exact ⟨d, List.mem_append_left _ hd, hr⟩
    | raised e =>
      rw [hl] at h
      obtain ⟨d, hd, hr⟩ := ihl (hl.trans h)
      exact ⟨d, List.mem_append_right _ hd, hr⟩
  | apply task body ih =>
    unfold run at h ⊢
    dsimp only at h ⊢
    split at h
    · obtain ⟨d, hd, hr⟩ := ih h
      exact ⟨d, List.mem_cons_of_mem _ hd, hr⟩
    · cases h
  | child body ih =>
    obtain ⟨d, hd, hr, hv⟩ := ih (c := c) (o := o) h
    exact ⟨d.inside .child, List.mem_map_of_mem hd, hr.inside _, hv⟩
  | track session body ih =>
    rcases track_outcome (u := u) session body c o with ⟨d, hd, hframes, hviolates, ho⟩ | ⟨_, ho⟩
    · rw [ho] at h
      cases h
      exact ⟨d.inside (.track session), List.mem_map_of_mem hd,
        ⟨session, by rw [Dispatch.inside, hframes]; rfl, hviolates⟩, rfl⟩
    · obtain ⟨d, hd, hr, hv⟩ := ih (ho.symm.trans h)
      exact ⟨d.inside (.track session), List.mem_map_of_mem hd, hr.inside _, hv⟩

/-- Nothing on its way out stops a violation. -/
theorem raised_of_reported {code : Code} {c : Context} {o : Opened} {d : Dispatch}
    (hc : code.CatchesNothing) (hd : d ∈ (run u code c o).log) (hr : d.Reported) :
    ∃ v, (run u code c o).outcome = .raised (.assertion v) := by
  induction code generalizing c o d with
  | pass => cases hd
  | setOpen session value => cases hd
  | raises type => cases hd
  | seq first second ihf ihs =>
    rcases run_seq (u := u) first second c o with ⟨hreturned, hrun⟩ | ⟨_, hrun⟩
    · rw [hrun] at hd ⊢
      rcases List.mem_append.1 hd with hd | hd
      · obtain ⟨v, hv⟩ := ihf hc.1 hd hr
        cases hreturned.symm.trans hv
      · exact ihs hc.2 hd hr
    · rw [hrun] at hd ⊢
      exact ihf hc.1 hd hr
  | attempt => exact hc.elim
  | ensure body last ihb ihl =>
    obtain ⟨hreturned, hquiet⟩ :=
      hc.2.run_eq (u := u) (run u body c o).context (run u body c o).opened
    obtain ⟨hlog, houtcome⟩ := run_ensure (u := u) body last c o
    have hlast : ((run u body c o).andThen (run u last)).outcome = .returned := hreturned
    have happend : ((run u body c o).andThen (run u last)).log = (run u body c o).log ++ [] :=
      congrArg ((run u body c o).log ++ ·) hquiet
    rw [hlog, happend, List.append_nil] at hd
    rw [houtcome, hlast]
    exact ihb hc.1 hd hr
  | apply task body ih =>
    unfold run at hd ⊢
    dsimp only at hd ⊢
    rw [if_pos hc.1]
    rcases List.mem_cons.1 hd with rfl | hd
    · obtain ⟨session, hf, _⟩ := hr
      cases hf
    · exact ih hc.2 hd hr
  | child body ih =>
    obtain ⟨d', hd', rfl⟩ := List.mem_map.1 hd
    rcases Dispatch.reported_of_inside hr with hr | ⟨session, hf, _⟩
    · exact ih (c := c) (o := o) hc hd' hr
    · cases hf
  | track session body ih =>
    obtain ⟨d', hd', rfl⟩ := List.mem_map.1 hd
    rcases track_outcome (u := u) session body c o with ⟨_, _, _, _, ho⟩ | ⟨hnone, ho⟩
    · exact ⟨_, ho⟩
    · rcases Dispatch.reported_of_inside hr with hr | ⟨session', hf, hframes, hv⟩
      · obtain ⟨v, hv⟩ := ih hc hd' hr
        exact ⟨v, ho.trans hv⟩
      · cases hf
        exact absurd ⟨hframes, hv⟩ (hnone d' hd')

/-- Test code that catches nothing ends with a violation iff a task in eager mode was dispatched straight in
a block while the session of the block had an open transaction. -/
theorem guard_exact (u : UnicodeData) (code : Code) (c : Context) (o : Opened)
    (hc : code.CatchesNothing) :
    (∃ v, (run u code c o).outcome = .raised (.assertion v)) ↔ ∃ d ∈ (run u code c o).log, d.Reported := by
  constructor
  · intro h
    obtain ⟨v, hv⟩ := h
    obtain ⟨d, hd, hr, _⟩ := reported_of_raised hv
    exact ⟨d, hd, hr⟩
  · intro h
    obtain ⟨d, hd, hr⟩ := h
    exact raised_of_reported hc hd hr

end Ends

def noPrintable : UnicodeData := ⟨fun _ => false, fun _ _ => rfl⟩

def eagerTask : Task := ⟨text "crm.sync", true, true⟩

/-- With a transaction on session 0, one dispatch in a child task, one in a block of session 1, and one by a
task that runs in the block of session 0: the last is reported. -/
def nestedDispatches : Code :=
  .ensure
    (.seq (.setOpen 0 true)
      (.seq (.track 0 (.seq (.child (.delay eagerTask .pass)) (.track 1 (.delay eagerTask .pass))))
        (.track 0 (.seq (.setOpen 0 false)
          (.delay eagerTask (.seq (.setOpen 0 true) (.delay eagerTask (.raises "ValueError"))))))))
    (.setOpen 0 false)

theorem nested_dispatch_reported :
    nestedDispatches.CatchesNothing ∧
    (run noPrintable nestedDispatches {} (fun _ => false)).log.map (fun d => (d.frames, d.opened 0)) =
      [([.child, .track 0], true), ([.track 1, .track 0], true), ([.track 0], false), ([.track 0], true)] ∧
    ∃ v, (run noPrintable nestedDispatches {} (fun _ => false)).outcome = .raised (.assertion v) := by
  have hc : nestedDispatches.CatchesNothing :=
    ⟨⟨trivial, ⟨⟨rfl, trivial⟩, ⟨rfl, trivial⟩⟩, ⟨trivial, rfl, trivial, rfl, trivial⟩⟩, trivial⟩
  have hlast : ∃ d ∈ (run noPrintable nestedDispatches {} (fun _ => false)).log, d.Reported :=
    ⟨_, List.getLast_mem (by decide), 0, by decide, by decide, by decide⟩
  exact ⟨hc, by decide, (guard_exact noPrintable _ _ _ hc).2 hlast⟩

end TransactionGuard
end Testing
end TrShared
