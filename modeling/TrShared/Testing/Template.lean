import TrShared.Machine.Run
import TrShared.Machine.Shared
import TrShared.Testing.Stack

/-!
# TrShared.Testing.Template

`tr_shared.testing.stack` as a protocol: any number of test processes share one Postgres container. Each
makes sure of the container (`_ensure_container`), builds the template database if it is not there
(`_build_template`), clones it for itself (`create_run_database`) and drops its clone at the end
(`drop_run_databases`). One file lock goes with the container; the last step does not take it.

A process can end between any two commands and in the middle of the migrations, a command can fail
before or after it took effect, and the container can be removed. What a process that ended has sent is
over: a statement took effect by then or never does.

* `Sound`: the invariant. A building database is as far as its process is, a template is migrated, and a
  run database is a migrated template and the tests of the processes with its name.
* `Sound.step`: every step keeps it.
-/

namespace TrShared
namespace Testing
namespace Template

open Python Machine

abbrev Pid := Nat

/-- `DATABASE_LAYOUT`. -/
def databaseLayout : List String :=
  ["CREATE SCHEMA extensions AUTHORIZATION postgres",
    "CREATE EXTENSION pgcrypto WITH SCHEMA extensions",
    "CREATE EXTENSION \"uuid-ossp\" WITH SCHEMA extensions",
    "CREATE EXTENSION pg_trgm WITH SCHEMA public",
    "CREATE EXTENSION supabase_vault"]

/-! ## Names -/

/-- A test process: an xdist worker of one run. -/
structure Party where
  config : TestingConfig
  runId : Text
  workerId : Text
  /-- `TR_TESTING_FRESH` is set. -/
  fresh : Bool := false

namespace Party

def template (p : Party) : Text := (names p.config p.runId p.workerId).2.1

def building (p : Party) : Text := p.template ++ text "_building"

def runDb (p : Party) : Text := (names p.config p.runId p.workerId).2.2

end Party

/-- The processes that use one container. Its name is the start of their digests, which are hexadecimal. -/
structure Fleet where
  party : Pid → Party
  key : Text
  key_length : key.length = 10
  key_plain : underscore ∉ key
  shared : ∀ p, (party p).config.key.take 10 = key

section Names

variable {f : Fleet}

theorem length_afterLast_le {α : Type} [DecidableEq α] {c : α} {a b : List α} :
    (afterLast c (a ++ c :: b)).length ≤ b.length := by
  by_cases h : c ∈ b
  · obtain ⟨b₁, hb⟩ := afterLast_of_mem h
    have hnot : c ∉ afterLast c b := by
      intro hm
      have hmem := List.mem_reverse.1 hm
      simpa using List.mem_takeWhile_imp hmem
    have hsplit : a ++ c :: b = (a ++ c :: b₁) ++ c :: afterLast c b := by
      conv_lhs => rw [hb]
      simp
    rw [hsplit, afterLast_append hnot]
    exact (afterLast_suffix c b).length_le
  · rw [afterLast_append h]

theorem template_last (f : Fleet) (p : Pid) : afterLast underscore (f.party p).template = f.key := by
  have hsplit : (f.party p).template =
      ((sanitize (f.party p).config.service).take 16 ++ text "_tmpl") ++ underscore :: f.key := by
    have htext : text "_tmpl_" = text "_tmpl" ++ [underscore] := by decide
    simp [Party.template, names, f.shared p, htext]
  rw [hsplit, afterLast_append f.key_plain]

theorem building_last (f : Fleet) (p : Pid) :
    afterLast underscore (f.party p).building = text "building" := by
  have htext : text "_building" = underscore :: text "building" := by decide
  rw [Party.building, htext, afterLast_append (by decide)]

theorem runDb_last (f : Fleet) (p : Pid) : (afterLast underscore (f.party p).runDb).length ≤ 6 := by
  have htext : text "_" = [underscore] := by decide
  rw [Party.runDb, runDatabase_eq, htext, List.append_assoc _ [underscore], List.singleton_append]
  refine length_afterLast_le.trans ?_
  rw [List.length_take]
  exact Nat.min_le_left _ _

/-- The three kinds of names differ in the length of what follows the last underscore. -/
theorem building_ne_template (f : Fleet) (p q : Pid) :
    (f.party p).building ≠ (f.party q).template := by
  intro h
  have hlast := congrArg (fun t => (afterLast underscore t).length) h
  simp only [building_last, template_last, f.key_length] at hlast
  exact absurd hlast (by decide)

theorem runDb_ne_template (f : Fleet) (p q : Pid) : (f.party p).runDb ≠ (f.party q).template := by
  intro h
  have hlast := congrArg (fun t => (afterLast underscore t).length) h
  simp only [template_last, f.key_length] at hlast
  have hle := runDb_last f p
  omega

theorem runDb_ne_building (f : Fleet) (p q : Pid) : (f.party p).runDb ≠ (f.party q).building := by
  intro h
  have hlast := congrArg (fun t => (afterLast underscore t).length) h
  have hlen : (text "building").length = 8 := by decide
  simp only [building_last, hlen] at hlast
  have hle := runDb_last f p
  omega

end Names

/-! ## The server -/

/-- What was done to a database. -/
inductive Change where
  | layout (statement : String)
  /-- The service's migrate command returned 0. -/
  | migrated (config : TestingConfig)
  /-- It returned something else, or was cut off. -/
  | partly (config : TestingConfig)
  | tests (p : Pid)

abbrev Database := List Change

/-- The databases of the server by their names. -/
abbrev Server := Text → Option Database

/-- A database as `_build_template` is to leave it. -/
def complete (config : TestingConfig) : Database :=
  databaseLayout.map .layout ++ [.migrated config]

inductive Statement where
  | drop (name : Text)
  | create (name : Text)
  | layout (statement : String) (name : Text)
  | rename (name target : Text)
  | clone (name template : Text)

/-- What a statement does; `none` when Postgres refuses it. -/
def Statement.apply (dbs : Server) : Statement → Option Server
  | .drop name => some (Function.update dbs name none)
  | .create name => if (dbs name).isNone then some (Function.update dbs name (some [])) else none
  | .layout statement name =>
    (dbs name).map (fun d => Function.update dbs name (some (d ++ [.layout statement])))
  | .rename name target =>
    match dbs name, dbs target with
    | some d, none => some (Function.update (Function.update dbs name none) target (some d))
    | _, _ => none
  | .clone name template =>
    match dbs template, dbs name with
    | some d, none => some (Function.update dbs name (some d))
    | _, _ => none

/-! ## The processes -/

inductive Phase where
  | idle
  /-- `provision` has the lock, and `_ensure_container` is next. -/
  | provisioning
  /-- `_database_exists` is next. -/
  | looking
  /-- `_build_template`. -/
  | dropping
  | creating
  | layingOut (left : List String)
  | cleaning
  | migrated
  | provisioned
  /-- `create_run_database`. -/
  | clearing
  | cloning
  | testing
  /-- A `StackError`: the session ends, with its teardown. -/
  | failed
  | ended
  deriving DecidableEq, Repr

/-- Inside a `with _lock(..)`. -/
def Phase.locked : Phase → Bool
  | .provisioning | .looking | .dropping | .creating | .layingOut _ | .cleaning | .migrated => true
  | .clearing | .cloning => true
  | .idle | .provisioned | .testing | .failed | .ended => false

/-- The statement that comes next, and the phase after it. -/
def Phase.statement (p : Party) : Phase → Option (Statement × Phase)
  | .dropping => some (.drop p.building, .creating)
  | .creating => some (.create p.building, .layingOut databaseLayout)
  | .layingOut (s :: left) => some (.layout s p.building, .layingOut left)
  | .cleaning => some (.drop p.building, .failed)
  | .migrated => some (.rename p.building p.template, .provisioned)
  | .clearing => some (.drop p.runDb, .cloning)
  | .cloning => some (.clone p.runDb p.template, .testing)
  | _ => none

structure World where
  /-- `none` while there is no container. -/
  server : Option Server := none
  lock : Option Pid := none
  phase : Pid → Phase := fun _ => .idle

/-- How `_ensure_container` ends. -/
inductive Ensured where
  | ready
  /-- It raised without a container of its own, or with one that did not get ready. -/
  | notCreated
  | notReady
  deriving DecidableEq, Repr

/-- How the migrate command ends. -/
inductive Migration where
  | succeeded
  | failed
  /-- Together with the process. -/
  | killed
  deriving DecidableEq, Repr

inductive Act where
  | acquire (p : Pid)
  | ensure (p : Pid) (result : Ensured)
  | look (p : Pid) (reply : Reply)
  | psql (p : Pid) (reply : Reply)
  | migrate (p : Pid) (result : Migration)
  | test (p : Pid)
  /-- `drop_run_databases`, which raises nothing. -/
  | drop (p : Pid) (reply : Reply)
  /-- The lock times out, or the container is not found. -/
  | giveUp (p : Pid)
  | kill (p : Pid)
  /-- Somebody removes the container. -/
  | remove
  deriving DecidableEq, Repr

/-- A process goes on; the lock is released where its block ends. -/
def World.goto (w : World) (p : Pid) (phase : Phase) : World :=
  { w with phase := Function.update w.phase p phase
           lock := if phase.locked then w.lock else if w.lock = some p then none else w.lock }

def World.set (w : World) (server : Option Server) : World := { w with server := server }

section World

variable (w : World) (p : Pid) (phase : Phase) (server : Option Server)

@[simp] theorem World.set_server : (w.set server).server = server := rfl

@[simp] theorem World.set_phase : (w.set server).phase = w.phase := rfl

@[simp] theorem World.set_lock : (w.set server).lock = w.lock := rfl

@[simp] theorem World.goto_server : (w.goto p phase).server = w.server := rfl

@[simp] theorem World.goto_phase : (w.goto p phase).phase = Function.update w.phase p phase := rfl

@[simp] theorem World.goto_lock : (w.goto p phase).lock =
    if phase.locked then w.lock else if w.lock = some p then none else w.lock := rfl

end World

variable (f : Fleet)

/-- `_psql` in the container. -/
def perform (w : World) (s : Statement) (reply : Reply) : World × Bool :=
  match w.server.bind (fun dbs => s.apply dbs) with
  | none => (w, false)
  | some dbs => (if reply.took then w.set (some dbs) else w, reply.returned)

def step (w : World) : Act → Option World
  | .acquire p =>
    if w.lock.isSome then none
    else
      match w.phase p with
      | .idle => some { w.goto p .provisioning with lock := some p }
      | .provisioned => some { w.goto p .clearing with lock := some p }
      | _ => none
  | .ensure p result =>
    match w.phase p with
    | .provisioning =>
      let kept := if (f.party p).fresh then none else w.server
      let found := some (kept.getD (fun _ => none))
      match result with
      | .ready => some ((w.set found).goto p .looking)
      | .notReady => some ((w.set found).goto p .failed)
      | .notCreated => some ((w.set kept).goto p .failed)
    | _ => none
  | .look p reply =>
    match w.phase p with
    | .looking =>
      match w.server with
      | some dbs =>
        if reply.returned then
          some (w.goto p (if (dbs (f.party p).template).isSome then .provisioned else .dropping))
        else some (w.goto p .failed)
      | none => some (w.goto p .failed)
    | _ => none
  | .psql p reply =>
    ((w.phase p).statement (f.party p)).map (fun (s, next) =>
      let (w, returned) := perform w s reply
      w.goto p (if returned then next else .failed))
  | .migrate p result =>
    match w.phase p with
    | .layingOut [] =>
      let building := (f.party p).building
      let changed (c : Change) : Option Server :=
        w.server.map (fun dbs => Function.update dbs building ((dbs building).map (· ++ [c])))
      match result with
      | .succeeded =>
        -- a command that reached no database has not succeeded
        if (w.server.bind (· building)).isSome then
          some ((w.set (changed (.migrated (f.party p).config))).goto p .migrated)
        else none
      | .failed => some ((w.set (changed (.partly (f.party p).config))).goto p .cleaning)
      | .killed => some ((w.set (changed (.partly (f.party p).config))).goto p .ended)
    | _ => none
  | .test p =>
    match w.phase p with
    | .testing =>
      let runDb := (f.party p).runDb
      some ((w.set (w.server.map (fun dbs =>
        Function.update dbs runDb ((dbs runDb).map (· ++ [.tests p]))))).goto p .testing)
    | _ => none
  | .drop p reply =>
    match w.phase p with
    | .provisioned | .testing | .failed =>
      some ((perform w (.drop (f.party p).runDb) reply).1.goto p .ended)
    | _ => none
  | .giveUp p =>
    match w.phase p with
    | .ended => none
    | _ => some (w.goto p .failed)
  | .kill p => some (w.goto p .ended)
  | .remove => some (w.set none)

/-! ## What a step keeps -/

/-- What the phase of a process says about its building database. -/
def Built (p : Party) (d : Database) : Phase → Prop
  | .layingOut left => ∃ done, done ++ left = databaseLayout ∧ d = done.map .layout
  | .migrated => d = complete p.config
  | _ => True

/-- What a database with this template's name holds. -/
def Migrated (f : Fleet) (template : Text) (d : Database) : Prop :=
  ∃ q, (f.party q).template = template ∧ d = complete (f.party q).config

/-- What a run database holds: the migrated template of a process that has its name, and behind it the
tests of such processes. -/
def Cloned (f : Fleet) (runDb : Text) (d : Database) : Prop :=
  ∃ (p : Pid) (base : Database) (ts : List Pid), (f.party p).runDb = runDb ∧
    Migrated f (f.party p).template base ∧ d = base ++ ts.map .tests ∧
    ∀ r ∈ ts, (f.party r).runDb = runDb

structure Stands (f : Fleet) (dbs : Server) : Prop where
  template : ∀ p d, dbs (f.party p).template = some d → Migrated f (f.party p).template d
  runDb : ∀ p d, dbs (f.party p).runDb = some d → Cloned f (f.party p).runDb d

structure Sound (f : Fleet) (w : World) : Prop where
  lock : ∀ p, (w.phase p).locked = true → w.lock = some p
  stands : ∀ dbs, w.server = some dbs → Stands f dbs
  built : ∀ dbs p d, w.server = some dbs → dbs (f.party p).building = some d →
    Built (f.party p) d (w.phase p)

/-- Only a process that has the lock is concerned with its building database. -/
theorem built_of_unlocked {party : Party} {d : Database} {phase : Phase}
    (h : phase.locked = false) : Built party d phase := by
  cases phase <;> trivial

section Server

variable {f : Fleet} {dbs dbs' : Server} {p : Pid} {v : Option Database}

theorem Stands.empty : Stands f (fun _ => none) where
  template _ _ h := by cases h
  runDb _ _ h := by cases h

theorem Stands.building (h : Stands f dbs) :
    Stands f (Function.update dbs (f.party p).building v) where
  template q d hd := by
    rw [Function.update_of_ne (building_ne_template f p q).symm] at hd
    exact h.template q d hd
  runDb q d hd := by
    rw [Function.update_of_ne (runDb_ne_building f q p)] at hd
    exact h.runDb q d hd

theorem Stands.setRunDb (h : Stands f dbs)
    (hv : ∀ d, v = some d → Cloned f (f.party p).runDb d) :
    Stands f (Function.update dbs (f.party p).runDb v) where
  template q d hd := by
    rw [Function.update_of_ne (runDb_ne_template f p q).symm] at hd
    exact h.template q d hd
  runDb q d hd := by
    by_cases hq : (f.party q).runDb = (f.party p).runDb
    · rw [hq, Function.update_self] at hd
      rw [hq]
      exact hv d hd
    · rw [Function.update_of_ne hq] at hd
      exact h.runDb q d hd

theorem Stands.setTemplate (h : Stands f dbs)
    (hv : ∀ d, v = some d → Migrated f (f.party p).template d) :
    Stands f (Function.update dbs (f.party p).template v) where
  template q d hd := by
    by_cases hq : (f.party q).template = (f.party p).template
    · rw [hq, Function.update_self] at hd
      rw [hq]
      exact hv d hd
    · rw [Function.update_of_ne hq] at hd
      exact h.template q d hd
  runDb q d hd := by
    rw [Function.update_of_ne (runDb_ne_template f q p)] at hd
    exact h.runDb q d hd

theorem Cloned.tests {d : Database} (h : Cloned f (f.party p).runDb d) :
    Cloned f (f.party p).runDb (d ++ [.tests p]) := by
  obtain ⟨q, base, ts, hq, hbase, rfl, hts⟩ := h
  refine ⟨q, base, ts ++ [p], hq, hbase, by simp, ?_⟩
  intro r hr
  rcases List.mem_append.1 hr with hr | hr
  · exact hts r hr
  · rw [List.mem_singleton.1 hr]

/-- The statements of `_build_template` and `create_run_database`. -/
theorem Stands.statement {phase next : Phase} {s : Statement} (h : Stands f dbs)
    (hb : ∀ d, dbs (f.party p).building = some d → Built (f.party p) d phase)
    (hs : phase.statement (f.party p) = some (s, next)) (ha : s.apply dbs = some dbs') :
    Stands f dbs' ∧ ∀ d, dbs' (f.party p).building = some d → Built (f.party p) d next := by
  cases phase with
  | dropping =>
    cases hs
    cases ha
    exact ⟨h.building, fun _ _ => trivial⟩
  | creating =>
    cases hs
    simp only [Statement.apply] at ha
    split at ha
    · cases ha
      refine ⟨h.building, fun d hd => ⟨[], rfl, ?_⟩⟩
      rw [Function.update_self] at hd
      cases hd
      rfl
    · cases ha
  | layingOut left =>
    cases left with
    | nil => cases hs
    | cons statement left =>
      cases hs
      simp only [Statement.apply, Option.map_eq_some_iff] at ha
      obtain ⟨d, hd, rfl⟩ := ha
      obtain ⟨done, hdone, rfl⟩ := hb d hd
      refine ⟨h.building, fun d hd => ⟨done ++ [statement], by simpa using hdone, ?_⟩⟩
      rw [Function.update_self] at hd
      cases hd
      simp
  | cleaning =>
    cases hs
    cases ha
    exact ⟨h.building, fun _ _ => trivial⟩
  | migrated =>
    cases hs
    simp only [Statement.apply] at ha
    split at ha
    · rename_i d hd _
      cases ha
      have hcomplete : d = complete (f.party p).config := hb d hd
      refine ⟨h.building.setTemplate ?_, fun _ _ => trivial⟩
      rintro _ ⟨⟩
      exact ⟨p, rfl, hcomplete⟩
    · cases ha
  | clearing =>
    cases hs
    cases ha
    exact ⟨h.setRunDb (fun _ hd => by cases hd), fun _ _ => trivial⟩
  | cloning =>
    cases hs
    simp only [Statement.apply] at ha
    split at ha
    · rename_i d hd _
      cases ha
      refine ⟨h.setRunDb ?_, fun _ _ => trivial⟩
      rintro _ ⟨⟩
      exact ⟨p, d, [], rfl, h.template p d hd, by simp, by simp⟩
    · cases ha
  | idle | provisioning | looking | provisioned | testing | failed | ended => cases hs

end Server

theorem locked_of_statement {phase next : Phase} {party : Party} {s : Statement}
    (hs : phase.statement party = some (s, next)) : phase.locked = true := by
  cases phase <;> first | rfl | cases hs

section Sound

variable {f : Fleet} {w w' : World} {p : Pid} {phase : Phase} {server : Option Server}

/-- A process goes on, and has changed the server. -/
theorem Sound.next (h : Sound f w) (hl : phase.locked = true → w.lock = some p)
    (hst : ∀ dbs, server = some dbs → Stands f dbs)
    (hp : ∀ dbs d, server = some dbs → dbs (f.party p).building = some d →
      Built (f.party p) d phase)
    (hr : ∀ dbs r d, r ≠ p → server = some dbs → dbs (f.party r).building = some d →
      Built (f.party r) d (w.phase r)) :
    Sound f ((w.set server).goto p phase) where
  lock r hlocked := by
    rw [World.goto_phase, World.set_phase] at hlocked
    rw [World.goto_lock]
    rcases update_cases w.phase p phase r with ⟨rfl, hu⟩ | ⟨hne, hu⟩
    · rw [hu] at hlocked
      rw [if_pos hlocked, World.set_lock]
      exact hl hlocked
    · rw [hu] at hlocked
      have hlock := h.lock r hlocked
      split
      · exact hlock
      · split
        · rename_i hown
          exact absurd (Option.some.inj (hlock.symm.trans hown)) hne
        · exact hlock
  stands := hst
  built dbs r d hs hd := by
    simp only [World.goto_phase, World.set_phase]
    rcases update_cases w.phase p phase r with ⟨rfl, hu⟩ | ⟨hne, hu⟩
    · rw [hu]
      exact hp dbs d hs hd
    · rw [hu]
      exact hr dbs r d hne hs hd

/-- The server is as it was. -/
theorem Sound.goto (h : Sound f w) (hl : phase.locked = true → w.lock = some p)
    (hp : ∀ dbs d, w.server = some dbs → dbs (f.party p).building = some d →
      Built (f.party p) d phase) : Sound f (w.goto p phase) :=
  h.next hl h.stands hp (fun dbs r d _ hs hd => h.built dbs r d hs hd)

theorem Sound.release (h : Sound f w) (hp : phase.locked = false) : Sound f (w.goto p phase) :=
  h.goto (fun hl => absurd hl (by simp [hp])) (fun _ _ _ _ => built_of_unlocked hp)

theorem Sound.others (h : Sound f w) (hl : (w.phase p).locked = true) {r : Pid} (hr : r ≠ p)
    (d : Database) : Built (f.party r) d (w.phase r) := by
  refine built_of_unlocked ?_
  by_contra hlocked
  have hlock := (h.lock r (by simpa using hlocked)).symm.trans (h.lock p hl)
  exact hr (Option.some.inj hlock)

/-- A process that has the lock may do anything to the server that keeps what stands there. -/
theorem Sound.exclusive (h : Sound f w) (hlocked : (w.phase p).locked = true)
    (hst : ∀ dbs, server = some dbs → Stands f dbs)
    (hp : ∀ dbs d, server = some dbs → dbs (f.party p).building = some d →
      Built (f.party p) d phase) :
    Sound f ((w.set server).goto p phase) :=
  h.next (fun _ => h.lock p hlocked) hst hp (fun _ _ d hne _ _ => h.others hlocked hne d)

theorem perform_cases (w : World) (s : Statement) (reply : Reply) :
    (perform w s reply = (w, false)) ∨ ∃ dbs dbs' returned, w.server = some dbs ∧
      s.apply dbs = some dbs' ∧ perform w s reply = (w.set (some dbs'), returned) := by
  unfold perform
  split
  · exact .inl rfl
  · rename_i dbs' hdbs
    obtain ⟨dbs, hs, ha⟩ := Option.bind_eq_some_iff.1 hdbs
    cases reply with
    | ok => exact .inr ⟨dbs, dbs', _, hs, ha, rfl⟩
    | lost => exact .inr ⟨dbs, dbs', _, hs, ha, rfl⟩
    | refused => exact .inl rfl

theorem Sound.psql {s : Statement} {next : Phase} (h : Sound f w)
    (hs : (w.phase p).statement (f.party p) = some (s, next)) (reply : Reply) :
    Sound f ((perform w s reply).1.goto p (if (perform w s reply).2 then next else .failed)) := by
  have hlocked := locked_of_statement hs
  rcases perform_cases w s reply with hw | ⟨dbs, dbs', returned, hdbs, ha, hw⟩
  · rw [hw]
    exact h.release rfl
  · rw [hw]
    obtain ⟨hst, hb⟩ := (h.stands dbs hdbs).statement (fun d hd => h.built dbs p d hdbs hd) hs ha
    refine h.exclusive hlocked ?_ ?_
    · rintro _ ⟨⟩
      exact hst
    · rintro _ d ⟨⟩ hd
      cases returned with
      | true => exact hb d hd
      | false => trivial

/-- The tests write, and the teardown drops, without the lock: only databases of their own name. -/
theorem Sound.ownDatabase {dbs : Server} {v : Option Database} (h : Sound f w)
    (hs : w.server = some dbs) (hv : ∀ d, v = some d → Cloned f (f.party p).runDb d)
    (hp : phase.locked = false) :
    Sound f ((w.set (some (Function.update dbs (f.party p).runDb v))).goto p phase) := by
  refine h.next (fun hl => absurd hl (by simp [hp])) ?_ (fun _ _ _ _ => built_of_unlocked hp) ?_
  · rintro _ ⟨⟩
    exact (h.stands dbs hs).setRunDb hv
  · rintro _ r d - ⟨⟩ hd
    rw [Function.update_of_ne (runDb_ne_building f p r).symm] at hd
    exact h.built dbs r d hs hd

theorem Sound.start : Sound f {} where
  lock _ h := by cases h
  stands _ h := by cases h
  built _ _ _ h := by cases h

theorem Sound.acquire {next : Phase} (h : Sound f w) (hfree : w.lock = none)
    (hp : ∀ d, Built (f.party p) d next) : Sound f { w.goto p next with lock := some p } := by
  have hnone : ∀ r, (w.phase r).locked = false := by
    intro r
    by_contra hlocked
    have hlock := h.lock r (by simpa using hlocked)
    rw [hfree] at hlock
    cases hlock
  refine ⟨fun r hr => ?_, h.stands, fun dbs r d hs hd => ?_⟩
  · rcases update_cases w.phase p next r with ⟨rfl, hu⟩ | ⟨_, hu⟩
    · rfl
    · simp only [World.goto, hu, hnone r] at hr
      cases hr
  · rcases update_cases w.phase p next r with ⟨rfl, hu⟩ | ⟨_, hu⟩
    · simpa only [World.goto, hu] using hp d
    · simpa only [World.goto, hu] using h.built dbs r d hs hd

theorem Sound.step {a : Act} (h : Sound f w) (hs : step f w a = some w') : Sound f w' := by
  cases a with
  | acquire p =>
    simp only [Template.step, Option.isSome_iff_ne_none, ne_eq, ite_not] at hs
    split at hs
    · split at hs
      · cases hs
        exact h.acquire ‹_› (fun _ => trivial)
      · cases hs
        exact h.acquire ‹_› (fun _ => trivial)
      · cases hs
    · cases hs
  | ensure p result =>
    simp only [Template.step] at hs
    split at hs
    · rename_i hphase
      have hlocked : (w.phase p).locked = true := by rw [hphase]; rfl
      have hkept : ∀ dbs, (if (f.party p).fresh then none else w.server) = some dbs →
          Stands f dbs := by
        intro dbs hdbs
        split at hdbs
        · cases hdbs
        · exact h.stands dbs hdbs
      have hfound : ∀ dbs, some ((if (f.party p).fresh then none else w.server).getD
          (fun _ => none)) = some dbs → Stands f dbs := by
        rintro _ ⟨⟩
        cases hk : (if (f.party p).fresh then none else w.server) with
        | none => exact .empty
        | some dbs => exact hkept dbs hk
      cases result with
      | ready =>
        cases hs
        exact h.exclusive hlocked hfound (fun _ _ _ _ => trivial)
      | notReady =>
        cases hs
        exact h.exclusive hlocked hfound (fun _ _ _ _ => trivial)
      | notCreated =>
        cases hs
        exact h.exclusive hlocked hkept (fun _ _ _ _ => trivial)
    · cases hs
  | look p reply =>
    simp only [Template.step] at hs
    split at hs
    · rename_i hphase
      have hlocked : (w.phase p).locked = true := by rw [hphase]; rfl
      split at hs
      · split at hs
        · cases hs
          refine h.goto (fun _ => h.lock p hlocked) ?_
          intro _ _ _ _
          split <;> trivial
        · cases hs
          exact h.release rfl
      · cases hs
        exact h.release rfl
    · cases hs
  | psql p reply =>
    simp only [Template.step, Option.map_eq_some_iff] at hs
    obtain ⟨⟨s, next⟩, hst, rfl⟩ := hs
    exact h.psql hst reply
  | migrate p result =>
    simp only [Template.step] at hs
    split at hs
    · rename_i hphase
      have hlocked : (w.phase p).locked = true := by rw [hphase]; rfl
      -- whatever the command did, it did it to the building database
      have hchanged : ∀ c dbs, w.server.map (fun dbs => Function.update dbs (f.party p).building
          ((dbs (f.party p).building).map (· ++ [c]))) = some dbs → Stands f dbs := by
        intro c dbs hdbs
        obtain ⟨dbs₀, hdbs₀, rfl⟩ := Option.map_eq_some_iff.1 hdbs
        exact (h.stands dbs₀ hdbs₀).building
      cases result with
      | succeeded =>
        simp only at hs
        split at hs
        · cases hs
          refine h.exclusive hlocked (hchanged _) ?_
          intro dbs d hdbs hd
          obtain ⟨dbs₀, hdbs₀, rfl⟩ := Option.map_eq_some_iff.1 hdbs
          rw [Function.update_self, Option.map_eq_some_iff] at hd
          obtain ⟨d₀, hd₀, rfl⟩ := hd
          have hbuilt := h.built dbs₀ p d₀ hdbs₀ hd₀
          rw [hphase] at hbuilt
          obtain ⟨done, hdone, rfl⟩ := hbuilt
          rw [List.append_nil] at hdone
          rw [hdone]
          rfl
        · cases hs
      | failed =>
        cases hs
        exact h.exclusive hlocked (hchanged _) (fun _ _ _ _ => trivial)
      | killed =>
        cases hs
        exact h.exclusive hlocked (hchanged _) (fun _ _ _ _ => trivial)
    · cases hs
  | test p =>
    simp only [Template.step] at hs
    split at hs
    · rename_i hphase
      have hp : (w.phase p).locked = false := by rw [hphase]; rfl
      cases hs
      cases hserver : w.server with
      | none =>
        have hset : w.set none = w := by
          rw [World.set, ← hserver]
        rw [Option.map_none, hset]
        exact h.release rfl
      | some dbs =>
        refine h.ownDatabase hserver (fun d hd => ?_) rfl
        obtain ⟨d₀, hd₀, rfl⟩ := Option.map_eq_some_iff.1 hd
        exact ((h.stands dbs hserver).runDb p d₀ hd₀).tests
    · cases hs
  | drop p reply =>
    simp only [Template.step] at hs
    have hdrop : Sound f ((perform w (.drop (f.party p).runDb) reply).1.goto p .ended) := by
      rcases perform_cases w (.drop (f.party p).runDb) reply with
        hw | ⟨dbs, dbs', returned, hdbs, ha, hw⟩
      · rw [hw]
        exact h.release rfl
      · rw [hw]
        cases ha
        exact h.ownDatabase hdbs (fun _ hd => by cases hd) rfl
    split at hs
    · cases hs
      exact hdrop
    · cases hs
      exact hdrop
    · cases hs
      exact hdrop
    · cases hs
  | giveUp p =>
    simp only [Template.step] at hs
    split at hs
    · cases hs
    · cases hs
      exact h.release rfl
  | kill p =>
    cases hs
    exact h.release rfl
  | remove =>
    cases hs
    exact ⟨h.lock, (fun _ hd => by cases hd), (fun _ _ _ hd => by cases hd)⟩

end Sound

end Template
end Testing
end TrShared
