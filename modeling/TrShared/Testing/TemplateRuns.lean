import TrShared.Testing.Template

/-!
# TrShared.Testing.TemplateRuns

What holds over whole runs of the processes of `TrShared.Testing.Template`.

* `template_complete`: what bears the name of a template is migrated, completely and exactly once, and
  stays as it is.
* `run_database_fresh`: a run database starts as the migrated template, whatever was there before.
* `provision_recovers`: whenever the lock is free, a process that nothing disturbs gets its database.
-/

namespace TrShared
namespace Testing
namespace Template

open Python Machine

/-! ## What a step leaves alone -/

/-- Whose step it is. -/
def Act.pid : Act → Option Pid
  | .acquire p | .ensure p _ | .look p _ | .psql p _ | .migrate p _ | .test p | .drop p _ => some p
  | .giveUp p | .kill p => some p
  | .remove => none

/-- The container goes away. -/
def Removing (f : Fleet) : Act → Prop
  | .remove => True
  | .ensure p _ => (f.party p).fresh = true
  | _ => False

/-- What the process of a step does to the databases of the server. -/
inductive Touches (p : Party) (dbs : Server) : Server → Prop where
  | building (v : Option Database) : Touches p dbs (Function.update dbs p.building v)
  | runDb (v : Option Database) : Touches p dbs (Function.update dbs p.runDb v)
  | rename (d : Database) : dbs p.template = none →
      Touches p dbs (Function.update (Function.update dbs p.building none) p.template (some d))

section Frame

variable {f : Fleet} {w w' : World} {a : Act} {dbs dbs' : Server} {p : Pid}

theorem touches_of_statement {party : Party} {phase next : Phase} {s : Statement}
    (hs : phase.statement party = some (s, next)) (ha : s.apply dbs = some dbs') :
    Touches party dbs dbs' := by
  cases phase with
  | dropping =>
    cases hs
    cases ha
    exact .building _
  | creating =>
    cases hs
    simp only [Statement.apply] at ha
    split at ha
    · cases ha
      exact .building _
    · cases ha
  | layingOut left =>
    cases left with
    | nil => cases hs
    | cons statement left =>
      cases hs
      simp only [Statement.apply, Option.map_eq_some_iff] at ha
      obtain ⟨d, _, rfl⟩ := ha
      exact .building _
  | cleaning =>
    cases hs
    cases ha
    exact .building _
  | migrated =>
    cases hs
    simp only [Statement.apply] at ha
    split at ha
    · cases ha
      exact .rename _ ‹_›
    · cases ha
  | clearing =>
    cases hs
    cases ha
    exact .runDb _
  | cloning =>
    cases hs
    simp only [Statement.apply] at ha
    split at ha
    · cases ha
      exact .runDb _
    · cases ha
  | idle | provisioning | looking | provisioned | testing | failed | ended => cases hs

/-- What a process may have made of the server. -/
def Changes (party : Party) (before after : Option Server) : Prop :=
  after = before ∨ ∃ dbs dbs', before = some dbs ∧ after = some dbs' ∧ Touches party dbs dbs'

/-- What the migrations and the tests write goes to a database of their process, or nowhere. -/
theorem changes_of_write {party : Party} {server : Option Server} {name : Text}
    (g : Database → Database)
    (hname : ∀ dbs v, Touches party dbs (Function.update dbs name v)) :
    Changes party server
      (server.map (fun dbs => Function.update dbs name ((dbs name).map g))) := by
  cases server with
  | none => exact .inl rfl
  | some dbs => exact .inr ⟨dbs, _, rfl, rfl, hname dbs _⟩

theorem changes_of_perform {s : Statement} {reply : Reply}
    (hs : ∀ dbs dbs', s.apply dbs = some dbs' → Touches (f.party p) dbs dbs') :
    Changes (f.party p) w.server (perform w s reply).1.server := by
  rcases perform_cases w s reply with hw | ⟨dbs, dbs', returned, hdbs, ha, hw⟩
  · rw [hw]
    exact .inl rfl
  · rw [hw]
    exact .inr ⟨dbs, dbs', hdbs, rfl, hs dbs dbs' ha⟩

/-- Inversion of a step, as to the server: the container goes away and may come back empty, or the
process of the step did something to databases of its own. -/
theorem server_cases (h : step f w a = some w') :
    ((Removing f a ∨ w.server = none) ∧ (w'.server = none ∨ w'.server = some fun _ => none)) ∨
      ∃ p, a.pid = some p ∧ Changes (f.party p) w.server w'.server := by
  cases a with
  | acquire p =>
    simp only [step] at h
    split at h
    · cases h
    · split at h <;> cases h
      · exact .inr ⟨p, rfl, .inl rfl⟩
      · exact .inr ⟨p, rfl, .inl rfl⟩
  | ensure p result =>
    simp only [step] at h
    split at h
    · by_cases hfresh : (f.party p).fresh = true
      · simp only [hfresh, if_true, Option.getD_none] at h
        refine .inl ⟨.inl hfresh, ?_⟩
        cases result <;> cases h
        · exact .inr rfl
        · exact .inl rfl
        · exact .inr rfl
      · simp only [hfresh] at h
        cases hserver : w.server with
        | none =>
          rw [hserver] at h
          refine .inl ⟨.inr rfl, ?_⟩
          cases result <;> cases h
          · exact .inr rfl
          · exact .inl rfl
          · exact .inr rfl
        | some dbs =>
          rw [hserver] at h
          refine .inr ⟨p, rfl, .inl ?_⟩
          cases result <;> cases h <;> rfl
    · cases h
  | look p reply =>
    simp only [step] at h
    split at h
    · split at h
      · split at h <;> cases h
        · exact .inr ⟨p, rfl, .inl rfl⟩
        · exact .inr ⟨p, rfl, .inl rfl⟩
      · cases h
        exact .inr ⟨p, rfl, .inl rfl⟩
    · cases h
  | psql p reply =>
    simp only [step, Option.map_eq_some_iff] at h
    obtain ⟨⟨s, next⟩, hst, rfl⟩ := h
    exact .inr ⟨p, rfl, changes_of_perform (fun _ _ ha => touches_of_statement hst ha)⟩
  | migrate p result =>
    simp only [step] at h
    split at h
    · have hwrite : ∀ c, Changes (f.party p) w.server (w.server.map (fun dbs =>
          Function.update dbs (f.party p).building
            ((dbs (f.party p).building).map (· ++ [c])))) := fun c =>
        changes_of_write _ (fun _ v => .building v)
      cases result with
      | succeeded =>
        simp only at h
        split at h
        · cases h
          exact .inr ⟨p, rfl, hwrite _⟩
        · cases h
      | failed =>
        cases h
        exact .inr ⟨p, rfl, hwrite _⟩
      | killed =>
        cases h
        exact .inr ⟨p, rfl, hwrite _⟩
    · cases h
  | test p =>
    simp only [step] at h
    split at h
    · cases h
      have hwrite : Changes (f.party p) w.server (w.server.map (fun dbs =>
          Function.update dbs (f.party p).runDb ((dbs (f.party p).runDb).map (· ++ [.tests p])))) :=
        changes_of_write _ (fun _ v => .runDb v)
      exact .inr ⟨p, rfl, hwrite⟩
    · cases h
  | drop p reply =>
    have hdrop : Changes (f.party p) w.server
        (perform w (.drop (f.party p).runDb) reply).1.server := by
      refine changes_of_perform (fun dbs dbs' ha => ?_)
      cases ha
      exact .runDb none
    simp only [step] at h
    split at h
    · cases h
      exact .inr ⟨p, rfl, hdrop⟩
    · cases h
      exact .inr ⟨p, rfl, hdrop⟩
    · cases h
      exact .inr ⟨p, rfl, hdrop⟩
    · cases h
  | giveUp p =>
    simp only [step] at h
    split at h
    · cases h
    · cases h
      exact .inr ⟨p, rfl, .inl rfl⟩
  | kill p =>
    cases h
    exact .inr ⟨p, rfl, .inl rfl⟩
  | remove =>
    cases h
    exact .inl ⟨.inl trivial, .inl rfl⟩

/-- Nothing but the removal of the container takes a template away, or changes it. -/
theorem Touches.template (h : Touches (f.party p) dbs dbs') {q : Pid} {d : Database}
    (hd : dbs (f.party q).template = some d) : dbs' (f.party q).template = some d := by
  cases h with
  | building v => rw [Function.update_of_ne (building_ne_template f p q).symm, hd]
  | runDb v => rw [Function.update_of_ne (runDb_ne_template f p q).symm, hd]
  | rename d' hnone =>
    have hne : (f.party q).template ≠ (f.party p).template := by
      intro heq
      rw [heq, hnone] at hd
      cases hd
    rw [Function.update_of_ne hne, Function.update_of_ne (building_ne_template f p q).symm, hd]

/-- A process with another name of the run database leaves it alone. -/
theorem Touches.runDb_of_ne (h : Touches (f.party p) dbs dbs') {q : Pid}
    (hq : (f.party p).runDb ≠ (f.party q).runDb) :
    dbs' (f.party q).runDb = dbs (f.party q).runDb := by
  cases h with
  | building v => rw [Function.update_of_ne (runDb_ne_building f q p)]
  | runDb v => rw [Function.update_of_ne hq.symm]
  | rename d hnone =>
    rw [Function.update_of_ne (runDb_ne_template f q p),
      Function.update_of_ne (runDb_ne_building f q p)]

theorem template_step {q : Pid} {d : Database} (hr : ¬ Removing f a)
    (hs : w.server = some dbs) (hd : dbs (f.party q).template = some d)
    (h : step f w a = some w') :
    ∃ dbs', w'.server = some dbs' ∧ dbs' (f.party q).template = some d := by
  rcases server_cases h with ⟨hgone, _⟩ | ⟨p, _, hsame | ⟨dbs₀, dbs', hdbs₀, hdbs', ht⟩⟩
  · rcases hgone with hgone | hgone
    · exact absurd hgone hr
    · rw [hs] at hgone
      cases hgone
  · exact ⟨dbs, hsame.trans hs, hd⟩
  · cases hs.symm.trans hdbs₀
    exact ⟨dbs', hdbs', ht.template hd⟩

theorem phase_of_other (h : step f w a = some w') (hp : a.pid ≠ some p) :
    w'.phase p = w.phase p := by
  have hgoto : ∀ {w₀ : World} {q : Pid} {phase : Phase}, a.pid = some q → w₀.phase = w.phase →
      (w₀.goto q phase).phase p = w.phase p := by
    intro w₀ q phase hq hw
    have hne : p ≠ q := by
      rintro rfl
      exact hp hq
    rw [World.goto_phase, hw, Function.update_of_ne hne]
  have hperform : ∀ s reply, (perform w s reply).1.phase = w.phase := by
    intro s reply
    rcases perform_cases w s reply with hw | ⟨_, _, _, _, _, hw⟩ <;> rw [hw]
    rfl
  cases a with
  | acquire q =>
    simp only [step] at h
    split at h
    · cases h
    · split at h <;> cases h
      · exact hgoto rfl rfl
      · exact hgoto rfl rfl
  | ensure q result =>
    simp only [step] at h
    split at h
    · cases result <;> cases h <;> exact hgoto rfl rfl
    · cases h
  | look q reply =>
    simp only [step] at h
    split at h
    · split at h
      · split at h <;> cases h <;> exact hgoto rfl rfl
      · cases h
        exact hgoto rfl rfl
    · cases h
  | psql q reply =>
    simp only [step, Option.map_eq_some_iff] at h
    obtain ⟨⟨s, next⟩, _, rfl⟩ := h
    exact hgoto rfl (hperform s reply)
  | migrate q result =>
    simp only [step] at h
    split at h
    · cases result with
      | succeeded =>
        simp only at h
        split at h
        · cases h
          exact hgoto rfl rfl
        · cases h
      | failed =>
        cases h
        exact hgoto rfl rfl
      | killed =>
        cases h
        exact hgoto rfl rfl
    · cases h
  | test q =>
    simp only [step] at h
    split at h
    · cases h
      exact hgoto rfl rfl
    · cases h
  | drop q reply =>
    simp only [step] at h
    split at h
    all_goals cases h
    all_goals exact hgoto rfl (hperform _ reply)
  | giveUp q =>
    simp only [step] at h
    split at h
    · cases h
    · cases h
      exact hgoto rfl rfl
  | kill q =>
    cases h
    exact hgoto rfl rfl
  | remove =>
    cases h
    rfl

end Frame

/-! ## Whole runs -/

def anyAct (_ : World) (_ : Act) : Prop := True

theorem sound_run {f : Fleet} {as : List Act} {w : World} (h : Run (step f) anyAct {} as w) :
    Sound f w :=
  h.invariant (fun _ _ _ hi _ hs => hi.step hs) .start

/-- Whatever happened before: a database that bears the name of a template has the layout and the
migrations of a process with this template, each once and nothing else; and it stays there and stays the
same until the container is removed. -/
theorem template_complete {f : Fleet} {as bs : List Act} {w w' : World} {dbs : Server} {p : Pid}
    {d : Database} (h : Run (step f) anyAct {} as w)
    (h' : Run (step f) (fun _ a => ¬ Removing f a) w bs w') (hs : w.server = some dbs)
    (hd : dbs (f.party p).template = some d) :
    Migrated f (f.party p).template d ∧
      ∃ dbs', w'.server = some dbs' ∧ dbs' (f.party p).template = some d := by
  refine ⟨((sound_run h).stands dbs hs).template p d hd, ?_⟩
  refine h'.invariant (I := fun w => ∃ dbs, w.server = some dbs ∧
    dbs (f.party p).template = some d) ?_ ⟨dbs, hs, hd⟩
  rintro w a w' ⟨dbs, hs, hd⟩ hr hstep
  exact template_step hr hs hd hstep

/-- The workers of one run. -/
def demoFleet : Fleet where
  party p :=
    { config := ⟨text "tr-crm-core", text "0123456789ab"⟩, runId := text "4711", workerId := gw p }
  key := text "0123456789"
  key_length := by decide
  key_plain := by decide
  shared _ := by rfl

/-- A worker is killed in its migrations, -/
def killedActs : List Act :=
  [.acquire 0, .ensure 0 .ready, .look 0 .ok] ++ List.replicate 7 (.psql 0 .ok) ++
    [.migrate 0 .killed]

/-- and the next one builds the template. -/
def rebuiltActs : List Act :=
  killedActs ++ [.acquire 1, .ensure 1 .ready, .look 1 .ok] ++ List.replicate 7 (.psql 1 .ok) ++
    [.migrate 1 .succeeded, .psql 1 .ok]

theorem rebuilt_runs : ((exec (step demoFleet) {} rebuiltActs).any (fun w =>
    (w.server.bind (· (demoFleet.party 1).template)).isSome)) = true := by decide +kernel

theorem template_rebuilt : ∃ w dbs d, exec (step demoFleet) {} rebuiltActs = some w ∧
    w.server = some dbs ∧ dbs (demoFleet.party 1).template = some d ∧
    Migrated demoFleet (demoFleet.party 1).template d := by
  obtain ⟨w, hw, hfound⟩ := exec_any rebuilt_runs
  obtain ⟨d, hd⟩ := Option.isSome_iff_exists.1 hfound
  obtain ⟨dbs, hs, hd⟩ := Option.bind_eq_some_iff.1 hd
  exact ⟨w, dbs, d, hw, hs, hd,
    (template_complete (.of_exec_all (fun _ _ _ => trivial) hw) .nil hs hd).1⟩

/-- The run database of a process that has got it, as long as nobody else uses its name. -/
structure Own (f : Fleet) (p : Pid) (base : Database) (w : World) : Prop where
  phase : w.phase p = .testing ∨ w.phase p = .failed ∨ w.phase p = .ended
  content : ∀ dbs d, w.server = some dbs → dbs (f.party p).runDb = some d →
    ∃ n, d = base ++ List.replicate n (.tests p)

section Own

variable {f : Fleet} {w w' : World} {a : Act} {p : Pid} {base : Database}

theorem Own.other (hi : Own f p base w) (hp : a.pid ≠ some p)
    (ha : ∀ q, a.pid = some q → (f.party q).runDb ≠ (f.party p).runDb)
    (h : step f w a = some w') : Own f p base w' := by
  refine ⟨by rw [phase_of_other h hp]; exact hi.phase, fun dbs d hs hd => ?_⟩
  rcases server_cases h with ⟨-, hgone⟩ | ⟨q, hq, hsame | ⟨dbs₀, dbs', hdbs₀, hdbs', ht⟩⟩
  · rw [hs] at hgone
    rcases hgone with hgone | hgone
    · cases hgone
    · cases hgone
      cases hd
  · exact hi.content dbs d (hsame.symm.trans hs) hd
  · cases hs.symm.trans hdbs'
    rw [ht.runDb_of_ne (ha q hq)] at hd
    exact hi.content dbs₀ d hdbs₀ hd

theorem Own.self (hi : Own f p base w) (hp : a.pid = some p) (h : step f w a = some w') :
    Own f p base w' := by
  have hdone : ∀ {phase : Phase} {w₀ : World},
      phase = .testing ∨ phase = .failed ∨ phase = .ended →
      (∀ dbs d, w₀.server = some dbs → dbs (f.party p).runDb = some d →
        ∃ n, d = base ++ List.replicate n (.tests p)) → Own f p base (w₀.goto p phase) := by
    intro phase w₀ hphase hcontent
    refine ⟨?_, hcontent⟩
    rw [World.goto_phase, Function.update_self]
    exact hphase
  cases a with
  | acquire q | ensure q _ | look q _ | psql q _ | migrate q _ =>
    cases hp
    rcases hi.phase with hphase | hphase | hphase <;> simp [step, hphase, Phase.statement] at h
  | test q =>
    cases hp
    simp only [step] at h
    split at h
    · cases h
      refine hdone (.inl rfl) (fun dbs d hs hd => ?_)
      obtain ⟨dbs₀, hdbs₀, rfl⟩ := Option.map_eq_some_iff.1 hs
      rw [Function.update_self, Option.map_eq_some_iff] at hd
      obtain ⟨d₀, hd₀, rfl⟩ := hd
      obtain ⟨n, rfl⟩ := hi.content dbs₀ d₀ hdbs₀ hd₀
      exact ⟨n + 1, by rw [List.replicate_succ', List.append_assoc]⟩
    · cases h
  | drop q reply =>
    cases hp
    have hdrop : Own f p base ((perform w (.drop (f.party p).runDb) reply).1.goto p .ended) := by
      rcases perform_cases w (.drop (f.party p).runDb) reply with
        hw | ⟨dbs, dbs', returned, _, ha, hw⟩
      · rw [hw]
        exact hdone (.inr (.inr rfl)) hi.content
      · rw [hw]
        cases ha
        refine hdone (.inr (.inr rfl)) ?_
        rintro _ d ⟨⟩ hd
        rw [Function.update_self] at hd
        cases hd
    simp only [step] at h
    split at h
    · cases h
      exact hdrop
    · cases h
      exact hdrop
    · cases h
      exact hdrop
    · cases h
  | giveUp q =>
    cases hp
    simp only [step] at h
    split at h
    · cases h
    · cases h
      exact hdone (.inr (.inl rfl)) hi.content
  | kill q =>
    cases hp
    cases h
    exact hdone (.inr (.inr rfl)) hi.content
  | remove => cases hp

end Own

/-- What `create_run_database` hands out is the migrated template and nothing else, whatever earlier runs
left under the name; from then on, as long as no other process uses the name, only the tests of this one
are added to it. -/
theorem run_database_fresh {f : Fleet} {as bs : List Act} {w₁ w₂ w₃ : World} {p : Pid} {reply : Reply}
    (h : Run (step f) anyAct {} as w₁) (hphase : w₁.phase p = .cloning)
    (hstep : step f w₁ (.psql p reply) = some w₂) (htesting : w₂.phase p = .testing)
    (h' : Run (step f) (fun _ a => ∀ q, a.pid = some q →
      q = p ∨ (f.party q).runDb ≠ (f.party p).runDb) w₂ bs w₃) :
    ∃ base, Migrated f (f.party p).template base ∧
      (∃ dbs, w₂.server = some dbs ∧ dbs (f.party p).runDb = some base) ∧
      ∀ dbs d, w₃.server = some dbs → dbs (f.party p).runDb = some d →
        ∃ n, d = base ++ List.replicate n (.tests p) := by
  have hs : (w₁.phase p).statement (f.party p) =
      some (.clone (f.party p).runDb (f.party p).template, .testing) := by
    rw [hphase]
    rfl
  simp only [step, hs, Option.map_some, Option.some.injEq] at hstep
  subst hstep
  rcases perform_cases w₁ (.clone (f.party p).runDb (f.party p).template) reply with
    hw | ⟨dbs, dbs', returned, hdbs, ha, hw⟩
  · rw [hw] at htesting
    simp at htesting
  · rw [hw] at htesting h' ⊢
    simp only [Statement.apply] at ha
    split at ha
    · rename_i base hbase _
      cases ha
      refine ⟨base, ((sound_run h).stands dbs hdbs).template p base hbase,
        ⟨_, rfl, Function.update_self ..⟩, ?_⟩
      refine (h'.invariant (I := Own f p base) (fun w a w' hi ha hs => ?_) ⟨.inl htesting, ?_⟩).content
      · by_cases hp : a.pid = some p
        · exact hi.self hp hs
        · refine hi.other hp (fun q hq => (ha q hq).resolve_left ?_) hs
          rintro rfl
          exact hp hq
      · rintro _ d ⟨⟩ hd
        rw [Function.update_self] at hd
        cases hd
        exact ⟨0, by simp⟩
    · cases ha

theorem cloning_runs : ((exec (step demoFleet) {} (rebuiltActs ++ [.acquire 1, .psql 1 .ok])).any
    (fun w => decide (w.phase 1 = .cloning) && (step demoFleet w (.psql 1 .ok)).any (fun w₂ =>
      decide (w₂.phase 1 = .testing) &&
        (exec (step demoFleet) w₂ [.test 1, .acquire 2, .kill 2]).isSome))) = true := by
  decide +kernel

theorem rebuilt_clone_fresh : ∃ w₁ w₂ w₃ : World, ∃ base : Database,
    exec (step demoFleet) {} (rebuiltActs ++ [.acquire 1, .psql 1 .ok]) = some w₁ ∧
    step demoFleet w₁ (.psql 1 .ok) = some w₂ ∧
    exec (step demoFleet) w₂ [.test 1, .acquire 2, .kill 2] = some w₃ ∧
    Migrated demoFleet (demoFleet.party 1).template base ∧
    ∀ dbs d, w₃.server = some dbs → dbs (demoFleet.party 1).runDb = some d →
      ∃ n, d = base ++ List.replicate n (.tests 1) := by
  obtain ⟨w₁, hw₁, hnext⟩ := exec_any cloning_runs
  rw [Bool.and_eq_true, decide_eq_true_eq, Option.any_eq_true] at hnext
  obtain ⟨hcloning, w₂, hw₂, hrest⟩ := hnext
  rw [Bool.and_eq_true, decide_eq_true_eq] at hrest
  obtain ⟨htesting, hlast⟩ := hrest
  obtain ⟨w₃, hw₃⟩ := Option.isSome_iff_exists.1 hlast
  have hothers : (demoFleet.party 2).runDb ≠ (demoFleet.party 1).runDb := by decide +kernel
  have halone : ∀ a ∈ [Act.test 1, .acquire 2, .kill 2], ∀ q, a.pid = some q →
      q = 1 ∨ (demoFleet.party q).runDb ≠ (demoFleet.party 1).runDb := by
    intro a ha q hq
    simp only [List.mem_cons, List.not_mem_nil, or_false] at ha
    rcases ha with rfl | rfl | rfl <;> cases hq
    · exact .inl rfl
    · exact .inr hothers
    · exact .inr hothers
  obtain ⟨base, hbase, _, hcontent⟩ := run_database_fresh (.of_exec_all (fun _ _ _ => trivial) hw₁)
    hcloning hw₂ htesting (.of_exec_all (fun a ha _ => halone a ha) hw₃)
  exact ⟨w₁, w₂, w₃, base, hw₁, hw₂, hw₃, hbase, hcontent⟩

/-! ## A run of one process -/

/-- `_build_template` without a failure. -/
def buildActs (p : Pid) : List Act :=
  [.psql p .ok, .psql p .ok] ++ databaseLayout.map (fun _ => .psql p .ok) ++
    [.migrate p .succeeded, .psql p .ok]

/-- `provision` and `create_run_database` without a failure and without anybody else. -/
def soloActs (f : Fleet) (w : World) (p : Pid) : List Act :=
  let kept := if (f.party p).fresh then none else w.server
  let found := (kept.bind (· (f.party p).template)).isSome
  [.acquire p, .ensure p .ready, .look p .ok] ++ (if found then [] else buildActs p) ++
    [.acquire p, .psql p .ok, .psql p .ok]

/-- Where one process is. -/
structure Stage (w : World) (p : Pid) (lock : Option Pid) (dbs : Server) (phase : Phase) : Prop where
  server : w.server = some dbs
  lock : w.lock = lock
  phase : w.phase p = phase

section Solo

variable {f : Fleet} {w : World} {p : Pid} {dbs dbs' : Server} {phase next : Phase}

theorem Stage.goto {w : World} (hs : w.server = some dbs) (hl : w.lock = some p) :
    Stage (w.goto p phase) p (if phase.locked then some p else none) dbs phase where
  server := hs
  lock := by
    rw [World.goto_lock, hl]
    simp
  phase := by rw [World.goto_phase, Function.update_self]

theorem Stage.psql {s : Statement} (h : Stage w p (some p) dbs phase)
    (hs : phase.statement (f.party p) = some (s, next)) (ha : s.apply dbs = some dbs') :
    ∃ w', step f w (.psql p .ok) = some w' ∧
      Stage w' p (if next.locked then some p else none) dbs' next := by
  have hperform : perform w s .ok = (w.set (some dbs'), true) := by
    simp only [perform, h.server, Option.bind_some, ha]
    rfl
  refine ⟨(w.set (some dbs')).goto p next, ?_, .goto rfl h.lock⟩
  simp only [step, h.phase, hs, Option.map_some, hperform, if_true]

theorem exec_next {w w' : World} {a : Act} {as : List Act} (h : step f w a = some w') :
    exec (step f) w (a :: as) = exec (step f) w' as := by
  simp only [exec, h]

/-- The statements of the layout are run one after the other. -/
theorem Stage.layout {left : List String} {d : Database}
    (h : Stage w p (some p) dbs (.layingOut left)) (hd : dbs (f.party p).building = some d) :
    ∃ w' d', exec (step f) w (left.map (fun _ => Act.psql p .ok)) = some w' ∧
      Stage w' p (some p) (Function.update dbs (f.party p).building (some d')) (.layingOut []) := by
  induction left generalizing w dbs d with
  | nil =>
    refine ⟨w, d, rfl, ?_⟩
    rwa [← hd, Function.update_eq_self]
  | cons statement left ih =>
    have ha : (Statement.layout statement (f.party p).building).apply dbs =
        some (Function.update dbs (f.party p).building (some (d ++ [.layout statement]))) := by
      simp only [Statement.apply, hd, Option.map_some]
    obtain ⟨w₁, hw₁, h₁⟩ := h.psql rfl ha
    obtain ⟨w', d', hw', h'⟩ := ih h₁ (Function.update_self ..)
    refine ⟨w', d', ?_, ?_⟩
    · rw [List.map_cons, exec_next hw₁, hw']
    · rwa [Function.update_idem] at h'

theorem Stage.migrate {d : Database} (h : Stage w p (some p) dbs (.layingOut []))
    (hd : dbs (f.party p).building = some d) :
    ∃ w', step f w (.migrate p .succeeded) = some w' ∧
      Stage w' p (some p) (Function.update dbs (f.party p).building
        (some (d ++ [.migrated (f.party p).config]))) .migrated := by
  let dbs' := Function.update dbs (f.party p).building
    (some (d ++ [.migrated (f.party p).config]))
  have hstep : step f w (.migrate p .succeeded) = some ((w.set (some dbs')).goto p .migrated) := by
    simp only [step, h.phase, h.server, Option.bind_some, hd, Option.isSome_some, if_true,
      Option.map_some, dbs']
  exact ⟨_, hstep, .goto rfl h.lock⟩

/-- Whatever stood under the name of the building database, the template is built. -/
theorem Stage.build (h : Stage w p (some p) dbs .dropping)
    (hnone : dbs (f.party p).template = none) :
    ∃ w' dbs' d, exec (step f) w (buildActs p) = some w' ∧ Stage w' p none dbs' .provisioned ∧
      dbs' (f.party p).template = some d := by
  obtain ⟨w₁, hw₁, h₁⟩ := h.psql (f := f) rfl rfl
  have hcreate : (Statement.create (f.party p).building).apply
      (Function.update dbs (f.party p).building none) =
      some (Function.update dbs (f.party p).building (some [])) := by
    simp only [Statement.apply, Function.update_self, Option.isNone_none, if_true,
      Function.update_idem]
  obtain ⟨w₂, hw₂, h₂⟩ := h₁.psql (f := f) rfl hcreate
  obtain ⟨w₃, d₃, hw₃, h₃⟩ := h₂.layout (Function.update_self ..)
  obtain ⟨w₄, hw₄, h₄⟩ := h₃.migrate (Function.update_self ..)
  have hrename : (Statement.rename (f.party p).building (f.party p).template).apply
      (Function.update dbs (f.party p).building
        (some (d₃ ++ [.migrated (f.party p).config]))) =
      some (Function.update (Function.update dbs (f.party p).building none) (f.party p).template
        (some (d₃ ++ [.migrated (f.party p).config]))) := by
    simp only [Statement.apply, Function.update_self,
      Function.update_of_ne (building_ne_template f p p).symm, hnone, Function.update_idem]
  simp only [Function.update_idem] at h₄
  obtain ⟨w₅, hw₅, h₅⟩ := h₄.psql (f := f) rfl hrename
  refine ⟨w₅, _, _, ?_, h₅, Function.update_self ..⟩
  rw [buildActs, List.append_assoc, List.cons_append, exec_next hw₁, List.cons_append,
    exec_next hw₂, List.nil_append, exec_append hw₃, exec_next hw₄, exec_next hw₅]
  rfl

/-- The clone is made, whatever stood under its name. -/
theorem Stage.clone {d : Database} (h : Stage w p none dbs .provisioned)
    (hd : dbs (f.party p).template = some d) :
    ∃ w' dbs', exec (step f) w [.acquire p, .psql p .ok, .psql p .ok] = some w' ∧
      Stage w' p none dbs' .testing ∧ dbs' (f.party p).runDb = some d := by
  have hacquire : step f w (.acquire p) = some { w.goto p .clearing with lock := some p } := by
    simp only [step, h.lock, Option.isSome_none, Bool.false_eq_true, if_false, h.phase]
  have h₁ : Stage { w.goto p .clearing with lock := some p } p (some p) dbs .clearing :=
    ⟨h.server, rfl, Function.update_self ..⟩
  obtain ⟨w₂, hw₂, h₂⟩ := h₁.psql (f := f) rfl rfl
  have hclone : (Statement.clone (f.party p).runDb (f.party p).template).apply
      (Function.update dbs (f.party p).runDb none) =
      some (Function.update dbs (f.party p).runDb (some d)) := by
    simp only [Statement.apply, Function.update_self,
      Function.update_of_ne (runDb_ne_template f p p).symm, hd, Function.update_idem]
  obtain ⟨w₃, hw₃, h₃⟩ := h₂.psql (f := f) rfl hclone
  refine ⟨w₃, _, ?_, h₃, Function.update_self ..⟩
  rw [exec_next hacquire, exec_next hw₂, exec_next hw₃]
  rfl

/-- The template is there, or it is built. -/
theorem Stage.provide (h : Stage w p (some p) dbs .looking) :
    ∃ w' dbs' d, exec (step f) w (.look p .ok ::
        if (dbs (f.party p).template).isSome then [] else buildActs p) = some w' ∧
      Stage w' p none dbs' .provisioned ∧ dbs' (f.party p).template = some d := by
  have hlook : step f w (.look p .ok) =
      some (w.goto p (if (dbs (f.party p).template).isSome then .provisioned else .dropping)) := by
    simp only [step, h.phase, h.server, Reply.returned, if_true]
  rw [exec_next hlook]
  cases hd : dbs (f.party p).template with
  | some d => exact ⟨_, dbs, d, rfl, .goto h.server h.lock, hd⟩
  | none =>
    have hdropping : Stage (w.goto p .dropping) p (some p) dbs .dropping := .goto h.server h.lock
    exact hdropping.build hd

end Solo

/-- Crashes and failures leave nothing behind that is in the way: in any state that can be reached, if
the lock is free, a process that has not started yet gets a run database that is a complete clone. -/
theorem provision_recovers {f : Fleet} {as : List Act} {w : World} {p : Pid}
    (h : Run (step f) anyAct {} as w) (hfree : w.lock = none) (hidle : w.phase p = .idle) :
    ∃ w' dbs d, exec (step f) w (soloActs f w p) = some w' ∧ w'.phase p = .testing ∧
      w'.server = some dbs ∧ dbs (f.party p).runDb = some d ∧
      Migrated f (f.party p).template d := by
  have hacquire : step f w (.acquire p) = some { w.goto p .provisioning with lock := some p } := by
    simp only [step, hfree, Option.isSome_none, Bool.false_eq_true, if_false, hidle]
  let kept := if (f.party p).fresh then none else w.server
  let dbs : Server := kept.getD (fun _ => none)
  let w₁ : World := { w.goto p .provisioning with lock := some p }
  let w₂ : World := (w₁.set (some dbs)).goto p .looking
  have hensure : step f w₁ (.ensure p .ready) = some w₂ := by
    simp only [step, w₁, World.goto_phase, Function.update_self]
    rfl
  have h₂ : Stage w₂ p (some p) dbs .looking := .goto rfl rfl
  have hfound : (kept.bind (· (f.party p).template)).isSome =
      (dbs (f.party p).template).isSome := by
    simp only [dbs]
    cases kept <;> rfl
  obtain ⟨w₃, dbs₃, d, hw₃, h₃, hd⟩ := h₂.provide (f := f)
  obtain ⟨w₄, dbs₄, hw₄, h₄, hrun⟩ := h₃.clone hd
  have hprovided : Run (step f) anyAct w₂ _ w₃ := .of_exec_all (fun _ _ _ => trivial) hw₃
  have hsound : Sound f w₃ := hprovided.invariant (fun _ _ _ hi _ hs => hi.step hs)
    (((sound_run h).step hacquire).step hensure)
  refine ⟨w₄, dbs₄, d, ?_, h₄.phase, h₄.server, hrun,
    (hsound.stands dbs₃ h₃.server).template p d hd⟩
  have hacts : soloActs f w p = .acquire p :: .ensure p .ready ::
      ((.look p .ok :: if (dbs (f.party p).template).isSome then [] else buildActs p) ++
        [.acquire p, .psql p .ok, .psql p .ok]) := by
    rw [soloActs, ← hfound]
    rfl
  rw [hacts, exec_next hacquire, exec_next hensure, exec_append hw₃, hw₄]

theorem killed_runs : ((exec (step demoFleet) {} killedActs).any (fun w =>
    w.lock = none ∧ w.phase 1 = .idle)) = true := by decide +kernel

theorem provision_recovers_killed : ∃ w w' : World, ∃ dbs : Server, ∃ d : Database,
    exec (step demoFleet) {} killedActs = some w ∧
    exec (step demoFleet) w (soloActs demoFleet w 1) = some w' ∧ w'.phase 1 = .testing ∧
    w'.server = some dbs ∧ dbs (demoFleet.party 1).runDb = some d ∧
    Migrated demoFleet (demoFleet.party 1).template d := by
  obtain ⟨w, hw, hw'⟩ := exec_any killed_runs
  obtain ⟨hfree, hidle⟩ := of_decide_eq_true hw'
  obtain ⟨w', dbs, d, hrun⟩ :=
    provision_recovers (.of_exec_all (fun _ _ _ => trivial) hw) hfree hidle
  exact ⟨w, w', dbs, d, hw, hrun⟩

end Template
end Testing
end TrShared
