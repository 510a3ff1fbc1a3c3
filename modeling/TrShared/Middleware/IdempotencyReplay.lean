import TrShared.Machine.History
import TrShared.Middleware.IdempotencyIsolation
import TrShared.Python.Utf8

/-!
# TrShared.Middleware.IdempotencyReplay

What a duplicate is answered with, compared with what the first caller received. The body goes into
the cached document as text, decoded with `errors="replace"`, and is encoded again when it is
replayed; status and content type are kept as they are.

* `replay_faithful_iff`: in every run the replays of a stored response are the response itself, if
  and only if its body is valid UTF-8.
* `binary_body_changed`: a body that is not is replayed with U+FFFD in it.
-/

namespace TrShared
namespace Middleware
namespace Idempotency

open Python Machine

/-! ## What a caller receives -/

/-- `starlette.responses.Response`: text is rendered in UTF-8, and the content type is built from the
media type alone. -/
structure ResponseClass where
  render : String → List UInt8
  contentType : String → String
  render_utf8 : ∀ s, render s = encodeUtf8 s

structure Received where
  statusCode : Int
  contentType : String
  body : List UInt8
  deriving DecidableEq

/-- The responses that `_process_and_cache` and `_handle_duplicate` build; `none` for a conflict or an
exception. -/
def received (R : ResponseClass) : Answer → Option Received
  | .response r => some ⟨r.statusCode, R.contentType r.contentType, r.body⟩
  | .replayed _ (.num statusCode 0) (.str content) (.str mediaType) =>
    some ⟨statusCode, R.contentType mediaType, R.render content⟩
  | _ => none

theorem received_replayed (R : ResponseClass) (i : RequestId) (r : Response) :
    received R (duplicateAnswer (some ⟨i, completed decodeReplace r⟩)) =
      some ⟨r.statusCode, R.contentType r.contentType, encodeUtf8 (decodeReplace r.body)⟩ := by
  rw [duplicateAnswer_completed, received, R.render_utf8]

/-! ## Documents and answers come from the handler -/

/-- The response a request goes on with. -/
def Phase.held : Phase → Option Response
  | .storing _ r => some r
  | .releasing _ r => r
  | .answered (.response r) => some r
  | _ => none

/-- The request is past its handler, or will not run one. -/
def Phase.ran : Phase → Bool
  | .storing _ _ | .releasing _ _ | .answered _ => true
  | _ => false

/-- `as` are the actions so far. -/
structure Kept (decode : List UInt8 → String) (as : List Act) (w : World) : Prop where
  slot : ∀ k t, w.redis.slot k = some t → t.value.value = processingSentinel ∨
    ∃ r, t.value.value = completed decode r ∧ .handler t.value.writer (some r) ∈ as
  held : ∀ i r, (w.phase i).held = some r → .handler i (some r) ∈ as
  replayed : ∀ j i sc b ct, w.phase j = .answered (.replayed i sc b ct) →
    ∃ r, .handler i (some r) ∈ as ∧
      .replayed i sc b ct = duplicateAnswer (some ⟨i, completed decode r⟩)
  ran : ∀ i result, .handler i result ∈ as → (w.phase i).ran = true
  once : ∀ i x y, .handler i x ∈ as → .handler i y ∈ as → x = y

section Kept

variable {as : List Act} {w w' : World} {a : Act} {i : RequestId} {ph : Phase}

theorem Kept.start : Kept decode [] {} where
  slot k t h := by cases h
  held i r h := by cases h
  replayed j i sc b ct h := by cases h
  ran i result h := by cases h
  once i x y h := by cases h

theorem Kept.later_slot (h : Kept decode as w) (a : Act) : ∀ k t, w.redis.slot k = some t →
    t.value.value = processingSentinel ∨
      ∃ r, t.value.value = completed decode r ∧ .handler t.value.writer (some r) ∈ as ++ [a] := by
  intro k t ht
  rcases h.slot k t ht with hp | ⟨r, hv, hm⟩
  · exact .inl hp
  · exact .inr ⟨r, hv, List.mem_append_left _ hm⟩

/-- One request goes to another phase, and the store may have changed. -/
theorem Kept.goto (h : Kept decode as w) (hphase : w'.phase = w.phase)
    (hslot : ∀ k t, w'.redis.slot k = some t → t.value.value = processingSentinel ∨
      ∃ r, t.value.value = completed decode r ∧ .handler t.value.writer (some r) ∈ as ++ [a])
    (hheld : ∀ r, ph.held = some r → .handler i (some r) ∈ as ++ [a])
    (hreplayed : ∀ j sc b ct, ph = .answered (.replayed j sc b ct) →
      ∃ r, .handler j (some r) ∈ as ∧
        .replayed j sc b ct = duplicateAnswer (some ⟨j, completed decode r⟩))
    (hran : (w.phase i).ran = true → ph.ran = true)
    (hact : ∀ j result, a = .handler j result → j = i ∧ (w.phase i).ran = false ∧ ph.ran = true) :
    Kept decode (as ++ [a]) (w'.goto i ph) := by
  have hfresh : ∀ j result, a = .handler j result → ∀ x, .handler j x ∉ as := by
    intro j result ha x hx
    obtain ⟨rfl, hnot, -⟩ := hact j result ha
    rw [h.ran j x hx] at hnot
    cases hnot
  constructor
  case slot => exact hslot
  case held =>
    intro j r hj
    rcases goto_phase w' i ph j with ⟨rfl, he⟩ | ⟨_, he⟩
    · exact hheld r (by rwa [he] at hj)
    · rw [he, hphase] at hj
      exact List.mem_append_left _ (h.held j r hj)
  case replayed =>
    intro j j' sc b ct hj
    suffices hr : ∃ r, .handler j' (some r) ∈ as ∧
        .replayed j' sc b ct = duplicateAnswer (some ⟨j', completed decode r⟩) by
      obtain ⟨r, hm, heq⟩ := hr
      exact ⟨r, List.mem_append_left _ hm, heq⟩
    rcases goto_phase w' i ph j with ⟨rfl, he⟩ | ⟨_, he⟩
    · exact hreplayed j' sc b ct (he.symm.trans hj)
    · rw [he, hphase] at hj
      exact h.replayed j j' sc b ct hj
  case ran =>
    intro j result hm
    rcases goto_phase w' i ph j with ⟨rfl, he⟩ | ⟨hne, he⟩
    · rw [he]
      rcases mem_snoc hm with hm | heq
      · exact hran (h.ran j result hm)
      · exact (hact j result heq.symm).2.2
    · rw [he, hphase]
      rcases mem_snoc hm with hm | heq
      · exact h.ran j result hm
      · exact absurd (hact j result heq.symm).1 hne
  case once =>
    intro j x y hx hy
    rcases mem_snoc hx with hx | hx
    · rcases mem_snoc hy with hy | hy
      · exact h.once j x y hx hy
      · exact absurd hx (hfresh j y hy.symm x)
    · rcases mem_snoc hy with hy | hy
      · exact absurd hy (hfresh j x hx.symm y)
      · rw [← hx] at hy
        cases hy
        rfl

/-- The same for a step other than a handler's that answers nothing from the store. -/
theorem Kept.move (h : Kept decode as w) (hphase : w'.phase = w.phase)
    (hslot : ∀ k t, w'.redis.slot k = some t → t.value.value = processingSentinel ∨
      ∃ r, t.value.value = completed decode r ∧ .handler t.value.writer (some r) ∈ as ++ [a])
    (hheld : ∀ r, ph.held = some r → (w.phase i).held = some r)
    (hreplayed : ∀ j sc b ct, ph ≠ .answered (.replayed j sc b ct))
    (hran : (w.phase i).ran = true → ph.ran = true)
    (hact : ∀ j result, a ≠ .handler j result) : Kept decode (as ++ [a]) (w'.goto i ph) := by
  refine h.goto hphase hslot ?_ ?_ hran ?_
  · intro r hr
    exact List.mem_append_left _ (h.held i r (hheld r hr))
  · intro j sc b ct he
    exact absurd he (hreplayed j sc b ct)
  · intro j result ha
    exact absurd ha (hact j result)

/-- The same for a request that has no response yet and gets none. -/
theorem Kept.proceed (h : Kept decode as w) (hphase : w'.phase = w.phase)
    (hslot : ∀ k t, w'.redis.slot k = some t → t.value.value = processingSentinel ∨
      ∃ r, t.value.value = completed decode r ∧ .handler t.value.writer (some r) ∈ as ++ [a])
    (hnot : (w.phase i).ran = false) (hheld : ph.held = none)
    (hreplayed : ∀ j sc b ct, ph ≠ .answered (.replayed j sc b ct))
    (hact : ∀ j result, a ≠ .handler j result) : Kept decode (as ++ [a]) (w'.goto i ph) := by
  refine h.move hphase hslot ?_ hreplayed ?_ hact
  · intro r hr
    rw [hheld] at hr
    cases hr
  · intro hran
    rw [hnot] at hran
    cases hran

theorem finalAnswer_held (r : Option Response) : (Phase.answered (finalAnswer r)).held = r := by
  cases r <;> rfl

theorem afterHandler_held (c : Config) (deadline : Nat) (result : Option Response) :
    (afterHandler c deadline result).held = result := by
  cases result with
  | none => rfl
  | some r => simp only [afterHandler]; split <;> rfl

theorem afterHandler_ran (c : Config) (deadline : Nat) (result : Option Response) :
    (afterHandler c deadline result).ran = true := by
  cases result with
  | none => rfl
  | some r => simp only [afterHandler]; split <;> rfl

/-- No answer from the store is a response of one's own. -/
theorem duplicateAnswer_held (d : Option Document) :
    (Phase.answered (duplicateAnswer d)).held = none := by
  cases d with
  | none => rfl
  | some d =>
    simp only [duplicateAnswer]
    split
    · split
      · split <;> rfl
      · rfl
    · rfl

/-- A handler's result reaches the phase after it. -/
theorem Kept.handled {result : Option Response} (h : Kept decode as w)
    (hnot : (w.phase i).ran = false) (hheld : ph.held = result) (hran : ph.ran = true)
    (hreplayed : ∀ j sc b ct, ph ≠ .answered (.replayed j sc b ct)) :
    Kept decode (as ++ [.handler i result]) (w.goto i ph) := by
  refine h.goto rfl (h.later_slot _) ?_ ?_ (fun _ => hran) ?_
  · intro r hr
    rw [hheld] at hr
    rw [hr]
    exact List.mem_append_right _ (List.mem_singleton_self _)
  · intro j sc b ct he
    exact absurd he (hreplayed j sc b ct)
  · intro j x ha
    cases ha
    exact ⟨rfl, hnot, hran⟩

/-- A duplicate is answered from a document that is there. -/
theorem Kept.answer {d : Document} (h : Kept decode as w) {k : String} {t : Timed Document}
    (ht : w.redis.slot k = some t) (hd : t.value = d) {j : RequestId} {sc b ct : Json}
    (he : duplicateAnswer (some d) = .replayed j sc b ct) : ∃ r, .handler j (some r) ∈ as ∧
      .replayed j sc b ct = duplicateAnswer (some ⟨j, completed decode r⟩) := by
  obtain ⟨writer, value⟩ := d
  obtain ⟨_, hdoc, rfl⟩ := duplicateAnswer_replayed he
  cases hdoc
  rcases h.slot k t ht with hp | ⟨r, hv, hm⟩
  · rw [hd] at hp
    rw [show value = processingSentinel from hp] at he
    simp [duplicateAnswer, processingSentinel, getD] at he
  · rw [hd] at hv hm
    rw [show value = completed decode r from hv] at he
    exact ⟨r, hm, he.symm⟩

theorem Kept.write (h : Kept decode as w) {k : String} {value : Json} {now ttl : Nat}
    (hv : value = processingSentinel ∨
      ∃ r, value = completed decode r ∧ .handler i (some r) ∈ as) :
    ∀ k' t, (w.redis.set now k ⟨i, value⟩ ttl).slot k' = some t →
      t.value.value = processingSentinel ∨
        ∃ r, t.value.value = completed decode r ∧ .handler t.value.writer (some r) ∈ as ++ [a] := by
  intro k' t ht
  by_cases hk : k' = k
  · subst hk
    rw [Expiring.set_slot_self] at ht
    cases ht
    rcases hv with hp | ⟨r, hr, hm⟩
    · exact .inl hp
    · exact .inr ⟨r, hr, List.mem_append_left _ hm⟩
  · rw [Expiring.set_slot_of_ne hk] at ht
    exact h.later_slot a k' t ht

theorem Kept.delete (h : Kept decode as w) {k : String} :
    ∀ k' t, (w.redis.del k).slot k' = some t → t.value.value = processingSentinel ∨
        ∃ r, t.value.value = completed decode r ∧ .handler t.value.writer (some r) ∈ as ++ [a] := by
  intro k' t ht
  by_cases hk : k' = k
  · subst hk
    rw [Expiring.del_slot_self] at ht
    cases ht
  · rw [Expiring.del_slot_of_ne hk] at ht
    exact h.later_slot a k' t ht

theorem Kept.step (h : Kept decode as w) (hs : Idempotency.step c decode requests w a = some w') :
    Kept decode (as ++ [a]) w' := by
  cases step_cases hs with
  | tick dt =>
    refine ⟨h.later_slot _, fun i r hr => List.mem_append_left _ (h.held i r hr), ?_, ?_, ?_⟩
    · intro j i sc b ct hj
      obtain ⟨r, hm, heq⟩ := h.replayed j i sc b ct hj
      exact ⟨r, List.mem_append_left _ hm, heq⟩
    · intro i result hm
      exact h.ran i result ((mem_snoc hm).resolve_right (by simp))
    · intro i x y hx hy
      exact h.once i x y ((mem_snoc hx).resolve_right (by simp))
        ((mem_snoc hy).resolve_right (by simp))
  | dispatch hph =>
    refine h.proceed rfl (h.later_slot _) (by rw [hph]; rfl) (by split <;> rfl) ?_
      (fun _ _ => by simp)
    intro j sc b ct he; split at he <;> cases he
  | taken hph _ =>
    refine h.proceed rfl (h.later_slot _) (by rw [hph]; rfl) (by split <;> rfl) ?_
      (fun _ _ => by simp)
    intro j sc b ct he; split at he <;> cases he
  | claim hph _ =>
    refine h.proceed (by split <;> rfl) ?_ (by rw [hph]; rfl) (by split <;> rfl) ?_
      (fun _ _ => by simp)
    · split
      · exact h.write (.inl rfl)
      · exact h.later_slot _
    · intro j sc b ct he; split at he <;> cases he
  | get hph =>
    refine h.goto rfl (h.later_slot _) ?_ ?_ (fun _ => rfl) (fun _ _ ha => by cases ha)
    · intro r hr
      split at hr
      · rw [duplicateAnswer_held] at hr; cases hr
      · cases hr
    · intro j sc b ct he
      simp only [Phase.answered.injEq] at he
      split at he
      · obtain ⟨doc, hdoc, -⟩ := duplicateAnswer_replayed he
        rw [hdoc] at he
        obtain ⟨t, ht, hd⟩ := Option.map_eq_some_iff.1 hdoc
        exact h.answer (Expiring.get_eq_some.1 ht).1 hd he
      · cases he
  | @handler i result deadline hph =>
    refine h.handled (by rw [hph]; rfl) (afterHandler_held c deadline result)
      (afterHandler_ran c deadline result) ?_
    intro j sc b ct he
    cases result with
    | none => cases he
    | some r => simp only [afterHandler] at he; split at he <;> cases he
  | @unguarded i result hph =>
    refine h.handled (by rw [hph]; rfl) (finalAnswer_held result) rfl ?_
    intro j sc b ct he
    exact finalAnswer_fresh (Phase.answered.inj he)
  | @store i reply deadline r hph =>
    have hheld : (w.phase i).held = some r := by rw [hph]; rfl
    refine h.move (by split <;> rfl) ?_ ?_ ?_ ?_ (fun _ _ => by simp)
    · split
      · exact h.write (.inr ⟨r, rfl, h.held i r hheld⟩)
      · exact h.later_slot _
    · intro r' hr; rw [hheld]; split at hr <;> exact hr
    · intro j sc b ct he; split at he <;> cases he
    · intro _; split <;> rfl
  | @release i reply deadline r hph =>
    have hheld : (w.phase i).held = r := by rw [hph]; rfl
    refine h.move (by split <;> rfl) ?_ ?_ ?_ (fun _ => rfl) (fun _ _ => by simp)
    · split
      · exact h.delete
      · exact h.later_slot _
    · intro r' hr; rw [hheld]; rwa [finalAnswer_held] at hr
    · intro j sc b ct he; exact finalAnswer_fresh (Phase.answered.inj he)
  | cancel =>
    refine h.move rfl (h.later_slot _) (fun _ hr => by cases hr) (fun _ _ _ _ he => by cases he)
      (fun _ => rfl) (fun _ _ => by simp)

end Kept

/-! ## The law -/

/-- In every run in which the handler of `i` returned `r`, a request answered from the record of `i`
receives what `r` is, and so did the caller of `i` if it was answered. -/
def Faithful (R : ResponseClass) (c : Config) (r : Response) : Prop :=
  ∀ (requests : RequestId → Request) (as : List Act) (w : World) (i j : RequestId) (sc b ct : Json),
    Run (step c decodeReplace requests) (fun _ _ => True) {} as w → .handler i (some r) ∈ as →
    w.phase j = .answered (.replayed i sc b ct) →
    received R (.replayed i sc b ct) = received R (.response r) ∧
      ∀ r', w.phase i = .answered (.response r') → r' = r

theorem faithful_of_valid {R : ResponseClass} {c : Config} {r : Response} (h : ValidUtf8 r.body) :
    Faithful R c r := by
  intro requests as w i j sc b ct hrun hr hphase
  have hk : Kept decodeReplace as w :=
    Run.along (I := Kept decodeReplace) (fun _ _ _ _ _ hi _ hs => hi.step hs) hrun Kept.start
  refine ⟨?_, ?_⟩
  · obtain ⟨r', hr', heq⟩ := hk.replayed j i sc b ct hphase
    obtain rfl : r = r' := Option.some.inj (hk.once i _ _ hr hr')
    rw [heq, received_replayed, (encodeUtf8_decodeReplace_iff r.body).mpr h, received]
  · intro r' hr'
    have hheld : .handler i (some r') ∈ as := hk.held i r' (by rw [hr']; rfl)
    exact Option.some.inj (hk.once i _ _ hheld hr)

/-- Twice the same request, with the handler's answer to the first stored. -/
theorem valid_of_faithful {R : ResponseClass} {c : Config} {r : Response}
    (hc : cacheable c r = true) (h : Faithful R c r) : ValidUtf8 r.body := by
  obtain ⟨w, hrun, hphase⟩ := @replay_of_cacheKey c (fun _ => demoRequest "t" "k") decodeReplace 0 1 r
    (by decide) hc (by decide) (by decide) rfl
  have hmem : .handler 0 (some r) ∈ replaySchedule r 0 1 := by simp [replaySchedule]
  have heq := (h _ _ w 0 1 _ _ _ hrun hmem hphase).1
  simp only [received, R.render_utf8, Option.some.injEq, Received.mk.injEq, true_and] at heq
  exact (encodeUtf8_decodeReplace_iff r.body).mp heq

/-- For every response that is stored as completed, whatever its status, content type and body: every
duplicate that is answered from the record receives the status, content type and body the first
caller received, in every run and however requests interleave, exactly when the body is valid
UTF-8. -/
theorem replay_faithful_iff (R : ResponseClass) (c : Config) (r : Response)
    (hc : cacheable c r = true) : Faithful R c r ↔ ValidUtf8 r.body :=
  ⟨valid_of_faithful hc, faithful_of_valid⟩

/-- A response class that sends the media type as it is. -/
def plainResponse : ResponseClass := ⟨encodeUtf8, id, fun _ => rfl⟩

theorem text_body_replayed :
    cacheable demoService { statusCode := 201, body := encodeUtf8 "[\"né\", 1]" } = true ∧
      Faithful plainResponse demoService { statusCode := 201, body := encodeUtf8 "[\"né\", 1]" } :=
  ⟨by decide +kernel, (replay_faithful_iff plainResponse demoService _ (by decide +kernel)).mpr
    (validUtf8_iff.mpr ⟨_, rfl⟩)⟩

/-- The first two bytes of a JPEG image. -/
def imageAnswer : Response :=
  { statusCode := 200, body := [0xFF, 0xD8], contentType := "image/jpeg" }

theorem binary_body_changed : ¬ ∀ (R : ResponseClass) (c : Config) (r : Response),
    cacheable c r = true → Faithful R c r := by
  intro h
  have hc : cacheable demoService imageAnswer = true := by decide
  have hvalid : ValidUtf8 imageAnswer.body := valid_of_faithful hc (h plainResponse demoService _ hc)
  have hne : encodeUtf8 (decodeReplace imageAnswer.body) ≠ imageAnswer.body := by decide
  exact hne ((encodeUtf8_decodeReplace_iff _).mpr hvalid)

end Idempotency
end Middleware
end TrShared
