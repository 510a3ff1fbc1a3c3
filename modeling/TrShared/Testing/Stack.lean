import TrShared.Python.Decimal
import TrShared.Python.Regex
import TrShared.Python.Replace

/-!
# TrShared.Testing.Stack

What `tr_shared.testing.stack` gives a test worker of its own: three database indexes of the Redis
server and a database name.

The index is three times the worker's number modulo 60, and the name keeps six characters of the
worker's id, `gw` and four digits.

* `databaseIndex_redisTriple`: the indexes of the worker `gw<n>`.
* `runDatabase_eq_iff`: two workers have one name exactly when their numbers start with the same four
  digits.
-/

namespace TrShared
namespace Testing

open Python Python.Regex

def underscore : CodePoint := codePoint '_'

/-- `str.lower` of a character, for a pattern that tells no letters beyond ASCII apart: two of them have
an ASCII letter in their lower case. -/
def lowerChar (c : CodePoint) : Text :=
  if 65 ≤ c.val ∧ c.val ≤ 90 then [c + 32]
  else if c = 0x212A then [codePoint 'k']
  else if c = 0x130 then [codePoint 'i', 0x307]
  else [c]

/-- `[a-z0-9_]`. -/
def isIdentifierChar (c : CodePoint) : Bool :=
  decide ((97 ≤ c.val ∧ c.val ≤ 122) ∨ (48 ≤ c.val ∧ c.val ≤ 57) ∨ c = underscore)

/-- `s.strip(c)`. -/
def stripChar (c : CodePoint) (s : Text) : Text :=
  ((s.dropWhile (fun a => decide (a = c))).reverse.dropWhile (fun a => decide (a = c))).reverse

/-- `_sanitize`. -/
def sanitize (value : Text) : Text :=
  stripChar underscore (sub (plus (fun c => !isIdentifierChar c)) [underscore] (value.flatMap lowerChar))

/-- What the names are made of; `key` is the start of a digest of the service's migrations. -/
structure TestingConfig where
  service : Text
  key : Text

def pgIdentifierMax : Nat := 63

/-- `_names`: the container, the template and the database of the run. -/
def names (config : TestingConfig) (runId workerId : Text) : Text × Text × Text :=
  let service := (sanitize config.service).take 16
  let key := config.key.take 10
  let template := service ++ text "_tmpl_" ++ key
  let runDb := service ++ text "_" ++ key ++ text "_" ++ (sanitize runId).take 10 ++ text "_" ++
    (sanitize workerId).take 6
  let runDb := if pgIdentifierMax < runDb.length then runDb.take pgIdentifierMax else runDb
  (text "tr-test-pg-" ++ key, template, runDb)

/-- `_redis_index`; `none` when `int` refuses the digits. -/
def redisIndex (workerId : Text) : Option Nat :=
  let digits := sub [.one (fun c => !isDecimal c)] [] workerId
  let slot := if digits = [] then some 0 else int digits
  slot.map (fun slot => slot * 3 % 60)

/-- `$`. -/
def atEnd (_ : Option CodePoint) (s : Text) : Bool := decide (s = [] ∨ s = [10])

/-- `/\d+/?$`. -/
def databaseRe : Pattern CodePoint :=
  .one (fun c => decide (c = slash)) ::
    (plus isDecimal ++ [.maybe (fun c => decide (c = slash)), .assert atEnd])

/-- `redis_triple`: the URLs of the cache, the broker and the results. -/
def redisTriple (baseUrl workerId : Text) : Option (List Text) :=
  let server := sub databaseRe [] (baseUrl.reverse.dropWhile (fun c => decide (c = slash))).reverse
  (redisIndex workerId).map (fun index =>
    [index, index + 1, index + 2].map (fun i => server ++ text "/" ++ str i))

/-- The database that a Redis URL names, what stands after its last slash. -/
def databaseIndex (url : Text) : Text := afterLast slash url

/-- `gw<n>`. -/
def gw (n : Nat) : Text := text "gw" ++ str n

/-- Both workers get their databases, and share none. -/
def Isolated (config : TestingConfig) (runId baseUrl worker worker' : Text) : Prop :=
  (∃ urls urls', redisTriple baseUrl worker = some urls ∧ redisTriple baseUrl worker' = some urls' ∧
    ∀ u ∈ urls, ∀ u' ∈ urls', databaseIndex u ≠ databaseIndex u') ∧
  (names config runId worker).2.2 ≠ (names config runId worker').2.2

example : redisTriple (text "redis://h/7") (gw 3) =
    some [text "redis://h/9", text "redis://h/10", text "redis://h/11"] := by decide +kernel

example : (names ⟨text "TR-CRM core", text "0123456789ab"⟩ (text "run") (gw 3)).2.2 =
    text "tr_crm_core_0123456789_run_gw3" := by decide +kernel

section Sanitize

theorem flatMap_lowerChar {s : Text} (h : ∀ c ∈ s, lowerChar c = [c]) : s.flatMap lowerChar = s := by
  induction s with
  | nil => rfl
  | cons c s ih =>
    obtain ⟨hc, hs⟩ := List.forall_mem_cons.mp h
    rw [List.flatMap_cons, hc, ih hs, List.singleton_append]

theorem dropWhile_of_notMem {c : CodePoint} {s : Text} (h : c ∉ s) :
    s.dropWhile (fun a => decide (a = c)) = s := by
  cases s with
  | nil => rfl
  | cons a s =>
    refine List.dropWhile_cons_of_neg ?_
    intro ha
    exact h (by simp [of_decide_eq_true ha])

theorem stripChar_of_notMem {c : CodePoint} {s : Text} (h : c ∉ s) : stripChar c s = s := by
  rw [stripChar, dropWhile_of_notMem h, dropWhile_of_notMem (by simpa using h), List.reverse_reverse]

/-- What `_sanitize` leaves alone. -/
theorem sanitize_of_identifier {s : Text}
    (h : ∀ c ∈ s, lowerChar c = [c] ∧ isIdentifierChar c = true ∧ c ≠ underscore) : sanitize s = s := by
  have hplain : ∀ c ∈ s, (!isIdentifierChar c) = false := by
    intro c hc
    rw [(h c hc).2.1]
    rfl
  rw [sanitize, flatMap_lowerChar (fun c hc => (h c hc).1), plus, sub_eq_self hplain]
  exact stripChar_of_notMem (fun hmem => (h _ hmem).2.2 rfl)

theorem digit_identifier : ∀ d < 10, lowerChar (digit d) = [digit d] ∧
    isIdentifierChar (digit d) = true ∧ digit d ≠ underscore ∧ digit d ≠ slash := by decide

theorem sanitize_gw (n : Nat) : sanitize (gw n) = gw n := by
  refine sanitize_of_identifier ?_
  intro c hc
  rcases List.mem_append.mp hc with hc | hc
  · rw [show text "gw" = [codePoint 'g', codePoint 'w'] by rfl, List.mem_pair] at hc
    rcases hc with rfl | rfl
    · decide
    · decide
  · obtain ⟨d, hd, rfl⟩ := digit_of_mem_str hc
    obtain ⟨hlower, hchar, hne, -⟩ := digit_identifier d hd
    exact ⟨hlower, hchar, hne⟩

end Sanitize

section Names

/-- The parts of the database's name fit: it is never cut. -/
theorem runDatabase_eq (config : TestingConfig) (runId workerId : Text) :
    (names config runId workerId).2.2 =
      (sanitize config.service).take 16 ++ text "_" ++ config.key.take 10 ++ text "_" ++
        (sanitize runId).take 10 ++ text "_" ++ (sanitize workerId).take 6 := by
  have hone : (text "_").length = 1 := by decide
  have hlength : ¬ pgIdentifierMax < ((sanitize config.service).take 16 ++ text "_" ++ config.key.take 10 ++
      text "_" ++ (sanitize runId).take 10 ++ text "_" ++ (sanitize workerId).take 6).length := by
    simp only [List.length_append, List.length_take, pgIdentifierMax, hone]
    omega
  simp only [names, if_neg hlength]

theorem take_gw (n : Nat) : (gw n).take 6 = text "gw" ++ (str n).take 4 := by
  rw [gw, List.take_append]
  rfl

theorem runDatabase_eq_iff (config : TestingConfig) (runId : Text) (i j : Nat) :
    (names config runId (gw i)).2.2 = (names config runId (gw j)).2.2 ↔
      (str i).take 4 = (str j).take 4 := by
  rw [runDatabase_eq, runDatabase_eq, sanitize_gw, sanitize_gw, take_gw, take_gw,
    List.append_cancel_left_eq, List.append_cancel_left_eq]

end Names

section Redis

theorem sub_nonDigits_str (n : Nat) : sub [.one (fun c => !isDecimal c)] [] (gw n) = str n := by
  have hplain : ∀ c ∈ str n, (!isDecimal c) = false := by
    intro c hc
    obtain ⟨d, hd, rfl⟩ := digit_of_mem_str hc
    rw [(digit_spec d hd).1]
    rfl
  have hdelete : ∀ c s, isDecimal c = false →
      sub [.one (fun c => !isDecimal c)] [] (c :: s) = sub [.one (fun c => !isDecimal c)] [] s := by
    intro c s hc
    rw [@sub_matched _ _ _ _ (c :: s) ([[c]], s) (by rw [matchAt_one_cons, hc]; rfl)]
    rfl
  rw [gw, show text "gw" = [codePoint 'g', codePoint 'w'] by rfl, List.cons_append,
    hdelete _ _ (by decide), List.cons_append, hdelete _ _ (by decide), List.nil_append,
    sub_eq_self hplain]

theorem redisIndex_gw (n : Nat) :
    redisIndex (gw n) = if (str n).length ≤ maxStrDigits then some (n * 3 % 60) else none := by
  rw [redisIndex, sub_nonDigits_str, if_neg (str_ne_nil n), int]
  split
  · rw [toNat_str]
    rfl
  · rfl

theorem databaseIndex_str (server : Text) (i : Nat) :
    databaseIndex (server ++ text "/" ++ str i) = str i := by
  have hslash : slash ∉ str i := by
    intro hmem
    obtain ⟨d, hd, he⟩ := digit_of_mem_str hmem
    exact (digit_identifier d hd).2.2.2 he.symm
  rw [databaseIndex, List.append_assoc]
  exact afterLast_append hslash

/-- The indexes of a worker: three from three times its number, modulo 60. -/
theorem databaseIndex_redisTriple (baseUrl : Text) (n : Nat) :
    (redisTriple baseUrl (gw n)).map (·.map databaseIndex) =
      if (str n).length ≤ maxStrDigits
      then some [str (n * 3 % 60), str (n * 3 % 60 + 1), str (n * 3 % 60 + 2)] else none := by
  rw [redisTriple, redisIndex_gw]
  split
  · simp only [Option.map_some, List.map_cons, List.map_nil, databaseIndex_str]
  · rfl

/-- Whether the indexes of two workers meet. -/
theorem indexes_disjoint_iff (i j : Nat) :
    (∀ a ∈ [str (i * 3 % 60), str (i * 3 % 60 + 1), str (i * 3 % 60 + 2)],
      ∀ b ∈ [str (j * 3 % 60), str (j * 3 % 60 + 1), str (j * 3 % 60 + 2)], a ≠ b) ↔ i % 20 ≠ j % 20 := by
  simp only [List.mem_cons, List.not_mem_nil, or_false, forall_eq_or_imp, forall_eq, ne_eq,
    str_injective.eq_iff]
  omega

end Redis

section Isolation

/-- The indexes wrap around after twenty workers, and the names keep four digits of the number. -/
theorem isolated_gw_iff (config : TestingConfig) (runId baseUrl : Text) (i j : Nat) :
    Isolated config runId baseUrl (gw i) (gw j) ↔
      ((str i).length ≤ maxStrDigits ∧ (str j).length ≤ maxStrDigits) ∧ i % 20 ≠ j % 20 ∧
        (str i).take 4 ≠ (str j).take 4 := by
  have hi := databaseIndex_redisTriple baseUrl i
  have hj := databaseIndex_redisTriple baseUrl j
  rw [Isolated, Ne, runDatabase_eq_iff, ← and_assoc]
  refine and_congr_left' ?_
  constructor
  · rintro ⟨urls, urls', hurls, hurls', hdisjoint⟩
    rw [hurls, Option.map_some] at hi
    rw [hurls', Option.map_some] at hj
    split at hi
    · rename_i hleni
      split at hj
      · rename_i hlenj
        simp only [Option.some.injEq] at hi hj
        refine ⟨⟨hleni, hlenj⟩, (indexes_disjoint_iff i j).mp ?_⟩
        rw [← hi, ← hj]
        intro a ha b hb
        obtain ⟨u, hu, rfl⟩ := List.mem_map.mp ha
        obtain ⟨u', hu', rfl⟩ := List.mem_map.mp hb
        exact hdisjoint u hu u' hu'
      · cases hj
    · cases hi
  · rintro ⟨⟨hleni, hlenj⟩, hmod⟩
    rw [if_pos hleni, Option.map_eq_some_iff] at hi
    rw [if_pos hlenj, Option.map_eq_some_iff] at hj
    obtain ⟨urls, hurls, hi⟩ := hi
    obtain ⟨urls', hurls', hj⟩ := hj
    refine ⟨urls, urls', hurls, hurls', ?_⟩
    intro u hu u' hu'
    refine (indexes_disjoint_iff i j).mpr hmod _ ?_ _ ?_
    · rw [← hi]
      exact List.mem_map_of_mem hu
    · rw [← hj]
      exact List.mem_map_of_mem hu'

/-- `gw0` and `gw20` share their indexes. -/
theorem not_isolated_gw0_gw20 :
    ¬ ∀ (config : TestingConfig) (runId baseUrl : Text) (i j : Nat), i ≠ j →
      Isolated config runId baseUrl (gw i) (gw j) := by
  intro h
  obtain ⟨⟨urls, urls', hurls, hurls', hdisjoint⟩, -⟩ :=
    h ⟨text "tr-crm-core", text "0123456789ab"⟩ (text "run") (text "redis://127.0.0.1:6379") 0 20 (by decide)
  have h0 : redisTriple (text "redis://127.0.0.1:6379") (gw 0) =
      redisTriple (text "redis://127.0.0.1:6379") (gw 20) := by
    decide +kernel
  rw [← h0, hurls] at hurls'
  obtain rfl := Option.some.inj hurls'
  cases urls with
  | nil =>
    revert hurls
    decide +kernel
  | cons u urls => exact hdisjoint u (by simp) u (by simp) rfl

end Isolation

end Testing
end TrShared
