import Mathlib.Data.List.Lex
import Mathlib.Order.Fin.Basic
import TrShared.Machine.Table
import TrShared.Python.OrderedDict
import TrShared.Python.Output
import TrShared.Python.Url

/-!
# TrShared.Db.MergeGate

`assert_migrations_are_merged` of `db/migrations/merge_gate.py`, and `is_local_dsn` of `db/utils.py`.
The two git commands that print something the gate reads are given by what they print; paths are
written as in `Python.Output`.

The gate reads the listing of the integration branch as text. A path there that is not UTF-8 stops it,
and a carriage return in one is read as a line feed.

* `assert_ok_iff`: the gate returns for one of the reasons to let the run pass, or when the listing
  has every revision's path with its blob.
* `merge_gate_iff_kept`: it returns exactly for merged revisions, in every run, if and only if the
  listing leads from every revision's path to the blob at that path (`ListingKept`).
-/

namespace TrShared
namespace Db
namespace MergeGate

open Python

/-! ## The target and the command -/

def loopbackHosts : List Text := ["localhost", "127.0.0.1", "::1"].map text

def localDbHosts : List Text := loopbackHosts ++ ["postgres", "postgres-test", "db"].map text

def localDbHostPrefix : Text := text "tr-test-"

def isLocalDsn (lib : UrlLib) (dsn : Text) : Bool :=
  match urlsplit lib dsn with
  | none => false
  | some r =>
    let host := asciiLower (r.hostname.getD [])
    decide (host ∈ localDbHosts) || localDbHostPrefix.isPrefixOf host

/-- What the gate reads of Alembic's `EnvironmentContext`. `none` is the `AttributeError` or the
`TypeError` of reading it; the inner `none` of `fnName` is a function without a name. -/
structure EnvironmentContext where
  isOfflineMode : Option Bool
  fnName : Option (Option Text)

/-- An `alembic.context` with its `_proxy`, or a context itself. -/
structure AlembicContext where
  proxied : Option EnvironmentContext
  itself : EnvironmentContext

def unwrapAlembicContext (c : AlembicContext) : EnvironmentContext := c.proxied.getD c.itself

def historyWritingAlembicFns : List Text := ["upgrade", "downgrade", "do_stamp"].map text

def isHistoryWrite : Option AlembicContext → Bool
  | none => true
  | some alembicContext =>
    let ctx := unwrapAlembicContext alembicContext
    match ctx.isOfflineMode with
    | none => true
    | some true => false
    | some false =>
      match ctx.fnName with
      | none => true
      | some none => true
      | some (some name) => decide (name ∈ historyWritingAlembicFns)

def skipMergeCheckRequested (environ : Text → Option Text) : Bool :=
  let flag := asciiLower (strip ((environ (text "TR_MIGRATIONS_SKIP_MERGE_CHECK")).getD []))
  if flag ∉ ["1", "true", "yes"].map text then false
  else
    let environment := asciiLower (strip ((environ (text "ENVIRONMENT")).getD []))
    decide (environment ∈ ["development", "test"].map text)

/-! ## Revision files -/

structure DirEntry where
  name : Text
  isFile : Bool

/-- `path.suffix`: from the last dot on, if something stands on both sides of it. -/
def suffix (name : Text) : Text :=
  let last := afterLast (codePoint '.') name
  if codePoint '.' ∈ name ∧ last ≠ [] ∧ last.length + 1 < name.length then codePoint '.' :: last
  else []

def revisionFiles (versionsDir : List DirEntry) : List Text :=
  ((versionsDir.filter (fun path => path.isFile && decide (suffix path.name = text ".py") &&
    decide (path.name ≠ text "__init__.py"))).map DirEntry.name).mergeSort (fun a b => decide (a ≤ b))

/-! ## What git prints -/

/-- A mode or an object name: printable ASCII, not empty and without a space. -/
@[ext] structure GitField where
  val : Text
  ne_nil : val ≠ []
  printable : ∀ c ∈ val, 33 ≤ c.val ∧ c.val ≤ 126
  deriving DecidableEq

def nul : CodePoint := 0

def tab : CodePoint := 9

structure Blob where
  mode : GitField
  sha : GitField
  path : Text
  path_ok : nul ∉ path

/-- The blobs of a tree, by their paths. -/
abbrev Tree := Machine.Table Blob.path

/-- The blobs that `ls-tree -r … -- <rel_dir>` lists. -/
def listed (tree : Tree) (relDir : Text) : List Blob :=
  tree.rows.filter (fun b => decide (relDir = text ".") || decide (b.path = relDir) ||
    (relDir ++ text "/").isPrefixOf b.path)

/-- A record of `ls-tree -z`, without the NUL that ends it. -/
def Blob.record (b : Blob) (path : Text) : Text :=
  b.mode.val ++ text " blob " ++ b.sha.val ++ tab :: path

def lsTree (tree : Tree) (relDir : Text) : Text :=
  (listed tree relDir).flatMap (fun b => b.record b.path ++ [nul])

/-- `hash-object` on files of the versions directory, with the hash of each. -/
def hashObject (hash : Text → GitField) (files : List Text) : Text :=
  (files.map (fun f => (hash f).val)).flatMap (fun line => line ++ text "\n")

/-! ## The gate -/

/-- Why the gate raises; `misaligned` is the `ValueError` of `zip(strict=True)`. -/
inductive Refusal where
  | missingRef
  | undecodable
  | misaligned
  | unmerged (absent modified : List Text)

/-- One round of the loop over the records. -/
def readRecord (blobs : OrderedDict Text Text) (record : Text) : OrderedDict Text Text :=
  if record = [] then blobs
  else
    let (info, path) := partition tab record
    match words info with
    | _ :: _ :: sha :: _ => blobs.set path sha
    | _ => blobs

def mergedBlobs (tree : Tree) (relDir : Text) : Except Refusal (OrderedDict Text Text) :=
  match decodeOutput (lsTree tree relDir) with
  | none => .error .undecodable
  | some stdout => .ok ((stdout.splitOn nul).foldl readRecord {})

def localBlobs (hash : Text → GitField) (files : List Text) : Except Refusal (List Text) :=
  match decodeOutput (hashObject hash files) with
  | none => .error .undecodable
  | some stdout => .ok (words stdout)

/-- `zip(xs, ys, strict=True)`. -/
def zipStrict (xs ys : List Text) : Except Refusal (List (Text × Text)) :=
  if xs.length = ys.length then .ok (xs.zip ys) else .error .misaligned

/-- `path.relative_to(repo).as_posix()` of a file of the versions directory. -/
def relPath (relDir name : Text) : Text :=
  if relDir = text "." then name else relDir ++ codePoint '/' :: name

/-- One round of the loop over the files: the names so far that are absent and modified. -/
def compareBlob (merged : OrderedDict Text Text) (relDir : Text) (found : List Text × List Text)
    (file : Text × Text) : List Text × List Text :=
  match merged.get (relPath relDir file.1) with
  | none => (found.1 ++ [file.1], found.2)
  | some sha => if sha ≠ file.2 then (found.1, found.2 ++ [file.1]) else found

/-- The names on both sides: the versions directory, by its path from the top of the checkout, and the
tree at the integration ref, if that exists. -/
structure Repo where
  relDir : Text
  versionsDir : List DirEntry
  tree : Option Tree

/-- All the rest that a run finds. -/
structure Invocation where
  dsn : Text
  alembicContext : Option AlembicContext
  environ : Text → Option Text
  versionsIsDir : Bool
  hasCheckout : Bool
  hash : Text → GitField

/-- What `assert_migrations_are_merged` does with the revision files. -/
def compareFiles (repo : Repo) (tree : Tree) (run : Invocation) (files : List Text) :
    Except Refusal Unit := do
  let merged ← mergedBlobs tree repo.relDir
  let hashes ← localBlobs run.hash files
  let pairs ← zipStrict files hashes
  let (absent, modified) := pairs.foldl (compareBlob merged repo.relDir) ([], [])
  if absent.isEmpty && modified.isEmpty then .ok ()
  else .error (.unmerged absent modified)

def assertMigrationsAreMerged (lib : UrlLib) (repo : Repo) (run : Invocation) : Except Refusal Unit :=
  if isLocalDsn lib run.dsn then .ok ()
  else if !isHistoryWrite run.alembicContext then .ok ()
  else if !run.versionsIsDir then .ok ()
  else if !run.hasCheckout then .ok ()
  else if skipMergeCheckRequested run.environ then .ok ()
  else
    match repo.tree with
    | none => .error .missingRef
    | some tree =>
      let files := revisionFiles repo.versionsDir
      if files.isEmpty then .ok ()
      else compareFiles repo tree run files

/-! ## What the gate is for -/

/-- A reason to let the run pass without looking at a revision. -/
def PassedBy (lib : UrlLib) (run : Invocation) : Prop :=
  isLocalDsn lib run.dsn = true ∨ isHistoryWrite run.alembicContext = false ∨
    run.versionsIsDir = false ∨ run.hasCheckout = false ∨
    skipMergeCheckRequested run.environ = true

/-- A top-level `.py` file other than `__init__.py`. -/
def IsRevision (versionsDir : List DirEntry) (name : Text) : Prop :=
  ⟨name, true⟩ ∈ versionsDir ∧ (∃ stem ≠ [], name = stem ++ text ".py") ∧ name ≠ text "__init__.py"

/-- The integration ref exists and has every revision at its path, with the same blob. -/
def Merged (repo : Repo) (run : Invocation) : Prop :=
  ∃ tree, repo.tree = some tree ∧ ∀ name, IsRevision repo.versionsDir name →
    ∃ blob, tree.find (relPath repo.relDir name) = some blob ∧ blob.sha = run.hash name

/-- The blob that the listing leads to from a path: none where a listed path is not UTF-8, else the
last one whose path becomes this one when line ends are translated. -/
def listedBlob (tree : Tree) (relDir path : Text) : Option Blob :=
  if (listed tree relDir).any (fun b => b.path.any isEscaped) then none
  else (listed tree relDir).reverse.find? (fun b => decide (translateNewlines b.path = path))

/-- The listing leads from every revision's path to the hash at that path, or one revision's path leads
nowhere and one is not at the ref. -/
def ListingKept (repo : Repo) : Prop :=
  ∀ tree, repo.tree = some tree →
    (∀ name ∈ revisionFiles repo.versionsDir,
      (listedBlob tree repo.relDir (relPath repo.relDir name)).map Blob.sha =
        (tree.find (relPath repo.relDir name)).map Blob.sha) ∨
    ((∃ name ∈ revisionFiles repo.versionsDir,
      listedBlob tree repo.relDir (relPath repo.relDir name) = none) ∧
      ∃ name ∈ revisionFiles repo.versionsDir, tree.find (relPath repo.relDir name) = none)

/-! ## Revision files -/

section Revisions

variable {name : Text} {versionsDir : List DirEntry}

theorem suffix_eq_py_iff : suffix name = text ".py" ↔ ∃ stem ≠ [], name = stem ++ text ".py" := by
  have hpy : text ".py" = codePoint '.' :: text "py" := rfl
  constructor
  · intro h
    simp only [suffix] at h
    split at h
    · rename_i hdot
      obtain ⟨hmem, -, hlength⟩ := hdot
      obtain ⟨stem, hstem⟩ := afterLast_of_mem hmem
      refine ⟨stem, ?_, ?_⟩
      · rintro rfl
        have hlen := congrArg List.length hstem
        simp only [List.nil_append, List.length_cons] at hlen
        omega
      · rw [← h]
        exact hstem
    · cases h
  · rintro ⟨stem, hne, rfl⟩
    have hlast : afterLast (codePoint '.') (stem ++ text ".py") = text "py" :=
      afterLast_append (by decide)
    have hpos := List.length_pos_of_ne_nil hne
    have hlen : (text "py").length + 1 < (stem ++ text ".py").length := by
      rw [List.length_append, hpy, List.length_cons]
      omega
    simp only [suffix, hlast]
    rw [if_pos ⟨List.mem_append_right _ (by decide), by decide, hlen⟩]
    rfl

/-- The revisions are the files that the gate compares. -/
theorem mem_revisionFiles : name ∈ revisionFiles versionsDir ↔ IsRevision versionsDir name := by
  simp only [revisionFiles, List.mem_mergeSort, List.mem_map, List.mem_filter, Bool.and_eq_true,
    decide_eq_true_eq, IsRevision, ← suffix_eq_py_iff]
  constructor
  · rintro ⟨⟨n, isFile⟩, ⟨hmem, ⟨hfile, hsuffix⟩, hinit⟩, rfl⟩
    have hfile' : isFile = true := hfile
    subst hfile'
    exact ⟨hmem, hsuffix, hinit⟩
  · rintro ⟨hmem, hsuffix, hinit⟩
    exact ⟨⟨name, true⟩, ⟨hmem, ⟨rfl, hsuffix⟩, hinit⟩, rfl⟩

end Revisions

/-! ## The listing -/

section Listing

variable {tree : Tree} {relDir : Text}

/-- What stands in front of the tab of a record. -/
def Blob.info (b : Blob) : Text := b.mode.val ++ text " blob " ++ b.sha.val

theorem Blob.record_eq (b : Blob) (path : Text) : b.record path = b.info ++ tab :: path := rfl

theorem GitField.isSpace (f : GitField) : ∀ c ∈ f.val, isSpace c = false := by
  intro c hc
  obtain ⟨h33, h126⟩ := f.printable c hc
  simp only [Python.isSpace, decide_eq_false_iff_not]
  omega

theorem Blob.mem_info {b : Blob} {c : CodePoint} (hc : c ∈ b.info) : 32 ≤ c.val ∧ c.val ≤ 126 := by
  have hblob : ∀ c ∈ text " blob ", 32 ≤ c.val ∧ c.val ≤ 126 := by
    have hall : (text " blob ").all (fun c => decide (32 ≤ c.val ∧ c.val ≤ 126)) = true := by decide
    simpa using hall
  simp only [Blob.info, List.mem_append] at hc
  rcases hc with (hc | hc) | hc
  · have := b.mode.printable c hc
    omega
  · exact hblob c hc
  · have := b.sha.printable c hc
    omega

theorem not_mem_info (b : Blob) {c : CodePoint} (hc : c.val < 32) : c ∉ b.info := by
  intro h
  have := (Blob.mem_info h).1
  omega

theorem words_info (b : Blob) : words b.info = [b.mode.val, text "blob", b.sha.val] := by
  have hblob : ∀ c ∈ text "blob", isSpace c = false := by
    have hall : (text "blob").all (fun c => !isSpace c) = true := by decide
    simpa using hall
  have hspace : isSpace (codePoint ' ') = true := by decide
  have hshape : b.info =
      b.mode.val ++ codePoint ' ' :: (text "blob" ++ codePoint ' ' :: b.sha.val) := by
    simp [Blob.info, text]
  rw [hshape, words_append_cons b.mode.isSpace b.mode.ne_nil hspace,
    words_append_cons hblob (by decide) hspace, words_word b.sha.isSpace b.sha.ne_nil]

theorem readRecord_record (blobs : OrderedDict Text Text) (b : Blob) (path : Text) :
    readRecord blobs (b.record path) = blobs.set path b.sha.val := by
  have hne : b.record path ≠ [] := by simp [Blob.record]
  have hpart : partition tab (b.record path) = (b.info, path) :=
    partition_append (not_mem_info b (by decide))
  simp only [readRecord, if_neg hne, hpart, words_info]

/-- Records of paths without a NUL are read one by one. -/
theorem readRecord_records (path : Blob → Text) (bs : List Blob) (h : ∀ b ∈ bs, nul ∉ path b) :
    ((bs.flatMap (fun b => b.record (path b) ++ [nul])).splitOn nul).foldl readRecord {} =
      bs.foldl (fun blobs b => blobs.set (path b) b.sha.val) {} := by
  have hsplit : (bs.flatMap (fun b => b.record (path b) ++ [nul])).splitOn nul =
      bs.map (fun b => b.record (path b)) ++ [[]] := by
    induction bs with
    | nil => rfl
    | cons b bs ih =>
      have hnul : nul ∉ b.record (path b) := by
        rw [Blob.record_eq, List.mem_append, List.mem_cons, not_or, not_or]
        exact ⟨not_mem_info b (by decide), by decide, h b List.mem_cons_self⟩
      rw [List.flatMap_cons, List.append_assoc, List.singleton_append,
        List.splitOn_append_cons_self_of_not_mem hnul, ih (fun b hb => h b (List.mem_cons_of_mem _ hb))]
      rfl
  rw [hsplit, List.foldl_append, List.foldl_map]
  simp only [readRecord_record, List.foldl_cons, List.foldl_nil]
  rfl

/-- The line ends that are translated are those of the paths. -/
theorem translate_lsTree : translateNewlines (lsTree tree relDir) =
    (listed tree relDir).flatMap (fun b => b.record (translateNewlines b.path) ++ [nul]) := by
  rw [lsTree]
  induction listed tree relDir with
  | nil => rfl
  | cons b bs ih =>
    have hinfo := translateNewlines_of_not_mem (not_mem_info b (c := codePoint '\r') (by decide))
    have hrecord : ∀ (path : Text) (rest : Text), b.record path ++ [nul] ++ rest =
        b.info ++ tab :: (path ++ nul :: rest) := by simp [Blob.record_eq]
    rw [List.flatMap_cons, List.flatMap_cons, hrecord, hrecord,
      translateNewlines_append_cons (by decide), hinfo, translateNewlines_append_cons (by decide), ih]

/-- Only a path can have a byte that is not UTF-8. -/
theorem lsTree_escaped : (lsTree tree relDir).any isEscaped =
    (listed tree relDir).any (fun b => b.path.any isEscaped) := by
  have hinfo : ∀ b : Blob, b.info.any isEscaped = false := by
    intro b
    rw [List.any_eq_false]
    intro c hc
    have := (Blob.mem_info hc).2
    simp only [isEscaped, decide_eq_true_eq]
    omega
  have htab : isEscaped tab = false := by decide
  have hnul : isEscaped nul = false := by decide
  rw [lsTree, List.any_flatMap]
  simp [Blob.record_eq, hinfo, htab, hnul]

/-- What `_merged_blobs` makes of the listing. -/
theorem mergedBlobs_spec :
    ((listed tree relDir).any (fun b => b.path.any isEscaped) = true ∧
      mergedBlobs tree relDir = .error .undecodable) ∨
    ((listed tree relDir).any (fun b => b.path.any isEscaped) = false ∧
      ∃ blobs, mergedBlobs tree relDir = .ok blobs ∧
        ∀ path, blobs.get path = (listedBlob tree relDir path).map (fun b => b.sha.val)) := by
  cases hescaped : (listed tree relDir).any (fun b => b.path.any isEscaped) with
  | true =>
    refine .inl ⟨rfl, ?_⟩
    rw [mergedBlobs, decodeOutput, lsTree_escaped, if_pos hescaped]
  | false =>
    have hnul : ∀ b ∈ listed tree relDir, nul ∉ translateNewlines b.path := by
      intro b _ h
      rcases mem_translateNewlines h with h | h
      · exact absurd h (by decide)
      · exact b.path_ok h
    have hread : mergedBlobs tree relDir =
        .ok ((listed tree relDir).foldl (fun blobs b => blobs.set (translateNewlines b.path) b.sha.val)
          {}) := by
      rw [mergedBlobs, decodeOutput, lsTree_escaped, if_neg (by rw [hescaped]; decide)]
      simp only [translate_lsTree, readRecord_records _ _ hnul]
    refine .inr ⟨rfl, _, hread, ?_⟩
    intro path
    rw [OrderedDict.get_foldl_set, listedBlob, if_neg (by rw [hescaped]; decide)]
    simp

end Listing

/-! ## The comparison -/

section Comparison

variable {hash : Text → GitField} {files : List Text} {relDir : Text}

theorem localBlobs_eq : localBlobs hash files = .ok (files.map (fun f => (hash f).val)) := by
  have hlines : ∀ w ∈ files.map (fun f => (hash f).val), w ≠ [] ∧ ∀ x ∈ w, isSpace x = false := by
    intro w hw
    obtain ⟨f, -, rfl⟩ := List.mem_map.mp hw
    exact ⟨(hash f).ne_nil, (hash f).isSpace⟩
  have hchar : ∀ c ∈ hashObject hash files, c = codePoint '\n' ∨ (33 ≤ c.val ∧ c.val ≤ 126) := by
    intro c hc
    obtain ⟨w, hw, hc⟩ := List.mem_flatMap.mp hc
    obtain ⟨f, -, rfl⟩ := List.mem_map.mp hw
    rcases List.mem_append.mp hc with hc | hc
    · exact .inr ((hash f).printable c hc)
    · exact .inl (List.mem_singleton.mp hc)
  have hescaped : (hashObject hash files).any isEscaped = false := by
    rw [List.any_eq_false]
    intro c hc
    rcases hchar c hc with rfl | hc
    · decide
    · simp only [isEscaped, decide_eq_true_eq]
      omega
  have hcr : codePoint '\r' ∉ hashObject hash files := by
    intro hc
    rcases hchar _ hc with h | h
    · exact absurd h (by decide)
    · exact absurd h.1 (by decide)
  rw [localBlobs, decodeOutput, if_neg (by rw [hescaped]; decide), translateNewlines_of_not_mem hcr]
  exact congrArg Except.ok (words_lines (by decide) hlines)

/-- Every file is paired with its own hash. -/
theorem zipStrict_map (f : Text → Text) :
    zipStrict files (files.map f) = .ok (files.map (fun name => (name, f name))) := by
  rw [zipStrict, if_pos (List.length_map f).symm]
  congr 1
  induction files with
  | nil => rfl
  | cons name files ih => rw [List.map_cons, List.map_cons, List.zip_cons_cons, ih]

/-- The absent names are those that the listing does not have, the modified ones those that it has with
another hash. -/
theorem foldl_compareBlob (merged : OrderedDict Text Text) (pairs : List (Text × Text))
    (found : List Text × List Text) : pairs.foldl (compareBlob merged relDir) found =
      (found.1 ++ (pairs.filter (fun p => (merged.get (relPath relDir p.1)).isNone)).map Prod.fst,
        found.2 ++ (pairs.filter (fun p => (merged.get (relPath relDir p.1)).any
          (fun sha => decide (sha ≠ p.2)))).map Prod.fst) := by
  induction pairs generalizing found with
  | nil => simp
  | cons p pairs ih =>
    rw [List.foldl_cons, ih]
    cases hget : merged.get (relPath relDir p.1) with
    | none => simp [compareBlob, hget]
    | some sha =>
      by_cases hsha : sha = p.2
      · simp [compareBlob, hget, hsha]
      · simp [compareBlob, hget, hsha]

/-- Nothing is absent and nothing modified when every file is listed with its hash. -/
theorem compare_empty_iff (merged : OrderedDict Text Text) :
    ((((files.map (fun name => (name, (hash name).val))).foldl (compareBlob merged relDir)
        ([], [])).1.isEmpty &&
      ((files.map (fun name => (name, (hash name).val))).foldl (compareBlob merged relDir)
        ([], [])).2.isEmpty) = true) ↔
      ∀ name ∈ files, merged.get (relPath relDir name) = some (hash name).val := by
  rw [foldl_compareBlob]
  simp only [List.nil_append, Bool.and_eq_true, List.isEmpty_iff, List.map_eq_nil_iff,
    List.filter_eq_nil_iff, List.forall_mem_map]
  constructor
  · rintro ⟨habsent, hmodified⟩ name hname
    have ha := habsent name hname
    have hm := hmodified name hname
    cases hget : merged.get (relPath relDir name) with
    | none => simp [hget] at ha
    | some sha =>
      have hsha : sha = (hash name).val := by simpa [hget] using hm
      rw [hsha]
  · intro h
    constructor
    · intro name hname
      simp [h name hname]
    · intro name hname
      simp [h name hname]

end Comparison

/-! ## The gate returns -/

section Gate

variable {lib : UrlLib} {repo : Repo} {run : Invocation}

/-- No file is absent or modified when the listing has every path with the file's hash. -/
theorem compareFiles_ok_iff (tree : Tree) (files : List Text) (hne : files ≠ []) :
    compareFiles repo tree run files = .ok () ↔ ∀ name ∈ files,
      (listedBlob tree repo.relDir (relPath repo.relDir name)).map Blob.sha = some (run.hash name) := by
  have hsha : ∀ (o : Option Blob) (f : GitField),
      o.map (fun b => b.sha.val) = some f.val ↔ o.map Blob.sha = some f := by
    intro o f
    cases o with
    | none => simp
    | some b => simp [GitField.ext_iff]
  rcases @mergedBlobs_spec tree repo.relDir with ⟨hescaped, hread⟩ | ⟨-, blobs, hread, hget⟩
  · obtain ⟨name, hname⟩ := List.exists_mem_of_ne_nil files hne
    rw [compareFiles, hread]
    refine iff_of_false (by rintro ⟨⟩) ?_
    intro h
    have hnone : listedBlob tree repo.relDir (relPath repo.relDir name) = none := if_pos hescaped
    have hsome := h name hname
    rw [hnone] at hsome
    cases hsome
  · have hcompare := @compare_empty_iff run.hash files repo.relDir blobs
    simp only [hget, hsha] at hcompare
    rw [compareFiles, hread, localBlobs_eq, ← hcompare]
    simp only [bind, Except.bind, zipStrict_map]
    split
    · rename_i h
      exact iff_of_true rfl h
    · rename_i h
      exact iff_of_false (by rintro ⟨⟩) h

/-- The gate returns for a reason to let the run pass, or when the listing has every revision's path
with its blob. -/
theorem assert_ok_iff : assertMigrationsAreMerged lib repo run = .ok () ↔
    PassedBy lib run ∨ ∃ tree, repo.tree = some tree ∧ ∀ name ∈ revisionFiles repo.versionsDir,
      (listedBlob tree repo.relDir (relPath repo.relDir name)).map Blob.sha = some (run.hash name) := by
  simp only [assertMigrationsAreMerged, PassedBy]
  by_cases hlocal : isLocalDsn lib run.dsn = true
  · simp [hlocal]
  by_cases hwrite : isHistoryWrite run.alembicContext = false
  · simp [hwrite]
  by_cases hdir : run.versionsIsDir = false
  · simp [hdir]
  by_cases hcheckout : run.hasCheckout = false
  · simp [hcheckout]
  by_cases hskip : skipMergeCheckRequested run.environ = true
  · simp [hskip]
  simp only [Bool.not_eq_true, Bool.not_eq_false] at hlocal hwrite hdir hcheckout hskip
  simp only [hlocal, hwrite, hdir, hcheckout, hskip, Bool.false_eq_true, if_false, Bool.not_true,
    Bool.true_eq_false, or_self, false_or]
  cases repo.tree with
  | none => simp
  | some tree =>
    simp only [Option.some.injEq, exists_eq_left']
    by_cases hfiles : revisionFiles repo.versionsDir = []
    · simp [hfiles]
    · rw [if_neg (by simpa using hfiles)]
      exact compareFiles_ok_iff tree _ hfiles

theorem merged_iff : Merged repo run ↔ ∃ tree, repo.tree = some tree ∧
    ∀ name ∈ revisionFiles repo.versionsDir,
      (tree.find (relPath repo.relDir name)).map Blob.sha = some (run.hash name) := by
  simp only [Merged, mem_revisionFiles, Option.map_eq_some_iff]

/-- Two lookups agree with the same hashes, whatever these are, when they give the same or when each
has a gap. -/
theorem forall_hash_iff {α β : Type} [Inhabited β] (l : List α) (f g : α → Option β) :
    (∀ hash : α → β, (∀ a ∈ l, f a = some (hash a)) ↔ ∀ a ∈ l, g a = some (hash a)) ↔
      (∀ a ∈ l, f a = g a) ∨ ((∃ a ∈ l, f a = none) ∧ ∃ a ∈ l, g a = none) := by
  constructor
  · intro h
    by_cases hf : ∃ a ∈ l, f a = none
    · by_cases hg : ∃ a ∈ l, g a = none
      · exact .inr ⟨hf, hg⟩
      · have hgsome : ∀ a ∈ l, g a = some ((g a).getD default) := by
          intro a ha
          cases hga : g a with
          | none => exact absurd ⟨a, ha, hga⟩ hg
          | some b => rfl
        have hfsome := (h (fun a => (g a).getD default)).mpr hgsome
        exact .inl (fun a ha => (hfsome a ha).trans (hgsome a ha).symm)
    · have hfsome : ∀ a ∈ l, f a = some ((f a).getD default) := by
        intro a ha
        cases hfa : f a with
        | none => exact absurd ⟨a, ha, hfa⟩ hf
        | some b => rfl
      have hgsome := (h (fun a => (f a).getD default)).mp hfsome
      exact .inl (fun a ha => (hfsome a ha).trans (hgsome a ha).symm)
  · rintro (h | ⟨⟨a, ha, hfa⟩, ⟨b, hb, hgb⟩⟩) hash
    · exact forall₂_congr (fun a ha => by rw [h a ha])
    · refine iff_of_false ?_ ?_
      · intro hall
        rw [hall a ha] at hfa
        cases hfa
      · intro hall
        rw [hall b hb] at hgb
        cases hgb

instance : Inhabited GitField where
  default := ⟨text "0", by decide, by simp [text, codePoint]⟩

theorem listingKept_iff {tree : Tree} (htree : repo.tree = some tree) : ListingKept repo ↔
    ∀ hash : Text → GitField,
      (∀ name ∈ revisionFiles repo.versionsDir,
        (listedBlob tree repo.relDir (relPath repo.relDir name)).map Blob.sha = some (hash name)) ↔
      ∀ name ∈ revisionFiles repo.versionsDir,
        (tree.find (relPath repo.relDir name)).map Blob.sha = some (hash name) := by
  have hiff := forall_hash_iff (revisionFiles repo.versionsDir)
    (fun name => (listedBlob tree repo.relDir (relPath repo.relDir name)).map Blob.sha)
    (fun name => (tree.find (relPath repo.relDir name)).map Blob.sha)
  simp only [Option.map_eq_none_iff] at hiff
  rw [hiff]
  constructor
  · intro h
    exact h tree htree
  · intro h tree' htree'
    rw [htree, Option.some.injEq] at htree'
    subst htree'
    exact h

/-- A run that writes to a database elsewhere, from a checkout. -/
def writingRun (hash : Text → GitField) : Invocation where
  dsn := []
  alembicContext := none
  environ := fun _ => none
  versionsIsDir := true
  hasCheckout := true
  hash := hash

theorem not_passedBy_writingRun (hash : Text → GitField) : ¬ PassedBy lib (writingRun hash) := by
  rintro (hlocal | hwrite | hdir | hcheckout | hskip)
  · cases hlocal
  · cases hwrite
  · cases hdir
  · cases hcheckout
  · cases hskip

end Gate

/-! ## Listings that are kept -/

section Kept

variable {tree : Tree} {relDir name : Text}

/-- A blob at a revision's path is listed. -/
theorem mem_listed {b : Blob} (hb : b ∈ tree.rows) (hpath : b.path = relPath relDir name) :
    b ∈ listed tree relDir := by
  rw [listed, List.mem_filter]
  refine ⟨hb, ?_⟩
  rw [hpath, relPath]
  by_cases hdot : relDir = text "."
  · simp [hdot]
  · have hstarts : relDir ++ text "/" <+: relDir ++ codePoint '/' :: name :=
      ⟨name, by simp [text]⟩
    simp [hdot, isPrefixOf_iff.mpr hstarts]

/-- Listed paths that are UTF-8 and without a carriage return lead to the blobs of the tree. -/
theorem listedBlob_eq_find
    (h : ∀ b ∈ listed tree relDir, codePoint '\r' ∉ b.path ∧ ∀ c ∈ b.path, isEscaped c = false) :
    listedBlob tree relDir (relPath relDir name) = tree.find (relPath relDir name) := by
  have hescaped : (listed tree relDir).any (fun b => b.path.any isEscaped) = false := by
    simpa [List.any_eq_false] using fun b hb => (h b hb).2
  rw [listedBlob, if_neg (by rw [hescaped]; decide)]
  cases hfind : (listed tree relDir).reverse.find?
      (fun b => decide (translateNewlines b.path = relPath relDir name)) with
  | none =>
    symm
    rw [Machine.Table.find_none]
    intro hmem
    obtain ⟨b, hb, hpath⟩ := List.mem_map.mp hmem
    have hlisted := mem_listed hb hpath
    have hnot := List.find?_eq_none.mp hfind b (List.mem_reverse.mpr hlisted)
    rw [translateNewlines_of_not_mem (h b hlisted).1] at hnot
    exact hnot (decide_eq_true hpath)
  | some b =>
    have hlisted := List.mem_reverse.mp (List.mem_of_find?_eq_some hfind)
    have hpath : translateNewlines b.path = relPath relDir name := by
      simpa using List.find?_some hfind
    rw [translateNewlines_of_not_mem (h b hlisted).1] at hpath
    have hrow : b ∈ tree.rows := (List.mem_filter.mp hlisted).1
    rw [← hpath]
    exact (Machine.Table.find_of_mem hrow).symm

/-- Paths that are UTF-8 and without a carriage return are kept. -/
theorem listingKept_of_plain {repo : Repo} (h : ∀ tree, repo.tree = some tree →
    ∀ b ∈ listed tree repo.relDir, codePoint '\r' ∉ b.path ∧ ∀ c ∈ b.path, isEscaped c = false) :
    ListingKept repo := by
  intro tree htree
  refine .inl ?_
  intro name _
  rw [listedBlob_eq_find (h tree htree)]

end Kept

/-- For the names in a versions directory and a tree at the integration ref: in every run the gate
returns for a reason to let the run pass or when every revision is merged, and else raises, if and
only if the listing leads from the revisions' paths to the blobs at these paths. -/
theorem merge_gate_iff_kept (lib : UrlLib) (repo : Repo) :
    (∀ run, assertMigrationsAreMerged lib repo run = .ok () ↔
      PassedBy lib run ∨ Merged repo run) ↔ ListingKept repo := by
  constructor
  · intro h tree htree
    refine (listingKept_iff htree).mpr ?_ tree htree
    intro hash
    have hrun := h (writingRun hash)
    rw [assert_ok_iff, merged_iff] at hrun
    simp only [not_passedBy_writingRun, false_or, htree, Option.some.injEq, exists_eq_left'] at hrun
    exact hrun
  · intro h run
    rw [assert_ok_iff, merged_iff]
    refine or_congr_right ?_
    cases htree : repo.tree with
    | none => simp
    | some tree =>
      simp only [Option.some.injEq, exists_eq_left']
      exact (listingKept_iff htree).mp h run.hash

section Misread

def blobAt (path : Text) (h : nul ∉ path) : Blob :=
  ⟨⟨text "100644", by decide, by simp [text, codePoint]⟩, default, path, h⟩

/-- One revision in `versions`, and a tree at the ref. -/
def repoOf (revision : Text) (tree : Tree) : Repo := ⟨text "versions", [⟨revision, true⟩], some tree⟩

def carriageReturnTree : Tree := ⟨[blobAt (text "versions/a\r.py") (by decide)], by simp⟩

/-- Beside the revision, a file whose name is not UTF-8. -/
def latin1Tree : Tree :=
  ⟨[blobAt (text "versions/a.py") (by decide),
    blobAt (text "versions/" ++ 0xDCE9 :: text ".md") (by decide)], by decide +kernel⟩

def remoteRun : Invocation :=
  { writingRun (fun _ => default) with dsn := text "postgresql://app@db.example.com/app" }

theorem not_passedBy_remoteRun : ¬ PassedBy ⟨id, fun _ => false⟩ remoteRun := by
  have hlocal : isLocalDsn ⟨id, fun _ => false⟩ remoteRun.dsn = false := by decide +kernel
  rintro (h | h | h | h | h)
  · rw [hlocal] at h
    cases h
  · cases h
  · cases h
  · cases h
  · cases h

theorem isRevision_repoOf {revision name : Text} {tree : Tree}
    (h : IsRevision (repoOf revision tree).versionsDir name) : name = revision := by
  have heq : DirEntry.mk name true = ⟨revision, true⟩ := List.mem_singleton.mp h.1
  cases heq
  rfl

/-- An unmerged revision passes for another file of the tree, and a merged one is stopped by one. -/
theorem listing_misread :
    (assertMigrationsAreMerged ⟨id, fun _ => false⟩ (repoOf (text "a\n.py") carriageReturnTree)
        remoteRun = .ok () ∧
      ¬ (PassedBy ⟨id, fun _ => false⟩ remoteRun ∨
        Merged (repoOf (text "a\n.py") carriageReturnTree) remoteRun)) ∧
    (assertMigrationsAreMerged ⟨id, fun _ => false⟩ (repoOf (text "a.py") latin1Tree) remoteRun ≠
        .ok () ∧
      Merged (repoOf (text "a.py") latin1Tree) remoteRun) := by
  refine ⟨⟨?_, ?_⟩, ?_, ?_⟩
  · rw [assert_ok_iff]
    refine .inr ⟨carriageReturnTree, rfl, ?_⟩
    intro name hname
    rw [isRevision_repoOf (mem_revisionFiles.mp hname)]
    have hsha : (listedBlob carriageReturnTree (text "versions")
        (relPath (text "versions") (text "a\n.py"))).map Blob.sha = some default := by
      decide +kernel
    exact hsha
  · rintro (h | ⟨tree, htree, h⟩)
    · exact not_passedBy_remoteRun h
    · cases htree
      have hrevision : IsRevision (repoOf (text "a\n.py") carriageReturnTree).versionsDir
          (text "a\n.py") :=
        ⟨List.mem_singleton_self _, ⟨text "a\n", by decide, rfl⟩, by decide⟩
      obtain ⟨blob, hblob, -⟩ := h _ hrevision
      have hnone : carriageReturnTree.find (relPath (text "versions") (text "a\n.py")) = none := by
        decide +kernel
      cases hnone.symm.trans hblob
  · rw [ne_eq, assert_ok_iff]
    rintro (h | ⟨tree, htree, h⟩)
    · exact not_passedBy_remoteRun h
    · cases htree
      have hrevision : IsRevision (repoOf (text "a.py") latin1Tree).versionsDir (text "a.py") :=
        ⟨List.mem_singleton_self _, ⟨text "a", by decide, rfl⟩, by decide⟩
      have hsha := h _ (mem_revisionFiles.mpr hrevision)
      have hescaped : (listed latin1Tree (text "versions")).any (fun b => b.path.any isEscaped) = true := by
        decide +kernel
      have hnone : listedBlob latin1Tree (text "versions") (relPath (text "versions") (text "a.py")) =
          none := if_pos hescaped
      cases (congrArg (Option.map Blob.sha) hnone).symm.trans hsha
  · refine ⟨latin1Tree, rfl, ?_⟩
    intro name hname
    rw [isRevision_repoOf hname]
    have hpath : relPath (text "versions") (text "a.py") = text "versions/a.py" := by decide +kernel
    have hmem : blobAt (text "versions/a.py") (by decide) ∈ latin1Tree.rows := List.mem_cons_self
    have hfind := Machine.Table.find_of_mem hmem
    exact ⟨_, (congrArg latin1Tree.find hpath).trans hfind, rfl⟩

end Misread

end MergeGate
end Db
end TrShared
