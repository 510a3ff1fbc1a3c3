import TrShared.Python.Lines
import TrShared.Python.Regex

/-!
# TrShared.Testing.CeleryTopology

`consumed_queues` of `testing/celery_topology.py`: the queues that the start script of a service names
for its workers. The script is read as text, line ends translated. `alnum` is what `\w` matches beyond
ASCII; a Python set is a list here, of which only the members count.
-/

namespace TrShared
namespace Testing
namespace CeleryTopology

open Python Python.Regex

/-! ## The regular expressions -/

section Patterns

variable (alnum : CodePoint → Bool)

def equals : CodePoint := codePoint '='

def dollar : CodePoint := codePoint '$'

def openBrace : CodePoint := codePoint '\x7b'

def closeBrace : CodePoint := codePoint '\x7d'

/-- One character as it is. -/
def isChar (c d : CodePoint) : Bool := decide (d = c)

/-- `\w`. -/
def isWord (c : CodePoint) : Bool :=
  if c.val < 128 then
    decide ((48 ≤ c.val ∧ c.val ≤ 57) ∨ (65 ≤ c.val ∧ c.val ≤ 90) ∨ c.val = 95 ∨ (97 ≤ c.val ∧ c.val ≤ 122))
  else alnum c

/-- `\b`. -/
def boundary (before : Option CodePoint) (s : Text) : Bool :=
  (before.map (isWord alnum)).getD false != (s.head?.map (isWord alnum)).getD false

/-- `_WORKER`. -/
def worker : Pattern CodePoint :=
  .assert (boundary alnum) :: literal (text "celery") ++
    [.assert (boundary alnum), .few (fun c => decide (c ≠ newline)), .assert (boundary alnum)] ++
    literal (text "worker") ++ [.assert (boundary alnum)]

/-- `-Q` and `--queues`. -/
def marker (long : Bool) : Text := if long then text "--queues" else text "-Q"

/-- `[=\s]`. -/
def isSeparator (c : CodePoint) : Bool := isSpace c || decide (c = equals)

def isChunk (c : CodePoint) : Bool := !isSpace c

/-- `_Q_SHORT` and `_Q_LONG`. -/
def queueOption (long : Bool) : Pattern CodePoint :=
  literal (marker long) ++ (plus isSeparator ++ plus isChunk)

/-- Its group. -/
def optionGroup (long : Bool) (spans : List Text) : Text := (spans.drop ((marker long).length + 2)).flatten

/-- `$`, also in front of a last line end. -/
def atEnd (_ : Option CodePoint) (s : Text) : Bool := decide (s = [] ∨ s = [newline])

/-- `_SHELL_VAR`, matched at the start. -/
def shellVar : Pattern CodePoint :=
  [.one (isChar dollar), .maybe (isChar openBrace), .one (isWord alnum), .many (isWord alnum),
    .maybe (isChar closeBrace), .assert atEnd]

def varGroup (spans : List Text) : Text := ((spans.drop 2).take 2).flatten

def isQuote (c : CodePoint) : Bool := decide (c ∈ text "\"'")

/-- `[^"'\n]`. -/
def isValue (c : CodePoint) : Bool := !isQuote c && decide (c ≠ newline)

/-- `^` with `re.MULTILINE`. -/
def lineStart (before : Option CodePoint) (_ : Text) : Bool := decide (before = none ∨ before = some newline)

/-- The pattern of `_resolve_variable`. -/
def assignmentOf (name : Text) : Pattern CodePoint :=
  .assert lineStart :: .many isSpace ::
    (literal name ++
      [.one (isChar equals), .maybe isQuote, .one isValue, .many isValue, .maybe isQuote])

def valueGroup (name : Text) (spans : List Text) : Text := ((spans.drop (name.length + 4)).take 2).flatten

end Patterns

/-! ## Reading a script -/

section Read

variable (alnum : CodePoint → Bool)

/-- `line.lstrip().startswith("#")`. -/
def isComment (line : Text) : Bool := decide ((line.dropWhile isSpace).head? = some (codePoint '#'))

/-- `_logical_lines`. -/
def logicalLines (script : Text) : List Text :=
  let stripped := join (text "\n") ((splitlines script).filter (fun line => !isComment line))
  (splitlines (replaceAll (text "\\\n") (text " ") stripped)).filter (fun line => decide (strip line ≠ []))

/-- `_resolve_variable`. -/
def resolveVariable (name script : Text) : Option Text :=
  (search (assignmentOf name) none script).map (fun m => strip (valueGroup name m.1))

/-- `value.strip().strip("\"'")`. -/
def unquoted (value : Text) : Text := stripBy isQuote (strip value)

/-- `{q.strip() for q in value.split(",") if q.strip() and "$" not in q}`. -/
def listed (value : Text) : List Text :=
  ((value.splitOn comma).filter (fun q => decide (strip q ≠ [] ∧ dollar ∉ q))).map strip

/-- `_queues_from_value`. -/
def queuesFromValue (value script : Text) : List Text :=
  match matchAt (shellVar alnum) none (unquoted value) with
  | some m =>
    match resolveVariable (varGroup m.1) script with
    | none => []
    | some resolved => listed (unquoted resolved)
  | none => listed (unquoted value)

def isWorkerLine (line : Text) : Bool := (search (worker alnum) none line).isSome

/-- What is found on a worker line, by both patterns. -/
def found (script line : Text) : List Text :=
  [false, true].flatMap (fun long =>
    (findall (queueOption long) line).flatMap
      (fun spans => queuesFromValue alnum (optionGroup long spans) script))

/-- The loop: the queues, and the worker lines without any. -/
def readLines (script : Text) : List Text → List Text × List Text
  | [] => ([], [])
  | line :: lines =>
    let rest := readLines script lines
    if isWorkerLine alnum line then
      if found alnum script line ≠ [] then (found alnum script line ++ rest.1, rest.2)
      else (rest.1, strip line :: rest.2)
    else rest

inductive CeleryTopologyError where
  | noFile
  | noWorker
  | unparsed (lines : List Text)
  | noQueues

def startCommandFiles : List String := ["deploy.sh", "docker-entrypoint.sh"]

/-- `start_command_file`, with the text of the file. -/
def startCommandFile (serviceRoot : String → Option Text) : Except CeleryTopologyError Text :=
  let existing := startCommandFiles.filterMap serviceRoot
  if existing = [] then throw .noFile
  else
    match existing.find? (fun script => isWorkerLine alnum (join (text "\n") (logicalLines script))) with
    | some script => pure script
    | none => throw .noWorker

def consumedQueues (serviceRoot : String → Option Text) : Except CeleryTopologyError (List Text) := do
  let script ← startCommandFile alnum serviceRoot
  let (queues, unparsed) := readLines alnum script (logicalLines script)
  if unparsed ≠ [] then throw (.unparsed unparsed)
  if queues = [] then throw .noQueues
  pure queues

end Read

end CeleryTopology
end Testing
end TrShared
