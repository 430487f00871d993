/-
The arguments of a command line.

The words are read one after the other.  The names that stand by their place are those of the first
run of plain words: once a switch has followed a plain word, every further plain word is surplus.  A
switch that takes a value takes the plain word after it.
-/
import WikiMigration.Command.Word

namespace WikiMigration.Command

open Data

/-- The arguments by name. -/
abbrev Arguments := List (Scalar × Value)

/-- Whether plain words still stand by their place. -/
inductive Run where
  /-- No plain word has been read. -/
  | ahead
  /-- The last word was of the first run; these operands are left. -/
  | within (left : List Operand)
  | past
  deriving DecidableEq, Repr

/-- How far a command line has been read. -/
structure Reading where
  arguments : Arguments := noArguments
  run : Run := .ahead
  /-- The switch that takes the next word as its value. -/
  waiting : Option Switch := none
  /-- Words that nothing takes. -/
  surplus : List String := []

namespace Reading

/-- Sets an argument. -/
def set (key : String) (value : Value) (reading : Reading) : Reading :=
  { reading with arguments := assign (.text key) value reading.arguments }

/-- Leaves a word over. -/
def leave (text : String) (reading : Reading) : Reading :=
  { reading with surplus := reading.surplus ++ [text] }

/-- Ends the first run of plain words, if it has begun. -/
def endRun (reading : Reading) : Reading :=
  match reading.run with
  | .within _ => { reading with run := .past }
  | _ => reading

/-- How often the switch of an argument has been counted. -/
def countOf (key : String) (reading : Reading) : Int :=
  match lookup (.text key) reading.arguments with
  | some (.int n) => n
  | _ => 0

/-- Does what a switch does. -/
def follow (reading : Reading) (s : Switch) : Except Ending Reading :=
  match s.effect with
  | .help => .error .help
  | .version => .error .version
  | .value _ => .ok { reading with waiting := some s }
  | .flag => .ok (reading.set s.key (.bool true))
  | .count => .ok (reading.set s.key (.int (reading.countOf s.key + 1)))

/-- The switches of a word of letters, and what of it is left over when a letter is no switch. -/
def bundle (s : Switch) : List Char → Except Ending (List Switch × Option String)
  | [] => .ok ([s], none)
  | '=' :: value => .error (.misuse (.unusedValue s (String.ofList value)))
  | '-' :: rest => .error (.misuse (.unusedValue s (String.ofList ('-' :: rest))))
  | c :: rest =>
    match Switch.named? ['-', c] with
    | none => .ok ([s], some (String.ofList ('-' :: c :: rest)))
    | some next => (bundle next rest).map fun (more, left) => (s :: more, left)

/-- Reads a switch with what stands behind it in its word. -/
def readSwitch (reading : Reading) (s : Switch) (tail : Tail) : Except Ending Reading :=
  match s.effect, tail with
  | .value _, .value text => .ok (reading.set s.key (.text text))
  | _, .nothing => reading.follow s
  | _, .value text => .error (.misuse (.unusedValue s text))
  | _, .letters text => do
    let (all, left) ← bundle s text
    let reading := (left.map (reading.leave ·)).getD reading
    all.foldlM follow reading

/-- Reads a plain word.  Two dashes among the later operands leave their operand out. -/
def readPlain (reading : Reading) (text : String) : Reading :=
  match reading.run with
  | .ahead => place operands
  | .within left =>
    if text == "--" && !left.isEmpty then { reading with run := .within left.tail } else place left
  | .past => reading.leave text
where
  place : List Operand → Reading
    | [] => { reading.leave text with run := .past }
    | operand :: left => { reading.set operand.key (.text text) with run := .within left }

/-- Reads a word. -/
def step (reading : Reading) (word : Word) : Except Ending Reading :=
  match reading.waiting, word with
  | some s, .plain text => .ok { reading.set s.key (.text text) with waiting := none }
  | some s, _ => .error (.misuse (.missingValue s))
  | none, .plain text => .ok (reading.readPlain text)
  | none, .switch s tail => reading.endRun.readSwitch s tail
  | none, .unknown text => .ok (reading.endRun.leave text)
  | none, .separator => .ok (if reading.run = .past then reading.leave "--" else reading)

/-- The arguments that have been read; there may be no switch left without its value, and no word
left over. -/
def finish (reading : Reading) : Except Ending Arguments :=
  match reading.waiting with
  | some s => .error (.misuse (.missingValue s))
  | none =>
    if reading.surplus.isEmpty then .ok reading.arguments
    else .error (.misuse (.unrecognized reading.surplus))

end Reading

/-- The arguments of a command line. -/
def parse (line : List String) : Except Ending Arguments := do
  let words ← wordsOf line
  let reading ← words.foldlM Reading.step {}
  reading.finish

end WikiMigration.Command
