-- SUMMARY: The options of the command line and how its words are read.
import Storyboard.Frame.Export
import Storyboard.Log
import Storyboard.Text.Digit
import Storyboard.Text.Quoted

/-!
# Options

A command line is read in two passes. The first says of each word whether it is an
option, by its spelling alone (`Word.ofString`): long options may be cut short as long
as they stay unique, and a value may be attached to its option. The second takes the
words from left to right (`consume`): an option takes its value, the first word that
is no option names the file with the tables, and what is left over is an error at
the end. A `--` is never a value: where it is attached to an option, the option is left
without one (`Draft.takeBlank`).
-/

namespace Storyboard.CommandLine

/-! ## The options -/

/-- The options that there are. -/
inductive Opt where
  | help
  | command
  | file
  | verbose
  | json
  | delay
  | stableIds
  | logLevel
deriving DecidableEq, Repr

namespace Opt

/-- All options. -/
def all : List Opt :=
  [help, command, file, verbose, json, delay, stableIds, logLevel]

/-- The spellings of an option. -/
def spellings : Opt → List String
  | help => ["-h", "--help"]
  | command => ["-c", "--command"]
  | file => ["-f", "--file"]
  | verbose => ["-v", "--verbose"]
  | json => ["--json"]
  | delay => ["--delay"]
  | stableIds => ["--stable-ids"]
  | logLevel => ["--log-level"]

/-- Whether the option has a value. -/
def hasValue : Opt → Bool
  | command | file | delay | logLevel => true
  | help | verbose | json | stableIds => false

/-- The name of an option in messages. -/
def name (o : Opt) : String :=
  String.intercalate "/" o.spellings

/-- The option with exactly this spelling. -/
def ofSpelling? (s : String) : Option Opt :=
  all.find? fun o => o.spellings.contains s

/-- The spellings that a text starts, with their options. -/
def startingWith (start : String) : List (String × Opt) :=
  all.flatMap fun o => (o.spellings.filter fun s => start.isPrefixOf s).map fun s => (s, o)

end Opt

/-! ## Errors -/

/-- What is wrong with a command line. -/
inductive UsageError where
  | valueExpected (o : Opt)
  | valueIgnored (o : Opt) (value : String)
  | noInteger (o : Opt) (value : String)
  | noChoice (o : Opt) (value : String) (choices : List String)
  | ambiguous (word : String) (candidates : List String)
  | tablesMissing
  | unrecognized (words : List String)
deriving DecidableEq, Repr

/-- The wording of an error. -/
def UsageError.message : UsageError → String
  | valueExpected o => "argument " ++ o.name ++ ": expected one argument"
  | valueIgnored o value =>
    "argument " ++ o.name ++ ": ignored explicit argument " ++ Text.quoted value
  | noInteger o value => "argument " ++ o.name ++ ": invalid int value: " ++ Text.quoted value
  | noChoice o value choices =>
    "argument " ++ o.name ++ ": invalid choice: " ++ Text.quoted value ++ " (choose from "
      ++ String.intercalate ", " (choices.map fun (c : String) => Text.quoted c) ++ ")"
  | ambiguous word candidates =>
    "ambiguous option: " ++ word ++ " could match " ++ String.intercalate ", " candidates
  | tablesMissing => "the following arguments are required: tables"
  | unrecognized words => "unrecognized arguments: " ++ String.intercalate " " words

/-- Why reading a command line ends without options. -/
inductive Stop where
  /-- Help is asked for. -/
  | help
  | usage (e : UsageError)
  /-- The words are in order, but the log level has been left without a value. -/
  | noLevel
deriving DecidableEq, Repr

/-! ## Words -/

/-- What a word of the command line is. -/
inductive Word where
  /-- A word that is no option. -/
  | plain (s : String)
  /-- The first `--`, after which no word is an option. -/
  | endOfOptions
  /-- An option, spelled with one dash or with two, and what is attached to it. -/
  | option (o : Opt) (short : Bool) (attached : Option (List Char))
  /-- What looks like an option and is none. -/
  | unknown (s : String)
deriving DecidableEq, Repr

/-- Whether a word is a negative number: a dash and digits, of which some may follow a point. A
    line feed at the end does not count. -/
def isNegativeNumber (word : List Char) : Bool :=
  let body := if word.getLast? = some '\n' then word.dropLast else word
  match body with
  | '-' :: rest =>
    let whole := rest.takeWhile Text.isDigit
    match rest.drop whole.length with
    | [] => !whole.isEmpty
    | '.' :: fraction => !fraction.isEmpty && fraction.all Text.isDigit
    | _ => false
  | _ => false

/-- The part of a word before its first equals sign, and the part after it if there is one. -/
def cutAtEquals (word : List Char) : List Char × Option (List Char) :=
  let start := word.takeWhile (· ≠ '=')
  (start, (word.drop start.length).tail?)

/-- Whether a spelling has one dash only. -/
def isShort (spelling : List Char) : Bool :=
  spelling[1]? ≠ some '-'

/-- The options, with what is attached to them, that a word with a dash at its start may mean if it
    is not spelled out: a long option cut short, or a short one with something attached. -/
def candidates (word : List Char) : List (String × Opt × Option (List Char)) :=
  match word with
  | '-' :: '-' :: _ =>
    let (start, value) := cutAtEquals word
    (Opt.startingWith (String.ofList start)).map fun (s, o) => (s, o, value)
  | _ =>
    let s := String.ofList (word.take 2)
    (Opt.ofSpelling? s).toList.map fun o => (s, o, some (word.drop 2))

/-- What a word is that is not the first `--`, nor behind it. -/
def Word.ofString (s : String) : Except Stop Word :=
  let word := s.toList
  if word.head? ≠ some '-' then .ok (plain s)
  else
    match Opt.ofSpelling? s with
    | some o => .ok (option o (isShort word) none)
    | none =>
      if word.length = 1 then .ok (plain s)
      else
        let (start, value) := cutAtEquals word
        match value, Opt.ofSpelling? (String.ofList start) with
        | some value, some o => .ok (option o (isShort word) (some value))
        | _, _ =>
          match candidates word with
          | [(_, o, attached)] => .ok (option o (isShort word) attached)
          | [] =>
            if isNegativeNumber word || word.contains ' ' then .ok (plain s) else .ok (unknown s)
          | several => .error (.usage (.ambiguous s (several.map (·.1))))

/-- What the words of a command line are. -/
def wordsOf : List String → Except Stop (List Word)
  | [] => .ok []
  | s :: rest =>
    if s = "--" then .ok (.endOfOptions :: rest.map .plain)
    else do
      let word ← Word.ofString s
      let words ← wordsOf rest
      .ok (word :: words)

/-! ## What one option word asks for -/

/-- What an option word asks for: options with their values, then perhaps an option that takes the
    next word as its value. -/
structure Uses where
  settled : List (Opt × List Char)
  pending : Option Opt
deriving DecidableEq, Repr

/-- An option with nothing attached. -/
def usesAlone (o : Opt) : Uses :=
  if o.hasValue then { settled := [], pending := some o }
  else { settled := [(o, [])], pending := none }

/-- An option with something attached: its value, or, for a short option without a value, further
    short options. -/
def usesAttached (o : Opt) (short : Bool) (attached : List Char) : Except Stop Uses :=
  if o.hasValue then .ok { settled := [(o, attached)], pending := none }
  else
    let ignored := Stop.usage (.valueIgnored o (String.ofList attached))
    match attached with
    | [] => .error ignored
    | c :: rest =>
      match short, Opt.ofSpelling? (String.ofList ['-', c]) with
      | true, some next => do
        let uses ← if rest.isEmpty then .ok (usesAlone next) else usesAttached next true rest
        .ok { uses with settled := (o, []) :: uses.settled }
      | _, _ => .error ignored

/-! ## Settings -/

/-- What a command line asks for. -/
structure Options where
  tables : String
  command : Option String
  file : Option String
  verbose : Bool
  json : Bool
  delay : Option Delay
  stableIds : Bool
  logLevel : LogLevel
deriving DecidableEq, Repr

/-- What has been read of a command line: its options, with the file of the tables once it has been
    named, whether the log level is without a value, and the words left over. -/
structure Draft where
  options : Options
  named : Bool
  noLevel : Bool
  extras : List String
deriving DecidableEq, Repr

namespace Draft

/-- Before the first word. -/
def initial : Draft where
  options :=
    { tables := "", command := none, file := none, verbose := false, json := false, delay := none
      stableIds := false, logLevel := .warning }
  named := false
  noLevel := false
  extras := []

/-- Takes an option that is left without a value. A script or a file is then none at all, a delay is
    blank, and the log level is missing until it is given anew. -/
def takeBlank (d : Draft) : Opt → Draft
  | .command => { d with options := { d.options with command := none } }
  | .file => { d with options := { d.options with file := none } }
  | .delay => { d with options := { d.options with delay := some .blank } }
  | .logLevel => { d with noLevel := true }
  | .help | .verbose | .json | .stableIds => d

/-- Takes an option with its value. -/
def takeValue (d : Draft) (o : Opt) (value : List Char) : Except Stop Draft :=
  let text := String.ofList value
  match o with
  | .help => .error .help
  | .command => .ok { d with options := { d.options with command := some text } }
  | .file => .ok { d with options := { d.options with file := some text } }
  | .verbose => .ok { d with options := { d.options with verbose := true } }
  | .json => .ok { d with options := { d.options with json := true } }
  | .stableIds => .ok { d with options := { d.options with stableIds := true } }
  | .delay =>
    match Text.Numeral.readSigned value with
    | some n => .ok { d with options := { d.options with delay := some (.milliseconds n) } }
    | none => .error (.usage (.noInteger o text))
  | .logLevel =>
    match LogLevel.ofName? text with
    | some level => .ok { d with options := { d.options with logLevel := level }, noLevel := false }
    | none => .error (.usage (.noChoice o text (LogLevel.all.map (·.name))))

/-- Takes an option with what stands for its value. -/
def take (d : Draft) (o : Opt) (value : List Char) : Except Stop Draft :=
  if value = ['-', '-'] then .ok (d.takeBlank o) else d.takeValue o value

/-- Takes options with their values, one after the other. -/
def takeAll (d : Draft) : List (Opt × List Char) → Except Stop Draft
  | [] => .ok d
  | (o, value) :: rest => do
    let d ← d.take o value
    d.takeAll rest

/-- Leaves words over. -/
def leave (d : Draft) (words : List String) : Draft :=
  { d with extras := d.extras ++ words }

/-- Takes a word that is no option: the first names the file of the tables. -/
def name (d : Draft) (word : String) : Draft :=
  if d.named then d.leave [word]
  else { d with options := { d.options with tables := word }, named := true }

end Draft

/-- Reads words from left to right. A `--` next to the word that names the file of the tables
    belongs to it, any other is left over. -/
def consume (d : Draft) : List Word → Except Stop Draft
  | [] => .ok d
  | .option o short attached :: rest => do
    let uses ←
      match attached with
      | none => .ok (usesAlone o)
      | some value => usesAttached o short value
    match uses.pending, rest with
    | none, rest => do
      let d ← d.takeAll uses.settled
      consume d rest
    | some o, .plain value :: rest => do
      let d ← d.takeAll (uses.settled ++ [(o, value.toList)])
      consume d rest
    | some o, _ => .error (.usage (.valueExpected o))
  | .unknown s :: rest => consume (d.leave [s]) rest
  | .endOfOptions :: .plain s :: rest =>
    if d.named then consume (d.leave ["--", s]) rest else consume (d.name s) rest
  | .endOfOptions :: rest => consume (d.leave ["--"]) rest
  | .plain s :: .endOfOptions :: rest =>
    if d.named then consume (d.leave [s, "--"]) rest else consume (d.name s) rest
  | .plain s :: rest => consume (d.name s) rest

/-- Reads a command line. -/
def Options.read (argv : List String) : Except Stop Options := do
  let words ← wordsOf argv
  let d ← consume .initial words
  if !d.named then .error (.usage .tablesMissing)
  else if !d.extras.isEmpty then .error (.usage (.unrecognized d.extras))
  else if d.noLevel then .error .noLevel
  else .ok d.options

end Storyboard.CommandLine
