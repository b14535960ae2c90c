import CrudScaffold.CommandLine.Options
import CrudScaffold.Text.Blank
import CrudScaffold.Text.CharTable
import CrudScaffold.Text.Display

/-!
# CrudScaffold.CommandLine.Arguments — reading the words of a command line

A word that begins with a dash is an option, unless it looks like a negative number or holds a space.

* A long option may be shortened as long as it stays unique, and may carry its value after `=`.
* Short options may be joined, the last one with its value.
* After `--` every word is plain.

All words are sorted into these kinds first; then they are read from left to right.  The first plain word that is not
the value of an option is the name.  Whatever is left over is refused at the end.
-/

namespace CrudScaffold.CommandLine

open CrudScaffold.Text

/-- Why a command line is refused. -/
inductive UsageFault where
  /-- A shortened option that several options begin with. -/
  | ambiguous (written : String) (candidates : List String)
  | noValue (label : String)
  /-- A value for an option that takes none. -/
  | unusedValue (label value : String)
  | notAChoice (label value : String) (choices : List String)
  | noName
  | leftOver (words : List String)
  deriving DecidableEq, Repr

/-- The wording of a refusal. -/
def UsageFault.message : UsageFault → String
  | .ambiguous written candidates =>
    let list := ", ".intercalate candidates
    s!"ambiguous option: {written} could match {list}"
  | .noValue label => s!"argument {label}: expected one argument"
  | .unusedValue label value => s!"argument {label}: ignored explicit argument {display value}"
  | .notAChoice label value choices =>
    let list := ", ".intercalate (choices.map display)
    s!"argument {label}: invalid choice: {display value} (choose from {list})"
  | .noName => "the following arguments are required: NAME"
  | .leftOver words =>
    let list := " ".intercalate words
    s!"unrecognized arguments: {list}"

/-- How a text is attached to an option in the same word: as its value, or directly behind a short option, where it
may hold further short options. -/
inductive Attachment where
  | assigned (text : String)
  | joined (text : String)
  deriving DecidableEq, Repr

/-- A word, sorted by its kind. -/
inductive Word where
  | plain (text : String)
  /-- The word `--`. -/
  | divider
  /-- An option, and what is attached to it. -/
  | option (rule : OptionRule) (attached : Option Attachment)
  /-- Something like an option that the command does not have. -/
  | stranger (text : String)

/-- A number below zero, as far as its looks go. -/
def looksNegative (cs : List Char) : Bool :=
  let cs := if cs.getLast? = some '\n' then cs.dropLast else cs
  match cs with
  | '-' :: body =>
    let whole := body.takeWhile isDecimal
    match body.dropWhile isDecimal with
    | [] => !whole.isEmpty
    | '.' :: places => !places.isEmpty && places.all isDecimal
    | _ => false
  | _ => false

/-- Something that begins like an option is a plain word after all, or an option that the command does not have. -/
def sortStranger (w : String) : Word :=
  let cs := w.toList
  if looksNegative cs || cs.contains ' ' then .plain w else .stranger w

/-- A word without the text behind its first `=`, and that text. -/
def splitValue (cs : List Char) : String × Option String :=
  match cutFirst '=' cs with
  | some (before, after) => (String.ofList before, some (String.ofList after))
  | none => (String.ofList cs, none)

/-- Sorts a word that begins with two dashes and is not a spelling: it may be a shortened one. -/
def sortLong (w : String) : Except UsageFault Word :=
  let (start, text) := splitValue w.toList
  match spellings.filter fun e => beginsWith start e.1 with
  | [] => .ok (sortStranger w)
  | [(_, rule)] => .ok (.option rule (text.map .assigned))
  | several => .error (.ambiguous w (several.map (·.1)))

/-- Sorts a word that begins with one dash and is not a spelling: it may be an option with something attached. -/
def sortShort (w : String) : Word :=
  match ruleOf? (String.ofList (w.toList.take 2)) with
  | some rule => .option rule (some (.joined (String.ofList (w.toList.drop 2))))
  | none => sortStranger w

/-- Sorts a word. -/
def sortWord (e : Edition) (w : String) : Except UsageFault Word :=
  match w.toList with
  | '-' :: c :: _ =>
    match ruleOf? w with
    | some rule => .ok (.option rule none)
    | none =>
      let (start, text) := splitValue w.toList
      match text, ruleOf? start with
      | some t, some rule =>
        let joins := e = .earlier ∧ c ≠ '-' ∧ !t.isEmpty
        .ok (.option rule (some (if joins then .joined t else .assigned t)))
      | _, _ => if c = '-' then sortLong w else .ok (sortShort w)
  | _ => .ok (.plain w)

/-- Sorts the words of a command line. -/
def sortWords (e : Edition) : List String → Except UsageFault (List Word)
  | [] => .ok []
  | w :: ws =>
    if w = "--" then .ok (.divider :: ws.map .plain)
    else do return (← sortWord e w) :: (← sortWords e ws)

/-- How the reading of a command line ends early. -/
inductive Stop where
  | help
  | version
  | refused (fault : UsageFault)
  deriving DecidableEq, Repr

/-- How far a command line has been read. -/
structure Progress where
  options : Options
  /-- The name has been read, with the latest word if `justNamed`. -/
  named : Bool
  justNamed : Bool
  /-- The words that nothing has been found for. -/
  left : List String
  /-- An option that waits for its value, and the flags written together with it. -/
  waiting : Option (List OptionRule × OptionRule)

/-- Applies an option without a value. -/
def applyFlag (o : Options) (r : OptionRule) : Except Stop Options :=
  match r.meaning with
  | .help => .error .help
  | .version => .error .version
  | .flag set => .ok (set o)
  | .value _ _ => .error (.refused (.noValue r.label))

/-- Applies an option with a value. -/
def applyValue (e : Edition) (o : Options) (r : OptionRule) (v : String) : Except Stop Options :=
  match r.meaning with
  | .value choices set =>
    match Given.ofText e v with
    | .nothing => .ok (set .nothing o)
    | .text s =>
      if choices.isEmpty || choices.contains s then .ok (set (.text s) o)
      else .error (.refused (.notAChoice r.label s choices))
  | _ => .error (.refused (.unusedValue r.label v))

/-- What stands at the end of a word with options. -/
inductive Ending where
  | nothing
  /-- An option with its value. -/
  | value (rule : OptionRule) (text : String)
  /-- An option whose value is the next word. -/
  | waits (rule : OptionRule)
  /-- Letters that are no options, with a dash in front. -/
  | leaves (text : String)

/-- A word with options: the flags in it, and what stands at its end. -/
structure Reading where
  flags : List OptionRule
  ending : Ending

/-- The option takes a value. -/
def OptionRule.takesValue (r : OptionRule) : Bool :=
  match r.meaning with
  | .value _ _ => true
  | _ => false

/-- An option with nothing attached to it. -/
def readBare (flags : List OptionRule) (rule : OptionRule) : Reading :=
  if rule.takesValue then ⟨flags, .waits rule⟩ else ⟨flags ++ [rule], .nothing⟩

/-- An option with a value behind `=`. -/
def readAssigned (flags : List OptionRule) (rule : OptionRule) (text : String) : Except Stop Reading :=
  if rule.takesValue then .ok ⟨flags, .value rule text⟩ else .error (.refused (.unusedValue rule.label text))

/-- Takes joined short options apart: the characters behind a flag are further options, and those behind an option
with a value are its value. -/
def readJoined (e : Edition) (flags : List OptionRule) (rule : OptionRule) : List Char → Except Stop Reading
  | [] => .ok (readBare flags rule)
  | c :: cs =>
    let text := String.ofList (c :: cs)
    if rule.takesValue then .ok ⟨flags, .value rule text⟩
    else match ruleOf? (String.ofList ['-', c]), e with
      | some next, .earlier => readJoined e (flags ++ [rule]) next cs
      | some next, .current => match cs with
        | '=' :: value => readAssigned (flags ++ [rule]) next (String.ofList value)
        | _ => readJoined e (flags ++ [rule]) next cs
      | none, .earlier => .error (.refused (.unusedValue rule.label text))
      | none, .current =>
        if c = '-' then .error (.refused (.unusedValue rule.label text))
        else .ok ⟨flags ++ [rule], .leaves ("-" ++ text)⟩

/-- An option with what is attached to it. -/
def readAttached (e : Edition) (rule : OptionRule) : Option Attachment → Except Stop Reading
  | none => .ok (readBare [] rule)
  | some (.joined text) => readJoined e [] rule text.toList
  | some (.assigned text) => readAssigned [] rule text

namespace Progress

/-- The start of a command line. -/
def start : Progress := ⟨.none, false, false, [], none⟩

/-- Leaves a word over. -/
def leave (p : Progress) (text : String) : Progress := { p with justNamed := false, left := p.left ++ [text] }

/-- Reads a word with options. -/
def option (e : Edition) (p : Progress) (rule : OptionRule) (attached : Option Attachment) : Except Stop Progress := do
  let r ← readAttached e rule attached
  let p := { p with justNamed := false }
  match r.ending with
  | .waits last => return { p with waiting := some (r.flags, last) }
  | .nothing => return { p with options := ← r.flags.foldlM applyFlag p.options }
  | .value last text => return { p with options := ← applyValue e (← r.flags.foldlM applyFlag p.options) last text }
  | .leaves text => return { p with options := ← r.flags.foldlM applyFlag p.options }.leave text

/-- Reads a word that is not an option: the name, or something that nothing is found for. -/
def plain (p : Progress) (text : String) : Progress :=
  if p.named then p.leave text
  else { p with options := { p.options with name := text }, named := true, justNamed := true }

/-- Reads the divider.  It is dropped beside the name; `next` is the word after it. -/
def divider (p : Progress) (next : Option Word) : Progress :=
  let besideName := p.justNamed || (!p.named && match next with
    | some (.plain _) => true
    | _ => false)
  if besideName then { p with justNamed := false } else p.leave "--"

/-- Reads the value of the option that waits for it. -/
def value (e : Edition) (p : Progress) (flags : List OptionRule) (rule : OptionRule) : Word → Except Stop Progress
  | .plain v => do
    let options ← flags.foldlM applyFlag p.options
    return { p with options := ← applyValue e options rule v, waiting := none }
  | _ => throw (.refused (.noValue rule.label))

/-- Reads the remaining words. -/
def read (e : Edition) (p : Progress) : List Word → Except Stop Progress
  | [] => match p.waiting with
    | some (_, rule) => .error (.refused (.noValue rule.label))
    | none => .ok p
  | w :: ws => do
    match p.waiting with
    | some (flags, rule) => (← p.value e flags rule w).read e ws
    | none =>
      match w with
      | .plain text => (p.plain text).read e ws
      | .divider => (p.divider ws.head?).read e ws
      | .stranger text => (p.leave text).read e ws
      | .option rule attached => (← p.option e rule attached).read e ws

end Progress

/-- Reads a command line. -/
def parse (e : Edition) (words : List String) : Except Stop Options := do
  match sortWords e words with
  | .error fault => throw (.refused fault)
  | .ok sorted =>
    let p ← Progress.start.read e sorted
    if !p.named then throw (.refused .noName)
    else if !p.left.isEmpty then throw (.refused (.leftOver p.left))
    else return p.options

end CrudScaffold.CommandLine
