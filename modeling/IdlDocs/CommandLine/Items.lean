import IdlDocs.CommandLine.Basic
import IdlDocs.Text.Cut

/-!
# Reading arguments

The arguments of a place are read from the left into **items**: words, options with
their values, and questions.  The value of an option stands behind it in the same
argument, as in `--output=pages`, or is the next argument, as in `--output pages`.
Behind the separator `--` there are words only.

* `argument`: what a single argument is.
* `read`: **the items of some arguments**, and how the reading ends.
-/

namespace IdlDocs.CommandLine

/-- What a single argument is. -/
inductive Argument
  /-- The separator, behind which there are words only. -/
  | separator
  | word (text : String)
  /-- An option, with the value that stands in the same argument. -/
  | option (name : OptionName) (value : Option String)
  /-- A question that is answered by a text about the use of the program. -/
  | question (u : Usage)
  /-- An argument that cannot be read here. -/
  | refused (u : Usage)
deriving DecidableEq

def splitValue (body : List Char) : String × Option String :=
  match Text.cutAt ['='] body with
  | some (name, value) => (String.ofList name, some (String.ofList value))
  | none => (String.ofList body, none)

def longArgument (l : Level) (body : List Char) : Argument :=
  let (w, value) := splitValue body
  match l.ofWord? w, l.questions.find? (·.1 == w) with
  | some n, _ => if n.takesValue || value.isNone then .option n value else .refused .needlessValue
  | none, some (_, _, u) => if value.isNone then .question u else .refused .needlessValue
  | none, none => .refused .unknownArgument

/-- The value that stands behind the letter of an option, with or without an equals
sign. -/
def valueBehind : List Char → Option String
  | [] => none
  | '=' :: value => some (String.ofList value)
  | value => some (String.ofList value)

/-- An argument that starts with a dash and a letter.  Of letters that ask a question
the first one is answered. -/
def shortArgument (l : Level) (c : Char) (rest : List Char) : Argument :=
  match l.ofLetter? c, l.questions.find? (·.2.1 == c) with
  | some n, _ => .option n (valueBehind rest)
  | none, some (_, _, u) => .question u
  | none, none => .refused .unknownArgument

/-- What a single argument is.  A dash alone is a word. -/
def argument (l : Level) (a : String) : Argument :=
  match a.toList with
  | ['-', '-'] => .separator
  | '-' :: '-' :: body => longArgument l body
  | '-' :: c :: rest => shortArgument l c rest
  | _ => .word a

inductive Item
  | word (text : String)
  /-- An option that takes no value. -/
  | mark (name : OptionName)
  /-- An option with its value.  It is `separate` if it is an argument of its own. -/
  | value (name : OptionName) (text : String) (separate : Bool)
  /-- An option without the value that it takes. -/
  | bare (name : OptionName)
  | question (u : Usage)
deriving DecidableEq

namespace Item

def name? : Item → Option OptionName
  | mark n | value n _ _ | bare n => some n
  | word _ | question _ => none

/-- Tells whether an item is looked at only when the next one has been read: an option
whose value would be an argument of its own. -/
def isOpen : Item → Bool
  | value _ _ separate => separate
  | bare _ => true
  | word _ | mark _ | question _ => false

end Item

/-- How the reading of arguments ends. -/
inductive Ending
  /-- All arguments have been read. -/
  | done
  /-- There is an argument that is refused, or that asks for help. -/
  | stopped (u : Usage)
  /-- There is a command, with the arguments behind it. -/
  | command (name : CommandName) (arguments : List String)
deriving DecidableEq

/-- The items of some arguments, and how the reading ends. -/
structure Reading where
  items : List Item := []
  ending : Ending := .done
deriving DecidableEq

def Reading.cons (i : Item) (r : Reading) : Reading := { r with items := i :: r.items }

def helpWord : String := "help"

def isCommandWord (w : String) : Bool := (CommandName.ofWord? w).isSome || w == helpWord

/-- The answer to the word that asks for help and the words behind it, which may name one
command. -/
def helpAbout : List String → Usage
  | [] => .help
  | [w] => if isCommandWord w then .help else .unknownCommand
  | _ :: _ :: _ => .unknownCommand

/-- The reading of words behind a separator.  One word fits if there is `room`. -/
def readWords (l : Level) (room : Bool) : List String → Reading
  | [] => {}
  | w :: ws =>
    if room then (readWords l false ws).cons (.word w)
    else
      let known := l == .program && isCommandWord w
      { ending := .stopped (if l == .program && !known then .unknownCommand else .unknownArgument) }

def readCommand (w : String) (behind : List String) : Reading :=
  match CommandName.ofWord? w with
  | some c => { ending := .command c behind }
  | none => { ending := .stopped (if w == helpWord then helpAbout behind else .unknownCommand) }

/-- The reading of arguments.  One word fits if there is `room`. -/
def read (l : Level) (room : Bool) : List String → Reading
  | [] => {}
  | a :: as =>
    match argument l a with
    | .separator => readWords l room as
    | .word w =>
      if room then (read l false as).cons (.word w)
      else if l == .program then readCommand w as
      else { ending := .stopped .unknownArgument }
    | .option n (some v) => (read l room as).cons (.value n v false)
    | .option n none =>
      if n.takesValue then
        match as with
        | [] => { items := [.bare n] }
        | v :: rest =>
          match argument l v with
          | .word v => (read l room rest).cons (.value n v true)
          | _ => (read l room (v :: rest)).cons (.bare n)
      else (read l room as).cons (.mark n)
    | .question u => { items := [.question u] }
    | .refused u => { ending := .stopped u }

end IdlDocs.CommandLine
