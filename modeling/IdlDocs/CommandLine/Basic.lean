/-!
# Commands and options

The program has three **commands**.  Before the command there may be the options of
the program; behind it there are its own ones, the options that are global, and one
word if the command is about an interface.

* `CommandName`, `OptionName`: commands and options, each with the word that it is
  written as.
* `Level`: **which options may be written where.**
* `Usage`: why a command line is answered by a text about its use.
-/

namespace IdlDocs.CommandLine

/-- Why a command line is not run. -/
inductive Usage
  /-- It asks how the program is used. -/
  | help
  /-- It asks for the version of the program. -/
  | version
  /-- It says nothing at all. -/
  | nothingGiven
  | missingCommand
  | unknownCommand
  /-- A word or an option that is needed is missing. -/
  | missingArgument
  /-- There is an option that is not known here, or a word too much. -/
  | unknownArgument
  /-- An option has no value, or one that it cannot have. -/
  | invalidValue
  /-- Two options exclude one another, or one is given twice. -/
  | conflict
  /-- An option that takes no value is given one. -/
  | needlessValue
deriving DecidableEq

/-- The number that the program ends with: it is zero if the text is what has been
asked for. -/
def Usage.exitCode : Usage → Nat
  | help | version => 0
  | _ => 2

inductive CommandName
  /-- Writes the pages of an interface. -/
  | generate
  /-- Lists what can be looked up on an interface. -/
  | list
  /-- Lists the groups. -/
  | groups
deriving DecidableEq

namespace CommandName

def toWord : CommandName → String
  | generate => "generate"
  | list => "list"
  | groups => "groups"

def all : List CommandName := [generate, list, groups]

def ofWord? (w : String) : Option CommandName := all.find? (·.toWord == w)

def takesInterface : CommandName → Bool
  | generate | list => true
  | groups => false

end CommandName

inductive OptionName
  /-- The file of the settings. -/
  | config
  /-- The directory with a copy of the documents. -/
  | mirror
  /-- The member that the page is about. -/
  | member
  /-- The member is static. -/
  | static
  /-- The page is about the constructor. -/
  | constructor
  /-- The event that the page is about. -/
  | event
  /-- The group that the page names. -/
  | group
  /-- The pages say that the interface is experimental. -/
  | experimental
  /-- All pages of the interface are wanted. -/
  | recursive
  /-- The directory of the pages. -/
  | output
  /-- The directory of the templates. -/
  | templates
deriving DecidableEq

namespace OptionName

def toWord : OptionName → String
  | config => "config"
  | mirror => "mirror"
  | member => "member"
  | static => "static"
  | constructor => "constructor"
  | event => "event"
  | group => "group"
  | experimental => "experimental"
  | recursive => "recursive"
  | output => "output"
  | templates => "templates"

def takesValue : OptionName → Bool
  | static | constructor | experimental | recursive => false
  | config | mirror | member | event | group | output | templates => true

/-- Tells whether the value of an option is a path, which is not empty. -/
def isPath : OptionName → Bool
  | config | mirror | output | templates => true
  | member | static | constructor | event | group | experimental | recursive => false

def letter? : OptionName → Option Char
  | output => some 'o'
  | _ => none

def global : List OptionName := [config, mirror]

/-- The options of a single command. -/
def own : CommandName → List OptionName
  | .generate =>
    [member, static, constructor, event, group, experimental, recursive, output, templates]
  | .list | .groups => []

end OptionName

/-- The two places of arguments: before the command, and behind it. -/
inductive Level
  | program
  | command (name : CommandName)
deriving DecidableEq

namespace Level

/-- The options that may be written at a place. -/
def options : Level → List OptionName
  | program => OptionName.global
  | command c => OptionName.own c ++ OptionName.global

def ofWord? (l : Level) (w : String) : Option OptionName := l.options.find? (·.toWord == w)

def ofLetter? (l : Level) (c : Char) : Option OptionName :=
  l.options.find? (·.letter? == some c)

def questions : Level → List (String × Char × Usage)
  | program => [("help", 'h', .help), ("version", 'V', .version)]
  | command _ => [("help", 'h', .help)]

/-- Tells whether a word, the name of an interface, may be written at a place. -/
def takesInterface : Level → Bool
  | program => false
  | command c => c.takesInterface

end Level

end IdlDocs.CommandLine
