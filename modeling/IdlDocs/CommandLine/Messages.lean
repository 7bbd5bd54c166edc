import IdlDocs.CommandLine.Run

/-!
# Messages of the program

What the program says about its use, and about what went wrong.

* `Usage.message`: the answer to a command line that is not run.
* `Trouble.message`: why an invocation failed.
-/

namespace IdlDocs.CommandLine

def CommandName.summary : CommandName → String
  | generate => "generate an interface page, a member page, or a whole interface tree"
  | list => "list the documentable members of an interface"
  | groups => "list the API groups"

def OptionName.summary : OptionName → String
  | config => "TOML configuration file"
  | mirror => "local directory to read documents from"
  | member => "document a property or method instead of the interface"
  | static => "the member is static"
  | constructor => "document the constructor"
  | event => "document an event (name without `on` in front)"
  | group => "API group; looked up when omitted"
  | experimental => "mark pages experimental"
  | recursive => "also generate one page per constructor, member and event"
  | output => "output directory (single pages are printed if omitted)"
  | templates => "directory with template overrides"

def padded (width : Nat) (s : String) : String :=
  s ++ String.ofList (List.replicate (width - s.length) ' ')

def CommandName.line (c : CommandName) : String := "  " ++ padded 10 c.toWord ++ c.summary

def OptionName.pattern (n : OptionName) : String :=
  (n.letter?.elim "    " fun c => s!"-{c}, ") ++ "--" ++ n.toWord ++
    (if n.takesValue then " <VALUE>" else "")

def OptionName.line (n : OptionName) : String := "  " ++ padded 26 n.pattern ++ n.summary

def manual : String :=
  let commands := CommandName.all.map CommandName.line
  let options := (OptionName.own .generate ++ OptionName.global).map OptionName.line
  lines (["usage: [OPTIONS] <COMMAND> [INTERFACE]", "", "Commands:"] ++ commands ++
    ["", "Options:"] ++ options)

def Usage.fault? : Usage → Option String
  | help | version => none
  | nothingGiven => some "nothing is given"
  | missingCommand => some "a command is missing"
  | unknownCommand => some "there is no such command"
  | missingArgument => some "an argument is missing"
  | unknownArgument => some "an argument is unknown"
  | invalidValue => some "an option has no valid value"
  | conflict => some "options exclude one another"
  | needlessValue => some "an option takes no value"

/-- The answer to a command line that is not run. -/
def Usage.message (u : Usage) : String :=
  match u, u.fault? with
  | version, _ => lines [({} : Config).userAgent]
  | _, some fault => lines ["error: " ++ fault, ""] ++ manual
  | _, none => manual

/-- Why an invocation failed: the outermost context first, and the cause last. -/
def Trouble.message (e : Trouble) : String :=
  match e.contexts ++ [e.cause.message] with
  | [] => ""
  | [only] => lines ["Error: " ++ only]
  | outer :: causes => lines (["Error: " ++ outer, "", "Caused by:"] ++ causes.map ("    " ++ ·))

end IdlDocs.CommandLine
