import IdlDocs.CommandLine.Items
import IdlDocs.Pages.Request

/-!
# Invocations

An **invocation** says what the program is asked to do.  The items of a command line
are checked in their order, so the first fault is the one that is answered; which
options go together is looked at after that.

* `firstFault?`: the first fault of some items.
* `taskOf`: what a command is asked to do by its items.
* `Invocation.parse`: **the invocation of a command line.**
-/

namespace IdlDocs.CommandLine

/-! ## Items on their own -/

/-- Tells whether an option is among some items. -/
def isNamed (items : List Item) (n : OptionName) : Bool := items.any (·.name? == some n)

def valueOf? (items : List Item) (n : OptionName) : Option String :=
  items.findSome? fun
    | .value m text _ => if m == n then some text else none
    | _ => none

def wordOf? (items : List Item) : Option String :=
  items.findSome? fun
    | .word text => some text
    | _ => none

/-- The fault of an item that stands behind others: an option is given once, and with a
value that it can have. -/
def Item.fault? (earlier : List Item) : Item → Option Usage
  | word _ => none
  | question u => some u
  | bare _ => some .invalidValue
  | mark n => if isNamed earlier n then some .conflict else none
  | value n text _ =>
    if isNamed earlier n then some .conflict
    else if n.isPath && text == "" then some .invalidValue
    else none

def firstFault? (earlier : List Item) : List Item → Option Usage
  | [] => none
  | i :: is => (i.fault? earlier).or (firstFault? (earlier ++ [i]) is)

/-- The items that are looked at before the reading ends: all of them but an open one at
the end. -/
def settled (items : List Item) : List Item :=
  if items.getLast?.any Item.isOpen then items.dropLast else items

def check (items : List Item) : Except Usage Unit :=
  match firstFault? [] items with
  | some u => .error u
  | none => .ok ()

/-! ## What a command is asked to do -/

/-- What the program is asked to do. -/
inductive Task
  /-- Writes a page, or all pages of its interface; to the output of the program if
  there is no directory. -/
  | generate (request : Request) (recursive : Bool) (output templates : Option String)
  | list (interface : String)
  | groups
deriving DecidableEq

/-- The options that say which pages are wanted.  They exclude one another. -/
def selecting : List OptionName := [.member, .constructor, .event, .recursive]

def selectorOf (items : List Item) : Selector :=
  match valueOf? items .member with
  | some name => .member name (isNamed items .static)
  | none =>
    if isNamed items .constructor then .constructor
    else match valueOf? items .event with
      | some name => .event name
      | none => .overview

def requestOf (interface : String) (items : List Item) : Request where
  interface := interface
  selector := selectorOf items
  group := valueOf? items .group
  experimental := isNamed items .experimental

def exclude (items : List Item) : Bool := 2 ≤ (selecting.filter (isNamed items)).length

/-- Tells whether the member is missing that an option is about. -/
def lacksMember (items : List Item) : Bool :=
  isNamed items .static && !selecting.any (isNamed items)

/-- What a command is asked to do by its items.  That options exclude one another is
found before that something is missing. -/
def taskOf (c : CommandName) (items : List Item) : Except Usage Task := do
  if exclude items then throw .conflict
  match c, wordOf? items with
  | .groups, _ => return .groups
  | .list, some interface => return .list interface
  | .generate, some interface =>
    if lacksMember items then throw .missingArgument
    return .generate (requestOf interface items) (isNamed items .recursive)
      (valueOf? items .output) (valueOf? items .templates)
  | .list, none | .generate, none => throw .missingArgument

def readTask (c : CommandName) (arguments : List String) : Except Usage (Task × List Item) := do
  let r := read (.command c) c.takesInterface arguments
  match r.ending with
  | .done =>
    check r.items
    return (← taskOf c r.items, r.items)
  | .stopped u => do
    check (settled r.items)
    throw u
  | .command _ _ => throw .unknownCommand

/-! ## Command lines -/

/-- What the program is asked to do, and with which settings. -/
structure Invocation where
  /-- The file of the settings. -/
  config : Option String
  /-- The directory with a copy of the documents. -/
  mirror : Option String
  task : Task
deriving DecidableEq

def withoutCommand (items : List Item) : Usage :=
  if items.isEmpty then .nothingGiven else .missingCommand

/-- The invocation of a command line.  A global option behind the command counts more than
the one before it. -/
def Invocation.parse (arguments : List String) : Except Usage Invocation := do
  let r := read .program false arguments
  match r.ending with
  | .done =>
    check r.items
    throw (withoutCommand r.items)
  | .stopped u =>
    check (settled r.items)
    throw u
  | .command c behind =>
    check (settled r.items)
    let (task, items) ← readTask c behind
    check r.items
    return {
      config := (valueOf? items .config).or (valueOf? r.items .config)
      mirror := (valueOf? items .mirror).or (valueOf? r.items .mirror)
      task }

end IdlDocs.CommandLine
