import TexBundle.Text.Basic

/-!
# Arguments of the command line

`--root DIR`, `--config FILE` and `-v` may stand before or behind the command; each option once on
either side, and behind the command it counts more. A value follows its option as the next argument,
which must not look like an option, or behind `=`. Behind `--` there are only words.

* `Item.ofArguments?`: arguments as words and options;
* `Invocation.ofArguments?`: what they ask for, unless they are wrong.
-/

namespace TexBundle.CommandLine

/-- What is asked for about a document. -/
inductive Command where
  | flatten
  | references
  | package (out : Text)
  | resolve (request : Text) (output : Option Text)
deriving DecidableEq, Repr

structure Invocation where
  root : Text
  settings : Option Text
  document : Text
  command : Command
deriving DecidableEq, Repr

/-- A part of the command line. A literal word stands behind `--`. -/
inductive Item where
  | word (t : Text)
  | literal (t : Text)
  | verbose
  | option (name value : Text)
deriving DecidableEq, Repr

namespace Item

/-- The options that have a value. -/
def valued : List Text := ["root", "config", "out", "output"]

/-- Whether an argument can be a word or a value. A dash alone can. -/
def isWord (arg : Text) : Bool := arg.head? != some '-' || arg == ['-']

/-- An option with its value. The values are file names, which must not be empty. -/
def option? (name value : Text) : Option Item :=
  if name ∈ valued ∧ value ≠ [] then some (option name value) else none

/-- The arguments as items; none if some argument is neither a word nor a known option. -/
def ofArguments? : List Text → Option (List Item)
  | [] => some []
  | ['-', '-'] :: args => some (args.map literal)
  | ('-' :: '-' :: long) :: args =>
    if long = "verbose" then (ofArguments? args).map (verbose :: ·)
    else match Text.breakAt? '=' long with
      | some (name, value) => do return (← option? name value) :: (← ofArguments? args)
      | none =>
        match args with
        | value :: args =>
          if isWord value then do return (← option? long value) :: (← ofArguments? args) else none
        | [] => none
  | arg :: args =>
    if isWord arg then (ofArguments? args).map (word arg :: ·)
    else if arg.tail.all (· == 'v') then (ofArguments? args).map (verbose :: ·)
    else none

def words (items : List Item) : List Text :=
  items.filterMap fun
    | word t | literal t => some t
    | _ => none

def options (items : List Item) : List (Text × Text) :=
  items.filterMap fun
    | option name value => some (name, value)
    | _ => none

/-- The items before the first word, the word, and those behind it. -/
def splitAtWord? : List Item → Option (List Item × Text × List Item)
  | [] => none
  | word t :: items => some ([], t, items)
  | literal _ :: _ => none
  | item :: items => (splitAtWord? items).map fun (before, t, behind) => (item :: before, t, behind)

end Item

/-- The options that every command has. -/
def globalOptions : List Text := ["root", "config"]

/-- Whether there are only these options, each at most once. -/
def admits (known : List Text) (given : List (Text × Text)) : Bool :=
  given.all (known.contains ·.1) && decide (given.map (·.1)).Nodup

/-- What a command asks for, given its words and its own options, and the further options it may
have. -/
def Command.read? (name : Text) (words : List Text) (given : List (Text × Text)) :
    Option (Text × Command × List Text) :=
  if name = "flatten" then
    match words with
    | [document] => some (document, flatten, [])
    | _ => none
  else if name = "references" then
    match words with
    | [document] => some (document, references, [])
    | _ => none
  else if name = "package" then
    match words, given.lookup ("out" : Text) with
    | [document], some out => some (document, package out, ["out"])
    | _, _ => none
  else if name = "resolve" then
    match words with
    | [document, request] =>
      some (document, resolve request (given.lookup ("output" : Text)), ["output"])
    | _ => none
  else none

/-- What the arguments ask for. -/
def Invocation.ofArguments? (args : List Text) : Option Invocation := do
  let (before, name, behind) ← Item.splitAtWord? (← Item.ofArguments? args)
  let outer := Item.options before
  let inner := Item.options behind
  let (document, command, own) ← Command.read? name (Item.words behind) inner
  let value (option : Text) := inner.lookup option <|> outer.lookup option
  if admits globalOptions outer && admits (globalOptions ++ own) inner && !document.isEmpty then
    return ⟨(value "root").getD ".", value "config", document, command⟩
  else none

end TexBundle.CommandLine
