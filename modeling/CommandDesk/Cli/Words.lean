import CommandDesk.Text.Cut

/-!
# Words of a command line

The grammar of command lines: commands with subcommands, arguments by position,
and options. An option of one letter follows one hyphen and may share it, an
option with a name follows two. A value stands in the next word or after an
equals sign, and after two hyphens alone every word is an argument.
-/

namespace CommandDesk

namespace Cli

/-- What an option takes, and how often it may be given. -/
inductive Arity where
  /-- No value, at most once. -/
  | switch
  /-- A value, at most once. -/
  | single
  /-- A value, any number of times. -/
  | repeated
  deriving DecidableEq

/-- An option. -/
structure OptionForm where
  name : String
  arity : Arity
  letter : Option Char := none

/-- A command without subcommands. -/
structure Form where
  /-- The words that lead to it. -/
  path : List String
  /-- How many arguments must be given. -/
  required : Nat := 0
  /-- How many more may be given. -/
  optional : Nat := 0
  options : List OptionForm := []

/-- A grammar: the commands, and the options that may be given everywhere. -/
structure Grammar where
  forms : List Form
  common : List OptionForm

/-- The words that have been read. -/
structure Words where
  /-- The subcommands so far. -/
  path : List String := []
  arguments : List String := []
  /-- The options with their values, in order. -/
  options : List (String × String) := []
  /-- The options that were given at this subcommand. -/
  given : List String := []

namespace Words

/-- The values of an option, in order. -/
def values (w : Words) (name : String) : List String :=
  (w.options.filter (·.1 = name)).map (·.2)

/-- The value of an option, the last one given. -/
def value? (w : Words) (name : String) : Option String := (w.values name).getLast?

/-- Whether an option was given. -/
def has (w : Words) (name : String) : Bool := w.options.any (·.1 = name)

end Words

namespace Grammar

/-- The command at a path. -/
def form? (g : Grammar) (path : List String) : Option Form := g.forms.find? (·.path = path)

/-- Whether more words may follow a path as subcommands. -/
def isGroup (g : Grammar) (path : List String) : Bool :=
  g.forms.any fun f => path.length < f.path.length && f.path.take path.length = path

/-- The options that may be given at a path. -/
def optionsAt (g : Grammar) (path : List String) : List OptionForm :=
  g.common ++ ((g.form? path).map (·.options)).getD []

/-- Take a word that is no option: a subcommand, or an argument. -/
def takeWord (g : Grammar) (w : Words) (a : String) : Option Words :=
  match g.form? w.path with
  | some f =>
    if w.arguments.length < f.required + f.optional then
      some { w with arguments := w.arguments ++ [a] }
    else none
  | none =>
    let path := w.path ++ [a]
    if (g.form? path).isSome || g.isGroup path then some { w with path, given := [] } else none

/-- Take a word after which no options are read: an argument. -/
def takeArgument (g : Grammar) (w : Words) (a : String) : Option Words :=
  if (g.form? w.path).isSome then g.takeWord w a else none

/-- Take an option with its value. -/
def takeOption (w : Words) (o : OptionForm) (value : String) : Option Words :=
  if o.arity ≠ .repeated && w.given.contains o.name then none
  else some { w with options := w.options ++ [(o.name, value)], given := o.name :: w.given }

/-- Take the letters after one hyphen. They stand for switches. -/
def takeLetters (g : Grammar) (w : Words) : List Char → Option Words
  | [] => some w
  | c :: cs => do
    let o ← (g.optionsAt w.path).find? fun o => o.letter = some c && o.arity = .switch
    takeLetters g (← takeOption w o "") cs

/-- Whether a word can be the value of the option before it. -/
def isValue (a : String) : Bool := a = "-" || a.toList.head? ≠ some '-'

/-- Take all words. -/
def takeAll (g : Grammar) (w : Words) : List String → Option Words
  | [] => some w
  | a :: rest =>
    if a = "--" then rest.foldlM (takeArgument g) w
    else if isValue a then (takeWord g w a).bind fun w => takeAll g w rest
    else match a.toList with
      | '-' :: '-' :: body =>
        let (name, given) := match Text.splitFirst? '=' body with
          | some (n, v) => (String.ofList n, some (String.ofList v))
          | none => (String.ofList body, none)
        match (g.optionsAt w.path).find? (·.name = name) with
        | none => none
        | some o =>
          if o.arity = .switch then
            if given.isSome then none else (takeOption w o "").bind fun w => takeAll g w rest
          else match given, rest with
            | some v, rest => (takeOption w o v).bind fun w => takeAll g w rest
            | none, v :: rest =>
              if isValue v then (takeOption w o v).bind fun w => takeAll g w rest else none
            | none, [] => none
      | s => (takeLetters g w (s.drop 1)).bind fun w => takeAll g w rest

/-- Read the words of a command line. -/
def read (g : Grammar) (args : List String) : Option Words := do
  let w ← g.takeAll {} args
  let f ← g.form? w.path
  if w.arguments.length < f.required then none else some w

end Grammar

end Cli

end CommandDesk
