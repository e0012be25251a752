import JokerRun.Text.Blank
import JokerRun.Text.Numeral

/-
  The options of the command line.

  The arguments are first divided into items, an option that
  takes a value together with the argument after it.  Then
  the items take effect in order.

  Key definitions include:
    * `Options`
    * `Item`
    * `Item.ofArguments`
    * `OptionError`
    * `Options.apply`
    * `Options.parse`
-/

------------------------------------------------------------
-- Options
------------------------------------------------------------

namespace JokerRun

/- What the program is asked to do. -/
inductive Command where
  | score
  | run
  | help
deriving DecidableEq, Repr

/- The name of a command. -/
def Command.name : Command → String
  | .score => "Score"
  | .run => "Run"
  | .help => "Help"

/- A command with its options. -/
structure Options where
  command : Command
  cards : Option String
  held : Option String
  jokers : List String
  assets : String
  seed : Nat
  json : Bool
  verbose : Bool
deriving DecidableEq, Repr

/- The options without any argument. -/
def Options.standard : Options where
  command := .help
  cards := none
  held := none
  jokers := []
  assets := "assets"
  seed := 0xc0ffee
  json := false
  verbose := false

------------------------------------------------------------
-- Items
------------------------------------------------------------

/- An option that takes a value. -/
inductive Setting where
  | held
  | assets
  | jokers
  | seed
deriving DecidableEq, Repr

/- The word of an option. -/
def Setting.word : Setting → String
  | .held => "--held"
  | .assets => "--assets"
  | .jokers => "--jokers"
  | .seed => "--seed"

/- One part of the command line. -/
inductive Item where
  | command (c : Command)
  | json
  | verbose
  | setting (s : Setting) (value : String)
  | unset (s : Setting)
  | unknown (word : String)
  | plain (word : String)
deriving DecidableEq, Repr

namespace Item

/- The option with a value that a word names. -/
def setting? : String → Option Setting
  | "--held" => some .held
  | "--assets" => some .assets
  | "--jokers" => some .jokers
  | "--seed" => some .seed
  | _ => none

/- The item of a word that takes no value. -/
def ofWord : String → Item
  | "score" => .command .score
  | "run" => .command .run
  | "help" => .command .help
  | "--help" => .command .help
  | "-h" => .command .help
  | "--json" => .json
  | "--verbose" => .verbose
  | "-v" => .verbose
  | w => if w.toList.head? = some '-' then .unknown w
      else .plain w

/- The items of the arguments, in order. -/
def ofArguments : List String → List Item
  | [] => []
  | [w] =>
      match setting? w with
      | some s => [.unset s]
      | none => [ofWord w]
  | w :: v :: ws =>
      match setting? w with
      | some s => .setting s v :: ofArguments ws
      | none => ofWord w :: ofArguments (v :: ws)

end Item

------------------------------------------------------------
-- Parsing
------------------------------------------------------------

/- Why the arguments make no options. -/
inductive OptionError where
  | missingValue (s : Setting)
  | badSeed (value : String) (fault : Numeral.Fault)
  | unknownOption (word : String)
  | unexpected (word : String)
deriving DecidableEq, Repr

/- The wording of a fault. -/
def OptionError.message : OptionError → String
  | .missingValue s => s!"{s.word} needs a value"
  | .badSeed value fault =>
      s!"invalid seed '{value}': {fault.message}"
  | .unknownOption w => s!"unknown option {w}"
  | .unexpected w => s!"unexpected argument '{w}'"

namespace Options

/- The identifiers of a list between commas. -/
def listed
    (value : String) : List String :=
  (((Text.cut (· == ',') value.toList).map Text.trim).filter
    fun w => !w.isEmpty).map String.ofList

/- The options with a setting made. -/
def set
    (o : Options)
    (value : String) : Setting → Except OptionError Options
  | .held => .ok { o with held := some value }
  | .assets => .ok { o with assets := value }
  | .jokers => .ok { o with jokers := listed value }
  | .seed =>
      match Numeral.read Numeral.largest64 value.toList with
      | .error fault => .error (.badSeed value fault)
      | .ok n => .ok { o with seed := n }

/- The options after one more item. -/
def apply
    (o : Options) : Item → Except OptionError Options
  | .command c => .ok { o with command := c }
  | .json => .ok { o with json := true }
  | .verbose => .ok { o with verbose := true }
  | .setting s value => o.set value s
  | .unset s => .error (.missingValue s)
  | .unknown w => .error (.unknownOption w)
  | .plain w =>
      if o.command = .score ∧ o.cards = none then
        .ok { o with cards := some w }
      else
        .error (.unexpected w)

/- The options after items in order. -/
def applyAll : Options → List Item → Except OptionError Options
  | o, [] => .ok o
  | o, i :: is =>
      match o.apply i with
      | .error e => .error e
      | .ok o => applyAll o is

/- The options of the arguments. -/
def parse
    (args : List String) : Except OptionError Options :=
  applyAll standard (Item.ofArguments args)

end Options

end JokerRun
