import JokerRun.CommandLine.Lists
import JokerRun.CommandLine.Screen
import JokerRun.Run.Action

/-
  The commands that a player gives during a run.

  Key definitions include:
    * `Complaint`
    * `Reaction`
    * `Run.toggleAll`
    * `Run.selectListed`
    * `Run.execute`
-/

------------------------------------------------------------
-- Reactions
------------------------------------------------------------

namespace JokerRun

/- Why a command is not carried out. -/
inductive Complaint where
  | run (e : RunError)
  | indices (e : IndexList.Fault)
  | unknown (word : String)
deriving DecidableEq, Repr

/- The wording of a complaint. -/
def Complaint.message : Complaint → String
  | .run e => e.message
  | .indices e => e.message
  | .unknown w => s!"unknown command '{w}', try 'help'"

/- What a command leaves. -/
structure Reaction where
  run : Run
  complaint : Option Complaint
  lines : List String
  events : List Event
  notices : List Notice

namespace Reaction

/- A command that only shows something. -/
def showing
    (r : Run)
    (lines : List String) : Reaction :=
  ⟨r, none, lines, [], []⟩

/- A command that is not carried out. -/
def complaining
    (r : Run)
    (c : Complaint) : Reaction :=
  ⟨r, some c, [], [], []⟩

/- The reaction to a turn; its answer decides what is shown. -/
def ofTurn
    {α : Type}
    (t : Turn α)
    (lines : α → List String) : Reaction :=
  match t.answer with
  | .ok a => ⟨t.run, none, lines a, t.events, t.notices⟩
  | .error e =>
      ⟨t.run, some (.run e), [], t.events, t.notices⟩

/- The reaction to positions that are written as one. -/
def withIndex
    (r : Run)
    (args : List String)
    (act : Nat → Reaction) : Reaction :=
  match IndexList.parseOne args with
  | .error e => complaining r (.indices e)
  | .ok i => act i

end Reaction

------------------------------------------------------------
-- Selecting
------------------------------------------------------------

namespace Run

/- Cards toggled in order, up to the first refusal. -/
def toggleAll
    (r : Run) : List Nat → Option RunError × Run
  | [] => (none, r)
  | i :: is =>
      let t := r.toggle i
      match t.answer with
      | .error e => (some e, t.run)
      | .ok _ => t.run.toggleAll is

/- Cards selected in order, up to the first refusal. -/
def selectAll
    (r : Run) : List Nat → Option RunError × Run
  | [] => (none, r)
  | i :: is =>
      if r.selection.contains i then
        r.selectAll is
      else
        let t := r.toggle i
        match t.answer with
        | .error e => (some e, t.run)
        | .ok _ => t.run.selectAll is

/-
  The listed cards selected in place of the earlier ones;
  without a list the selection stays.
-/
def selectListed
    (r : Run)
    (args : List String) : Option Complaint × Run :=
  match args with
  | [] => (none, r)
  | _ :: _ =>
      match IndexList.parse args with
      | .error e => (some (.indices e), r)
      | .ok is =>
          let (e, after) := r.clearSelection.selectAll is
          (e.map .run, after)

------------------------------------------------------------
-- Commands
------------------------------------------------------------

/- Cards toggled by a command. -/
def executeSelect
    (r : Run)
    (args : List String) : Reaction :=
  match IndexList.parse args with
  | .error e => .complaining r (.indices e)
  | .ok is =>
      match r.toggleAll is with
      | (some e, after) => .complaining after (.run e)
      | (none, after) => .showing after (Screen.hand after)

/- A hand played by a command. -/
def executePlay
    (r : Run)
    (args : List String) : Reaction :=
  match r.selectListed args with
  | (some c, after) => .complaining after c
  | (none, after) =>
      let t := after.play
      .ofTurn t fun s =>
        Screen.score s after.selectedCards ++
          if t.run.phase = .play then Screen.hand t.run
          else []

/- Cards discarded by a command. -/
def executeDiscard
    (r : Run)
    (args : List String) : Reaction :=
  match r.selectListed args with
  | (some c, after) => .complaining after c
  | (none, after) =>
      let t := after.discard
      .ofTurn t fun s =>
        s.log.map Screen.logLine ++ Screen.hand t.run

/- An offer bought by a command. -/
def executeBuy
    (r : Run)
    (offer : Nat) : Reaction :=
  let t := r.buy offer
  .ofTurn t fun p =>
    match p with
    | .bought slot => [s!"joker placed in slot {slot}"]
    | .needsReplacement _ =>
        "joker slots full: 'replace <slot>' or 'cancel'" ::
          Screen.jokers t.run

/- A joker replaced by a command. -/
def executeReplace
    (r : Run)
    (slot : Nat) : Reaction :=
  let t := r.replace slot
  .ofTurn t fun _ => Screen.jokers t.run

/- New offers asked for by a command. -/
def executeReroll
    (r : Run) : Reaction :=
  let t := r.reroll
  .ofTurn t fun _ => Screen.shop t.run

/- The next round started by a command. -/
def executeNext
    (r : Run) : Reaction :=
  let t := r.nextRound
  .ofTurn t fun _ => Screen.hand t.run

/- The words that name commands. -/
inductive Verb where
  | help
  | hand
  | status
  | jokers
  | shop
  | select
  | play
  | discard
  | buy
  | replace
  | cancel
  | reroll
  | sell
  | next
deriving DecidableEq, Repr

/- The command that a word names. -/
def Verb.ofWord? : String → Option Verb
  | "help" => some .help
  | "h" => some .help
  | "?" => some .help
  | "hand" => some .hand
  | "status" => some .status
  | "s" => some .status
  | "jokers" => some .jokers
  | "j" => some .jokers
  | "shop" => some .shop
  | "sel" => some .select
  | "select" => some .select
  | "play" => some .play
  | "p" => some .play
  | "discard" => some .discard
  | "d" => some .discard
  | "buy" => some .buy
  | "replace" => some .replace
  | "cancel" => some .cancel
  | "reroll" => some .reroll
  | "r" => some .reroll
  | "sell" => some .sell
  | "next" => some .next
  | "n" => some .next
  | _ => none

/- The reaction to a command. -/
def executeVerb
    (r : Run)
    (args : List String) : Verb → Reaction
  | .help => .showing r Screen.help
  | .hand => .showing r (Screen.hand r)
  | .status => .showing r (Screen.status r)
  | .jokers => .showing r (Screen.jokers r)
  | .shop => .showing r (Screen.shop r)
  | .select => r.executeSelect args
  | .play => r.executePlay args
  | .discard => r.executeDiscard args
  | .buy => .withIndex r args r.executeBuy
  | .replace => .withIndex r args r.executeReplace
  | .cancel =>
      .showing r.cancelPurchase ["purchase cancelled"]
  | .reroll => r.executeReroll
  | .sell =>
      .withIndex r args fun i =>
        .ofTurn (r.sell i) fun _ => []
  | .next => r.executeNext

/- The reaction to a word with arguments. -/
def execute
    (r : Run)
    (word : String)
    (args : List String) : Reaction :=
  match Verb.ofWord? word with
  | some v => r.executeVerb args v
  | none => .complaining r (.unknown word)

end Run

end JokerRun
