import JokerRun.Scoring.Discard
import JokerRun.Stored.Hand

/-
  The stored forms of the results of plays and discards.

  Key definitions include:
    * `PlaySummary.stored` and `PlaySummary.ofStored?`
    * `DiscardSummary.stored` and `DiscardSummary.ofStored?`
-/

------------------------------------------------------------
-- Plays
------------------------------------------------------------

namespace JokerRun

/- The stored form of lines. -/
def Json.ofLines
    (ls : List String) : Json :=
  .array (ls.map .string)

namespace PlaySummary

/- The fields of a stored result. -/
def storedFields
    (s : PlaySummary) : Json.Fields :=
  [("hand", s.hand.stored),
    ("final_chips", .whole s.chips),
    ("final_mult", .whole s.mult),
    ("final_score", .whole s.score),
    ("trigger_log", .ofLines s.log)]

/- The stored form of a result. -/
def stored
    (s : PlaySummary) : Json :=
  .object s.storedFields

/- The result of a stored form. -/
def ofStored?
    (v : Json) : Option PlaySummary := do
  let fs ←
    v.fields?
      ["hand", "final_chips", "final_mult", "final_score",
        "trigger_log"]
  let hand ← fs.required "hand" HandResult.ofStored?
  let chips ← fs.required "final_chips" Json.amount?
  let mult ← fs.required "final_mult" Json.amount?
  let score ← fs.required "final_score" Json.amount?
  let log ← fs.required "trigger_log" (Json.list? Json.text?)
  return ⟨hand, chips, mult, score, log⟩

end PlaySummary

------------------------------------------------------------
-- Discards
------------------------------------------------------------

namespace DiscardSummary

/- The stored form of a result. -/
def stored
    (s : DiscardSummary) : Json :=
  .object
    [("dollars_gained", .whole s.dollars),
      ("chips_gained", .whole s.chips),
      ("mult_gained", .whole s.mult),
      ("trigger_log", .ofLines s.log)]

/- The result of a stored form. -/
def ofStored?
    (v : Json) : Option DiscardSummary := do
  let fs ←
    v.fields?
      ["dollars_gained", "chips_gained", "mult_gained",
        "trigger_log"]
  let dollars ← fs.required "dollars_gained" Json.amount?
  let chips ← fs.required "chips_gained" Json.amount?
  let mult ← fs.required "mult_gained" Json.amount?
  let log ← fs.required "trigger_log" (Json.list? Json.text?)
  return ⟨dollars, chips, mult, log⟩

end DiscardSummary

end JokerRun
