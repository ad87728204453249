/-
# Logging

Where events go is set up once (`init_logging`): the first subscriber stays, and setting up
another one later changes nothing and says so.
-/

namespace RoundChange

/-- How a log is written. -/
inductive LogFormat where
  | pretty
  | json
deriving DecidableEq

namespace LogFormat

/-- A letter of the ASCII alphabet in lower case; every other character as it is. -/
def lower (c : Char) : Char := if 65 ≤ c.toNat ∧ c.toNat ≤ 90 then Char.ofNat (c.toNat + 32) else c

/-- The format of a name, in letters of either case; a name that is not known is
taken for `pretty`.  No letter outside ASCII has one of `json` as its lower case. -/
def ofName (name : List Char) : LogFormat :=
  if name.map lower = ['j', 's', 'o', 'n'] then json else pretty

/-- The name of a format. -/
def name : LogFormat → String
  | pretty => "Pretty"
  | json => "Json"

/-- Letters of either case are read, and nothing is trimmed. -/
example : ofName ['J', 's', 'O', 'N'] = json ∧ ofName ['j', 's', 'o', 'n', ' '] = pretty := by
  decide

end LogFormat

/-- What was set up to receive events: the level it starts from, and its format. -/
structure Subscriber where
  level : List Char
  format : LogFormat
deriving DecidableEq

/-- Sets up a subscriber, unless one is there; whether it was set up, and the one that
is there now. -/
def Subscriber.install (s : Subscriber) : Option Subscriber → Bool × Subscriber
  | none => (true, s)
  | some installed => (false, installed)

end RoundChange
