/-
# Events

What `RoundChangeManager` and `RoundChangeMessageValidator` report while votes are counted.  An
event is data; its level, its message and its fields are read off it, and `Event.line` is the
line that a log shows.
-/

import RoundChange.Acceptance
import RoundChange.Tally

namespace RoundChange

/-- How much an event matters. -/
inductive Level where
  | debug
  | info
  | warn
deriving DecidableEq

/-- What is reported. -/
inductive Event where
  /-- Counting starts at a height. -/
  | created (height : UInt64) (validators quorum : Nat)
  /-- A check of a vote failed. -/
  | refused (reason : Rejection)
  /-- A vote was not counted. -/
  | invalid (author : Address) (round : Round)
  /-- A vote was counted, or was not needed any more. -/
  | stored (round : Round) (count need : Nat) (minted : Bool)
  /-- A vote made up the quorum. -/
  | reached (round : Round) (votes : Nat)
  /-- A tally was ready, and yet no certificate came of it. -/
  | notMinted (round : Round) (error : NotReady)
  /-- A round of another height was named when rounds were discarded. -/
  | otherHeight (expected got : UInt64)
  /-- Rounds were discarded. -/
  | discarded (before : Round) (count remaining : Nat)
deriving DecidableEq

/-- The name of a level. -/
def Level.text : Level → String
  | debug => "DEBUG"
  | info => "INFO"
  | warn => "WARN"

namespace Rejection

/-- A signature that does not pass points at a faulty peer; any other vote may merely
be late. -/
def level : Rejection → Level
  | voteSignature .. | prepareSignature .. => .warn
  | _ => .debug

/-- The message of a rejection. -/
def message : Rejection → String
  | notValidator .. => "round change from non-validator"
  | otherHeight .. => "round change targets another height"
  | voteSignature .. => "round change signature does not verify"
  | preparedHeight .. => "prepared certificate is for another height"
  | preparedRound .. => "prepared certificate is not from an earlier round"
  | tooFewPrepares .. => "prepared certificate has too few prepares"
  | prepareRepeated .. => "duplicate prepare in prepared certificate"
  | prepareNotValidator .. => "prepare from non-validator"
  | prepareMismatch .. => "prepare does not match prepared proposal"
  | prepareSignature .. => "prepare signature does not verify"

/-- The fields of a rejection. -/
def fields : Rejection → List (String × String)
  | notValidator author | prepareRepeated author | prepareNotValidator author
  | prepareMismatch author | prepareSignature author => [("author", author.text)]
  | otherHeight author expected got =>
    [("author", author.text), ("expected", toString expected.toNat), ("got", toString got.toNat)]
  | voteSignature author round => [("author", author.text), ("round", round.text)]
  | preparedHeight expected got =>
    [("expected", toString expected.toNat), ("got", toString got.toNat)]
  | preparedRound prepared target => [("prepared", prepared.text), ("target", target.text)]
  | tooFewPrepares count need => [("have", toString count), ("need", toString need)]

end Rejection

namespace Event

/-- The level of an event. -/
def level : Event → Level
  | created .. | stored .. | discarded .. => .debug
  | invalid .. | reached .. => .info
  | notMinted .. | otherHeight .. => .warn
  | refused reason => reason.level

/-- The message of an event. -/
def message : Event → String
  | created .. => "round change manager created"
  | refused reason => reason.message
  | invalid .. => "round change message was invalid"
  | stored .. => "round change stored"
  | reached .. => "round change quorum reached"
  | notMinted .. => "round change certificate not minted"
  | otherHeight .. => "discard requested with a round from another height"
  | discarded .. => "discarded stale round changes"

/-- The fields of an event. -/
def fields : Event → List (String × String)
  | created height validators quorum =>
    [("sequence", toString height.toNat), ("validators", toString validators),
     ("quorum", toString quorum)]
  | refused reason => reason.fields
  | invalid author round => [("author", author.text), ("round", round.text)]
  | stored round count need minted =>
    [("round", round.text), ("have", toString count), ("need", toString need),
     ("actioned", toString minted)]
  | reached round votes => [("round", round.text), ("messages", toString votes)]
  | notMinted round error => [("round", round.text), ("error", error.message)]
  | otherHeight expected got =>
    [("expected", toString expected.toNat), ("got", toString got.toNat)]
  | discarded before count remaining =>
    [("prior_to", before.text), ("discarded", toString count),
     ("remaining", toString remaining)]

/-- The line of an event: level, message, and the fields with their values. -/
def line (e : Event) : String :=
  let fields := e.fields.map fun (name, value) => " " ++ name ++ "=" ++ value
  e.level.text ++ " " ++ e.message ++ String.join fields

end Event

/-- What a ruling reports: the reason of a rejection, if it has one. -/
def Ruling.events : Ruling → List Event
  | accepted => []
  | rejected reason => (reason.map Event.refused).toList

end RoundChange
