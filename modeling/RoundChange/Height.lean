/-
# Heights

What is fixed while one block is agreed upon.  A `HeightConfig` is what a driver hands over, a
`RoundChangeConfig`: the height and a list of validators, which must name at least one and none
twice (`HeightConfig.check`, its `validate`).  A `HeightContext` is what the votes of the
height are judged by: the set of validators, and how many prepares a prepared certificate
needs.
-/

import RoundChange.Label
import RoundChange.Quorum
import RoundChange.ValidatorSet

namespace RoundChange

/-- A height and the list of its validators: a `RoundChangeConfig`. -/
structure HeightConfig where
  height : UInt64
  validators : List Address
deriving DecidableEq

/-- Why a configuration is refused. -/
inductive ConfigError where
  | noValidators
  | repeated (validator : Address)
deriving DecidableEq

/-- The wording of a configuration error. -/
def ConfigError.message : ConfigError → String
  | noValidators => "validator set is empty"
  | repeated validator => "duplicate validator in set: " ++ validator.text

namespace HeightConfig

/-- The names of a configuration and its fields. -/
def label : Label := ⟨"RoundChangeConfig", ["sequence_number", "validators"]⟩

/-- The first address that is among those seen or earlier in the list. -/
def firstRepeat? : List Address → List Address → Option Address
  | _, [] => none
  | seen, a :: rest => if a ∈ seen then some a else firstRepeat? (a :: seen) rest

/-- Refuses a configuration without validators, and one that names a validator twice. -/
def check (c : HeightConfig) : Except ConfigError Unit :=
  if c.validators.length < Quorum.leastValidators then .error .noValidators
  else match firstRepeat? [] c.validators with
    | some a => .error (.repeated a)
    | none => .ok ()

/-- **A configuration without validators is refused.** -/
theorem check_of_nil {c : HeightConfig} (h : c.validators = []) :
    c.check = .error .noValidators := by
  simp [check, h, Quorum.leastValidators]

end HeightConfig

/-- What the votes of a height are judged by. -/
structure HeightContext where
  height : UInt64
  validators : ValidatorSet
  requiredPrepares : Nat
deriving DecidableEq

namespace HeightContext

/-- The names of a context and its fields. -/
def label : Label :=
  ⟨"HeightContext", ["sequence_number", "validators", "required_prepare_count"]⟩

/-- The context of a height with these validators: a quorum counts each of them
once, however often it is listed. -/
def ofValidators (height : UInt64) (validators : List Address) : HeightContext :=
  let set := ValidatorSet.ofList validators
  ⟨height, set, Quorum.prepares (Quorum.size set.size)⟩

/-- **The validators of a context are the ones listed.** -/
@[simp] theorem mem_ofValidators {height : UInt64} {validators : List Address} {a : Address} :
    a ∈ (ofValidators height validators).validators ↔ a ∈ validators :=
  ValidatorSet.mem_ofList

end HeightContext
end RoundChange
