/-
# Loading a configuration

The configuration of a height is loaded from JSON and checked before it is handed on
(`HeightConfig.load`, which is `RoundChangeConfig::from_json`).
-/

import RoundChange.Json.Message

namespace RoundChange

/-- Why no configuration was loaded. -/
inductive LoadError where
  | unreadable (fault : Json.Fault)
  | refused (error : ConfigError)
deriving DecidableEq

/-- The configuration that a text holds, if it passes its check. -/
def HeightConfig.load (text : List Char) : Except LoadError HeightConfig := do
  let config : HeightConfig ← (JsonForm.decode text).mapError LoadError.unreadable
  config.check.mapError LoadError.refused
  return config

end RoundChange
