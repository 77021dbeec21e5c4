import Finiex.Lib.Dict
import Mathlib.Data.List.Sort
import Mathlib.Data.Rat.Defs
import Mathlib.Data.String.Basic

namespace Finiex.SweepGrid

open Finiex.Lib

section Config

inductive Json
  | null
  | bool (value : Bool)
  | number (value : ℚ)
  | text (value : String)
  | list (items : List Json)
  | object (fields : List (String × Json))

abbrev StrategyConfig := List (String × Json)

def getField (config : StrategyConfig) (key : String) : Option Json :=
  (config.find? fun entry => entry.1 = key).map Prod.snd

def splitPath (path : String) : List String :=
  (path.toList.splitOn '.').map String.ofList

def setByPath (target : StrategyConfig) : List String → Json → StrategyConfig
  | [], _ => target
  | [key], value => Dict.setEntries key value target
  | key :: keys, value =>
      let node := match getField target key with
        | some (.object fields) => fields
        | _ => []
      Dict.setEntries key (.object (setByPath node keys value)) target

/-- One combination of a grid: a value for each path. -/
abbrev Combination := List (String × Json)

/-- The values of a combination, written into a strategy configuration. -/
def overridden (combo : Combination) (config : StrategyConfig) : StrategyConfig :=
  combo.foldl (fun config entry => setByPath config (splitPath entry.1) entry.2) config

end Config

section Grid

abbrev Grid := List (String × List Json)

def checkPathShape (path : String) : Except String Unit :=
  let parts := splitPath path
  if parts.head? = some "decision_logic_config" then
    if parts.length < 2 then
      .error ("Grid path '" ++ path ++ "' must be 'decision_logic_config.<param>[.<sub>…]'")
    else .ok ()
  else if parts.head? = some "workers" then
    if parts.length < 3 then
      .error ("Grid path '" ++ path ++ "' must be 'workers.<instance>.<param>[.<sub>…]'")
    else .ok ()
  else
    .error ("Grid path '" ++ path ++
      "' must start with 'decision_logic_config.' or 'workers.<instance>.'")

def validateSweepGrid : Grid → Except String Unit
  | [] => .ok ()
  | (path, values) :: grid =>
      if values.isEmpty then
        .error ("Grid path '" ++ path ++ "' must map to a non-empty list of values")
      else do
        checkPathShape path
        validateSweepGrid grid

/-- The product of the values of each path; those of the last path vary first. -/
def product : Grid → List Combination
  | [] => [[]]
  | (path, values) :: grid =>
      values.flatMap fun value => (product grid).map fun combo => (path, value) :: combo

def expandGrid (grid : Grid) : List Combination :=
  product (grid.insertionSort fun entry later => entry.1 ≤ later.1)

theorem getField_setEntries_of_ne {config : StrategyConfig} {key other : String} (value : Json)
    (hne : other ≠ key) : getField (Dict.setEntries key value config) other =
      getField config other := by
  induction config with
  | nil => simp [getField, Dict.setEntries, Ne.symm hne]
  | cons entry config ih =>
      rw [Dict.setEntries]
      split
      · next heq => simp [getField, heq, Ne.symm hne]
      · by_cases hentry : entry.1 = other
        · simp [getField, hentry]
        · simpa [getField, hentry] using ih

end Grid

section Parameters

/-- The parameter schemas of the components that can be resolved: of a decision logic, and of a
worker of a decision logic. -/
structure Schemas where
  logic : String → Option (Json → Bool)
  worker : String → String → Option (Json → Bool)

def textAt (config : StrategyConfig) (key : String) : String :=
  match getField config key with
  | some (.text value) => value
  | _ => ""

def objectAt (config : StrategyConfig) (key : String) : StrategyConfig :=
  match getField config key with
  | some (.object fields) => fields
  | _ => []

def workerSchema (schemas : Schemas) (logicType : String) : Json → Option (Json → Bool)
  | .text workerType => schemas.worker logicType workerType
  | _ => none

/-- `_collect_parameter_errors` finds none. What cannot be resolved is not checked. -/
def parametersValid (schemas : Schemas) (config : StrategyConfig) : Bool :=
  let logicType := textAt config "decision_logic_type"
  decide (logicType = "") || match schemas.logic logicType with
    | none => true
    | some accepts =>
        accepts ((getField config "decision_logic_config").getD (.object [])) &&
          (objectAt config "worker_instances").all fun (name, workerType) =>
            match workerSchema schemas logicType workerType with
            | none => true
            | some accepts => accepts ((getField (objectAt config "workers") name).getD (.object []))

end Parameters

end Finiex.SweepGrid
