import Rollout.Plan

/-!
# Fixtures

A small fleet of started machines for rehearsals, and a deployment of a second release to it.
-/

namespace Rollout.Rehearsal

inductive FixtureError
  | badMachineId (text : String) (cause : IdError)
  | badVolumeId (text : String) (cause : IdError)
  deriving DecidableEq, Repr

def FixtureError.message : FixtureError → String
  | .badMachineId text cause => "bad machine id " ++ text ++ ": " ++ cause.message
  | .badVolumeId text cause => "bad volume id " ++ text ++ ": " ++ cause.message

def machineId (text : String) : Except FixtureError MachineId :=
  (Id.parse .machine text).mapError (.badMachineId text)

def volumeId (text : String) : Except FixtureError VolumeId :=
  (Id.parse .volume text).mapError (.badVolumeId text)

def fixtureConfig (group : String) : Config where
  image := "registry.example.com/demo:v1"
  metadata := Dict.ofList [(processGroupKey, group)]

def machine (id group : String) : Except FixtureError Machine := do
  let id ← machineId id
  return { id, region := "ord", state := .started, config := fixtureConfig group }

def machineWithMount (id group name path volume : String) : Except FixtureError Machine := do
  let m ← machine id group
  let volume ← volumeId volume
  return { m with config := { m.config with mount := some { name, path, volume } } }

/-- The machine that stands for a fleet of one. -/
def loneMachine : Machine where
  id := ⟨"m_1", idGrammar_of_all (by decide) (by decide)⟩
  region := "ord"
  state := .started
  config := fixtureConfig "app"

/-- Identifiers of two further machines. -/
def secondId : MachineId := ⟨"m_2", idGrammar_of_all (by decide) (by decide)⟩
def thirdId : MachineId := ⟨"m_3", idGrammar_of_all (by decide) (by decide)⟩

def volume (id name : String) : Except FixtureError Volume := do
  let id ← volumeId id
  return { id, name }

def loneVolume (name : String) : Volume where
  id := ⟨"vol_1", idGrammar_of_all (by decide) (by decide)⟩
  name := name

def fixtureRelease : Release where
  id := ⟨"rel_2", idGrammar_of_all (by decide) (by decide)⟩
  version := ⟨2⟩
  managedPostgres := false

def deployment (machines : List Machine) (volumes : List Volume) : Deployment where
  launch :=
    { app := "demo", orgSlug := "personal", image := "registry.example.com/demo:v2",
      release := fixtureRelease }
  machines := machines
  volumes := VolumePool.ofVolumes volumes

end Rollout.Rehearsal
