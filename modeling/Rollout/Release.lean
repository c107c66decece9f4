import Rollout.Machine

/-!
# Releases

A release is stamped into the metadata of every machine that it reaches. Stamping overwrites
the release's identity, fills in what older machines may lack, and sets or removes the marker
of managed databases, so only the last stamp shows.
-/

namespace Rollout

structure Release where
  id : ReleaseId
  version : Version
  managedPostgres : Bool := false
  deriving DecidableEq, Repr

/-- The metadata of a machine that the release has reached. -/
def Release.stampMetadata (release : Release) (metadata : Dict String) : Dict String :=
  let stamped :=
    (((metadata.insert releaseIdKey release.id.text).insert
      releaseVersionKey release.version.toText).insertIfNew
        platformVersionKey defaultPlatformVersion).insertIfNew
          processGroupKey defaultProcessGroup
  if release.managedPostgres then stamped.insert managedPostgresKey "true"
  else stamped.erase managedPostgresKey

def Release.stamp (release : Release) (config : Config) : Config :=
  { config with metadata := release.stampMetadata config.metadata }

inductive ReleaseStatus
  | running
  | complete
  | failed
  deriving DecidableEq, Repr

def ReleaseStatus.word : ReleaseStatus → String
  | .running => "running"
  | .complete => "complete"
  | .failed => "failed"

end Rollout
