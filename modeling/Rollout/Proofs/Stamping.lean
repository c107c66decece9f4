import Rollout.Release
import Rollout.Proofs.DictLaws
import Rollout.Proofs.Numerals

/-!
# Stamps

Five keys of the metadata carry the stamp of a release. Two are overwritten, two are filled in
where they are missing, and one is set or taken out. These rules cancel: of releases that are
stamped on one configuration in turn only the last one shows, and what it is can be read back.
-/

namespace Rollout

def stampedKeys : List String :=
  [releaseIdKey, releaseVersionKey, platformVersionKey, processGroupKey, managedPostgresKey]

namespace Release

theorem find?_stampMetadata (release : Release) (metadata : Dict String) (key : String) :
    (release.stampMetadata metadata).find? key =
      if key = managedPostgresKey then
        if release.managedPostgres then some "true" else none
      else if key = processGroupKey then
        some ((metadata.find? processGroupKey).getD defaultProcessGroup)
      else if key = platformVersionKey then
        some ((metadata.find? platformVersionKey).getD defaultPlatformVersion)
      else if key = releaseVersionKey then some release.version.toText
      else if key = releaseIdKey then some release.id.text
      else metadata.find? key := by
  have h₁ : processGroupKey ≠ platformVersionKey := by decide
  have h₂ : processGroupKey ≠ releaseVersionKey := by decide
  have h₃ : processGroupKey ≠ releaseIdKey := by decide
  have h₄ : platformVersionKey ≠ releaseVersionKey := by decide
  have h₅ : platformVersionKey ≠ releaseIdKey := by decide
  rw [stampMetadata]
  cases release.managedPostgres with
  | false => simp [Dict.find?_erase, Dict.find?_insertIfNew, Dict.find?_insert, *]
  | true => simp [Dict.find?_insertIfNew, Dict.find?_insert, *]

theorem find?_stampMetadata_other (release : Release) (metadata : Dict String)
    {key : String} (other : key ∉ stampedKeys) :
    (release.stampMetadata metadata).find? key = metadata.find? key := by
  simp only [stampedKeys, List.mem_cons, List.not_mem_nil, or_false, not_or] at other
  obtain ⟨notId, notVersion, notPlatform, notGroup, notPostgres⟩ := other
  rw [release.find?_stampMetadata, if_neg notPostgres, if_neg notGroup, if_neg notPlatform,
    if_neg notVersion, if_neg notId]

/-- A machine that names no group is of the default one, and that is what the stamp fills in. -/
theorem processGroup_stamp (release : Release) (config : Config) :
    (release.stamp config).processGroup = config.processGroup := by
  have other : processGroupKey ≠ managedPostgresKey := by decide
  have found : (release.stamp config).metadata.find? processGroupKey =
      some ((config.metadata.find? processGroupKey).getD defaultProcessGroup) := by
    simp [stamp, find?_stampMetadata, other]
  rw [Config.processGroup, Config.processGroup, found]
  cases config.metadata.find? processGroupKey with
  | none => rfl
  | some group => rfl

/-- A stamp hides an earlier one: what is overwritten, set or taken out does not depend on what
was there, and what the earlier one filled in the later one would have filled in. -/
theorem stampMetadata_stampMetadata (earlier later : Release) (metadata : Dict String) :
    later.stampMetadata (earlier.stampMetadata metadata) = later.stampMetadata metadata := by
  refine Dict.ext_find? fun key => ?_
  have notPostgres : processGroupKey ≠ managedPostgresKey := by decide
  have notPostgres' : platformVersionKey ≠ managedPostgresKey := by decide
  have notGroup : platformVersionKey ≠ processGroupKey := by decide
  have group : (earlier.stampMetadata metadata).find? processGroupKey =
      some ((metadata.find? processGroupKey).getD defaultProcessGroup) := by
    rw [earlier.find?_stampMetadata, if_neg notPostgres, if_pos rfl]
  have platform : (earlier.stampMetadata metadata).find? platformVersionKey =
      some ((metadata.find? platformVersionKey).getD defaultPlatformVersion) := by
    rw [earlier.find?_stampMetadata, if_neg notPostgres', if_neg notGroup, if_pos rfl]
  by_cases stamped : key ∈ stampedKeys
  · simp only [stampedKeys, List.mem_cons, List.not_mem_nil, or_false] at stamped
    rw [later.find?_stampMetadata, later.find?_stampMetadata, group, platform]
    rcases stamped with rfl | rfl | rfl | rfl | rfl <;> rfl
  · rw [later.find?_stampMetadata_other _ stamped, later.find?_stampMetadata_other _ stamped,
      earlier.find?_stampMetadata_other _ stamped]

theorem stamp_stamp (earlier later : Release) (config : Config) :
    later.stamp (earlier.stamp config) = later.stamp config := by
  rw [stamp, stamp, stampMetadata_stampMetadata]
  rfl

def stampAll (releases : List Release) (config : Config) : Config :=
  releases.foldl (fun config release => release.stamp config) config

theorem stampAll_concat (releases : List Release) (last : Release) (config : Config) :
    stampAll (releases ++ [last]) config = last.stamp config := by
  induction releases generalizing config with
  | nil => rfl
  | cons first releases ih =>
    have step : stampAll (first :: releases ++ [last]) config =
        stampAll (releases ++ [last]) (first.stamp config) := rfl
    rw [step, ih, stamp_stamp]

theorem find?_releaseId (release : Release) (config : Config) :
    (release.stamp config).metadata.find? releaseIdKey = some release.id.text := by
  rw [stamp, find?_stampMetadata]
  rfl

theorem find?_releaseVersion (release : Release) (config : Config) :
    (release.stamp config).metadata.find? releaseVersionKey = some release.version.toText := by
  rw [stamp, find?_stampMetadata]
  rfl

/-- A configuration that carries the stamp of a release, put on another one. -/
structure Stamped (release : Release) (config stamped : Config) : Prop where
  /-- The release is read back. -/
  id : ∃ text, stamped.metadata.find? releaseIdKey = some text ∧
    Id.parse .release text = .ok release.id
  version : ∃ text, stamped.metadata.find? releaseVersionKey = some text ∧
    Version.parse text = .ok release.version
  /-- The marker of managed databases is that of this release. -/
  marker : stamped.metadata.find? managedPostgresKey =
    if release.managedPostgres then some "true" else none
  /-- The machine stays in its group, whether it names one or not. -/
  processGroup : stamped.processGroup = config.processGroup
  /-- All else is as it was. -/
  metadata : ∀ key, key ∉ stampedKeys → stamped.metadata.find? key = config.metadata.find? key
  image : stamped.image = config.image
  guest : stamped.guest = config.guest
  mount : stamped.mount = config.mount
  extra : stamped.extra = config.extra

theorem stamped_stamp (release : Release) (config : Config) :
    release.Stamped config (release.stamp config) where
  id := ⟨_, release.find?_releaseId config, release.id.parse_text⟩
  version := ⟨_, release.find?_releaseVersion config, release.version.parse_toText⟩
  marker := by
    rw [stamp, find?_stampMetadata, if_pos rfl]
  processGroup := release.processGroup_stamp config
  metadata _ other := release.find?_stampMetadata_other config.metadata other
  image := rfl
  guest := rfl
  mount := rfl
  extra := rfl

/-- Of releases that are stamped on a configuration in turn only the last one shows: what comes
of it is what the last one alone makes of it, and that can be stamped on once more. -/
theorem stampAll_lastStamp (releases : List Release) (last : Release) (config : Config) :
    stampAll (releases ++ [last]) config = last.stamp config ∧
      last.stamp (last.stamp config) = last.stamp config ∧
      last.Stamped config (stampAll (releases ++ [last]) config) := by
  have lastOnly := stampAll_concat releases last config
  refine ⟨lastOnly, stamp_stamp last last config, ?_⟩
  rw [lastOnly]
  exact last.stamped_stamp config

end Release

end Rollout
