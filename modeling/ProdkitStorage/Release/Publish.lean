import ProdkitStorage.Foundation.Program
import ProdkitStorage.Release.Assets

/-!
# Publishing a release

The functions of `ops/release/publish_release.py` that call a `GitHubClient`, as programs
over the methods of the client: a `Call` is a method with its arguments, and it is answered
by what the method returns or by what it raises.

A release and an asset are the JSON objects that the client hands out.  `release.get(..)
is False` is the test for the value `False`, which no other value passes.
-/

namespace ProdkitStorage.Release

open ProdkitStorage.Foundation

/-! ## The calls -/

/-- The value of an `id`: `isinstance(value, int)` also accepts a `bool`. -/
inductive Ident where
  | int (n : Int)
  | bool (b : Bool)
deriving DecidableEq, Repr

/-- The payload of `update_release`. -/
structure ReleaseUpdate where
  draft : Bool
  prerelease : Bool
  targetCommitish : String
deriving DecidableEq, Repr

/-- A method of the client that publishing calls. -/
inductive Call where
  | findRelease (repository tag : String)
  | createDraft (repository tag targetSha : String)
  | updateRelease (repository : String) (id : Ident) (payload : ReleaseUpdate)
  | deleteRelease (repository : String) (id : Ident)
  | listAssets (repository : String) (id : Ident)
  | deleteAsset (repository : String) (id : Ident)
  | uploadAsset (release : Json) (asset : LocalAsset)
  | tagTarget (repository tag : String)
  | createTagRef (repository tag targetSha : String)

/-- What the method returns. -/
def Call.Reply : Call → Type
  | .findRelease .. => Option Json
  | .createDraft .. => Json
  | .updateRelease .. => Json
  | .deleteRelease .. => Unit
  | .listAssets .. => List Json
  | .deleteAsset .. => Unit
  | .uploadAsset .. => Json
  | .tagTarget .. => Option String
  | .createTagRef .. => Unit

/-- A program over the methods of the client. -/
abbrev Publisher (α : Type) := Program Call Call.Reply Failure α

def findRelease (repository tag : String) : Publisher (Option Json) :=
  .perform (Call.findRelease repository tag)

def createDraft (repository tag targetSha : String) : Publisher Json :=
  .perform (Call.createDraft repository tag targetSha)

def updateRelease (repository : String) (id : Ident) (payload : ReleaseUpdate) : Publisher Json :=
  .perform (Call.updateRelease repository id payload)

def deleteRelease (repository : String) (id : Ident) : Publisher Unit :=
  .perform (Call.deleteRelease repository id)

def listAssets (repository : String) (id : Ident) : Publisher (List Json) :=
  .perform (Call.listAssets repository id)

def deleteAsset (repository : String) (id : Ident) : Publisher Unit :=
  .perform (Call.deleteAsset repository id)

def uploadAsset (release : Json) (asset : LocalAsset) : Publisher Json :=
  .perform (Call.uploadAsset release asset)

def tagTarget (repository tag : String) : Publisher (Option String) :=
  .perform (Call.tagTarget repository tag)

def createTagRef (repository tag targetSha : String) : Publisher Unit :=
  .perform (Call.createTagRef repository tag targetSha)

/-! ## Checks -/

/-- `value is b`. -/
def isBool (value : Option Json) (b : Bool) : Bool :=
  match value with
  | some (.bool c) => c == b
  | _ => false

/-- `value.get("id")`, when it is an `int`. -/
def numericId (value : Json) (message : String) : Except Failure Ident :=
  match value.field "id" with
  | some (.int n) => .ok (.int n)
  | some (.bool b) => .ok (.bool b)
  | _ => .error (.release message)

/-- `release_id(release)`. -/
def releaseId (release : Json) : Except Failure Ident :=
  numericId release "release metadata is missing numeric id"

/-- `verify_release_metadata(release, tag=tag, target_sha=target_sha)`. -/
def verifyReleaseMetadata (release : Json) (tag targetSha : String) : Except Failure Unit := do
  refuseIf (Json.eqStr (release.field "tag_name") tag = false)
    "release tag_name does not match requested release tag"
  refuseIf (isBool (release.field "draft") false = false) "release is still draft"
  refuseIf (isBool (release.field "prerelease") false = false)
    "release unexpectedly marked prerelease"
  refuseIf (Json.eqStr (release.field "target_commitish") targetSha = false)
    "release target_commitish does not match exact release SHA"

/-- The checks of a prepared draft. -/
def checkPrepared (release : Json) (targetSha : String) : Except Failure Unit := do
  refuseIf (isBool (release.field "draft") true = false)
    "prepared release unexpectedly stopped being a draft"
  refuseIf (isBool (release.field "prerelease") false = false)
    "prepared draft unexpectedly marked prerelease"
  refuseIf (Json.eqStr (release.field "target_commitish") targetSha = false)
    "prepared draft does not target exact release SHA"

/-- The tag is absent or resolves to the release. -/
def checkExistingTag (existing : Option String) (tag targetSha : String) : Except Failure Unit :=
  match existing with
  | none => .ok ()
  | some sha => refuseIf (sha ≠ targetSha) s!"existing tag {tag} resolves to unexpected SHA {sha}"

/-- The assets that are not expected; `name not in expected` hashes the name. -/
def extraAssets (expected : List LocalAsset) : List Json → Except Failure (List Json)
  | [] => .ok []
  | item :: remote =>
      match item.field "name" with
      | some (.arr _) => .error (.python (.typeError "unhashable type: 'list'"))
      | some (.obj _) => .error (.python (.typeError "unhashable type: 'dict'"))
      | _ => do
          let extras ← extraAssets expected remote
          if expected.any fun asset => remoteName item == some asset.name then return extras
          else return item :: extras

/-! ## The steps -/

section
variable (repository : String)

/-- A draft that is not one of this release is updated. -/
def retargetDraft (release : Json) (targetSha : String) : Publisher Json :=
  if Json.eqStr (release.field "target_commitish") targetSha = false ∨
      isBool (release.field "prerelease") false = false then do
    let id ← .done (releaseId release)
    updateRelease repository id ⟨true, false, targetSha⟩
  else pure release

/-- `prepare_draft_release(client, repository, release, target_sha=target_sha)`. -/
def prepareDraftRelease (release : Json) (targetSha : String) : Publisher Json := do
  .done (refuseIf (isBool (release.field "draft") true = false) "existing release is not a draft")
  let release ← retargetDraft repository release targetSha
  .done (checkPrepared release targetSha)
  pure release

/-- A new draft. -/
def newDraft (tag targetSha : String) : Publisher (Json × Bool) := do
  let release ← createDraft repository tag targetSha
  pure (release, false)

/-- `prepare_release_for_publication(client, repository, release, tag=tag,
target_sha=target_sha)`. -/
def prepareReleaseForPublication (release : Option Json) (tag targetSha : String) :
    Publisher (Json × Bool) := do
  let existing ← tagTarget repository tag
  .done (checkExistingTag existing tag targetSha)
  match release with
  | none => newDraft repository tag targetSha
  | some release =>
      if isBool (release.field "draft") false then
        if existing = some targetSha then do
          .done (verifyReleaseMetadata release tag targetSha)
          pure (release, true)
        else do
          let id ← .done (releaseId release)
          deleteRelease repository id
          newDraft repository tag targetSha
      else do
        let draft ← prepareDraftRelease repository release targetSha
        pure (draft, false)

/-- Assets of a list are deleted, one after the other. -/
def deleteEach (message : String) : List Json → Publisher Unit
  | [] => pure ()
  | item :: items => do
      let id ← .done (numericId item message)
      deleteAsset repository id
      deleteEach message items

/-- `len(matches) == 1 and asset_matches(local, matches[0])`. -/
def matchesOne (asset : LocalAsset) : List Json → Bool
  | [found] => assetMatches asset found
  | _ => false

/-- One expected asset: it is there, or the assets with its name are replaced. -/
def syncAsset (release : Json) (remote : List Json) (asset : LocalAsset) : Publisher Unit :=
  if matchesOne asset (remoteNamed asset.name remote) then pure ()
  else do
    deleteEach repository s!"remote asset lacks numeric id: {asset.name}"
      (remoteNamed asset.name remote)
    let _ ← uploadAsset release asset
    pure ()

/-- The expected assets, one after the other. -/
def syncEach (release : Json) (remote : List Json) : List LocalAsset → Publisher Unit
  | [] => pure ()
  | asset :: expected => do
      syncAsset repository release remote asset
      syncEach release remote expected

/-- `sync_draft_assets(client, repository, release, expected)`. -/
def syncDraftAssets (release : Json) (expected : List LocalAsset) : Publisher Unit := do
  let id ← .done (releaseId release)
  let remote ← listAssets repository id
  syncEach repository release remote expected
  let remote ← listAssets repository id
  let extras ← .done (extraAssets expected remote)
  deleteEach repository "unexpected remote asset lacks numeric id" extras
  let remote ← listAssets repository id
  .done (verifyRemoteAssets expected remote)

/-- A tag that is absent is created, and resolved again. -/
def createMissingTag (existing : Option String) (tag targetSha : String) :
    Publisher (Option String) :=
  if existing = none then do
    createTagRef repository tag targetSha
    tagTarget repository tag
  else pure existing

/-- `ensure_exact_tag(client, repository, tag=tag, target_sha=target_sha)`. -/
def ensureExactTag (tag targetSha : String) : Publisher Unit := do
  let existing ← tagTarget repository tag
  let existing ← createMissingTag repository existing tag targetSha
  .done (refuseIf (existing ≠ some targetSha)
    s!"tag {tag} does not resolve to exact release SHA {targetSha}")

/-- A published release whose tag is exact is verified. -/
def verifyPublished (release : Json) (expected : List LocalAsset) : Publisher Unit := do
  let id ← .done (releaseId release)
  let remote ← listAssets repository id
  .done (verifyRemoteAssets expected remote)

/-- What is checked after the publication. -/
def verifyTagged (id : Ident) (expected : List LocalAsset) (tag targetSha : String) :
    Publisher Unit := do
  let target ← tagTarget repository tag
  .done (refuseIf (target ≠ some targetSha) "published tag does not resolve to exact release SHA")
  let remote ← listAssets repository id
  .done (verifyRemoteAssets expected remote)

/-- A prepared draft gets its assets and its tag, and is published and verified. -/
def publishDraft (release : Json) (expected : List LocalAsset) (tag targetSha : String) :
    Publisher Unit := do
  syncDraftAssets repository release expected
  ensureExactTag repository tag targetSha
  let id ← .done (releaseId release)
  let published ← updateRelease repository id ⟨false, false, targetSha⟩
  .done (verifyReleaseMetadata published tag targetSha)
  verifyTagged repository id expected tag targetSha

/-- `publish(dist)`, from `client.find_release` on. -/
def publishRelease (expected : List LocalAsset) (tag targetSha : String) : Publisher Unit := do
  let release ← findRelease repository tag
  let prepared ← prepareReleaseForPublication repository release tag targetSha
  if prepared.2 then verifyPublished repository prepared.1 expected
  else publishDraft repository prepared.1 expected tag targetSha

end

end ProdkitStorage.Release
