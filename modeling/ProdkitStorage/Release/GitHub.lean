import ProdkitStorage.Release.Client

/-!
# GitHub

What the client talks to: the releases of a repository with their assets, the references of its
tags and its annotated tags.  `Host` is what GitHub chooses: the URLs of its uploads, the
names under which assets are stored and the references that it accepts.  `serve` answers a
request when nothing goes wrong.

`Attempt` also lets a request fail for a while.  A request that fails may have had its effect:
then only the reply is lost.  An upload that fails may leave an empty asset.
-/

namespace ProdkitStorage.Release

open ProdkitStorage.Foundation
open ProdkitStorage.Foundation.Program
open ProdkitStorage.Python

/-! ## The state -/

/-- What a reference or an annotated tag points to. -/
structure GitObject where
  kind : String
  sha : String
deriving DecidableEq, Repr

structure RemoteAsset where
  id : Nat
  name : String
  size : Nat
  digest : Option String
deriving DecidableEq, Repr

structure RemoteRelease where
  id : Nat
  tagName : String
  targetCommitish : String
  draft : Bool
  prerelease : Bool
  assets : List RemoteAsset
deriving DecidableEq, Repr

structure GitHub where
  releases : List RemoteRelease
  /-- The tags. -/
  refs : List (String × GitObject)
  /-- The annotated tags by SHA. -/
  tagObjects : List (String × GitObject)
  /-- The next id of a release or an asset. -/
  nextId : Nat
deriving DecidableEq, Repr

/-- A repository and what GitHub chooses. -/
structure Host where
  repository : String
  /-- The digest of an asset. -/
  sha256Hex : List UInt8 → String
  /-- The upload URL of a release, up to its template. -/
  uploadBase : Nat → String
  /-- The name under which an upload is stored, if it is accepted. -/
  storedName : String → List UInt8 → Option String
  /-- A tag with this name may point to this commit. -/
  acceptsRef : String → String → Bool
  upload_injective : Function.Injective uploadBase
  upload_plain : ∀ id, '\x7b' ∉ (uploadBase id).toList
  upload_https : ∀ id, absoluteHttps (uploadBase id) = .ok true

/-- GitHub keeps at most this many assets in a release. -/
def assetLimit : Nat := 1000

/-! ## Replies -/

def GitObject.json (object : GitObject) : Json :=
  .obj [("type", .str object.kind), ("sha", .str object.sha)]

def RemoteAsset.digestJson (asset : RemoteAsset) : Json :=
  match asset.digest with
  | some digest => .str digest
  | none => .null

def RemoteAsset.json (asset : RemoteAsset) : Json :=
  .obj [("id", .int asset.id), ("name", .str asset.name), ("size", .int asset.size),
    ("digest", asset.digestJson)]

def notFound : HttpReply := .httpError 404 "Not Found"

def validationFailed : HttpReply := .httpError 422 "Validation Failed"

/-- A page of a list. -/
def pageReply (items : List Json) (page : Nat) : HttpReply :=
  .response 200 (.json (.arr ((items.drop ((page - 1) * 100)).take 100)))

/-- The repository of an API URL. -/
def Target.repository : Target → Option String
  | .releases repository _ => some repository
  | .release repository _ => some repository
  | .assets repository _ _ => some repository
  | .asset repository _ => some repository
  | .upload _ _ => none
  | .ref repository _ => some repository
  | .tagObject repository _ => some repository
  | .refs repository => some repository

namespace GitHub

/-- The releases of a tag. -/
def tagged (s : GitHub) (tag : String) : List RemoteRelease :=
  s.releases.filter fun release => release.tagName == tag

/-- The release with this id. -/
def release (s : GitHub) (id : Ident) : Option RemoteRelease :=
  s.releases.find? fun release => id = .int release.id

/-- A release is changed. -/
def modify (s : GitHub) (id : Nat) (f : RemoteRelease → RemoteRelease) : GitHub :=
  { s with
    releases := s.releases.map fun release => if release.id = id then f release else release }

/-- A published release has a tag. -/
def ensureTag (s : GitHub) (release : RemoteRelease) : GitHub :=
  if release.draft = false ∧ s.refs.lookup release.tagName = none then
    { s with refs := (release.tagName, ⟨"commit", release.targetCommitish⟩) :: s.refs }
  else s

/-- A new release. -/
def addRelease (s : GitHub) (release : RemoteRelease) : GitHub :=
  { s with releases := release :: s.releases, nextId := s.nextId + 1 }

/-- An asset is removed. -/
def dropAsset (s : GitHub) (id : Ident) : GitHub :=
  { s with
    releases := s.releases.map fun release =>
      { release with assets := release.assets.filter fun asset => id ≠ .int asset.id } }

/-- A new asset. -/
def addAsset (s : GitHub) (id : Nat) (asset : RemoteAsset) : GitHub :=
  { s.modify id fun release => { release with assets := release.assets ++ [asset] } with
    nextId := s.nextId + 1 }

/-- The commit that an object leads to over fewer than this many annotated tags. -/
def resolve (s : GitHub) : Nat → GitObject → Option String
  | 0, _ => none
  | left + 1, object =>
      if object.kind = "commit" then some object.sha
      else if object.kind = "tag" then (s.tagObjects.lookup object.sha).bind (s.resolve left)
      else none

/-- Where a tag is: nowhere, or at a commit that is found in eight steps. -/
def TagTarget (s : GitHub) (tag : String) : Option String → Prop
  | none => s.refs.lookup tag = none
  | some sha => ∃ object, s.refs.lookup tag = some object ∧ s.resolve 8 object = some sha

def getTagObject (s : GitHub) (sha : String) : HttpReply :=
  match s.tagObjects.lookup sha with
  | none => notFound
  | some object => .response 200 (.json (.obj [("sha", .str sha), ("object", object.json)]))

def getRef (s : GitHub) (tag : String) : HttpReply :=
  match s.refs.lookup tag with
  | none => notFound
  | some object =>
      .response 200 (.json (.obj [("ref", .str ("refs/tags/" ++ tag)), ("object", object.json)]))

end GitHub

namespace Host

variable (host : Host)

def releaseJson (release : RemoteRelease) : Json :=
  .obj [("id", .int release.id), ("tag_name", .str release.tagName),
    ("target_commitish", .str release.targetCommitish), ("draft", .bool release.draft),
    ("prerelease", .bool release.prerelease),
    ("upload_url", .str (host.uploadBase release.id ++ "\x7b?name,label\x7d"))]

/-- An uploaded file. -/
def asset (id : Nat) (name : String) (content : List UInt8) : RemoteAsset :=
  ⟨id, name, content.length, some ("sha256:" ++ host.sha256Hex content)⟩

/-! ## Requests that change something -/

def postRelease (s : GitHub) (payload : Json) : HttpReply × GitHub :=
  match payload.field "tag_name", payload.field "target_commitish" with
  | some (.str tag), some (.str target) =>
      if s.releases.any fun release => release.tagName == tag && !release.draft then
        (validationFailed, s)
      else
        let release : RemoteRelease := ⟨s.nextId, tag, target, isBool (payload.field "draft") true,
          isBool (payload.field "prerelease") true, []⟩
        (.response 201 (.json (host.releaseJson release)), (s.addRelease release).ensureTag release)
  | _, _ => (validationFailed, s)

/-- What a payload makes of a release. -/
def patched (payload : Json) (release : RemoteRelease) : RemoteRelease :=
  { release with
    draft :=
      match payload.field "draft" with
      | some (.bool draft) => draft
      | _ => release.draft
    prerelease :=
      match payload.field "prerelease" with
      | some (.bool prerelease) => prerelease
      | _ => release.prerelease
    targetCommitish :=
      match payload.field "target_commitish" with
      | some (.str target) => target
      | _ => release.targetCommitish }

def patchRelease (s : GitHub) (id : Ident) (payload : Json) : HttpReply × GitHub :=
  match s.release id with
  | none => (notFound, s)
  | some release =>
      (.response 200 (.json (host.releaseJson (patched payload release))),
        (s.modify release.id (patched payload)).ensureTag (patched payload release))

def dropRelease (s : GitHub) (id : Ident) : HttpReply × GitHub :=
  match s.release id with
  | none => (notFound, s)
  | some release =>
      (.response 204 .empty,
        { s with releases := s.releases.filter fun other => other.id ≠ release.id })

def dropAsset (s : GitHub) (id : Ident) : HttpReply × GitHub :=
  if s.releases.any fun release => release.assets.any fun asset => id = .int asset.id then
    (.response 204 .empty, s.dropAsset id)
  else (notFound, s)

/-- A file is uploaded, and this asset is stored. -/
def storeAsset (s : GitHub) (baseUrl name : String) (content : List UInt8)
    (store : Nat → String → RemoteAsset) : HttpReply × GitHub :=
  match s.releases.find? fun release => host.uploadBase release.id == baseUrl with
  | none => (notFound, s)
  | some release =>
      match host.storedName name content with
      | none => (validationFailed, s)
      | some stored =>
          if (release.assets.any fun asset => asset.name == stored) ∨
              assetLimit ≤ release.assets.length then (validationFailed, s)
          else
            (.response 201 (.json (store s.nextId stored).json),
              s.addAsset release.id (store s.nextId stored))

def postAsset (s : GitHub) (baseUrl name : String) (content : List UInt8) : HttpReply × GitHub :=
  host.storeAsset s baseUrl name content fun id stored => host.asset id stored content

def postRef (s : GitHub) (payload : Json) : HttpReply × GitHub :=
  match payload.field "ref", payload.field "sha" with
  | some (.str ref), some (.str sha) =>
      match ref.toList.dropPrefix? "refs/tags/".toList with
      | none => (validationFailed, s)
      | some name =>
          let tag := String.ofList name
          if host.acceptsRef tag sha = false ∨ (s.refs.lookup tag).isSome then (validationFailed, s)
          else
            (.response 201 (.json (.obj [("ref", .str ref),
                ("object", GitObject.json ⟨"commit", sha⟩)])),
              { s with refs := (tag, ⟨"commit", sha⟩) :: s.refs })
  | _, _ => (validationFailed, s)

/-! ## Service -/

/-- A request to the API or to the uploads. -/
def answer (s : GitHub) (request : Request) : HttpReply × GitHub :=
  match request.method, request.target, request.data with
  | .get, .releases _ (some page), _ => (pageReply (s.releases.map host.releaseJson) page, s)
  | .post, .releases _ none, .json payload => host.postRelease s payload
  | .patch, .release _ id, .json payload => host.patchRelease s id payload
  | .delete, .release _ id, _ => dropRelease s id
  | .get, .assets _ id page, _ =>
      match s.release id with
      | none => (notFound, s)
      | some release => (pageReply (release.assets.map RemoteAsset.json) page, s)
  | .delete, .asset _ id, _ => dropAsset s id
  | .post, .upload baseUrl name, .bytes content => host.postAsset s baseUrl name content
  | .get, .ref _ tag, _ => (s.getRef tag, s)
  | .get, .tagObject _ sha, _ => (s.getTagObject sha, s)
  | .post, .refs _, .json payload => host.postRef s payload
  | _, _, _ => (notFound, s)

/-- The reply when nothing goes wrong, and the state after it. -/
def serve (s : GitHub) (request : Request) : HttpReply × GitHub :=
  if request.target.repository.all (· == host.repository) then host.answer s request
  else (notFound, s)

/-- `serve`, for a program. -/
def handle (s : GitHub) (request : Request) : Except Failure HttpReply × GitHub :=
  (.ok (host.serve s request).1, (host.serve s request).2)

/-! ## Failures -/

/-- The upload leaves an empty asset. -/
def starter (s : GitHub) (request : Request) : GitHub :=
  match request.method, request.target, request.data with
  | .post, .upload baseUrl name, .bytes content =>
      (host.storeAsset s baseUrl name content fun id stored => ⟨id, stored, 0, none⟩).2
  | _, _, _ => s

/-- What a request that fails may have done. -/
inductive Effect (s : GitHub) (request : Request) : GitHub → Prop where
  | nothing : Effect s request s
  | done : Effect s request (host.serve s request).2
  | starter : Effect s request (host.starter s request)

/-- What a request that fails is answered: an error that asks for another attempt, or another
exception. -/
inductive Failed : Except Failure HttpReply → Prop where
  | transient (reply : HttpReply) : reply.Transient → Failed (.ok reply)
  | raised (className : String) : Failed (.error (.other className))

/-- A request is served, or it fails where there are faults. -/
inductive Attempt (faults : Prop) (s : GitHub) (request : Request) :
    Except Failure HttpReply → GitHub → Prop where
  | served : Attempt faults s request (.ok (host.serve s request).1) (host.serve s request).2
  | failed {reply : Except Failure HttpReply} {t : GitHub} : faults → Failed reply →
      host.Effect s request t → Attempt faults s request reply t

/-- A request that creates a release has an effect only while the tag has none. -/
def Careful (tag : String) (s : GitHub) (request : Request) (t : GitHub) : Prop :=
  request.method = .post → request.target = .releases host.repository none → t ≠ s →
    s.tagged tag = []

end Host

/-! ## A release -/

/-- A text in a file. -/
def textBytes (text : String) : List UInt8 := text.toUTF8.data.toList

theorem readText_textBytes (text : String) : readText (textBytes text) = .ok text := by
  have hdecoded : String.fromUTF8? ⟨(textBytes text).toArray⟩ = some text := by
    unfold String.fromUTF8? textBytes
    rw [Array.toArray_toList]
    exact dif_pos text.isValidUTF8
  rw [readText, hdecoded]

/-- The files of the payload with their digests, in the order of `SHA256SUMS`. -/
def samplePayload : List (String × String × String) :=
  [("a.tar.gz", "sdist",
      "714772a9f82b2aeb4fa5f7092d00fe4ac4c9cdeb6800840b6ed39ea64c4d785a"),
    ("b.whl", "wheel",
      "ba59926159d2aa256eb8739b8da7e2b574b960e1202c6d624cbe981cef996c91"),
    ("prodkit-storage-v1-source.tar.gz", "source",
      "41cf6794ba4200b839c53531555f0f3998df4cbb01a4d5cb0b94e3ca5e23947d")]

/-- A line of `SHA256SUMS`. -/
def sampleLine (file : String × String × String) : List Char :=
  file.2.2.toList ++ ' ' :: ' ' :: file.1.toList

/-- The text of `SHA256SUMS`. -/
def sampleSums : String :=
  String.ofList (samplePayload.flatMap fun file => sampleLine file ++ ['\n'])

/-- SHA-256, on the files of the sample. -/
def sampleSha256 (content : List UInt8) : String :=
  match samplePayload.find? fun file => textBytes file.2.1 == content with
  | some file => file.2.2
  | none => "1cd4dc1548c1194317c53420061ea832578289e45bc7f6050155094976a4b014"

def sampleSumsFile : DistFile := ⟨"SHA256SUMS", true, textBytes sampleSums⟩

def sampleFiles : List DistFile :=
  sampleSumsFile ::
    samplePayload.map fun file => ⟨file.1, true, textBytes file.2.1⟩

theorem sampleFiles_names : sampleFiles.map DistFile.name =
    ["SHA256SUMS", "a.tar.gz", "b.whl", "prodkit-storage-v1-source.tar.gz"] := rfl

def sampleDist : Dist := ⟨"dist", true, sampleFiles, by rw [sampleFiles_names]; decide⟩

def sampleAssets : List LocalAsset := sampleFiles.map (DistFile.asset sampleSha256)

/-- The manifest of the sample. -/
def sampleManifest : List (String × String) := samplePayload.map fun file => (file.1, file.2.2)

theorem sample_manifest :
    readManifest 1 (splitLines [] sampleSums.toList) [] = .ok sampleManifest := by
  have hlines : splitLines [] (samplePayload.flatMap fun file => sampleLine file ++ ['\n']) =
      samplePayload.map sampleLine := by decide +kernel
  rw [sampleSums, String.toList_ofList, hlines]
  decide +kernel

theorem sample_sorted : sampleDist.sortedFiles = sampleFiles := by
  have hfiles : sampleDist.files.filter DistFile.isFile = sampleFiles := rfl
  have hnames : (sampleFiles.map DistFile.name).Pairwise (· ≤ ·) := by
    rw [sampleFiles_names, ← List.isChain_iff_pairwise]
    decide +kernel
  rw [Dist.sortedFiles, hfiles]
  exact List.Pairwise.insertionSort_eq (List.pairwise_map.mp hnames)

theorem sample_digests : ∀ file ∈ sampleFiles, file.name = "SHA256SUMS" ∨
    sampleManifest.lookup file.name = some (sampleSha256 file.content) := by
  refine List.forall_mem_cons.mpr ⟨.inl rfl, fun file hfile => .inr ?_⟩
  obtain ⟨line, hline, rfl⟩ := List.mem_map.mp hfile
  clear hfile
  revert line
  decide +kernel

theorem sample_sums : sampleFiles.find? (·.name == "SHA256SUMS") = some sampleSumsFile := by
  rw [sampleFiles, List.find?_cons_of_pos]
  exact beq_self_eq_true _

theorem sample_text : readText sampleSumsFile.content = .ok sampleSums := by
  rw [sampleSumsFile, readText_textBytes]

theorem sample_loaded : loadLocalAssets sampleSha256 sampleDist "v1" = .ok sampleAssets := by
  rw [loadLocalAssets, sample_sorted]
  refine bind_eq_ok.mpr ⟨(), rfl, bind_eq_ok.mpr ⟨(), rfl, ?_⟩⟩
  rw [sampleFiles_names]
  refine bind_eq_ok.mpr ⟨(), by decide +kernel, bind_eq_ok.mpr ⟨sampleSumsFile, ?_, ?_⟩⟩
  · exact refuseNone_ok.mpr sample_sums
  refine bind_eq_ok.mpr ⟨(), by decide +kernel, ?_⟩
  refine bind_eq_ok.mpr ⟨sampleSums, sample_text, ?_⟩
  refine bind_eq_ok.mpr ⟨_, sample_manifest, bind_eq_ok.mpr ⟨(), by decide +kernel, ?_⟩⟩
  exact mapM_localAsset sample_digests

/-- A URL with an id in unary. -/
def unaryUrl (before : String) (id : Nat) : String :=
  before ++ String.ofList ('/' :: List.replicate id '1')

theorem unaryUrl_injective (before : String) : Function.Injective (unaryUrl before) := by
  intro a b h
  have hlengths := congrArg String.length h
  simp only [unaryUrl, String.length_append, String.length_ofList, List.length_cons,
    List.length_replicate] at hlengths
  omega

theorem unaryUrl_plain {before : String} (hbefore : '\x7b' ∉ before.toList) (id : Nat) :
    '\x7b' ∉ (unaryUrl before id).toList := by
  have hid : '\x7b' ∉ '/' :: List.replicate id '1' := by simp
  intro hmem
  rw [unaryUrl, String.toList_append, String.toList_ofList, List.mem_append] at hmem
  exact hmem.elim hbefore hid

theorem unaryUrl_https {before : String} (hbefore : absoluteHttps before = .ok true) (id : Nat) :
    absoluteHttps (unaryUrl before id) = .ok true := by
  refine absoluteHttps_append hbefore fun c hc => ?_
  rw [String.toList_ofList] at hc
  cases hc
  decide

def uploadsUrl : String := "https://uploads.github.com"

/-- A repository that accepts every name and every reference. -/
def sampleHost : Host where
  repository := "prodkit/storage"
  sha256Hex := sampleSha256
  uploadBase := unaryUrl uploadsUrl
  storedName name _ := some name
  acceptsRef _ _ := true
  upload_injective := unaryUrl_injective uploadsUrl
  upload_plain := unaryUrl_plain (by decide +kernel)
  upload_https := unaryUrl_https (by decide +kernel)

def sampleSha : String := "bbbbbbbbbbbbbbbbbbbbbbbbbbbbbbbbbbbbbbbb"

def sampleEnviron : Environ :=
  ⟨"token", "prodkit/storage", sampleSha, "https://api.github.com", "v1", .ok 8⟩

def sampleClient : GitHubClient := ⟨"token", "https://api.github.com", 8, by decide, by decide⟩

theorem sample_prepared :
    sampleEnviron.prepare sampleSha256 sampleDist = .ok (sampleAssets, sampleClient) := by
  have hclient : GitHubClient.init "token" "https://api.github.com" 8 = .ok sampleClient := by
    have hhttps : absoluteHttps "https://api.github.com" = .ok true := by decide +kernel
    have hstripped : rstripSlash "https://api.github.com" = "https://api.github.com" := by
      decide +kernel
    refine refuseIf_bind_ok.mpr ⟨by decide, ?_⟩
    rw [dif_neg (by decide), hhttps, hstripped]
    rfl
  refine bind_eq_ok.mpr ⟨8, rfl, bind_eq_ok.mpr ⟨(), by decide +kernel, ?_⟩⟩
  refine bind_eq_ok.mpr ⟨(), by decide +kernel, bind_eq_ok.mpr ⟨(), by decide +kernel, ?_⟩⟩
  exact bind_eq_ok.mpr ⟨_, sample_loaded, bind_eq_ok.mpr ⟨_, hclient, rfl⟩⟩

end ProdkitStorage.Release
