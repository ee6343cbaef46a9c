import ProdkitStorage.Python.Url
import ProdkitStorage.Release.Publish

/-!
# The GitHub client

`GitHubClient` of `ops/release/publish_release.py`: each method as a program that sends HTTP
requests.  `requestLoop` is the retry loop of `request`; an attempt is answered by a response
that `urlopen` returns, by an `HTTPError` or by a `URLError`, and every other exception
ends the request.  The sleeps between attempts and the headers of a request are left out.

`handle` puts the methods under the calls that publishing makes, and `publish` is the whole
of `publish(dist)` over HTTP.
-/

namespace ProdkitStorage.Release

open ProdkitStorage.Foundation
open ProdkitStorage.Python

/-! ## Requests -/

/-- The ways in which the client uses a URL. -/
inductive Method where
  | get
  | post
  | patch
  | delete
deriving DecidableEq, Repr

/-- What a URL names. -/
inductive Target where
  | releases (repository : String) (page : Option Nat)
  | release (repository : String) (id : Ident)
  | assets (repository : String) (id : Ident) (page : Nat)
  | asset (repository : String) (id : Ident)
  | upload (baseUrl name : String)
  | ref (repository tag : String)
  | tagObject (repository sha : String)
  | refs (repository : String)
deriving DecidableEq, Repr

/-- An `id` in an f-string. -/
def Ident.text : Ident → String
  | .int n => toString n
  | .bool true => "True"
  | .bool false => "False"

/-- The path of a URL of the API, or the URL of an upload. -/
def Target.url (apiUrl : String) : Target → String
  | .releases repository none => apiUrl ++ s!"/repos/{repository}/releases"
  | .releases repository (some page) =>
      apiUrl ++ s!"/repos/{repository}/releases?per_page=100&page={page}"
  | .release repository id => apiUrl ++ s!"/repos/{repository}/releases/{id.text}"
  | .assets repository id page =>
      apiUrl ++ s!"/repos/{repository}/releases/{id.text}/assets?per_page=100&page={page}"
  | .asset repository id => apiUrl ++ s!"/repos/{repository}/releases/assets/{id.text}"
  | .upload baseUrl name => baseUrl ++ s!"?name={quotePlus name}"
  | .ref repository tag => apiUrl ++ s!"/repos/{repository}/git/ref/tags/{quote tag}"
  | .tagObject repository sha => apiUrl ++ s!"/repos/{repository}/git/tags/{sha}"
  | .refs repository => apiUrl ++ s!"/repos/{repository}/git/refs"

/-- The data of a request. -/
inductive Data where
  | none
  | json (payload : Json)
  | bytes (content : List UInt8)

structure Request where
  method : Method
  target : Target
  data : Data

/-- The body of a response. -/
inductive ResponseBody where
  | empty
  | json (payload : Json)
  /-- A text that is not JSON. -/
  | invalid

/-- What one attempt is answered. -/
inductive HttpReply where
  | response (status : Nat) (body : ResponseBody)
  /-- `HTTPError`, with its message. -/
  | httpError (status : Nat) (message : String)
  | urlError (reason : String)

/-- A program that sends requests. -/
abbrev Http (α : Type) := Program Request (fun _ => HttpReply) Failure α

/-- `TRANSIENT_STATUSES`. -/
def transientStatuses : List Nat := [408, 429, 500, 502, 503, 504]

/-- The reply asks for another attempt. -/
def HttpReply.Transient : HttpReply → Prop
  | .response _ _ => False
  | .httpError status _ => status ∈ transientStatuses
  | .urlError _ => True

instance : DecidablePred HttpReply.Transient
  | .response _ _ => inferInstanceAs (Decidable False)
  | .httpError status _ => inferInstanceAs (Decidable (status ∈ transientStatuses))
  | .urlError _ => inferInstanceAs (Decidable True)

/-- What a reply comes to when there is no other attempt. -/
def HttpReply.outcome (expected : Nat) : HttpReply → Except Failure Json
  | .response status body =>
      if status ≠ expected then .error (.api status "unexpected success response")
      else
        match body with
        | .empty => .ok .null
        | .json payload => .ok payload
        | .invalid => .error (.release "GitHub API returned invalid JSON")
  | .httpError status message => .error (.api status message)
  | .urlError reason => .error (.release s!"GitHub API network error: {reason}")

/-- The loop of `request`, with the attempts that are left. -/
def requestLoop (request : Request) (expected : Nat) (retry : Bool) : Nat → Http Json
  | 0 => .done (.error (.release "GitHub API retry loop exhausted"))
  | attempts + 1 => do
      let reply ← .perform request
      if retry ∧ reply.Transient ∧ 0 < attempts then requestLoop request expected retry attempts
      else .done (reply.outcome expected)

/-! ## The client -/

structure GitHubClient where
  token : String
  apiUrl : String
  maxAttempts : Nat
  attempts_pos : 0 < maxAttempts
  attempts_le : maxAttempts ≤ 20

/-- An exception of the standard library. -/
def ofPython {α : Type} : Except PyError α → Except Failure α
  | .ok a => .ok a
  | .error error => .error (.python error)

/-- `GitHubClient(token=token, api_url=api_url, max_attempts=max_attempts)`. -/
def GitHubClient.init (token apiUrl : String) (maxAttempts : Int) :
    Except Failure GitHubClient := do
  refuseIf (token = "") "GITHUB_TOKEN is required"
  if h : maxAttempts < 1 ∨ maxAttempts > 20 then
    .error (.release "RELEASE_MAX_ATTEMPTS must be between 1 and 20")
  else do
    let https ← ofPython (absoluteHttps apiUrl)
    refuseIf (https = false) "GITHUB_API_URL must be an absolute HTTPS URL"
    return ⟨token, rstripSlash apiUrl, maxAttempts.toNat, by omega, by omega⟩

/-- `isinstance(payload, dict)`. -/
def isDict : Json → Bool
  | .obj _ => true
  | _ => false

/-- `if not isinstance(payload, dict): raise ReleaseError(message)`. -/
def asDict (payload : Json) (message : String) : Except Failure Json :=
  if isDict payload then .ok payload else .error (.release message)

/-- `if not isinstance(payload, list): raise ReleaseError(message)`. -/
def asList (payload : Json) (message : String) : Except Failure (List Json) :=
  match payload with
  | .arr items => .ok items
  | _ => .error (.release message)

namespace GitHubClient

variable (client : GitHubClient)

/-- `client.request(..)`. -/
def request (request : Request) (expected : Nat) (retry : Bool) : Http Json := do
  let https ← .done (ofPython (absoluteHttps (request.target.url client.apiUrl)))
  .done (refuseIf (https = false) "refusing non-HTTPS GitHub API request")
  requestLoop request expected retry (if retry then client.maxAttempts else 1)

/-- The pages of a list, from a page on. -/
def listPages (target : Nat → Target) (invalid exceeded : String) :
    Nat → Nat → List Json → Http (List Json)
  | 0, _, _ => .done (.error (.release exceeded))
  | left + 1, page, items => do
      let payload ← client.request ⟨.get, target page, .none⟩ 200 true
      let found ← .done (asList payload invalid)
      let items := items ++ found.filter isDict
      if found.length < 100 then pure items
      else listPages target invalid exceeded left (page + 1) items

def listReleases (repository : String) : Http (List Json) :=
  client.listPages (fun page => .releases repository (some page))
    "GitHub returned invalid release list" "release pagination exceeded safety bound" 100 1 []

/-- The only release of a tag. -/
def onlyRelease (tag : String) (releases : List Json) : Except Failure (Option Json) :=
  match releases.filter fun release => Json.eqStr (release.field "tag_name") tag with
  | [] => .ok none
  | [release] => .ok (some release)
  | _ => .error (.release s!"multiple GitHub releases found for tag {tag}")

def findRelease (repository tag : String) : Http (Option Json) := do
  let releases ← client.listReleases repository
  .done (onlyRelease tag releases)

/-- The payload of `create_draft`. -/
def draftPayload (tag targetSha : String) : Json :=
  .obj [("tag_name", .str tag), ("target_commitish", .str targetSha), ("name", .str tag),
    ("draft", .bool true), ("prerelease", .bool false), ("generate_release_notes", .bool true)]

def createDraft (repository tag targetSha : String) : Http Json := do
  let payload ← client.request
    ⟨.post, .releases repository none, .json (draftPayload tag targetSha)⟩ 201 true
  .done (asDict payload "GitHub returned invalid created release")

/-- The payload of `update_release`. -/
def updatePayload (payload : ReleaseUpdate) : Json :=
  .obj [("draft", .bool payload.draft), ("prerelease", .bool payload.prerelease),
    ("target_commitish", .str payload.targetCommitish)]

def updateRelease (repository : String) (id : Ident) (payload : ReleaseUpdate) : Http Json := do
  let result ← client.request
    ⟨.patch, .release repository id, .json (updatePayload payload)⟩ 200 true
  .done (asDict result "GitHub returned invalid updated release")

def deleteRelease (repository : String) (id : Ident) : Http Unit := do
  let _ ← client.request ⟨.delete, .release repository id, .none⟩ 204 true
  pure ()

def listAssets (repository : String) (id : Ident) : Http (List Json) :=
  client.listPages (.assets repository id)
    "GitHub returned invalid release asset list" "release asset pagination exceeded safety bound"
    100 1 []

def deleteAsset (repository : String) (id : Ident) : Http Unit := do
  let _ ← client.request ⟨.delete, .asset repository id, .none⟩ 204 true
  pure ()

/-- `upload_url.split("\x7b", 1)[0]`. -/
def uploadBase (uploadUrl : String) : String :=
  String.ofList (uploadUrl.toList.takeWhile (· != '\x7b'))

/-- `release.get("upload_url")`, when it is a `str`. -/
def uploadUrl (release : Json) : Except Failure String :=
  match release.field "upload_url" with
  | some (.str url) => .ok url
  | _ => .error (.release "release metadata is missing upload_url")

def uploadAsset (release : Json) (asset : LocalAsset) : Http Json := do
  let url ← .done (uploadUrl release)
  let payload ← client.request
    ⟨.post, .upload (uploadBase url) asset.name, .bytes asset.content⟩ 201 true
  let uploaded ← .done (asDict payload s!"GitHub returned invalid uploaded asset: {asset.name}")
  .done (refuseIf (assetMatches asset uploaded = false)
    s!"uploaded asset digest/size mismatch: {asset.name}")
  pure uploaded

/-- The kind and the SHA of a Git object. -/
def gitObject (object : Option Json) : Except Failure (Option Json × String) :=
  match object with
  | some (.obj members) =>
      match Json.get members "sha" with
      | some (.str sha) => .ok (Json.get members "type", sha)
      | _ => .error (.release "Git tag reference is missing SHA")
  | _ => .error (.release "Git tag reference is missing object metadata")

/-- `str(obj_type)` of a kind that is not a container. -/
def kindText : Option Json → String
  | some (.str kind) => kind
  | some (.int n) => toString n
  | some (.bool true) => "True"
  | some (.bool false) => "False"
  | _ => "None"

/-- The loop of `tag_target`, with the objects that may still be looked at. -/
def resolveObject (repository : String) : Nat → Option Json → Http (Option String)
  | 0, _ => .done (.error (.release "tag indirection exceeded safety bound"))
  | left + 1, object => do
      let found ← .done (gitObject object)
      if Json.eqStr found.1 "commit" then pure (some found.2)
      else do
        .done (refuseIf (Json.eqStr found.1 "tag" = false)
          s!"unsupported Git tag object type: {kindText found.1}")
        let payload ← client.request ⟨.get, .tagObject repository found.2, .none⟩ 200 true
        let tagObject ← .done (asDict payload "GitHub returned invalid annotated tag")
        resolveObject repository left (tagObject.field "object")

/-- What `tag_target` makes of the reference. -/
def resolveRef (repository : String) : Except Failure Json → Http (Option String)
  | .error (.api status message) =>
      if status = 404 then pure none else .done (.error (.api status message))
  | .error error => .done (.error error)
  | .ok payload => do
      let ref ← .done (asDict payload "GitHub returned invalid tag reference")
      client.resolveObject repository 8 (ref.field "object")

def tagTarget (repository tag : String) : Http (Option String) :=
  (client.request ⟨.get, .ref repository tag, .none⟩ 200 true).andThen
    (client.resolveRef repository)

/-- The payload of `create_tag_ref`. -/
def refPayload (tag targetSha : String) : Json :=
  .obj [("ref", .str s!"refs/tags/{tag}"), ("sha", .str targetSha)]

/-- What `create_tag_ref` makes of the reply. -/
def checkCreated (repository tag targetSha : String) : Except Failure Json → Http Unit
  | .error (.api status message) =>
      if status = 422 then do
        let target ← client.tagTarget repository tag
        if target = some targetSha then pure () else .done (.error (.api status message))
      else .done (.error (.api status message))
  | .error error => .done (.error error)
  | .ok payload => do
      let _ ← .done (asDict payload "GitHub returned invalid created tag reference")
      let target ← client.tagTarget repository tag
      .done (refuseIf (target ≠ some targetSha)
        "created tag does not resolve to exact release SHA")

def createTagRef (repository tag targetSha : String) : Http Unit :=
  (client.request ⟨.post, .refs repository, .json (refPayload tag targetSha)⟩ 201 false).andThen
    (client.checkCreated repository tag targetSha)

/-- The method that a call names. -/
def handle : (call : Call) → Http call.Reply
  | .findRelease repository tag => client.findRelease repository tag
  | .createDraft repository tag targetSha => client.createDraft repository tag targetSha
  | .updateRelease repository id payload => client.updateRelease repository id payload
  | .deleteRelease repository id => client.deleteRelease repository id
  | .listAssets repository id => client.listAssets repository id
  | .deleteAsset repository id => client.deleteAsset repository id
  | .uploadAsset release asset => client.uploadAsset release asset
  | .tagTarget repository tag => client.tagTarget repository tag
  | .createTagRef repository tag targetSha => client.createTagRef repository tag targetSha

end GitHubClient

/-! ## `publish` -/

/-- The environment variables of `publish`, with their defaults. -/
structure Environ where
  token : String
  repository : String
  targetSha : String
  apiUrl : String
  tag : String
  /-- `int(os.environ.get("RELEASE_MAX_ATTEMPTS", "8"))`. -/
  maxAttempts : Except PyError Int

/-- `SHA_RE.fullmatch(value)`. -/
def isSha (value : String) : Bool :=
  value.length == 40 && value.toList.all fun c => ('0' ≤ c && c ≤ '9') || ('a' ≤ c && c ≤ 'f')

/-- What `publish(dist)` does before it calls the client. -/
def Environ.prepare (environ : Environ) (sha256Hex : List UInt8 → String) (dist : Dist) :
    Except Failure (List LocalAsset × GitHubClient) := do
  let maxAttempts ← ofPython environ.maxAttempts
  refuseIf (environ.repository.toList.count '/' ≠ 1) "GITHUB_REPOSITORY must be owner/name"
  refuseIf (isSha environ.targetSha = false) "GITHUB_SHA must be a lowercase 40-character SHA"
  refuseIf (startsWith environ.tag "v" = false ∨ environ.tag.length < 2)
    "RELEASE_TAG must start with v"
  let expected ← loadLocalAssets sha256Hex dist environ.tag
  let client ← GitHubClient.init environ.token environ.apiUrl maxAttempts
  return (expected, client)

/-- `publish(dist)`, over the methods of the client. -/
def Environ.publish (environ : Environ) (sha256Hex : List UInt8 → String) (dist : Dist) :
    Publisher Unit := do
  let prepared ← .done (environ.prepare sha256Hex dist)
  publishRelease environ.repository prepared.1 environ.tag environ.targetSha

/-- `publish(dist)`, over HTTP. -/
def Environ.publishHttp (environ : Environ) (sha256Hex : List UInt8 → String) (dist : Dist) :
    Http Unit := do
  let prepared ← .done (environ.prepare sha256Hex dist)
  (publishRelease environ.repository prepared.1 environ.tag environ.targetSha).interp
    prepared.2.handle

/-- The URL of a client is absolute and HTTPS. -/
theorem init_https {token apiUrl : String} {maxAttempts : Int} {client : GitHubClient}
    (h : GitHubClient.init token apiUrl maxAttempts = .ok client) :
    absoluteHttps client.apiUrl = .ok true := by
  obtain ⟨-, h⟩ := refuseIf_bind_ok.mp h
  split at h
  · cases h
  · obtain ⟨https, hhttps, h⟩ := bind_eq_ok.mp h
    obtain ⟨htrue, h⟩ := refuseIf_bind_ok.mp h
    cases h
    refine absoluteHttps_rstripSlash ?_
    cases hparsed : absoluteHttps apiUrl with
    | error error =>
        rw [hparsed] at hhttps
        cases hhttps
    | ok found =>
        rw [hparsed] at hhttps
        cases hhttps
        rw [Bool.not_eq_false] at htrue
        rw [htrue]

/-- What is checked before the first request. -/
theorem prepare_ok {environ : Environ} {sha256Hex : List UInt8 → String} {dist : Dist}
    {expected : List LocalAsset} {client : GitHubClient}
    (h : environ.prepare sha256Hex dist = .ok (expected, client)) :
    loadLocalAssets sha256Hex dist environ.tag = .ok expected ∧
      absoluteHttps client.apiUrl = .ok true := by
  obtain ⟨maxAttempts, -, h⟩ := bind_eq_ok.mp h
  obtain ⟨-, h⟩ := refuseIf_bind_ok.mp h
  obtain ⟨-, h⟩ := refuseIf_bind_ok.mp h
  obtain ⟨-, h⟩ := refuseIf_bind_ok.mp h
  obtain ⟨assets, hloaded, h⟩ := bind_eq_ok.mp h
  obtain ⟨found, hinit, h⟩ := bind_eq_ok.mp h
  cases h
  exact ⟨hloaded, init_https hinit⟩

/-- What a prepared run does. -/
theorem publishHttp_of_prepared {environ : Environ} {sha256Hex : List UInt8 → String} {dist : Dist}
    {expected : List LocalAsset} {client : GitHubClient}
    (h : environ.prepare sha256Hex dist = .ok (expected, client)) :
    environ.publishHttp sha256Hex dist =
      (publishRelease environ.repository expected environ.tag environ.targetSha).interp
        client.handle := by
  rw [Environ.publishHttp, h]
  rfl

/-! ## Requests about Git -/

/-- The request writes something of Git, other than a reference that it creates. -/
def Request.MovesTag (request : Request) : Prop :=
  match request.target with
  | .ref _ _ => request.method ≠ .get
  | .tagObject _ _ => request.method ≠ .get
  | .refs _ => request.method ≠ .get ∧ request.method ≠ .post
  | _ => False

/-- The request creates a reference. -/
def Request.CreatesRef (request : Request) : Prop :=
  match request.target with
  | .refs _ => request.method = .post
  | _ => False

/-- A request that neither moves a tag nor creates one. -/
def Request.LeavesTags (request : Request) : Prop := ¬request.MovesTag ∧ ¬request.CreatesRef

theorem calls_requestLoop {P : Request → Prop} {request : Request} (h : P request) (expected : Nat)
    (retry : Bool) (attempts : Nat) : (requestLoop request expected retry attempts).Calls P := by
  induction attempts with
  | zero => trivial
  | succ attempts ih =>
      refine .bind (.perform h) fun reply => ?_
      split
      · exact ih
      · trivial

namespace GitHubClient

variable {client : GitHubClient} {P : Request → Prop}

theorem calls_request {request : Request} (h : P request) (expected : Nat) (retry : Bool) :
    (client.request request expected retry).Calls P :=
  .check fun _ => .check fun _ => calls_requestLoop h expected retry _

theorem calls_listPages {target : Nat → Target} (h : ∀ page, P ⟨.get, target page, .none⟩)
    (invalid exceeded : String) (left page : Nat) (items : List Json) :
    (client.listPages target invalid exceeded left page items).Calls P := by
  induction left generalizing page items with
  | zero => trivial
  | succ left ih =>
      refine .bind (calls_request (h page) 200 true) fun payload => .check fun found => ?_
      show Program.Calls P (ite _ _ _)
      split
      · trivial
      · exact ih _ _

theorem calls_tagTarget (repository tag : String) :
    (client.tagTarget repository tag).Calls Request.LeavesTags := by
  have hobject : ∀ (left : Nat) (object : Option Json),
      (client.resolveObject repository left object).Calls Request.LeavesTags := by
    intro left
    induction left with
    | zero => exact fun _ => trivial
    | succ left ih =>
        refine fun object => .check fun found => ?_
        split
        · trivial
        · refine .check fun _ => .bind (calls_request ?_ 200 true) fun payload => .check fun tag =>
            ih _
          exact ⟨fun h => h rfl, fun h => h⟩
  refine (calls_request ⟨fun h => h rfl, fun h => h⟩ 200 true).andThen fun outcome => ?_
  cases outcome with
  | ok payload => exact .check fun ref => hobject 8 _
  | error error =>
      cases error with
      | api status message =>
          show Program.Calls _ (ite _ _ _)
          split <;> trivial
      | release message => trivial
      | python error => trivial
      | other className => trivial

/-- The only request about Git that writes is the one that creates the reference of a call. -/
def CreatesOnly (call : Call) (request : Request) : Prop :=
  ¬request.MovesTag ∧ (request.CreatesRef → ∃ repository tag targetSha,
    call = .createTagRef repository tag targetSha ∧
      request = ⟨.post, .refs repository, .json (refPayload tag targetSha)⟩)

theorem createsOnly_of_leavesTags {call : Call} {request : Request} (h : request.LeavesTags) :
    CreatesOnly call request :=
  ⟨h.1, fun hcreates => absurd hcreates h.2⟩

theorem calls_checkCreated (repository tag targetSha : String) (outcome : Except Failure Json) :
    (client.checkCreated repository tag targetSha outcome).Calls Request.LeavesTags := by
  cases outcome with
  | ok payload => exact .check fun _ => .bind (calls_tagTarget repository tag) fun _ => trivial
  | error error =>
      cases error with
      | api status message =>
          show Program.Calls _ (ite _ _ _)
          split
          · refine .bind (calls_tagTarget repository tag) fun target => ?_
            split <;> trivial
          · trivial
      | release message => trivial
      | python error => trivial
      | other className => trivial

theorem calls_uploadAsset (release : Json) (asset : LocalAsset) :
    (client.uploadAsset release asset).Calls Request.LeavesTags := by
  refine .check fun url => ?_
  refine .bind (calls_request ?_ 201 true) fun payload => ?_
  · exact ⟨fun h => h, fun h => h⟩
  · exact .check fun uploaded => .check fun _ => trivial

theorem calls_handle (call : Call) : (client.handle call).Calls (CreatesOnly call) := by
  cases call with
  | findRelease repository tag =>
      refine .bind (calls_listPages (fun page => ?_) _ _ 100 1 []) fun releases => trivial
      exact createsOnly_of_leavesTags ⟨fun h => h, fun h => h⟩
  | createDraft repository tag targetSha =>
      refine .bind (calls_request ?_ 201 true) fun payload => trivial
      exact createsOnly_of_leavesTags ⟨fun h => h, fun h => h⟩
  | updateRelease repository id payload =>
      refine .bind (calls_request ?_ 200 true) fun result => trivial
      exact createsOnly_of_leavesTags ⟨fun h => h, fun h => h⟩
  | deleteRelease repository id =>
      refine .bind (calls_request ?_ 204 true) fun _ => trivial
      exact createsOnly_of_leavesTags ⟨fun h => h, fun h => h⟩
  | listAssets repository id =>
      refine calls_listPages (fun page => ?_) _ _ 100 1 []
      exact createsOnly_of_leavesTags ⟨fun h => h, fun h => h⟩
  | deleteAsset repository id =>
      refine .bind (calls_request ?_ 204 true) fun _ => trivial
      exact createsOnly_of_leavesTags ⟨fun h => h, fun h => h⟩
  | uploadAsset release asset =>
      exact (calls_uploadAsset release asset).mono fun _ => createsOnly_of_leavesTags
  | tagTarget repository tag =>
      exact (calls_tagTarget repository tag).mono fun _ => createsOnly_of_leavesTags
  | createTagRef repository tag targetSha =>
      refine (calls_request ?_ 201 false).andThen fun outcome => ?_
      · exact ⟨fun h => h.2 rfl, fun _ => ⟨repository, tag, targetSha, rfl, rfl⟩⟩
      · exact (calls_checkCreated repository tag targetSha outcome).mono
          fun _ => createsOnly_of_leavesTags

end GitHubClient

end ProdkitStorage.Release
