import ProdkitStorage.Release.Tagged

/-!
# The client on GitHub

What each method of the client does to GitHub and returns.  `Step` is a request that is served, or
that fails where there are faults.  `ensures_requestLoop`: the loop of `request` ends with an error
that a fault left behind, or with what GitHub answered to the last attempt.

Each method has one rule: it returns what it should, in the state that it should leave; or
there are faults and it fails in a state where `E` holds.
-/

namespace ProdkitStorage.Release

open ProdkitStorage.Foundation
open ProdkitStorage.Foundation.Program
open ProdkitStorage.Python

/-- A request, where a release is created for the tag only while it has none. -/
def Step (host : Host) (faults : Prop) (tag : String) (s : GitHub) (request : Request)
    (reply : Except Failure HttpReply) (t : GitHub) : Prop :=
  host.Attempt faults s request reply t ∧ (faults → host.Careful tag s request t)

/-- The exception may be one that a fault left behind. -/
def Failure.Passing : Failure → Prop
  | .api status _ => status ∈ transientStatuses
  | _ => True

variable {host : Host} {faults : Prop} {tag : String} {s : GitHub}

/-! ## Requests -/

theorem notFound_not_transient : ¬notFound.Transient := by decide

theorem validationFailed_not_transient : ¬validationFailed.Transient := by decide

theorem serve_not_transient (s : GitHub) (request : Request) :
    ¬(host.serve s request).1.Transient := by
  unfold Host.serve
  split
  · unfold Host.answer
    split
    · exact id
    · unfold Host.postRelease
      split
      · split
        · exact validationFailed_not_transient
        · exact id
      · exact validationFailed_not_transient
    · unfold Host.patchRelease
      split
      · exact notFound_not_transient
      · exact id
    · unfold Host.dropRelease
      split
      · exact notFound_not_transient
      · exact id
    · split
      · exact notFound_not_transient
      · exact id
    · unfold Host.dropAsset
      split
      · exact id
      · exact notFound_not_transient
    · unfold Host.postAsset Host.storeAsset
      split
      · exact notFound_not_transient
      · split
        · exact validationFailed_not_transient
        · split
          · exact validationFailed_not_transient
          · exact id
    · unfold GitHub.getRef
      split
      · exact notFound_not_transient
      · exact id
    · unfold GitHub.getTagObject
      split
      · exact notFound_not_transient
      · exact id
    · unfold Host.postRef
      split
      · split
        · exact validationFailed_not_transient
        · dsimp only
          split
          · exact validationFailed_not_transient
          · exact id
      · exact validationFailed_not_transient
    · exact notFound_not_transient
  · exact notFound_not_transient

theorem transient_outcome {reply : HttpReply} (h : reply.Transient) (expected : Nat) :
    ∃ error, reply.outcome expected = .error error ∧ error.Passing := by
  cases reply with
  | response status body => cases h
  | httpError status message => exact ⟨.api status message, rfl, h⟩
  | urlError reason => exact ⟨_, rfl, trivial⟩

/-- A fault ended the request in a state where `P` holds, or its last attempt was served. -/
def Ended (host : Host) (faults : Prop) (tag : String) (P : GitHub → Prop) (request : Request)
    (expected : Nat) (outcome : Except Failure Json) (t : GitHub) : Prop :=
  (faults ∧ P t ∧ ∃ error, outcome = .error error ∧ error.Passing) ∨
    ∃ before, P before ∧ (faults → host.Careful tag before request t) ∧
      outcome = (host.serve before request).1.outcome expected ∧ t = (host.serve before request).2

/-- What attempts that fail preserve holds before the last attempt. -/
theorem ensures_requestLoop {request : Request} {expected attempts : Nat} {retry : Bool}
    {P : GitHub → Prop} (hattempts : 0 < attempts) (hs : P s)
    (hfailed : faults → ∀ before after, P before → host.Effect before request after →
      host.Careful tag before request after → P after) :
    Ensures (Step host faults tag) (requestLoop request expected retry attempts)
      (Ended host faults tag P request expected) s := by
  induction attempts generalizing s with
  | zero => cases hattempts
  | succ attempts ih =>
      refine ensures_bind.mpr (ensures_perform.mpr ?_)
      rintro reply t ⟨hattempt, hcareful⟩
      cases hattempt with
      | served =>
          show Ensures _ (ite _ _ _) _ _
          rw [if_neg fun h => serve_not_transient s request h.2.1]
          exact ensures_done.mpr (.inr ⟨s, hs, hcareful, rfl, rfl⟩)
      | failed hfaults hreply heffect =>
          have hP := hfailed hfaults s t hs heffect (hcareful hfaults)
          cases hreply with
          | transient reply htransient =>
              show Ensures _ (ite _ _ _) _ _
              split
              · next hagain => exact ih hagain.2.2 hP
              · exact ensures_done.mpr (.inl ⟨hfaults, hP, transient_outcome htransient expected⟩)
          | raised className => exact .inl ⟨hfaults, hP, _, rfl, trivial⟩

/-- The targets of the API, and of uploads to an absolute HTTPS URL. -/
theorem url_https {apiUrl : String} (hapi : absoluteHttps apiUrl = .ok true) {target : Target}
    (hupload : ∀ baseUrl name, target = .upload baseUrl name → absoluteHttps baseUrl = .ok true) :
    absoluteHttps (target.url apiUrl) = .ok true := by
  have hpath : ∀ tail : String, tail.toList.head? = some '/' →
      absoluteHttps (apiUrl ++ tail) = .ok true := by
    intro tail hhead
    refine absoluteHttps_append hapi fun c hc => ?_
    obtain rfl := Option.some.inj (hhead.symm.trans hc)
    decide
  cases target with
  | releases repository page =>
      cases page with
      | none => exact hpath _ (by simp [toString])
      | some page => exact hpath _ (by simp [toString])
  | release repository id => exact hpath _ (by simp [toString])
  | assets repository id page => exact hpath _ (by simp [toString])
  | asset repository id => exact hpath _ (by simp [toString])
  | upload baseUrl name =>
      refine absoluteHttps_append (hupload baseUrl name rfl) fun c hc => ?_
      have hhead : c = '?' := by
        simpa [toString, eq_comm] using hc
      subst hhead
      decide
  | ref repository tag => exact hpath _ (by simp [toString])
  | tagObject repository sha => exact hpath _ (by simp [toString])
  | refs repository => exact hpath _ (by simp [toString])

/-- The targets of the API. -/
theorem api_https {apiUrl : String} (hapi : absoluteHttps apiUrl = .ok true) {target : Target}
    (htarget : target.repository.isSome = true) : absoluteHttps (target.url apiUrl) = .ok true := by
  refine url_https hapi fun baseUrl name hupload => ?_
  rw [hupload] at htarget
  cases htarget

namespace GitHubClient

variable {client : GitHubClient} {E : GitHub → Prop}

theorem ensures_request {request : Request} {expected : Nat} {retry : Bool} {P : GitHub → Prop}
    (hurl : absoluteHttps (request.target.url client.apiUrl) = .ok true) (hs : P s)
    (hfailed : faults → ∀ before after, P before → host.Effect before request after →
      host.Careful tag before request after → P after) :
    Ensures (Step host faults tag) (client.request request expected retry)
      (Ended host faults tag P request expected) s := by
  have hhttps : ofPython (absoluteHttps (request.target.url client.apiUrl)) = .ok true := by
    rw [hurl]
    rfl
  refine .checked hhttps
    (.checked (refuseIf_ok.mpr (by decide)) (ensures_requestLoop ?_ hs hfailed))
  split
  · exact client.attempts_pos
  · exact Nat.one_pos

/-- A request that reads changes nothing. -/
theorem serve_get (s : GitHub) (target : Target) (data : Data) :
    (host.serve s ⟨.get, target, data⟩).2 = s := by
  unfold Host.serve
  split
  · cases target with
    | releases repository page => cases page <;> rfl
    | assets repository id page =>
        show (host.answer s ⟨.get, .assets repository id page, data⟩).2 = s
        rw [Host.answer]
        dsimp only
        split <;> rfl
    | release repository id => rfl
    | asset repository id => rfl
    | upload baseUrl name => rfl
    | ref repository tag => rfl
    | tagObject repository sha => rfl
    | refs repository => rfl
  · rfl

theorem ensures_getOutcome {target : Target}
    (hurl : absoluteHttps (target.url client.apiUrl) = .ok true) :
    Ensures (Step host faults tag) (client.request ⟨.get, target, .none⟩ 200 true)
      (fun outcome t => t = s ∧ ((faults ∧ ∃ error, outcome = .error error ∧ error.Passing) ∨
        outcome = (host.serve s ⟨.get, target, .none⟩).1.outcome 200)) s := by
  refine (ensures_request (P := (· = s)) hurl rfl ?_).mono ?_
  · rintro - before after rfl heffect -
    cases heffect with
    | nothing => rfl
    | done => exact serve_get before target .none
    | starter => rfl
  · rintro outcome t (⟨hfaults, rfl, herror⟩ | ⟨before, rfl, -, rfl, rfl⟩)
    · exact ⟨rfl, .inl ⟨hfaults, herror⟩⟩
    · exact ⟨serve_get before target .none, .inr rfl⟩

/-- A request that reads is answered. -/
theorem ensures_get {target : Target} {payload : Json}
    (hurl : absoluteHttps (target.url client.apiUrl) = .ok true) (hE : faults → E s)
    (hserve : (host.serve s ⟨.get, target, .none⟩).1 = .response 200 (.json payload)) :
    Ensures (Step host faults tag) (client.request ⟨.get, target, .none⟩ 200 true)
      (Returns E fun found t => t = s ∧ found = payload) s := by
  refine (ensures_getOutcome hurl).mono ?_
  rintro outcome t ⟨rfl, ⟨hfaults, error, rfl, -⟩ | rfl⟩
  · exact hE hfaults
  · rw [hserve]
    exact ⟨rfl, rfl⟩

/-! ## Lists -/

theorem filter_isDict {items : List Json} (h : ∀ item ∈ items, isDict item = true) :
    items.filter isDict = items :=
  List.filter_eq_self.mpr h

/-- All pages of a list are read. -/
theorem ensures_listPages {target : Nat → Target} {items : List Json} {invalid exceeded : String}
    (hurl : ∀ page, absoluteHttps ((target page).url client.apiUrl) = .ok true)
    (hserve : ∀ page, (host.serve s ⟨.get, target page, .none⟩).1 = pageReply items page)
    (hdicts : ∀ item ∈ items, isDict item = true) (hE : faults → E s) (left done : Nat)
    (hdone : done * 100 ≤ items.length) (hleft : items.length < (done + left) * 100) :
    Ensures (Step host faults tag)
      (client.listPages target invalid exceeded left (done + 1) (items.take (done * 100)))
      (Returns E fun found t => t = s ∧ found = items) s := by
  induction left generalizing done with
  | zero => omega
  | succ left ih =>
      have hpage := hserve (done + 1)
      rw [pageReply, Nat.add_sub_cancel] at hpage
      refine (ensures_get (hurl (done + 1)) hE hpage).onward ?_
      rintro payload t ⟨rfl, rfl⟩
      refine .checked rfl ?_
      have htaken : items.take (done * 100) ++
          ((items.drop (done * 100)).take 100).filter isDict = items.take ((done + 1) * 100) := by
        rw [filter_isDict fun item hitem => hdicts item
          (List.mem_of_mem_drop (List.mem_of_mem_take hitem)), ← List.take_add, Nat.succ_mul]
      have hlength : ((items.drop (done * 100)).take 100).length =
          min 100 (items.length - done * 100) := by
        rw [List.length_take, List.length_drop]
      dsimp only
      rw [htaken, hlength]
      split
      · refine ensures_done.mpr ⟨rfl, List.take_of_length_le ?_⟩
        omega
      · refine ih (done + 1) ?_ ?_
        · omega
        · omega

end GitHubClient

/-! ## What a release looks like -/

@[simp] theorem releaseJson_id (release : RemoteRelease) :
    (host.releaseJson release).field "id" = some (.int release.id) := by simp [Host.releaseJson]

@[simp] theorem releaseJson_tagName (release : RemoteRelease) :
    (host.releaseJson release).field "tag_name" = some (.str release.tagName) := by
  simp [Host.releaseJson]

@[simp] theorem releaseJson_targetCommitish (release : RemoteRelease) :
    (host.releaseJson release).field "target_commitish" = some (.str release.targetCommitish) := by
  simp [Host.releaseJson]

@[simp] theorem releaseJson_draft (release : RemoteRelease) :
    (host.releaseJson release).field "draft" = some (.bool release.draft) := by
  simp [Host.releaseJson]

@[simp] theorem releaseJson_prerelease (release : RemoteRelease) :
    (host.releaseJson release).field "prerelease" = some (.bool release.prerelease) := by
  simp [Host.releaseJson]

@[simp] theorem releaseJson_uploadUrl (release : RemoteRelease) :
    (host.releaseJson release).field "upload_url" =
      some (.str (host.uploadBase release.id ++ "\x7b?name,label\x7d")) := by
  simp [Host.releaseJson]

theorem releaseId_releaseJson (release : RemoteRelease) :
    releaseId (host.releaseJson release) = .ok (.int release.id) := by
  rw [releaseId, numericId, releaseJson_id]

/-- The upload URL without its template. -/
theorem uploadBase_releaseJson (release : RemoteRelease) :
    GitHubClient.uploadUrl (host.releaseJson release) =
        .ok (host.uploadBase release.id ++ "\x7b?name,label\x7d") ∧
      GitHubClient.uploadBase (host.uploadBase release.id ++ "\x7b?name,label\x7d") =
        host.uploadBase release.id := by
  constructor
  · rw [GitHubClient.uploadUrl, releaseJson_uploadUrl]
  · rw [GitHubClient.uploadBase, String.toList_append, takeWhile_append_stop, String.ofList_toList]
    · intro c hc
      exact bne_iff_ne.mpr fun h => host.upload_plain release.id (h ▸ hc)
    · simp

@[simp] theorem assetJson_id (asset : RemoteAsset) :
    asset.json.field "id" = some (.int asset.id) := by simp [RemoteAsset.json]

@[simp] theorem assetJson_name (asset : RemoteAsset) :
    asset.json.field "name" = some (.str asset.name) := by simp [RemoteAsset.json]

@[simp] theorem assetJson_size (asset : RemoteAsset) :
    asset.json.field "size" = some (.int asset.size) := by simp [RemoteAsset.json]

@[simp] theorem assetJson_digest (asset : RemoteAsset) :
    asset.json.field "digest" = some asset.digestJson := by simp [RemoteAsset.json]

theorem numericId_assetJson (asset : RemoteAsset) (message : String) :
    numericId asset.json message = .ok (.int asset.id) := by
  rw [numericId, assetJson_id]

theorem remoteName_assetJson (asset : RemoteAsset) : remoteName asset.json = some asset.name := by
  rw [remoteName, assetJson_name]

namespace GitHubClient

variable {client : GitHubClient} {E : GitHub → Prop}

/-! ## Methods that read -/

theorem serve_answer (s : GitHub) {request : Request}
    (hrepository : request.target.repository.all (· == host.repository) = true) :
    host.serve s request = host.answer s request := by
  rw [Host.serve, if_pos hrepository]

/-- The releases with the tag, as they are listed. -/
theorem tagged_releaseJson (tag : String) (releases : List RemoteRelease) :
    ((releases.map host.releaseJson).filter fun release =>
        Json.eqStr (release.field "tag_name") tag) =
      (releases.filter fun release => release.tagName == tag).map host.releaseJson := by
  rw [List.filter_map]
  refine congrArg _ (List.filter_congr fun release _ => ?_)
  rw [Function.comp_apply, releaseJson_tagName, Json.eqStr_str]

theorem onlyRelease_map (tag : String) (releases : List RemoteRelease)
    (hone : (releases.filter fun release => release.tagName == tag).length ≤ 1) :
    onlyRelease tag (releases.map host.releaseJson) =
      .ok ((releases.filter fun release => release.tagName == tag).head?.map host.releaseJson) := by
  rw [onlyRelease, tagged_releaseJson]
  generalize releases.filter (fun release => release.tagName == tag) = found at hone
  match found, hone with
  | [], _ => rfl
  | [release], _ => rfl

/-- Two releases with the tag are refused. -/
theorem onlyRelease_two (tag : String) (releases : List RemoteRelease)
    (htwo : 1 < (releases.filter fun release => release.tagName == tag).length) :
    onlyRelease tag (releases.map host.releaseJson) =
      .error (.release s!"multiple GitHub releases found for tag {tag}") := by
  rw [onlyRelease, tagged_releaseJson]
  generalize releases.filter (fun release => release.tagName == tag) = found at htwo
  match found, htwo with
  | first :: second :: rest, _ => rfl

theorem ensures_listReleases (hapi : absoluteHttps client.apiUrl = .ok true)
    (hcount : s.releases.length < 10000) (hE : faults → E s) :
    Ensures (Step host faults tag) (client.listReleases host.repository)
      (Returns E fun found t => t = s ∧ found = s.releases.map host.releaseJson) s := by
  refine ensures_listPages (fun page => ?_) (fun page => ?_) ?_ hE 100 0 ?_ ?_
  · exact api_https hapi (by rfl)
  · rw [serve_answer s (by simp [Target.repository])]
    rfl
  · intro item hitem
    obtain ⟨release, -, rfl⟩ := List.mem_map.mp hitem
    rfl
  · exact Nat.zero_le _
  · rw [List.length_map]
    omega

theorem ensures_findRelease (hapi : absoluteHttps client.apiUrl = .ok true)
    (hcount : s.releases.length < 10000) (hone : (s.tagged tag).length ≤ 1) (hE : faults → E s) :
    Ensures (Step host faults tag) (client.findRelease host.repository tag)
      (Returns E fun found t => t = s ∧ found = (s.tagged tag).head?.map host.releaseJson) s := by
  refine (ensures_listReleases hapi hcount hE).onward ?_
  rintro found t ⟨rfl, rfl⟩
  refine ensures_done.mpr ?_
  rw [onlyRelease_map tag t.releases hone]
  exact ⟨rfl, rfl⟩

theorem ensures_listAssets {release : RemoteRelease} (hapi : absoluteHttps client.apiUrl = .ok true)
    (hs : Holds s tag release) (hE : faults → E s) :
    Ensures (Step host faults tag) (client.listAssets host.repository (.int release.id))
      (Returns E fun found t => t = s ∧ found = release.assets.map RemoteAsset.json) s := by
  refine ensures_listPages (fun page => ?_) (fun page => ?_) ?_ hE 100 0 ?_ ?_
  · exact api_https hapi (by rfl)
  · rw [serve_answer s (by simp [Target.repository])]
    rw [Host.answer]
    dsimp only
    rw [hs.byId]
  · intro item hitem
    obtain ⟨asset, -, rfl⟩ := List.mem_map.mp hitem
    rfl
  · exact Nat.zero_le _
  · have hlimit := hs.releaseWellFormed.limit
    rw [List.length_map]
    rw [assetLimit] at hlimit
    omega

theorem gitObject_json (object : GitObject) :
    gitObject (some object.json) = .ok (some (.str object.kind), object.sha) := by
  simp [gitObject, GitObject.json]

theorem ensures_resolveObject (hapi : absoluteHttps client.apiUrl = .ok true) (hE : faults → E s)
    (left : Nat) {object : GitObject} {sha : String} (hsha : s.resolve left object = some sha) :
    Ensures (Step host faults tag)
      (client.resolveObject host.repository left (some object.json))
      (Returns E fun found t => t = s ∧ found = some sha) s := by
  induction left generalizing object with
  | zero => cases hsha
  | succ left ih =>
      rw [GitHub.resolve] at hsha
      refine .checked (gitObject_json object) ?_
      dsimp only
      split at hsha
      · next hcommit =>
          cases hsha
          rw [Json.eqStr_str, hcommit, if_pos (by decide)]
          exact ensures_done.mpr ⟨rfl, rfl⟩
      · next hcommit =>
          split at hsha
          · next htag =>
              obtain ⟨target, htarget, hsha⟩ := Option.bind_eq_some_iff.mp hsha
              rw [Json.eqStr_str, if_neg (by simpa using hcommit)]
              refine .checked (refuseIf_ok.mpr (by rw [Json.eqStr_str, htag]; decide)) ?_
              have hserve : (host.serve s ⟨.get, .tagObject host.repository object.sha, .none⟩).1 =
                  .response 200
                    (.json (.obj [("sha", .str object.sha), ("object", target.json)])) := by
                rw [serve_answer s (by simp [Target.repository])]
                show s.getTagObject object.sha = _
                rw [GitHub.getTagObject, htarget]
              refine (ensures_get (api_https hapi (by rfl)) hE hserve).onward ?_
              rintro payload t ⟨rfl, rfl⟩
              refine .checked rfl ?_
              have hobject : (Json.obj [("sha", .str object.sha), ("object", target.json)]).field
                  "object" = some target.json := by simp
              rw [hobject]
              exact ih hsha
          · cases hsha

/-- The tag is resolved. -/
theorem ensures_tagTarget {other : String} {target : Option String}
    (hapi : absoluteHttps client.apiUrl = .ok true)
    (htarget : s.TagTarget other target) (hE : faults → E s) :
    Ensures (Step host faults tag) (client.tagTarget host.repository other)
      (Returns E fun found t => t = s ∧ found = target) s := by
  refine ensures_andThen.mpr ((ensures_getOutcome (api_https hapi (by rfl))).mono ?_)
  have hserve : (host.serve s ⟨.get, .ref host.repository other, .none⟩).1 = s.getRef other := by
    rw [serve_answer s (by simp [Target.repository])]
    rfl
  rw [hserve]
  rintro outcome t ⟨rfl, ⟨hfaults, error, rfl, hpassing⟩ | rfl⟩
  · cases error with
    | api status message =>
        have hstatus : status ≠ 404 := by
          rintro rfl
          exact absurd hpassing (show (404 : Nat) ∉ transientStatuses by decide)
        show Ensures _ (ite _ _ _) _ _
        rw [if_neg hstatus]
        exact ensures_done.mpr (hE hfaults)
    | release message => exact ensures_done.mpr (hE hfaults)
    | python error => exact ensures_done.mpr (hE hfaults)
    | other className => exact ensures_done.mpr (hE hfaults)
  · cases target with
    | none =>
        have hlookup : t.refs.lookup other = none := htarget
        rw [GitHub.getRef, hlookup]
        exact ensures_done.mpr ⟨rfl, rfl⟩
    | some sha =>
        obtain ⟨object, hlookup, hsha⟩ := htarget
        rw [GitHub.getRef, hlookup]
        refine .checked rfl ?_
        have hobject :
            (Json.obj [("ref", .str ("refs/tags/" ++ other)), ("object", object.json)]).field
              "object" = some object.json := by simp
        rw [hobject]
        exact ensures_resolveObject hapi hE 8 hsha

end GitHubClient

end ProdkitStorage.Release
