import ProdkitStorage.Release.Methods

/-!
# The methods that change something

What `create_draft`, `update_release`, `delete_asset`, `upload_asset` and `create_tag_ref` do to
GitHub.  Attempts that fail may have had their effect, so that the last attempt may find what an
earlier one left: a release that is changed again, an asset that is gone, an upload whose name is
taken.  Only a draft that was created is not found out, and would be created twice.
-/

namespace ProdkitStorage.Release

open ProdkitStorage.Foundation
open ProdkitStorage.Foundation.Program
open ProdkitStorage.Python

variable {host : Host} {faults : Prop} {tag : String} {s : GitHub}

/-- The draft that GitHub creates. -/
def GitHub.newDraft (s : GitHub) (tag targetSha : String) : RemoteRelease :=
  ⟨s.nextId, tag, targetSha, true, false, []⟩

/-- A reference to a commit. -/
def GitHub.addRef (s : GitHub) (tag targetSha : String) : GitHub :=
  { s with refs := (tag, ⟨"commit", targetSha⟩) :: s.refs }

/-- What an update makes of a release. -/
def ReleaseUpdate.apply (payload : ReleaseUpdate) (release : RemoteRelease) : RemoteRelease :=
  { release with
    draft := payload.draft
    prerelease := payload.prerelease
    targetCommitish := payload.targetCommitish }

/-- A request whose effect is the same when it is made again: a fault ended it, or GitHub answered
`first`; it answered `later` when an attempt before had the effect. -/
inductive Changed (faults : Prop) (s after : GitHub) (first later : HttpReply) (expected : Nat) :
    Except Failure Json → GitHub → Prop where
  | failed {error : Failure} {t : GitHub} : faults → error.Passing → t = s ∨ t = after →
      Changed faults s after first later expected (.error error) t
  | first : Changed faults s after first later expected (first.outcome expected) after
  | again : faults → Changed faults s after first later expected (later.outcome expected) after

namespace GitHubClient

variable {client : GitHubClient} {E : GitHub → Prop}

theorem ensures_change {request : Request} {expected : Nat} {retry : Bool} {after : GitHub}
    {first later : HttpReply} (hurl : absoluteHttps (request.target.url client.apiUrl) = .ok true)
    (hstarter : ∀ before, host.starter before request = before)
    (hserve : host.serve s request = (first, after))
    (hagain : host.serve after request = (later, after)) :
    Ensures (Step host faults tag) (client.request request expected retry)
      (Changed faults s after first later expected) s := by
  refine (ensures_request (P := fun t => t = s ∨ (faults ∧ t = after)) hurl (.inl rfl) ?_).mono ?_
  · rintro hfaults before t (rfl | ⟨-, rfl⟩) heffect -
    · cases heffect with
      | nothing => exact .inl rfl
      | done =>
          rw [hserve]
          exact .inr ⟨hfaults, rfl⟩
      | starter => exact .inl (hstarter _)
    · cases heffect with
      | nothing => exact .inr ⟨hfaults, rfl⟩
      | done =>
          rw [hagain]
          exact .inr ⟨hfaults, rfl⟩
      | starter => exact .inr ⟨hfaults, hstarter _⟩
  · rintro outcome t (⟨hfaults, hP, error, rfl, hpassing⟩ |
      ⟨before, rfl | ⟨hfaults, rfl⟩, -, rfl, rfl⟩)
    · exact .failed hfaults hpassing (hP.imp_right And.right)
    · rw [hserve]
      exact .first
    · rw [hagain]
      exact .again hfaults

/-! ## Drafts -/

theorem serve_createDraft {targetSha : String}
    (hdrafts : ∀ release ∈ s.tagged tag, release.draft = true) :
    host.serve s ⟨.post, .releases host.repository none, .json (draftPayload tag targetSha)⟩ =
      (.response 201 (.json (host.releaseJson (s.newDraft tag targetSha))),
        s.addRelease (s.newDraft tag targetSha)) := by
  have hpublished :
      (s.releases.any fun release => release.tagName == tag && !release.draft) = false := by
    rw [List.any_eq_false]
    intro release hrelease htagged
    rw [Bool.and_eq_true, Bool.not_eq_true'] at htagged
    have hdraft := hdrafts release (List.mem_filter.mpr ⟨hrelease, htagged.1⟩)
    rw [htagged.2] at hdraft
    cases hdraft
  rw [serve_answer s (by simp [Target.repository])]
  show host.postRelease s (draftPayload tag targetSha) = _
  have htagName : (draftPayload tag targetSha).field "tag_name" = some (.str tag) := by
    simp [draftPayload]
  have htarget : (draftPayload tag targetSha).field "target_commitish" = some (.str targetSha) := by
    simp [draftPayload]
  have hdraft : isBool ((draftPayload tag targetSha).field "draft") true = true := by
    simp [draftPayload, isBool]
  have hprerelease : isBool ((draftPayload tag targetSha).field "prerelease") true = false := by
    simp [draftPayload, isBool]
  rw [Host.postRelease, htagName, htarget, hdraft, hprerelease]
  dsimp only
  rw [if_neg (by rw [hpublished]; exact Bool.false_ne_true)]
  rfl

/-- A draft is created for a tag without a release. -/
theorem ensures_createDraft {targetSha : String} (hapi : absoluteHttps client.apiUrl = .ok true)
    (hwellFormed : s.WellFormed) (hnone : s.tagged tag = []) (hE : faults → E s)
    (hE' : faults → E (s.addRelease (s.newDraft tag targetSha))) :
    Ensures (Step host faults tag) (client.createDraft host.repository tag targetSha)
      (Returns E fun release t => release = host.releaseJson (s.newDraft tag targetSha) ∧
        t = s.addRelease (s.newDraft tag targetSha)) s := by
  have hcreated : Holds (s.addRelease (s.newDraft tag targetSha)) tag (s.newDraft tag targetSha) :=
    .addRelease hwellFormed hnone rfl rfl rfl
  have hserve : host.serve s
      ⟨.post, .releases host.repository none, .json (draftPayload tag targetSha)⟩ =
      (.response 201 (.json (host.releaseJson (s.newDraft tag targetSha))),
        s.addRelease (s.newDraft tag targetSha)) := by
    refine serve_createDraft fun release hrelease => ?_
    rw [hnone] at hrelease
    cases hrelease
  -- after a draft was created, a second one is not
  have hagain : ∀ after, host.Careful tag (s.addRelease (s.newDraft tag targetSha))
      ⟨.post, .releases host.repository none, .json (draftPayload tag targetSha)⟩ after →
      after = s.addRelease (s.newDraft tag targetSha) := by
    intro after hcareful
    by_contra hne
    have htagged := hcareful rfl rfl hne
    rw [hcreated.only] at htagged
    cases htagged
  refine Ensures.onward (R := fun payload t =>
    payload = host.releaseJson (s.newDraft tag targetSha) ∧
      t = s.addRelease (s.newDraft tag targetSha)) ?_ ?_
  · refine (ensures_request (P := fun t => t = s ∨
      (faults ∧ t = s.addRelease (s.newDraft tag targetSha))) (api_https hapi (by rfl)) (.inl rfl)
      ?_).mono ?_
    · rintro hfaults before after (rfl | ⟨-, rfl⟩) heffect hcareful
      · cases heffect with
        | nothing => exact .inl rfl
        | done =>
            rw [hserve]
            exact .inr ⟨hfaults, rfl⟩
        | starter => exact .inl rfl
      · exact .inr ⟨hfaults, hagain after hcareful⟩
    · rintro outcome t (⟨hfaults, hP, error, rfl, -⟩ |
        ⟨before, hbefore | ⟨hfaults, rfl⟩, hcareful, rfl, rfl⟩)
      · rcases hP with rfl | ⟨-, rfl⟩
        · exact hE hfaults
        · exact hE' hfaults
      · subst hbefore
        rw [hserve]
        exact ⟨rfl, rfl⟩
      · have hsame := congrArg GitHub.nextId (hagain _ (hcareful hfaults))
        have hdrafts : ∀ release ∈ (s.addRelease (s.newDraft tag targetSha)).tagged tag,
            release.draft = true := by
          intro release hrelease
          rw [hcreated.only] at hrelease
          rw [List.mem_singleton.mp hrelease]
          rfl
        rw [serve_createDraft hdrafts] at hsame
        exact absurd hsame (Nat.succ_ne_self _)
  · rintro payload t ⟨rfl, rfl⟩
    exact ensures_done.mpr ⟨rfl, rfl⟩

/-! ## Updates -/

theorem patched_updatePayload (payload : ReleaseUpdate) :
    Host.patched (updatePayload payload) = payload.apply := by
  funext release
  simp [Host.patched, updatePayload, ReleaseUpdate.apply]

/-- An update that is made twice is one update. -/
theorem modify_modify {f : RemoteRelease → RemoteRelease} {id : Nat}
    (hid : ∀ release, (f release).id = release.id) (hf : ∀ release, f (f release) = f release) :
    (s.modify id f).modify id f = s.modify id f := by
  rw [GitHub.modify, GitHub.modify, List.map_map]
  refine congrArg (fun releases => { s with releases := releases }) (List.map_congr_left ?_)
  intro release _
  rw [Function.comp_apply]
  by_cases hsame : release.id = id
  · rw [if_pos hsame, hid, if_pos hsame, hf]
  · rw [if_neg hsame, if_neg hsame]

theorem serve_updateRelease {release : RemoteRelease} {payload : ReleaseUpdate}
    (hs : Holds s tag release) (htag : payload.draft = true ∨ s.refs.lookup tag ≠ none) :
    host.serve s
        ⟨.patch, .release host.repository (.int release.id), .json (updatePayload payload)⟩ =
      (.response 200 (.json (host.releaseJson (payload.apply release))),
        s.modify release.id payload.apply) := by
  rw [serve_answer s (by simp [Target.repository])]
  show host.patchRelease s (.int release.id) (updatePayload payload) = _
  have htagged : (s.modify release.id payload.apply).ensureTag (payload.apply release) =
      s.modify release.id payload.apply := by
    refine if_neg fun hmissing => ?_
    obtain ⟨hdraft, hlookup⟩ := hmissing
    rcases htag with htag | htag
    · exact Bool.false_ne_true (hdraft.symm.trans htag)
    · exact htag (hs.tagName ▸ hlookup)
  rw [Host.patchRelease, hs.byId]
  dsimp only
  rw [patched_updatePayload, htagged]

theorem ensures_updateRelease {release : RemoteRelease} {payload : ReleaseUpdate}
    (hapi : absoluteHttps client.apiUrl = .ok true) (hs : Holds s tag release)
    (htag : payload.draft = true ∨ s.refs.lookup tag ≠ none) (hE : faults → E s)
    (hE' : faults → E (s.modify release.id payload.apply)) :
    Ensures (Step host faults tag) (client.updateRelease host.repository (.int release.id) payload)
      (Returns E fun updated t => updated = host.releaseJson (payload.apply release) ∧
        t = s.modify release.id payload.apply) s := by
  have hserve : host.serve s
      ⟨.patch, .release host.repository (.int release.id), .json (updatePayload payload)⟩ =
      (.response 200 (.json (host.releaseJson (payload.apply release))),
        s.modify release.id payload.apply) := serve_updateRelease hs htag
  have hagain : host.serve (s.modify release.id payload.apply)
      ⟨.patch, .release host.repository (.int release.id), .json (updatePayload payload)⟩ =
      (.response 200 (.json (host.releaseJson (payload.apply release))),
        s.modify release.id payload.apply) := by
    refine (serve_updateRelease (hs.modify (f := payload.apply) rfl rfl rfl) htag).trans ?_
    exact congrArg (Prod.mk _) (modify_modify (f := payload.apply) (fun _ => rfl) fun _ => rfl)
  refine Ensures.onward (R := fun updated t => updated = host.releaseJson (payload.apply release) ∧
    t = s.modify release.id payload.apply) ?_ ?_
  · refine (ensures_change (api_https hapi (by rfl)) (fun _ => rfl) hserve hagain).mono ?_
    intro outcome t hchanged
    cases hchanged with
    | failed hfaults _ ht =>
        rcases ht with rfl | rfl
        · exact hE hfaults
        · exact hE' hfaults
    | first => exact ⟨rfl, rfl⟩
    | again _ => exact ⟨rfl, rfl⟩
  · rintro updated t ⟨rfl, rfl⟩
    exact ensures_done.mpr ⟨rfl, rfl⟩

/-! ## Assets -/

theorem serve_deleteAsset {release : RemoteRelease} {asset : RemoteAsset} (hs : Holds s tag release)
    (hasset : asset ∈ release.assets) :
    host.serve s ⟨.delete, .asset host.repository (.int asset.id), .none⟩ =
      (.response 204 .empty, s.dropAsset (.int asset.id)) := by
  have hfound : (s.releases.any fun release => release.assets.any fun other =>
      Ident.int asset.id = .int other.id) = true := by
    refine List.any_eq_true.mpr ⟨release, hs.mem, List.any_eq_true.mpr ⟨asset, hasset, ?_⟩⟩
    exact decide_eq_true rfl
  rw [serve_answer s (by simp [Target.repository])]
  show Host.dropAsset s (.int asset.id) = _
  rw [Host.dropAsset, if_pos hfound]

/-- An asset that is gone is not found. -/
theorem serve_deleteAsset_again (s : GitHub) (id : Ident) :
    host.serve (s.dropAsset id) ⟨.delete, .asset host.repository id, .none⟩ =
      (notFound, s.dropAsset id) := by
  have hgone : ((s.dropAsset id).releases.any fun release => release.assets.any fun asset =>
      id = .int asset.id) = false := by
    rw [List.any_eq_false]
    intro release hrelease hfound
    obtain ⟨before, -, rfl⟩ := List.mem_map.mp hrelease
    obtain ⟨asset, hasset, hid⟩ := List.any_eq_true.mp hfound
    have hother := (List.mem_filter.mp hasset).2
    rw [decide_eq_true_eq] at hother hid
    exact hother hid
  rw [serve_answer _ (by simp [Target.repository])]
  show Host.dropAsset (s.dropAsset id) id = _
  rw [Host.dropAsset, if_neg (by rw [hgone]; exact Bool.false_ne_true)]

/-- An asset is deleted; that it is gone is an error when the first reply was lost. -/
theorem ensures_deleteAsset {release : RemoteRelease} {asset : RemoteAsset}
    (hapi : absoluteHttps client.apiUrl = .ok true) (hs : Holds s tag release)
    (hasset : asset ∈ release.assets) (hE : faults → E s)
    (hE' : faults → E (s.dropAsset (.int asset.id))) :
    Ensures (Step host faults tag) (client.deleteAsset host.repository (.int asset.id))
      (Returns E fun _ t => t = s.dropAsset (.int asset.id)) s := by
  refine Ensures.onward (R := fun _ t => t = s.dropAsset (.int asset.id)) ?_ ?_
  · refine (ensures_change (api_https hapi (by rfl)) (fun _ => rfl) (serve_deleteAsset hs hasset)
      (serve_deleteAsset_again s _)).mono ?_
    intro outcome t hchanged
    cases hchanged with
    | failed hfaults _ ht =>
        rcases ht with rfl | rfl
        · exact hE hfaults
        · exact hE' hfaults
    | first => rfl
    | again hfaults => exact hE' hfaults
  · rintro _ t rfl
    exact ensures_done.mpr rfl

theorem serve_upload (s : GitHub) (baseUrl name : String) (content : List UInt8) :
    host.serve s ⟨.post, .upload baseUrl name, .bytes content⟩ =
      host.postAsset s baseUrl name content :=
  serve_answer s rfl

/-- A name that is not taken, in a release that is not full. -/
theorem storeAsset_new {release : RemoteRelease} {name : String} {content : List UInt8}
    (hs : Holds s tag release) (hstored : host.storedName name content = some name)
    (hname : name ∉ release.assets.map RemoteAsset.name)
    (hlimit : release.assets.length < assetLimit) (store : Nat → String → RemoteAsset) :
    host.storeAsset s (host.uploadBase release.id) name content store =
      (.response 201 (.json (store s.nextId name).json),
        s.addAsset release.id (store s.nextId name)) := by
  have hfree : ¬((release.assets.any fun asset => asset.name == name) = true ∨
      assetLimit ≤ release.assets.length) := by
    rintro (htaken | hfull)
    · obtain ⟨asset, hasset, hsame⟩ := List.any_eq_true.mp htaken
      exact hname (eq_of_beq hsame ▸ List.mem_map_of_mem hasset)
    · exact absurd hfull (Nat.not_le.mpr hlimit)
  rw [Host.storeAsset, hs.byUpload host]
  dsimp only
  rw [hstored]
  exact if_neg hfree

theorem storeAsset_taken {release : RemoteRelease} {name : String} {content : List UInt8}
    (hs : Holds s tag release) (hstored : host.storedName name content = some name)
    (hname : name ∈ release.assets.map RemoteAsset.name) (store : Nat → String → RemoteAsset) :
    host.storeAsset s (host.uploadBase release.id) name content store = (validationFailed, s) := by
  obtain ⟨asset, hasset, hsame⟩ := List.mem_map.mp hname
  have htaken : (release.assets.any fun asset => asset.name == name) = true :=
    List.any_eq_true.mpr ⟨asset, hasset, beq_iff_eq.mpr hsame⟩
  rw [Host.storeAsset, hs.byUpload host]
  dsimp only
  rw [hstored]
  exact if_pos (.inl htaken)

/-- The upload that is served is the local asset. -/
theorem assetMatches_asset {asset : LocalAsset} (hsize : asset.size = asset.content.length)
    (hdigest : asset.digest = host.sha256Hex asset.content) (id : Nat) :
    assetMatches asset (host.asset id asset.name asset.content).json = true := by
  refine assetMatches_iff.mpr ⟨remoteName_assetJson _, ?_, ?_⟩
  · rw [assetJson_size, hsize]
    simp [Host.asset, Json.eqInt]
  · rw [assetJson_digest, hdigest]
    rfl

/-- A name that is free is uploaded; that it is taken is an error when the first reply was lost. -/
theorem ensures_uploadAsset {release : RemoteRelease} {asset : LocalAsset}
    (hs : Holds s tag release) (hsize : asset.size = asset.content.length)
    (hdigest : asset.digest = host.sha256Hex asset.content)
    (hstored : host.storedName asset.name asset.content = some asset.name)
    (hname : asset.name ∉ release.assets.map RemoteAsset.name)
    (hlimit : release.assets.length < assetLimit) (hE : faults → E s)
    (hE' : faults → ∀ stored : RemoteAsset, stored.id = s.nextId → stored.name = asset.name →
      E (s.addAsset release.id stored)) :
    Ensures (Step host faults tag) (client.uploadAsset (host.releaseJson release) asset)
      (Returns E fun _ t =>
        t = s.addAsset release.id (host.asset s.nextId asset.name asset.content)) s := by
  have hnew := storeAsset_new hs hstored hname hlimit
  have htaken : ∀ stored : RemoteAsset, stored.id = s.nextId → stored.name = asset.name →
      ∀ store, host.storeAsset (s.addAsset release.id stored) (host.uploadBase release.id)
        asset.name asset.content store = (validationFailed, s.addAsset release.id stored) := by
    intro stored hid hsame
    have hmem : stored ∈ release.assets ++ [stored] :=
      List.mem_append_right _ (List.mem_singleton_self stored)
    have hadded := hs.addAsset hid (hsame ▸ hname) hlimit
    have hserve := storeAsset_taken hadded hstored (List.mem_map.mpr ⟨stored, hmem, hsame⟩)
    exact hserve
  obtain ⟨hurl, hbase⟩ := @uploadBase_releaseJson host release
  refine .checked hurl ?_
  rw [hbase]
  refine Ensures.onward (R := fun payload t =>
    payload = (host.asset s.nextId asset.name asset.content).json ∧
      t = s.addAsset release.id (host.asset s.nextId asset.name asset.content)) ?_ ?_
  · refine (ensures_request (P := fun t => t = s ∨ (faults ∧ ∃ stored : RemoteAsset,
      stored.id = s.nextId ∧ stored.name = asset.name ∧ t = s.addAsset release.id stored)) ?_
      (.inl rfl) ?_).mono ?_
    · refine absoluteHttps_append (host.upload_https release.id) fun c hc => ?_
      have hhead : c = '?' := by
        simpa [toString, eq_comm] using hc
      subst hhead
      decide
    · rintro hfaults before after (rfl | ⟨-, stored, hid, hsame, rfl⟩) heffect -
      · cases heffect with
        | nothing => exact .inl rfl
        | done =>
            rw [serve_upload, Host.postAsset, hnew]
            exact .inr ⟨hfaults, _, rfl, rfl, rfl⟩
        | starter =>
            refine .inr ⟨hfaults, ⟨before.nextId, asset.name, 0, none⟩, rfl, rfl, ?_⟩
            exact congrArg Prod.snd (hnew _)
      · refine .inr ⟨hfaults, stored, hid, hsame, ?_⟩
        cases heffect with
        | nothing => rfl
        | done =>
            rw [serve_upload, Host.postAsset, htaken stored hid hsame]
        | starter => exact congrArg Prod.snd (htaken stored hid hsame _)
    · rintro outcome t (⟨hfaults, hP, error, rfl, -⟩ |
        ⟨before, rfl | ⟨hfaults, stored, hid, hsame, rfl⟩, -, rfl, rfl⟩)
      · rcases hP with rfl | ⟨-, stored, hid, hsame, rfl⟩
        · exact hE hfaults
        · exact hE' hfaults stored hid hsame
      · rw [serve_upload, Host.postAsset, hnew]
        exact ⟨rfl, rfl⟩
      · rw [serve_upload, Host.postAsset, htaken stored hid hsame]
        exact hE' hfaults stored hid hsame
  · rintro payload t ⟨rfl, rfl⟩
    refine .checked rfl (.checked (refuseIf_ok.mpr ?_) (ensures_done.mpr rfl))
    rw [assetMatches_asset hsize hdigest]
    exact Bool.false_ne_true.symm

/-! ## The tag -/

theorem tagTarget_addRef (s : GitHub) (tag targetSha : String) :
    (s.addRef tag targetSha).TagTarget tag (some targetSha) :=
  ⟨⟨"commit", targetSha⟩, List.lookup_cons_self, rfl⟩

/-- The reference of a payload. -/
theorem dropPrefix_refPayload (tag targetSha : String) :
    ∃ ref : String, (refPayload tag targetSha).field "ref" = some (.str ref) ∧
      ref.toList.dropPrefix? "refs/tags/".toList = some tag.toList := by
  refine ⟨"refs/tags/" ++ tag, ?_, ?_⟩
  · simp [refPayload, toString]
  · rw [String.toList_append, List.dropPrefix?_eq_some_iff]
    exact ⟨_, rfl, BEq.rfl⟩

theorem serve_createTagRef {targetSha : String} (haccepts : host.acceptsRef tag targetSha = true)
    (hmissing : s.refs.lookup tag = none) :
    ∃ created, isDict created = true ∧
      host.serve s ⟨.post, .refs host.repository, .json (refPayload tag targetSha)⟩ =
        (.response 201 (.json created), s.addRef tag targetSha) := by
  obtain ⟨ref, href, hdropped⟩ := dropPrefix_refPayload tag targetSha
  have hsha : (refPayload tag targetSha).field "sha" = some (.str targetSha) := by simp [refPayload]
  refine ⟨.obj [("ref", .str ref), ("object", GitObject.json ⟨"commit", targetSha⟩)], rfl, ?_⟩
  rw [serve_answer s (by simp [Target.repository])]
  show host.postRef s (refPayload tag targetSha) = _
  rw [Host.postRef, href, hsha]
  dsimp only
  rw [hdropped]
  dsimp only
  rw [String.ofList_toList, haccepts, hmissing]
  rfl

theorem serve_createTagRef_again (s : GitHub) (tag targetSha : String) :
    host.serve (s.addRef tag targetSha)
        ⟨.post, .refs host.repository, .json (refPayload tag targetSha)⟩ =
      (validationFailed, s.addRef tag targetSha) := by
  obtain ⟨ref, href, hdropped⟩ := dropPrefix_refPayload tag targetSha
  have hsha : (refPayload tag targetSha).field "sha" = some (.str targetSha) := by simp [refPayload]
  have hlookup : ((s.addRef tag targetSha).refs.lookup tag).isSome = true := by
    rw [GitHub.addRef, List.lookup_cons_self]
    rfl
  rw [serve_answer _ (by simp [Target.repository])]
  show host.postRef (s.addRef tag targetSha) (refPayload tag targetSha) = _
  rw [Host.postRef, href, hsha]
  dsimp only
  rw [hdropped]
  dsimp only
  rw [String.ofList_toList]
  exact if_pos (.inr hlookup)

/-- A tag that is absent is created; that it exists is no error when it is where it should be. -/
theorem ensures_createTagRef {targetSha : String} (hapi : absoluteHttps client.apiUrl = .ok true)
    (haccepts : host.acceptsRef tag targetSha = true) (hmissing : s.refs.lookup tag = none)
    (hE : faults → E s) (hE' : faults → E (s.addRef tag targetSha)) :
    Ensures (Step host faults tag) (client.createTagRef host.repository tag targetSha)
      (Returns E fun _ t => t = s.addRef tag targetSha) s := by
  obtain ⟨created, hdict, hserve⟩ := serve_createTagRef haccepts hmissing
  refine ensures_andThen.mpr ((ensures_change (api_https hapi (by rfl)) (fun _ => rfl) hserve
    (serve_createTagRef_again s tag targetSha)).mono ?_)
  intro outcome t hchanged
  cases hchanged with
  | failed hfaults hpassing ht =>
      have hfailed : E t := by
        rcases ht with rfl | rfl
        · exact hE hfaults
        · exact hE' hfaults
      rename_i error
      cases error with
      | api status message =>
          have hstatus : status ≠ 422 := by
            rintro rfl
            exact absurd hpassing (show (422 : Nat) ∉ transientStatuses by decide)
          show Ensures _ (ite _ _ _) _ _
          rw [if_neg hstatus]
          exact ensures_done.mpr hfailed
      | release message => exact ensures_done.mpr hfailed
      | python error => exact ensures_done.mpr hfailed
      | other className => exact ensures_done.mpr hfailed
  | first =>
      refine .checked (if_pos hdict) ((ensures_tagTarget hapi (tagTarget_addRef s tag targetSha)
        hE').onward ?_)
      rintro target t ⟨rfl, rfl⟩
      rw [refuseIf_ok.mpr (not_not_intro rfl)]
      exact ensures_done.mpr rfl
  | again _ =>
      refine (ensures_tagTarget hapi (tagTarget_addRef s tag targetSha) hE').onward ?_
      rintro target t ⟨rfl, rfl⟩
      show Ensures _ (ite _ _ _) _ _
      rw [if_pos rfl]
      exact ensures_done.mpr rfl

end GitHubClient

end ProdkitStorage.Release
