import ProdkitStorage.Release.GitHub

/-!
# Publication is fail-closed

What a run of `publish` does, whatever it is answered.  `Allowed` says what must have
happened before a call is made; every call of every run was allowed.  `Working` is the release a
run may change: the draft that it found, or the one that it created.  `Verified` is what a run
that returns has seen.
-/

namespace ProdkitStorage.Release

open ProdkitStorage.Foundation
open ProdkitStorage.Foundation.Program
open ProdkitStorage.Python
open GitHubClient (refPayload)

/-- The calls of a run with their answers, the newest first. -/
abbrev History := List (Answered Call Call.Reply Failure)

/-- The call publishes a release. -/
def Call.Publishes : Call → Prop
  | .updateRelease _ _ payload => payload.draft = false
  | _ => False

/-- Nothing was published. -/
def Unpublished (h : History) : Prop := ∀ event ∈ h, ¬event.op.Publishes

/-- What a run publishes. -/
structure Publication where
  repository : String
  tag : String
  targetSha : String
  expected : List LocalAsset

section
variable (p : Publication)

/-- `find_release` returned this release. -/
def Found (h : History) (release : Json) : Prop :=
  ⟨.findRelease p.repository p.tag, .ok (some release)⟩ ∈ h

/-- `find_release` returned this release with `draft` `False`. -/
def FoundPublished (h : History) (release : Json) : Prop :=
  Found p h release ∧ isBool (release.field "draft") false = true

/-- The tag resolved to this. -/
def Resolved (h : History) (target : Option String) : Prop :=
  ⟨.tagTarget p.repository p.tag, .ok target⟩ ∈ h

/-- `create_draft` returned this release. -/
def Created (h : History) (release : Json) : Prop :=
  ⟨.createDraft p.repository p.tag p.targetSha, .ok release⟩ ∈ h

/-- The release with this id had these assets. -/
def Listed (h : History) (id : Ident) (remote : List Json) : Prop :=
  ⟨.listAssets p.repository id, .ok remote⟩ ∈ h

/-- The release that the run may change: a draft that was found, as it was found or as it was
returned when it was prepared, or one that was created. -/
def Working (h : History) (release : Json) : Prop :=
  Created p h release ∨
    ∃ found, Found p h found ∧ isBool (found.field "draft") true = true ∧
      (release = found ∨ ∃ id, releaseId found = .ok id ∧
        ⟨.updateRelease p.repository id ⟨true, false, p.targetSha⟩, .ok release⟩ ∈ h)

/-- The call changes a release or its assets. -/
def Call.Changes : Call → Prop
  | .updateRelease _ _ _ => True
  | .deleteAsset _ _ => True
  | .uploadAsset _ _ => True
  | _ => False

/-- What the call changes is this release, or an asset that it was listed with. -/
def Addresses (h : History) (release : Json) : Call → Prop
  | .updateRelease _ id _ => releaseId release = .ok id
  | .deleteAsset _ id => ∃ rid remote item message, releaseId release = .ok rid ∧
      Listed p h rid remote ∧ item ∈ remote ∧ numericId item message = .ok id
  | .uploadAsset changed _ => changed = release
  | _ => False

/-- What was shown before a release is published. -/
structure Cleared (older : History) (id : Ident) : Prop where
  unpublished : Unpublished older
  assets : ∃ remote, Listed p older id remote ∧ ExactAssets p.expected remote
  tag : Resolved p older (some p.targetSha)

/-- The call may be made after this history. -/
def Allowed (older : History) : Call → Prop
  | .findRelease repository' tag' => repository' = p.repository ∧ tag' = p.tag ∧ older = []
  | .createDraft repository' tag' sha =>
      repository' = p.repository ∧ tag' = p.tag ∧ sha = p.targetSha ∧
      (⟨.findRelease p.repository p.tag, .ok none⟩ ∈ older ∨
        ∃ release id, FoundPublished p older release ∧ releaseId release = .ok id ∧
          ⟨.deleteRelease p.repository id, .ok ()⟩ ∈ older)
  | .updateRelease repository' id payload => repository' = p.repository ∧
      payload.targetCommitish = p.targetSha ∧ payload.prerelease = false ∧
      (∃ release, Working p older release ∧
        Addresses p older release (.updateRelease repository' id payload)) ∧
      (payload.draft = false → Cleared p older id)
  | .deleteRelease repository' id => repository' = p.repository ∧
      Resolved p older none ∧
      ∃ release, FoundPublished p older release ∧ releaseId release = .ok id
  | .listAssets repository' _ => repository' = p.repository
  | .deleteAsset repository' id => repository' = p.repository ∧
      ∃ release, Working p older release ∧
        Addresses p older release (.deleteAsset repository' id)
  | .uploadAsset changed asset => asset ∈ p.expected ∧
      ∃ release, Working p older release ∧ Addresses p older release (.uploadAsset changed asset)
  | .tagTarget repository' tag' => repository' = p.repository ∧ tag' = p.tag
  | .createTagRef repository' tag' sha =>
      repository' = p.repository ∧ tag' = p.tag ∧ sha = p.targetSha ∧
      Resolved p older none

/-- The metadata of the published release. -/
structure PublishedMetadata (release : Json) : Prop where
  tagName : release.field "tag_name" = some (.str p.tag)
  draft : release.field "draft" = some (.bool false)
  prerelease : release.field "prerelease" = some (.bool false)
  targetCommitish : release.field "target_commitish" = some (.str p.targetSha)

/-- What a run that returns has seen: the metadata of the release, found or just published, the
tag, and last of all the assets. -/
def Verified (h : History) : Prop :=
  ∃ release id remote older, h = ⟨.listAssets p.repository id, .ok remote⟩ :: older ∧
    ExactAssets p.expected remote ∧ PublishedMetadata p release ∧
    Resolved p older (some p.targetSha) ∧
    ((Found p older release ∧ releaseId release = .ok id) ∨
      ⟨.updateRelease p.repository id ⟨false, false, p.targetSha⟩, .ok release⟩ ∈ older)

/-- What holds however the publication ends. -/
def FailClosedPost (outcome : Except Failure Unit) (h : History) : Prop :=
  Guarded (Allowed p) h ∧
    (outcome = .ok () → Verified p h)

/-- The run works on this release and has not published. -/
structure OnDraft (release : Json) (h : History) : Prop where
  guarded : Guarded (Allowed p) h
  unpublished : Unpublished h
  working : Working p h release

end

variable {p : Publication} {h older : History}

/-! ## Facts about the past stay -/

theorem Working.mono {release : Json} (hworking : Working p older release)
    (hsuffix : older <:+ h) : Working p h release := by
  rcases hworking with hcreated | ⟨found, hfound, hdraft, hrelease⟩
  · exact .inl (hsuffix.subset hcreated)
  · refine .inr ⟨found, hsuffix.subset hfound, hdraft, ?_⟩
    rcases hrelease with hsame | ⟨id, hid, hupdated⟩
    · exact .inl hsame
    · exact .inr ⟨id, hid, hsuffix.subset hupdated⟩

theorem Unpublished.cons {call : Call} {reply : Except Failure call.Reply}
    (hquiet : ¬call.Publishes)
    (hunpublished : Unpublished h) : Unpublished (⟨call, reply⟩ :: h) := by
  intro event hevent
  rcases List.mem_cons.mp hevent with rfl | hevent
  · exact hquiet
  · exact hunpublished event hevent

theorem OnDraft.cons {release : Json} {call : Call} {reply : Except Failure call.Reply}
    (hd : OnDraft p release h)
    (hallowed : Allowed p h call) (hquiet : ¬call.Publishes) :
    OnDraft p release (⟨call, reply⟩ :: h) where
  guarded := ⟨hallowed, hd.guarded⟩
  unpublished := hd.unpublished.cons hquiet
  working := hd.working.mono (List.suffix_cons _ _)

/-- A call that does not publish. -/
theorem OnDraft.perform {release : Json} {call : Call}
    {Q : Except Failure call.Reply → History → Prop}
    (hd : OnDraft p release h)
    (hallowed : Allowed p h call) (hquiet : ¬call.Publishes)
    (hQ : ∀ reply, OnDraft p release (⟨call, reply⟩ :: h) →
      Q reply (⟨call, reply⟩ :: h)) :
    Ensures Records (.perform call) Q h :=
  ensures_records.mpr fun reply => hQ reply (hd.cons hallowed hquiet)

/-! ## Checks that pass -/

theorem isBool_eq_true {value : Option Json} {b : Bool} :
    isBool value b = true ↔ value = some (.bool b) := by
  unfold isBool
  split
  · next c => rw [beq_iff_eq, Option.some.injEq, Json.bool.injEq]
  · next hne =>
      constructor
      · intro h
        cases h
      · intro h
        exact absurd h (hne b)

theorem eqStr_eq_true {value : Option Json} {s : String} :
    Json.eqStr value s = true ↔ value = some (.str s) := by
  unfold Json.eqStr
  split
  · rw [beq_iff_eq, Option.some.injEq, Json.str.injEq]
  · next hne =>
      constructor
      · intro h
        cases h
      · intro h
        exact absurd h (hne s)

theorem verifyReleaseMetadata_ok {release : Json} :
    verifyReleaseMetadata release p.tag p.targetSha = .ok () ↔
      PublishedMetadata p release := by
  rw [verifyReleaseMetadata, refuseIf_bind_ok, refuseIf_bind_ok, refuseIf_bind_ok, refuseIf_ok,
    Bool.not_eq_false, Bool.not_eq_false, Bool.not_eq_false, Bool.not_eq_false, eqStr_eq_true,
    isBool_eq_true, isBool_eq_true, eqStr_eq_true]
  exact ⟨fun ⟨h1, h2, h3, h4⟩ => ⟨h1, h2, h3, h4⟩, fun ⟨h1, h2, h3, h4⟩ => ⟨h1, h2, h3, h4⟩⟩

/-! ## The assets of the draft -/

/-- The assets that are deleted were listed. -/
theorem ensures_deleteEach {release : Json} {rid : Ident} {remote : List Json}
    (hrid : releaseId release = .ok rid) (message : String) {items : List Json}
    (hitems : ∀ item ∈ items, item ∈ remote) {h : History} (hd : OnDraft p release h)
    (hlisted : Listed p h rid remote) :
    Ensures Records (deleteEach p.repository message items)
      (fun _ after => OnDraft p release after ∧ h <:+ after) h := by
  induction items generalizing h with
  | nil => exact ensures_done.mpr ⟨hd, List.suffix_rfl⟩
  | cons item items ih =>
      refine .check (fun id hid => ?_) (fun _ _ => ⟨hd, List.suffix_rfl⟩)
      have hallowed : Allowed p h (.deleteAsset p.repository id) :=
        ⟨rfl, release, hd.working, rid, remote, item, message, hrid, hlisted,
          hitems item List.mem_cons_self, hid⟩
      refine .bind (R := fun _ after => OnDraft p release after ∧ h <:+ after) ?_ ?_ ?_
      · exact hd.perform hallowed not_false fun _ hd' => ⟨hd', List.suffix_cons _ _⟩
      · rintro _ after ⟨hd', hsuffix⟩
        exact (ih (fun item hitem => hitems item (List.mem_cons_of_mem _ hitem)) hd'
          (hsuffix.subset hlisted)).mono fun _ _ ⟨hd'', hsuffix'⟩ => ⟨hd'', hsuffix.trans hsuffix'⟩
      · exact fun _ after hafter => hafter

theorem ensures_syncAsset {release : Json} {rid : Ident} {remote : List Json}
    (hrid : releaseId release = .ok rid) {asset : LocalAsset} (hasset : asset ∈ p.expected)
    (hd : OnDraft p release h) (hlisted : Listed p h rid remote) :
    Ensures Records (syncAsset p.repository release remote asset)
      (fun _ after => OnDraft p release after ∧ h <:+ after) h := by
  unfold syncAsset
  split
  · exact ensures_done.mpr ⟨hd, List.suffix_rfl⟩
  · refine .bind (ensures_deleteEach hrid _ (fun item hitem => (List.mem_filter.mp hitem).1) hd
      hlisted) ?_ ?_
    · rintro _ after ⟨hd', hsuffix⟩
      refine .bind (R := fun _ after => OnDraft p release after ∧ h <:+ after) ?_ ?_ ?_
      · exact hd'.perform ⟨hasset, release, hd'.working, rfl⟩ not_false fun reply hd'' =>
          ⟨hd'', hsuffix.trans (List.suffix_cons _ _)⟩
      · exact fun _ after hafter => ensures_done.mpr hafter
      · exact fun _ after hafter => hafter
    · exact fun _ after hafter => hafter

theorem ensures_syncEach {release : Json} {rid : Ident} {remote : List Json}
    (hrid : releaseId release = .ok rid) {expected : List LocalAsset}
    (hexpected : ∀ asset ∈ expected, asset ∈ p.expected) {h : History} (hd : OnDraft p release h)
    (hlisted : Listed p h rid remote) :
    Ensures Records (syncEach p.repository release remote expected)
      (fun _ after => OnDraft p release after ∧ h <:+ after) h := by
  induction expected generalizing h with
  | nil => exact ensures_done.mpr ⟨hd, List.suffix_rfl⟩
  | cons asset expected ih =>
      refine .bind (ensures_syncAsset hrid (hexpected asset List.mem_cons_self) hd hlisted) ?_ ?_
      · rintro _ after ⟨hd', hsuffix⟩
        exact (ih (fun asset hasset => hexpected asset (List.mem_cons_of_mem _ hasset)) hd'
          (hsuffix.subset hlisted)).mono fun _ _ ⟨hd'', hsuffix'⟩ => ⟨hd'', hsuffix.trans hsuffix'⟩
      · exact fun _ after hafter => hafter

theorem extraAssets_subset {expected : List LocalAsset} {remote extras : List Json}
    (h : extraAssets expected remote = .ok extras) : ∀ item ∈ extras, item ∈ remote := by
  induction remote generalizing extras with
  | nil =>
      cases h
      exact fun _ hitem => hitem
  | cons item remote ih =>
      unfold extraAssets at h
      split at h
      · cases h
      · cases h
      · obtain ⟨rest, hrest, h⟩ := bind_eq_ok.mp h
        split at h
        · cases h
          exact fun other hother => List.mem_cons_of_mem _ (ih hrest other hother)
        · cases h
          intro other hother
          rcases List.mem_cons.mp hother with rfl | hother
          · exact List.mem_cons_self
          · exact List.mem_cons_of_mem _ (ih hrest other hother)

theorem ensures_listAssets {release : Json} (hd : OnDraft p release h) (id : Ident) :
    Ensures Records (listAssets p.repository id) (fun reply after => OnDraft p release after ∧
      h <:+ after ∧ ∀ remote, reply = .ok remote → Listed p after id remote) h :=
  hd.perform rfl not_false fun _ hd' =>
    ⟨hd', List.suffix_cons _ _, fun _ hreply => hreply ▸ List.mem_cons_self⟩

theorem ensures_tagTarget {release : Json} (hd : OnDraft p release h) :
    Ensures Records (tagTarget p.repository p.tag) (fun reply after => OnDraft p release after ∧
      h <:+ after ∧ ∀ target, reply = .ok target → Resolved p after target) h :=
  hd.perform ⟨rfl, rfl⟩ not_false fun _ hd' =>
    ⟨hd', List.suffix_cons _ _, fun _ hreply => hreply ▸ List.mem_cons_self⟩

/-- The draft has exactly the expected assets when the synchronization returns. -/
theorem ensures_syncDraftAssets {release : Json} (hd : OnDraft p release h) :
    Ensures Records (syncDraftAssets p.repository release p.expected)
      (fun outcome after => OnDraft p release after ∧ (outcome = .ok () →
        ∃ id remote, releaseId release = .ok id ∧ Listed p after id remote ∧
          ExactAssets p.expected remote)) h := by
  refine .check (fun id hid => ?_) (fun _ _ => ⟨hd, fun h => (nomatch h)⟩)
  refine .bind (ensures_listAssets hd id) ?_ fun _ _ hafter => ⟨hafter.1, fun h => (nomatch h)⟩
  rintro remote h ⟨hd, -, hlisted⟩
  refine .bind (ensures_syncEach hid (fun _ hasset => hasset) hd (hlisted remote rfl)) ?_
    fun _ _ hafter => ⟨hafter.1, fun h => (nomatch h)⟩
  rintro - h ⟨hd, -⟩
  refine .bind (ensures_listAssets hd id) ?_ fun _ _ hafter => ⟨hafter.1, fun h => (nomatch h)⟩
  rintro remote h ⟨hd, -, hlisted⟩
  refine .check (fun extras hextras => ?_) (fun _ _ => ⟨hd, fun h => (nomatch h)⟩)
  refine .bind (ensures_deleteEach hid _ (extraAssets_subset hextras) hd (hlisted remote rfl)) ?_
    fun _ _ hafter => ⟨hafter.1, fun h => (nomatch h)⟩
  rintro - h ⟨hd, -⟩
  refine .bind (ensures_listAssets hd id) ?_ fun _ _ hafter => ⟨hafter.1, fun h => (nomatch h)⟩
  rintro remote h ⟨hd, -, hlisted⟩
  refine ensures_done.mpr ⟨hd, fun hverified => ?_⟩
  exact ⟨id, remote, hid, hlisted remote rfl, verifyRemoteAssets_ok.mp hverified⟩

/-! ## The tag -/

theorem ensures_createMissingTag {release : Json} {existing : Option String}
    (hd : OnDraft p release h) (hresolved : Resolved p h existing) :
    Ensures Records (createMissingTag p.repository existing p.tag p.targetSha)
      (fun reply after => OnDraft p release after ∧ h <:+ after ∧
        ∀ target, reply = .ok target → Resolved p after target) h := by
  unfold createMissingTag
  split
  · next hnone =>
      refine .bind (R := fun _ after => OnDraft p release after ∧ h <:+ after) ?_ ?_
        fun _ _ hafter => ⟨hafter.1, hafter.2, fun _ h => (nomatch h)⟩
      · exact hd.perform ⟨rfl, rfl, rfl, hnone ▸ hresolved⟩ not_false fun _ hd' =>
          ⟨hd', List.suffix_cons _ _⟩
      rintro - after ⟨hd, hsuffix⟩
      exact (ensures_tagTarget hd).mono fun _ _ ⟨hd, hsuffix', htarget⟩ =>
        ⟨hd, hsuffix.trans hsuffix', htarget⟩
  · exact ensures_done.mpr ⟨hd, List.suffix_rfl, fun target htarget =>
      Except.ok.inj htarget ▸ hresolved⟩

theorem ensures_ensureExactTag {release : Json} (hd : OnDraft p release h) :
    Ensures Records (ensureExactTag p.repository p.tag p.targetSha)
      (fun outcome after => OnDraft p release after ∧ h <:+ after ∧
        (outcome = .ok () → Resolved p after (some p.targetSha))) h := by
  refine .bind (ensures_tagTarget hd) ?_
    fun _ _ hafter => ⟨hafter.1, hafter.2.1, fun h => (nomatch h)⟩
  rintro existing after ⟨hd, hsuffix, hresolved⟩
  refine .bind (ensures_createMissingTag hd (hresolved existing rfl)) ?_
    fun _ _ hafter => ⟨hafter.1, hsuffix.trans hafter.2.1, fun h => (nomatch h)⟩
  rintro target after ⟨hd, hsuffix', hresolved⟩
  refine ensures_done.mpr ⟨hd, hsuffix.trans hsuffix', fun hok => ?_⟩
  have htarget := not_not.mp (refuseIf_ok.mp hok)
  exact hresolved _ (by rw [htarget])

/-! ## The draft -/

/-- Nothing was published, and no call was made that may not be. -/
structure Quiet (p : Publication) (h : History) : Prop where
  guarded : Guarded (Allowed p) h
  unpublished : Unpublished h

theorem Quiet.perform {call : Call} {Q : Except Failure call.Reply → History → Prop}
    (hq : Quiet p h) (hallowed : Allowed p h call) (hquiet : ¬call.Publishes)
    (hQ : ∀ reply, Quiet p (⟨call, reply⟩ :: h) → Q reply (⟨call, reply⟩ :: h)) :
    Ensures Records (.perform call) Q h :=
  ensures_records.mpr fun reply => hQ reply
    ⟨⟨hallowed, hq.guarded⟩, hq.unpublished.cons hquiet⟩

theorem ensures_newDraft (hq : Quiet p h)
    (hallowed : Allowed p h (.createDraft p.repository p.tag p.targetSha)) :
    Ensures Records (newDraft p.repository p.tag p.targetSha)
      (fun outcome after => Quiet p after ∧ ∀ prepared, outcome = .ok prepared →
        prepared.2 = false ∧ Working p after prepared.1) h := by
  refine .bind (R := fun reply after => Quiet p after ∧ ∀ release, reply = .ok release →
    Created p after release) ?_ ?_ fun _ _ hafter => ⟨hafter.1, fun _ h => (nomatch h)⟩
  · exact hq.perform hallowed not_false fun _ hq' =>
      ⟨hq', fun _ hreply => hreply ▸ List.mem_cons_self⟩
  rintro release after ⟨hq, hcreated⟩
  refine ensures_done.mpr ⟨hq, fun prepared hprepared => ?_⟩
  cases hprepared
  exact ⟨rfl, .inl (hcreated release rfl)⟩

theorem ensures_prepareDraftRelease {found : Json} (hq : Quiet p h) (hfound : Found p h found) :
    Ensures Records (prepareDraftRelease p.repository found p.targetSha)
      (fun outcome after => Quiet p after ∧ ∀ release, outcome = .ok release →
        Working p after release) h := by
  refine .check (fun _ hdraft => ?_) (fun _ _ => ⟨hq, fun _ h => (nomatch h)⟩)
  have hdraft : isBool (found.field "draft") true = true := by
    rw [← Bool.not_eq_false]
    exact refuseIf_ok.mp hdraft
  refine .bind (R := fun outcome after => Quiet p after ∧ ∀ release, outcome = .ok release →
    Working p after release) ?_ ?_ fun _ _ hafter => ⟨hafter.1, fun _ h => (nomatch h)⟩
  · unfold retargetDraft
    split
    · refine .check (fun id hid => ?_) (fun _ _ => ⟨hq, fun _ h => (nomatch h)⟩)
      have hworking : Working p h found := .inr ⟨found, hfound, hdraft, .inl rfl⟩
      refine hq.perform ⟨rfl, rfl, rfl, ⟨found, hworking, hid⟩, fun h => (nomatch h)⟩
        (fun h => (nomatch h)) fun reply hq' => ⟨hq', fun release hreply => ?_⟩
      refine .inr ⟨found, List.mem_cons_of_mem _ hfound, hdraft, .inr ⟨id, hid, ?_⟩⟩
      exact hreply ▸ List.mem_cons_self
    · refine ensures_done.mpr ⟨hq, fun release hrelease => ?_⟩
      exact .inr ⟨found, hfound, hdraft, .inl (Except.ok.inj hrelease).symm⟩
  rintro release after ⟨hq, hworking⟩
  refine .check (fun _ _ => ?_) (fun _ _ => ⟨hq, fun _ h => (nomatch h)⟩)
  exact ensures_done.mpr ⟨hq, fun other hother => Except.ok.inj hother ▸ hworking release rfl⟩

/-- The release that is prepared is one to work on, or is published with the exact tag. -/
theorem ensures_prepareReleaseForPublication {release : Option Json} (hq : Quiet p h)
    (hfound : ⟨.findRelease p.repository p.tag, .ok release⟩ ∈ h) :
    Ensures Records (prepareReleaseForPublication p.repository release p.tag p.targetSha)
      (fun outcome after => Quiet p after ∧ ∀ prepared, outcome = .ok prepared →
        (prepared.2 = false → Working p after prepared.1) ∧
        (prepared.2 = true → Found p after prepared.1 ∧ PublishedMetadata p prepared.1 ∧
          Resolved p after (some p.targetSha))) h := by
  refine .bind (R := fun reply after => Quiet p after ∧ h <:+ after ∧
    ∀ target, reply = .ok target → Resolved p after target) ?_ ?_
    fun _ _ hafter => ⟨hafter.1, fun _ h => (nomatch h)⟩
  · exact hq.perform ⟨rfl, rfl⟩ not_false fun _ hq' =>
      ⟨hq', List.suffix_cons _ _, fun _ hreply => hreply ▸ List.mem_cons_self⟩
  rintro existing after ⟨hq, hsuffix, hresolved⟩
  have hresolved := hresolved existing rfl
  have hfound := hsuffix.subset hfound
  refine .check (fun _ hexisting => ?_) (fun _ _ => ⟨hq, fun _ h => (nomatch h)⟩)
  have hnew : ∀ {h : History}, Quiet p h →
      Allowed p h (.createDraft p.repository p.tag p.targetSha) →
      Ensures Records (newDraft p.repository p.tag p.targetSha)
        (fun outcome after => Quiet p after ∧ ∀ prepared, outcome = .ok prepared →
          (prepared.2 = false → Working p after prepared.1) ∧
          (prepared.2 = true → Found p after prepared.1 ∧ PublishedMetadata p prepared.1 ∧
            Resolved p after (some p.targetSha))) h := by
    intro h hq hallowed
    refine (ensures_newDraft hq hallowed).mono ?_
    rintro outcome after ⟨hq, hprepared⟩
    refine ⟨hq, fun prepared hok => ?_⟩
    obtain ⟨hfalse, hworking⟩ := hprepared prepared hok
    exact ⟨fun _ => hworking, fun htrue => by rw [hfalse] at htrue; cases htrue⟩
  cases release with
  | none => exact hnew hq ⟨rfl, rfl, rfl, .inl hfound⟩
  | some release =>
      show Ensures Records (ite _ _ _) _ _
      split
      · next hpublished =>
          split
          · refine .check (fun _ hverified => ?_) (fun _ _ => ⟨hq, fun _ h => (nomatch h)⟩)
            refine ensures_done.mpr ⟨hq, fun prepared hprepared => ?_⟩
            cases hprepared
            have htag : existing = some p.targetSha := by assumption
            refine
              ⟨fun h => (nomatch h), fun _ => ⟨hfound, verifyReleaseMetadata_ok.mp hverified, ?_⟩⟩
            rwa [htag] at hresolved
          · next hother =>
              have hnone : existing = none := by
                cases existing with
                | none => rfl
                | some sha =>
                    have hsha := not_not.mp (refuseIf_ok.mp hexisting)
                    exact absurd (congrArg some hsha) hother
              rw [hnone] at hresolved
              refine .check (fun id hid => ?_) (fun _ _ => ⟨hq, fun _ h => (nomatch h)⟩)
              refine .bind (R := fun reply after' => Quiet p after' ∧ after <:+ after' ∧
                (reply = .ok () → ⟨.deleteRelease p.repository id, .ok ()⟩ ∈ after')) ?_ ?_
                fun _ _ hafter => ⟨hafter.1, fun _ h => (nomatch h)⟩
              · exact hq.perform ⟨rfl, hresolved, release, ⟨hfound, hpublished⟩, hid⟩ not_false
                  fun _ hq' =>
                    ⟨hq', List.suffix_cons _ _, fun hreply => hreply ▸ List.mem_cons_self⟩
              · rintro ⟨⟩ after' ⟨hq, hsuffix', hdeleted⟩
                exact hnew hq ⟨rfl, rfl, rfl, .inr ⟨release, id,
                  ⟨hsuffix'.subset hfound, hpublished⟩, hid, hdeleted rfl⟩⟩
      · refine .bind (ensures_prepareDraftRelease hq hfound) ?_
          fun _ _ hafter => ⟨hafter.1, fun _ h => (nomatch h)⟩
        rintro draft after' ⟨hq, hworking⟩
        refine ensures_done.mpr ⟨hq, fun prepared hprepared => ?_⟩
        cases hprepared
        exact ⟨fun _ => hworking draft rfl, fun h => (nomatch h)⟩

/-! ## Publication -/

/-- After the publication, the tag and the assets are looked at once more. -/
theorem ensures_verifyTagged {id : Ident} {published : Json} (hguarded : Guarded (Allowed p) h)
    (hmetadata : PublishedMetadata p published)
    (hpublished : ⟨.updateRelease p.repository id ⟨false, false, p.targetSha⟩, .ok published⟩ ∈ h) :
    Ensures Records (verifyTagged p.repository id p.expected p.tag p.targetSha)
      (FailClosedPost p) h := by
  refine ensures_bind.mpr (ensures_records.mpr fun (reply : Except Failure (Option String)) => ?_)
  cases reply with
  | error e => exact ⟨⟨⟨rfl, rfl⟩, hguarded⟩, fun h => (nomatch h)⟩
  | ok target =>
      have hguarded' : Guarded (Allowed p) (⟨.tagTarget p.repository p.tag, .ok target⟩ :: h) :=
        ⟨⟨rfl, rfl⟩, hguarded⟩
      refine Ensures.check (fun _ htarget => ?_) (fun _ _ => ⟨hguarded', fun h => (nomatch h)⟩)
      have htarget := not_not.mp (refuseIf_ok.mp htarget)
      refine ensures_bind.mpr (ensures_records.mpr fun reply => ?_)
      cases reply with
      | error e => exact ⟨⟨rfl, hguarded'⟩, fun h => (nomatch h)⟩
      | ok remote =>
          refine ensures_done.mpr ⟨⟨rfl, hguarded'⟩, fun hverified => ?_⟩
          refine ⟨published, id, remote, _, rfl, verifyRemoteAssets_ok.mp hverified, hmetadata, ?_,
            .inr (List.mem_cons_of_mem _ hpublished)⟩
          rw [htarget]
          exact List.mem_cons_self

/-- The run has published and makes no more calls that change anything. -/
theorem ensures_publishDraft {release : Json} (hq : Quiet p h) (hworking : Working p h release) :
    Ensures Records (publishDraft p.repository release p.expected p.tag p.targetSha)
      (FailClosedPost p) h := by
  have hd : OnDraft p release h := ⟨hq.guarded, hq.unpublished, hworking⟩
  refine .bind (ensures_syncDraftAssets hd) ?_ fun _ _ hafter =>
    ⟨hafter.1.guarded, fun h => (nomatch h)⟩
  rintro ⟨⟩ h ⟨hd, hsynced⟩
  obtain ⟨id, remote, hid, hlisted, hexact⟩ := hsynced rfl
  refine .bind (ensures_ensureExactTag hd) ?_
    fun _ _ hafter => ⟨hafter.1.guarded, fun h => (nomatch h)⟩
  rintro ⟨⟩ h' ⟨hd, hsuffix, htag⟩
  have htag := htag rfl
  refine .check (fun id' hid' => ?_) (fun _ _ => ⟨hd.guarded, fun h => (nomatch h)⟩)
  obtain rfl : id = id' := Except.ok.inj (hid.symm.trans hid')
  have hcleared : Cleared p h' id :=
    ⟨hd.unpublished, ⟨remote, hsuffix.subset hlisted, hexact⟩, htag⟩
  have hallowed : Allowed p h' (.updateRelease p.repository id ⟨false, false, p.targetSha⟩) :=
    ⟨rfl, rfl, rfl, ⟨release, hd.working, hid⟩, fun _ => hcleared⟩
  refine ensures_bind.mpr (ensures_records.mpr fun reply => ?_)
  cases reply with
  | error e => exact ⟨⟨hallowed, hd.guarded⟩, fun h => (nomatch h)⟩
  | ok published =>
      have hguarded : Guarded (Allowed p)
          (⟨.updateRelease p.repository id ⟨false, false, p.targetSha⟩, .ok published⟩ :: h') :=
        ⟨hallowed, hd.guarded⟩
      refine Ensures.check (fun _ hverified => ?_) (fun _ _ => ⟨hguarded, fun h => (nomatch h)⟩)
      have hmetadata := verifyReleaseMetadata_ok.mp hverified
      exact ensures_verifyTagged hguarded hmetadata List.mem_cons_self

theorem ensures_publishRelease :
    Ensures Records (publishRelease p.repository p.expected p.tag p.targetSha) (FailClosedPost p)
      [] := by
  refine ensures_bind.mpr (ensures_records.mpr fun (reply : Except Failure (Option Json)) => ?_)
  have hallowed : Allowed p [] (.findRelease p.repository p.tag) := ⟨rfl, rfl, rfl⟩
  have hq : Quiet p [⟨.findRelease p.repository p.tag, reply⟩] :=
    ⟨⟨hallowed, trivial⟩, Unpublished.cons not_false fun _ h => (nomatch h)⟩
  cases reply with
  | error e => exact ⟨hq.guarded, fun h => (nomatch h)⟩
  | ok release =>
      refine Ensures.bind (ensures_prepareReleaseForPublication hq List.mem_cons_self) ?_
        fun _ _ hafter => ⟨hafter.1.guarded, fun h => (nomatch h)⟩
      rintro ⟨prepared, alreadyPublished⟩ h ⟨hq, hprepared⟩
      obtain ⟨hworking, hpublished⟩ := hprepared _ rfl
      cases alreadyPublished with
      | false => exact ensures_publishDraft hq (hworking rfl)
      | true =>
          obtain ⟨hfound, hmetadata, htag⟩ := hpublished rfl
          refine Ensures.check (fun id hid => ?_) (fun _ _ => ⟨hq.guarded, fun h => (nomatch h)⟩)
          refine ensures_bind.mpr
            (ensures_records.mpr fun (reply : Except Failure (List Json)) => ?_)
          cases reply with
          | error e => exact ⟨⟨rfl, hq.guarded⟩, fun h => (nomatch h)⟩
          | ok remote =>
              refine ensures_done.mpr ⟨⟨rfl, hq.guarded⟩, fun hverified => ?_⟩
              exact ⟨prepared, id, remote, _, rfl, verifyRemoteAssets_ok.mp hverified, hmetadata,
                htag, .inl ⟨hfound, hid⟩⟩

/-! ## The found release -/

/-- The call was made after these. -/
def Made (h older : History) (call : Call) : Prop :=
  ∃ newer reply, h = newer ++ ⟨call, reply⟩ :: older

theorem made_of_mem {event : Answered Call Call.Reply Failure} (hevent : event ∈ h) :
    ∃ older, Made h older event.op ∧ older <:+ h := by
  obtain ⟨newer, older, hh⟩ := List.append_of_mem hevent
  exact ⟨older, ⟨newer, event.reply, hh⟩, newer ++ [event], by rw [hh, ← List.append_cons]⟩

theorem Made.allowed {call : Call} (hg : Guarded (Allowed p) h) (hmade : Made h older call) :
    Allowed p older call := by
  obtain ⟨newer, reply, rfl⟩ := hmade
  exact hg.older.1

theorem Made.suffix {call : Call} (hmade : Made h older call) : older <:+ h := by
  obtain ⟨newer, reply, rfl⟩ := hmade
  exact ⟨newer ++ [⟨call, reply⟩], (List.append_cons _ _ _).symm⟩

/-- The release was found in the first call. -/
theorem found_unique (hg : Guarded (Allowed p) h) {release other : Option Json}
    (hrelease : ⟨.findRelease p.repository p.tag, .ok release⟩ ∈ h)
    (hother : ⟨.findRelease p.repository p.tag, .ok other⟩ ∈ h) : release = other := by
  obtain ⟨newer, older, hh⟩ := List.append_of_mem hrelease
  obtain ⟨newer', older', hh'⟩ := List.append_of_mem hother
  have hfirst : older = [] := (Made.allowed hg ⟨newer, _, hh⟩).2.2
  have hfirst' : older' = [] := (Made.allowed hg ⟨newer', _, hh'⟩).2.2
  rw [hfirst] at hh
  rw [hfirst', hh] at hh'
  have hsame := (List.append_inj' hh' rfl).2
  injection hsame with hevent
  injection hevent with _ hreply
  exact Except.ok.inj hreply

/-- A release is created in the place of a published one after that was deleted. -/
theorem Created.deleted {release found : Json} (hg : Guarded (Allowed p) h) (hsuffix : older <:+ h)
    (hcreated : Created p older release) (hfound : FoundPublished p h found) :
    ∃ id, releaseId found = .ok id ∧ ⟨.deleteRelease p.repository id, .ok ()⟩ ∈ older := by
  obtain ⟨newer, rfl⟩ := hsuffix
  obtain ⟨before, hmade, hbefore⟩ := made_of_mem hcreated
  obtain ⟨-, -, -, hnone | ⟨other, id, ⟨hother, -⟩, hid, hdeleted⟩⟩ := hmade.allowed hg.older
  · cases found_unique hg hfound.1 (List.mem_append_right _ (hbefore.subset hnone))
  · have hsame := Option.some.inj
      (found_unique hg hfound.1 (List.mem_append_right _ (hbefore.subset hother)))
    exact ⟨id, hsame ▸ hid, hbefore.subset hdeleted⟩

/-- What a call changes is the working release. -/
theorem Allowed.working {call : Call} (hallowed : Allowed p older call) (hchanges : call.Changes) :
    ∃ release, Working p older release ∧ Addresses p older release call := by
  cases call with
  | updateRelease _ _ _ => exact hallowed.2.2.2.1
  | deleteAsset _ _ => exact hallowed.2
  | uploadAsset _ _ => exact hallowed.2
  | findRelease _ _ => cases hchanges
  | createDraft _ _ _ => cases hchanges
  | deleteRelease _ _ => cases hchanges
  | listAssets _ _ => cases hchanges
  | tagTarget _ _ => cases hchanges
  | createTagRef _ _ _ => cases hchanges

/-- What is changed after a published release was found is a new release. -/
theorem Made.untouched {found : Json} {call : Call} (hg : Guarded (Allowed p) h)
    (hmade : Made h older call) (hchanges : call.Changes) (hfound : FoundPublished p h found) :
    ∃ release, Created p older release ∧ Addresses p older release call ∧
      ∃ id, releaseId found = .ok id ∧ ⟨.deleteRelease p.repository id, .ok ()⟩ ∈ older := by
  obtain ⟨release, hworking, haddresses⟩ := (hmade.allowed hg).working hchanges
  rcases hworking with hcreated | ⟨draft, hdraft, hisDraft, -⟩
  · exact ⟨release, hcreated, haddresses, Created.deleted hg hmade.suffix hcreated hfound⟩
  · have hsame := Option.some.inj (found_unique hg hfound.1 (hmade.suffix.subset hdraft))
    have hpublished := isBool_eq_true.mp hfound.2
    rw [hsame, isBool_eq_true.mp hisDraft] at hpublished
    cases hpublished

/-! ## Runs of `publish` -/

/-- What holds of the calls of a run, and of how it ends. -/
structure FailClosed (p : Publication) (h : History) (outcome : Except Failure Unit) : Prop where
  publishes : ∀ older repository id payload, Made h older (.updateRelease repository id payload) →
    payload.draft = false → Cleared p older id
  tags : ∀ older repository tag targetSha, Made h older (.createTagRef repository tag targetSha) →
    repository = p.repository ∧ tag = p.tag ∧ targetSha = p.targetSha ∧ Resolved p older none
  deletes : ∀ older repository id, Made h older (.deleteRelease repository id) →
    Resolved p older none ∧ ∃ release, FoundPublished p older release ∧ releaseId release = .ok id
  untouched : ∀ older call found, Made h older call → call.Changes → FoundPublished p h found →
    ∃ release, Created p older release ∧ Addresses p older release call ∧
      ∃ id, releaseId found = .ok id ∧ ⟨.deleteRelease p.repository id, .ok ()⟩ ∈ older
  returns : outcome = .ok () → Verified p h

theorem FailClosedPost.failClosed {outcome : Except Failure Unit}
    (hpost : FailClosedPost p outcome h) :
    FailClosed p h outcome where
  publishes _ _ _ _ hmade hdraft := (hmade.allowed hpost.1).2.2.2.2 hdraft
  tags _ _ _ _ hmade := hmade.allowed hpost.1
  deletes _ _ _ hmade := (hmade.allowed hpost.1).2
  untouched _ _ _ hmade hchanges hfound := hmade.untouched hpost.1 hchanges hfound
  returns := hpost.2

/-- What happened over HTTP, the newest first. -/
abbrev Traffic := List (Answered Request (fun _ => HttpReply) Failure)

/-- The calls sent these requests. -/
def Sent (client : GitHubClient) (h : History) (sent : Traffic) : Prop :=
  Served (fun before call reply after => Exec Records (client.handle call) before reply after) [] h
    sent

/-- The requests are those of the calls. -/
theorem Sent.made {client : GitHubClient} {sent : Traffic} (hsent : Sent client h sent) :
    ∀ event ∈ sent, ∃ older call, Made h older call ∧ GitHubClient.CreatesOnly call event.op := by
  unfold Sent at hsent
  induction hsent with
  | nil => exact fun _ hevent => (nomatch hevent)
  | @cons h before after call reply _ hserves ih =>
      obtain ⟨added, rfl, hadded⟩ := (GitHubClient.calls_handle call).records hserves
      intro event hevent
      rcases List.mem_append.mp hevent with hevent | hevent
      · exact ⟨h, call, ⟨[], reply, rfl⟩, hadded event hevent⟩
      · obtain ⟨older, made, ⟨newer, answer, rfl⟩, honly⟩ := ih event hevent
        exact ⟨older, made, ⟨⟨call, reply⟩ :: newer, answer, rfl⟩, honly⟩

/-- What the run of an environment publishes. -/
def Environ.publication (environ : Environ) (expected : List LocalAsset) : Publication :=
  ⟨environ.repository, environ.tag, environ.targetSha, expected⟩

/-- Whatever GitHub answers, the publication is fail-closed. -/
theorem publish_failClosed {environ : Environ} {sha256Hex : List UInt8 → String} {dist : Dist}
    {sent : Traffic} {outcome : Except Failure Unit}
    (hrun : (environ.publishHttp sha256Hex dist).Runs sent outcome) :
    (sent = [] ∧ ∃ error, outcome = .error error) ∨
      ∃ expected client h, environ.prepare sha256Hex dist = .ok (expected, client) ∧
        loadLocalAssets sha256Hex dist environ.tag = .ok expected ∧
        Sent client h sent ∧ FailClosed (environ.publication expected) h outcome ∧
        ∀ event ∈ sent, ¬event.op.MovesTag ∧ (event.op.CreatesRef → ∃ older,
          Made h older (.createTagRef environ.repository environ.tag environ.targetSha) ∧
            event.op = ⟨.post, .refs environ.repository,
              .json (refPayload environ.tag environ.targetSha)⟩) := by
  obtain ⟨result, _, hprepare, hrest⟩ := exec_andThen.mp hrun
  obtain ⟨rfl, rfl⟩ := exec_done.mp hprepare
  cases hprepared : environ.prepare sha256Hex dist with
  | error error =>
      rw [hprepared] at hrest
      obtain ⟨rfl, rfl⟩ := exec_done.mp hrest
      exact .inl ⟨rfl, error, rfl⟩
  | ok prepared =>
      obtain ⟨expected, client⟩ := prepared
      rw [hprepared] at hrest
      obtain ⟨h, hruns, hsent⟩ := (exec_interp.mp hrest).runs
      have hpost : FailClosedPost (environ.publication expected) outcome h :=
        ensures_publishRelease outcome h hruns
      refine .inr ⟨expected, client, h, rfl, (prepare_ok hprepared).1, hsent, hpost.failClosed, ?_⟩
      intro event hevent
      obtain ⟨older, call, hmade, hmoves, hcreates⟩ := Sent.made hsent event hevent
      refine ⟨hmoves, fun hcreatesRef => ?_⟩
      obtain ⟨repository, tag, targetSha, rfl, hrequest⟩ := hcreates hcreatesRef
      obtain ⟨rfl, rfl, rfl, -⟩ := hpost.failClosed.tags _ _ _ _ hmade
      exact ⟨older, hmade, hrequest⟩

/-- A draft of the sample with a file that is out of date. -/
def sampleDrafted : GitHub where
  releases := [⟨1, "v1", sampleSha, true, false, [sampleHost.asset 1 "a.tar.gz" []]⟩]
  refs := []
  tagObjects := []
  nextId := 2

/-- The draft is published, and with it the tag. -/
theorem publish_failClosed_sample : ∃ sent client h published,
    sampleEnviron.prepare sampleSha256 sampleDist = .ok (sampleAssets, client) ∧
    Sent client h sent ∧ FailClosed (sampleEnviron.publication sampleAssets) h (.ok ()) ∧
    Served (fun s request reply t => sampleHost.handle s request = (reply, t)) sampleDrafted sent
      published ∧
    published.releases.map RemoteRelease.draft = [false] ∧
    published.refs = [("v1", ⟨"commit", sampleSha⟩)] := by
  let result := (sampleEnviron.publishHttp sampleSha256 sampleDist).eval sampleHost.handle
    sampleDrafted
  have hresult : result.1 = .ok () ∧ result.2.releases.map RemoteRelease.draft = [false] ∧
      result.2.refs = [("v1", ⟨"commit", sampleSha⟩)] := by
    simp only [result, publishHttp_of_prepared sample_prepared]
    decide +kernel
  have hexec : Exec (fun s request reply t => sampleHost.handle s request = (reply, t))
      (sampleEnviron.publishHttp sampleSha256 sampleDist) sampleDrafted (.ok ()) result.2 :=
    hresult.1 ▸ exec_eval _ _
  obtain ⟨sent, hrun, hserved⟩ := hexec.runs
  obtain ⟨-, error, herror⟩ | ⟨expected, client, h, hprepared, -, hsent, hclosed, -⟩ :=
    publish_failClosed hrun
  · cases herror
  · obtain ⟨rfl, -⟩ := Prod.mk.inj (Except.ok.inj (hprepared.symm.trans sample_prepared))
    exact ⟨sent, client, h, result.2, hprepared, hsent, hclosed, hserved, hresult.2⟩

end ProdkitStorage.Release
