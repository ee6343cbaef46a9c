import ProdkitStorage.Release.Resumable

/-!
# Publishing again

What a publication that fails leaves behind, and what a later one makes of it.
`resumes_publishRelease`: publishing returns from where it may start, or a fault ends it and
what it leaves is such a state again.  The exception is a draft that is created twice, which
every later publication refuses.
-/

namespace ProdkitStorage.Release

open ProdkitStorage.Foundation
open ProdkitStorage.Foundation.Program
open ProdkitStorage.Python

variable {host : Host} {faults : Prop} {tag targetSha : String} {expected : List LocalAsset}
  {client : GitHubClient} {s t : GitHub} {release : RemoteRelease}

/-! ## Rules of the calls -/

/-- The methods of the client, where requests are made one after the other. -/
def Serves (host : Host) (faults : Prop) (tag : String) (client : GitHubClient) (s : GitHub)
    (call : Call) (reply : Except Failure call.Reply) (t : GitHub) : Prop :=
  Exec (Step host faults tag) (client.handle call) s reply t

theorem ensures_method {call : Call} {Q : Except Failure call.Reply → GitHub → Prop} :
    Ensures (Serves host faults tag client) (perform call) Q s ↔
      Ensures (Step host faults tag) (client.handle call) Q s :=
  ensures_perform

theorem Drafted.left (hs : Drafted tag targetSha expected s release) (hfaults : faults) :
    Left faults tag targetSha expected s :=
  ⟨hfaults, .drafted hs⟩

/-- An expected asset whose name is free is uploaded. -/
theorem resumes_uploadAsset {asset : LocalAsset}
    (hpublishable : Publishable host tag targetSha expected) (hasset : asset ∈ expected)
    (hs : Prepared tag targetSha expected s release)
    (hfree : asset.name ∉ release.assets.map RemoteAsset.name) :
    Ensures (Serves host faults tag client) (uploadAsset (host.releaseJson release) asset)
      (Returns (Left faults tag targetSha expected) fun _ t => ∃ stored : RemoteAsset,
        Prepared tag targetSha expected t { release with assets := release.assets ++ [stored] } ∧
          stored.name = asset.name ∧ assetMatches asset stored.json = true) s := by
  have hexpected : asset.name ∈ expected.map LocalAsset.name := List.mem_map_of_mem hasset
  have hlimit := hs.room.length_lt hs.holds.releaseWellFormed.names hexpected hfree
  have hsize := hpublishable.sizes asset hasset
  have hdigest := hpublishable.digests asset hasset
  refine (ensures_method.mpr (GitHubClient.ensures_uploadAsset hs.holds hsize hdigest
    (hpublishable.stored asset hasset) hfree hlimit hs.left ?_)).returns ?_
  · intro hfaults stored hid hname
    have hadded := hs.addAsset hid (hname ▸ hfree) hlimit (hname ▸ hexpected)
    exact hadded.left hfaults
  · rintro _ t rfl
    exact ⟨_, hs.addAsset rfl hfree hlimit hexpected, rfl,
      GitHubClient.assetMatches_asset hsize hdigest s.nextId⟩

section
variable (hapi : absoluteHttps client.apiUrl = .ok true)
include hapi

theorem resumes_listed (hs : Prepared tag targetSha expected s release) :
    Ensures (Serves host faults tag client) (listAssets host.repository (.int release.id))
      (Returns (Left faults tag targetSha expected) fun found t =>
        t = s ∧ found = release.assets.map RemoteAsset.json) s :=
  ensures_method.mpr (GitHubClient.ensures_listAssets hapi hs.holds hs.left)

/-- Some of the assets are deleted. -/
theorem resumes_deleteEach {items : List RemoteAsset} {message : String}
    (hs : Prepared tag targetSha expected s release)
    (hitems : ∀ item ∈ items, item ∈ release.assets)
    (hids : (items.map RemoteAsset.id).Nodup) :
    Ensures (Serves host faults tag client)
      (deleteEach host.repository message (items.map RemoteAsset.json))
      (Returns (Left faults tag targetSha expected) fun _ t =>
        Prepared tag targetSha expected t
          { release with assets := without items release.assets }) s := by
  induction items generalizing s release with
  | nil =>
      have hall : without [] release.assets = release.assets :=
        List.filter_eq_self.mpr fun asset _ => rfl
      rw [hall]
      exact ensures_done.mpr hs
  | cons item items ih =>
      obtain ⟨hitem, hitems⟩ := List.forall_mem_cons.mp hitems
      obtain ⟨hid, hids⟩ := List.nodup_cons.mp hids
      refine .checked (numericId_assetJson item message) ?_
      have hdropped := hs.dropAsset (.int item.id)
      refine (ensures_method.mpr (GitHubClient.ensures_deleteAsset hapi hs.holds hitem hs.left
        hdropped.left)).onward ?_
      rintro _ t rfl
      have hrest : ∀ other ∈ items, other ∈ release.assets.filter fun asset =>
          Ident.int item.id ≠ .int asset.id := by
        intro other hother
        refine List.mem_filter.mpr ⟨hitems other hother, decide_eq_true fun hsame => hid ?_⟩
        rw [Ident.int.injEq, Int.ofNat_inj] at hsame
        exact hsame ▸ List.mem_map_of_mem hother
      refine (ih hdropped hrest hids).mono ?_
      have hassets : without items (release.assets.filter fun asset =>
          Ident.int item.id ≠ .int asset.id) = without (item :: items) release.assets := by
        rw [without, without, List.filter_filter]
        refine List.filter_congr fun asset _ => ?_
        rw [← Bool.decide_and, decide_eq_decide, List.map_cons, List.mem_cons, not_or, ne_eq,
          Ident.int.injEq, Int.ofNat_inj, eq_comm, and_comm]
      dsimp only
      rw [hassets]
      exact fun _ _ h => h

/-- An expected asset is there, or the one with its name is replaced. -/
theorem resumes_syncAsset {remote : List RemoteAsset} {asset : LocalAsset}
    (hpublishable : Publishable host tag targetSha expected) (hasset : asset ∈ expected)
    (hs : Prepared tag targetSha expected s release)
    (hremote : named asset.name remote = named asset.name release.assets) :
    Ensures (Serves host faults tag client)
      (syncAsset host.repository (host.releaseJson release) (remote.map RemoteAsset.json) asset)
      (Returns (Left faults tag targetSha expected) fun _ t => ∃ assets,
        Prepared tag targetSha expected t { release with assets := assets } ∧
          Uploaded asset assets ∧
          ∀ name, name ≠ asset.name → named name assets = named name release.assets) s := by
  rw [syncAsset, remoteNamed_map, hremote]
  split
  · next hmatches =>
      exact ensures_done.mpr ⟨release.assets, hs, matchesOne_named.mp hmatches, fun _ _ => rfl⟩
  · have hids := hs.holds.releaseWellFormed.ids
    have hitems : ∀ item ∈ named asset.name release.assets, item ∈ release.assets :=
      fun item hitem => (mem_named.mp hitem).1
    refine (resumes_deleteEach hapi hs hitems (hids.sublist (List.filter_sublist.map _))).onward ?_
    intro _ t ht
    have hfree : asset.name ∉ (without (named asset.name release.assets) release.assets).map
        RemoteAsset.name := by
      intro hmem
      obtain ⟨item, hitem, hname⟩ := List.mem_map.mp hmem
      exact not_mem_without (mem_named.mpr ⟨(List.mem_filter.mp hitem).1, hname⟩) hitem
    refine (resumes_uploadAsset hpublishable hasset ht hfree).onward ?_
    rintro _ u ⟨stored, hu, hname, hmatches⟩
    refine ensures_done.mpr ⟨_, hu, ⟨stored, ?_, hmatches⟩, fun name hother => ?_⟩
    · rw [named_append, named_eq_nil.mpr hfree, if_pos hname, List.nil_append]
    · rw [named_append, if_neg (hname.trans_ne hother.symm), List.append_nil]
      refine named_without hids hitems fun item hitem hsame => ?_
      exact hother (hsame.symm.trans (mem_named.mp hitem).2)

/-- The expected assets are synchronised one after the other; each leaves the names of the others
alone. -/
theorem resumes_syncEach {remote : List RemoteAsset} {left : List LocalAsset}
    (hpublishable : Publishable host tag targetSha expected)
    (hleft : ∀ asset ∈ left, asset ∈ expected)
    (hnames : (left.map LocalAsset.name).Nodup) (hs : Prepared tag targetSha expected s release)
    (hremote : ∀ asset ∈ left, named asset.name remote = named asset.name release.assets) :
    Ensures (Serves host faults tag client)
      (syncEach host.repository (host.releaseJson release) (remote.map RemoteAsset.json) left)
      (Returns (Left faults tag targetSha expected) fun _ t => ∃ assets,
        Prepared tag targetSha expected t { release with assets := assets } ∧
          (∀ asset ∈ left, Uploaded asset assets) ∧
          ∀ name ∉ left.map LocalAsset.name, named name assets = named name release.assets) s := by
  induction left generalizing s release with
  | nil => exact ensures_done.mpr ⟨release.assets, hs, fun _ h => (nomatch h), fun _ _ => rfl⟩
  | cons asset left ih =>
      obtain ⟨hasset, hleft⟩ := List.forall_mem_cons.mp hleft
      obtain ⟨hname, hnames⟩ := List.nodup_cons.mp hnames
      obtain ⟨hfirst, hremote⟩ := List.forall_mem_cons.mp hremote
      refine (resumes_syncAsset hapi hpublishable hasset hs hfirst).onward ?_
      rintro _ t ⟨assets, ht, huploaded, hothers⟩
      have hrest : ∀ other ∈ left, named other.name remote = named other.name assets := by
        intro other hother
        rw [hremote other hother, hothers]
        exact fun hsame => hname (hsame ▸ List.mem_map_of_mem hother)
      refine (ih hleft hnames ht hrest).returns ?_
      rintro _ u ⟨later, hu, hrestUploaded, hkept⟩
      refine ⟨later, hu, List.forall_mem_cons.mpr
        ⟨huploaded.congr (hkept _ hname), hrestUploaded⟩, ?_⟩
      intro name hnot
      rw [List.map_cons, List.mem_cons, not_or] at hnot
      exact (hkept name hnot.2).trans (hothers name hnot.1)

/-- The draft gets exactly the expected assets. -/
theorem resumes_syncDraftAssets (hpublishable : Publishable host tag targetSha expected)
    (hs : Prepared tag targetSha expected s release) :
    Ensures (Serves host faults tag client)
      (syncDraftAssets host.repository (host.releaseJson release) expected)
      (Returns (Left faults tag targetSha expected) fun _ t => ∃ assets,
        Prepared tag targetSha expected t { release with assets := assets } ∧
          ExactAssets expected (assets.map RemoteAsset.json)) s := by
  refine .checked (releaseId_releaseJson release) ((resumes_listed hapi hs).onward ?_)
  rintro remote t ⟨rfl, rfl⟩
  refine (resumes_syncEach hapi hpublishable (fun _ h => h) hpublishable.names hs
    fun _ _ => rfl).onward ?_
  rintro _ t ⟨assets, ht, huploaded, -⟩
  refine (resumes_listed hapi ht).onward ?_
  rintro remote t ⟨rfl, rfl⟩
  have hids : (assets.map RemoteAsset.id).Nodup := ht.holds.releaseWellFormed.ids
  have hextras : ((unexpected expected assets).map RemoteAsset.id).Nodup :=
    hids.sublist (List.filter_sublist.map _)
  have hpresent : ∀ item ∈ unexpected expected assets, item ∈ assets :=
    fun item hitem => (List.mem_filter.mp hitem).1
  refine .checked (extraAssets_map assets) ((resumes_deleteEach hapi ht hpresent hextras).onward ?_)
  intro _ u hu
  refine (resumes_listed hapi hu).onward ?_
  rintro remote u ⟨rfl, rfl⟩
  have hexact := exactAssets_without hids huploaded
  have hverified := verifyRemoteAssets_ok.mpr hexact
  dsimp only
  rw [hverified]
  exact ensures_done.mpr ⟨_, hu, hexact⟩

/-- The tag is where it should be. -/
theorem resumes_ensureExactTag (hpublishable : Publishable host tag targetSha expected)
    (hs : Prepared tag targetSha expected s release) :
    Ensures (Serves host faults tag client) (ensureExactTag host.repository tag targetSha)
      (Returns (Left faults tag targetSha expected) fun _ t =>
        Prepared tag targetSha expected t release ∧ t.TagTarget tag (some targetSha)) s := by
  have hresolved : ∀ t, t.TagTarget tag (some targetSha) →
      Prepared tag targetSha expected t release →
      Ensures (Serves host faults tag client) (tagTarget host.repository tag)
        (Returns (Left faults tag targetSha expected) fun found u =>
          u = t ∧ found = some targetSha) t :=
    fun t htag ht => ensures_method.mpr (GitHubClient.ensures_tagTarget hapi htag ht.left)
  rcases hs.tagFree with hmissing | htag
  · refine (ensures_method.mpr (GitHubClient.ensures_tagTarget hapi hmissing hs.left)).onward ?_
    rintro existing t ⟨rfl, rfl⟩
    have htag := GitHubClient.tagTarget_addRef t tag targetSha
    refine Ensures.onward (R := fun found u =>
      u = t.addRef tag targetSha ∧ found = some targetSha) ?_ ?_
    · refine (ensures_method.mpr (GitHubClient.ensures_createTagRef hapi hpublishable.acceptsRef
        hmissing hs.left hs.addRef.left)).onward ?_
      rintro _ u rfl
      exact hresolved _ htag hs.addRef
    · rintro found u ⟨rfl, rfl⟩
      rw [refuseIf_ok.mpr (not_not_intro rfl)]
      exact ensures_done.mpr ⟨hs.addRef, htag⟩
  · refine (hresolved s htag hs).onward ?_
    rintro found t ⟨rfl, rfl⟩
    refine .checked (a := some targetSha) rfl ?_
    rw [refuseIf_ok.mpr (not_not_intro rfl)]
    exact ensures_done.mpr ⟨hs, htag⟩

/-! ## Publishing -/

/-- The draft gets its assets and its tag, and is published. -/
theorem resumes_publishDraft (hpublishable : Publishable host tag targetSha expected)
    (hs : Prepared tag targetSha expected s release) :
    Ensures (Serves host faults tag client)
      (publishDraft host.repository (host.releaseJson release) expected tag targetSha)
      (Returns (Left faults tag targetSha expected) fun _ t =>
        Resumable tag targetSha expected t) s := by
  refine (resumes_syncDraftAssets hapi hpublishable hs).onward ?_
  rintro _ t ⟨assets, ht, hexact⟩
  refine (resumes_ensureExactTag hapi hpublishable ht).onward ?_
  rintro _ u ⟨hu, htag⟩
  have hpublished := hu.publish htag hexact
  have hleft : faults → Left faults tag targetSha expected _ :=
    fun hfaults => ⟨hfaults, .published hpublished⟩
  have htagged : u.refs.lookup tag ≠ none := by
    obtain ⟨object, hlookup, -⟩ := htag
    rw [hlookup]
    exact Option.some_ne_none object
  refine .checked (releaseId_releaseJson release) ((ensures_method.mpr
    (GitHubClient.ensures_updateRelease hapi hu.holds (.inr htagged) hu.left hleft)).onward ?_)
  rintro updated v ⟨rfl, rfl⟩
  refine .checked (verifyReleaseMetadata_releaseJson hpublished.holds.tagName rfl rfl rfl) ?_
  refine (ensures_method.mpr (GitHubClient.ensures_tagTarget hapi hpublished.tagTarget
    hleft)).onward ?_
  rintro target v ⟨rfl, rfl⟩
  refine .checked (refuseIf_ok.mpr (not_not_intro rfl)) ((ensures_method.mpr
    (GitHubClient.ensures_listAssets hapi hpublished.holds hleft)).onward ?_)
  rintro remote v ⟨rfl, rfl⟩
  rw [verifyRemoteAssets_ok.mpr hpublished.exact]
  exact ensures_done.mpr (.published hpublished)

/-- A draft becomes the one that will be published. -/
theorem resumes_prepareDraftRelease (hs : Drafted tag targetSha expected s release) :
    Ensures (Serves host faults tag client)
      (prepareDraftRelease host.repository (host.releaseJson release) targetSha)
      (Returns (Left faults tag targetSha expected) fun found t => ∃ draft,
        found = host.releaseJson draft ∧ Prepared tag targetSha expected t draft) s := by
  have hdraft : isBool ((host.releaseJson release).field "draft") true = true := by
    rw [releaseJson_draft, hs.draft]
    rfl
  refine .checked (refuseIf_ok.mpr (by rw [hdraft]; exact Bool.false_ne_true.symm)) ?_
  refine Ensures.onward (R := fun found t => ∃ draft, found = host.releaseJson draft ∧
    Prepared tag targetSha expected t draft) ?_ ?_
  · unfold retargetDraft
    split
    · refine .checked (releaseId_releaseJson release) ((ensures_method.mpr
        (GitHubClient.ensures_updateRelease hapi hs.holds (.inl rfl) hs.left
          hs.retarget.left)).returns ?_)
      rintro updated t ⟨hupdated, rfl⟩
      exact ⟨_, hupdated, hs.retarget⟩
    · next hexact =>
        rw [not_or, releaseJson_targetCommitish, releaseJson_prerelease, Json.eqStr_str] at hexact
        refine ensures_done.mpr ⟨release, rfl, hs, ?_, ?_⟩
        · simpa [isBool] using hexact.2
        · simpa using hexact.1
  · rintro found t ⟨draft, rfl, ht⟩
    exact .checked ht.checked (ensures_done.mpr ⟨draft, rfl, ht⟩)

theorem resumes_tagTarget (hs : s.TagFree tag targetSha)
    (hleft : faults → Left faults tag targetSha expected s) :
    Ensures (Serves host faults tag client) (tagTarget host.repository tag)
      (Returns (Left faults tag targetSha expected) fun found t =>
        t = s ∧ (found = none ∨ found = some targetSha)) s := by
  rcases hs with htag | htag
  · refine (ensures_method.mpr (GitHubClient.ensures_tagTarget hapi htag hleft)).returns ?_
    exact fun found t h => ⟨h.1, .inl h.2⟩
  · refine (ensures_method.mpr (GitHubClient.ensures_tagTarget hapi htag hleft)).returns ?_
    exact fun found t h => ⟨h.1, .inr h.2⟩

/-- The release of the tag is recognised, taken over or made. -/
theorem resumes_prepareRelease (hpublishable : Publishable host tag targetSha expected)
    (hs : Resumable tag targetSha expected s) :
    Ensures (Serves host faults tag client)
      (prepareReleaseForPublication host.repository ((s.tagged tag).head?.map host.releaseJson) tag
        targetSha)
      (Returns (Left faults tag targetSha expected) fun found t => ∃ release,
        found.1 = host.releaseJson release ∧
          (found.2 = true ∧ Published tag targetSha expected t release ∨
            found.2 = false ∧ Prepared tag targetSha expected t release)) s := by
  have hleft : faults → Left faults tag targetSha expected s := fun hfaults => ⟨hfaults, hs⟩
  cases hs with
  | unreleased hs =>
      rw [hs.none]
      refine (resumes_tagTarget hapi hs.tagFree hleft).onward ?_
      rintro existing t ⟨rfl, hexisting⟩
      have hnew := hs.newDraft hpublishable.few
      refine .checked (checkExistingTag_ok hexisting) ((ensures_method.mpr
        (GitHubClient.ensures_createDraft hapi hs.wellFormed hs.none hleft hnew.left)).onward ?_)
      rintro found u ⟨rfl, rfl⟩
      exact ensures_done.mpr ⟨_, rfl, .inr ⟨rfl, hnew⟩⟩
  | drafted hs =>
      rename_i release
      have hdraft : isBool ((host.releaseJson release).field "draft") false = false := by
        rw [releaseJson_draft, hs.draft]
        rfl
      rw [hs.holds.only]
      refine (resumes_tagTarget hapi hs.tagFree hleft).onward ?_
      rintro existing t ⟨rfl, hexisting⟩
      refine .checked (checkExistingTag_ok hexisting) ?_
      show Ensures _ (ite _ _ _) _ _
      rw [if_neg (by rw [hdraft]; exact Bool.false_ne_true)]
      refine (resumes_prepareDraftRelease hapi hs).onward ?_
      rintro found u ⟨draft, rfl, hu⟩
      exact ensures_done.mpr ⟨draft, rfl, .inr ⟨rfl, hu⟩⟩
  | published hs =>
      rename_i release
      have hdraft : isBool ((host.releaseJson release).field "draft") false = true := by
        rw [releaseJson_draft, hs.draft]
        rfl
      rw [hs.holds.only]
      refine (ensures_method.mpr (GitHubClient.ensures_tagTarget hapi hs.tagTarget hleft)).onward ?_
      rintro existing t ⟨rfl, rfl⟩
      refine .checked (checkExistingTag_ok (.inr rfl)) ?_
      show Ensures _ (ite _ _ _) _ _
      rw [if_pos hdraft, if_pos rfl]
      refine .checked (verifyReleaseMetadata_releaseJson hs.holds.tagName hs.draft hs.prerelease
        hs.target) ?_
      exact ensures_done.mpr ⟨release, rfl, .inl ⟨rfl, hs⟩⟩

/-- Publishing returns, or a fault ends it; it may be started again after both. -/
theorem resumes_publishRelease (hpublishable : Publishable host tag targetSha expected)
    (hs : Resumable tag targetSha expected s) :
    Ensures (Serves host faults tag client)
      (publishRelease host.repository expected tag targetSha)
      (Returns (Left faults tag targetSha expected) fun _ t =>
        Resumable tag targetSha expected t) s := by
  have hleft : faults → Left faults tag targetSha expected s := fun hfaults => ⟨hfaults, hs⟩
  have hbounds : s.releases.length < 10000 ∧ (s.tagged tag).length ≤ 1 := by
    cases hs with
    | unreleased hs =>
        rw [hs.none]
        exact ⟨(Nat.lt_succ_self _).trans hs.count, Nat.zero_le 1⟩
    | drafted hs =>
        rw [hs.holds.only]
        exact ⟨hs.count, le_rfl⟩
    | published hs =>
        rw [hs.holds.only]
        exact ⟨hs.count, le_rfl⟩
  refine (ensures_method.mpr (GitHubClient.ensures_findRelease hapi hbounds.1 hbounds.2
    hleft)).onward ?_
  rintro found t ⟨rfl, rfl⟩
  refine (resumes_prepareRelease hapi hpublishable hs).onward ?_
  rintro ⟨json, done⟩ u ⟨release, rfl, ⟨rfl, hu⟩ | ⟨rfl, hu⟩⟩
  · refine .checked (releaseId_releaseJson release) ((ensures_method.mpr
      (GitHubClient.ensures_listAssets hapi hu.holds fun hfaults =>
        ⟨hfaults, .published hu⟩)).onward ?_)
    rintro remote v ⟨rfl, rfl⟩
    rw [verifyRemoteAssets_ok.mpr hu.exact]
    exact ensures_done.mpr (.published hu)
  · exact resumes_publishDraft hapi hpublishable hu

end

/-! ## Runs of `publish` -/

/-- The initial states: the tag has no release or one draft, and the reference is absent or where it
should be; there is a page for one more release, and the expected assets fit into the draft. -/
structure Startable (tag targetSha : String) (expected : List LocalAsset) (s : GitHub) : Prop where
  wellFormed : s.WellFormed
  drafts : s.tagged tag = [] ∨ ∃ release, s.tagged tag = [release] ∧ release.draft = true
  tagFree : s.TagFree tag targetSha
  count : s.releases.length + 1 < 10000
  room : ∀ release ∈ s.tagged tag, Room expected release.assets

theorem Startable.resumable (hs : Startable tag targetSha expected s) :
    Resumable tag targetSha expected s := by
  rcases hs.drafts with hnone | ⟨release, honly, hdraft⟩
  · exact .unreleased ⟨hs.wellFormed, hnone, hs.count, hs.tagFree⟩
  · exact .drafted ⟨⟨hs.wellFormed, honly⟩, (Nat.lt_succ_self _).trans hs.count, hs.tagFree, hdraft,
      hs.room release (honly ▸ List.mem_singleton_self release)⟩

variable {environ : Environ} {dist : Dist}

theorem publishable_of_loaded
    (h : loadLocalAssets host.sha256Hex dist environ.tag = .ok expected)
    (hstored : ∀ asset ∈ expected, host.storedName asset.name asset.content = some asset.name)
    (haccepts : host.acceptsRef environ.tag environ.targetSha = true) :
    Publishable host environ.tag environ.targetSha expected := by
  obtain ⟨hnames, hfiles⟩ := loadLocalAssets_ok h
  refine ⟨hnames, ?_, ?_, hstored, ?_, haccepts⟩
  · intro asset hasset
    obtain ⟨file, -, rfl⟩ := hfiles asset hasset
    rfl
  · intro asset hasset
    obtain ⟨file, -, rfl⟩ := hfiles asset hasset
    rfl
  · exact (loadLocalAssets_length h).trans (by decide)

/-- A run of `publish` from a state where it may start ends in one. -/
theorem resumes_publishHttp (hrepository : environ.repository = host.repository)
    (hprepared : environ.prepare host.sha256Hex dist = .ok (expected, client))
    (hapi : absoluteHttps client.apiUrl = .ok true)
    (hpublishable : Publishable host environ.tag environ.targetSha expected)
    (hs : Resumable environ.tag environ.targetSha expected s) :
    Ensures (Step host faults environ.tag) (environ.publishHttp host.sha256Hex dist)
      (Returns (Left faults environ.tag environ.targetSha expected) fun _ t =>
        Resumable environ.tag environ.targetSha expected t) s := by
  rw [publishHttp_of_prepared hprepared, hrepository]
  exact ensures_interp.mpr (resumes_publishRelease hapi hpublishable hs)

/-- A run without failures. -/
theorem exec_handle (p : Http Unit) (s : GitHub) :
    Exec (Step host False tag) p s (p.eval host.handle s).1 (p.eval host.handle s).2 := by
  refine (exec_eval p s).mono ?_
  rintro s request reply t heq
  cases heq
  exact ⟨.served, False.elim⟩

/-- After a run in which no second release was made for the tag, publishing returns. -/
theorem publish_rerunnable (hrepository : environ.repository = host.repository)
    (hprepared : environ.prepare host.sha256Hex dist = .ok (expected, client))
    (hstored : ∀ asset ∈ expected, host.storedName asset.name asset.content = some asset.name)
    (haccepts : host.acceptsRef environ.tag environ.targetSha = true)
    (hs : Startable environ.tag environ.targetSha expected s) {outcome : Except Failure Unit}
    (hrun : Exec (fun s request reply t =>
        host.Attempt True s request reply t ∧ host.Careful environ.tag s request t)
      (environ.publishHttp host.sha256Hex dist) s outcome t) :
    ((environ.publishHttp host.sha256Hex dist).eval host.handle t).1 = .ok () := by
  obtain ⟨hloaded, hapi⟩ := prepare_ok hprepared
  have hpublishable := publishable_of_loaded hloaded hstored haccepts
  have hsteps : Exec (Step host True environ.tag) (environ.publishHttp host.sha256Hex dist) s
      outcome t :=
    hrun.mono fun _ _ _ _ h => ⟨h.1, fun _ => h.2⟩
  have ht : Resumable environ.tag environ.targetSha expected t := by
    have hreturns := resumes_publishHttp hrepository hprepared hapi hpublishable hs.resumable
      _ _ hsteps
    cases outcome with
    | ok _ => exact hreturns
    | error error => exact hreturns.2
  have hagain := resumes_publishHttp hrepository hprepared hapi hpublishable ht _ _
    (exec_handle (environ.publishHttp host.sha256Hex dist) t)
  cases houtcome : ((environ.publishHttp host.sha256Hex dist).eval host.handle t).1 with
  | ok _ => rfl
  | error error =>
      rw [houtcome] at hagain
      exact hagain.1.elim

/-! ## A draft that is made twice -/

/-- Every later publication refuses two releases of its tag. -/
theorem two_releases_refused (hrepository : environ.repository = host.repository)
    (hprepared : environ.prepare host.sha256Hex dist = .ok (expected, client))
    (hcount : s.releases.length < 10000) (htwo : 1 < (s.tagged environ.tag).length) :
    ((environ.publishHttp host.sha256Hex dist).eval host.handle s).1 =
      .error (.release s!"multiple GitHub releases found for tag {environ.tag}") := by
  have hrefused : Ensures (Step host False environ.tag) (environ.publishHttp host.sha256Hex dist)
      (fun outcome _ => outcome =
        .error (.release s!"multiple GitHub releases found for tag {environ.tag}")) s := by
    rw [publishHttp_of_prepared hprepared, hrepository]
    refine ensures_interp.mpr (.bind (R := fun outcome _ => outcome =
      .error (.release s!"multiple GitHub releases found for tag {environ.tag}"))
      (ensures_method.mpr ?_) ?_ ?_)
    · have hlisted : Ensures (Step host False environ.tag) (client.listReleases host.repository)
          (Returns (fun _ => False) fun found t =>
            t = s ∧ found = s.releases.map host.releaseJson) s :=
        GitHubClient.ensures_listReleases (prepare_ok hprepared).2 hcount id
      refine hlisted.bind ?_ fun _ _ hfalse => hfalse.elim
      rintro found t ⟨rfl, rfl⟩
      exact ensures_done.mpr (GitHubClient.onlyRelease_two environ.tag t.releases htwo)
    · intro found t hfound
      cases hfound
    · intro error t herror
      cases herror
      rfl
  exact hrefused _ _ (exec_handle _ s)

section
variable {serves : GitHub → Request → Except Failure HttpReply → GitHub → Prop}

theorem exec_request {request : Request} {expected : Nat} {retry : Bool}
    {outcome : Except Failure Json}
    (hurl : absoluteHttps (request.target.url client.apiUrl) = .ok true)
    (hloop : Exec serves
      (requestLoop request expected retry (if retry then client.maxAttempts else 1)) s outcome t) :
    Exec serves (client.request request expected retry) s outcome t := by
  have hhttps : ofPython (absoluteHttps (request.target.url client.apiUrl)) = .ok true := by
    rw [hurl]
    rfl
  exact .checked hhttps (.checked (refuseIf_ok.mpr (by decide)) hloop)

/-- An attempt that is answered. -/
theorem exec_requestLoop {request : Request} {expected attempts : Nat} {retry : Bool}
    {reply : HttpReply} (hattempts : 0 < attempts) (hserves : serves s request (.ok reply) t)
    (hstop : ¬reply.Transient) :
    Exec serves (requestLoop request expected retry attempts) s (reply.outcome expected) t := by
  obtain ⟨left, rfl⟩ := Nat.exists_eq_succ_of_ne_zero hattempts.ne'
  refine .onward (exec_perform.mpr hserves) ?_
  show Exec serves (ite _ _ _) _ _ _
  rw [if_neg fun hagain => hstop hagain.2.1]
  exact .done _ _

/-- An attempt that is made again. -/
theorem exec_requestLoop_again (attempts : Nat) {request : Request} {expected : Nat}
    {reply : HttpReply} {outcome : Except Failure Json} {u : GitHub} (hattempts : 0 < attempts)
    (hserves : serves s request (.ok reply) t) (htransient : reply.Transient)
    (hagain : Exec serves (requestLoop request expected true attempts) t outcome u) :
    Exec serves (requestLoop request expected true (attempts + 1)) s outcome u := by
  refine .onward (exec_perform.mpr hserves) ?_
  show Exec serves (ite _ _ _) _ _ _
  rw [if_pos ⟨rfl, htransient, hattempts⟩]
  exact hagain

/-- An attempt that raises an exception. -/
theorem exec_requestLoop_raises {request : Request} {expected attempts : Nat} {retry : Bool}
    {error : Failure} (hattempts : 0 < attempts) (hserves : serves s request (.error error) t) :
    Exec serves (requestLoop request expected retry attempts) s (.error error) t := by
  obtain ⟨left, rfl⟩ := Nat.exists_eq_succ_of_ne_zero hattempts.ne'
  exact .fails (exec_perform.mpr hserves)

/-- In an empty repository, publishing comes to the creation of a draft. -/
theorem exec_publish_empty {error : Failure} (hrepository : environ.repository = host.repository)
    (hprepared : environ.prepare host.sha256Hex dist = .ok (expected, client))
    (hreleases : s.releases = []) (hrefs : s.refs = [])
    (hserves : ∀ target, serves s ⟨.get, target, .none⟩
      (.ok (host.serve s ⟨.get, target, .none⟩).1) s)
    (hcreate : Exec serves (client.createDraft host.repository environ.tag environ.targetSha) s
      (.error error) t) :
    Exec serves (environ.publishHttp host.sha256Hex dist) s (.error error) t := by
  have hapi := (prepare_ok hprepared).2
  have hread : ∀ target : Target, target.repository = some host.repository →
      Exec serves (client.request ⟨.get, target, .none⟩ 200 true) s
        ((host.serve s ⟨.get, target, .none⟩).1.outcome 200) s := by
    intro target htarget
    exact exec_request (api_https hapi (by rw [htarget]; rfl))
      (exec_requestLoop client.attempts_pos (hserves target) (serve_not_transient s _))
  have hpage : host.serve s ⟨.get, .releases host.repository (some 1), .none⟩ =
      (.response 200 (.json (.arr [])), s) := by
    rw [GitHubClient.serve_answer s (by simp [Target.repository]), Host.answer]
    dsimp only
    rw [hreleases]
    rfl
  have hmissing : host.serve s ⟨.get, .ref host.repository environ.tag, .none⟩ = (notFound, s) := by
    rw [GitHubClient.serve_answer s (by simp [Target.repository]), Host.answer]
    dsimp only
    rw [GitHub.getRef, hrefs]
    rfl
  rw [publishHttp_of_prepared hprepared, hrepository]
  refine exec_interp.mpr (.onward (a := none) (t := s) (exec_perform.mpr ?_)
    (.fails (.onward (a := none) (t := s) (exec_perform.mpr ?_)
      (.checked rfl (.fails (exec_perform.mpr hcreate))))))
  · have hlisted := hread (.releases host.repository (some 1)) rfl
    rw [hpage] at hlisted
    exact .onward (.onward hlisted (.checked rfl (.done _ _))) (.done _ _)
  · have hresolved := hread (.ref host.repository environ.tag) rfl
    rw [hmissing] at hresolved
    exact exec_andThen.mpr ⟨_, _, hresolved, .done _ _⟩

end

/-- A request that reads is served. -/
theorem attempt_get (host : Host) (faults : Prop) (s : GitHub) (target : Target) :
    host.Attempt faults s ⟨.get, target, .none⟩ (.ok (host.serve s ⟨.get, target, .none⟩).1) s := by
  have hserved : host.Attempt faults s ⟨.get, target, .none⟩ _ _ := .served
  rwa [GitHubClient.serve_get] at hserved

/-- Nothing is there yet. -/
def emptyGitHub : GitHub := ⟨[], [], [], 1⟩

theorem emptyGitHub_startable : Startable "v1" sampleSha sampleAssets emptyGitHub where
  wellFormed := ⟨List.nodup_nil, fun _ hrelease => (nomatch hrelease)⟩
  drafts := .inl rfl
  tagFree := .inl rfl
  count := by decide
  room := fun _ hrelease => (nomatch hrelease)

/-- The request that creates the draft of the sample. -/
def sampleDraft : Request :=
  ⟨.post, .releases sampleHost.repository none, .json (GitHubClient.draftPayload "v1" sampleSha)⟩

/-- One draft was created. -/
def oneDraft : GitHub := emptyGitHub.addRelease (emptyGitHub.newDraft "v1" sampleSha)

/-- Two drafts were created. -/
def twoDrafts : GitHub := oneDraft.addRelease (oneDraft.newDraft "v1" sampleSha)

theorem effect_sampleDraft : sampleHost.Effect emptyGitHub sampleDraft oneDraft := by
  have hdrafts : ∀ release ∈ emptyGitHub.tagged "v1", release.draft = true :=
    fun _ hrelease => absurd hrelease List.not_mem_nil
  have hserve : (sampleHost.serve emptyGitHub sampleDraft).2 = oneDraft :=
    congrArg Prod.snd (GitHubClient.serve_createDraft hdrafts)
  exact hserve ▸ .done

theorem effect_sampleDraft_again : sampleHost.Effect oneDraft sampleDraft twoDrafts := by
  have hdrafts : ∀ release ∈ oneDraft.tagged "v1", release.draft = true := by
    intro release hrelease
    obtain rfl := List.mem_singleton.mp hrelease
    rfl
  have hserve : (sampleHost.serve oneDraft sampleDraft).2 = twoDrafts :=
    congrArg Prod.snd (GitHubClient.serve_createDraft hdrafts)
  exact hserve ▸ .done

theorem sampleDraft_https : absoluteHttps (sampleDraft.target.url sampleClient.apiUrl) = .ok true :=
  api_https (prepare_ok sample_prepared).2 rfl

/-- The draft was created, but the reply was lost: `urlopen` raised an exception. -/
theorem publish_rerunnable_oneDraft :
    ((sampleEnviron.publishHttp sampleHost.sha256Hex sampleDist).eval
      sampleHost.handle oneDraft).1 = .ok () := by
  have hrun : Exec (fun s request reply t => sampleHost.Attempt True s request reply t ∧
        sampleHost.Careful "v1" s request t)
      (sampleEnviron.publishHttp sampleHost.sha256Hex sampleDist) emptyGitHub
      (.error (.other "TimeoutError")) oneDraft := by
    refine exec_publish_empty rfl sample_prepared rfl rfl (fun target => ⟨?_, ?_⟩)
      (.fails (exec_request sampleDraft_https (exec_requestLoop_raises (by decide) ⟨?_, ?_⟩)))
    · exact attempt_get _ _ _ target
    · exact fun hmethod => (nomatch hmethod)
    · exact .failed trivial (.raised "TimeoutError") effect_sampleDraft
    · exact fun _ _ _ => rfl
  exact publish_rerunnable rfl sample_prepared (fun _ _ => rfl) rfl emptyGitHub_startable hrun

/-- The draft was created, but the reply was lost and the request was retried: there are two drafts,
and publishing fails from then on. -/
theorem lost_draft_reply : Startable "v1" sampleSha sampleAssets emptyGitHub ∧
    Exec (sampleHost.Attempt True) (sampleEnviron.publishHttp sampleHost.sha256Hex sampleDist)
      emptyGitHub (.error (.other "TimeoutError")) twoDrafts ∧
    ((sampleEnviron.publishHttp sampleHost.sha256Hex sampleDist).eval
      sampleHost.handle twoDrafts).1 =
        .error (.release "multiple GitHub releases found for tag v1") := by
  refine ⟨emptyGitHub_startable, ?_, ?_⟩
  · refine exec_publish_empty rfl sample_prepared rfl rfl (attempt_get _ _ _) (.fails
      (exec_request sampleDraft_https (exec_requestLoop_again 7 (by decide)
        (.failed trivial (.transient (.httpError 502 "Bad Gateway") (by decide)) effect_sampleDraft)
        (by decide) (exec_requestLoop_raises (by decide)
          (.failed trivial (.raised "TimeoutError") effect_sampleDraft_again)))))
  · exact two_releases_refused rfl sample_prepared (by decide) (by decide)

end ProdkitStorage.Release
