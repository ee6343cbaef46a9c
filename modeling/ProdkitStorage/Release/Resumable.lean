import ProdkitStorage.Release.Changes

/-!
# Where publishing may start

`Resumable` says where a publication may start: the tag has no release, a draft, or the release
that was to be published.  The changes that publishing makes to a draft keep it so.
-/

namespace ProdkitStorage.Release

open ProdkitStorage.Foundation
open ProdkitStorage.Foundation.Program
open ProdkitStorage.Python

/-! ## What is left behind -/

/-- What publishing relies on: GitHub stores the expected assets under their names, and accepts the
reference of the tag. -/
structure Publishable (host : Host) (tag targetSha : String) (expected : List LocalAsset) :
    Prop where
  names : (expected.map LocalAsset.name).Nodup
  sizes : ∀ asset ∈ expected, asset.size = asset.content.length
  digests : ∀ asset ∈ expected, asset.digest = host.sha256Hex asset.content
  stored : ∀ asset ∈ expected, host.storedName asset.name asset.content = some asset.name
  few : expected.length ≤ assetLimit
  acceptsRef : host.acceptsRef tag targetSha = true

/-- The assets with a name. -/
def named (name : String) (assets : List RemoteAsset) : List RemoteAsset :=
  assets.filter fun asset => asset.name == name

/-- The assets that are not expected. -/
def unexpected (expected : List LocalAsset) (assets : List RemoteAsset) : List RemoteAsset :=
  assets.filter fun asset => asset.name ∉ expected.map LocalAsset.name

/-- The expected assets fit next to those that are not. -/
def Room (expected : List LocalAsset) (assets : List RemoteAsset) : Prop :=
  (unexpected expected assets).length + expected.length ≤ assetLimit

/-- The tag is absent, or where it should be. -/
def GitHub.TagFree (s : GitHub) (tag targetSha : String) : Prop :=
  s.TagTarget tag none ∨ s.TagTarget tag (some targetSha)

/-- The only release of the tag is a draft. -/
structure Drafted (tag targetSha : String) (expected : List LocalAsset) (s : GitHub)
    (release : RemoteRelease) : Prop where
  holds : Holds s tag release
  count : s.releases.length < 10000
  tagFree : s.TagFree tag targetSha
  draft : release.draft = true
  room : Room expected release.assets

/-- The draft is the one that will be published. -/
structure Prepared (tag targetSha : String) (expected : List LocalAsset) (s : GitHub)
    (release : RemoteRelease) : Prop extends Drafted tag targetSha expected s release where
  prerelease : release.prerelease = false
  target : release.targetCommitish = targetSha

/-- The only release of the tag is published, with the expected assets. -/
structure Published (tag targetSha : String) (expected : List LocalAsset) (s : GitHub)
    (release : RemoteRelease) : Prop where
  holds : Holds s tag release
  count : s.releases.length < 10000
  tagTarget : s.TagTarget tag (some targetSha)
  draft : release.draft = false
  prerelease : release.prerelease = false
  target : release.targetCommitish = targetSha
  exact : ExactAssets expected (release.assets.map RemoteAsset.json)

/-- The tag has no release. -/
structure Unreleased (tag targetSha : String) (s : GitHub) : Prop where
  wellFormed : s.WellFormed
  none : s.tagged tag = []
  count : s.releases.length + 1 < 10000
  tagFree : s.TagFree tag targetSha

/-- Publishing may start here. -/
inductive Resumable (tag targetSha : String) (expected : List LocalAsset) (s : GitHub) : Prop where
  | unreleased : Unreleased tag targetSha s → Resumable tag targetSha expected s
  | drafted {release : RemoteRelease} : Drafted tag targetSha expected s release →
      Resumable tag targetSha expected s
  | published {release : RemoteRelease} : Published tag targetSha expected s release →
      Resumable tag targetSha expected s

/-- What a fault leaves behind. -/
def Left (faults : Prop) (tag targetSha : String) (expected : List LocalAsset) (t : GitHub) :
    Prop :=
  faults ∧ Resumable tag targetSha expected t

variable {host : Host} {faults : Prop} {tag targetSha : String} {expected : List LocalAsset}
  {client : GitHubClient} {s t : GitHub} {release : RemoteRelease}

/-! ## Changes of a draft -/

theorem resolve_congr (htags : t.tagObjects = s.tagObjects) (left : Nat) (object : GitObject) :
    t.resolve left object = s.resolve left object := by
  induction left generalizing object with
  | zero => rfl
  | succ left ih =>
      rw [GitHub.resolve, GitHub.resolve, htags, funext ih]

theorem tagTarget_congr (hrefs : t.refs = s.refs) (htags : t.tagObjects = s.tagObjects)
    {target : Option String} (h : s.TagTarget tag target) : t.TagTarget tag target := by
  cases target with
  | none => exact (congrArg (List.lookup tag) hrefs).trans h
  | some sha =>
      obtain ⟨object, hlookup, hsha⟩ := h
      refine ⟨object, (congrArg (List.lookup tag) hrefs).trans hlookup, ?_⟩
      rw [resolve_congr htags]
      exact hsha

theorem Drafted.change {changed : RemoteRelease} (hs : Drafted tag targetSha expected s release)
    (hholds : Holds t tag changed) (hlength : t.releases.length = s.releases.length)
    (hrefs : t.refs = s.refs) (htags : t.tagObjects = s.tagObjects) (hdraft : changed.draft = true)
    (hroom : Room expected changed.assets) : Drafted tag targetSha expected t changed where
  holds := hholds
  count := hlength ▸ hs.count
  tagFree := hs.tagFree.imp (tagTarget_congr hrefs htags) (tagTarget_congr hrefs htags)
  draft := hdraft
  room := hroom

theorem Prepared.dropAsset (hs : Prepared tag targetSha expected s release) (id : Ident) :
    Prepared tag targetSha expected (s.dropAsset id)
      { release with assets := release.assets.filter fun asset => id ≠ .int asset.id } where
  toDrafted := by
    refine hs.change (hs.holds.dropAsset id) (List.length_map _) rfl rfl hs.draft ?_
    have hfewer : (unexpected expected
        (release.assets.filter fun asset => id ≠ .int asset.id)).length ≤
        (unexpected expected release.assets).length :=
      (List.filter_sublist.filter _).length_le
    exact (Nat.add_le_add_right hfewer _).trans hs.room
  prerelease := hs.prerelease
  target := hs.target

theorem Prepared.addAsset (hs : Prepared tag targetSha expected s release) {asset : RemoteAsset}
    (hid : asset.id = s.nextId) (hname : asset.name ∉ release.assets.map RemoteAsset.name)
    (hlimit : release.assets.length < assetLimit)
    (hexpected : asset.name ∈ expected.map LocalAsset.name) :
    Prepared tag targetSha expected (s.addAsset release.id asset)
      { release with assets := release.assets ++ [asset] } where
  toDrafted := by
    refine hs.change (hs.holds.addAsset hid hname hlimit) (List.length_map _) rfl rfl hs.draft ?_
    have hsame : unexpected expected (release.assets ++ [asset]) =
        unexpected expected release.assets := by
      rw [unexpected, List.filter_append, List.filter_cons_of_neg (by simpa using hexpected),
        List.filter_nil, List.append_nil]
      rfl
    rw [Room, hsame]
    exact hs.room
  prerelease := hs.prerelease
  target := hs.target

theorem Prepared.addRef (hs : Prepared tag targetSha expected s release) :
    Prepared tag targetSha expected (s.addRef tag targetSha) release where
  holds := hs.holds.withRefs _
  count := hs.count
  tagFree := .inr (GitHubClient.tagTarget_addRef s tag targetSha)
  draft := hs.draft
  room := hs.room
  prerelease := hs.prerelease
  target := hs.target

/-- The draft is published. -/
theorem Prepared.publish (hs : Prepared tag targetSha expected s release)
    (htag : s.TagTarget tag (some targetSha))
    (hexact : ExactAssets expected (release.assets.map RemoteAsset.json)) :
    Published tag targetSha expected
      (s.modify release.id (ReleaseUpdate.mk false false targetSha).apply)
      ((ReleaseUpdate.mk false false targetSha).apply release) where
  holds := hs.holds.modify rfl rfl rfl
  count := (List.length_map _).trans_lt hs.count
  tagTarget := tagTarget_congr rfl rfl htag
  draft := rfl
  prerelease := rfl
  target := rfl
  exact := hexact

/-- A draft of another commit, or a prerelease, becomes the draft of the release. -/
theorem Drafted.retarget (hs : Drafted tag targetSha expected s release) :
    Prepared tag targetSha expected
      (s.modify release.id (ReleaseUpdate.mk true false targetSha).apply)
      ((ReleaseUpdate.mk true false targetSha).apply release) where
  toDrafted := hs.change (hs.holds.modify rfl rfl rfl) (List.length_map _) rfl rfl rfl hs.room
  prerelease := rfl
  target := rfl

/-- A new draft. -/
theorem Unreleased.newDraft (hs : Unreleased tag targetSha s)
    (hfew : expected.length ≤ assetLimit) :
    Prepared tag targetSha expected (s.addRelease (s.newDraft tag targetSha))
      (s.newDraft tag targetSha) where
  holds := .addRelease hs.wellFormed hs.none rfl rfl rfl
  count := hs.count
  tagFree := hs.tagFree.imp (tagTarget_congr rfl rfl) (tagTarget_congr rfl rfl)
  draft := rfl
  room := (Nat.zero_add _).trans_le hfew
  prerelease := rfl
  target := rfl

theorem verifyReleaseMetadata_releaseJson (htag : release.tagName = tag)
    (hdraft : release.draft = false) (hprerelease : release.prerelease = false)
    (htarget : release.targetCommitish = targetSha) :
    verifyReleaseMetadata (host.releaseJson release) tag targetSha = .ok () := by
  simp [verifyReleaseMetadata, refuseIf, isBool, htag, hdraft, hprerelease, htarget]

theorem Prepared.checked (hs : Prepared tag targetSha expected s release) :
    checkPrepared (host.releaseJson release) targetSha = .ok () := by
  simp [checkPrepared, refuseIf, isBool, hs.draft, hs.prerelease, hs.target]

theorem checkExistingTag_ok {existing : Option String}
    (hexisting : existing = none ∨ existing = some targetSha) :
    checkExistingTag existing tag targetSha = .ok () := by
  rcases hexisting with rfl | rfl
  · rfl
  · exact refuseIf_ok.mpr (not_not_intro rfl)

/-! ## The assets of a draft -/

/-- The local asset is among the assets, once and as it should be. -/
def Uploaded (asset : LocalAsset) (assets : List RemoteAsset) : Prop :=
  ∃ found, named asset.name assets = [found] ∧ assetMatches asset found.json = true

theorem Uploaded.congr {asset : LocalAsset} {assets others : List RemoteAsset}
    (h : Uploaded asset assets) (hsame : named asset.name others = named asset.name assets) :
    Uploaded asset others := by
  obtain ⟨found, hfound, hmatches⟩ := h
  exact ⟨found, hsame.trans hfound, hmatches⟩

theorem remoteNamed_map (name : String) (assets : List RemoteAsset) :
    remoteNamed name (assets.map RemoteAsset.json) = (named name assets).map RemoteAsset.json := by
  rw [remoteNamed, named, List.filter_map]
  refine congrArg _ (List.filter_congr fun asset _ => ?_)
  rw [Function.comp_apply, remoteName_assetJson]
  rfl

theorem mem_named {name : String} {assets : List RemoteAsset} {asset : RemoteAsset} :
    asset ∈ named name assets ↔ asset ∈ assets ∧ asset.name = name := by
  rw [named, List.mem_filter, beq_iff_eq]

theorem named_eq_nil {name : String} {assets : List RemoteAsset} :
    named name assets = [] ↔ name ∉ assets.map RemoteAsset.name := by
  rw [named, List.filter_eq_nil_iff, List.mem_map]
  constructor
  · rintro h ⟨asset, hasset, hname⟩
    exact h asset hasset (beq_iff_eq.mpr hname)
  · intro h asset hasset hname
    exact h ⟨asset, hasset, eq_of_beq hname⟩

theorem named_append (name : String) (assets : List RemoteAsset) (asset : RemoteAsset) :
    named name (assets ++ [asset]) =
      named name assets ++ if asset.name = name then [asset] else [] := by
  simp only [named, List.filter_append, List.filter_cons, List.filter_nil, beq_iff_eq]

theorem matchesOne_named {asset : LocalAsset} {assets : List RemoteAsset} :
    matchesOne asset ((named asset.name assets).map RemoteAsset.json) = true ↔
      Uploaded asset assets := by
  unfold Uploaded
  cases named asset.name assets with
  | nil => exact ⟨fun h => (nomatch h), fun ⟨found, hfound, _⟩ => (nomatch hfound)⟩
  | cons first rest =>
      cases rest with
      | nil =>
          constructor
          · exact fun h => ⟨first, rfl, h⟩
          · rintro ⟨found, hfound, hmatches⟩
            cases hfound
            exact hmatches
      | cons second rest => exact ⟨fun h => (nomatch h), fun ⟨found, hfound, _⟩ => (nomatch hfound)⟩

/-- The assets without some of them. -/
def without (items assets : List RemoteAsset) : List RemoteAsset :=
  assets.filter fun asset => asset.id ∉ items.map RemoteAsset.id

/-- What is left of the assets with a name does not contain those that are removed. -/
theorem named_without {name : String} {items assets : List RemoteAsset}
    (hids : (assets.map RemoteAsset.id).Nodup) (hitems : ∀ item ∈ items, item ∈ assets)
    (hother : ∀ item ∈ items, item.name ≠ name) :
    named name (without items assets) = named name assets := by
  rw [named, without, List.filter_filter]
  refine List.filter_congr fun asset hasset => ?_
  by_cases hname : asset.name = name
  · have hkept : asset.id ∉ items.map RemoteAsset.id := by
      intro hmem
      obtain ⟨item, hitem, hsame⟩ := List.mem_map.mp hmem
      obtain rfl := key_injective hids (hitems item hitem) hasset hsame
      exact hother item hitem hname
    rw [decide_eq_true hkept, Bool.and_true]
  · rw [beq_false_of_ne hname, Bool.false_and]

theorem not_mem_without {items assets : List RemoteAsset} {item : RemoteAsset}
    (hitem : item ∈ items) : item ∉ without items assets := by
  intro hmem
  exact of_decide_eq_true (List.mem_filter.mp hmem).2 (List.mem_map_of_mem hitem)

theorem extraAssets_map (assets : List RemoteAsset) :
    extraAssets expected (assets.map RemoteAsset.json) =
      .ok ((unexpected expected assets).map RemoteAsset.json) := by
  induction assets with
  | nil => rfl
  | cons asset assets ih =>
      have hany : (expected.any fun other => remoteName asset.json == some other.name) = true ↔
          asset.name ∈ expected.map LocalAsset.name := by
        rw [List.any_eq_true, List.mem_map]
        refine exists_congr fun other => and_congr_right fun _ => ?_
        rw [remoteName_assetJson, beq_iff_eq, Option.some.injEq, eq_comm]
      rw [List.map_cons, extraAssets, assetJson_name]
      dsimp only
      refine bind_eq_ok.mpr ⟨_, ih, ?_⟩
      by_cases hexpected : asset.name ∈ expected.map LocalAsset.name
      · rw [if_pos (hany.mpr hexpected), unexpected, unexpected,
          List.filter_cons_of_neg (by simpa using hexpected)]
        rfl
      · rw [if_neg (mt hany.mp hexpected), unexpected, unexpected,
          List.filter_cons_of_pos (by simpa using hexpected)]
        rfl

/-- The uploads without the assets that are not expected. -/
theorem exactAssets_without {assets : List RemoteAsset} (hids : (assets.map RemoteAsset.id).Nodup)
    (huploaded : ∀ asset ∈ expected, Uploaded asset assets) :
    ExactAssets expected ((without (unexpected expected assets) assets).map RemoteAsset.json) where
  only := by
    intro item hitem
    obtain ⟨found, hfound, rfl⟩ := List.mem_map.mp hitem
    have hexpected : found.name ∈ expected.map LocalAsset.name := by
      by_contra hnot
      refine not_mem_without (List.mem_filter.mpr ⟨(List.mem_filter.mp hfound).1, ?_⟩) hfound
      exact decide_eq_true hnot
    obtain ⟨asset, hasset, hname⟩ := List.mem_map.mp hexpected
    exact ⟨asset, hasset, by rw [assetJson_name, hname]⟩
  each := by
    intro asset hasset
    have hkept : named asset.name (without (unexpected expected assets) assets) =
        named asset.name assets := by
      refine named_without hids (fun item hitem => (List.mem_filter.mp hitem).1) ?_
      intro item hitem hname
      refine of_decide_eq_true (List.mem_filter.mp hitem).2 ?_
      exact hname ▸ List.mem_map_of_mem hasset
    obtain ⟨found, hfound, hmatches⟩ := (huploaded asset hasset).congr hkept
    refine ⟨found.json, ?_, (assetMatches_iff.mp hmatches).2⟩
    rw [remoteNamed_map, hfound]
    rfl

/-- There is room for an expected asset that is not there. -/
theorem Room.length_lt {assets : List RemoteAsset} {name : String} (h : Room expected assets)
    (hnames : (assets.map RemoteAsset.name).Nodup) (hexpected : name ∈ expected.map LocalAsset.name)
    (hname : name ∉ assets.map RemoteAsset.name) : assets.length < assetLimit := by
  let found := assets.filter fun asset => asset.name ∈ expected.map LocalAsset.name
  have hfound : (found.map RemoteAsset.name).length < expected.length := by
    have hsubset : (found.map RemoteAsset.name) ⊆ (expected.map LocalAsset.name).erase name := by
      intro other hother
      obtain ⟨asset, hasset, rfl⟩ := List.mem_map.mp hother
      obtain ⟨hmem, hin⟩ := List.mem_filter.mp hasset
      refine (List.mem_erase_of_ne ?_).mpr (of_decide_eq_true hin)
      exact fun hsame => hname (hsame ▸ List.mem_map_of_mem hmem)
    have hnodup : (found.map RemoteAsset.name).Nodup :=
      hnames.sublist (List.filter_sublist.map _)
    have hle := (List.subperm_of_subset hnodup hsubset).length_le
    rw [List.length_erase_of_mem hexpected, List.length_map LocalAsset.name] at hle
    have hpos := List.length_pos_of_mem hexpected
    rw [List.length_map] at hpos
    omega
  have hsplit : assets.length = found.length + (unexpected expected assets).length := by
    have hparts := List.length_eq_length_filter_add (l := assets)
      (fun asset => decide (asset.name ∈ expected.map LocalAsset.name))
    rw [hparts, unexpected]
    simp only [decide_not]
    rfl
  rw [List.length_map] at hfound
  unfold Room at h
  omega

end ProdkitStorage.Release
