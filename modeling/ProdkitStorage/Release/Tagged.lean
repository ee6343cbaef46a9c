import ProdkitStorage.Release.GitHub

/-!
# The release of a tag

`WellFormed` is what GitHub keeps of its releases: ids are given once, and a release has at most
one asset of a name.  `Holds` says that a tag has exactly one release.  Each change of a release
keeps both.
-/

namespace ProdkitStorage.Release

/-- The assets of a release are told apart by their names and by their ids. -/
structure RemoteRelease.WellFormed (release : RemoteRelease) (nextId : Nat) : Prop where
  id_lt : release.id < nextId
  names : (release.assets.map RemoteAsset.name).Nodup
  ids : (release.assets.map RemoteAsset.id).Nodup
  ids_lt : ∀ asset ∈ release.assets, asset.id < nextId
  limit : release.assets.length ≤ assetLimit

/-- Releases are told apart by their ids. -/
structure GitHub.WellFormed (s : GitHub) : Prop where
  ids : (s.releases.map RemoteRelease.id).Nodup
  releases : ∀ release ∈ s.releases, release.WellFormed s.nextId

/-- The tag has this release and no other. -/
structure Holds (s : GitHub) (tag : String) (release : RemoteRelease) : Prop where
  wellFormed : s.WellFormed
  only : s.tagged tag = [release]

variable {s : GitHub} {tag : String} {release : RemoteRelease}

/-! ## The release is found -/

theorem find?_key {α β : Type} [DecidableEq β] {key : α → β} {items : List α} {a : α}
    (hnodup : (items.map key).Nodup) (ha : a ∈ items) :
    items.find? (fun item => decide (key item = key a)) = some a := by
  induction items with
  | nil => cases ha
  | cons item items ih =>
      obtain ⟨hitem, hitems⟩ := List.nodup_cons.mp hnodup
      rcases List.mem_cons.mp ha with rfl | ha
      · exact List.find?_cons_of_pos (decide_eq_true rfl)
      · have hne : key item ≠ key a := fun h => hitem (h ▸ List.mem_map_of_mem ha)
        rw [List.find?_cons_of_neg (by simpa using hne)]
        exact ih hitems ha

/-- Two items with one key are the same. -/
theorem key_injective {α β : Type} {key : α → β} {items : List α} {a b : α}
    (hnodup : (items.map key).Nodup) (ha : a ∈ items) (hb : b ∈ items) (h : key a = key b) :
    a = b :=
  List.inj_on_of_nodup_map hnodup ha hb h

theorem Holds.mem (h : Holds s tag release) : release ∈ s.releases := by
  have hmem : release ∈ s.tagged tag := h.only ▸ List.mem_singleton_self release
  exact (List.mem_filter.mp hmem).1

theorem Holds.tagName (h : Holds s tag release) : release.tagName = tag := by
  have hmem : release ∈ s.tagged tag := h.only ▸ List.mem_singleton_self release
  exact eq_of_beq (List.mem_filter.mp hmem).2

theorem Holds.releaseWellFormed (h : Holds s tag release) : release.WellFormed s.nextId :=
  h.wellFormed.releases release h.mem

theorem Holds.byId (h : Holds s tag release) : s.release (.int release.id) = some release := by
  have hfound := find?_key h.wellFormed.ids h.mem
  rw [GitHub.release]
  refine Eq.trans (congrArg (fun p => s.releases.find? p) ?_) hfound
  funext other
  rw [decide_eq_decide, Ident.int.injEq, Int.ofNat_inj, eq_comm]

theorem Holds.byUpload (h : Holds s tag release) (host : Host) :
    (s.releases.find? fun other => host.uploadBase other.id == host.uploadBase release.id) =
      some release := by
  have hnodup : (s.releases.map fun other => host.uploadBase other.id).Nodup := by
    have hmap := h.wellFormed.ids.map host.upload_injective
    rwa [List.map_map] at hmap
  exact find?_key hnodup h.mem

/-! ## The release is changed -/

theorem RemoteRelease.WellFormed.mono {nextId later : Nat} (h : release.WellFormed nextId)
    (hle : nextId ≤ later) : release.WellFormed later :=
  ⟨h.id_lt.trans_le hle, h.names, h.ids, fun asset hasset => (h.ids_lt asset hasset).trans_le hle,
    h.limit⟩

/-- Some of the assets are left. -/
theorem RemoteRelease.WellFormed.filter {nextId : Nat} (h : release.WellFormed nextId)
    (keep : RemoteAsset → Bool) :
    RemoteRelease.WellFormed { release with assets := release.assets.filter keep } nextId where
  id_lt := h.id_lt
  names := h.names.sublist (List.filter_sublist.map _)
  ids := h.ids.sublist (List.filter_sublist.map _)
  ids_lt asset hasset := h.ids_lt asset (List.mem_filter.mp hasset).1
  limit := (List.length_filter_le _ _).trans h.limit

/-- The releases are changed one by one, and keep their ids and their tags. -/
theorem tagged_map {f : RemoteRelease → RemoteRelease}
    (htag : ∀ other ∈ s.releases, (f other).tagName = other.tagName) :
    GitHub.tagged { s with releases := s.releases.map f } tag = (s.tagged tag).map f := by
  rw [GitHub.tagged, GitHub.tagged, List.filter_map]
  refine congrArg _ (List.filter_congr fun other hother => ?_)
  rw [Function.comp_apply, htag other hother]

theorem Holds.map (h : Holds s tag release) (f : RemoteRelease → RemoteRelease) (nextId : Nat)
    (hid : ∀ other ∈ s.releases, (f other).id = other.id)
    (htag : ∀ other ∈ s.releases, (f other).tagName = other.tagName)
    (hwellFormed : ∀ other ∈ s.releases, (f other).WellFormed nextId) :
    Holds { s with releases := s.releases.map f, nextId := nextId } tag (f release) where
  wellFormed := by
    constructor
    · show ((s.releases.map f).map RemoteRelease.id).Nodup
      rw [List.map_map, List.map_congr_left (f := RemoteRelease.id ∘ f) hid]
      exact h.wellFormed.ids
    · intro other hother
      obtain ⟨before, hbefore, rfl⟩ := List.mem_map.mp hother
      exact hwellFormed before hbefore
  only := by
    show GitHub.tagged { s with releases := s.releases.map f } tag = _
    rw [tagged_map htag, h.only]
    rfl

/-- One release is changed. -/
theorem Holds.modifyAt (h : Holds s tag release) {f : RemoteRelease → RemoteRelease} {nextId : Nat}
    (hid : (f release).id = release.id) (htag : (f release).tagName = release.tagName)
    (hle : s.nextId ≤ nextId) (hwellFormed : (f release).WellFormed nextId) :
    Holds { s.modify release.id f with nextId := nextId } tag (f release) := by
  -- what holds of the changed release and of the others
  have hpick : ∀ {P : RemoteRelease → RemoteRelease → Prop}, P release (f release) →
      (∀ other ∈ s.releases, P other other) →
      ∀ other ∈ s.releases, P other (if other.id = release.id then f other else other) := by
    intro P hchanged hothers other hother
    split
    · next heq =>
        obtain rfl := key_injective h.wellFormed.ids hother h.mem heq
        exact hchanged
    · exact hothers other hother
  have hmap :=
    h.map _ nextId (hpick (P := fun before after => after.id = before.id) hid fun _ _ => rfl)
    (hpick (P := fun before after => after.tagName = before.tagName) htag fun _ _ => rfl)
    (hpick (P := fun _ after => after.WellFormed nextId) hwellFormed fun other hother =>
      (h.wellFormed.releases other hother).mono hle)
  rwa [if_pos rfl] at hmap

theorem Holds.modify (h : Holds s tag release) {f : RemoteRelease → RemoteRelease}
    (hid : (f release).id = release.id) (htag : (f release).tagName = release.tagName)
    (hassets : (f release).assets = release.assets) :
    Holds (s.modify release.id f) tag (f release) := by
  refine h.modifyAt hid htag le_rfl ⟨?_, ?_, ?_, ?_, ?_⟩
  · exact hid ▸ h.releaseWellFormed.id_lt
  · exact hassets ▸ h.releaseWellFormed.names
  · exact hassets ▸ h.releaseWellFormed.ids
  · exact hassets ▸ h.releaseWellFormed.ids_lt
  · exact hassets ▸ h.releaseWellFormed.limit

theorem Holds.dropAsset (h : Holds s tag release) (id : Ident) :
    Holds (s.dropAsset id) tag
      { release with assets := release.assets.filter fun asset => id ≠ .int asset.id } :=
  h.map _ s.nextId (fun _ _ => rfl) (fun _ _ => rfl)
    fun other hother => (h.wellFormed.releases other hother).filter _

theorem Holds.addAsset (h : Holds s tag release) {asset : RemoteAsset} (hid : asset.id = s.nextId)
    (hname : asset.name ∉ release.assets.map RemoteAsset.name)
    (hlimit : release.assets.length < assetLimit) :
    Holds (s.addAsset release.id asset) tag
      { release with assets := release.assets ++ [asset] } := by
  have hwellFormed := h.releaseWellFormed
  refine h.modifyAt
    (f := fun release => { release with assets := release.assets ++ [asset] }) rfl rfl
    (Nat.le_succ _) ⟨hwellFormed.id_lt.trans (Nat.lt_succ_self _), ?_, ?_, ?_, ?_⟩
  · rw [List.map_append, List.map_singleton, ← List.concat_eq_append]
    exact hwellFormed.names.concat hname
  · rw [List.map_append, List.map_singleton, ← List.concat_eq_append]
    refine hwellFormed.ids.concat fun hmem => ?_
    obtain ⟨other, hother, heq⟩ := List.mem_map.mp hmem
    exact absurd (heq.trans hid) (hwellFormed.ids_lt other hother).ne
  · intro other hother
    rcases List.mem_append.mp hother with hother | hother
    · exact (hwellFormed.ids_lt other hother).trans (Nat.lt_succ_self _)
    · rw [List.mem_singleton.mp hother, hid]
      exact Nat.lt_succ_self _
  · rw [List.length_append]
    exact hlimit

/-- A new release for a tag that had none. -/
theorem Holds.addRelease (hwellFormed : s.WellFormed) (hnone : s.tagged tag = [])
    (hid : release.id = s.nextId) (htag : release.tagName = tag) (hassets : release.assets = []) :
    Holds (s.addRelease release) tag release where
  wellFormed := by
    constructor
    · refine List.nodup_cons.mpr ⟨fun hmem => ?_, hwellFormed.ids⟩
      obtain ⟨other, hother, heq⟩ := List.mem_map.mp hmem
      exact absurd (heq.trans hid) (hwellFormed.releases other hother).id_lt.ne
    · intro other hother
      rcases List.mem_cons.mp hother with rfl | hother
      · refine ⟨hid ▸ Nat.lt_succ_self _, ?_, ?_, ?_, ?_⟩
        all_goals rw [hassets]
        · exact List.nodup_nil
        · exact List.nodup_nil
        · exact fun _ hasset => (nomatch hasset)
        · exact Nat.zero_le _
      · exact (hwellFormed.releases other hother).mono (Nat.le_succ _)
  only := by
    show List.filter _ (release :: s.releases) = _
    rw [List.filter_cons_of_pos (by rw [htag, beq_self_eq_true])]
    exact congrArg (release :: ·) hnone

/-- The references do not matter. -/
theorem Holds.withRefs (h : Holds s tag release) (refs : List (String × GitObject)) :
    Holds { s with refs := refs } tag release :=
  ⟨⟨h.wellFormed.ids, h.wellFormed.releases⟩, h.only⟩

end ProdkitStorage.Release
