import Mathlib.Data.List.Dedup
import Mathlib.Data.List.Sort
import ProdkitStorage.Foundation.Json
import ProdkitStorage.Python.Error
import ProdkitStorage.Python.Text

/-!
# Release assets

`load_local_assets`, `asset_matches` and `verify_remote_assets` of
`ops/release/publish_release.py`.  A release directory holds a wheel, a source distribution, the
archive of the exact source and `SHA256SUMS`; the files are read once, so that the text
that is checked is the one that is uploaded.

`ExactAssets` says that the assets of a release are the local ones, each once and with its
size and digest, and no others.  `verifyRemoteAssets_ok`: this is what
`verify_remote_assets` accepts.
-/

namespace ProdkitStorage.Release

open ProdkitStorage.Foundation
open ProdkitStorage.Python

/-- An exception that ends the publication. -/
inductive Failure where
  /-- `ReleaseError`. -/
  | release (message : String)
  /-- `ApiError`, a `ReleaseError`. -/
  | api (status : Nat) (message : String)
  | python (error : PyError)
  | other (className : String)
deriving DecidableEq, Repr

/-- `if bad: raise ReleaseError(message)`. -/
def refuseIf (bad : Prop) [Decidable bad] (message : String) : Except Failure Unit :=
  if bad then .error (.release message) else .ok ()

/-- `if value is None: raise ReleaseError(message)`. -/
def refuseNone {α : Type} (value : Option α) (message : String) : Except Failure α :=
  match value with
  | none => .error (.release message)
  | some a => .ok a

theorem refuseIf_ok {bad : Prop} [Decidable bad] {message : String} :
    refuseIf bad message = .ok () ↔ ¬bad := by
  unfold refuseIf
  split
  · next hbad => exact ⟨fun h => (nomatch h), fun h => absurd hbad h⟩
  · next hbad => exact ⟨fun _ => hbad, fun _ => rfl⟩

theorem refuseIf_bind_ok {α : Type} {bad : Prop} [Decidable bad] {message : String}
    {f : Unit → Except Failure α} {a : α} :
    (refuseIf bad message >>= f) = .ok a ↔ ¬bad ∧ f () = .ok a := by
  rw [bind_eq_ok, ← @refuseIf_ok bad _ message]
  exact ⟨fun ⟨_, h⟩ => h, fun h => ⟨(), h⟩⟩

theorem refuseNone_ok {α : Type} {value : Option α} {message : String} {a : α} :
    refuseNone value message = .ok a ↔ value = some a := by
  cases value with
  | none => exact ⟨fun h => (by cases h), fun h => (by cases h)⟩
  | some b => rw [refuseNone, Except.ok.injEq, Option.some.injEq]

/-! ## Local assets -/

/-- A member of the release directory. -/
structure DistFile where
  name : String
  isFile : Bool
  content : List UInt8

/-- The path of the release directory and what is there. -/
structure Dist where
  path : String
  isDir : Bool
  files : List DistFile
  nodup : (files.map DistFile.name).Nodup

/-- `LocalAsset`, with the bytes of its path. -/
structure LocalAsset where
  name : String
  content : List UInt8
  size : Nat
  digest : String
deriving DecidableEq

/-- `CHECKSUM_RE.fullmatch`: the name and the digest of a line. -/
def checksumLine (line : List Char) : Option (String × String) :=
  let digest := line.take 64
  let hex := fun c => ('0' ≤ c ∧ c ≤ '9') ∨ ('a' ≤ c ∧ c ≤ 'f')
  if digest.length = 64 ∧ digest.all (fun c => decide (hex c)) ∧
    (line.drop 64).take 2 = [' ', ' '] then
    match line.drop 66 with
    | c :: cs =>
        if c ≠ '/' ∧ '\n' ∉ cs then some (String.ofList (c :: cs), String.ofList digest) else none
    | [] => none
  else none

/-- The lines of `SHA256SUMS`, from a line number on. -/
def readManifest : Nat → List (List Char) → List (String × String) →
    Except Failure (List (String × String))
  | _, [], manifest => .ok manifest
  | lineNumber, line :: lines, manifest =>
      match checksumLine line with
      | none => .error (.release s!"invalid SHA256SUMS line {lineNumber}")
      | some (name, digest) =>
          if (manifest.lookup name).isSome then
            .error (.release s!"duplicate SHA256SUMS entry: {name}")
          else readManifest (lineNumber + 1) lines (manifest ++ [(name, digest)])

/-- `sorted(names)`. -/
def sortedNames (names : List String) : List String := names.insertionSort (· ≤ ·)

/-- The files of the directory, in the order of their paths. -/
def Dist.sortedFiles (dist : Dist) : List DistFile :=
  (dist.files.filter DistFile.isFile).insertionSort fun a b => a.name ≤ b.name

/-- The names are those of the payload of a release. -/
def checkPayload (tag : String) (payloadNames : List String) : Except Failure Unit :=
  let sourceName := s!"prodkit-storage-{tag}-source.tar.gz"
  let wheelNames := payloadNames.filter (endsWith · ".whl")
  let sdistNames := payloadNames.filter fun name => endsWith name ".tar.gz" && name != sourceName
  refuseIf (payloadNames.length ≠ 3 ∨ wheelNames.length ≠ 1 ∨ sdistNames.length ≠ 1 ∨
      sourceName ∉ payloadNames)
    ("release payload must contain exactly one wheel, one sdist, and " ++
      s!"{sourceName}; found={pyReprList (sortedNames payloadNames)}")

/-- The manifest names the payload. -/
def checkManifest (manifestNames payloadNames : List String) : Except Failure Unit :=
  let missing := sortedNames (payloadNames.filter (· ∉ manifestNames))
  let extra := sortedNames (manifestNames.filter (· ∉ payloadNames))
  refuseIf (missing ≠ [] ∨ extra ≠ [])
    s!"SHA256SUMS asset set mismatch; missing={pyReprList missing}, extra={pyReprList extra}"

section
variable (sha256Hex : List UInt8 → String)

/-- The local asset that a file is. -/
def DistFile.asset (file : DistFile) : LocalAsset :=
  ⟨file.name, file.content, file.content.length, sha256Hex file.content⟩

/-- A file with its digest, checked against the manifest. -/
def localAsset (manifest : List (String × String)) (file : DistFile) : Except Failure LocalAsset :=
  if file.name ≠ "SHA256SUMS" ∧ manifest.lookup file.name ≠ some (sha256Hex file.content) then
    .error (.release s!"local checksum mismatch: {file.name}")
  else .ok (file.asset sha256Hex)

/-- `read_text(encoding="utf-8")`. -/
def readText (content : List UInt8) : Except Failure String :=
  match String.fromUTF8? ⟨content.toArray⟩ with
  | none => .error (.python (.valueError "invalid utf-8"))
  | some text => .ok text

/-- `load_local_assets(dist, tag=tag)`. -/
def loadLocalAssets (dist : Dist) (tag : String) : Except Failure (List LocalAsset) := do
  refuseIf (dist.isDir = false) s!"release directory does not exist: {dist.path}"
  let files := dist.sortedFiles
  refuseIf (files.isEmpty) "release directory contains no files"
  let names := files.map DistFile.name
  let hidden := names.filter (startsWith · ".")
  refuseIf (hidden ≠ []) s!"release directory contains hidden files: {pyReprList hidden}"
  let checksums ← refuseNone (files.find? (·.name == "SHA256SUMS"))
    "release directory is missing SHA256SUMS"
  let payloadNames := names.filter (· != "SHA256SUMS")
  checkPayload tag payloadNames
  let text ← readText checksums.content
  let manifest ← readManifest 1 (splitLines [] text.toList) []
  checkManifest (manifest.map Prod.fst) payloadNames
  files.mapM (localAsset sha256Hex manifest)

end

/-! ## Remote assets -/

/-- `remote.get("name")`, when it is a `str`. -/
def remoteName (remote : Json) : Option String :=
  match remote.field "name" with
  | some (.str name) => some name
  | _ => none

/-- `remote_digest(asset)`. -/
def remoteDigest (asset : Json) : Option String :=
  match asset.field "digest" with
  | some (.str value) => (value.toList.dropPrefix? "sha256:".toList).map String.ofList
  | _ => none

/-- `asset_matches(local, remote)`. -/
def assetMatches (asset : LocalAsset) (remote : Json) : Bool :=
  remoteName remote == some asset.name && Json.eqInt (remote.field "size") asset.size &&
    remoteDigest remote == some asset.digest

/-- `by_name.get(name, [])`. -/
def remoteNamed (name : String) (remote : List Json) : List Json :=
  remote.filter fun item => remoteName item == some name

/-- The assets with an expected name. -/
def verifyNamed (remote : List Json) (asset : LocalAsset) : Except Failure Unit :=
  match remoteNamed asset.name remote with
  | [found] =>
      if assetMatches asset found then .ok ()
      else .error (.release s!"remote release asset digest/size mismatch: {asset.name}")
  | _ => .error (.release s!"remote release contains duplicate asset: {asset.name}")

def verifyEach (remote : List Json) : List LocalAsset → Except Failure Unit
  | [] => .ok ()
  | asset :: expected => do
      verifyNamed remote asset
      verifyEach remote expected

/-- `verify_remote_assets(expected, remote_assets)`. -/
def verifyRemoteAssets (expected : List LocalAsset) (remote : List Json) : Except Failure Unit := do
  refuseIf (∃ item ∈ remote, remoteName item = none) "GitHub returned an asset without a name"
  let expectedNames := expected.map LocalAsset.name
  let names := (remote.filterMap remoteName).dedup
  let missing := sortedNames (expectedNames.filter (· ∉ names))
  let extra := sortedNames (names.filter (· ∉ expectedNames))
  refuseIf (missing ≠ [] ∨ extra ≠ [])
    s!"remote release asset set mismatch; missing={pyReprList missing}, extra={pyReprList extra}"
  verifyEach remote expected

/-- The assets are the expected ones, each once. -/
structure ExactAssets (expected : List LocalAsset) (remote : List Json) : Prop where
  only : ∀ item ∈ remote, ∃ asset ∈ expected, item.field "name" = some (.str asset.name)
  each : ∀ asset ∈ expected, ∃ item, remoteNamed asset.name remote = [item] ∧
    Json.eqInt (item.field "size") asset.size = true ∧
    item.field "digest" = some (.str ("sha256:" ++ asset.digest))

/-! ## What is accepted -/

theorem localAsset_ok {sha256Hex : List UInt8 → String} {manifest : List (String × String)}
    {file : DistFile} {asset : LocalAsset} (h : localAsset sha256Hex manifest file = .ok asset) :
    asset = file.asset sha256Hex := by
  unfold localAsset at h
  split at h
  · cases h
  · exact (Except.ok.inj h).symm

/-- Files whose digests are those of the manifest. -/
theorem mapM_localAsset {sha256Hex : List UInt8 → String} {manifest : List (String × String)}
    {files : List DistFile} (h : ∀ file ∈ files, file.name = "SHA256SUMS" ∨
      manifest.lookup file.name = some (sha256Hex file.content)) :
    files.mapM (localAsset sha256Hex manifest) = .ok (files.map (DistFile.asset sha256Hex)) := by
  refine mapM_eq_ok.mpr
    (List.forall₂_map_right_iff.mpr (List.forall₂_same.mpr fun file hfile => ?_))
  refine if_neg fun ⟨hname, hdigest⟩ => ?_
  exact (h file hfile).elim hname hdigest

/-- An accepted directory has distinct files, three of which are the payload. -/
theorem loadLocalAssets_files {sha256Hex : List UInt8 → String} {dist : Dist} {tag : String}
    {assets : List LocalAsset} (h : loadLocalAssets sha256Hex dist tag = .ok assets) :
    assets = dist.sortedFiles.map (DistFile.asset sha256Hex) ∧
      ((dist.sortedFiles.map DistFile.name).filter (· != "SHA256SUMS")).length = 3 := by
  obtain ⟨_, -, h⟩ := bind_eq_ok.mp h
  obtain ⟨_, -, h⟩ := bind_eq_ok.mp h
  obtain ⟨_, -, h⟩ := bind_eq_ok.mp h
  obtain ⟨checksums, -, h⟩ := bind_eq_ok.mp h
  obtain ⟨_, hpayload, h⟩ := bind_eq_ok.mp h
  obtain ⟨text, -, h⟩ := bind_eq_ok.mp h
  obtain ⟨manifest, -, h⟩ := bind_eq_ok.mp h
  obtain ⟨_, -, h⟩ := bind_eq_ok.mp h
  constructor
  · have hassets : List.Forall₂ (fun file asset => file.asset sha256Hex = asset) dist.sortedFiles
        assets := (mapM_eq_ok.mp h).imp fun _ _ h => (localAsset_ok h).symm
    rwa [← List.forall₂_map_left_iff (R := Eq), List.forall₂_eq_eq_eq, eq_comm] at hassets
  · by_contra hlength
    exact refuseIf_ok.mp hpayload (.inl hlength)

theorem Dist.sortedFiles_perm (dist : Dist) :
    dist.sortedFiles.Perm (dist.files.filter DistFile.isFile) :=
  List.perm_insertionSort _ _

theorem Dist.sortedFiles_names (dist : Dist) : (dist.sortedFiles.map DistFile.name).Nodup :=
  (dist.sortedFiles_perm.map _).nodup_iff.mpr (dist.nodup.sublist (List.filter_sublist.map _))

/-- The assets of an accepted directory are files of it, with distinct names. -/
theorem loadLocalAssets_ok {sha256Hex : List UInt8 → String} {dist : Dist} {tag : String}
    {assets : List LocalAsset} (h : loadLocalAssets sha256Hex dist tag = .ok assets) :
    (assets.map LocalAsset.name).Nodup ∧
      ∀ asset ∈ assets, ∃ file ∈ dist.files, asset = file.asset sha256Hex := by
  rw [(loadLocalAssets_files h).1]
  constructor
  · rw [List.map_map]
    exact dist.sortedFiles_names
  · intro asset hasset
    obtain ⟨file, hfile, rfl⟩ := List.mem_map.mp hasset
    exact ⟨file, (List.mem_filter.mp (dist.sortedFiles_perm.mem_iff.mp hfile)).1, rfl⟩

/-- They are the payload and `SHA256SUMS`. -/
theorem loadLocalAssets_length {sha256Hex : List UInt8 → String} {dist : Dist} {tag : String}
    {assets : List LocalAsset} (h : loadLocalAssets sha256Hex dist tag = .ok assets) :
    assets.length ≤ 4 := by
  obtain ⟨rfl, hpayload⟩ := loadLocalAssets_files h
  have hsums : ((dist.sortedFiles.map DistFile.name).filter (· == "SHA256SUMS")).length ≤ 1 := by
    rw [← List.count_eq_length_filter]
    exact List.nodup_iff_count_le_one.mp dist.sortedFiles_names "SHA256SUMS"
  have hsplit := List.length_eq_length_filter_add (l := dist.sortedFiles.map DistFile.name)
    (· == "SHA256SUMS")
  rw [List.length_map] at hsplit ⊢
  have hothers : ((dist.sortedFiles.map DistFile.name).filter (!· == "SHA256SUMS")).length = 3 :=
    hpayload
  omega

theorem remoteName_eq_some {remote : Json} {name : String} :
    remoteName remote = some name ↔ remote.field "name" = some (.str name) := by
  unfold remoteName
  split
  · next found heq => rw [heq, Option.some.injEq, Option.some.injEq, Json.str.injEq]
  · next hne =>
      constructor
      · intro h
        cases h
      · intro h
        exact absurd h (hne name)

theorem remoteDigest_eq_some {remote : Json} {digest : String} :
    remoteDigest remote = some digest ↔
      remote.field "digest" = some (.str ("sha256:" ++ digest)) := by
  unfold remoteDigest
  split
  · next value heq =>
      rw [heq, Option.some.injEq, Json.str.injEq, Option.map_eq_some_iff]
      constructor
      · rintro ⟨cs, hcs, rfl⟩
        obtain ⟨p, hp, hbeq⟩ := List.dropPrefix?_eq_some_iff.mp hcs
        rw [← String.toList_inj, hp, eq_of_beq hbeq, String.toList_append]
        exact congrArg _ String.toList_ofList.symm
      · rintro rfl
        refine ⟨digest.toList, ?_, String.ofList_toList⟩
        rw [List.dropPrefix?_eq_some_iff, String.toList_append]
        exact ⟨_, rfl, BEq.rfl⟩
  · next hne =>
      constructor
      · intro h
        cases h
      · intro h
        exact absurd h (hne _)

theorem assetMatches_iff {asset : LocalAsset} {remote : Json} :
    assetMatches asset remote = true ↔ remoteName remote = some asset.name ∧
      Json.eqInt (remote.field "size") asset.size = true ∧
      remote.field "digest" = some (.str ("sha256:" ++ asset.digest)) := by
  rw [assetMatches, Bool.and_eq_true, Bool.and_eq_true, beq_iff_eq, beq_iff_eq,
    remoteDigest_eq_some, and_assoc]

theorem verifyNamed_ok {remote : List Json} {asset : LocalAsset} :
    verifyNamed remote asset = .ok () ↔ ∃ item, remoteNamed asset.name remote = [item] ∧
      Json.eqInt (item.field "size") asset.size = true ∧
      item.field "digest" = some (.str ("sha256:" ++ asset.digest)) := by
  unfold verifyNamed
  split
  · next found heq =>
      have hname : remoteName found = some asset.name := by
        have hmem : found ∈ remoteNamed asset.name remote := heq ▸ List.mem_singleton_self found
        exact eq_of_beq (List.mem_filter.mp hmem).2
      rw [heq]
      split
      · next hmatches =>
          obtain ⟨-, hsize, hdigest⟩ := assetMatches_iff.mp hmatches
          exact ⟨fun _ => ⟨found, rfl, hsize, hdigest⟩, fun _ => rfl⟩
      · next hmatches =>
          constructor
          · intro h
            cases h
          · rintro ⟨item, hitem, hsize, hdigest⟩
            cases hitem
            exact absurd (assetMatches_iff.mpr ⟨hname, hsize, hdigest⟩) hmatches
  · next hne =>
      constructor
      · intro h
        cases h
      · rintro ⟨item, hitem, -⟩
        exact absurd hitem (hne item)

theorem verifyEach_ok {remote : List Json} {expected : List LocalAsset} :
    verifyEach remote expected = .ok () ↔
      ∀ asset ∈ expected, ∃ item, remoteNamed asset.name remote = [item] ∧
        Json.eqInt (item.field "size") asset.size = true ∧
        item.field "digest" = some (.str ("sha256:" ++ asset.digest)) := by
  induction expected with
  | nil => exact ⟨fun _ _ h => (nomatch h), fun _ => rfl⟩
  | cons asset expected ih =>
      rw [verifyEach, bind_eq_ok, List.forall_mem_cons, ← verifyNamed_ok, ← ih]
      exact ⟨fun ⟨_, h⟩ => h, fun h => ⟨(), h⟩⟩

theorem sortedNames_eq_nil {names : List String} : sortedNames names = [] ↔ names = [] := by
  rw [sortedNames, ← List.length_eq_zero_iff, List.length_insertionSort, List.length_eq_zero_iff]

/-- Exactly the exact assets are accepted. -/
theorem verifyRemoteAssets_ok {expected : List LocalAsset} {remote : List Json} :
    verifyRemoteAssets expected remote = .ok () ↔ ExactAssets expected remote := by
  rw [verifyRemoteAssets, refuseIf_bind_ok, refuseIf_bind_ok, verifyEach_ok, not_or, not_not,
    not_not,
    sortedNames_eq_nil, sortedNames_eq_nil]
  constructor
  · rintro ⟨hnames, ⟨-, hextra⟩, heach⟩
    refine ⟨fun item hitem => ?_, heach⟩
    cases hname : remoteName item with
    | none => exact absurd ⟨item, hitem, hname⟩ hnames
    | some name =>
        have hmem : name ∈ (remote.filterMap remoteName).dedup :=
          List.mem_dedup.mpr (List.mem_filterMap.mpr ⟨item, hitem, hname⟩)
        have hexpected : name ∈ expected.map LocalAsset.name := by
          have hnone := List.filter_eq_nil_iff.mp hextra name hmem
          simpa only [decide_not, Bool.not_eq_true', decide_eq_false_iff_not, not_not] using hnone
        obtain ⟨asset, hasset, rfl⟩ := List.mem_map.mp hexpected
        exact ⟨asset, hasset, remoteName_eq_some.mp hname⟩
  · rintro ⟨honly, heach⟩
    refine ⟨?_, ⟨?_, ?_⟩, heach⟩
    · rintro ⟨item, hitem, hnone⟩
      obtain ⟨asset, -, hname⟩ := honly item hitem
      rw [remoteName_eq_some.mpr hname] at hnone
      cases hnone
    · refine List.filter_eq_nil_iff.mpr fun name hname => ?_
      obtain ⟨asset, hasset, rfl⟩ := List.mem_map.mp hname
      obtain ⟨item, hitem, -⟩ := heach asset hasset
      have hfound : item ∈ remoteNamed asset.name remote := hitem ▸ List.mem_singleton_self item
      obtain ⟨hitem, hnamed⟩ := List.mem_filter.mp hfound
      have hmem : asset.name ∈ (remote.filterMap remoteName).dedup :=
        List.mem_dedup.mpr (List.mem_filterMap.mpr ⟨item, hitem, eq_of_beq hnamed⟩)
      simpa using hmem
    · refine List.filter_eq_nil_iff.mpr fun name hname => ?_
      obtain ⟨item, hitem, hnamed⟩ := List.mem_filterMap.mp (List.mem_dedup.mp hname)
      obtain ⟨asset, hasset, hfield⟩ := honly item hitem
      have hsame : name = asset.name :=
        Option.some.inj (hnamed.symm.trans (remoteName_eq_some.mpr hfield))
      have hmem : name ∈ expected.map LocalAsset.name :=
        hsame ▸ List.mem_map_of_mem hasset
      simpa using hmem

end ProdkitStorage.Release
