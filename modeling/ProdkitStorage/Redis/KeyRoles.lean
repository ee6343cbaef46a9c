import ProdkitStorage.Redis.GetOrSet

/-!
# Roles of keys

One `KeyBuilder` makes the keys of cached values and of tag sets, and `get_or_set` makes
the keys of locks from those of cached values.  A key is its segments, joined by `:`.
No segment contains a `:`, so two keys are equal exactly when their segments are, and
`Collides` lists the segments for which keys of different roles are: `build` marks no
key with its role.
-/

namespace ProdkitStorage.Redis

open ProdkitStorage.Python

/-! ## Segments -/

/-- The segment of a part. -/
def quoted (value : String) : String := quote (strip value)

/-- `hashlib.sha256(...).hexdigest()` of each text: 64 hexadecimal digits. -/
structure HexDigest (sha256Hex : String → String) : Prop where
  length : ∀ text, (sha256Hex text).length = 64
  digits : ∀ text, ∀ c ∈ (sha256Hex text).toList, c ∈ "0123456789abcdef".toList

namespace KeyBuilder

variable (keys : KeyBuilder)

/-- `f"v{self.version}"`. -/
def versionSegment : String := "v" ++ toString keys.version

/-- The segments of a key before it is hashed. -/
def plainSegments (parts : List String) : List String :=
  keys.namespace_ :: keys.versionSegment :: parts.map quoted

/-- The key before it is hashed. -/
def plain (parts : List String) : String := String.intercalate ":" (keys.plainSegments parts)

/-- The key is short enough. -/
def Fits (parts : List String) : Prop := ((keys.plain parts).utf8ByteSize : Int) ≤ keys.maxLength

instance (parts : List String) : Decidable (keys.Fits parts) :=
  inferInstanceAs (Decidable (_ ≤ _))

/-- How much of the head of a hashed key is kept. -/
def budget : Nat := (keys.maxLength - 72).toNat

/-- The segments of what is kept. -/
def cutSegments : List String :=
  if keys.budget ≤ keys.namespace_.length then [takeStr keys.budget keys.namespace_]
  else [keys.namespace_, takeStr (keys.budget - keys.namespace_.length - 1) keys.versionSegment]

/-- The segments of a key. -/
def segments (sha256Hex : String → String) (parts : List String) : List String :=
  if keys.Fits parts then keys.plainSegments parts
  else keys.cutSegments ++ ["sha256", sha256Hex (keys.plain parts)]

end KeyBuilder

/-! ## Keys as segments -/

theorem segment_ok {value s : String} (h : segment value = .ok s) : s = quoted value := by
  unfold segment at h
  dsimp only at h
  split at h
  · cases h
  · exact (Except.ok.inj h).symm

theorem mapM_segment_ok {parts segments : List String} (h : parts.mapM segment = .ok segments) :
    segments = parts.map quoted := by
  induction parts generalizing segments with
  | nil => cases h; rfl
  | cons part parts ih =>
      rw [List.mapM_cons] at h
      obtain ⟨first, hfirst, h⟩ := bind_eq_ok.mp h
      obtain ⟨rest, hrest, h⟩ := bind_eq_ok.mp h
      cases h
      rw [List.map_cons, segment_ok hfirst, ih hrest]

theorem colon_not_mem_quoted (value : String) : ':' ∉ (quoted value).toList :=
  colon_not_mem_quote _

namespace KeyBuilder

variable {keys : KeyBuilder} {sha256Hex : String → String}

theorem colon_not_mem_namespace (keys : KeyBuilder) : ':' ∉ keys.namespace_.toList := by
  obtain ⟨raw, hraw⟩ := keys.namespace_segment
  rw [segment_ok hraw]
  exact colon_not_mem_quoted raw

theorem colon_not_mem_version (keys : KeyBuilder) : ':' ∉ keys.versionSegment.toList := by
  have hpos := keys.version_pos
  obtain ⟨n, hn⟩ := Int.eq_ofNat_of_zero_le (show 0 ≤ keys.version by omega)
  rw [versionSegment, hn, String.toList_append, List.mem_append, not_or]
  refine ⟨by decide, ?_⟩
  have hrepr : (toString (n : Int)).toList = Nat.toDigits 10 n := by
    show (Nat.repr n).toList = _
    rw [Nat.repr, String.toList_ofList]
  rw [hrepr]
  intro hmem
  exact absurd (Nat.isDigit_of_mem_toDigits (by decide) (by decide) hmem) (by decide)

theorem versionSegment_ne (keys : KeyBuilder) : keys.versionSegment ≠ "sha256" := by
  intro heq
  have hlists := congrArg String.toList heq
  rw [versionSegment, String.toList_append] at hlists
  exact absurd (List.cons.inj hlists).1 (by decide)

/-- What is kept of the head of a hashed key, as segments. -/
theorem cutSegments_joined (keys : KeyBuilder) :
    String.intercalate ":" keys.cutSegments =
      takeStr keys.budget (String.intercalate ":" [keys.namespace_, keys.versionSegment]) := by
  have hhead : (String.intercalate ":" [keys.namespace_, keys.versionSegment]).toList =
      keys.namespace_.toList ++ ':' :: keys.versionSegment.toList := by
    simp [String.intercalate_cons_cons]
  apply String.toList_inj.mp
  rw [takeStr, String.toList_ofList, hhead, cutSegments]
  split
  · next hle =>
      rw [← String.length_toList] at hle
      rw [String.intercalate_singleton, takeStr, String.toList_ofList,
        List.take_append_of_le_length hle]
  · next hlt =>
      rw [← String.length_toList] at hlt ⊢
      obtain ⟨more, hmore⟩ := Nat.exists_eq_add_of_lt (Nat.lt_of_not_le hlt)
      rw [hmore, Nat.add_assoc, List.take_length_add_append, List.take_succ_cons,
        Nat.add_sub_cancel_left, Nat.add_sub_cancel]
      simp [takeStr, String.intercalate_cons_cons]

/-- A key is its segments, joined. -/
theorem build_segments (hhex : HexDigest sha256Hex) {parts : List String} {key : String}
    (h : keys.build sha256Hex parts = .ok key) :
    key = String.intercalate ":" (keys.segments sha256Hex parts) := by
  obtain ⟨segments, hsegments, h⟩ := bind_eq_ok.mp h
  obtain rfl := mapM_segment_ok hsegments
  have hkey : (if keys.Fits parts then .ok (keys.plain parts) else
      .ok (takeStr (keys.maxLength - (":sha256:" ++ sha256Hex (keys.plain parts)).length).toNat
        (String.intercalate ":" [keys.namespace_, keys.versionSegment]) ++
          (":sha256:" ++ sha256Hex (keys.plain parts))) : Except PyError String) = .ok key := h
  have hsuffix : (":sha256:" ++ sha256Hex (keys.plain parts)).length = 72 := by
    rw [String.length_append, hhex.length]
    rfl
  rw [hsuffix] at hkey
  by_cases hfits : keys.Fits parts
  · rw [if_pos hfits] at hkey
    rw [KeyBuilder.segments, if_pos hfits]
    exact (Except.ok.inj hkey).symm
  · rw [if_neg hfits] at hkey
    have hcut : keys.cutSegments ≠ [] := by
      unfold cutSegments
      split
      · exact List.cons_ne_nil _ _
      · exact List.cons_ne_nil _ _
    rw [KeyBuilder.segments, if_neg hfits, String.intercalate_append_of_ne_nil hcut (by simp),
      cutSegments_joined, ← Except.ok.inj hkey, String.intercalate_cons_cons,
      String.intercalate_singleton]
    simp only [String.append_assoc]
    rfl

theorem colon_not_mem_takeStr {s : String} (h : ':' ∉ s.toList) (n : Nat) :
    ':' ∉ (takeStr n s).toList := by
  rw [takeStr, String.toList_ofList]
  exact fun hmem => h (List.mem_of_mem_take hmem)

theorem colon_not_mem_plainSegments (parts : List String) :
    ∀ s ∈ keys.plainSegments parts, ':' ∉ s.toList := by
  intro s hs
  rcases List.mem_cons.mp hs with rfl | hs
  · exact colon_not_mem_namespace keys
  rcases List.mem_cons.mp hs with rfl | hs
  · exact colon_not_mem_version keys
  obtain ⟨part, -, rfl⟩ := List.mem_map.mp hs
  exact colon_not_mem_quoted part

/-- Two keys are equal before they are hashed exactly when their parts have the same segments. -/
theorem plain_eq_iff {p q : List String} :
    keys.plain p = keys.plain q ↔ p.map quoted = q.map quoted := by
  constructor
  · intro heq
    have hsegments := join_inj (colon_not_mem_plainSegments p) (colon_not_mem_plainSegments q)
      (List.cons_ne_nil _ _) (List.cons_ne_nil _ _) heq
    exact (List.cons.inj (List.cons.inj hsegments).2).2
  · intro hparts
    rw [plain, plain, plainSegments, plainSegments, hparts]

/-- No segment of a key has a separator. -/
theorem colon_not_mem_segments (hhex : HexDigest sha256Hex) (parts : List String) :
    ∀ s ∈ keys.segments sha256Hex parts, ':' ∉ s.toList := by
  have hnamespace := colon_not_mem_namespace keys
  have hversion := colon_not_mem_version keys
  intro s hs
  unfold KeyBuilder.segments at hs
  split at hs
  · exact colon_not_mem_plainSegments parts s hs
  · rcases List.mem_append.mp hs with hs | hs
    · unfold cutSegments at hs
      split at hs
      · rw [List.mem_singleton.mp hs]
        exact colon_not_mem_takeStr hnamespace _
      · rcases List.mem_cons.mp hs with rfl | hs
        · exact hnamespace
        · rw [List.mem_singleton.mp hs]
          exact colon_not_mem_takeStr hversion _
    · rcases List.mem_cons.mp hs with rfl | hs
      · decide
      · rw [List.mem_singleton.mp hs]
        intro hmem
        exact absurd (hhex.digits _ _ hmem) (by decide)

theorem segments_ne_nil (sha256Hex : String → String) (parts : List String) :
    keys.segments sha256Hex parts ≠ [] := by
  unfold KeyBuilder.segments
  split
  · exact List.cons_ne_nil _ _
  · simp

/-- Two keys are equal exactly when their segments are. -/
theorem build_eq_iff (hhex : HexDigest sha256Hex) {p q : List String} {key key' : String}
    (hp : keys.build sha256Hex p = .ok key) (hq : keys.build sha256Hex q = .ok key') :
    key = key' ↔ keys.segments sha256Hex p = keys.segments sha256Hex q := by
  rw [build_segments hhex hp, build_segments hhex hq]
  constructor
  · intro heq
    exact join_inj (colon_not_mem_segments hhex p) (colon_not_mem_segments hhex q)
      (segments_ne_nil _ _) (segments_ne_nil _ _) heq
  · intro heq
    rw [heq]

/-- A key is the key of a lock exactly when its segments are those of the lock. -/
theorem build_eq_lock_iff (hhex : HexDigest sha256Hex) {p q : List String} {key key' : String}
    (hp : keys.build sha256Hex p = .ok key) (hq : keys.build sha256Hex q = .ok key') :
    key = lockKeyOf key' ↔
      keys.segments sha256Hex p = keys.segments sha256Hex q ++ ["lock"] := by
  have hlock : lockKeyOf key' =
      String.intercalate ":" (keys.segments sha256Hex q ++ ["lock"]) := by
    rw [String.intercalate_append_of_ne_nil (segments_ne_nil _ _) (List.cons_ne_nil _ _),
      ← build_segments hhex hq, String.intercalate_singleton, String.append_assoc]
    rfl
  rw [build_segments hhex hp, hlock]
  constructor
  · intro heq
    refine join_inj (colon_not_mem_segments hhex p) ?_ (segments_ne_nil _ _) (by simp) heq
    intro s hs
    rcases List.mem_append.mp hs with hs | hs
    · exact colon_not_mem_segments hhex q s hs
    · rw [List.mem_singleton.mp hs]
      decide
  · intro heq
    rw [heq]

/-! ## When segments are equal -/

/-- A hashed key has the segments of a plain one only where its head is whole. -/
theorem cutSegments_append {rest others : List String}
    (h : keys.namespace_ :: keys.versionSegment :: others = keys.cutSegments ++ "sha256" :: rest) :
    others = "sha256" :: rest := by
  unfold cutSegments at h
  split at h
  · rw [List.cons_append, List.nil_append] at h
    exact absurd (List.cons.inj (List.cons.inj h).2).1 (versionSegment_ne keys)
  · rw [List.cons_append, List.cons_append, List.nil_append] at h
    exact (List.cons.inj (List.cons.inj h).2).2

/-- Where a plain key has room for a digest, the head of a hashed key is whole. -/
theorem cutSegments_whole {parts : List String} (hfits : keys.Fits parts) {digest : String}
    (hdigest : digest.length = 64) {rest : List String}
    (hparts : parts.map quoted = "sha256" :: digest :: rest) :
    keys.cutSegments = [keys.namespace_, keys.versionSegment] := by
  have hlong : keys.namespace_.length + keys.versionSegment.length + 73 ≤
      (keys.plain parts).utf8ByteSize := by
    refine Nat.le_trans ?_ (length_le_utf8ByteSize _)
    have hjoined : keys.plain parts = keys.namespace_ ++ ":" ++ keys.versionSegment ++ ":" ++
        "sha256" ++ ":" ++ String.intercalate ":" (digest :: rest) := by
      rw [plain, plainSegments, hparts]
      simp only [String.intercalate_cons_cons, String.append_assoc]
    have hrest : digest.length ≤ (String.intercalate ":" (digest :: rest)).length := by
      cases rest with
      | nil => simp
      | cons first rest => simp [String.intercalate_cons_cons]; omega
    have hcolon : ":".length = 1 := rfl
    have hsha : "sha256".length = 6 := rfl
    simp only [hjoined, String.length_append]
    omega
  have hbudget : keys.namespace_.length + keys.versionSegment.length + 1 ≤ keys.budget := by
    unfold Fits at hfits
    unfold budget
    omega
  rw [cutSegments, if_neg (by omega)]
  have hwhole : ∀ n, keys.versionSegment.length ≤ n →
      takeStr n keys.versionSegment = keys.versionSegment := by
    intro n hn
    rw [← String.length_toList] at hn
    rw [takeStr, List.take_of_length_le hn, String.ofList_toList]
  rw [hwhole _ (by omega)]

/-- A plain key is a hashed one exactly when it spells out the digest. -/
theorem plain_eq_hashed_iff (hhex : HexDigest sha256Hex) {p : List String} (hfits : keys.Fits p)
    (text : String) (rest : List String) :
    keys.plainSegments p = keys.cutSegments ++ "sha256" :: sha256Hex text :: rest ↔
      p.map quoted = "sha256" :: sha256Hex text :: rest := by
  constructor
  · exact cutSegments_append
  · intro hparts
    rw [plainSegments, hparts, cutSegments_whole hfits (hhex.length text) hparts]
    rfl

theorem fits_of_append {p q : List String} {rest : List String} (hfits : keys.Fits p)
    (hparts : p.map quoted = q.map quoted ++ rest) : keys.Fits q := by
  have hle : (keys.plain q).utf8ByteSize ≤ (keys.plain p).utf8ByteSize := by
    have hplain : keys.plainSegments p = keys.plainSegments q ++ rest := by
      rw [plainSegments, hparts]
      rfl
    cases rest with
    | nil =>
        rw [plain, plain, hplain, List.append_nil]
    | cons first rest =>
        rw [plain, plain, hplain,
          String.intercalate_append_of_ne_nil (l := keys.plainSegments q) (List.cons_ne_nil _ _)
            (List.cons_ne_nil _ _),
          String.utf8ByteSize_append, String.utf8ByteSize_append]
        omega
  unfold Fits at hfits ⊢
  omega

/-- Two keys that are hashed have different digests. -/
def Distinguishes (keys : KeyBuilder) (sha256Hex : String → String) (p q : List String) : Prop :=
  ¬keys.Fits p → ¬keys.Fits q → sha256Hex (keys.plain p) = sha256Hex (keys.plain q) →
    keys.plain p = keys.plain q

/-- When two keys are equal. -/
theorem segments_eq_iff (hhex : HexDigest sha256Hex) {p q : List String}
    (hsha : keys.Distinguishes sha256Hex p q) :
    keys.segments sha256Hex p = keys.segments sha256Hex q ↔
      p.map quoted = q.map quoted ∨
        (keys.Fits p ∧ ¬keys.Fits q ∧ p.map quoted = ["sha256", sha256Hex (keys.plain q)]) ∨
          (¬keys.Fits p ∧ keys.Fits q ∧ q.map quoted = ["sha256", sha256Hex (keys.plain p)]) := by
  by_cases hp : keys.Fits p
  · by_cases hq : keys.Fits q
    · rw [KeyBuilder.segments, if_pos hp, KeyBuilder.segments, if_pos hq]
      simp [hp, hq, plainSegments]
    · rw [KeyBuilder.segments, if_pos hp, KeyBuilder.segments, if_neg hq,
        plain_eq_hashed_iff hhex hp]
      have hne : p.map quoted ≠ q.map quoted :=
        fun hparts => hq (fits_of_append hp (hparts.trans (List.append_nil _).symm))
      simp [hp, hq, hne]
  · by_cases hq : keys.Fits q
    · rw [KeyBuilder.segments, if_neg hp, KeyBuilder.segments, if_pos hq, eq_comm,
        plain_eq_hashed_iff hhex hq]
      have hne : p.map quoted ≠ q.map quoted :=
        fun hparts => hp (fits_of_append hq (hparts.symm.trans (List.append_nil _).symm))
      simp [hp, hq, hne]
    · rw [KeyBuilder.segments, if_neg hp, KeyBuilder.segments, if_neg hq]
      simp only [hp, hq, false_and, and_false, or_false, List.append_cancel_left_eq,
        List.cons.injEq, true_and, and_true]
      constructor
      · exact fun hdigests => plain_eq_iff.mp (hsha hp hq hdigests)
      · intro hparts
        rw [plain_eq_iff.mpr hparts]

/-- When a key is the key of a lock. -/
theorem segments_eq_lock_iff (hhex : HexDigest sha256Hex) {p q : List String} :
    keys.segments sha256Hex p = keys.segments sha256Hex q ++ ["lock"] ↔
      keys.Fits p ∧ (p.map quoted = q.map quoted ++ ["lock"] ∨
        (¬keys.Fits q ∧ p.map quoted = ["sha256", sha256Hex (keys.plain q), "lock"])) := by
  by_cases hp : keys.Fits p
  · by_cases hq : keys.Fits q
    · rw [KeyBuilder.segments, if_pos hp, KeyBuilder.segments, if_pos hq]
      simp [hp, hq, plainSegments]
    · rw [KeyBuilder.segments, if_pos hp, KeyBuilder.segments, if_neg hq, List.append_assoc]
      have hne : p.map quoted ≠ q.map quoted ++ ["lock"] :=
        fun hparts => hq (fits_of_append hp hparts)
      simpa [hp, hq, hne] using plain_eq_hashed_iff hhex hp (keys.plain q) ["lock"]
  · have hlast : ∀ others : List String, keys.cutSegments ++ ["sha256", sha256Hex (keys.plain p)] ≠
        others ++ ["lock"] := by
      intro others heq
      have hdigest : sha256Hex (keys.plain p) = "lock" := by
        simpa using congrArg List.getLast? heq
      have hlength := hhex.length (keys.plain p)
      rw [hdigest] at hlength
      exact absurd hlength (by decide)
    rw [KeyBuilder.segments, if_neg hp]
    simp [hp, hlast]

end KeyBuilder

/-! ## Roles -/

section
variable (sha256Hex : String → String) (keys : KeyBuilder)

/-- The parts of a cached value make the key of a tag. -/
inductive TakesTagKey (p : List String) (tag : String) : Prop where
  | same : p.map quoted = ["tag", quoted tag] → TakesTagKey p tag
  /-- They spell out the digest. -/
  | digest : keys.Fits p → ¬keys.Fits ["tag", tag] →
      p.map quoted = ["sha256", sha256Hex (keys.plain ["tag", tag])] → TakesTagKey p tag

/-- The parts of a cached value make the key of a lock. -/
inductive TakesLockKey (p q : List String) : Prop where
  | longer : keys.Fits p → p.map quoted = q.map quoted ++ ["lock"] → TakesLockKey p q
  /-- They spell out the digest. -/
  | digest : keys.Fits p → ¬keys.Fits q →
      p.map quoted = ["sha256", sha256Hex (keys.plain q), "lock"] → TakesLockKey p q

/-- The tag `lock` makes the key of the lock of the key `tag`. -/
structure TagTakesLockKey (q : List String) (tag : String) : Prop where
  fits : keys.Fits ["tag", tag]
  parts : q.map quoted = ["tag"]
  text : quoted tag = "lock"

/-- Parts of two cached values and a tag that make keys of three roles. -/
structure Separate (p q : List String) (tag : String) : Prop where
  cachedTag : ¬TakesTagKey sha256Hex keys p tag
  cachedLock : ¬TakesLockKey sha256Hex keys p q
  tagLock : ¬TagTakesLockKey keys q tag

end

/-- The keys of a cached value, of a tag set and of a lock are different. -/
structure RolesApart (key tagKey lockKey : String) : Prop where
  cachedTag : key ≠ tagKey
  cachedLock : key ≠ lockKey
  tagLock : tagKey ≠ lockKey

section
variable {sha256Hex : String → String} {keys : KeyBuilder} {p q : List String} {tag : String}
  {key lockedKey tagKey : String}

theorem quoted_tag (tag : String) : ["tag", tag].map quoted = ["tag", quoted tag] := rfl

theorem cachedTag_iff (hhex : HexDigest sha256Hex)
    (hsha : keys.Distinguishes sha256Hex p ["tag", tag])
    (hp : keys.build sha256Hex p = .ok key) (htag : keys.tag sha256Hex tag = .ok tagKey) :
    key = tagKey ↔ TakesTagKey sha256Hex keys p tag := by
  rw [KeyBuilder.build_eq_iff hhex hp htag, KeyBuilder.segments_eq_iff hhex hsha, quoted_tag]
  constructor
  · rintro (hparts | ⟨hfits, hlong, hparts⟩ | ⟨-, -, hparts⟩)
    · exact .same hparts
    · exact .digest hfits hlong hparts
    · exact absurd (List.cons.inj hparts).1 (by decide)
  · intro htakes
    cases htakes with
    | same hparts => exact .inl hparts
    | digest hfits hlong hparts => exact .inr (.inl ⟨hfits, hlong, hparts⟩)

theorem cachedLock_iff (hhex : HexDigest sha256Hex) (hp : keys.build sha256Hex p = .ok key)
    (hq : keys.build sha256Hex q = .ok lockedKey) :
    key = lockKeyOf lockedKey ↔ TakesLockKey sha256Hex keys p q := by
  rw [KeyBuilder.build_eq_lock_iff hhex hp hq, KeyBuilder.segments_eq_lock_iff hhex]
  constructor
  · rintro ⟨hfits, hparts | ⟨hlong, hparts⟩⟩
    · exact .longer hfits hparts
    · exact .digest hfits hlong hparts
  · intro htakes
    cases htakes with
    | longer hfits hparts => exact ⟨hfits, .inl hparts⟩
    | digest hfits hlong hparts => exact ⟨hfits, .inr ⟨hlong, hparts⟩⟩

theorem tagLock_iff (hhex : HexDigest sha256Hex) (hq : keys.build sha256Hex q = .ok lockedKey)
    (htag : keys.tag sha256Hex tag = .ok tagKey) :
    tagKey = lockKeyOf lockedKey ↔ TagTakesLockKey keys q tag := by
  rw [KeyBuilder.build_eq_lock_iff hhex htag hq, KeyBuilder.segments_eq_lock_iff hhex, quoted_tag]
  constructor
  · rintro ⟨hfits, hparts | ⟨-, hparts⟩⟩
    · rw [← List.singleton_append] at hparts
      obtain ⟨htail, hlast⟩ := List.append_inj' hparts (by simp only [List.length_singleton])
      exact ⟨hfits, htail.symm, (List.cons.inj hlast).1⟩
    · exact absurd (List.cons.inj hparts).1 (by decide)
  · rintro ⟨hfits, hparts, htext⟩
    refine ⟨hfits, .inl ?_⟩
    rw [hparts, htext]
    rfl

/-- The keys have different roles exactly when their parts are separate. -/
theorem rolesApart_iff (hhex : HexDigest sha256Hex)
    (hsha : keys.Distinguishes sha256Hex p ["tag", tag])
    (hp : keys.build sha256Hex p = .ok key) (hq : keys.build sha256Hex q = .ok lockedKey)
    (htag : keys.tag sha256Hex tag = .ok tagKey) :
    RolesApart key tagKey (lockKeyOf lockedKey) ↔ Separate sha256Hex keys p q tag := by
  have hcachedTag := cachedTag_iff hhex hsha hp htag
  have hcachedLock := cachedLock_iff hhex hp hq
  have htagLock := tagLock_iff hhex hq htag
  constructor
  · rintro ⟨hct, hcl, htl⟩
    exact ⟨fun h => hct (hcachedTag.mpr h), fun h => hcl (hcachedLock.mpr h),
      fun h => htl (htagLock.mpr h)⟩
  · rintro ⟨hct, hcl, htl⟩
    exact ⟨fun h => hct (hcachedTag.mp h), fun h => hcl (hcachedLock.mp h),
      fun h => htl (htagLock.mp h)⟩

end

end ProdkitStorage.Redis
