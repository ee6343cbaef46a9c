import ProdkitStorage.Redis.KeyRoles

/-!
# When two keys are the same

`build` has two forms of a key, the quoted parts and a digest of them, and no mark on
either.  Two lists of parts make one key exactly when one of them spells out the digest
of the other, whose key is too long (`SpellsDigest`).
-/

namespace ProdkitStorage.Redis

open ProdkitStorage.Python

namespace KeyBuilder

variable {keys : KeyBuilder} {sha256Hex : String → String}

/-! ## Parts -/

/-- The parts of a key are told apart by their segments. -/
theorem map_quoted_eq_iff {p q : List String} :
    p.map quoted = q.map quoted ↔ p.map strip = q.map strip := by
  induction p generalizing q with
  | nil => cases q <;> simp
  | cons part p ih =>
      cases q with
      | nil => simp
      | cons other q =>
          rw [List.map_cons, List.map_cons, List.map_cons, List.map_cons, List.cons.injEq,
            List.cons.injEq, ih, quoted, quoted, quote_inj]

/-- Digits of a digest are quoted as they are. -/
theorem quote_hexDigest (hhex : HexDigest sha256Hex) (text : String) :
    quote (sha256Hex text) = sha256Hex text := by
  have hall : ∀ c ∈ "0123456789abcdef".toList,
      (String.utf8EncodeChar c).flatMap quoteByte = [c] := forall_mem_of_all (by decide)
  exact quote_eq_self fun c hc => hall c (hhex.digits text c hc)

/-- The segments of a digest are those of the parts that spell it out. -/
theorem map_quoted_eq_digest_iff (hhex : HexDigest sha256Hex) {p : List String} {text : String} :
    p.map quoted = ["sha256", sha256Hex text] ↔ p.map strip = ["sha256", sha256Hex text] := by
  have hname : quote "sha256" = "sha256" := by decide
  have hquoted : (p.map strip).map quote = p.map quoted := by
    rw [List.map_map]
    rfl
  have hdigest : ["sha256", sha256Hex text].map quote = ["sha256", sha256Hex text] := by
    rw [List.map_cons, List.map_cons, List.map_nil, hname, quote_hexDigest hhex]
  rw [← hquoted]
  constructor
  · intro heq
    rw [← hdigest] at heq
    exact List.map_injective_iff.mpr (fun _ _ h => quote_inj.mp h) heq
  · intro heq
    rw [heq, hdigest]

/-- Parts that are not blank make a key. -/
theorem build_returns (keys : KeyBuilder) (sha256Hex : String → String) {parts : List String}
    (h : ∀ part ∈ parts, strip part ≠ "") : ∃ key, keys.build sha256Hex parts = .ok key := by
  have hsegments : parts.mapM segment = .ok (parts.map quoted) := by
    induction parts with
    | nil => rfl
    | cons part parts ih =>
        have hfirst : segment part = .ok (quoted part) := if_neg (h part List.mem_cons_self)
        rw [List.mapM_cons, hfirst, ih fun other hother => h other (List.mem_cons_of_mem _ hother)]
        rfl
  unfold build
  rw [hsegments]
  show ∃ key, (if keys.Fits parts then .ok (keys.plain parts) else _ : Except PyError String) =
    .ok key
  split
  · exact ⟨_, rfl⟩
  · exact ⟨_, rfl⟩

/-! ## The length of a key -/

theorem utf8Size_of_mem_namespace (keys : KeyBuilder) :
    ∀ c ∈ keys.namespace_.toList, c.utf8Size = 1 := by
  obtain ⟨raw, hraw⟩ := keys.namespace_segment
  rw [segment_ok hraw]
  exact utf8Size_of_mem_quote

theorem utf8Size_of_mem_version (keys : KeyBuilder) :
    ∀ c ∈ keys.versionSegment.toList, c.utf8Size = 1 := by
  have hpos := keys.version_pos
  obtain ⟨n, hn⟩ := Int.eq_ofNat_of_zero_le (show 0 ≤ keys.version by omega)
  intro c hc
  rw [versionSegment, hn, String.toList_append, List.mem_append] at hc
  rcases hc with hc | hc
  · have hletter : ∀ c ∈ "v".toList, c.utf8Size = 1 := forall_mem_of_all (by decide)
    exact hletter c hc
  · have hrepr : (toString (n : Int)).toList = Nat.toDigits 10 n := by
      show (Nat.repr n).toList = _
      rw [Nat.repr, String.toList_ofList]
    rw [hrepr] at hc
    exact utf8Size_of_isDigit (Nat.isDigit_of_mem_toDigits (by decide) (by decide) hc)

/-- What is kept of the head of a hashed key takes the bytes that are left for it. -/
theorem utf8ByteSize_cut_le (keys : KeyBuilder) :
    (String.intercalate ":" keys.cutSegments).utf8ByteSize ≤ keys.budget := by
  have hhead : (String.intercalate ":" [keys.namespace_, keys.versionSegment]).toList =
      keys.namespace_.toList ++ ':' :: keys.versionSegment.toList := by
    simp [String.intercalate_cons_cons]
  rw [cutSegments_joined, utf8ByteSize_of_ascii, takeStr, String.length_ofList]
  · exact List.length_take_le _ _
  · intro c hc
    rw [takeStr, String.toList_ofList, hhead] at hc
    rcases List.mem_append.mp (List.mem_of_mem_take hc) with hc | hc
    · exact utf8Size_of_mem_namespace keys c hc
    · rcases List.mem_cons.mp hc with rfl | hc
      · rfl
      · exact utf8Size_of_mem_version keys c hc

/-- No key is longer than the limit. -/
theorem utf8ByteSize_build_le (hhex : HexDigest sha256Hex) {parts : List String} {key : String}
    (h : keys.build sha256Hex parts = .ok key) : (key.utf8ByteSize : Int) ≤ keys.maxLength := by
  have hmax := keys.maxLength_ge
  rw [build_segments hhex h, KeyBuilder.segments]
  split
  · next hfits => exact hfits
  · have hcut := utf8ByteSize_cut_le keys
    have hne : keys.cutSegments ≠ [] := by
      unfold cutSegments
      split
      · exact List.cons_ne_nil _ _
      · exact List.cons_ne_nil _ _
    have hdigits : ∀ c ∈ "0123456789abcdef".toList, c.utf8Size = 1 :=
      forall_mem_of_all (by decide)
    have hdigest : (sha256Hex (keys.plain parts)).utf8ByteSize = 64 := by
      rw [utf8ByteSize_of_ascii fun c hc => hdigits c (hhex.digits _ c hc), hhex.length]
    have hcolon : ":".utf8ByteSize = 1 := by decide
    have hname : "sha256".utf8ByteSize = 6 := by decide
    rw [String.intercalate_append_of_ne_nil hne (List.cons_ne_nil _ _),
      String.intercalate_cons_cons, String.intercalate_singleton]
    simp only [String.utf8ByteSize_append, hdigest, hcolon, hname]
    unfold budget at hcut
    omega

/-! ## Two keys -/

/-- The first parts spell out the digest of the key of the others, which is too long. -/
structure SpellsDigest (keys : KeyBuilder) (sha256Hex : String → String) (p q : List String) :
    Prop where
  fits : keys.Fits p
  long : ¬keys.Fits q
  parts : p.map strip = ["sha256", sha256Hex (keys.plain q)]

/-! ## Samples -/

/-- The first version. -/
theorem shortest_version_pos : (1 : Int) ≤ 1 := Int.le_refl 1

/-- A builder with the shortest limit. -/
def shortest : KeyBuilder where
  namespace_ := "n"
  version := 1
  maxLength := 80
  namespace_segment := ⟨"n", by decide⟩
  version_pos := shortest_version_pos
  maxLength_ge := by decide

/-- The shortest part whose key is too long. -/
def longPart : String := String.ofList (List.replicate 76 'x')

/-- The digest of its key. -/
def longDigest : String := "de2ca7f9c214b5521cefa93e0bbf909b31be8beb74911acfe3a56e92862fb561"

/-- The digests of that key and of no other. -/
def knownDigest (text : String) : String :=
  if text = "n:v1:" ++ longPart then longDigest else String.ofList (List.replicate 64 '0')

theorem hexDigest_knownDigest : HexDigest knownDigest where
  length text := by
    unfold knownDigest
    split
    · decide +kernel
    · rw [String.length_ofList, List.length_replicate]
  digits text c hc := by
    unfold knownDigest at hc
    split at hc
    · have hall : ∀ c ∈ longDigest.toList, c ∈ "0123456789abcdef".toList :=
        forall_mem_of_all (by decide +kernel)
      exact hall c hc
    · have hzero : c = '0' := by simpa using hc
      rw [hzero]
      decide

theorem shortest_plain_long : shortest.plain [longPart] = "n:v1:" ++ longPart := by decide +kernel

theorem spellsDigest_long :
    shortest.SpellsDigest knownDigest ["sha256", longDigest] [longPart] where
  fits := by decide +kernel
  long := by decide +kernel
  parts := by
    rw [shortest_plain_long, knownDigest, if_pos rfl]
    decide +kernel

theorem distinguishes_longPart (p : List String) (h : shortest.Fits p) :
    shortest.Distinguishes knownDigest p [longPart] := by
  intro hlong
  exact absurd h hlong


/-- Every key is within the limit, and two lists of parts that differ make two keys exactly
when neither spells out the digest of the other. -/
theorem build_apart (hhex : HexDigest sha256Hex) :
    (∀ parts key, keys.build sha256Hex parts = .ok key →
      (key.utf8ByteSize : Int) ≤ keys.maxLength) ∧
    ∀ p q, (∀ part ∈ p, strip part ≠ "") → (∀ part ∈ q, strip part ≠ "") →
      p.map strip ≠ q.map strip → keys.Distinguishes sha256Hex p q →
      ((∃ key key', keys.build sha256Hex p = .ok key ∧ keys.build sha256Hex q = .ok key' ∧
          key ≠ key') ↔
        ¬keys.SpellsDigest sha256Hex p q ∧ ¬keys.SpellsDigest sha256Hex q p) := by
  refine ⟨fun _ _ h => utf8ByteSize_build_le hhex h, ?_⟩
  intro p q hp hq hne hsha
  obtain ⟨key, hkey⟩ := build_returns keys sha256Hex hp
  obtain ⟨key', hkey'⟩ := build_returns keys sha256Hex hq
  have hsame : key = key' ↔
      keys.SpellsDigest sha256Hex p q ∨ keys.SpellsDigest sha256Hex q p := by
    rw [build_eq_iff hhex hkey hkey', segments_eq_iff hhex hsha, map_quoted_eq_iff,
      map_quoted_eq_digest_iff hhex, map_quoted_eq_digest_iff hhex]
    constructor
    · rintro (hparts | ⟨hfits, hlong, hparts⟩ | ⟨hlong, hfits, hparts⟩)
      · exact absurd hparts hne
      · exact .inl ⟨hfits, hlong, hparts⟩
      · exact .inr ⟨hfits, hlong, hparts⟩
    · rintro (⟨hfits, hlong, hparts⟩ | ⟨hfits, hlong, hparts⟩)
      · exact .inr (.inl ⟨hfits, hlong, hparts⟩)
      · exact .inr (.inr ⟨hlong, hfits, hparts⟩)
  rw [← not_or, ← hsame]
  constructor
  · rintro ⟨first, second, hfirst, hsecond, happart⟩ heq
    rw [hkey] at hfirst
    rw [hkey'] at hsecond
    cases hfirst
    cases hsecond
    exact happart heq
  · exact fun happart => ⟨key, key', hkey, hkey', happart⟩

/-- Two short keys of one builder are different. -/
theorem build_apart_short :
    ∃ key key', shortest.build knownDigest ["user", "7"] = .ok key ∧
      shortest.build knownDigest [longPart] = .ok key' ∧ key ≠ key' := by
  refine ((build_apart hexDigest_knownDigest).2 ["user", "7"] [longPart] ?_ ?_ ?_ ?_).mpr ⟨?_, ?_⟩
  · decide
  · decide +kernel
  · decide +kernel
  · exact distinguishes_longPart _ (by decide)
  · exact fun hspells => absurd (List.cons.inj hspells.parts).1 (by decide)
  · exact fun hspells => hspells.long (by decide)

/-- The key of `"sha256"` and a digest is the key the digest was made of. -/
theorem build_collides :
    ¬∀ (keys : KeyBuilder) (sha256Hex : String → String) (p q : List String) (key key' : String),
      HexDigest sha256Hex → keys.Distinguishes sha256Hex p q → p.map strip ≠ q.map strip →
      keys.build sha256Hex p = .ok key → keys.build sha256Hex q = .ok key' → key ≠ key' := by
  intro hall
  have hnotBlank : ∀ part ∈ ["sha256", longDigest], strip part ≠ "" := by decide +kernel
  have hnotBlank' : ∀ part ∈ [longPart], strip part ≠ "" := by decide +kernel
  have hdifferent : ["sha256", longDigest].map strip ≠ [longPart].map strip := by decide +kernel
  have hsha := distinguishes_longPart _ spellsDigest_long.fits
  obtain ⟨key, hkey⟩ := build_returns shortest knownDigest hnotBlank
  obtain ⟨key', hkey'⟩ := build_returns shortest knownDigest hnotBlank'
  refine hall _ _ _ _ key key' hexDigest_knownDigest hsha hdifferent hkey hkey' ?_
  rw [build_eq_iff hexDigest_knownDigest hkey hkey', segments_eq_iff hexDigest_knownDigest hsha]
  refine .inr (.inl ⟨spellsDigest_long.fits, spellsDigest_long.long, ?_⟩)
  exact (map_quoted_eq_digest_iff hexDigest_knownDigest).mpr spellsDigest_long.parts

end KeyBuilder

end ProdkitStorage.Redis
