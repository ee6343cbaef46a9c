import Mathlib.Data.List.Nodup
import ProdkitStorage.Python.Object
import ProdkitStorage.Redis.GetOrSet

/-!
# The JSON codec

`JsonCodec` of `redis/cache.py`: `orjson.dumps` with `OPT_NON_STR_KEYS` and `OPT_UTC_Z`,
and `orjson.loads`.  `encode` is the document `dumps` writes for a value, `ofJson` the
value `loads` makes of a document.  The texts of documents, floats and instants are
those of the library, `Orjson`; that `loads` reads what `dumps` wrote is asked of a
document where it is used (`Reads`).

A document knows fewer types than Python, so reading loses the others:
`equals_encode_iff` says which values come back equal.
-/

namespace ProdkitStorage.Redis

open ProdkitStorage.Foundation
open ProdkitStorage.Python

/-- The texts of `orjson`. -/
structure Orjson where
  write : Json → String
  /-- `none` for `JSONDecodeError`. -/
  read : String → Option Json
  /-- The text of a float as a key. -/
  floatText : FiniteDouble → String
  /-- The text of RFC 3339, with `Z` for UTC. -/
  datetimeText : Datetime → String

/-- The document that was written is read. -/
def Orjson.Reads (lib : Orjson) (document : Json) : Prop :=
  lib.read (lib.write document) = some document

/-! ## `dumps` -/

/-- `orjson.JSONEncodeError` for a type that is not known. -/
def notSerializable (typeName : String) : PyError :=
  .typeError ("Type is not JSON serializable: " ++ typeName)

/-- The document of a leaf. -/
def encodeLeaf (lib : Orjson) : Leaf → Except PyError Json
  | .none => .ok .null
  | .bool b => .ok (.bool b)
  | .int n =>
      if -2 ^ 63 ≤ n ∧ n < 2 ^ 64 then .ok (.int n)
      else .error (.typeError "Integer exceeds 64-bit range")
  | .float (.finite x) => .ok (.float x)
  | .float _ => .ok .null
  | .str s => .ok (.str s)
  | .datetime d => .ok (.str (lib.datetimeText d))
  | .date d => .ok (.str (String.ofList d.isoformat))
  | .time ⟨clock, none⟩ => .ok (.str (String.ofList clock.isoformat))
  | .time ⟨_, some _⟩ => .error timeHasTzinfo
  | .uuid u => .ok (.str u.str)
  | .derived _ _ value => encodeLeaf lib value
  | .other typeName => .error (notSerializable typeName)

/-- The text of a key. -/
def encodeKey (lib : Orjson) : Leaf → Except PyError String
  | .none => .ok "null"
  | .bool b => .ok (if b then "true" else "false")
  | .int n =>
      if -2 ^ 63 ≤ n ∧ n < 2 ^ 64 then .ok (toString n)
      else .error (.typeError "Dict integer key must be within 64-bit range")
  | .float (.finite x) => .ok (lib.floatText x)
  | .float _ => .ok "null"
  | .str s => .ok s
  | .datetime d => .ok (lib.datetimeText d)
  | .date d => .ok (String.ofList d.isoformat)
  | .time ⟨clock, none⟩ => .ok (String.ofList clock.isoformat)
  | .time ⟨_, some _⟩ => .error (.typeError "datetime.time must not have tzinfo set")
  | .uuid u => .ok u.str
  | .derived _ _ value => encodeKey lib value
  | .other _ => .error (.typeError "Dict key must a type serializable with OPT_NON_STR_KEYS")

mutual

/-- The document of a value. -/
def encode (lib : Orjson) : Object → Except PyError Json
  | .leaf value => encodeLeaf lib value
  | .list items => do return .arr (← encodeAll lib items)
  | .tuple items => do return .arr (← encodeAll lib items)
  | .dict items => do return .obj (← encodeItems lib items)
  | .dataclass _ fields => do return .obj (← encodeFields lib fields)
  | .fragment document => .ok document

def encodeAll (lib : Orjson) : List Object → Except PyError (List Json)
  | [] => .ok []
  | item :: items => do
      let document ← encode lib item
      let documents ← encodeAll lib items
      return document :: documents

def encodeItems (lib : Orjson) : List (Leaf × Object) → Except PyError (List (String × Json))
  | [] => .ok []
  | (key, value) :: items => do
      let text ← encodeKey lib key
      let document ← encode lib value
      let members ← encodeItems lib items
      return (text, document) :: members

def encodeFields (lib : Orjson) : List (String × Object) → Except PyError (List (String × Json))
  | [] => .ok []
  | (name, value) :: fields => do
      let document ← encode lib value
      let members ← encodeFields lib fields
      return (name, document) :: members

end

mutual

/-- How deep containers are nested. -/
def depth : Object → Nat
  | .leaf _ => 0
  | .list items => depthAll items + 1
  | .tuple items => depthAll items + 1
  | .dict items => depthItems items + 1
  | .dataclass _ fields => depthFields fields + 1
  | .fragment _ => 0

def depthAll : List Object → Nat
  | [] => 0
  | item :: items => max (depth item) (depthAll items)

def depthItems : List (Leaf × Object) → Nat
  | [] => 0
  | (_, value) :: items => max (depth value) (depthItems items)

def depthFields : List (String × Object) → Nat
  | [] => 0
  | (_, value) :: fields => max (depth value) (depthFields fields)

end

/-- `JsonCodec.dumps`, of a value. -/
def dumpsObject (lib : Orjson) (value : Object) : Except PyError String :=
  if 254 < depth value then .error (.typeError "Recursion limit reached")
  else do return lib.write (← encode lib value)

/-! ## `loads` -/

/-- `read[key] = value`: a key that is there keeps its place. -/
def assign (key : String) (value : Object) : List (Leaf × Object) → List (Leaf × Object)
  | [] => [(.str key, value)]
  | (key', value') :: items =>
      if key' = .str key then (key', value) :: items else (key', value') :: assign key value items

mutual

/-- The value of a document. -/
def ofJson : Json → Object
  | .null => .leaf .none
  | .bool b => .leaf (.bool b)
  | .int n => .leaf (.int n)
  | .float x => .leaf (.float (.finite x))
  | .str s => .leaf (.str s)
  | .arr documents => .list (ofJsonAll documents)
  | .obj members => .dict (ofMembers members [])

def ofJsonAll : List Json → List Object
  | [] => []
  | document :: documents => ofJson document :: ofJsonAll documents

/-- The items of a dict, from those that are read already. -/
def ofMembers : List (String × Json) → List (Leaf × Object) → List (Leaf × Object)
  | [], items => items
  | (key, document) :: members, items => ofMembers members (assign key (ofJson document) items)

end

/-! ## Leaves -/

/-- A leaf is read as a leaf, and comes back equal exactly when it is portable. -/
theorem Leaf.equals_encodeLeaf_iff {lib : Orjson} {value : Leaf} {document : Json}
    (h : encodeLeaf lib value = .ok document) :
    ∃ read, ofJson document = .leaf read ∧ (value.equals read = true ↔ value.portable = true) := by
  induction value with
  | derived className equal value ih =>
      obtain ⟨read, hread, hequals⟩ := ih h
      refine ⟨read, hread, ?_⟩
      cases equal with
      | true => simpa [Leaf.equals, Leaf.portable] using hequals
      | false => cases read <;> simp [Leaf.equals, Leaf.portable, Leaf.toInt]
  | none => cases h; exact ⟨.none, rfl, by simp [Leaf.equals, Leaf.portable]⟩
  | bool b => cases h; exact ⟨.bool b, rfl, by simp [Leaf.equals, Leaf.portable, Leaf.toInt]⟩
  | int n =>
      unfold encodeLeaf at h
      split at h
      · cases h
        exact ⟨.int n, rfl, by simp [Leaf.equals, Leaf.portable, Leaf.toInt]⟩
      · cases h
  | float x =>
      cases x with
      | finite x =>
          cases h
          exact ⟨.float (.finite x), rfl,
            by simp [Leaf.equals, Leaf.portable, PyFloat.equals, PyFloat.isFinite]⟩
      | infinity negative =>
          cases h
          exact ⟨.none, rfl, by simp [Leaf.equals, Leaf.portable, Leaf.toInt, PyFloat.isFinite]⟩
      | nan =>
          cases h
          exact ⟨.none, rfl, by simp [Leaf.equals, Leaf.portable, Leaf.toInt, PyFloat.isFinite]⟩
  | str s => cases h; exact ⟨.str s, rfl, by simp [Leaf.equals, Leaf.portable]⟩
  | datetime d => cases h; exact ⟨_, rfl, by simp [Leaf.equals, Leaf.portable, Leaf.toInt]⟩
  | date d => cases h; exact ⟨_, rfl, by simp [Leaf.equals, Leaf.portable, Leaf.toInt]⟩
  | time t =>
      obtain ⟨clock, offset⟩ := t
      cases offset with
      | none => cases h; exact ⟨_, rfl, by simp [Leaf.equals, Leaf.portable, Leaf.toInt]⟩
      | some offset => cases h
  | uuid u => cases h; exact ⟨_, rfl, by simp [Leaf.equals, Leaf.portable, Leaf.toInt]⟩
  | other typeName => cases h

/-- The text of a key that equals a text. -/
theorem encodeKey_asText {lib : Orjson} {key : Leaf} {s : String} (h : key.asText = some s) :
    encodeKey lib key = .ok s := by
  induction key with
  | derived className equal value ih =>
      cases equal with
      | true => exact ih h
      | false => cases h
  | str t => cases h; rfl
  | none => cases h
  | bool b => cases h
  | int n => cases h
  | float x => cases h
  | datetime d => cases h
  | date d => cases h
  | time t => cases h
  | uuid u => cases h
  | other typeName => cases h

/-! ## Dicts that are read -/

theorem assign_keys (key : String) (value : Object) (items : List (Leaf × Object)) :
    (assign key value items).map Prod.fst =
      if .str key ∈ items.map Prod.fst then items.map Prod.fst
      else items.map Prod.fst ++ [.str key] := by
  induction items with
  | nil => rfl
  | cons item items ih =>
      obtain ⟨key', value'⟩ := item
      by_cases hkey : key' = .str key
      · simp [assign, hkey]
      · rw [assign, if_neg hkey, List.map_cons, ih]
        by_cases hmem : Leaf.str key ∈ items.map Prod.fst
        · simp [hmem]
        · simp [hmem, Ne.symm hkey]

theorem assign_absent {key : String} {value : Object} {items : List (Leaf × Object)}
    (h : .str key ∉ items.map Prod.fst) :
    assign key value items = items ++ [(.str key, value)] := by
  induction items with
  | nil => rfl
  | cons item items ih =>
      obtain ⟨key', value'⟩ := item
      rw [List.map_cons, List.mem_cons, not_or] at h
      rw [assign, if_neg (Ne.symm h.1), ih h.2, List.cons_append]

/-- The items of a dict that is read: the keys are distinct texts. -/
structure ReadItems (items : List (Leaf × Object)) : Prop where
  texts : ∀ item ∈ items, ∃ s, item.1 = .str s
  distinct : (items.map Prod.fst).Nodup
  values : Object.DistinctKeysItems items

theorem distinctKeysItems_iff {items : List (Leaf × Object)} :
    Object.DistinctKeysItems items ↔ ∀ item ∈ items, item.2.DistinctKeys := by
  induction items with
  | nil => simp [Object.DistinctKeysItems]
  | cons item items ih => simp [Object.DistinctKeysItems, ih]

theorem mem_assign {key : String} {value : Object} {items : List (Leaf × Object)}
    {item : Leaf × Object} (h : item ∈ assign key value items) :
    item ∈ items ∨ item.1 = .str key ∧ item.2 = value := by
  induction items with
  | nil => rw [List.mem_singleton.mp h]; exact .inr ⟨rfl, rfl⟩
  | cons first items ih =>
      obtain ⟨key', value'⟩ := first
      rw [assign] at h
      split at h
      · next hkey =>
          rcases List.mem_cons.mp h with rfl | h
          · exact .inr ⟨hkey, rfl⟩
          · exact .inl (List.mem_cons_of_mem _ h)
      · rcases List.mem_cons.mp h with rfl | h
        · exact .inl List.mem_cons_self
        · exact (ih h).imp_left (List.mem_cons_of_mem _)

theorem ReadItems.assign {items : List (Leaf × Object)} (hitems : ReadItems items) (key : String)
    {value : Object} (hvalue : value.DistinctKeys) : ReadItems (assign key value items) where
  texts item hmem := by
    rcases mem_assign hmem with hold | ⟨hkey, -⟩
    · exact hitems.texts item hold
    · exact ⟨key, hkey⟩
  distinct := by
    rw [assign_keys]
    split
    · exact hitems.distinct
    · next hnew =>
        refine List.nodup_append.mpr ⟨hitems.distinct, List.nodup_singleton _, ?_⟩
        rintro a ha b hb rfl
        exact hnew (List.mem_singleton.mp hb ▸ ha)
  values := by
    rw [distinctKeysItems_iff]
    intro item hmem
    rcases mem_assign hmem with hold | ⟨-, rfl⟩
    · exact distinctKeysItems_iff.mp hitems.values item hold
    · exact hvalue

theorem ReadItems.distinctKeys {items : List (Leaf × Object)} (hitems : ReadItems items) :
    (Object.dict items).DistinctKeys := by
  refine ⟨?_, hitems.values⟩
  have htexts : (items.filterMap fun item => item.1.asText).map Leaf.str = items.map Prod.fst := by
    have hall := hitems.texts
    clear hitems
    induction items with
    | nil => rfl
    | cons item items ih =>
        obtain ⟨s, hs⟩ := hall item List.mem_cons_self
        have hrest := ih fun other hmem => hall other (List.mem_cons_of_mem _ hmem)
        simp [hs, Leaf.asText, hrest]
  exact List.Nodup.of_map Leaf.str (htexts ▸ hitems.distinct)

mutual

theorem ofJson_distinctKeys : ∀ document : Json, (ofJson document).DistinctKeys
  | .null => trivial
  | .bool _ => trivial
  | .int _ => trivial
  | .float _ => trivial
  | .str _ => trivial
  | .arr documents => ofJsonAll_distinctKeys documents
  | .obj members => (ofMembers_readItems members [] ⟨by simp, by simp, trivial⟩).distinctKeys

theorem ofJsonAll_distinctKeys : ∀ documents : List Json,
    Object.DistinctKeysAll (ofJsonAll documents)
  | [] => trivial
  | document :: documents => ⟨ofJson_distinctKeys document, ofJsonAll_distinctKeys documents⟩

theorem ofMembers_readItems : ∀ (members : List (String × Json)) (items : List (Leaf × Object)),
    ReadItems items → ReadItems (ofMembers members items)
  | [], _, hitems => hitems
  | (key, document) :: members, _, hitems =>
      ofMembers_readItems members _ (hitems.assign key (ofJson_distinctKeys document))

end

/-- Members with distinct names are read one by one. -/
theorem ofMembers_distinct : ∀ {members : List (String × Json)} {items : List (Leaf × Object)},
    (members.map Prod.fst).Nodup → (∀ member ∈ members, .str member.1 ∉ items.map Prod.fst) →
      ofMembers members items =
        items ++ members.map fun member => (.str member.1, ofJson member.2)
  | [], items, _, _ => (List.append_nil items).symm
  | (key, document) :: members, items, hnodup, hnew => by
      rw [List.map_cons, List.nodup_cons] at hnodup
      have hrest : ∀ member ∈ members,
          .str member.1 ∉ (items ++ [(Leaf.str key, ofJson document)]).map Prod.fst := by
        intro member hmem hin
        rw [List.map_append, List.mem_append] at hin
        rcases hin with hin | hin
        · exact hnew member (List.mem_cons_of_mem _ hmem) hin
        · rw [List.map_singleton, List.mem_singleton, Leaf.str.injEq] at hin
          exact hnodup.1 (List.mem_map.mpr ⟨member, hmem, hin⟩)
      rw [ofMembers, assign_absent (hnew _ List.mem_cons_self),
        ofMembers_distinct hnodup.2 hrest, List.append_assoc, List.map_cons]
      rfl

/-! ## What comes back equal -/

/-- Every item has a key that equals a text. -/
def TextKeys (items : List (Leaf × Object)) : Prop := ∀ item ∈ items, item.1.asText.isSome = true

/-- The texts of the keys are the names of the members. -/
theorem encodeItems_texts {lib : Orjson} : ∀ {items : List (Leaf × Object)}
    {members : List (String × Json)}, encodeItems lib items = .ok members → TextKeys items →
      members.map Prod.fst = items.filterMap fun item => item.1.asText
  | [], members, h, _ => by cases h; rfl
  | (key, value) :: items, members, h, htexts => by
      obtain ⟨text, htext, h⟩ := bind_eq_ok.mp h
      obtain ⟨document, -, h⟩ := bind_eq_ok.mp h
      obtain ⟨rest, hrest, h⟩ := bind_eq_ok.mp h
      cases h
      obtain ⟨s, hs⟩ := Option.isSome_iff_exists.mp (htexts _ List.mem_cons_self)
      obtain rfl : s = text := Except.ok.inj ((encodeKey_asText hs).symm.trans htext)
      have hnames :=
        encodeItems_texts hrest fun item hmem => htexts item (List.mem_cons_of_mem _ hmem)
      have hs' : key.asText = some s := hs
      simp [hs', hnames]

theorem length_encodeItems {lib : Orjson} : ∀ {items : List (Leaf × Object)}
    {members : List (String × Json)}, encodeItems lib items = .ok members →
      members.length = items.length
  | [], members, h => by cases h; rfl
  | (key, value) :: items, members, h => by
      obtain ⟨text, -, h⟩ := bind_eq_ok.mp h
      obtain ⟨document, -, h⟩ := bind_eq_ok.mp h
      obtain ⟨rest, hrest, h⟩ := bind_eq_ok.mp h
      cases h
      rw [List.length_cons, List.length_cons, length_encodeItems hrest]

/-- The only item that passes a test is found. -/
theorem find_of_unique {α : Type} {p : α → Bool} {a : α} {items : List α} (ha : a ∈ items)
    (hpa : p a = true) (hunique : ∀ b ∈ items, p b = true → b = a) : items.find? p = some a := by
  cases hfound : items.find? p with
  | none => exact absurd hpa (List.find?_eq_none.mp hfound a ha)
  | some b => rw [hunique b (List.mem_of_find?_eq_some hfound) (List.find?_some hfound)]

/-- Among items that are read, a key that equals a text is found under this text. -/
theorem find_read {key : Leaf} {s : String} (hs : key.asText = some s) {object : Object}
    {read : List (Leaf × Object)} (htexts : ∀ item ∈ read, ∃ t, item.1 = .str t)
    (hnodup : (read.map Prod.fst).Nodup) (hmem : (.str s, object) ∈ read) :
    read.find? (fun item => key.equals item.1) = some (.str s, object) := by
  refine find_of_unique hmem (Leaf.equals_str.mpr hs) ?_
  intro item hitem hequals
  obtain ⟨t, ht⟩ := htexts item hitem
  rw [ht, Leaf.equals_str, hs, Option.some.injEq] at hequals
  exact List.inj_on_of_nodup_map hnodup hitem hmem (by rw [ht, hequals])

/-- A key that is no text is not found among items that are read. -/
theorem find_none {key : Leaf} (hkey : key.asText = none) {read : List (Leaf × Object)}
    (htexts : ∀ item ∈ read, ∃ t, item.1 = .str t) :
    read.find? (fun item => key.equals item.1) = none := by
  refine List.find?_eq_none.mpr ?_
  intro item hmem hequals
  obtain ⟨t, ht⟩ := htexts item hmem
  rw [ht, Leaf.equals_str, hkey] at hequals
  cases hequals

/-- Items whose keys are not all texts do not come back equal. -/
theorem textKeys_of_equals : ∀ {items read : List (Leaf × Object)},
    (∀ item ∈ read, ∃ t, item.1 = .str t) → Object.equalsItems items read = true → TextKeys items
  | [], _, _, _ => fun _ hmem => by cases hmem
  | (key, value) :: items, read, htexts, h => by
      rw [Object.equalsItems, Bool.and_eq_true] at h
      intro item hmem
      rcases List.mem_cons.mp hmem with rfl | hmem
      · cases hkey : key.asText with
        | some s => rfl
        | none => rw [find_none hkey htexts] at h; exact absurd h.1 (by simp)
      · exact textKeys_of_equals htexts h.2 item hmem

theorem textKeys_of_portable {items : List (Leaf × Object)}
    (h : (Object.dict items).portable = true) : TextKeys items := by
  rw [Object.portable] at h
  induction items with
  | nil => exact fun _ hmem => by cases hmem
  | cons item items ih =>
      obtain ⟨key, value⟩ := item
      rw [Object.portableItems, Bool.and_eq_true, Bool.and_eq_true] at h
      intro other hmem
      rcases List.mem_cons.mp hmem with rfl | hmem
      · exact h.1.1
      · exact ih h.2 other hmem

mutual

/-- A value that `dumps` accepts comes back equal exactly when it is portable. -/
theorem equals_encode_iff {lib : Orjson} : ∀ {value : Object} {document : Json},
    value.DistinctKeys → encode lib value = .ok document →
      (value.equals (ofJson document) = true ↔ value.portable = true)
  | .leaf value, document, _, h => by
      obtain ⟨read, hread, hequals⟩ := Leaf.equals_encodeLeaf_iff h
      rw [hread]
      exact hequals
  | .list items, document, hdistinct, h => by
      obtain ⟨documents, hdocuments, h⟩ := bind_eq_ok.mp h
      cases h
      exact equalsAll_encode_iff hdistinct hdocuments
  | .tuple items, document, _, h => by
      obtain ⟨documents, -, h⟩ := bind_eq_ok.mp h
      cases h
      simp [Object.equals, Object.portable]
  | .dict items, document, hdistinct, h => by
      obtain ⟨members, hmembers, h⟩ := bind_eq_ok.mp h
      cases h
      exact equalsDict_encode_iff hdistinct hmembers
  | .dataclass className fields, document, _, h => by
      obtain ⟨members, -, h⟩ := bind_eq_ok.mp h
      cases h
      simp [Object.equals, Object.portable]
  | .fragment written, document, _, h => by
      cases h
      simp [Object.equals, Object.portable]

theorem equalsAll_encode_iff {lib : Orjson} : ∀ {items : List Object} {documents : List Json},
    Object.DistinctKeysAll items → encodeAll lib items = .ok documents →
      (Object.equalsAll items (ofJsonAll documents) = true ↔ Object.portableAll items = true)
  | [], documents, _, h => by
      cases h
      simp [ofJsonAll, Object.equalsAll, Object.portableAll]
  | item :: items, documents, hdistinct, h => by
      obtain ⟨document, hdocument, h⟩ := bind_eq_ok.mp h
      obtain ⟨rest, hrest, h⟩ := bind_eq_ok.mp h
      cases h
      rw [ofJsonAll, Object.equalsAll, Object.portableAll, Bool.and_eq_true, Bool.and_eq_true,
        equals_encode_iff hdistinct.1 hdocument, equalsAll_encode_iff hdistinct.2 hrest]

/-- A dict, whose keys may be any leaves. -/
theorem equalsDict_encode_iff {lib : Orjson} {items : List (Leaf × Object)}
    {members : List (String × Json)} (hdistinct : (Object.dict items).DistinctKeys)
    (hmembers : encodeItems lib items = .ok members) :
    ((Object.dict items).equals (.dict (ofMembers members [])) = true ↔
      (Object.dict items).portable = true) := by
  have hread := ofMembers_readItems members [] ⟨by simp, by simp, trivial⟩
  have hitems : ∀ htexts : TextKeys items,
      (Object.dict items).equals (.dict (ofMembers members [])) = true ↔
        (Object.dict items).portable = true := by
    intro htexts
    have hnames : (members.map Prod.fst).Nodup := by
      rw [encodeItems_texts hmembers htexts]
      exact hdistinct.1
    have hmap := @ofMembers_distinct members [] hnames (by simp)
    rw [List.nil_append] at hmap
    have hlength : items.length = (ofMembers members []).length := by
      rw [hmap, List.length_map, length_encodeItems hmembers]
    rw [Object.equals, hlength, beq_self_eq_true, Bool.true_and, Object.portable]
    refine equalsItems_encode_iff hread.texts hread.distinct htexts hdistinct.2 hmembers ?_
    intro member hmem
    rw [hmap]
    exact List.mem_map.mpr ⟨member, hmem, rfl⟩
  constructor
  · intro hequals
    have hboth := hequals
    rw [Object.equals, Bool.and_eq_true] at hboth
    exact (hitems (textKeys_of_equals hread.texts hboth.2)).mp hequals
  · intro hportable
    exact (hitems (textKeys_of_portable hportable)).mpr hportable

/-- Items with texts as keys, each of which is found under its text. -/
theorem equalsItems_encode_iff {lib : Orjson} {read : List (Leaf × Object)}
    (hread : ∀ item ∈ read, ∃ t, item.1 = .str t) (hnodup : (read.map Prod.fst).Nodup) :
    ∀ {items : List (Leaf × Object)} {members : List (String × Json)}, TextKeys items →
      Object.DistinctKeysItems items → encodeItems lib items = .ok members →
        (∀ member ∈ members, (.str member.1, ofJson member.2) ∈ read) →
          (Object.equalsItems items read = true ↔ Object.portableItems items = true)
  | [], members, _, _, _, _ => by simp [Object.equalsItems, Object.portableItems]
  | (key, value) :: items, members, htexts, hdistinct, h, hmem => by
      obtain ⟨text, htext, h⟩ := bind_eq_ok.mp h
      obtain ⟨document, hdocument, h⟩ := bind_eq_ok.mp h
      obtain ⟨rest, hrest, h⟩ := bind_eq_ok.mp h
      cases h
      obtain ⟨s, hs⟩ := Option.isSome_iff_exists.mp (htexts _ List.mem_cons_self)
      obtain rfl : s = text := Except.ok.inj ((encodeKey_asText hs).symm.trans htext)
      have hfind := find_read hs hread hnodup (hmem _ List.mem_cons_self)
      have hitems := equalsItems_encode_iff hread hnodup
        (fun item hitem => htexts item (List.mem_cons_of_mem _ hitem)) hdistinct.2 hrest
        fun member hmember => hmem member (List.mem_cons_of_mem _ hmember)
      have hvalue := equals_encode_iff hdistinct.1 hdocument
      simp only [Object.equalsItems, Object.portableItems, hfind, hs, Option.isSome_some,
        Bool.true_and, Bool.and_eq_true, hitems, hvalue]

end

/-! ## The codec -/

/-- A Python value: no dict in it has two equal keys. -/
structure Data where
  object : Object
  distinct : object.DistinctKeys

/-- `JsonCodec`. -/
def jsonCodec (lib : Orjson) : Codec Data where
  dumps value := dumpsObject lib value.object
  loads text :=
    match lib.read text with
    | none => .error .jsonDecodeError
    | some document => .ok ⟨ofJson document, ofJson_distinctKeys document⟩

theorem dumpsObject_ok {lib : Orjson} {value : Object} {text : String}
    (h : dumpsObject lib value = .ok text) :
    ∃ document, encode lib value = .ok document ∧ text = lib.write document := by
  unfold dumpsObject at h
  split at h
  · cases h
  · obtain ⟨document, hdocument, h⟩ := bind_eq_ok.mp h
    exact ⟨document, hdocument, (Except.ok.inj h).symm⟩

/-- `loads` of a document that was written. -/
theorem loads_write {lib : Orjson} {document : Json} (hreads : lib.Reads document) :
    (jsonCodec lib).loads (lib.write document) =
      .ok ⟨ofJson document, ofJson_distinctKeys document⟩ := by
  simp only [jsonCodec, show lib.read (lib.write document) = _ from hreads]

end ProdkitStorage.Redis
