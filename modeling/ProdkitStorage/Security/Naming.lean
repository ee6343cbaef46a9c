import ProdkitStorage.Security.Redaction

/-!
# Names in a policy

`NameClassifier.classify` and `AuditPolicy._action` look the lower-case spelling of a
path or leaf up, and leave the keys of the configuration as they are spelt.  A key with
a capital letter is never found: `configured_names_iff` says what then decides.
-/

namespace ProdkitStorage.Security

open ProdkitStorage.Python

variable {κ α β : Type}

/-- `mapping[key] is value`, for a key of the mapping. -/
def Configured (mapping : List (String × β)) (key : String) (value : β) : Prop :=
  mapping.lookup key = some value

/-- A key of the mapping equals the text, ignoring letter case. -/
def Lowercase.Names (text : Lowercase) (mapping : List (String × β)) (name : String) : Prop :=
  ∃ key value, Configured mapping key value ∧ text.lower name = text.lower key

/-- The lower-case spelling of every key is a key with the same value. -/
def Lowercase.KeysLower (text : Lowercase) (mapping : List (String × β)) : Prop :=
  ∀ key value, Configured mapping key value → Configured mapping (text.lower key) value

/-! ## The property -/

/-- A field whose dotted path equals a key of `paths`, ignoring case, is classified
as configured. -/
def NameClassifier.PathsRecognised (classifier : NameClassifier) (text : Lowercase) : Prop :=
  ∀ key classification, Configured classifier.paths key classification →
    ∀ path, text.lower (dotted path) = text.lower key →
      ∀ value : Payload κ α, classifier.classify text path value = some classification

/-- A field whose leaf name equals a key of `leaf_names`, ignoring case, is classified as
configured, unless its dotted path is one of `paths`. -/
def NameClassifier.LeavesRecognised (classifier : NameClassifier) (text : Lowercase) : Prop :=
  ∀ key classification, Configured classifier.leafNames key classification →
    ∀ path leaf, path.getLast? = some leaf → text.lower leaf = text.lower key →
      ¬text.Names classifier.paths (dotted path) →
        ∀ value : Payload κ α, classifier.classify text path value = some classification

/-- A field whose dotted path equals a key of `field_actions`, ignoring case, is acted on as
configured. -/
def AuditPolicy.FieldsRecognised (policy : AuditPolicy κ α) (library : Library κ α) : Prop :=
  ∀ key action, Configured policy.fieldActions key action →
    ∀ path, library.lower (dotted path) = library.lower key →
      ∀ value, policy.action library path value = action

/-! ## The lookups -/

theorem mem_of_configured {mapping : List (String × β)} {key : String} {value : β}
    (h : Configured mapping key value) : (key, value) ∈ mapping := by
  induction mapping with
  | nil => cases h
  | cons entry mapping ih =>
      obtain ⟨key', value'⟩ := entry
      unfold Configured at h
      rw [List.lookup_cons] at h
      split at h
      · rename_i hkey
        rw [eq_of_beq hkey, ← Option.some.inj h]
        exact List.mem_cons_self
      · exact List.mem_cons_of_mem _ (ih h)

theorem dotted_singleton (key : String) : dotted [key] = key := String.intercalate_singleton

theorem dotted_pair (outer leaf : String) : dotted [outer, leaf] = outer ++ "." ++ leaf := by
  rw [dotted, String.intercalate_cons_cons, String.intercalate_singleton]

theorem Lowercase.exists_length_le (text : Lowercase) (mapping : List (String × β)) :
    ∃ n, ∀ entry ∈ mapping, (text.lower entry.1).length ≤ n := by
  induction mapping with
  | nil => exact ⟨0, nofun⟩
  | cons first mapping ih =>
      obtain ⟨n, hn⟩ := ih
      refine ⟨n + (text.lower first.1).length, fun entry hentry => ?_⟩
      rcases List.mem_cons.mp hentry with rfl | hentry
      · omega
      · have hle := hn entry hentry
        omega

/-- Far enough inside a payload no key of the mapping is in the way. -/
theorem Lowercase.exists_unnamed (text : Lowercase) (mapping : List (String × β)) (leaf : String) :
    ∃ outer, ¬text.Names mapping (dotted [outer, leaf]) := by
  obtain ⟨n, hn⟩ := text.exists_length_le mapping
  refine ⟨String.ofList (List.replicate n 'x'), ?_⟩
  rintro ⟨key, value, hkey, hname⟩
  have hshort : (text.lower key).length ≤ n := hn _ (mem_of_configured hkey)
  have hlong := text.length_le (dotted [String.ofList (List.replicate n 'x'), leaf])
  rw [hname, dotted_pair] at hlong
  simp only [String.length_append, String.length_ofList, List.length_replicate] at hlong
  have hdot : ".".length = 1 := rfl
  omega

namespace NameClassifier

variable {classifier : NameClassifier} {text : Lowercase}

theorem classify_path {path : List String} {classification : DataClassification}
    (h : Configured classifier.paths (text.lower (dotted path)) classification)
    (value : Payload κ α) : classifier.classify text path value = some classification := by
  unfold Configured at h
  simp only [classify, h]

/-- Where the dotted path is not a key, the leaf name decides. -/
theorem classify_leaf {path : List String}
    (h : classifier.paths.lookup (text.lower (dotted path)) = none) {leaf : String}
    (hleaf : path.getLast? = some leaf) (value : Payload κ α) :
    classifier.classify text path value = classifier.leafNames.lookup (text.lower leaf) := by
  simp only [classify, h, hleaf]

theorem lookup_none_of_not_names {name : String} (h : ¬text.Names classifier.paths name) :
    classifier.paths.lookup (text.lower name) = none := by
  refine Option.eq_none_iff_forall_ne_some.mpr fun classification hkey => h ?_
  exact ⟨text.lower name, classification, hkey, (text.lower_lower name).symm⟩

theorem leavesRecognised_iff :
    classifier.LeavesRecognised (κ := κ) (α := α) text ↔ text.KeysLower classifier.leafNames := by
  constructor
  · intro hrecognised key classification hkey
    obtain ⟨outer, hunnamed⟩ := text.exists_unnamed classifier.paths key
    have hclassified := hrecognised key classification hkey [outer, key] key rfl rfl hunnamed
      (.mapping 0 [])
    rwa [classify_leaf (lookup_none_of_not_names hunnamed) rfl] at hclassified
  · intro hlower key classification hkey path leaf hleaf hname hunnamed value
    rw [classify_leaf (lookup_none_of_not_names hunnamed) hleaf, hname]
    exact hlower key classification hkey

/-- A key of `paths` is found under its lower-case spelling, or the leaf names make up for it. -/
def PathsLower (classifier : NameClassifier) (text : Lowercase) : Prop :=
  ∀ key classification, Configured classifier.paths key classification →
    Configured classifier.paths (text.lower key) classification ∨
      (classifier.paths.lookup (text.lower key) = none ∧
        ∀ path, text.lower (dotted path) = text.lower key →
          ∃ leaf, path.getLast? = some leaf ∧
            Configured classifier.leafNames (text.lower leaf) classification)

theorem classify_no_leaf {path : List String}
    (h : classifier.paths.lookup (text.lower (dotted path)) = none)
    {classification : DataClassification} {value : Payload κ α}
    (hclassified : classifier.classify text path value = some classification) :
    ∃ leaf, path.getLast? = some leaf ∧
      Configured classifier.leafNames (text.lower leaf) classification := by
  simp only [classify, h] at hclassified
  split at hclassified
  · rename_i leaf hleaf
    exact ⟨leaf, hleaf, hclassified⟩
  · cases hclassified

theorem pathsRecognised_iff :
    classifier.PathsRecognised (κ := κ) (α := α) text ↔ classifier.PathsLower text := by
  constructor
  · intro hrecognised key classification hkey
    have hclassified := hrecognised key classification hkey
    cases hlookup : classifier.paths.lookup (text.lower key) with
    | some found =>
        have hfound := hclassified [key] (by rw [dotted_singleton]) (.mapping 0 [])
        rw [classify_path (by rw [dotted_singleton]; exact hlookup)] at hfound
        rw [← Option.some.inj hfound]
        exact .inl hlookup
    | none =>
        refine .inr ⟨rfl, fun path hpath => ?_⟩
        exact classify_no_leaf (by rw [hpath, hlookup]) (hclassified path hpath (.mapping 0 []))
  · intro hlower key classification hkey path hpath value
    rcases hlower key classification hkey with hfound | ⟨hnone, hleaves⟩
    · exact classify_path (by rwa [hpath]) value
    · obtain ⟨leaf, hleaf, hfound⟩ := hleaves path hpath
      rw [classify_leaf (by rwa [hpath]) hleaf]
      exact hfound

end NameClassifier

namespace AuditPolicy

open ValuePolicy

variable {policy : AuditPolicy κ α} {library : Library κ α}

/-- A key of `field_actions` is found under its lower-case spelling, or the classifiers make up for
it. -/
def FieldsLower (policy : AuditPolicy κ α) (library : Library κ α) : Prop :=
  ∀ key action, Configured policy.fieldActions key action →
    Configured policy.fieldActions (library.lower key) action ∨
      (policy.fieldActions.lookup (library.lower key) = none ∧
        ∀ path, library.lower (dotted path) = library.lower key →
          ∀ value, policy.classifiedAction path value policy.classifiers = action)

theorem action_field {path : List String} {fieldAction : AuditAction}
    (h : Configured policy.fieldActions (library.lower (dotted path)) fieldAction)
    (value : Payload κ α) : policy.action library path value = fieldAction := by
  unfold Configured at h
  simp only [action, h]

theorem action_classified {path : List String}
    (h : policy.fieldActions.lookup (library.lower (dotted path)) = none) (value : Payload κ α) :
    policy.action library path value = policy.classifiedAction path value policy.classifiers := by
  simp only [action, h]

theorem fieldsRecognised_iff : policy.FieldsRecognised library ↔ policy.FieldsLower library := by
  constructor
  · intro hrecognised key fieldAction hkey
    have hacted := hrecognised key fieldAction hkey
    cases hlookup : policy.fieldActions.lookup (library.lower key) with
    | some found =>
        have hfound := hacted [key] (by rw [dotted_singleton]) (.mapping 0 [])
        rw [action_field (by rw [dotted_singleton]; exact hlookup)] at hfound
        rw [← hfound]
        exact .inl hlookup
    | none =>
        refine .inr ⟨rfl, fun path hpath value => ?_⟩
        rw [← action_classified (by rw [hpath, hlookup])]
        exact hacted path hpath value
  · intro hlower key fieldAction hkey path hpath value
    rcases hlower key fieldAction hkey with hfound | ⟨hnone, hclassifiers⟩
    · exact action_field (by rwa [hpath]) value
    · rw [action_classified (by rwa [hpath])]
      exact hclassifiers path hpath value

end AuditPolicy

/-! ## Configured names -/

/-- The configured names are recognised in every spelling. -/
structure Recognised (classifier : NameClassifier) (policy : AuditPolicy κ α)
    (library : Library κ α) : Prop where
  paths : classifier.PathsRecognised (κ := κ) (α := α) library.toLowercase
  leaves : classifier.LeavesRecognised (κ := κ) (α := α) library.toLowercase
  fields : policy.FieldsRecognised library

/-- The names of a configuration are recognised in every spelling exactly when each key is found
under its lower-case spelling, or what is asked next makes up for it. -/
theorem configured_names_iff (classifier : NameClassifier) (policy : AuditPolicy κ α)
    (library : Library κ α) :
    Recognised classifier policy library ↔
      classifier.PathsLower library.toLowercase ∧
        library.toLowercase.KeysLower classifier.leafNames ∧ policy.FieldsLower library := by
  constructor
  · intro h
    exact ⟨NameClassifier.pathsRecognised_iff.mp h.paths,
      NameClassifier.leavesRecognised_iff.mp h.leaves, AuditPolicy.fieldsRecognised_iff.mp h.fields⟩
  · rintro ⟨hpaths, hleaves, hfields⟩
    exact ⟨NameClassifier.pathsRecognised_iff.mpr hpaths,
      NameClassifier.leavesRecognised_iff.mpr hleaves, AuditPolicy.fieldsRecognised_iff.mpr hfields⟩

/-- A classifier with a name in camel case. -/
def camelClassifier : NameClassifier := { leafNames := [("accessToken", .secret)] }

/-- The policy of that classifier. -/
def camelPolicy : AuditPolicy String String where
  classifiers := [camelClassifier.classify sampleLibrary.toLowercase]

/-- The name is not recognised, and the secret field is let through in clear. -/
theorem camel_name_let_through :
    ¬Recognised camelClassifier camelPolicy sampleLibrary ∧
      camelPolicy.sanitize sampleLibrary (.mapping 0 [("accessToken", .scalar "t")]) =
        .ok (some (.dict [("accessToken", .scalar "t")])) := by
  refine ⟨fun h => ?_, rfl⟩
  have hclassified := h.leaves "accessToken" .secret rfl ["accessToken"] "accessToken" rfl rfl
    (by rintro ⟨key, value, hkey, -⟩; cases hkey) (.scalar "t")
  cases hclassified

end ProdkitStorage.Security
