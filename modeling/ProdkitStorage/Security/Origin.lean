import ProdkitStorage.Security.Redaction

/-!
# Origins

Which values of a payload appear in the result of `sanitize`.  Equality does not tell:
the same text may stand at two paths, a mask may equal the text it hides, and a list
closes up where an item is dropped.  `trace` is the walk of `sanitize` again, with
every part that was kept carrying the node of the payload it comes from, and
`trace_erase` says that without the origins it is `sanitize`.

A node appears only if its action is `keep`.  The action of a node no field action
names is the one of its class, and a class that `classification_actions` leaves out is
kept: `explicit_or_unmapped` is what is left of "kept only where the policy says so".
-/

namespace ProdkitStorage.Security

open ProdkitStorage.Python

variable {κ α : Type}

/-! ## Traced results -/

/-- A sanitized payload whose kept parts carry the path and the node they come from. -/
inductive Traced (κ α : Type) where
  /-- The mask, or a digest. -/
  | text (value : String)
  | scalar (path : List String) (value : α)
  | dict (path : List String) (node : Payload κ α) (items : List (String × Traced κ α))
  | list (path : List String) (node : Payload κ α) (items : List (Traced κ α))

namespace Traced

mutual

/-- The sanitized payload. -/
def erase : Traced κ α → Sanitized α
  | .text value => .text value
  | .scalar _ value => .scalar value
  | .dict _ _ items => .dict (eraseItems items)
  | .list _ _ items => .list (eraseAll items)

def eraseItems : List (String × Traced κ α) → List (String × Sanitized α)
  | [] => []
  | (key, item) :: items => (key, erase item) :: eraseItems items

def eraseAll : List (Traced κ α) → List (Sanitized α)
  | [] => []
  | item :: items => erase item :: eraseAll items

end

/-- The node at a path appears in the result. -/
inductive Shows : Traced κ α → List String → Payload κ α → Prop where
  | scalar (path : List String) (value : α) : Shows (.scalar path value) path (.scalar value)
  | dict (path : List String) (node : Payload κ α) (items : List (String × Traced κ α)) :
      Shows (.dict path node items) path node
  | list (path : List String) (node : Payload κ α) (items : List (Traced κ α)) :
      Shows (.list path node items) path node
  | inDict {path path' : List String} {node node' : Payload κ α}
      {items : List (String × Traced κ α)} {key : String} {item : Traced κ α} :
      (key, item) ∈ items → Shows item path' node' → Shows (.dict path node items) path' node'
  | inList {path path' : List String} {node node' : Payload κ α} {items : List (Traced κ α)}
      {item : Traced κ α} :
      item ∈ items → Shows item path' node' → Shows (.list path node items) path' node'

theorem eraseItems_setItem (key : String) (item : Traced κ α) :
    ∀ items : List (String × Traced κ α),
      eraseItems (setItem key item items) = setItem key (erase item) (eraseItems items)
  | [] => rfl
  | (key', item') :: items => by
      by_cases h : key' = key
      · simp only [setItem, eraseItems, if_pos h]
      · simp only [setItem, eraseItems, if_neg h, eraseItems_setItem key item items]

theorem eraseAll_filterMap : ∀ results : List (Option (Traced κ α)),
    eraseAll (results.filterMap id) = (results.map (Option.map erase)).filterMap id
  | [] => rfl
  | none :: results => eraseAll_filterMap results
  | some item :: results => congrArg (erase item :: ·) (eraseAll_filterMap results)

end Traced

/-! ## The walk with origins -/

namespace AuditPolicy

open ValuePolicy

variable (policy : AuditPolicy κ α) (library : Library κ α)

mutual

/-- `sanitizeAt`, with origins. -/
def traceAt : Payload κ α → List String → List Nat → Nat →
    Except PyError (Option (Traced κ α))
  | value, path, visited, depth =>
      if policy.maxDepth < depth then
        .error depthError
      else match policy.action library path value with
        | .mask => .ok (some (.text policy.mask))
        | .drop => .ok none
        | .reject => .error (forbidden library.toValueLibrary path)
        | .hash => do return some (.text (← policy.hash library (library.repr value)))
        | .keep =>
            match value with
            | .scalar value => .ok (some (.scalar path value))
            | .mapping object items =>
                if object ∈ visited then .error cycleError
                else do
                  let traced ← traceMapping items path (object :: visited) depth []
                  return some (.dict path (.mapping object items) traced)
            | .sequence isTuple object items =>
                if object ∈ visited then .error cycleError
                else do
                  let traced ← traceSequence items 0 path (object :: visited) depth
                  return some (.list path (.sequence isTuple object items) (traced.filterMap id))

def traceMapping : List (κ × Payload κ α) → List String → List Nat → Nat →
    List (String × Traced κ α) → Except PyError (List (String × Traced κ α))
  | [], _, _, _, traced => .ok traced
  | (key, item) :: items, path, visited, depth, traced => do
      let keyText := library.keyText key
      match ← traceAt item (path ++ [keyText]) visited (depth + 1) with
      | none => traceMapping items path visited depth traced
      | some result => traceMapping items path visited depth (setItem keyText result traced)

def traceSequence : List (Payload κ α) → Nat → List String → List Nat → Nat →
    Except PyError (List (Option (Traced κ α)))
  | [], _, _, _, _ => .ok []
  | item :: items, index, path, visited, depth => do
      let result ← traceAt item (path ++ [toString index]) visited (depth + 1)
      let results ← traceSequence items (index + 1) path visited depth
      return result :: results

end

/-- `sanitize`, with origins. -/
def trace (value : Payload κ α) : Except PyError (Option (Traced κ α)) :=
  policy.traceAt library value [] [] 0

mutual

theorem traceAt_erase : ∀ (value : Payload κ α) (path : List String) (visited : List Nat)
    (depth : Nat), (policy.traceAt library value path visited depth).map (Option.map Traced.erase) =
      policy.sanitizeAt library value path visited depth
  | value, path, visited, depth => by
      unfold traceAt sanitizeAt
      by_cases hdepth : policy.maxDepth < depth
      · rw [if_pos hdepth, if_pos hdepth]
        rfl
      · rw [if_neg hdepth, if_neg hdepth]
        cases policy.action library path value with
        | mask => rfl
        | drop => rfl
        | reject => rfl
        | hash =>
            show Except.map _ (policy.hash library (library.repr value) >>= _) = _
            cases policy.hash library (library.repr value) with
            | error error => rfl
            | ok digest => rfl
        | keep =>
            cases value with
            | scalar value => rfl
            | mapping object items =>
                have hitems := traceMapping_erase items path (object :: visited) depth []
                by_cases hcycle : object ∈ visited
                · simp [hcycle, Except.map]
                · simp only [hcycle, if_false]
                  rw [Traced.eraseItems] at hitems
                  rw [← hitems]
                  cases policy.traceMapping library items path (object :: visited) depth [] with
                  | error error => rfl
                  | ok traced => rfl
            | sequence isTuple object items =>
                have hitems := traceSequence_erase items 0 path (object :: visited) depth
                by_cases hcycle : object ∈ visited
                · simp [hcycle, Except.map]
                · simp only [hcycle, if_false]
                  rw [← hitems]
                  cases policy.traceSequence library items 0 path (object :: visited) depth with
                  | error error => rfl
                  | ok traced =>
                      exact congrArg (fun items => Except.ok (some (Sanitized.list items)))
                        (Traced.eraseAll_filterMap traced)

theorem traceMapping_erase : ∀ (items : List (κ × Payload κ α)) (path : List String)
    (visited : List Nat) (depth : Nat) (traced : List (String × Traced κ α)),
    (policy.traceMapping library items path visited depth traced).map Traced.eraseItems =
      policy.sanitizeMapping library items path visited depth (Traced.eraseItems traced)
  | [], path, visited, depth, traced => rfl
  | (key, item) :: items, path, visited, depth, traced => by
      have hitem := traceAt_erase item (path ++ [library.keyText key]) visited (depth + 1)
      have hitems := traceMapping_erase items path visited depth
      rw [traceMapping, sanitizeMapping, ← hitem]
      cases policy.traceAt library item (path ++ [library.keyText key]) visited (depth + 1) with
      | error error => rfl
      | ok result =>
          cases result with
          | none => exact hitems traced
          | some result =>
              have hset := hitems (setItem (library.keyText key) result traced)
              rw [Traced.eraseItems_setItem] at hset
              exact hset

theorem traceSequence_erase : ∀ (items : List (Payload κ α)) (index : Nat) (path : List String)
    (visited : List Nat) (depth : Nat),
    (policy.traceSequence library items index path visited depth).map
        (List.map (Option.map Traced.erase)) =
      policy.sanitizeSequence library items index path visited depth
  | [], index, path, visited, depth => rfl
  | item :: items, index, path, visited, depth => by
      have hitem := traceAt_erase item (path ++ [toString index]) visited (depth + 1)
      have hitems := traceSequence_erase items (index + 1) path visited depth
      rw [traceSequence, sanitizeSequence, ← hitem, ← hitems]
      cases policy.traceAt library item (path ++ [toString index]) visited (depth + 1) with
      | error error => rfl
      | ok result =>
          cases policy.traceSequence library items (index + 1) path visited depth with
          | error error => rfl
          | ok results => rfl

end

/-- The walk with origins is `sanitize`. -/
theorem trace_erase (value : Payload κ α) :
    (policy.trace library value).map (Option.map Traced.erase) = policy.sanitize library value :=
  traceAt_erase policy library value [] [] 0

/-! ## What appears -/

/-- `node` is what the walk of `value` meets at `path'`, when it meets `value` at `path`. -/
inductive Node (library : Library κ α) : List String → Payload κ α → List String →
    Payload κ α → Prop where
  | here (path : List String) (value : Payload κ α) : Node library path value path value
  | mapping {path path' : List String} {object : Nat} {items : List (κ × Payload κ α)} {key : κ}
      {item node : Payload κ α} :
      (key, item) ∈ items → Node library (path ++ [library.keyText key]) item path' node →
      Node library path (.mapping object items) path' node
  | sequence {path path' : List String} {isTuple : Bool} {object : Nat}
      {items : List (Payload κ α)} {index : Nat} {item node : Payload κ α} :
      items[index]? = some item → Node library (path ++ [toString index]) item path' node →
      Node library path (.sequence isTuple object items) path' node

/-- A traced result shows only nodes of the payload that the policy keeps. -/
def Sound (path : List String) (value : Payload κ α) (traced : Traced κ α) : Prop :=
  ∀ path' node, traced.Shows path' node →
    Node library path value path' node ∧ policy.action library path' node = .keep

theorem setItem_cases {β : Type} {key key' : String} {value value' : β} :
    ∀ {items : List (String × β)}, (key', value') ∈ setItem key value items →
      key' = key ∧ value' = value ∨ (key', value') ∈ items
  | [], h => by
      rw [setItem, List.mem_singleton, Prod.mk.injEq] at h
      exact .inl h
  | (other, item) :: items, h => by
      rw [setItem] at h
      split at h
      · rcases List.mem_cons.mp h with h | h
        · rw [Prod.mk.injEq] at h
          exact .inl h
        · exact .inr (List.mem_cons_of_mem _ h)
      · rcases List.mem_cons.mp h with h | h
        · exact .inr (h ▸ List.mem_cons_self)
        · exact (setItem_cases h).imp_right (List.mem_cons_of_mem _)

mutual

theorem traceAt_sound : ∀ (value : Payload κ α) (path : List String) (visited : List Nat)
    (depth : Nat) (traced : Traced κ α),
    policy.traceAt library value path visited depth = .ok (some traced) →
      policy.Sound library path value traced
  | value, path, visited, depth, traced, h => by
      unfold traceAt at h
      split at h
      · cases h
      · split at h
        · cases h
          rintro path' node ⟨⟩
        · cases h
        · cases h
        · obtain ⟨digest, -, h⟩ := bind_eq_ok.mp h
          cases h
          rintro path' node ⟨⟩
        · next haction =>
            split at h
            · next value =>
                cases h
                rintro path' node ⟨⟩
                exact ⟨.here path _, haction⟩
            · next object items =>
                split at h
                · cases h
                · obtain ⟨results, hresults, h⟩ := bind_eq_ok.mp h
                  cases h
                  have hitems := traceMapping_sound items path (object :: visited) depth [] results
                    hresults
                  intro path' node hshows
                  cases hshows with
                  | dict => exact ⟨.here path _, haction⟩
                  | inDict hmem hshows =>
                      rcases hitems _ _ hmem with hnil | ⟨key, item, hitem, hsound⟩
                      · cases hnil
                      · exact (hsound path' node hshows).imp_left (.mapping hitem)
            · next isTuple object items =>
                split at h
                · cases h
                · obtain ⟨results, hresults, h⟩ := bind_eq_ok.mp h
                  cases h
                  have hitems := traceSequence_sound items 0 path (object :: visited) depth results
                    hresults
                  intro path' node hshows
                  cases hshows with
                  | list => exact ⟨.here path _, haction⟩
                  | inList hmem hshows =>
                      obtain ⟨result, hresult, rfl⟩ := List.mem_filterMap.mp hmem
                      obtain ⟨index, item, hitem, hsound⟩ := hitems _ hresult
                      rw [Nat.zero_add] at hsound
                      exact (hsound path' node hshows).imp_left (.sequence hitem)

theorem traceMapping_sound : ∀ (items : List (κ × Payload κ α)) (path : List String)
    (visited : List Nat) (depth : Nat) (traced results : List (String × Traced κ α)),
    policy.traceMapping library items path visited depth traced = .ok results →
      ∀ keyText result, (keyText, result) ∈ results → (keyText, result) ∈ traced ∨
        ∃ key item, (key, item) ∈ items ∧
          policy.Sound library (path ++ [library.keyText key]) item result
  | [], path, visited, depth, traced, results, h, keyText, result, hmem => by
      cases h
      exact .inl hmem
  | (key, item) :: items, path, visited, depth, traced, results, h, keyText, result, hmem => by
      rw [traceMapping] at h
      obtain ⟨first, hfirst, h⟩ := bind_eq_ok.mp h
      cases first with
      | none =>
          refine
            (traceMapping_sound items path visited depth _ _ h keyText result hmem).imp_right ?_
          rintro ⟨key', item', hitem, hsound⟩
          exact ⟨key', item', List.mem_cons_of_mem _ hitem, hsound⟩
      | some first =>
          rcases traceMapping_sound items path visited depth _ _ h keyText result hmem with
            hset | ⟨key', item', hitem, hsound⟩
          · rcases setItem_cases hset with ⟨-, rfl⟩ | hold
            · exact .inr ⟨key, item, List.mem_cons_self, traceAt_sound item _ visited _ _ hfirst⟩
            · exact .inl hold
          · exact .inr ⟨key', item', List.mem_cons_of_mem _ hitem, hsound⟩

theorem traceSequence_sound : ∀ (items : List (Payload κ α)) (index : Nat) (path : List String)
    (visited : List Nat) (depth : Nat) (results : List (Option (Traced κ α))),
    policy.traceSequence library items index path visited depth = .ok results →
      ∀ result, some result ∈ results → ∃ offset item, items[offset]? = some item ∧
        policy.Sound library (path ++ [toString (index + offset)]) item result
  | [], index, path, visited, depth, results, h, result, hmem => by
      cases h
      cases hmem
  | item :: items, index, path, visited, depth, results, h, result, hmem => by
      rw [traceSequence] at h
      obtain ⟨first, hfirst, h⟩ := bind_eq_ok.mp h
      obtain ⟨rest, hrest, h⟩ := bind_eq_ok.mp h
      cases h
      rcases List.mem_cons.mp hmem with rfl | hmem
      · exact ⟨0, item, rfl, traceAt_sound item _ visited _ _ hfirst⟩
      · obtain ⟨offset, item', hitem, hsound⟩ :=
          traceSequence_sound items (index + 1) path visited depth rest hrest result hmem
        refine ⟨offset + 1, item', hitem, ?_⟩
        rwa [Nat.add_assoc, Nat.add_comm 1 offset] at hsound

end

/-- The class of a node: the answer of the first classifier that answers. -/
def label (path : List String) (node : Payload κ α) : Option DataClassification :=
  policy.classifiers.findSome? fun classifier => classifier path node

theorem classifiedAction_eq (path : List String) (node : Payload κ α) :
    ∀ classifiers : List (Classifier κ α), policy.classifiedAction path node classifiers =
      match classifiers.findSome? fun classifier => classifier path node with
      | some classification => (policy.classificationActions.lookup classification).getD .keep
      | none => .keep
  | [] => rfl
  | classifier :: classifiers => by
      rw [classifiedAction, List.findSome?_cons]
      cases classifier path node with
      | some classification => rfl
      | none => exact classifiedAction_eq path node classifiers

/-- A node with a label is kept exactly when the policy maps its path to `keep`, or does not map its
path and maps its class to `keep` or to nothing. -/
theorem action_eq_keep_iff {path : List String} {node : Payload κ α}
    {classification : DataClassification} (hlabel : policy.label path node = some classification) :
    policy.action library path node = .keep ↔
      policy.fieldActions.lookup (library.lower (dotted path)) = some .keep ∨
        policy.fieldActions.lookup (library.lower (dotted path)) = none ∧
          (policy.classificationActions.lookup classification = some .keep ∨
            policy.classificationActions.lookup classification = none) := by
  rw [label] at hlabel
  unfold action
  cases policy.fieldActions.lookup (library.lower (dotted path)) with
  | some fieldAction => simp
  | none =>
      rw [classifiedAction_eq, hlabel]
      dsimp only
      cases policy.classificationActions.lookup classification with
      | none => simp
      | some classAction => simp

end AuditPolicy

/-! ## Protected classes -/

/-- `SENSITIVE`, `SECRET` and `REGULATED`. -/
def DataClassification.isProtected : DataClassification → Bool
  | .sensitive => true
  | .secret => true
  | .regulated => true
  | _ => false

/-- What appears in a result comes from nodes of the payload, and a node with a class appears only
if its path is mapped to `keep`, or its path is not mapped and its class is mapped to `keep` or not
mapped. -/
theorem shown_only_if_kept {policy : AuditPolicy κ α} {library : Library κ α} {value : Payload κ α}
    {sanitized : Sanitized α} (h : policy.sanitize library value = .ok (some sanitized)) :
    ∃ traced, policy.trace library value = .ok (some traced) ∧ traced.erase = sanitized ∧
      ∀ path node, traced.Shows path node → AuditPolicy.Node library [] value path node ∧
        ∀ classification, policy.label path node = some classification →
          policy.fieldActions.lookup (library.lower (dotted path)) = some .keep ∨
            policy.fieldActions.lookup (library.lower (dotted path)) = none ∧
              (policy.classificationActions.lookup classification = some .keep ∨
                policy.classificationActions.lookup classification = none) := by
  rw [← policy.trace_erase library value] at h
  cases htrace : policy.trace library value with
  | error error => rw [htrace] at h; cases h
  | ok result =>
      rw [htrace] at h
      cases result with
      | none => cases h
      | some traced =>
          cases h
          refine ⟨traced, rfl, rfl, ?_⟩
          intro path node hshows
          have hsound := policy.traceAt_sound library value [] [] 0 traced htrace
          obtain ⟨hnode, hkeep⟩ := hsound path node hshows
          refine ⟨hnode, ?_⟩
          intro classification hlabel
          exact (policy.action_eq_keep_iff library hlabel).mp hkeep

/-- A policy with the actions of the example in the manual, and the names of the default policy. -/
def manualPolicy : AuditPolicy String String where
  classifiers := [
    ({ paths := [("billing.card_number", .regulated)], leafNames := [("email", .personal)] } :
      NameClassifier).classify sampleLibrary.toLowercase,
    ({ leafNames := defaultSecretNames } : NameClassifier).classify sampleLibrary.toLowercase]
  classificationActions := [(.personal, .hash), (.regulated, .reject)]
  hashSecret := some [1]

theorem manualPolicy_sanitize :
    manualPolicy.sanitize sampleLibrary (.mapping 0 [("api_key", .scalar "k")]) =
      .ok (some (.dict [("api_key", .scalar "k")])) := rfl

/-- What appears of an API key under that policy. -/
theorem shown_only_if_kept_manual :
    ∃ traced, manualPolicy.trace sampleLibrary (.mapping 0 [("api_key", .scalar "k")]) =
        .ok (some traced) ∧ traced.erase = .dict [("api_key", .scalar "k")] ∧
      ∀ path node, traced.Shows path node →
        AuditPolicy.Node sampleLibrary [] (.mapping 0 [("api_key", .scalar "k")]) path node ∧
        ∀ classification, manualPolicy.label path node = some classification →
          manualPolicy.fieldActions.lookup (sampleLibrary.lower (dotted path)) = some .keep ∨
            manualPolicy.fieldActions.lookup (sampleLibrary.lower (dotted path)) = none ∧
              (manualPolicy.classificationActions.lookup classification = some .keep ∨
                manualPolicy.classificationActions.lookup classification = none) :=
  shown_only_if_kept manualPolicy_sanitize

/-- The API key, a secret, appears as it is, though nothing maps it to `keep`: the actions of the
policy leave its class out. -/
theorem unmapped_class_shown :
    ¬∀ (policy : AuditPolicy String String) (value : Payload String String)
      (traced : Traced String String), policy.trace sampleLibrary value = .ok (some traced) →
        ∀ path node, traced.Shows path node → ∀ classifier ∈ policy.classifiers,
          ∀ classification, classifier path node = some classification →
            classification.isProtected = true →
              policy.fieldActions.lookup (sampleLibrary.lower (dotted path)) = some .keep ∨
                policy.classificationActions.lookup classification = some .keep := by
  intro h
  have hshows : (Traced.dict [] (.mapping 0 [("api_key", .scalar "k")])
      [("api_key", .scalar ["api_key"] "k")]).Shows ["api_key"] (.scalar "k") :=
    .inDict List.mem_cons_self (.scalar ["api_key"] "k")
  have hexplicit := h manualPolicy (.mapping 0 [("api_key", .scalar "k")]) _ rfl ["api_key"]
    (.scalar "k") hshows _ (List.mem_cons_of_mem _ List.mem_cons_self) .secret rfl rfl
  rcases hexplicit with hfield | hclass
  · cases hfield
  · cases hclass

end ProdkitStorage.Security
