import ProdkitStorage.Audit

/-!
# Redaction

What `sanitize` may see of a payload is its *view*: the subtree at a path whose action
drops, masks or rejects it is hidden, and a value that is hashed shows its `repr`
alone.  `sanitize` factors through the view, so payloads with the same view have the
same outcome.

The view of a hashed value is where the policy lets a protected field through: a
digest is one of the whole value, dropped and masked fields inside it included.
`outside` is the view that hides these too.
-/

namespace ProdkitStorage.Security

open ProdkitStorage.Python

/-! ## Views -/

/-- What is seen of a payload. -/
inductive View (κ α : Type) where
  | hidden
  | hashed (text : String)
  | scalar (value : α)
  /-- A container inside itself. -/
  | cycle
  | mapping (items : List (κ × View κ α))
  | sequence (items : List (View κ α))

/-- The action keeps the value out of the result. -/
def AuditAction.protects : AuditAction → Bool
  | .mask => true
  | .drop => true
  | .reject => true
  | _ => false

variable {κ α : Type}

section
variable (act : List String → AuditAction) (library : Library κ α) (hashes : Bool)

mutual

/-- The view of a payload at a path, inside the containers `outer`, with the action of each path.
Without `hashes` a value that is hashed shows all but its protected subtrees. -/
def viewAt : Payload κ α → List String → List Nat → View κ α
  | value, path, outer =>
      if (act path).protects then .hidden
      else if hashes && act path == .hash then .hashed (library.repr value)
      else match value with
        | .scalar value => .scalar value
        | .mapping object items =>
            if object ∈ outer then .cycle else .mapping (viewMapping items path (object :: outer))
        | .sequence _ object items =>
            if object ∈ outer then .cycle
            else .sequence (viewSequence items 0 path (object :: outer))

def viewMapping : List (κ × Payload κ α) → List String → List Nat → List (κ × View κ α)
  | [], _, _ => []
  | (key, item) :: items, path, outer =>
      (key, viewAt item (path ++ [library.keyText key]) outer) :: viewMapping items path outer

def viewSequence : List (Payload κ α) → Nat → List String → List Nat → List (View κ α)
  | [], _, _, _ => []
  | item :: items, index, path, outer =>
      viewAt item (path ++ [toString index]) outer :: viewSequence items (index + 1) path outer

end

end

namespace AuditPolicy

open ValuePolicy

variable (policy : AuditPolicy κ α) (library : Library κ α)

/-- The classifiers depend only on the path. -/
def PathOnly : Prop :=
  ∀ classifier ∈ policy.classifiers, ∀ path value value',
    classifier path value = classifier path value'

/-- The action of a path, for a policy whose classifiers do not look at the value. -/
def pathAction (path : List String) : AuditAction := policy.action library path (.mapping 0 [])

/-- What the policy sees of a payload. -/
def view (value : Payload κ α) : View κ α :=
  viewAt (policy.pathAction library) library true value [] []

/-- A payload outside the subtrees that the policy drops, masks or rejects. -/
def outside (value : Payload κ α) : View κ α :=
  viewAt (policy.pathAction library) library false value [] []

mutual

/-- `sanitize` on what the policy sees. -/
def renderAt : View κ α → List String → Nat → Except PyError (Option (Sanitized α))
  | view, path, depth =>
      if policy.maxDepth < depth then
        .error depthError
      else match view with
        | .hidden =>
            match policy.pathAction library path with
            | .mask => .ok (some (.text policy.mask))
            | .reject => .error (forbidden library.toValueLibrary path)
            | _ => .ok none
        | .hashed text => do return some (.text (← policy.hash library text))
        | .scalar value => .ok (some (.scalar value))
        | .cycle => .error cycleError
        | .mapping items => do return some (.dict (← renderMapping items path depth []))
        | .sequence items => do
            let results ← renderSequence items 0 path depth
            return some (.list (results.filterMap id))

def renderMapping : List (κ × View κ α) → List String → Nat → List (String × Sanitized α) →
    Except PyError (List (String × Sanitized α))
  | [], _, _, sanitized => .ok sanitized
  | (key, item) :: items, path, depth, sanitized => do
      match ← renderAt item (path ++ [library.keyText key]) (depth + 1) with
      | none => renderMapping items path depth sanitized
      | some result =>
          renderMapping items path depth (setItem (library.keyText key) result sanitized)

def renderSequence : List (View κ α) → Nat → List String → Nat →
    Except PyError (List (Option (Sanitized α)))
  | [], _, _, _ => .ok []
  | item :: items, index, path, depth => do
      let result ← renderAt item (path ++ [toString index]) (depth + 1)
      let results ← renderSequence items (index + 1) path depth
      return result :: results

end

/-! ## The policy sees the view -/

variable {policy}

theorem classifiedAction_pathOnly {classifiers : List (Classifier κ α)}
    (h : ∀ classifier ∈ classifiers, ∀ path value value',
      classifier path value = classifier path value') (path : List String)
    (value value' : Payload κ α) :
    policy.classifiedAction path value classifiers =
      policy.classifiedAction path value' classifiers := by
  induction classifiers with
  | nil => rfl
  | cons classifier classifiers ih =>
      simp only [classifiedAction]
      rw [h classifier List.mem_cons_self path value value',
        ih fun other hother => h other (List.mem_cons_of_mem _ hother)]

theorem action_eq_pathAction (h : policy.PathOnly) (path : List String) (value : Payload κ α) :
    policy.action library path value = policy.pathAction library path := by
  unfold pathAction action
  rw [classifiedAction_pathOnly h path value (.mapping 0 [])]

mutual

theorem sanitizeAt_eq_render (h : policy.PathOnly) : ∀ (value : Payload κ α) (path : List String)
    (visited : List Nat) (depth : Nat),
    policy.sanitizeAt library value path visited depth =
      policy.renderAt library
        (viewAt (policy.pathAction library) library true value path visited) path depth
  | value, path, visited, depth => by
      unfold sanitizeAt viewAt renderAt
      rw [action_eq_pathAction library h]
      by_cases hdepth : policy.maxDepth < depth
      · rw [if_pos hdepth, if_pos hdepth]
      · rw [if_neg hdepth, if_neg hdepth]
        cases haction : policy.pathAction library path with
        | mask => simp only [AuditAction.protects, if_true]
        | drop => simp only [AuditAction.protects, if_true]
        | reject => simp only [AuditAction.protects, if_true]
        | hash => rfl
        | keep =>
            cases value with
            | scalar value => rfl
            | mapping object items =>
                have hitems := sanitizeMapping_eq_render h items path (object :: visited) depth []
                by_cases hcycle : object ∈ visited
                · simp [AuditAction.protects, hcycle]
                · simp [AuditAction.protects, hcycle, hitems]
            | sequence isTuple object items =>
                have hitems := sanitizeSequence_eq_render h items 0 path (object :: visited) depth
                by_cases hcycle : object ∈ visited
                · simp [AuditAction.protects, hcycle]
                · simp [AuditAction.protects, hcycle, hitems]

theorem sanitizeMapping_eq_render (h : policy.PathOnly) : ∀ (items : List (κ × Payload κ α))
    (path : List String) (visited : List Nat) (depth : Nat)
    (sanitized : List (String × Sanitized α)),
    policy.sanitizeMapping library items path visited depth sanitized =
      policy.renderMapping library
        (viewMapping (policy.pathAction library) library true items path visited) path depth
          sanitized
  | [], path, visited, depth, sanitized => rfl
  | (key, item) :: items, path, visited, depth, sanitized => by
      have hitem := sanitizeAt_eq_render h item (path ++ [library.keyText key]) visited (depth + 1)
      have hitems := sanitizeMapping_eq_render h items path visited depth
      rw [sanitizeMapping, viewMapping, renderMapping, hitem]
      cases policy.renderAt library
          (viewAt (policy.pathAction library) library true item
            (path ++ [library.keyText key]) visited)
          (path ++ [library.keyText key]) (depth + 1) with
      | error error => rfl
      | ok result =>
          cases result with
          | none => exact hitems sanitized
          | some result => exact hitems (setItem (library.keyText key) result sanitized)

theorem sanitizeSequence_eq_render (h : policy.PathOnly) : ∀ (items : List (Payload κ α))
    (index : Nat) (path : List String) (visited : List Nat) (depth : Nat),
    policy.sanitizeSequence library items index path visited depth =
      policy.renderSequence library
        (viewSequence (policy.pathAction library) library true items index path visited) index path
        depth
  | [], index, path, visited, depth => rfl
  | item :: items, index, path, visited, depth => by
      have hitem := sanitizeAt_eq_render h item (path ++ [toString index]) visited (depth + 1)
      have hitems := sanitizeSequence_eq_render h items (index + 1) path visited depth
      simp only [sanitizeSequence, viewSequence, renderSequence, hitem, hitems]

end

/-- `sanitize` is a function of the view. -/
theorem sanitize_eq_render (h : policy.PathOnly) (value : Payload κ α) :
    policy.sanitize library value = policy.renderAt library (policy.view library value) [] 0 :=
  sanitizeAt_eq_render library h value [] [] 0

theorem sanitize_congr (h : policy.PathOnly) {value value' : Payload κ α}
    (hview : policy.view library value = policy.view library value') :
    policy.sanitize library value = policy.sanitize library value' := by
  rw [sanitize_eq_render library h, sanitize_eq_render library h, hview]

end AuditPolicy

/-! ## A policy that hashes nothing -/

section
variable {act : List String → AuditAction} (library : Library κ α)

mutual

/-- Without hashed values only the protected subtrees are out of view. -/
theorem viewAt_unhashed (h : ∀ path, act path ≠ .hash) : ∀ (value : Payload κ α)
    (path : List String) (outer : List Nat),
    viewAt act library true value path outer = viewAt act library false value path outer
  | value, path, outer => by
      have hhash : (act path == .hash) = false := beq_eq_false_iff_ne.mpr (h path)
      unfold viewAt
      simp only [hhash, Bool.and_false]
      cases value with
      | scalar value => rfl
      | mapping object items => simp only [viewMapping_unhashed h items path (object :: outer)]
      | sequence isTuple object items =>
          simp only [viewSequence_unhashed h items 0 path (object :: outer)]

theorem viewMapping_unhashed (h : ∀ path, act path ≠ .hash) : ∀ (items : List (κ × Payload κ α))
    (path : List String) (outer : List Nat),
    viewMapping act library true items path outer = viewMapping act library false items path outer
  | [], path, outer => rfl
  | (key, item) :: items, path, outer => by
      simp only [viewMapping, viewAt_unhashed h item, viewMapping_unhashed h items]

theorem viewSequence_unhashed (h : ∀ path, act path ≠ .hash) : ∀ (items : List (Payload κ α))
    (index : Nat) (path : List String) (outer : List Nat),
    viewSequence act library true items index path outer =
      viewSequence act library false items index path outer
  | [], index, path, outer => rfl
  | item :: items, index, path, outer => by
      simp only [viewSequence, viewAt_unhashed h item, viewSequence_unhashed h items]

end

end

/-- The default policy's classifier looks at names only. -/
theorem defaultAuditPolicy_pathOnly (text : Lowercase) :
    (defaultAuditPolicy text : AuditPolicy κ α).PathOnly := by
  intro classifier hmem path value value'
  obtain rfl := List.mem_singleton.mp hmem
  rfl

/-- The default policy keeps, masks or drops. -/
theorem defaultAuditPolicy_unhashed (library : Library κ α) (path : List String) :
    (defaultAuditPolicy library.toLowercase).pathAction library path ≠ .hash := by
  have hactions : ∀ classification : DataClassification,
      (defaultActions.lookup classification).getD .keep ≠ .hash := by
    intro classification
    cases classification <;> decide
  simp only [AuditPolicy.pathAction, ValuePolicy.action, defaultAuditPolicy, List.lookup_nil,
    ValuePolicy.classifiedAction]
  split
  · exact hactions _
  · exact nofun

/-! ## Noninterference -/

/-- The arguments of two events agree but for what the policy does not see. -/
structure SameView (policy : AuditPolicy κ α) (library : Library κ α)
    (arguments arguments' : EventArguments κ α) : Prop where
  rest : arguments' = { arguments with
    before := arguments'.before, after := arguments'.after, metadata := arguments'.metadata }
  before : arguments.before.map (fun dict => policy.view library dict.payload) =
    arguments'.before.map fun dict => policy.view library dict.payload
  after : arguments.after.map (fun dict => policy.view library dict.payload) =
    arguments'.after.map fun dict => policy.view library dict.payload
  metadata : policy.view library arguments.metadataDict.payload =
    policy.view library arguments'.metadataDict.payload

theorem sanitizeOptional_congr {policy : AuditPolicy κ α} (library : Library κ α)
    (h : policy.PathOnly) {dict dict' : Option (PayloadDict κ α)}
    (hview : dict.map (fun dict => policy.view library dict.payload) =
      dict'.map fun dict => policy.view library dict.payload) :
    sanitizeOptional (policy.sanitize library) dict =
      sanitizeOptional (policy.sanitize library) dict' := by
  cases dict with
  | none =>
      cases dict' with
      | none => rfl
      | some dict' => cases hview
  | some dict =>
      cases dict' with
      | none => cases hview
      | some dict' =>
          have hpayload := AuditPolicy.sanitize_congr library h (Option.some.inj hview)
          simp only [sanitizeOptional, hpayload]

/-- Payloads that differ only inside subtrees that are dropped, masked or rejected, and have the
same `repr` wherever they are hashed, have the same outcome of `sanitize`, and so have events built
from them.  For a policy that hashes nothing the first condition is enough. -/
theorem redaction_noninterference (policy : AuditPolicy κ α) (library : Library κ α)
    (h : policy.PathOnly) :
    (∀ value value', policy.view library value = policy.view library value' →
      policy.sanitize library value = policy.sanitize library value') ∧
    (∀ current arguments arguments', SameView policy library arguments arguments' →
      recordAuditEvent policy library current arguments =
        recordAuditEvent policy library current arguments') ∧
    ((∀ path, policy.pathAction library path ≠ .hash) →
      ∀ value value', policy.outside library value = policy.outside library value' →
        policy.sanitize library value = policy.sanitize library value') := by
  refine ⟨fun value value' hview => AuditPolicy.sanitize_congr library h hview,
    fun current arguments arguments' hsame => ?_, fun hunhashed value value' houtside => ?_⟩
  · exact buildEvent_congr hsame.rest (sanitizeOptional_congr library h hsame.before)
      (sanitizeOptional_congr library h hsame.after)
      (AuditPolicy.sanitize_congr library h hsame.metadata)
  · refine AuditPolicy.sanitize_congr library h ?_
    rw [AuditPolicy.view, AuditPolicy.view, viewAt_unhashed library hunhashed,
      viewAt_unhashed library hunhashed]
    exact houtside

/-! ## A password -/

/-- `repr` of a text without quotes and escapes. -/
def quote (text : String) : String := "'" ++ text ++ "'"

mutual

/-- `repr` of such texts in mappings, lists and tuples. -/
def reprOf : Payload String String → String
  | .scalar value => quote value
  | .mapping _ items => "\x7b" ++ String.intercalate ", " (reprItems items) ++ "\x7d"
  | .sequence true _ [item] => "(" ++ reprOf item ++ ",)"
  | .sequence true _ items => "(" ++ String.intercalate ", " (reprSequence items) ++ ")"
  | .sequence false _ items => "[" ++ String.intercalate ", " (reprSequence items) ++ "]"

def reprItems : List (String × Payload String String) → List String
  | [] => []
  | (key, item) :: items => (quote key ++ ": " ++ reprOf item) :: reprItems items

def reprSequence : List (Payload String String) → List String
  | [] => []
  | item :: items => reprOf item :: reprSequence items

end

theorem toLower_toLower (c : Char) : c.toLower.toLower = c.toLower := by
  by_cases h : c.val ≥ 'A'.val ∧ c.val ≤ 'Z'.val
  · have hval : c.toLower.val = c.val + 32 := by
      have hlower : c.toLower = _ := dif_pos h
      rw [hlower]
      rfl
    have hnot : ¬(c.toLower.val ≥ 'A'.val ∧ c.toLower.val ≤ 'Z'.val) := by
      rw [hval]
      simp only [ge_iff_le, UInt32.le_iff_toNat_le, UInt32.toNat_add] at h ⊢
      have hA : 'A'.val.toNat = 65 := rfl
      have hZ : 'Z'.val.toNat = 90 := rfl
      have hgap : (32 : UInt32).toNat = 32 := rfl
      omega
    exact dif_neg hnot
  · have hsame : c.toLower = c := dif_neg h
    rw [hsame, hsame]

/-- A library for texts; its digest tells texts apart. -/
def sampleLibrary : Library String String where
  lower text := String.ofList (text.toList.map Char.toLower)
  length_le text := by rw [String.length_ofList, List.length_map, String.length_toList]
  lower_lower text := by
    rw [String.toList_ofList, List.map_map]
    exact congrArg String.ofList (List.map_congr_left fun c _ => toLower_toLower c)
  keyText := id
  reprText := quote
  repr := reprOf
  hmacSha256 _ text := text

/-- A user with a password. -/
def user (password : String) : Payload String String :=
  .mapping 0 [("user", .mapping 1 [("name", .scalar "ada"), ("password", .scalar password)])]

/-- A policy that hashes the user and drops the password inside it. -/
def hashingPolicy : AuditPolicy String String where
  fieldActions := [("user", .hash), ("user.password", .drop)]
  hashSecret := some [1]

/-- The digest of a user depends on the password that is dropped. -/
theorem hashed_user_shows_password :
    ¬∀ (policy : AuditPolicy String String) (value value' : Payload String String),
      policy.PathOnly → policy.outside sampleLibrary value = policy.outside sampleLibrary value' →
        policy.sanitize sampleLibrary value = policy.sanitize sampleLibrary value' := by
  intro hequal
  have hresult : ∀ password, hashingPolicy.sanitize sampleLibrary (user password) =
      .ok (some (.dict [("user", .text ("sha256:" ++ reprOf
        (.mapping 1 [("name", .scalar "ada"), ("password", .scalar password)])))])) := fun _ => rfl
  have hsame := hequal hashingPolicy (user "a") (user "b") nofun rfl
  rw [hresult, hresult] at hsame
  simp only [Except.ok.injEq, Option.some.injEq, Sanitized.dict.injEq, List.cons.injEq,
    Prod.mk.injEq, Sanitized.text.injEq, true_and, and_true] at hsame
  exact absurd hsame (by decide)

/-- The default policy makes the same of two users who differ in the password. -/
theorem redaction_noninterference_default :
    (defaultAuditPolicy sampleLibrary.toLowercase).sanitize sampleLibrary (user "a") =
      (defaultAuditPolicy sampleLibrary.toLowercase).sanitize sampleLibrary (user "b") :=
  (redaction_noninterference _ sampleLibrary (defaultAuditPolicy_pathOnly _)).2.2
    (defaultAuditPolicy_unhashed sampleLibrary) _ _ rfl

end ProdkitStorage.Security
