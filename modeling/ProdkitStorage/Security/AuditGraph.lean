import ProdkitStorage.Security.Audit

/-!
# Audit policies on object graphs

`AuditPolicy.sanitize` of `security/audit.py` on a graph of objects: containers have
identities, and may be shared and contain themselves.  The set of the identities the walk is
in is passed along and changed as the source changes it.

`Shows` is the payload a value makes at a path, container by container.  A walk that
returns has made it and left the set as it was (`sanitizeAt_outcome`).
-/

namespace ProdkitStorage.Security

open ProdkitStorage.Python

/-! ## Object graphs -/

/-- A value: a scalar, or the container with an identity. -/
inductive Value (ν α : Type) where
  | scalar (value : α)
  | object (id : ν)

/-- A container. -/
inductive Object (ν α : Type) where
  /-- The keys of a mapping are different. -/
  | mapping (items : List (String × Value ν α)) (keys_nodup : (items.map Prod.fst).Nodup)
  /-- A list, or a tuple. -/
  | sequence (isTuple : Bool) (items : List (Value ν α))

/-- The containers, by their identities. -/
abbrev Heap (ν α : Type) := ν → Object ν α

/-- What the policy takes from Python's library. -/
abbrev GraphLibrary (ν α : Type) := ValueLibrary (Value ν α)

/-- `AuditPolicy`, on the values of a graph. -/
abbrev GraphPolicy (ν α : Type) := ValuePolicy (Value ν α)

namespace GraphPolicy

open ValuePolicy

variable {ν α : Type}

/-! ## Sanitizing -/

section
variable (policy : GraphPolicy ν α) (library : GraphLibrary ν α)

/-- What the walk of an item makes of it, with the identities it is in. -/
abbrev Walk (ν α : Type) :=
  Value ν α → List String → List ν → Except PyError (Option (Sanitized α) × List ν)

/-- The loop over the items of a mapping. -/
def sanitizeMapping (walk : Walk ν α) (path : List String) :
    List (String × Value ν α) → List (String × Sanitized α) → List ν →
      Except PyError (List (String × Sanitized α) × List ν)
  | [], sanitized, visited => .ok (sanitized, visited)
  | (key, item) :: items, sanitized, visited =>
      match walk item (path ++ [key]) visited with
      | .error error => .error error
      | .ok (none, visited) => sanitizeMapping walk path items sanitized visited
      | .ok (some result, visited) =>
          sanitizeMapping walk path items (setItem key result sanitized) visited

/-- The loop over the items of a list or tuple, from an index on. -/
def sanitizeSequence (walk : Walk ν α) (path : List String) :
    List (Value ν α) → Nat → List ν → Except PyError (List (Option (Sanitized α)) × List ν)
  | [], _, visited => .ok ([], visited)
  | item :: items, index, visited =>
      match walk item (path ++ [toString index]) visited with
      | .error error => .error error
      | .ok (result, visited) =>
          match sanitizeSequence walk path items (index + 1) visited with
          | .error error => .error error
          | .ok (results, visited) => .ok (result :: results, visited)

/-- The branches of `_sanitize` for a container that is kept. -/
def sanitizeObject [DecidableEq ν] (walk : Walk ν α) (id : ν) (path : List String)
    (visited : List ν) : Object ν α → Except PyError (Option (Sanitized α) × List ν)
  | .mapping items _ =>
      if id ∈ visited then .error cycleError
      else
        match sanitizeMapping walk path items [] (id :: visited) with
        | .error error => .error error
        | .ok (sanitized, visited) => .ok (some (.dict sanitized), visited.erase id)
  | .sequence _ items =>
      if id ∈ visited then .error cycleError
      else
        match sanitizeSequence walk path items 0 (id :: visited) with
        | .error error => .error error
        | .ok (results, visited) =>
            .ok (some (.list (results.filterMap fun result => result)), visited.erase id)

/-- `_sanitize`; `none` is `_DROP`. -/
def sanitizeAt [DecidableEq ν] (heap : Heap ν α) (value : Value ν α) (path : List String)
    (visited : List ν) (depth : Nat) : Except PyError (Option (Sanitized α) × List ν) :=
  if policy.maxDepth < depth then .error depthError
  else
    match policy.action library path value with
    | .mask => .ok (some (.text policy.mask), visited)
    | .drop => .ok (none, visited)
    | .reject => .error (forbidden library path)
    | .hash => do
        let text ← policy.hash library (library.repr value)
        return (some (.text text), visited)
    | .keep =>
        match value with
        | .scalar value => .ok (some (.scalar value), visited)
        | .object id =>
            sanitizeObject (fun item path visited => sanitizeAt heap item path visited (depth + 1))
              id path visited (heap id)
termination_by (policy.maxDepth + 1 - depth).toNat
decreasing_by
  all_goals omega

/-- `sanitize`. -/
def sanitize [DecidableEq ν] (heap : Heap ν α) (value : Value ν α) :
    Except PyError (Option (Sanitized α)) :=
  match policy.sanitizeAt library heap value [] [] 0 with
  | .error error => .error error
  | .ok (result, _) => .ok result

end

/-! ## Where values are -/

section
variable (policy : GraphPolicy ν α) (library : GraphLibrary ν α) (heap : Heap ν α)

/-- The items of a container, with the last part of their paths. -/
def items : Object ν α → List (String × Value ν α)
  | .mapping items _ => items
  | .sequence _ items => items.zipIdx.map fun item => (toString item.2, item.1)

/-- The value is at the path, in these containers, the innermost first, all of which are kept. -/
inductive Under (root : Value ν α) : List String → List ν → Value ν α → Prop where
  | root : Under root [] [] root
  | item {path : List String} {enclosing : List ν} {id : ν} {key : String} {value : Value ν α} :
      Under root path enclosing (.object id) → policy.action library path (.object id) = .keep →
      (key, value) ∈ items (heap id) → Under root (path ++ [key]) (id :: enclosing) value

/-- A container is nested inside itself along a path of kept nodes. -/
def NestsItself (root : Value ν α) : Prop :=
  ∃ path enclosing id, Under policy library heap root path enclosing (.object id) ∧
    policy.action library path (.object id) = .keep ∧ id ∈ enclosing

/-- A value whose enclosing containers are all kept is too deep. -/
def TooDeep (root : Value ν α) : Prop :=
  ∃ path enclosing value, Under policy library heap root path enclosing value ∧
    policy.maxDepth < path.length

/-- What a container makes of what is made of its items. -/
def shown : Object ν α → List (Option (Sanitized α)) → Sanitized α
  | .mapping items _, results =>
      .dict ((items.zip results).filterMap fun entry =>
        entry.2.map fun result => (entry.1.1, result))
  | .sequence _ _, results => .list (results.filterMap fun result => result)

/-- What a value makes at a path; an item that is dropped makes nothing. -/
inductive Shows : List String → Value ν α → Option (Sanitized α) → Prop where
  | mask {path : List String} {value : Value ν α} : policy.action library path value = .mask →
      Shows path value (some (.text policy.mask))
  | drop {path : List String} {value : Value ν α} : policy.action library path value = .drop →
      Shows path value none
  | scalar {path : List String} {value : α} :
      policy.action library path (.scalar value) = .keep →
      Shows path (.scalar value) (some (.scalar value))
  | container {path : List String} {id : ν} {results : List (Option (Sanitized α))} :
      policy.action library path (.object id) = .keep →
      (items (heap id)).length = results.length →
      (∀ entry ∈ (items (heap id)).zip results,
        Shows (path ++ [entry.1.1]) entry.1.2 entry.2) →
      Shows path (.object id) (some (shown (heap id) results))

end

/-! ## What a walk ends with -/

/-- A walk ends with a result and the set as it was, or with an error. -/
def Ends {β : Type} (made : β → Prop) (failed : PyError → Prop) (visited : List ν) :
    Except PyError (β × List ν) → Prop
  | .ok (result, after) => after = visited ∧ made result
  | .error error => failed error

theorem Ends.ok {β : Type} {made : β → Prop} {failed : PyError → Prop} {visited after : List ν}
    {outcome : Except PyError (β × List ν)} {result : β} (h : Ends made failed visited outcome)
    (hok : outcome = .ok (result, after)) : after = visited ∧ made result := by
  rw [hok] at h
  exact h

theorem Ends.error {β : Type} {made : β → Prop} {failed : PyError → Prop} {visited : List ν}
    {outcome : Except PyError (β × List ν)} {error : PyError} (h : Ends made failed visited outcome)
    (herror : outcome = .error error) : failed error := by
  rw [herror] at h
  exact h

theorem Ends.imp {β : Type} {made made' : β → Prop} {failed : PyError → Prop} {visited : List ν}
    {outcome : Except PyError (β × List ν)} (h : Ends made failed visited outcome)
    (himp : ∀ result, made result → made' result) : Ends made' failed visited outcome := by
  cases outcome with
  | ok result => exact ⟨h.1, himp _ h.2⟩
  | error error => exact h

/-- A result that was made is the result the walk ended with. -/
theorem Ends.self {β : Type} {made : β → Prop} {failed : PyError → Prop} {visited : List ν}
    {outcome : Except PyError (β × List ν)} (h : Ends made failed visited outcome) :
    Ends (fun result => outcome = .ok (result, visited) ∧ made result) failed visited outcome := by
  cases outcome with
  | ok result =>
      obtain ⟨result, after⟩ := result
      obtain ⟨rfl, hmade⟩ := h
      exact ⟨rfl, rfl, hmade⟩
  | error error => exact h

section
variable {walk : Walk ν α} {path : List String} {visited : List ν} {failed : PyError → Prop}
  {made : String × Value ν α → Option (Sanitized α) → Prop}

theorem setItem_new {β : Type} {key : String} {value : β} {sanitized : List (String × β)}
    (h : key ∉ sanitized.map Prod.fst) :
    setItem key value sanitized = sanitized ++ [(key, value)] := by
  induction sanitized with
  | nil => rfl
  | cons entry sanitized ih =>
      obtain ⟨other, held⟩ := entry
      rw [List.map_cons, List.mem_cons, not_or] at h
      rw [setItem, if_neg (Ne.symm h.1), ih h.2, List.cons_append]

/-- The loop over a mapping walks each item with the set as it is, and keeps what is not
dropped, in order. -/
theorem sanitizeMapping_ends {fields : List (String × Value ν α)}
    {sanitized : List (String × Sanitized α)}
    (hwalk : ∀ item ∈ fields,
      Ends (made item) failed visited (walk item.2 (path ++ [item.1]) visited))
    (hkeys : (sanitized.map Prod.fst ++ fields.map Prod.fst).Nodup) :
    Ends (fun out => ∃ results : List (Option (Sanitized α)), fields.length = results.length ∧
        (∀ entry ∈ fields.zip results, made entry.1 entry.2) ∧
        out = sanitized ++ (fields.zip results).filterMap fun entry =>
          entry.2.map fun result => (entry.1.1, result))
      failed visited (sanitizeMapping walk path fields sanitized visited) := by
  induction fields generalizing sanitized with
  | nil =>
      refine ⟨rfl, [], rfl, fun _ h => (nomatch h), ?_⟩
      rw [List.zip_nil_left, List.filterMap_nil, List.append_nil]
  | cons item fields ih =>
      obtain ⟨key, value⟩ := item
      have hfirst := hwalk (key, value) List.mem_cons_self
      have hrest : ∀ other ∈ fields,
          Ends (made other) failed visited (walk other.2 (path ++ [other.1]) visited) :=
        fun other hother => hwalk other (List.mem_cons_of_mem _ hother)
      have hmore : ∀ {result : Option (Sanitized α)} {results : List (Option (Sanitized α))},
          made (key, value) result → (∀ entry ∈ fields.zip results, made entry.1 entry.2) →
          ∀ entry ∈ ((key, value) :: fields).zip (result :: results), made entry.1 entry.2 := by
        intro result results hmade hall entry hentry
        rw [List.zip_cons_cons] at hentry
        rcases List.mem_cons.mp hentry with rfl | hentry
        · exact hmade
        · exact hall entry hentry
      rw [sanitizeMapping]
      split
      · next error hwalked => exact hfirst.error hwalked
      · next after hwalked =>
          obtain ⟨rfl, hmade⟩ := hfirst.ok hwalked
          have hkeys' : (sanitized.map Prod.fst ++ fields.map Prod.fst).Nodup :=
            hkeys.sublist ((List.sublist_cons_self _ _).append_left _)
          refine (ih hrest hkeys').imp ?_
          rintro out ⟨results, hlength, hall, rfl⟩
          exact ⟨none :: results, congrArg (· + 1) hlength, hmore hmade hall, rfl⟩
      · next result after hwalked =>
          obtain ⟨rfl, hmade⟩ := hfirst.ok hwalked
          have hnew : key ∉ sanitized.map Prod.fst := fun hmem =>
            (List.nodup_append.mp hkeys).2.2 key hmem key List.mem_cons_self rfl
          have hkeys' :
              ((sanitized ++ [(key, result)]).map Prod.fst ++ fields.map Prod.fst).Nodup := by
            rw [List.map_append, List.append_assoc]
            exact hkeys
          rw [setItem_new hnew]
          refine (ih hrest hkeys').imp ?_
          rintro out ⟨results, hlength, hall, rfl⟩
          refine ⟨some result :: results, congrArg (· + 1) hlength, hmore hmade hall, ?_⟩
          rw [List.append_assoc]
          rfl

/-- The loop over a list walks each item with the set as it is. -/
theorem sanitizeSequence_ends {values : List (Value ν α)} {index : Nat}
    (hwalk : ∀ item ∈ (values.zipIdx index).map fun item => (toString item.2, item.1),
      Ends (made item) failed visited (walk item.2 (path ++ [item.1]) visited)) :
    Ends (fun results => values.length = results.length ∧
        ∀ entry ∈ ((values.zipIdx index).map fun item => (toString item.2, item.1)).zip results,
          made entry.1 entry.2)
      failed visited (sanitizeSequence walk path values index visited) := by
  induction values generalizing index with
  | nil => exact ⟨rfl, rfl, fun _ h => (nomatch h)⟩
  | cons value values ih =>
      rw [List.zipIdx_cons, List.map_cons] at hwalk
      have hfirst := hwalk _ List.mem_cons_self
      have hrest := ih fun item hitem => hwalk item (List.mem_cons_of_mem _ hitem)
      rw [sanitizeSequence]
      split
      · next error hwalked => exact hfirst.error hwalked
      · next result after hwalked =>
          obtain ⟨rfl, hmade⟩ := hfirst.ok hwalked
          split
          · next error hwalked' => exact hrest.error hwalked'
          · next results after' hwalked' =>
              obtain ⟨rfl, hlength, hall⟩ := hrest.ok hwalked'
              refine ⟨rfl, congrArg (· + 1) hlength, ?_⟩
              rw [List.zipIdx_cons, List.map_cons, List.zip_cons_cons]
              intro entry hentry
              rcases List.mem_cons.mp hentry with rfl | hentry
              · exact hmade
              · exact hall entry hentry

theorem exists_mem_zip {β γ : Type} {as : List β} {bs : List γ} (hlength : as.length = bs.length)
    {a : β} (ha : a ∈ as) : ∃ b, (a, b) ∈ as.zip bs := by
  obtain ⟨i, hi, rfl⟩ := List.getElem_of_mem ha
  have hzip : i < (as.zip bs).length := by
    rw [List.length_zip]
    omega
  refine ⟨bs[i], ?_⟩
  rw [← List.getElem_zip (h := hzip)]
  exact List.getElem_mem hzip

/-- The walk of a container walks its items inside the container. -/
theorem sanitizeObject_ends [DecidableEq ν] {id : ν} {object : Object ν α} (hnew : id ∉ visited)
    (hwalk : ∀ item ∈ items object, Ends (made item) failed (id :: visited)
      (walk item.2 (path ++ [item.1]) (id :: visited))) :
    Ends (fun result => ∃ results : List (Option (Sanitized α)),
        (items object).length = results.length ∧
        (∀ entry ∈ (items object).zip results, made entry.1 entry.2) ∧
        result = some (shown object results))
      failed visited (sanitizeObject walk id path visited object) := by
  cases object with
  | mapping fields keys_nodup =>
      have hloop := @sanitizeMapping_ends ν α walk path (id :: visited) failed made fields []
        hwalk keys_nodup
      rw [sanitizeObject, if_neg hnew]
      split
      · next error hlooped => exact hloop.error hlooped
      · next sanitized after hlooped =>
          obtain ⟨rfl, results, hlength, hall, rfl⟩ := hloop.ok hlooped
          exact ⟨List.erase_cons_head _ _, results, hlength, hall, rfl⟩
  | sequence isTuple values =>
      have hloop := @sanitizeSequence_ends ν α walk path (id :: visited) failed made values 0 hwalk
      rw [sanitizeObject, if_neg hnew]
      split
      · next error hlooped => exact hloop.error hlooped
      · next results after hlooped =>
          obtain ⟨rfl, hlength, hall⟩ := hloop.ok hlooped
          refine ⟨List.erase_cons_head _ _, results, ?_, hall, rfl⟩
          rw [items, List.length_map, List.length_zipIdx, hlength]

/-- The walk of a container that is returned has returned for each item. -/
theorem sanitizeObject_items [DecidableEq ν] {id : ν} {object : Object ν α}
    {result : Option (Sanitized α)} {after : List ν}
    (hok : sanitizeObject walk id path visited object = .ok (result, after)) (hnew : id ∉ visited)
    (hwalk : ∀ item ∈ items object, Ends (made item) failed (id :: visited)
      (walk item.2 (path ++ [item.1]) (id :: visited))) :
    ∀ item ∈ items object, ∃ made,
      walk item.2 (path ++ [item.1]) (id :: visited) = .ok (made, id :: visited) := by
  intro item hitem
  obtain ⟨-, results, hlength, hall, -⟩ :=
    (sanitizeObject_ends hnew fun item hitem => (hwalk item hitem).self).ok hok
  obtain ⟨made, hmem⟩ := exists_mem_zip hlength hitem
  exact ⟨made, (hall _ hmem).1⟩

end

/-! ## What sanitizing ends with -/

section
variable [DecidableEq ν] {policy : GraphPolicy ν α} {library : GraphLibrary ν α} {heap : Heap ν α}
  {root : Value ν α}

/-- The two errors, and what each says of the payload. -/
def Fails (policy : GraphPolicy ν α) (library : GraphLibrary ν α) (heap : Heap ν α)
    (root : Value ν α) (error : PyError) : Prop :=
  (error = cycleError ∧ NestsItself policy library heap root) ∨
    (error = depthError ∧ TooDeep policy library heap root)

/-- No action rejects or hashes. -/
def KeepsMasksDrops (policy : GraphPolicy ν α) (library : GraphLibrary ν α) : Prop :=
  ∀ path value, policy.action library path value ∈ [AuditAction.keep, .mask, .drop]

/-- A walk that is not too deep walks the items of a container that is kept. -/
theorem sanitizeAt_object {path : List String} {visited : List ν} {id : ν}
    (hkeep : policy.action library path (.object id) = .keep)
    (hdepth : ¬policy.maxDepth < path.length) :
    policy.sanitizeAt library heap (.object id) path visited path.length =
      sanitizeObject (fun item itemPath visited =>
        policy.sanitizeAt library heap item itemPath visited (path.length + 1))
        id path visited (heap id) := by
  rw [sanitizeAt, if_neg hdepth, hkeep]

/-- A container in itself is an error. -/
theorem sanitizeObject_nested {walk : Walk ν α} {id : ν} {path : List String} {visited : List ν}
    (object : Object ν α) (h : id ∈ visited) :
    sanitizeObject walk id path visited object = .error cycleError := by
  cases object with
  | mapping fields keys_nodup => exact if_pos h
  | sequence isTuple values => exact if_pos h

/-- A walk at a place of the payload makes what the value shows there, or fails for the payload. -/
theorem sanitizeAt_outcome (hactions : KeepsMasksDrops policy library) {path : List String}
    {enclosing : List ν} {value : Value ν α}
    (hunder : Under policy library heap root path enclosing value) :
    Ends (Shows policy library heap path value) (Fails policy library heap root) enclosing
      (policy.sanitizeAt library heap value path enclosing path.length) := by
  obtain ⟨levels, hlevels⟩ : ∃ levels, levels = (policy.maxDepth + 1 - path.length).toNat :=
    ⟨_, rfl⟩
  induction levels using Nat.strongRecOn generalizing path enclosing value with
  | _ levels ih =>
  by_cases hdepth : policy.maxDepth < path.length
  · unfold sanitizeAt
    rw [if_pos hdepth]
    exact .inr ⟨rfl, path, enclosing, value, hunder, hdepth⟩
  have haction := hactions path value
  simp only [List.mem_cons, List.not_mem_nil, or_false] at haction
  rcases haction with hkeep | hmask | hdrop
  · cases value with
    | scalar value =>
        rw [sanitizeAt, if_neg hdepth, hkeep]
        exact ⟨rfl, .scalar hkeep⟩
    | object id =>
        rw [sanitizeAt_object hkeep hdepth]
        by_cases hnew : id ∈ enclosing
        · rw [sanitizeObject_nested _ hnew]
          exact .inl ⟨rfl, path, enclosing, id, hunder, hkeep, hnew⟩
        · have hitems : ∀ item ∈ items (heap id),
              Ends (Shows policy library heap (path ++ [item.1]) item.2)
                (Fails policy library heap root) (id :: enclosing)
                (policy.sanitizeAt library heap item.2 (path ++ [item.1]) (id :: enclosing)
                  (path.length + 1)) := by
            intro item hitem
            have hlength : (path ++ [item.1]).length = path.length + 1 := by
              rw [List.length_append]
              rfl
            have hitem' := ih _ (by rw [hlevels, hlength]; omega) (hunder.item hkeep hitem) rfl
            rw [hlength] at hitem'
            exact hitem'
          refine (sanitizeObject_ends hnew hitems).imp ?_
          rintro result ⟨results, hlength, hall, rfl⟩
          exact .container hkeep hlength hall
  · unfold sanitizeAt
    rw [if_neg hdepth, hmask]
    exact ⟨rfl, .mask hmask⟩
  · unfold sanitizeAt
    rw [if_neg hdepth, hdrop]
    exact ⟨rfl, .drop hdrop⟩

/-- The walk of a payload that is returned has returned at every place. -/
theorem sanitizeAt_under (hactions : KeepsMasksDrops policy library)
    {result : Option (Sanitized α)} {after : List ν}
    (hok : policy.sanitizeAt library heap root [] [] 0 = .ok (result, after))
    {path : List String} {enclosing : List ν} {value : Value ν α}
    (hunder : Under policy library heap root path enclosing value) :
    ∃ made, policy.sanitizeAt library heap value path enclosing path.length =
      .ok (made, enclosing) := by
  induction hunder with
  | root =>
      obtain ⟨rfl, -⟩ := (sanitizeAt_outcome hactions (.root : Under policy library heap root [] []
        root)).ok hok
      exact ⟨result, hok⟩
  | @item path enclosing id key value hunder hkeep hitem ih =>
      obtain ⟨made, hmade⟩ := ih
      by_cases hdepth : policy.maxDepth < path.length
      · unfold sanitizeAt at hmade
        rw [if_pos hdepth] at hmade
        cases hmade
      rw [sanitizeAt_object hkeep hdepth] at hmade
      by_cases hnested : id ∈ enclosing
      · rw [sanitizeObject_nested _ hnested] at hmade
        cases hmade
      have hlength : ∀ key : String, path.length + 1 = (path ++ [key]).length := by
        intro key
        rw [List.length_append]
        rfl
      have hitems : ∀ item ∈ items (heap id),
          Ends (Shows policy library heap (path ++ [item.1]) item.2)
            (Fails policy library heap root) (id :: enclosing)
            (policy.sanitizeAt library heap item.2 (path ++ [item.1]) (id :: enclosing)
              (path.length + 1)) := by
        intro item hitem
        rw [hlength item.1]
        exact sanitizeAt_outcome hactions (hunder.item hkeep hitem)
      rw [← hlength key]
      exact sanitizeObject_items hmade hnested hitems _ hitem

end

/-! ## Leaves -/

/-- A scalar is in a sanitized payload. -/
inductive Contains : Sanitized α → α → Prop where
  | scalar {value : α} : Contains (.scalar value) value
  | dict {items : List (String × Sanitized α)} {item : String × Sanitized α} {value : α} :
      item ∈ items → Contains item.2 value → Contains (.dict items) value
  | list {items : List (Sanitized α)} {item : Sanitized α} {value : α} : item ∈ items →
      Contains item value → Contains (.list items) value

/-- A scalar is in what a container shows when it is in what an item made. -/
theorem contains_shown_iff {object : Object ν α} {results : List (Option (Sanitized α))}
    (hlength : (items object).length = results.length) {value : α} :
    Contains (shown object results) value ↔
      ∃ entry ∈ (items object).zip results, ∃ made, entry.2 = some made ∧ Contains made value := by
  cases object with
  | mapping fields keys_nodup =>
      constructor
      · intro h
        cases h with
        | dict hmem hcontains =>
            obtain ⟨entry, hentry, hmade⟩ := List.mem_filterMap.mp hmem
            obtain ⟨made, hmade', rfl⟩ := Option.map_eq_some_iff.mp hmade
            exact ⟨entry, hentry, made, hmade', hcontains⟩
      · rintro ⟨entry, hentry, made, hmade, hcontains⟩
        have hitem : (entry.1.1, made) ∈ ((items (.mapping fields keys_nodup)).zip
            results).filterMap fun entry => entry.2.map fun result => (entry.1.1, result) :=
          List.mem_filterMap.mpr ⟨entry, hentry, by rw [hmade]; rfl⟩
        exact .dict hitem hcontains
  | sequence isTuple values =>
      constructor
      · intro h
        cases h with
        | list hmem hcontains =>
            obtain ⟨result, hresult, hmade⟩ := List.mem_filterMap.mp hmem
            obtain ⟨i, hi, rfl⟩ := List.getElem_of_mem hresult
            have hzip : i < ((items (.sequence isTuple values)).zip results).length := by
              rw [List.length_zip]
              omega
            refine ⟨_, List.getElem_mem hzip, _, ?_, hcontains⟩
            rw [List.getElem_zip]
            exact hmade
      · rintro ⟨entry, hentry, made, hmade, hcontains⟩
        exact .list (List.mem_filterMap.mpr ⟨entry.2, (List.of_mem_zip hentry).2, hmade⟩) hcontains

section
variable {policy : GraphPolicy ν α} {library : GraphLibrary ν α} {heap : Heap ν α}
  {root : Value ν α} {shows : Sanitized α} {leaf : α}

/-- What is shown of a payload contains the kept leaves. -/
theorem contains_of_under (hshows : Shows policy library heap [] root (some shows))
    {path : List String} {enclosing : List ν}
    (hunder : Under policy library heap root path enclosing (.scalar leaf))
    (hkeep : policy.action library path (.scalar leaf) = .keep) : Contains shows leaf := by
  have hplace : ∀ {path : List String} {enclosing : List ν} {value : Value ν α},
      Under policy library heap root path enclosing value →
      ∃ result, Shows policy library heap path value result ∧
        ∀ made, result = some made → Contains made leaf → Contains shows leaf := by
    intro path enclosing value hunder
    induction hunder with
    | root =>
        refine ⟨some shows, hshows, fun made hmade hcontains => ?_⟩
        cases hmade
        exact hcontains
    | item _ hkeep hitem ih =>
        obtain ⟨result, hresult, hwithin⟩ := ih
        cases hresult with
        | mask hmask =>
            rw [hkeep] at hmask
            cases hmask
        | drop hdrop =>
            rw [hkeep] at hdrop
            cases hdrop
        | container _ hlength hall =>
            obtain ⟨result, hmem⟩ := exists_mem_zip hlength hitem
            refine ⟨result, hall _ hmem, fun made hmade hcontains => hwithin _ rfl ?_⟩
            exact (contains_shown_iff hlength).mpr ⟨_, hmem, made, hmade, hcontains⟩
  obtain ⟨result, hresult, hwithin⟩ := hplace hunder
  cases hresult with
  | mask hmask =>
      rw [hkeep] at hmask
      cases hmask
  | drop hdrop =>
      rw [hkeep] at hdrop
      cases hdrop
  | scalar _ => exact hwithin _ rfl .scalar

/-- It contains no others. -/
theorem under_of_contains {path : List String} {enclosing : List ν} {value : Value ν α}
    {result : Option (Sanitized α)} (hshows : Shows policy library heap path value result)
    (hunder : Under policy library heap root path enclosing value) {made : Sanitized α}
    (hmade : result = some made) (hcontains : Contains made leaf) :
    ∃ path enclosing, Under policy library heap root path enclosing (.scalar leaf) ∧
      policy.action library path (.scalar leaf) = .keep := by
  induction hshows generalizing enclosing made with
  | mask hmask =>
      cases hmade
      cases hcontains
  | drop hdrop => cases hmade
  | scalar hkeep =>
      cases hmade
      cases hcontains
      exact ⟨_, _, hunder, hkeep⟩
  | container hkeep hlength _ ih =>
      cases hmade
      obtain ⟨entry, hentry, inner, hinner, hleaf⟩ := (contains_shown_iff hlength).mp hcontains
      exact ih entry hentry (hunder.item hkeep (List.of_mem_zip hentry).1) hinner hleaf

end

/-- Sanitizing ends.  It returns what the payload shows, leaf by leaf, where no kept container is in
itself and none is too deep, and fails for one of these otherwise. -/
theorem sanitize_outcome [DecidableEq ν] {policy : GraphPolicy ν α} {library : GraphLibrary ν α}
    (hactions : KeepsMasksDrops policy library) (heap : Heap ν α) (root : Value ν α) :
    (∃ result, policy.sanitize library heap root = .ok result ∧
      Shows policy library heap [] root result ∧ ¬NestsItself policy library heap root ∧
      ¬TooDeep policy library heap root ∧ ∀ shows, result = some shows → ∀ leaf,
        (Contains shows leaf ↔ ∃ path enclosing,
          Under policy library heap root path enclosing (.scalar leaf) ∧
            policy.action library path (.scalar leaf) = .keep)) ∨
    (policy.sanitize library heap root = .error cycleError ∧
      NestsItself policy library heap root) ∨
    (policy.sanitize library heap root = .error depthError ∧ TooDeep policy library heap root) := by
  have houtcome : Ends (Shows policy library heap [] root) (Fails policy library heap root) []
      (policy.sanitizeAt library heap root [] [] 0) := sanitizeAt_outcome hactions .root
  unfold sanitize
  split
  · next error herror =>
      rcases houtcome.error herror with ⟨rfl, hnests⟩ | ⟨rfl, hdeep⟩
      · exact .inr (.inl ⟨rfl, hnests⟩)
      · exact .inr (.inr ⟨rfl, hdeep⟩)
  · next result after hok =>
      obtain ⟨-, hshows⟩ := houtcome.ok hok
      refine .inl ⟨result, rfl, hshows, ?_, ?_, ?_⟩
      · rintro ⟨path, enclosing, id, hunder, hkeep, hnested⟩
        obtain ⟨made, hmade⟩ := sanitizeAt_under hactions hok hunder
        unfold sanitizeAt at hmade
        split at hmade
        · cases hmade
        · rw [hkeep] at hmade
          dsimp only at hmade
          rw [sanitizeObject_nested _ hnested] at hmade
          cases hmade
      · rintro ⟨path, enclosing, value, hunder, hdeep⟩
        obtain ⟨made, hmade⟩ := sanitizeAt_under hactions hok hunder
        unfold sanitizeAt at hmade
        rw [if_pos hdeep] at hmade
        cases hmade
      · rintro shows rfl leaf
        constructor
        · exact under_of_contains hshows .root rfl
        · rintro ⟨path, enclosing, hunder, hkeep⟩
          exact contains_of_under hshows hunder hkeep

/-! ## Samples -/

/-- Texts in lower case stay. -/
def plainLibrary : GraphLibrary Bool String where
  lower text := text
  length_le _ := Nat.le_refl _
  lower_lower _ := rfl
  reprText text := text
  repr _ := ""
  hmacSha256 _ _ := ""

/-- A policy that drops one field. -/
def dropsSecret : GraphPolicy Bool String where
  fieldActions := [("b.0", .drop)]

/-- A mapping with one list at two places. -/
def sharedList : Heap Bool String
  | true => .mapping [("a", .object false), ("b", .object false)] (by decide)
  | false => .sequence false [.scalar "x", .scalar "y"]

theorem action_dropsSecret (path : List String) (value : Value Bool String) :
    dropsSecret.action plainLibrary path value =
      if dotted path = "b.0" then .drop else .keep := by
  by_cases hpath : dotted path = "b.0"
  · have hfound : dropsSecret.fieldActions.lookup (plainLibrary.lower (dotted path)) =
        some .drop := by
      show [("b.0", AuditAction.drop)].lookup (dotted path) = some .drop
      rw [hpath]
      rfl
    rw [if_pos hpath, ValuePolicy.action, hfound]
  · have hmissing : dropsSecret.fieldActions.lookup (plainLibrary.lower (dotted path)) = none := by
      show [("b.0", AuditAction.drop)].lookup (dotted path) = none
      rw [List.lookup_cons, beq_eq_false_iff_ne.mpr hpath]
      rfl
    rw [if_neg hpath, ValuePolicy.action, hmissing]
    rfl

theorem keepsMasksDrops_dropsSecret : KeepsMasksDrops dropsSecret plainLibrary := by
  intro path value
  rw [action_dropsSecret]
  split
  · decide
  · decide

/-- The list is sanitized at both places, under the path of each. -/
theorem sanitize_sharedList :
    (dropsSecret.sanitize plainLibrary sharedList (.object true) =
      .ok (some (.dict [("a", .list [.scalar "x", .scalar "y"]), ("b", .list [.scalar "y"])]))) ∧
    ¬NestsItself dropsSecret plainLibrary sharedList (.object true) := by
  have hok : dropsSecret.sanitize plainLibrary sharedList (.object true) =
      .ok (some (.dict [("a", .list [.scalar "x", .scalar "y"]), ("b", .list [.scalar "y"])])) := by
    have hkeep : ∀ path ∈ [[], ["a"], ["b"], ["a", "0"], ["a", "1"], ["b", "1"]],
        ¬dotted path = "b.0" := by decide
    have hdrop : dotted ["b", "0"] = "b.0" := by decide
    simp only [List.forall_mem_cons, List.not_mem_nil, false_implies, implies_true,
      and_true] at hkeep
    have hdepth : dropsSecret.maxDepth = 32 := rfl
    have hzero : Nat.repr 0 = "0" := rfl
    have hone : Nat.repr 1 = "1" := rfl
    simp [sanitize, sanitizeAt, sanitizeObject, sanitizeMapping, sanitizeSequence, sharedList,
      action_dropsSecret, hkeep, hdrop, hdepth, hzero, hone, setItem]
  refine ⟨hok, ?_⟩
  rcases sanitize_outcome keepsMasksDrops_dropsSecret sharedList (.object true) with
    ⟨_, -, -, hnests, -, -⟩ | ⟨herror, -⟩ | ⟨herror, -⟩
  · exact hnests
  · rw [hok] at herror
    cases herror
  · rw [hok] at herror
    cases herror

end GraphPolicy

end ProdkitStorage.Security
