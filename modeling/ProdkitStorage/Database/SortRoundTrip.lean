import ProdkitStorage.Database.Sorting

/-!
# Public sort strings

`SortPlan.external_values` writes the terms of a plan as strings and
`SortRegistry.parse` reads strings as a plan.  A string has the field and the
direction of its term.  The null placement is not in it, so a term is read with
that of its field, and a field name is read as it is only where `SortTerm.parse`
takes nothing off its ends.

The tie-breaker is written like any other term, so it is there when the strings
are read and none is appended.
-/

namespace ProdkitStorage.Database

open ProdkitStorage.Foundation
open ProdkitStorage.Python

variable {Env Row : Type}

/-! ## One term -/

/-- The names that are read from the string of a term as they are. -/
def PlainName (direction : SortDirection) (name : String) : Prop :=
  (∀ c ∈ name.toList.getLast?, isSpace c = false) ∧
    (direction = .asc → ∀ c ∈ name.toList.head?, isSpace c = false ∧ c ≠ '-' ∧ c ≠ '+')

theorem toList_strip (value : String) : (strip value).toList = stripChars value.toList :=
  String.toList_ofList

/-- What `SortTerm.parse` reads from the first character that is no space and the rest. -/
theorem SortTerm.parse_ok {value : String} {term : SortTerm} :
    SortTerm.parse value = .ok term ↔
      ∃ c cs, stripChars value.toList = c :: cs ∧ term.field ≠ "" ∧
        term = { field := String.ofList (if c = '-' ∨ c = '+' then cs else c :: cs)
                 direction := if c = '-' then .desc else .asc } := by
  unfold SortTerm.parse
  rw [toList_strip]
  cases stripChars value.toList with
  | nil => simp
  | cons c cs =>
      by_cases hnone : (if c = '-' ∨ c = '+' then cs else c :: cs) = []
      · constructor
        · simp [hnone]
        · rintro ⟨_, _, heq, hfield, rfl⟩
          obtain ⟨rfl, rfl⟩ := List.cons.inj heq
          exact absurd (congrArg String.ofList hnone) hfield
      · simp only [if_neg hnone, Except.ok.injEq]
        constructor
        · rintro rfl
          exact ⟨c, cs, rfl, by simpa using hnone, rfl⟩
        · rintro ⟨_, _, heq, -, rfl⟩
          obtain ⟨rfl, rfl⟩ := List.cons.inj heq
          rfl

/-- A descending term is read back unless its name ends with a space. -/
theorem parse_externalValue_desc {name : String} (hname : name ≠ "")
    {nulls : Option NullPlacement} :
    SortTerm.parse (SortTerm.externalValue ⟨name, .desc, nulls⟩) = .ok ⟨name, .desc, none⟩ ↔
      PlainName .desc name := by
  have hchars : stripChars (SortTerm.externalValue ⟨name, .desc, nulls⟩).toList =
      '-' :: name.toList.rdropWhile isSpace := by
    rw [SortTerm.externalValue, String.toList_append]
    exact stripChars_cons (by decide) name.toList
  rw [SortTerm.parse_ok, hchars, PlainName, ← rdropWhile_isSpace_iff]
  constructor
  · rintro ⟨c, cs, heq, -, hterm⟩
    obtain ⟨rfl, rfl⟩ := List.cons.inj heq
    refine ⟨?_, fun h => by cases h⟩
    have hfield := congrArg (fun term => term.field.toList) hterm
    simpa using hfield.symm
  · rintro ⟨hlast, -⟩
    exact ⟨_, _, rfl, hname, by simp [hlast]⟩

/-- An ascending term is read back unless its name starts with a sign or a space, or ends with
a space. -/
theorem parse_externalValue_asc {name : String} (hname : name ≠ "")
    {nulls : Option NullPlacement} :
    SortTerm.parse (SortTerm.externalValue ⟨name, .asc, nulls⟩) = .ok ⟨name, .asc, none⟩ ↔
      PlainName .asc name := by
  obtain ⟨c, cs, hcs⟩ : ∃ c cs, name.toList = c :: cs := by
    cases hlist : name.toList with
    | nil => exact absurd (String.toList_eq_nil_iff.mp hlist) hname
    | cons c cs => exact ⟨c, cs, rfl⟩
  rw [SortTerm.parse_ok, SortTerm.externalValue, PlainName, ← rdropWhile_isSpace_iff, hcs]
  constructor
  · rintro ⟨d, ds, hstrip, -, hterm⟩
    have hminus : d ≠ '-' := by
      rintro rfl
      exact absurd (congrArg SortTerm.direction hterm) (by simp)
    have hfield := congrArg (fun term => term.field.toList) hterm
    simp only [hcs, hminus, false_or, String.toList_ofList] at hfield
    have hspace : isSpace c = false := by
      rw [← Bool.not_eq_true]
      intro hspace
      have hshorter := length_stripChars_lt hspace cs
      rw [hstrip, hfield] at hshorter
      split at hshorter <;> simp at hshorter
    rw [stripChars_cons hspace] at hstrip
    obtain ⟨rfl, rfl⟩ := List.cons.inj hstrip
    have hplus : c ≠ '+' := by
      rintro rfl
      have hlength := congrArg List.length hfield
      have hshorter := (List.rdropWhile_prefix isSpace cs).length_le
      simp at hlength
      omega
    rw [if_neg hplus] at hfield
    refine ⟨?_, fun _ d hd => ?_⟩
    · rw [rdropWhile_isSpace_cons hspace, ← hfield]
    · obtain rfl := Option.some.inj hd
      exact ⟨hspace, hminus, hplus⟩
  · rintro ⟨hlast, hhead⟩
    obtain ⟨hspace, hminus, hplus⟩ := hhead rfl c rfl
    rw [rdropWhile_isSpace_cons hspace] at hlast
    refine ⟨_, _, (stripChars_cons hspace cs).trans hlast, hname, ?_⟩
    simp [hminus, hplus, ← hcs]

/-- A term is read back as it was, but for its null placement, exactly if its name is plain. -/
theorem parse_externalValue_iff {name : String} (hname : name ≠ "") {direction : SortDirection}
    {nulls : Option NullPlacement} :
    SortTerm.parse (SortTerm.externalValue ⟨name, direction, nulls⟩) =
        .ok ⟨name, direction, none⟩ ↔
      PlainName direction name := by
  cases direction with
  | asc => exact parse_externalValue_asc hname
  | desc => exact parse_externalValue_desc hname

/-! ## Resolving terms -/

/-- A resolved term is the term with its field. -/
def Resolves (fields : List (String × SortField Env Row)) (term : SortTerm)
    (r : ResolvedSortTerm Env Row) : Prop :=
  requireField fields term.field = .ok r.field ∧ r.direction = term.direction ∧
    r.nulls = term.nulls.getD r.field.defaultNulls

/-- Terms are resolved one by one, if no field is there twice. -/
theorem resolveTerms_ok {fields : List (String × SortField Env Row)} {seen : List String}
    {terms : List SortTerm} {resolved : List (ResolvedSortTerm Env Row)} :
    resolveTerms fields seen terms = .ok resolved ↔
      List.Forall₂ (Resolves fields) terms resolved ∧ (terms.map SortTerm.field).Nodup ∧
        ∀ term ∈ terms, term.field ∉ seen := by
  induction terms generalizing seen resolved with
  | nil =>
      cases resolved with
      | nil => simp [resolveTerms]
      | cons r resolved => simp [resolveTerms]
  | cons term terms ih =>
      unfold resolveTerms
      split
      · next hseen =>
          constructor
          · intro h
            cases h
          · rintro ⟨-, -, hnew⟩
            exact absurd hseen (hnew term List.mem_cons_self)
      · next hnew =>
          simp only [bind_eq_ok]
          constructor
          · rintro ⟨field, hfield, rest, hrest, h⟩
            obtain rfl := Except.ok.inj h
            obtain ⟨hresolves, hdistinct, hunseen⟩ := ih.mp hrest
            refine ⟨.cons ⟨hfield, rfl, rfl⟩ hresolves, ?_, ?_⟩
            · rw [List.map_cons, List.nodup_cons]
              refine ⟨fun hmem => ?_, hdistinct⟩
              obtain ⟨other, hother, heq⟩ := List.mem_map.mp hmem
              exact hunseen other hother (heq ▸ List.mem_cons_self)
            · intro other hother
              rcases List.mem_cons.mp hother with rfl | hother
              · exact hnew
              · exact fun hmem => hunseen other hother (List.mem_cons_of_mem _ hmem)
          · rintro ⟨hresolves, hdistinct, hunseen⟩
            rw [List.map_cons, List.nodup_cons] at hdistinct
            cases hresolves with
            | @cons _ r _ rest hhead htail =>
                obtain ⟨hfield, hdirection, hnulls⟩ := hhead
                refine ⟨r.field, hfield, rest, ih.mpr ⟨htail, hdistinct.2, ?_⟩, ?_⟩
                · intro other hother hmem
                  rcases List.mem_cons.mp hmem with heq | hmem
                  · exact hdistinct.1 (heq ▸ List.mem_map_of_mem hother)
                  · exact hunseen other (List.mem_cons_of_mem _ hother) hmem
                · rw [← hdirection, ← hnulls]
                  rfl

/-- What holds of all elements of a list carries over along a relation of the two lists. -/
theorem forall_mem_of_forall₂ {α β : Type} {R : α → β → Prop} {P : α → Prop} {Q : β → Prop}
    (himp : ∀ a b, P a → R a b → Q b) {as : List α} {bs : List β} (h : List.Forall₂ R as bs)
    (has : ∀ a ∈ as, P a) : ∀ b ∈ bs, Q b := by
  induction h with
  | nil => simp
  | cons hhead _ ih =>
      rw [List.forall_mem_cons] at has ⊢
      exact ⟨himp _ _ has.1 hhead, ih has.2⟩

/-! ## Plans -/

theorem publicName_ne (field : SortField Env Row) : field.name ≠ "" := by
  intro h
  have hpublic := field.name_public
  rw [h] at hpublic
  exact absurd hpublic (by decide)

namespace SortRegistry

/-- Every field has the name it is registered under. -/
def Named (registry : SortRegistry Env Row) : Prop :=
  ∀ entry ∈ registry.fields, entry.2.name = entry.1

/-- The terms a plan is asked for. -/
def requested (registry : SortRegistry Env Row) : Option SortValues → Except PyError (List SortTerm)
  | none => .ok registry.default
  | some values => if values.raw = [] then .ok registry.default else values.raw.mapM SortTerm.parse

/-- The direction of a tie-breaker that was not asked for. -/
def tieDirection (registry : SortRegistry Env Row) (terms : List SortTerm) : SortDirection :=
  match registry.tieBreakerWasString, terms.getLast? with
  | true, some last => last.direction
  | _, _ => registry.tieBreaker.direction

/-- The terms a plan is asked for, with the tie-breaker. -/
def completed (registry : SortRegistry Env Row) (terms : List SortTerm) : List SortTerm :=
  if registry.tieBreaker.field ∈ terms.map SortTerm.field then terms
  else terms ++ [{ registry.tieBreaker with direction := registry.tieDirection terms }]

theorem normalizeField_ok {entry : String × FieldSpec Env Row} {named : String × SortField Env Row}
    (h : normalizeField entry = .ok named) : named.2.name = named.1 := by
  obtain ⟨fieldName, spec⟩ := entry
  obtain ⟨normalized, h⟩ : ∃ normalized : SortField Env Row,
      (if normalized.name ≠ fieldName then
        .error (PyError.valueError "sort field mapping key must match SortField.name")
      else .ok (fieldName, normalized)) = Except.ok named := by
    cases spec with
    | field field => exact ⟨field, h⟩
    | column expression =>
        obtain ⟨normalized, -, h⟩ := bind_eq_ok.mp h
        exact ⟨normalized, h⟩
  split at h
  · cases h
  · next hname =>
      obtain rfl := Except.ok.inj h
      exact not_not.mp hname

theorem named_of_make {lib : Primitives} {fields : List (String × FieldSpec Env Row)}
    {default : List SortCriterion} {tieBreaker : SortCriterion} {name : String}
    {registry : SortRegistry Env Row} (h : make lib fields default tieBreaker name = .ok registry) :
    registry.Named := by
  unfold make at h
  dsimp only at h
  split at h
  · cases h
  · obtain ⟨entries, hentries, h⟩ := bind_eq_ok.mp h
    obtain ⟨terms, -, h⟩ := bind_eq_ok.mp h
    split at h
    · cases h
    · obtain ⟨tie, -, h⟩ := bind_eq_ok.mp h
      split at h
      · cases h
      · split at h
        · cases h
        · split at h
          · obtain ⟨-, -, h⟩ := bind_eq_ok.mp h
            obtain rfl := Except.ok.inj h
            exact forall_mem_of_forall₂ (P := fun _ => True) (fun _ _ _ h => normalizeField_ok h)
              (mapM_eq_ok.mp hentries) fun _ _ => trivial
          · cases h

theorem parse_eq (lib : Primitives) (registry : SortRegistry Env Row) (values : Option SortValues) :
    registry.parse lib values =
      registry.requested values >>= fun terms => registry.resolve lib (terms.map .term) := by
  cases values with
  | none => rfl
  | some values =>
      simp only [parse, requested]
      split
      · rfl
      · rfl

theorem requested_ne {registry : SortRegistry Env Row} {values : Option SortValues}
    {terms : List SortTerm} (h : registry.requested values = .ok terms) : terms ≠ [] := by
  cases values with
  | none =>
      obtain rfl := Except.ok.inj h
      exact registry.default_ne
  | some values =>
      simp only [requested] at h
      split at h
      · obtain rfl := Except.ok.inj h
        exact registry.default_ne
      · next hraw =>
          rintro rfl
          exact hraw (List.eq_nil_of_length_eq_zero (mapM_eq_ok.mp h).length_eq)

/-- A plan of terms is these terms, with the tie-breaker, resolved. -/
theorem resolve_ok {lib : Primitives} {registry : SortRegistry Env Row} {terms : List SortTerm}
    (hne : terms ≠ []) {plan : SortPlan Env Row} :
    registry.resolve lib (terms.map .term) = .ok plan ↔
      registry.completeTerms terms = .ok plan.terms ∧
        plan.fingerprint = fingerprintOf lib (fingerprintPayload registry.name plan.keys) := by
  have hnormalized : (terms.map SortCriterion.term).mapM normalizeTerm = .ok terms := by
    rw [mapM_eq_ok, List.forall₂_map_left_iff, List.forall₂_same]
    exact fun term _ => rfl
  unfold resolve
  rw [hnormalized, ok_bind, if_neg hne, bind_eq_ok]
  constructor
  · rintro ⟨resolved, hresolved, h⟩
    obtain rfl := Except.ok.inj h
    exact ⟨hresolved, rfl⟩
  · rintro ⟨hresolved, hfingerprint⟩
    exact ⟨plan.terms, hresolved, congrArg Except.ok (by cases plan; simp_all [SortPlan.keys])⟩

/-- The terms that are asked for, completed, with the fingerprint of what they come to. -/
theorem parse_ok {lib : Primitives} {registry : SortRegistry Env Row} {values : Option SortValues}
    {terms : List SortTerm} {plan : SortPlan Env Row}
    (hterms : registry.requested values = .ok terms)
    (hcomplete : registry.completeTerms terms = .ok plan.terms)
    (hfingerprint :
      plan.fingerprint = fingerprintOf lib (fingerprintPayload registry.name plan.keys)) :
    registry.parse lib values = .ok plan := by
  rw [parse_eq]
  exact bind_eq_ok.mpr ⟨terms, hterms, (resolve_ok (requested_ne hterms)).mpr
    ⟨hcomplete, hfingerprint⟩⟩

theorem mem_of_requireField {fields : List (String × SortField Env Row)} {name : String}
    {field : SortField Env Row} (h : requireField fields name = .ok field) :
    (name, field) ∈ fields := by
  unfold requireField at h
  split at h
  · next found hlookup =>
      obtain rfl := Except.ok.inj h
      obtain ⟨before, after, hsplit, -⟩ := List.lookup_eq_some_iff.mp hlookup
      rw [hsplit]
      exact List.mem_append_right _ List.mem_cons_self
  · cases h

theorem Named.name_eq {registry : SortRegistry Env Row} (h : registry.Named) {name : String}
    {field : SortField Env Row} (hfield : requireField registry.fields name = .ok field) :
    field.name = name :=
  h (name, field) (mem_of_requireField hfield)

/-- The fields of resolved terms have the names of the terms. -/
theorem Named.names_eq {registry : SortRegistry Env Row} (h : registry.Named)
    {terms : List SortTerm} {resolved : List (ResolvedSortTerm Env Row)}
    (hresolves : List.Forall₂ (Resolves registry.fields) terms resolved) :
    resolved.map (fun r => r.field.name) = terms.map SortTerm.field := by
  induction hresolves with
  | nil => rfl
  | cons hhead _ ih => rw [List.map_cons, List.map_cons, ih, h.name_eq hhead.1]

/-- The field of a resolved term is found under its name. -/
theorem Named.found {registry : SortRegistry Env Row} (h : registry.Named)
    {terms : List SortTerm} {resolved : List (ResolvedSortTerm Env Row)}
    (hresolves : List.Forall₂ (Resolves registry.fields) terms resolved) :
    ∀ r ∈ resolved, requireField registry.fields r.field.name = .ok r.field := by
  refine forall_mem_of_forall₂ (P := fun _ => True) ?_ hresolves fun _ _ => trivial
  rintro term r - ⟨hfield, -, -⟩
  rw [h.name_eq hfield]
  exact hfield

/-- The last resolved term has the direction of the last term. -/
theorem tieDirection_resolved {registry : SortRegistry Env Row} {terms : List SortTerm}
    {resolved : List (ResolvedSortTerm Env Row)}
    (h : List.Forall₂ (Resolves registry.fields) terms resolved) :
    (match registry.tieBreakerWasString, resolved.getLast? with
      | true, some last => last.direction
      | _, _ => registry.tieBreaker.direction) = registry.tieDirection terms := by
  have hlast : resolved.getLast?.map ResolvedSortTerm.direction =
      terms.getLast?.map SortTerm.direction := by
    rw [← List.getLast?_map, ← List.getLast?_map]
    congr 1
    induction h with
    | nil => rfl
    | cons hhead _ ih => rw [List.map_cons, List.map_cons, ih, hhead.2.1]
  unfold tieDirection
  cases registry.tieBreakerWasString with
  | false => rfl
  | true =>
      cases hr : resolved.getLast? with
      | none =>
          cases ht : terms.getLast? with
          | none => rfl
          | some term =>
              rw [hr, ht] at hlast
              cases hlast
      | some r =>
          cases ht : terms.getLast? with
          | none =>
              rw [hr, ht] at hlast
              cases hlast
          | some term =>
              rw [hr, ht] at hlast
              exact Option.some.inj hlast

/-- The terms of a plan, resolved. -/
theorem completeTerms_ok {registry : SortRegistry Env Row} {terms : List SortTerm}
    {resolved : List (ResolvedSortTerm Env Row)} (h : registry.completeTerms terms = .ok resolved) :
    List.Forall₂ (Resolves registry.fields) (registry.completed terms) resolved ∧
      ((registry.completed terms).map SortTerm.field).Nodup := by
  obtain ⟨asked, hasked, h⟩ := bind_eq_ok.mp h
  obtain ⟨hresolves, hdistinct, -⟩ := resolveTerms_ok.mp hasked
  unfold completed
  split at h
  · next htie =>
      obtain rfl := Except.ok.inj h
      rw [if_pos htie]
      exact ⟨hresolves, hdistinct⟩
  · next htie =>
      obtain ⟨field, hfield, h⟩ := bind_eq_ok.mp h
      obtain rfl := Except.ok.inj h
      rw [if_neg htie]
      constructor
      · refine List.rel_append hresolves (.cons ⟨hfield, ?_, rfl⟩ .nil)
        exact tieDirection_resolved hresolves
      · rw [List.map_append, List.nodup_append]
        refine ⟨hdistinct, by simp, ?_⟩
        rintro name hname other hother rfl
        rw [List.map_cons, List.map_nil, List.mem_singleton] at hother
        exact htie (hother ▸ hname)

/-- Terms with the tie-breaker among them are complete. -/
theorem completeTerms_of_tie {registry : SortRegistry Env Row} {terms : List SortTerm}
    {resolved : List (ResolvedSortTerm Env Row)}
    (hresolves : List.Forall₂ (Resolves registry.fields) terms resolved)
    (hdistinct : (terms.map SortTerm.field).Nodup)
    (htie : registry.tieBreaker.field ∈ terms.map SortTerm.field) :
    registry.completeTerms terms = .ok resolved := by
  have hasked : resolveTerms registry.fields [] terms = .ok resolved :=
    resolveTerms_ok.mpr ⟨hresolves, hdistinct, fun _ _ => List.not_mem_nil⟩
  unfold completeTerms
  rw [hasked, ok_bind, if_pos htie]
  rfl

theorem tie_mem_completed (registry : SortRegistry Env Row) (terms : List SortTerm) :
    registry.tieBreaker.field ∈ (registry.completed terms).map SortTerm.field := by
  unfold completed
  split
  · next htie => exact htie
  · simp

/-! ## Reading the strings of a plan -/

/-- A term is read back from its string as it was: its name is plain, and it has no null placement
of its own or that of its field. -/
def ReadBack (registry : SortRegistry Env Row) (term : SortTerm) : Prop :=
  PlainName term.direction term.field ∧
    ∀ field, requireField registry.fields term.field = .ok field →
      term.nulls.getD field.defaultNulls = field.defaultNulls

/-- Every resolved term is read back, said of its field. -/
theorem readBack_iff {registry : SortRegistry Env Row} (hnamed : registry.Named)
    {terms : List SortTerm} {resolved : List (ResolvedSortTerm Env Row)}
    (h : List.Forall₂ (Resolves registry.fields) terms resolved) :
    (∀ term ∈ terms, registry.ReadBack term) ↔
      ∀ r ∈ resolved, PlainName r.direction r.field.name ∧ r.nulls = r.field.defaultNulls := by
  induction h with
  | nil => simp
  | @cons term r _ _ hhead _ ih =>
      obtain ⟨hfield, hdirection, hnulls⟩ := hhead
      have hname := hnamed.name_eq hfield
      have hone : registry.ReadBack term ↔
          PlainName r.direction r.field.name ∧ r.nulls = r.field.defaultNulls := by
        rw [ReadBack, hname, hdirection, hnulls]
        refine and_congr_right fun _ => ⟨fun h => h _ hfield, fun h field hfield' => ?_⟩
        obtain rfl := Except.ok.inj (hfield.symm.trans hfield')
        exact h
      rw [List.forall_mem_cons, List.forall_mem_cons, hone, ih]

/-- What two lists of one length related in both directions say of each element. -/
theorem forall_of_forall₂ {α β : Type} {R : α → β → Prop} {S : β → α → Prop} {P : α → Prop}
    (himp : ∀ a b, R a b → S b a → P a) {as : List α} {bs : List β} (hr : List.Forall₂ R as bs)
    (hs : List.Forall₂ S bs as) : ∀ a ∈ as, P a := by
  induction hr with
  | nil => simp
  | @cons a b _ _ hhead _ ih =>
      cases hs with
      | cons hback htail =>
          rw [List.forall_mem_cons]
          exact ⟨himp a b hhead hback, ih htail⟩

/-- The terms that are read from the strings of a plan have its terms if they are resolved to
them. -/
theorem reread_of_parse {lib : Primitives} {registry : SortRegistry Env Row}
    (hnamed : registry.Named) {plan : SortPlan Env Row} (hne : plan.terms ≠ [])
    (h : registry.parse lib (some (.items plan.externalValues)) = .ok plan) :
    ∀ r ∈ plan.terms, PlainName r.direction r.field.name ∧ r.nulls = r.field.defaultNulls := by
  rw [parse_eq] at h
  obtain ⟨terms, hterms, h⟩ := bind_eq_ok.mp h
  have hcomplete := ((resolve_ok (requested_ne hterms)).mp h).1
  obtain ⟨hresolves, -⟩ := completeTerms_ok hcomplete
  have hraw : plan.externalValues ≠ [] := by simpa [SortPlan.externalValues] using hne
  rw [requested, SortValues.raw, if_neg hraw, mapM_eq_ok, SortPlan.externalValues,
    List.forall₂_map_left_iff] at hterms
  -- As many terms were read as the plan has, so the tie-breaker was among them.
  have hcompleted : registry.completed terms = terms := by
    have hlength := hresolves.length_eq
    rw [hterms.length_eq] at hlength
    unfold completed at hlength ⊢
    split at hlength
    · next htie => rw [if_pos htie]
    · rw [List.length_append, List.length_singleton] at hlength
      omega
  rw [hcompleted] at hresolves
  refine forall_of_forall₂ ?_ hterms hresolves
  rintro r term hparse ⟨hfield, hdirection, hnulls⟩
  have hname := hnamed.name_eq hfield
  have hnone : term.nulls = none := by
    obtain ⟨c, cs, -, -, rfl⟩ := SortTerm.parse_ok.mp hparse
    rfl
  have hterm : term = ⟨r.field.name, r.direction, none⟩ := by
    rw [hname, hdirection, ← hnone]
  rw [hterm] at hparse
  refine ⟨(parse_externalValue_iff (publicName_ne r.field)).mp hparse, ?_⟩
  rw [hnulls, hnone, Option.getD_none]

/-- The strings of a plan whose terms are read back as they were are read as the plan. -/
theorem parse_of_reread {lib : Primitives} {registry : SortRegistry Env Row}
    {terms : List SortTerm} {plan : SortPlan Env Row} (hnamed : registry.Named)
    (hcomplete : registry.completeTerms terms = .ok plan.terms)
    (hfingerprint : plan.fingerprint =
      fingerprintOf lib (fingerprintPayload registry.name plan.keys))
    (h : ∀ r ∈ plan.terms, PlainName r.direction r.field.name ∧ r.nulls = r.field.defaultNulls) :
    registry.parse lib (some (.items plan.externalValues)) = .ok plan := by
  obtain ⟨hresolves, hdistinct⟩ := completeTerms_ok hcomplete
  let written := plan.terms.map fun r => SortTerm.mk r.field.name r.direction none
  have hfields : written.map SortTerm.field = (registry.completed terms).map SortTerm.field := by
    rw [List.map_map]
    exact hnamed.names_eq hresolves
  have hne : written ≠ [] := by
    intro hnil
    have htie := registry.tie_mem_completed terms
    rw [← hfields, hnil] at htie
    cases htie
  have hraw : plan.externalValues ≠ [] := by
    simpa [SortPlan.externalValues, written] using hne
  have hread : plan.externalValues.mapM SortTerm.parse = .ok written := by
    rw [mapM_eq_ok, SortPlan.externalValues, List.forall₂_map_left_iff,
      List.forall₂_map_right_iff, List.forall₂_same]
    exact fun r hr => (parse_externalValue_iff (publicName_ne r.field)).mpr (h r hr).1
  have hfound : List.Forall₂ (Resolves registry.fields) written plan.terms := by
    rw [List.forall₂_map_left_iff, List.forall₂_same]
    exact fun r hr => ⟨hnamed.found hresolves r hr, rfl, (h r hr).2⟩
  rw [parse_eq, requested, SortValues.raw, if_neg hraw, hread, ok_bind, resolve_ok hne]
  refine ⟨completeTerms_of_tie hfound (hfields ▸ hdistinct) ?_, hfingerprint⟩
  rw [hfields]
  exact registry.tie_mem_completed terms

/-- Terms of public strings have no null placement, nor have the default terms of a registry that
gives them none. -/
theorem nulls_of_requested {registry : SortRegistry Env Row} {values : Option SortValues}
    {terms : List SortTerm} (hdefault : ∀ term ∈ registry.default, term.nulls = none)
    (h : registry.requested values = .ok terms) : ∀ term ∈ terms, term.nulls = none := by
  cases values with
  | none =>
      obtain rfl := Except.ok.inj h
      exact hdefault
  | some values =>
      simp only [requested] at h
      split at h
      · obtain rfl := Except.ok.inj h
        exact hdefault
      · refine forall_mem_of_forall₂ (P := fun _ => True) ?_ (mapM_eq_ok.mp h) fun _ _ => trivial
        intro value term _ hparse
        obtain ⟨_, _, -, -, rfl⟩ := SortTerm.parse_ok.mp hparse
        rfl

/-- Every plan is read back from its strings where no term of the registry has a null placement of
its own and the names of the fields are plain. -/
theorem parse_externalValues {lib : Primitives} {registry : SortRegistry Env Row}
    (hnamed : registry.Named)
    (hplain : ∀ entry ∈ registry.fields, ∀ direction, PlainName direction entry.2.name)
    (hdefault : ∀ term ∈ registry.default, term.nulls = none)
    (htie : registry.tieBreaker.nulls = none) {values : Option SortValues}
    {plan : SortPlan Env Row} (hplan : registry.parse lib values = .ok plan) :
    registry.parse lib (some (.items plan.externalValues)) = .ok plan := by
  rw [parse_eq] at hplan
  obtain ⟨terms, hterms, hplan⟩ := bind_eq_ok.mp hplan
  obtain ⟨hcomplete, hfingerprint⟩ := (resolve_ok (requested_ne hterms)).mp hplan
  obtain ⟨hresolves, -⟩ := completeTerms_ok hcomplete
  have hnulls : ∀ term ∈ registry.completed terms, term.nulls = none := by
    have hasked := nulls_of_requested hdefault hterms
    unfold completed
    split
    · exact hasked
    · intro term hterm
      rcases List.mem_append.mp hterm with hterm | hterm
      · exact hasked term hterm
      · obtain rfl := List.mem_singleton.mp hterm
        exact htie
  refine parse_of_reread hnamed hcomplete hfingerprint (forall_mem_of_forall₂ ?_ hresolves hnulls)
  rintro term r hnone ⟨hfield, -, hr⟩
  rw [hnone, Option.getD_none] at hr
  exact ⟨hplain _ (mem_of_requireField hfield) _, hr⟩

end SortRegistry

/-- A plan of a registry is read back from its strings exactly if each of its terms is. -/
theorem external_values_iff {lib : Primitives}
    {fields : List (String × SortRegistry.FieldSpec Env Row)} {default : List SortCriterion}
    {tieBreaker : SortCriterion} {name : String} {registry : SortRegistry Env Row}
    (hmake : SortRegistry.make lib fields default tieBreaker name = .ok registry)
    {values : Option SortRegistry.SortValues} {plan : SortPlan Env Row}
    (hplan : registry.parse lib values = .ok plan) :
    ∃ terms, registry.requested values = .ok terms ∧
      (registry.parse lib (some (.items plan.externalValues)) = .ok plan ↔
        ∀ term ∈ registry.completed terms, registry.ReadBack term) := by
  have hnamed := SortRegistry.named_of_make hmake
  rw [SortRegistry.parse_eq] at hplan
  obtain ⟨terms, hterms, hplan⟩ := bind_eq_ok.mp hplan
  obtain ⟨hcomplete, hfingerprint⟩ :=
    (SortRegistry.resolve_ok (SortRegistry.requested_ne hterms)).mp hplan
  obtain ⟨hresolves, hdistinct⟩ := SortRegistry.completeTerms_ok hcomplete
  have hne : plan.terms ≠ [] := by
    intro hnil
    have htie := registry.tie_mem_completed terms
    rw [hnil, List.forall₂_nil_right_iff] at hresolves
    rw [hresolves] at htie
    cases htie
  refine ⟨terms, hterms, ?_⟩
  rw [SortRegistry.readBack_iff hnamed hresolves]
  exact ⟨SortRegistry.reread_of_parse hnamed hne,
    SortRegistry.parse_of_reread hnamed hcomplete hfingerprint⟩

/-! ## A table of tasks -/

/-- The number that a value of an integer column is, a truth value included. -/
def numberOf : PyValue → Int
  | .int n => n
  | .bool b => if b then 1 else 0
  | _ => 0

/-- The priorities of tasks, some of which have none. -/
def priorityColumn : Column (Option Int × Int) where
  key := some "priority"
  type := .bigInteger
  eval task := task.1.map .int
  compare := compareOn numberOf
  compare_trans := inferInstance

def priorityField : SortField (Option Int × Int) (Option Int × Int) where
  name := "priority"
  expression := priorityColumn
  accessor := some (.callable fun task => .ok (task.1.map .int))
  defaultNulls := .last
  nullable := true
  unique := false
  name_public := by decide

/-- The identifiers of tasks. -/
def taskIdColumn : Column (Option Int × Int) where
  key := some "id"
  type := .bigInteger
  nullable := false
  primaryKey := true
  eval task := some (.int task.2)
  compare := compareOn numberOf
  compare_trans := inferInstance

theorem isPublicName_id : isPublicName "id" = true := by decide

def taskIdField : SortField (Option Int × Int) (Option Int × Int) where
  name := "id"
  expression := taskIdColumn
  accessor := some (.callable fun task => .ok (some (.int task.2)))
  defaultNulls := .last
  nullable := false
  unique := true
  name_public := isPublicName_id

/-- Tasks without a priority come first by default. -/
def taskRegistry : SortRegistry (Option Int × Int) (Option Int × Int) where
  name := "tasks"
  fields := [("priority", priorityField), ("id", taskIdField)]
  default := [⟨"priority", .asc, some .first⟩]
  tieBreaker := { field := "id" }
  tieBreakerWasString := true
  tieField := taskIdField
  default_ne := List.cons_ne_nil _ _
  requireField_tie := rfl
  tie_not_nullable := rfl
  tie_unique := rfl

set_option maxRecDepth 4000 in
/-- The text of the default plan. -/
def defaultTasksText : KnownText where
  value := fingerprintPayload "tasks" [("priority", .asc, .first), ("id", .asc, .last)]
  text := "\x7b\"registry\":\"tasks\",\"terms\":[" ++
    "\x7b\"direction\":\"asc\",\"field\":\"priority\",\"nulls\":\"first\"\x7d," ++
    "\x7b\"direction\":\"asc\",\"field\":\"id\",\"nulls\":\"last\"\x7d]\x7d"
  hexdigest := "8936474318baacb7ba03fda8c4e4d8b0ced71ca2538881478a28bf3c56ab0e52"

set_option maxRecDepth 4000 in
/-- The text of the plan that is read from its strings. -/
def rereadTasksText : KnownText where
  value := fingerprintPayload "tasks" [("priority", .asc, .last), ("id", .asc, .last)]
  text := "\x7b\"registry\":\"tasks\",\"terms\":[" ++
    "\x7b\"direction\":\"asc\",\"field\":\"priority\",\"nulls\":\"last\"\x7d," ++
    "\x7b\"direction\":\"asc\",\"field\":\"id\",\"nulls\":\"last\"\x7d]\x7d"
  hexdigest := "552d6d68fde9e91f8d8b58fbef5bc402869f64af51319b36cbcb993087587710"

set_option maxRecDepth 4000 in
/-- The text of the plan by descending priority. -/
def urgentTasksText : KnownText where
  value := fingerprintPayload "tasks" [("priority", .desc, .last), ("id", .desc, .last)]
  text := "\x7b\"registry\":\"tasks\",\"terms\":[" ++
    "\x7b\"direction\":\"desc\",\"field\":\"priority\",\"nulls\":\"last\"\x7d," ++
    "\x7b\"direction\":\"desc\",\"field\":\"id\",\"nulls\":\"last\"\x7d]\x7d"
  hexdigest := "e2d97acb83819fa67eaa7f8d92398d178864afebca237ecc7daa7061a2e83840"

/-- The library on these texts. -/
def taskLibrary : Primitives :=
  .onTexts [defaultTasksText, rereadTasksText, urgentTasksText] fun value =>
    match value.field "terms" with
    | some (.arr (.obj [(_, .str "asc"), _, (_, .str "first")] :: _)) => defaultTasksText
    | some (.arr (.obj [(_, .str "asc"), _, (_, .str "last")] :: _)) => rereadTasksText
    | _ => urgentTasksText

/-- The fingerprint of a payload with a known text. -/
theorem fingerprintOf_onTexts {known : List KnownText} {select : Json → KnownText} {payload : Json}
    {found : KnownText} (hselect : select payload = found)
    (hfound : (known.find? fun k => k.text = found.text) = some found) :
    fingerprintOf (.onTexts known select) payload = takeStr 24 found.hexdigest :=
  congrArg (takeStr 24) (Primitives.sha256Hex_onTexts hselect hfound)

theorem make_taskRegistry :
    SortRegistry.make taskLibrary [("priority", .field priorityField), ("id", .field taskIdField)]
      [.term ⟨"priority", .asc, some .first⟩] (.text "id") "tasks" = .ok taskRegistry := rfl

/-- The plan by descending priority. -/
def urgentPlan : SortPlan (Option Int × Int) (Option Int × Int) where
  terms := [⟨priorityField, .desc, .last⟩, ⟨taskIdField, .desc, .last⟩]
  fingerprint := "e2d97acb83819fa67eaa7f8d"

set_option maxRecDepth 8000 in
theorem external_values_urgent :
    taskRegistry.parse taskLibrary (some (.items urgentPlan.externalValues)) = .ok urgentPlan := by
  have hfingerprint : fingerprintOf taskLibrary (fingerprintPayload "tasks" urgentPlan.keys) =
      takeStr 24 urgentTasksText.hexdigest := fingerprintOf_onTexts rfl rfl
  have hplan : taskRegistry.parse taskLibrary (some (.text "-priority,")) = .ok urgentPlan :=
    SortRegistry.parse_ok rfl rfl hfingerprint.symm
  obtain ⟨terms, hterms, hiff⟩ := external_values_iff make_taskRegistry hplan
  obtain rfl : terms = [⟨"priority", .desc, none⟩] := (Except.ok.inj hterms).symm
  have hcompleted : taskRegistry.completed [⟨"priority", .desc, none⟩] =
      [⟨"priority", .desc, none⟩, ⟨"id", .desc, none⟩] := rfl
  rw [hcompleted] at hiff
  refine hiff.mpr (List.forall_mem_cons.mpr ⟨⟨⟨?_, ?_⟩, ?_⟩, List.forall_mem_singleton.mpr
    ⟨⟨?_, ?_⟩, ?_⟩⟩)
  · simp [isSpace]
  · intro h
    cases h
  · intro field hfield
    rw [Option.getD_none]
  · simp [isSpace]
  · intro h
    cases h
  · intro field hfield
    rw [Option.getD_none]

/-- The default plan. -/
def defaultTasksPlan : SortPlan (Option Int × Int) (Option Int × Int) where
  terms := [⟨priorityField, .asc, .first⟩, ⟨taskIdField, .asc, .last⟩]
  fingerprint := "8936474318baacb7ba03fda8"

/-- The plan that is read from its strings. -/
def rereadTasksPlan : SortPlan (Option Int × Int) (Option Int × Int) where
  terms := [⟨priorityField, .asc, .last⟩, ⟨taskIdField, .asc, .last⟩]
  fingerprint := "552d6d68fde9e91f8d8b58fb"

set_option maxRecDepth 8000 in
/-- The strings of the default plan have lost where it places NULL. -/
theorem null_placement_lost :
    SortRegistry.make taskLibrary [("priority", .field priorityField), ("id", .field taskIdField)]
        [.term ⟨"priority", .asc, some .first⟩] (.text "id") "tasks" = .ok taskRegistry ∧
      taskRegistry.parse taskLibrary none = .ok defaultTasksPlan ∧
      taskRegistry.parse taskLibrary (some (.items defaultTasksPlan.externalValues)) =
        .ok rereadTasksPlan ∧
      rereadTasksPlan.keys ≠ defaultTasksPlan.keys ∧
      rereadTasksPlan.fingerprint ≠ defaultTasksPlan.fingerprint := by
  have hdefault : fingerprintOf taskLibrary (fingerprintPayload "tasks" defaultTasksPlan.keys) =
      takeStr 24 defaultTasksText.hexdigest := fingerprintOf_onTexts rfl rfl
  have hreread : fingerprintOf taskLibrary (fingerprintPayload "tasks" rereadTasksPlan.keys) =
      takeStr 24 rereadTasksText.hexdigest := fingerprintOf_onTexts rfl rfl
  refine ⟨rfl, SortRegistry.parse_ok rfl rfl hdefault.symm,
    SortRegistry.parse_ok rfl rfl hreread.symm, ?_, ?_⟩
  · decide
  · decide

end ProdkitStorage.Database
