import Mathlib.Data.List.DropRight
import ProdkitStorage.Python.Error
import ProdkitStorage.Python.Text

/-!
# URLs

What `urllib.parse.urlparse` says of the scheme and of the authority of a URL, up to the
checks of the inside of the authority, and `quote_plus`.  `absoluteHttps_append`: the path after
an absolute HTTPS URL does not change that it is one.
-/

namespace ProdkitStorage.Python

/-- The characters without `_UNSAFE_URL_BYTES_TO_REMOVE`. -/
def removeUnsafe (cs : List Char) : List Char := cs.filter fun c => c ∉ ['\t', '\r', '\n']

/-- The characters of a URL that `urlsplit` reads. -/
def urlChars (url : String) : List Char :=
  removeUnsafe (url.toList.dropWhile fun c => c.val ≤ 0x20)

/-- `scheme_chars`. -/
def isSchemeChar (c : Char) : Bool := c.isAlphanum || c ∈ ['+', '-', '.']

/-- The scheme in lower case, and the URL after its colon. -/
def splitScheme (url : List Char) : List Char × List Char :=
  let scheme := url.takeWhile (· != ':')
  let rest := url.dropWhile (· != ':')
  if rest ≠ [] ∧ (scheme.head?.any Char.isAlpha) ∧ scheme.all isSchemeChar then
    (scheme.map Char.toLower, rest.drop 1)
  else ([], url)

/-- The characters that end the authority of a URL. -/
def isUrlDelimiter (c : Char) : Bool := c ∈ ['/', '?', '#']

/-- The authority of a URL without its scheme. -/
def netloc (rest : List Char) : List Char :=
  if rest.take 2 = ['/', '/'] then (rest.drop 2).takeWhile fun c => !isUrlDelimiter c else []

/-- `parsed.scheme == "https" and parsed.netloc`, for `parsed = urlparse(url)`. -/
@[irreducible] def absoluteHttps (url : String) : Except PyError Bool :=
  let parsed := splitScheme (urlChars url)
  let netloc := netloc parsed.2
  if (decide ('[' ∈ netloc)) != decide (']' ∈ netloc) then .error (.valueError "Invalid IPv6 URL")
  else .ok (parsed.1 == "https".toList && !netloc.isEmpty)

/-- `url.rstrip("/")`. -/
def rstripSlash (url : String) : String := String.ofList (url.toList.rdropWhile (· == '/'))

/-- `quote_plus(value)`. -/
def quotePlus (value : String) : String :=
  String.ofList ((encodeUtf8 value).flatMap fun b => if b = 0x20 then ['+'] else quoteByte b)

/-! ## Absolute HTTPS URLs -/

/-- The parts of an absolute HTTPS URL. -/
structure HttpsParts (url scheme authority rest : List Char) : Prop where
  chars : url = scheme ++ ':' :: '/' :: '/' :: (authority ++ rest)
  colon : ':' ∉ scheme
  first : scheme.head?.any Char.isAlpha
  schemeChars : scheme.all isSchemeChar
  https : scheme.map Char.toLower = "https".toList
  host : authority ≠ []
  authorityChars : ∀ c ∈ authority, isUrlDelimiter c = false
  restFirst : ∀ c ∈ rest.head?, isUrlDelimiter c = true
  brackets : '[' ∈ authority ↔ ']' ∈ authority

theorem takeWhile_append_stop {p : Char → Bool} {xs ys : List Char} (hxs : ∀ c ∈ xs, p c = true)
    (hys : ∀ c ∈ ys.head?, p c = false) : (xs ++ ys).takeWhile p = xs := by
  rw [List.takeWhile_append_of_pos hxs]
  cases ys with
  | nil => rw [List.takeWhile_nil, List.append_nil]
  | cons c ys => rw [List.takeWhile_cons_of_neg (by simp [hys c rfl]), List.append_nil]

theorem dropWhile_append_stop {p : Char → Bool} {xs ys : List Char} (hxs : ∀ c ∈ xs, p c = true)
    (hys : ∀ c ∈ ys.head?, p c = false) : (xs ++ ys).dropWhile p = ys := by
  rw [List.dropWhile_append_of_pos hxs]
  cases ys with
  | nil => rfl
  | cons c ys => exact List.dropWhile_cons_of_neg (by simp [hys c rfl])

theorem head?_dropWhile {p : Char → Bool} {xs : List Char} :
    ∀ c ∈ (xs.dropWhile p).head?, p c = false := by
  intro c hc
  have h := List.head?_dropWhile_not p xs
  rw [Option.mem_def] at hc
  rwa [hc] at h

theorem HttpsParts.absoluteHttps {url : String} {scheme authority rest : List Char}
    (h : HttpsParts (urlChars url) scheme authority rest) : absoluteHttps url = .ok true := by
  have hcolon : ∀ c ∈ scheme, (c != ':') = true := by
    intro c hc
    exact bne_iff_ne.mpr fun heq => h.colon (heq ▸ hc)
  have hparsed :
      splitScheme (urlChars url) = ("https".toList, '/' :: '/' :: (authority ++ rest)) := by
    rw [splitScheme, h.chars, takeWhile_append_stop hcolon (by simp),
      dropWhile_append_stop hcolon (by simp)]
    show ite _ _ _ = _
    rw [if_pos ⟨List.cons_ne_nil _ _, h.first, h.schemeChars⟩, h.https]
    rfl
  have hnetloc : netloc ('/' :: '/' :: (authority ++ rest)) = authority := by
    refine takeWhile_append_stop (fun c hc => ?_) fun c hc => ?_
    · rw [h.authorityChars c hc, Bool.not_false]
    · rw [h.restFirst c hc, Bool.not_true]
  have hbrackets : (decide ('[' ∈ authority) != decide (']' ∈ authority)) = false := by
    rw [bne_eq_false_iff_eq, decide_eq_decide]
    exact h.brackets
  have hhost : authority.isEmpty = false := by
    rw [List.isEmpty_eq_false_iff]
    exact h.host
  rw [Python.absoluteHttps, hparsed]
  show ite _ _ _ = _
  rw [hnetloc, hbrackets, hhost]
  rfl

/-- An absolute HTTPS URL has these parts. -/
theorem httpsParts {url : String} (h : absoluteHttps url = .ok true) :
    ∃ scheme authority rest, HttpsParts (urlChars url) scheme authority rest := by
  unfold absoluteHttps at h
  dsimp only at h
  split at h
  · cases h
  next hbrackets =>
  have hparsed := Except.ok.inj h
  rw [Bool.and_eq_true, beq_iff_eq, Bool.not_eq_true', List.isEmpty_eq_false_iff] at hparsed
  obtain ⟨hscheme, hhost⟩ := hparsed
  unfold splitScheme at hscheme hhost hbrackets
  dsimp only at hscheme hhost hbrackets
  split at hscheme
  · next hparts =>
      rw [if_pos hparts] at hhost hbrackets
      obtain ⟨hrest, hfirst, hchars⟩ := hparts
      cases hdrop : (urlChars url).dropWhile (· != ':') with
      | nil => exact absurd hdrop hrest
      | cons c rest =>
          have hcolon : c = ':' := by
            have hstop := head?_dropWhile c (by rw [hdrop]; rfl)
            simpa using hstop
          rw [hdrop] at hhost hbrackets
          unfold netloc at hhost hbrackets
          split at hhost
          · next hslashes =>
              rw [if_pos hslashes] at hbrackets
              have hsplit : rest = '/' :: '/' :: rest.drop 2 := by
                conv_lhs => rw [← List.take_append_drop 2 rest, show rest.take 2 = _ from hslashes]
                rfl
              refine ⟨(urlChars url).takeWhile (· != ':'),
                (rest.drop 2).takeWhile fun c => !isUrlDelimiter c,
                (rest.drop 2).dropWhile fun c => !isUrlDelimiter c, ?_⟩
              constructor
              · subst hcolon
                rw [List.takeWhile_append_dropWhile, ← hsplit, ← hdrop,
                  List.takeWhile_append_dropWhile]
              · intro hmem
                simpa using List.mem_takeWhile_imp hmem
              · exact hfirst
              · exact hchars
              · exact hscheme
              · exact hhost
              · intro c hc
                simpa using List.mem_takeWhile_imp hc
              · intro c hc
                simpa using head?_dropWhile c hc
              · simpa using hbrackets
          · exact absurd rfl hhost
  · cases hscheme

/-- Only what follows the authority changes. -/
theorem HttpsParts.withRest {url other scheme authority rest : List Char} (tail : List Char)
    (h : HttpsParts url scheme authority rest)
    (hother : other = scheme ++ ':' :: '/' :: '/' :: (authority ++ tail))
    (htail : ∀ c ∈ tail.head?, isUrlDelimiter c = true) : HttpsParts other scheme authority tail :=
  ⟨hother, h.colon, h.first, h.schemeChars, h.https, h.host, h.authorityChars, htail, h.brackets⟩

/-- What follows the characters of a URL. -/
theorem urlChars_append (url tail : List Char) :
    urlChars (String.ofList (url ++ tail)) =
        urlChars (String.ofList url) ++ removeUnsafe tail ∨
      ∀ c ∈ urlChars (String.ofList (url ++ tail)), c ∈ tail := by
  rw [urlChars, urlChars, String.toList_ofList, String.toList_ofList, List.dropWhile_append]
  split
  · exact .inr fun c hc => List.dropWhile_subset _ (List.mem_filter.mp hc).1
  · exact .inl (List.filter_append _ _)

/-- The first character of a tail that starts with a delimiter is read. -/
theorem removeUnsafe_tail {tail : List Char} (htail : ∀ c ∈ tail.head?, isUrlDelimiter c = true) :
    ∀ c ∈ (removeUnsafe tail).head?, isUrlDelimiter c = true := by
  cases tail with
  | nil => exact fun _ hc => (nomatch hc)
  | cons c tail =>
      have hc := htail c rfl
      have hread : c ∉ ['\t', '\r', '\n'] := by
        intro hmem
        simp only [List.mem_cons, List.not_mem_nil, or_false] at hmem
        rcases hmem with rfl | rfl | rfl <;> cases hc
      rw [removeUnsafe, List.filter_cons_of_pos (by simpa using hread)]
      exact fun _ hhead => Option.some.inj hhead ▸ hc

/-- A path, a query or a fragment after an absolute HTTPS URL. -/
theorem absoluteHttps_append {url tail : String} (h : absoluteHttps url = .ok true)
    (htail : ∀ c ∈ tail.toList.head?, isUrlDelimiter c = true) :
    absoluteHttps (url ++ tail) = .ok true := by
  obtain ⟨scheme, authority, rest, hparts⟩ := httpsParts h
  have hchars : urlChars (url ++ tail) =
      scheme ++ ':' :: '/' :: '/' :: (authority ++ (rest ++ removeUnsafe tail.toList)) := by
    have hne : url.toList.dropWhile (fun c => c.val ≤ 0x20) ≠ [] := by
      intro hnil
      have hempty := hparts.chars
      rw [urlChars, hnil] at hempty
      simp [removeUnsafe] at hempty
    have hurl := hparts.chars
    rw [urlChars] at hurl ⊢
    rw [String.toList_append, List.dropWhile_append, if_neg (by simpa using hne), removeUnsafe,
      List.filter_append]
    rw [removeUnsafe] at hurl
    rw [hurl]
    simp [removeUnsafe]
  refine (hparts.withRest _ hchars ?_).absoluteHttps
  cases rest with
  | nil => exact removeUnsafe_tail htail
  | cons c rest => exact hparts.restFirst

/-- The slashes at the end of an absolute HTTPS URL do not matter. -/
theorem absoluteHttps_rstripSlash {url : String} (h : absoluteHttps url = .ok true) :
    absoluteHttps (rstripSlash url) = .ok true := by
  obtain ⟨scheme, authority, rest, hparts⟩ := httpsParts h
  have hslash : ∀ c ∈ url.toList.rtakeWhile (· == '/'), c = '/' := by
    intro c hc
    simpa using List.mem_rtakeWhile_imp hc
  have hsplit := urlChars_append (url.toList.rdropWhile (· == '/'))
    (url.toList.rtakeWhile (· == '/'))
  rw [List.rdropWhile_append_rtakeWhile, String.ofList_toList, hparts.chars] at hsplit
  rcases hsplit with hsplit | hall
  · rw [← List.cons_append, ← List.cons_append, ← List.cons_append, ← List.append_assoc,
      List.append_eq_append_iff] at hsplit
    rcases hsplit with ⟨kept, hkept, hrest⟩ | ⟨lost, hlost, hslashes⟩
    · refine (hparts.withRest kept ?_ ?_).absoluteHttps
      · rw [rstripSlash, hkept]
        simp
      · cases kept with
        | nil => exact fun _ hc => (nomatch hc)
        | cons c kept =>
            rw [hrest] at hparts
            exact hparts.restFirst
    · -- the authority ends with none of the slashes
      have hnil : lost = [] := by
        rcases List.eq_nil_or_concat lost with hnil | ⟨init, c, hc⟩
        · exact hnil
        rcases List.eq_nil_or_concat authority with hnil | ⟨host, d, hd⟩
        · exact absurd hnil hparts.host
        have hlast := congrArg List.getLast? hlost
        rw [hc, hd] at hlast
        have hsame : d = c := by simpa [List.getLast?_cons] using hlast
        have hmem : c ∈ removeUnsafe (url.toList.rtakeWhile (· == '/')) := by
          rw [hslashes, hc]
          simp
        have hdelimiter := hparts.authorityChars d (by rw [hd]; simp)
        rw [hsame, hslash c (List.mem_filter.mp hmem).1] at hdelimiter
        cases hdelimiter
      subst hnil
      refine (hparts.withRest [] ?_ fun _ hc => (nomatch hc)).absoluteHttps
      rw [rstripSlash, ← List.append_nil (urlChars _), ← hlost]
      simp
  · have hcolon := hslash ':' (hall ':' (by simp))
    cases hcolon

example : absoluteHttps "https://api.github.com" = .ok true := by decide +kernel

end ProdkitStorage.Python
