import Cattery.Http.Url
import Cattery.Proofs.Lines
import Cattery.Proofs.Search
import Mathlib.Data.List.DropRight

/-! URLs that are put together. A base that ends with a slash decides on the scheme, the host and the
first segments, whatever stands behind it. What stands behind it is read by itself: its end is
tidied, what follows a number sign is dropped, what follows a question mark is the query, and the
dot segments of the rest are resolved, possibly into the segments of the base. -/

namespace Cattery

section Scanning

variable {α : Type} {p : α → Bool} {a : α}

/-- Dropping from the start ends at the latest where it has to. -/
theorem dropWhile_append_cons (h : p a = false) (front back : List α) :
    (front ++ a :: back).dropWhile p = front.dropWhile p ++ a :: back := by
  rw [List.dropWhile_append]
  split
  · rename_i hempty
    rw [List.isEmpty_iff.mp hempty, List.dropWhile_cons_of_neg (by simp [h]), List.nil_append]
  · rfl

theorem rdropWhile_append_cons (h : p a = false) (front back : List α) :
    (front ++ a :: back).rdropWhile p = front ++ a :: back.rdropWhile p := by
  simp only [List.rdropWhile, List.reverse_append, List.reverse_cons, List.append_assoc,
    List.singleton_append]
  rw [dropWhile_append_cons h]
  simp

theorem takeWhile_append_cons (h : p a = false) (front back : List α) :
    (front ++ a :: back).takeWhile p = front.takeWhile p := by
  rw [List.takeWhile_append]
  split
  · rename_i hlength
    rw [List.takeWhile_cons_of_neg (by simp [h]), List.append_nil]
    exact ((List.takeWhile_prefix p).eq_of_length hlength).symm
  · rfl

theorem drop_length_takeWhile (p : α → Bool) (list : List α) :
    list.drop (list.takeWhile p).length = list.dropWhile p := by
  calc list.drop (list.takeWhile p).length
      = (list.takeWhile p ++ list.dropWhile p).drop (list.takeWhile p).length := by
        rw [List.takeWhile_append_dropWhile]
    _ = list.dropWhile p := List.drop_left

end Scanning

namespace Url

/-! ## The end of a text -/

def isBreak (c : Char) : Bool :=
  c == '\t' || c == '\n' || c == '\r'

def tidyEnd (text : List Char) : List Char :=
  (text.rdropWhile isPadding).filter fun c => !isBreak c

def pathPart (text : List Char) : List Char :=
  (text.takeWhile (· != '#')).takeWhile (· != '?')

def queryPart? (text : List Char) : Option (List Char) :=
  ((text.takeWhile (· != '#')).dropWhile (· != '?')).tail?

theorem tidyEnd_append_slash (front back : List Char) : tidyEnd (front ++ '/' :: back) =
    (front.filter fun c => !isBreak c) ++ '/' :: tidyEnd back := by
  rw [tidyEnd, rdropWhile_append_cons rfl, List.filter_append, List.filter_cons_of_pos rfl, tidyEnd]

theorem tidy_append_slash (front : List Char) : ∃ start, start ⊆ front ∧
    ∀ back, tidy (front ++ '/' :: back) = start ++ '/' :: tidyEnd back := by
  refine ⟨(front.dropWhile isPadding).filter fun c => !isBreak c,
    fun c hc => (List.dropWhile_sublist isPadding).subset (List.mem_of_mem_filter hc),
    fun back => ?_⟩
  rw [← tidyEnd_append_slash, tidy, dropWhile_append_cons rfl]
  rfl

theorem pathPart_append_slash {front : List Char} (h : ∀ c ∈ front, c ≠ '?' ∧ c ≠ '#')
    (back : List Char) : pathPart (front ++ '/' :: back) = front ++ '/' :: pathPart back := by
  rw [pathPart, List.takeWhile_append_of_pos fun c hc => bne_iff_ne.mpr (h c hc).2,
    List.takeWhile_cons_of_pos rfl,
    List.takeWhile_append_of_pos fun c hc => bne_iff_ne.mpr (h c hc).1,
    List.takeWhile_cons_of_pos rfl, pathPart]

theorem queryPart?_append_slash {front : List Char} (h : ∀ c ∈ front, c ≠ '?' ∧ c ≠ '#')
    (back : List Char) : queryPart? (front ++ '/' :: back) = queryPart? back := by
  rw [queryPart?, List.takeWhile_append_of_pos fun c hc => bne_iff_ne.mpr (h c hc).2,
    List.takeWhile_cons_of_pos rfl,
    List.dropWhile_append_of_pos fun c hc => bne_iff_ne.mpr (h c hc).1,
    List.dropWhile_cons_of_pos rfl, queryPart?]

theorem tail?_dropWhile_eq_none_iff (list : List Char) :
    (list.dropWhile (· != '?')).tail? = none ↔ '?' ∉ list := by
  have htail (rest : List Char) : rest.tail? = none ↔ rest = [] := by cases rest <;> simp
  rw [htail, List.dropWhile_eq_nil_iff]
  constructor
  · intro h hmem
    exact absurd (h '?' hmem) (by decide)
  · rintro h c hc
    rw [bne_iff_ne]
    rintro rfl
    exact h hc

theorem mem_takeWhile_append_iff {back : List Char} (h : '?' ∉ back) (front : List Char) :
    '?' ∈ (front ++ back).takeWhile (· != '#') ↔ '?' ∈ front.takeWhile (· != '#') := by
  rw [List.takeWhile_append]
  split
  · rename_i hwhole
    rw [List.mem_append, (List.takeWhile_prefix _).eq_of_length hwhole]
    exact or_iff_left fun hc => h ((List.takeWhile_sublist _).subset hc)
  · rfl

/-- Tidying drops neither a question mark nor a number sign. -/
theorem mem_takeWhile_tidyEnd_iff (text : List Char) :
    '?' ∈ (tidyEnd text).takeWhile (· != '#') ↔ '?' ∈ text.takeWhile (· != '#') := by
  -- no break is a number sign, so the breaks can be dropped after the cut
  have hkept : (fun c => !(!isBreak c) || c != '#') = fun c => c != '#' := by
    funext c
    by_cases hc : c = '#'
    · subst hc
      rfl
    · simp [hc]
  have hend : '?' ∉ text.rtakeWhile isPadding := fun hc =>
    absurd (List.mem_rtakeWhile_imp hc) (by decide)
  rw [tidyEnd, List.takeWhile_filter, hkept, List.mem_filter, and_iff_left (by decide),
    ← mem_takeWhile_append_iff hend, List.rdropWhile_append_rtakeWhile]

/-- A text adds a query when a question mark stands before its first number sign. -/
theorem queryPart?_tidyEnd_eq_none_iff (text : List Char) :
    queryPart? (tidyEnd text) = none ↔ '?' ∉ text.takeWhile (· != '#') := by
  rw [queryPart?, tail?_dropWhile_eq_none_iff, mem_takeWhile_tidyEnd_iff]

/-! ## The start of a text -/

/-- The scheme is decided by what stands before the first colon. -/
theorem scheme?_of_cut? {text text' before after after' : List Char}
    (h : cut? [':'] text = some (before, after)) (h' : cut? [':'] text' = some (before, after')) :
    scheme? text' = (scheme? text).map fun (name, _) => (name, after') := by
  simp only [scheme?, h, h']
  cases before.map asciiLower with
  | nil => rfl
  | cons c others =>
    simp only
    split <;> rfl

/-- The scheme ends before a slash, whatever stands behind the slash. -/
theorem scheme?_append_slash {start name rest : List Char}
    (h : scheme? (start ++ ['/']) = some (name, rest)) : ∃ between, between ⊆ start ∧
      ∀ back, scheme? (start ++ '/' :: back) = some (name, between ++ '/' :: back) := by
  cases hcut : cut? [':'] (start ++ ['/']) with
  | none => simp [scheme?, hcut] at h
  | some found =>
    obtain ⟨before, after⟩ := found
    obtain ⟨hlist, hbefore⟩ := (cut?_singleton_eq_some_iff _ _ _ _).mp hcut
    -- the slash is no colon, so it stands behind it
    obtain ⟨between, hstart⟩ : ∃ between, start = before ++ ':' :: between := by
      rcases List.eq_nil_or_concat' after with rfl | ⟨between, c, rfl⟩
      · exact absurd (List.append_inj' hlist rfl).2 (by decide)
      · have hends : start ++ ['/'] = (before ++ ':' :: between) ++ [c] := by simpa using hlist
        exact ⟨between, (List.append_inj' hends rfl).1⟩
    refine ⟨between, fun c hc => by simp [hstart, hc], fun back => ?_⟩
    have hback : cut? [':'] (start ++ '/' :: back) = some (before, between ++ '/' :: back) :=
      (cut?_singleton_eq_some_iff _ _ _ _).mpr ⟨by simp [hstart], hbefore⟩
    rw [scheme?_of_cut? hcut hback, h]
    rfl

def isAuthority (c : Char) : Bool :=
  !(isSlash c || c == '?')

def afterScheme? (secure : Bool) (rest : List Char) : Option Url := do
  let rest := (rest.takeWhile (· != '#')).dropWhile isSlash
  let authority := rest.takeWhile isAuthority
  let (host, portNumber) ← hostAndNumber? authority
  let rest := rest.drop authority.length
  let path := rest.takeWhile (· != '?')
  let query := (rest.dropWhile (· != '?')).tail?
  some {
    secure, login := login? authority, host, portNumber
    path := (resolve [] (pieces (path.drop 1))).map String.ofList
    query := query.map fun query => String.ofList (escape isQuerySpecial query) }

def secure? (scheme : List Char) : Option Bool :=
  if scheme == "http".toList then some false
  else if scheme == "https".toList then some true
  else none

theorem parse?_eq (text : String) : parse? text =
    (scheme? (tidy text.toList)).bind fun (scheme, rest) =>
      (secure? scheme).bind fun secure => afterScheme? secure rest := by
  rw [parse?]
  cases scheme? (tidy text.toList) with
  | none => rfl
  | some found =>
    obtain ⟨scheme, rest⟩ := found
    simp only [Option.bind_some, Option.bind_eq_bind, secure?]
    split
    · rfl
    · split <;> rfl

/-- A host is never empty. -/
theorem hostAndNumber?_nil : hostAndNumber? [] = none := rfl

theorem pieces_append_slash (front back : List Char) :
    pieces (front ++ '/' :: back) = pieces front ++ pieces back := by
  have hslash : (if isSlash '/' then '/' else '/') = '/' := rfl
  rw [pieces, List.map_append, List.map_cons, hslash, splitOn_append, pieces, pieces]

/-- Without backslashes the pieces stand between slashes. -/
theorem pieces_eq_splitOn {text : List Char} (h : '\\' ∉ text) : pieces text = splitOn '/' text := by
  have hplain : text.map (fun c => if isSlash c then '/' else c) = text.map fun c => c := by
    refine List.map_congr_left fun c hc => ?_
    have hne : c ≠ '\\' := fun heq => h (heq ▸ hc)
    split
    · rename_i hslash
      simp only [isSlash, Bool.or_eq_true, beq_iff_eq, hne, or_false] at hslash
      exact hslash.symm
    · rfl
  rw [pieces, hplain, List.map_id']

theorem exists_pieces_drop (gap : List Char) : ∃ front : List (List Char),
    ∀ back, pieces ((gap ++ '/' :: back).drop 1) = front ++ pieces back := by
  cases gap with
  | nil => exact ⟨[], fun back => rfl⟩
  | cons c gap => exact ⟨pieces gap, fun back => pieces_append_slash gap back⟩

/-- Behind the scheme the authority ends before a slash as well. -/
theorem afterScheme?_eq {secure : Bool} {between place : List Char} {c : Char}
    (hunmarked : ∀ d ∈ between, d ≠ '?' ∧ d ≠ '#')
    (hplace : between.dropWhile isSlash = c :: place) (back : List Char) :
    afterScheme? secure (between ++ '/' :: back) =
      (hostAndNumber? ((c :: place).takeWhile isAuthority)).map fun (host, portNumber) =>
        { secure, login := login? ((c :: place).takeWhile isAuthority), host, portNumber
          path := (resolve [] (pieces
            (((c :: place).dropWhile isAuthority ++ '/' :: pathPart back).drop 1))).map String.ofList
          query := (queryPart? back).map fun query => String.ofList (escape isQuerySpecial query) } := by
  have hkept : (between ++ '/' :: back).takeWhile (· != '#') =
      between ++ '/' :: back.takeWhile (· != '#') := by
    rw [List.takeWhile_append_of_pos fun d hd => bne_iff_ne.mpr (hunmarked d hd).2,
      List.takeWhile_cons_of_pos rfl]
  have hstart : (between ++ '/' :: back.takeWhile (· != '#')).dropWhile isSlash =
      (c :: place) ++ '/' :: back.takeWhile (· != '#') := by
    rw [List.dropWhile_append, hplace, List.isEmpty_cons, if_neg Bool.false_ne_true]
  have hauthority : ((c :: place) ++ '/' :: back.takeWhile (· != '#')).takeWhile isAuthority =
      (c :: place).takeWhile isAuthority := takeWhile_append_cons rfl _ _
  have hrest : ((c :: place) ++ '/' :: back.takeWhile (· != '#')).drop
      ((c :: place).takeWhile isAuthority).length =
        (c :: place).dropWhile isAuthority ++ '/' :: back.takeWhile (· != '#') := by
    rw [List.drop_append_of_le_length (List.takeWhile_prefix isAuthority).length_le,
      drop_length_takeWhile]
  -- what stands between the host and the slash holds no question mark
  have hfree : ∀ d ∈ (c :: place).dropWhile isAuthority, (d != '?') = true := by
    intro d hd
    have hin : d ∈ between.dropWhile isSlash :=
      hplace ▸ (List.dropWhile_sublist isAuthority).subset hd
    exact bne_iff_ne.mpr (hunmarked d ((List.dropWhile_sublist isSlash).subset hin)).1
  have hpath : ((c :: place).dropWhile isAuthority ++ '/' :: back.takeWhile (· != '#')).takeWhile
      (· != '?') = (c :: place).dropWhile isAuthority ++ '/' :: pathPart back := by
    rw [List.takeWhile_append_of_pos hfree, List.takeWhile_cons_of_pos rfl, pathPart]
  have hquery : (((c :: place).dropWhile isAuthority ++ '/' :: back.takeWhile (· != '#')).dropWhile
      (· != '?')).tail? = queryPart? back := by
    rw [List.dropWhile_append_of_pos hfree, List.dropWhile_cons_of_pos rfl, queryPart?]
  simp only [afterScheme?, hkept, hstart, hauthority, hrest, hpath, hquery]
  cases hostAndNumber? ((c :: place).takeWhile isAuthority) with
  | none => rfl
  | some found => rfl

/-- No URL has only slashes where its host should be. -/
theorem afterScheme?_of_slashes {secure : Bool} {between : List Char}
    (h : between.dropWhile isSlash = []) : afterScheme? secure (between ++ ['/']) = none := by
  have hslashes : ∀ c ∈ between ++ ['/'], isSlash c = true := by
    rw [List.forall_mem_append, List.forall_mem_singleton]
    exact ⟨List.dropWhile_eq_nil_iff.mp h, rfl⟩
  have hnothing : ((between ++ ['/']).takeWhile (· != '#')).dropWhile isSlash = [] := by
    rw [List.dropWhile_eq_nil_iff]
    exact fun c hc => hslashes c ((List.takeWhile_sublist _).subset hc)
  simp [afterScheme?, hnothing, hostAndNumber?_nil]

/-- Segments are resolved from left to right, so those of a base can be resolved first. -/
theorem exists_resolve_append (front above : List (List Char)) : ∃ reached : List (List Char),
    ∀ segments, segments ≠ [] → resolve above (front ++ segments) = resolve reached segments := by
  induction front generalizing above with
  | nil => exact ⟨above, fun _ _ => rfl⟩
  | cons segment front ih =>
    obtain ⟨reached, hreached⟩ := ih (
      if isDoubleDot segment then above.drop 1
      else if isSingleDot segment then above
      else escape isPathSpecial segment :: above)
    refine ⟨reached, fun segments hne => ?_⟩
    have hmore : (front ++ segments).isEmpty = false := by simp [hne]
    rw [List.cons_append, resolve, hmore, ← hreached segments hne]
    rfl

theorem pieces_ne_nil (text : List Char) : pieces text ≠ [] :=
  splitOn_ne_nil _ _

def segments (text : List Char) : List (List Char) :=
  pieces (pathPart (tidyEnd text))

theorem segments_ne_nil (text : List Char) : segments text ≠ [] :=
  pieces_ne_nil _

/-- Where a URL that ends with a slash leads when a text is put behind it. -/
def behind (base : Url) (text : String) : Url :=
  { base with
    path := (resolve (base.path.dropLast.map String.toList).reverse
      (segments text.toList)).map String.ofList
    query := (queryPart? (tidyEnd text.toList)).map fun query =>
      String.ofList (escape isQuerySpecial query) }

theorem behind_eq {base : Url} {text : String} {path : List String} {query : Option String}
    (hpath : (base.behind text).path = path) (hquery : (base.behind text).query = query) :
    base.behind text = { base with path, query } := by
  subst hpath hquery
  rfl

/-- A URL that ends with a slash stays what it is when a text is put behind it, besides the segments
and the query of the text. -/
theorem parse?_append {front : String} {base : Url}
    (hunmarked : ∀ c ∈ front.toList, c ≠ '?' ∧ c ≠ '#') (h : parse? (front ++ "/") = some base)
    (back : String) : parse? (front ++ "/" ++ back) = some (base.behind back) := by
  obtain ⟨start, hstart, htidy⟩ := tidy_append_slash front.toList
  have htext (back : String) : parse? (front ++ "/" ++ back) =
      (scheme? (start ++ '/' :: tidyEnd back.toList)).bind fun (scheme, rest) =>
        (secure? scheme).bind fun secure => afterScheme? secure rest := by
    have hslash : "/".toList = ['/'] := rfl
    rw [parse?_eq, String.toList_append, String.toList_append, hslash, List.append_assoc,
      List.singleton_append, htidy]
  rw [← String.append_empty (s := front ++ "/"), htext] at h
  obtain ⟨⟨name, rest⟩, hscheme, h⟩ := Option.bind_eq_some_iff.mp h
  obtain ⟨secure, hsecure, h⟩ := Option.bind_eq_some_iff.mp h
  obtain ⟨between, hbetween, hschemes⟩ := scheme?_append_slash hscheme
  obtain rfl : rest = between ++ ['/'] :=
    (Prod.mk.inj (Option.some_inj.mp (hscheme.symm.trans (hschemes [])))).2
  have hfree : ∀ c ∈ between, c ≠ '?' ∧ c ≠ '#' :=
    fun c hc => hunmarked c (hstart (hbetween hc))
  cases hplace : between.dropWhile isSlash with
  | nil =>
    rw [afterScheme?_of_slashes hplace] at h
    cases h
  | cons c place =>
    have hafter := @afterScheme?_eq secure between place c hfree hplace
    obtain ⟨gap, hgap⟩ := exists_pieces_drop ((c :: place).dropWhile isAuthority)
    obtain ⟨above, habove⟩ := exists_resolve_append gap []
    rw [hafter] at h
    obtain ⟨⟨host, portNumber⟩, hhost, rfl⟩ := Option.map_eq_some_iff.mp h
    -- the base is what is read when nothing stands behind it
    have hpath : ((resolve [] (gap ++ pieces (pathPart []))).map String.ofList).dropLast.map
        String.toList = above.reverse := by
      have hnothing : resolve above (pieces (pathPart [])) = above.reverse ++ [[]] := by
        simp [pathPart, pieces, splitOn, resolve, isDoubleDot, isSingleDot, plainDots, escape]
      rw [habove _ (pieces_ne_nil _), hnothing, List.map_append, List.map_singleton,
        List.dropLast_concat, List.map_map]
      exact List.map_id'' (fun text => String.toList_ofList) above.reverse
    simp only [htext, hschemes, Option.bind_some, hsecure, hafter, hhost, Option.map_some, hgap,
      behind, hpath, List.reverse_reverse, segments]
    rw [habove _ (pieces_ne_nil _)]

/-! ## Users -/

theorem login?_eq_none {authority : List Char} (h : '@' ∉ authority) : login? authority = none := by
  rw [login?, splitOn_of_not_mem h]
  rfl

theorem subset_of_scheme? {text name rest : List Char} (h : scheme? text = some (name, rest)) :
    rest ⊆ text := by
  cases hcut : cut? [':'] text with
  | none => simp [scheme?, hcut] at h
  | some found =>
    obtain ⟨before, after⟩ := found
    rw [scheme?_of_cut? hcut hcut] at h
    obtain ⟨⟨name', rest'⟩, -, heq⟩ := Option.map_eq_some_iff.mp h
    obtain ⟨-, rfl⟩ := Prod.mk.inj heq
    obtain ⟨rfl, -⟩ := (cut?_singleton_eq_some_iff _ _ _ _).mp hcut
    exact List.subset_append_of_subset_right _ (List.subset_cons_self _ _)

theorem subset_tidy (text : List Char) : tidy text ⊆ text := by
  intro c hc
  have hinner := List.mem_reverse.mp (List.mem_of_mem_filter hc)
  have hstart := List.mem_reverse.mp ((List.dropWhile_sublist _).subset hinner)
  exact (List.dropWhile_sublist _).subset hstart

/-- Users stand before an at sign. -/
theorem login_of_not_mem {text : String} {url : Url} (h : parse? text = some url)
    (hsign : '@' ∉ text.toList) : url.login = none := by
  rw [parse?_eq] at h
  obtain ⟨⟨scheme, rest⟩, hscheme, h⟩ := Option.bind_eq_some_iff.mp h
  obtain ⟨secure, -, h⟩ := Option.bind_eq_some_iff.mp h
  obtain ⟨⟨host, portNumber⟩, -, h⟩ := Option.bind_eq_some_iff.mp h
  obtain rfl := Option.some_inj.mp h
  refine login?_eq_none fun hmem => hsign ?_
  have hauthority := (List.takeWhile_sublist _).subset hmem
  have hrest := (List.takeWhile_sublist _).subset ((List.dropWhile_sublist _).subset hauthority)
  exact subset_tidy _ (subset_of_scheme? hscheme hrest)

end Url

end Cattery
