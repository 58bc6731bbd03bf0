import Cattery.Proofs.JsonRead
import Cattery.Proofs.Search
import Cattery.Settings.Config

/-! Settings in JSON. Of an object only those members matter that go by a name of a field. Their
order does not matter, nor does which of its two names a field goes by, and a field that is missing
is read like its default. Settings that are written are read back. -/

namespace Cattery

open Source

def Json.members : Json → List (String × Json)
  | .object members => members
  | _ => []

/-! ## Names of fields -/

def capitalized : List Char → List Char
  | '_' :: c :: rest => c.toUpper :: capitalized rest
  | c :: rest => c :: capitalized rest
  | [] => []

def camelCase (name : String) : String :=
  String.ofList (capitalized name.toList)

def spellings (name : String) : List String :=
  if camelCase name = name then [name] else [name, camelCase name]

theorem mem_spellings_iff {name key : String} :
    key ∈ spellings name ↔ key = name ∨ key = camelCase name := by
  rw [spellings]
  split <;> simp_all

theorem mem_spellings_self (name : String) : name ∈ spellings name :=
  mem_spellings_iff.mpr (Or.inl rfl)

theorem camelCase_mem_spellings (name : String) : camelCase name ∈ spellings name :=
  mem_spellings_iff.mpr (Or.inr rfl)

structure Apart (names : List String) : Prop where
  nodup : names.Nodup
  eq_of_mem : ∀ name ∈ names, ∀ name' ∈ names, ∀ key ∈ spellings name, key ∈ spellings name' →
    name = name'

/-! ## Fields -/

section Fields

variable {α β : Type} {read? : α → Option β} {default value value' : α} {name key key' : String}
  {members members' front back : List (String × α)}

def valuesNamed (name : String) (members : List (String × α)) : List α :=
  (members.filter fun (key, _) => (spellings name).contains key).map Prod.snd

def only? (default : α) : List α → Option α
  | [] => some default
  | [value] => some value
  | _ => none

def field (default : α) (name : String) (members : List (String × α)) : Option α :=
  only? default (valuesNamed name members)

theorem field_eq_map : field default name members =
    (memberNamed? (spellings name) members).map fun value => value.getD default := by
  rw [field, valuesNamed, memberNamed?]
  cases members.filter fun (key, _) => (spellings name).contains key with
  | nil => rfl
  | cons first rest => cases rest <;> rfl

theorem mem_valuesNamed (hmem : (key, value) ∈ members) (hkey : key ∈ spellings name) :
    value ∈ valuesNamed name members :=
  List.mem_map.mpr ⟨(key, value), List.mem_filter.mpr ⟨hmem, List.contains_iff_mem.mpr hkey⟩, rfl⟩

theorem valuesNamed_append (front back : List (String × α)) :
    valuesNamed name (front ++ back) = valuesNamed name front ++ valuesNamed name back := by
  simp [valuesNamed]

theorem valuesNamed_cons_of_mem (h : key ∈ spellings name) (value : α)
    (back : List (String × α)) :
    valuesNamed name ((key, value) :: back) = value :: valuesNamed name back := by
  simp [valuesNamed, h]

theorem valuesNamed_cons_of_not_mem (h : key ∉ spellings name) (value : α)
    (back : List (String × α)) :
    valuesNamed name ((key, value) :: back) = valuesNamed name back := by
  simp [valuesNamed, h]

theorem valuesNamed_eq_nil (h : ∀ key ∈ members.map Prod.fst, key ∉ spellings name) :
    valuesNamed name members = [] := by
  rw [valuesNamed, List.map_eq_nil_iff, List.filter_eq_nil_iff]
  intro member hmember
  rw [List.contains_iff_mem]
  exact h member.1 (List.mem_map_of_mem hmember)

/-- A member can go by another name that names the same fields. -/
theorem field_rename (hkey : key ∈ spellings name ↔ key' ∈ spellings name) :
    field default name (front ++ (key, value) :: back) =
      field default name (front ++ (key', value) :: back) := by
  rw [field, field, valuesNamed_append, valuesNamed_append]
  by_cases h : key ∈ spellings name
  · rw [valuesNamed_cons_of_mem h, valuesNamed_cons_of_mem (hkey.mp h)]
  · rw [valuesNamed_cons_of_not_mem h, valuesNamed_cons_of_not_mem (mt hkey.mpr h)]

theorem field_insert (h : key ∉ spellings name) :
    field default name (front ++ (key, value) :: back) = field default name (front ++ back) := by
  rw [field, field, valuesNamed_append, valuesNamed_append, valuesNamed_cons_of_not_mem h]

theorem only?_eq_of_perm {values values' : List α} (h : values.Perm values') :
    only? default values = only? default values' := by
  match values, values', h with
  | [], values', h => rw [List.nil_perm.mp h]
  | [value], values', h => rw [List.singleton_perm.mp h]
  | _ :: _ :: _, [], h => exact absurd h.length_eq (by simp)
  | _ :: _ :: _, [_], h => exact absurd h.length_eq (by simp)
  | _ :: _ :: _, _ :: _ :: _, _ => rfl

theorem field_eq_of_perm (h : members.Perm members') :
    field default name members = field default name members' :=
  only?_eq_of_perm ((h.filter _).map _)

/-- The only member that goes by a name of a field is the field. -/
theorem field_eq_value (hkey : key ∈ spellings name)
    (hothers : ∀ other ∈ (front ++ back).map Prod.fst, other ∉ spellings name) :
    field default name (front ++ (key, value) :: back) = some value := by
  rw [List.map_append, List.forall_mem_append] at hothers
  rw [field, valuesNamed_append, valuesNamed_cons_of_mem hkey, valuesNamed_eq_nil hothers.1,
    valuesNamed_eq_nil hothers.2]
  rfl

/-- Where every field has one name, each is its own member. -/
theorem field_of_mem (h : Apart (members.map Prod.fst)) (hmem : (name, value) ∈ members) :
    field default name members = some value := by
  obtain ⟨front, back, rfl⟩ := List.append_of_mem hmem
  have hperm : ((front ++ (name, value) :: back).map Prod.fst).Perm
      (name :: (front ++ back).map Prod.fst) := List.perm_middle.map Prod.fst
  have hfresh : name ∉ (front ++ back).map Prod.fst :=
    (List.nodup_cons.mp (hperm.nodup_iff.mp h.nodup)).1
  refine field_eq_value (mem_spellings_self name) ?_
  intro other hother hkey
  have heq : other = name :=
    h.eq_of_mem _ (hperm.mem_iff.mpr (List.mem_cons_of_mem name hother)) _
      (List.mem_map_of_mem hmem) other (mem_spellings_self other) hkey
  exact hfresh (heq ▸ hother)

/-- A field that goes by both of its names is a mistake. -/
theorem field_eq_none (hne : camelCase name ≠ name) (hmem : (name, value) ∈ members)
    (hmem' : (camelCase name, value') ∈ members) : field default name members = none := by
  have hfirst : (name, value) ∈ members.filter fun (key, _) => (spellings name).contains key :=
    List.mem_filter.mpr ⟨hmem, List.contains_iff_mem.mpr (mem_spellings_self name)⟩
  have hsecond : (camelCase name, value') ∈
      members.filter fun (key, _) => (spellings name).contains key :=
    List.mem_filter.mpr ⟨hmem', List.contains_iff_mem.mpr (camelCase_mem_spellings name)⟩
  rw [field, valuesNamed]
  generalize (members.filter fun (key, _) => (spellings name).contains key) = present
    at hfirst hsecond
  match present with
  | [member] =>
    rw [List.mem_singleton] at hfirst hsecond
    exact absurd (Prod.ext_iff.mp (hsecond.trans hfirst.symm)).1 hne
  | _ :: _ :: _ => rfl

/-- Of a member only what it is read as matters. -/
theorem field_bind_congr (hread : key ∈ spellings name → read? value = read? value') :
    (field default name (front ++ (key, value) :: back)).bind read? =
      (field default name (front ++ (key, value') :: back)).bind read? := by
  rw [field, field, valuesNamed_append, valuesNamed_append]
  by_cases h : key ∈ spellings name
  · rw [valuesNamed_cons_of_mem h, valuesNamed_cons_of_mem h]
    cases valuesNamed name front with
    | nil =>
      cases valuesNamed name back with
      | nil => exact hread h
      | cons => rfl
    | cons first rest => cases rest <;> rfl
  · rw [valuesNamed_cons_of_not_mem h, valuesNamed_cons_of_not_mem h]

/-- What cannot be read leaves its field without a value. -/
theorem field_bind_eq_none (hmem : (key, value) ∈ members) (hkey : key ∈ spellings name)
    (hread : read? value = none) : (field default name members).bind read? = none := by
  have hvalue := mem_valuesNamed hmem hkey
  rw [field]
  generalize valuesNamed name members = values at hvalue
  match values with
  | [other] =>
    obtain rfl := List.mem_singleton.mp hvalue
    exact hread
  | _ :: _ :: _ => rfl

end Fields

/-! ## Records -/

section Records

variable {α β : Type} {read? : α → Option β} {standard : β} {default : α} {name : String}
  {defaults members a b : List (String × α)}

def filled? (defaults members : List (String × α)) : Option (List α) :=
  defaults.mapM fun entry => field entry.2 entry.1 members

theorem filled?_cons (entry : String × α) (rest members : List (String × α)) :
    filled? (entry :: rest) members = (field entry.2 entry.1 members).bind fun value =>
      (filled? rest members).map fun values => value :: values := by
  rw [filled?, List.mapM_cons, filled?, Option.bind_eq_bind]
  refine congrArg _ (funext fun value => ?_)
  cases List.mapM (fun entry => field entry.2 entry.1 members) rest <;> rfl

def completed (defaults : List α) (found : List (Option α)) : List (Option α) :=
  List.zipWith (fun default value => some (value.getD default)) defaults found

theorem filled?_congr
    (h : ∀ name default, (name, default) ∈ defaults →
      field default name a = field default name b) : filled? defaults a = filled? defaults b := by
  induction defaults with
  | nil => rfl
  | cons entry rest ih =>
    rw [filled?_cons, filled?_cons, h _ _ List.mem_cons_self,
      ih fun name default hmem => h name default (List.mem_cons_of_mem entry hmem)]

theorem filled?_eq_none (hmem : (name, default) ∈ defaults)
    (hfield : field default name members = none) : filled? defaults members = none := by
  induction defaults with
  | nil => cases hmem
  | cons entry rest ih =>
    rw [filled?_cons]
    rcases List.mem_cons.mp hmem with rfl | hmem
    · rw [hfield, Option.bind_none]
    · rw [ih hmem]
      cases field entry.2 entry.1 members <;> rfl

theorem filled?_of_field {own : List (String × α)}
    (hkeys : own.map Prod.fst = defaults.map Prod.fst)
    (h : ∀ name value, (name, value) ∈ own → ∀ default, field default name members = some value) :
    filled? defaults members = some (own.map Prod.snd) := by
  induction defaults generalizing own with
  | nil =>
    obtain rfl := List.map_eq_nil_iff.mp hkeys
    rfl
  | cons entry rest ih =>
    obtain ⟨member, own, rfl, hkey, hkeys⟩ := List.map_eq_cons_iff.mp hkeys
    have hfirst := h member.1 member.2 List.mem_cons_self entry.2
    rw [filled?_cons, ← hkey, hfirst, Option.bind_some,
      ih hkeys fun name value hmem => h name value (List.mem_cons_of_mem member hmem)]
    rfl

/-- Members under the first names of all fields are the fields. -/
theorem filled?_eq_some (hapart : Apart (defaults.map Prod.fst))
    (hkeys : members.map Prod.fst = defaults.map Prod.fst) :
    filled? defaults members = some (members.map Prod.snd) :=
  filled?_of_field hkeys fun _ _ hmem _ => field_of_mem (hkeys ▸ hapart) hmem

/-- The fields that are found are completed to those that are filled. -/
theorem exists_found (defaults members : List (String × α)) :
    ((defaults.map fun entry => spellings entry.1).mapM fun names => memberNamed? names members) =
        none ∧ filled? defaults members = none ∨
      ∃ found values, found.length = defaults.length ∧
        ((defaults.map fun entry => spellings entry.1).mapM fun names =>
          memberNamed? names members) = some found ∧
        filled? defaults members = some values ∧
        completed (defaults.map Prod.snd) found = values.map some := by
  induction defaults with
  | nil => exact Or.inr ⟨[], [], rfl, rfl, rfl, rfl⟩
  | cons entry rest ih =>
    have hfield : field entry.2 entry.1 members =
        (memberNamed? (spellings entry.1) members).map fun value => value.getD entry.2 :=
      field_eq_map
    rw [List.map_cons, List.mapM_cons, filled?_cons, hfield]
    cases memberNamed? (spellings entry.1) members with
    | none => exact Or.inl ⟨rfl, rfl⟩
    | some first =>
      rcases ih with ⟨hfound, hvalues⟩ | ⟨found, values, hlength, hfound, hvalues, hcompleted⟩
      · rw [hfound, hvalues]
        exact Or.inl ⟨rfl, rfl⟩
      · rw [hfound, hvalues]
        refine Or.inr ⟨first :: found, first.getD entry.2 :: values, ?_, rfl, rfl, ?_⟩
        · rw [List.length_cons, List.length_cons, hlength]
        · exact congrArg (_ :: ·) hcompleted

/-- A field with its default filled in is read as it was. -/
theorem defaulted?_completed (h : read? default = some standard) (found : Option α) :
    defaulted? read? standard (some (found.getD default)) = defaulted? read? standard found := by
  cases found with
  | none => exact h
  | some value => rfl

end Records

/-! ## Edits of objects -/

inductive MemberEdit (defaults a b : List (String × Json)) : Prop
  | reorder (h : a.Perm b)
  | respell {name : String} {value : Json} {front back : List (String × Json)}
      (hname : name ∈ defaults.map Prod.fst) (ha : a = front ++ (name, value) :: back)
      (hb : b = front ++ (camelCase name, value) :: back)
  | unknown {key : String} {value : Json} {front back : List (String × Json)}
      (hkey : ∀ name ∈ defaults.map Prod.fst, key ∉ spellings name) (ha : a = front ++ back)
      (hb : b = front ++ (key, value) :: back)
  | missing {name : String} {value : Json} {front back : List (String × Json)}
      (hmem : (name, value) ∈ defaults) (hmissing : ∀ key ∈ a.map Prod.fst, key ∉ spellings name)
      (ha : a = front ++ back) (hb : b = front ++ (name, value) :: back)

section Edits

variable {β : Type} {default : Json} {name : String} {fields : List (List String)}
  {ofFields? : List (Option Json) → Option β} {defaults members a b : List (String × Json)}

/-- No edit matters to a field. -/
theorem MemberEdit.field_eq (h : MemberEdit defaults a b) (hapart : Apart (defaults.map Prod.fst))
    (hmem : (name, default) ∈ defaults) : field default name a = field default name b := by
  have hname : name ∈ defaults.map Prod.fst := List.mem_map_of_mem hmem
  cases h with
  | reorder h => exact field_eq_of_perm h
  | @respell other _ _ _ hother ha hb =>
    rw [ha, hb]
    refine field_rename ?_
    by_cases heq : name = other
    · rw [heq]
      exact iff_of_true (mem_spellings_self other) (camelCase_mem_spellings other)
    · exact iff_of_false
        (fun hkey => heq (hapart.eq_of_mem _ hname _ hother _ hkey (mem_spellings_self other)))
        (fun hkey => heq (hapart.eq_of_mem _ hname _ hother _ hkey (camelCase_mem_spellings other)))
  | unknown hkey ha hb => rw [ha, hb, field_insert (hkey name hname)]
  | @missing other otherValue _ _ hother hmissing ha hb =>
    by_cases heq : name = other
    · -- the default of the field itself: it is the only one of its name
      subst heq
      rw [← Assoc.lookup_eq_some_iff_mem hapart.nodup] at hmem hother
      obtain rfl : default = otherValue := Option.some_inj.mp (hmem.symm.trans hother)
      rw [hb, field_eq_value (mem_spellings_self name) (ha ▸ hmissing), field,
        valuesNamed_eq_nil hmissing]
      rfl
    · have hname' : other ∈ defaults.map Prod.fst := List.mem_map_of_mem hother
      have hkey : other ∉ spellings name := fun hkey =>
        heq (hapart.eq_of_mem _ hname _ hname' _ hkey (mem_spellings_self other))
      rw [ha, hb, field_insert hkey]

/-- A reader of records whose fields have some defaults, and read these like nothing. -/
structure Lenient (defaults : List (String × Json)) (fields : List (List String))
    (ofFields? : List (Option Json) → Option β) : Prop where
  fields_eq : fields = defaults.map fun entry => spellings entry.1
  apart : Apart (defaults.map Prod.fst)
  completed_eq : ∀ found, found.length = defaults.length →
    ofFields? (completed (defaults.map Prod.snd) found) = ofFields? found

namespace Lenient

variable (h : Lenient defaults fields ofFields?)
include h

/-- Of an object only its fields are read, each with its default where it is missing. -/
theorem record?_bind (members : List (String × Json)) :
    (record? fields (Json.object members)).bind ofFields? =
      (filled? defaults members).bind fun values => ofFields? (values.map some) := by
  have hrecord : record? fields (Json.object members) =
      (defaults.map fun entry => spellings entry.1).mapM fun names =>
        memberNamed? names members := by
    rw [h.fields_eq]
    rfl
  rw [hrecord]
  rcases exists_found defaults members with
    ⟨hfound, hvalues⟩ | ⟨found, values, hlength, hfound, hvalues, hcompleted⟩
  · rw [hfound, hvalues]
    rfl
  · rw [hfound, hvalues, Option.bind_some, Option.bind_some, ← hcompleted,
      h.completed_eq found hlength]

theorem edit (hedit : MemberEdit defaults a b) :
    (record? fields (Json.object a)).bind ofFields? =
      (record? fields (Json.object b)).bind ofFields? := by
  rw [h.record?_bind, h.record?_bind,
    filled?_congr fun _ _ hmem => hedit.field_eq h.apart hmem]

theorem doubled {value value' : Json} (hname : name ∈ defaults.map Prod.fst)
    (hne : camelCase name ≠ name) (hmem : (name, value) ∈ members)
    (hmem' : (camelCase name, value') ∈ members) :
    (record? fields (Json.object members)).bind ofFields? = none := by
  obtain ⟨⟨name, default⟩, hentry, rfl⟩ := List.mem_map.mp hname
  rw [h.record?_bind, filled?_eq_none hentry (field_eq_none hne hmem hmem'), Option.bind_none]

/-- Members under the first names of all fields are read one by one. -/
theorem written (members : List (String × Json))
    (hkeys : members.map Prod.fst = defaults.map Prod.fst) :
    (record? fields (Json.object members)).bind ofFields? =
      ofFields? (members.map fun member => some member.2) := by
  rw [h.record?_bind, filled?_eq_some h.apart hkeys, Option.bind_some, List.map_map]
  rfl

end Lenient

end Edits

/-! ## Sections -/

theorem uint64?_ofUInt64 (n : UInt64) : uint64? (Json.ofUInt64 n) = some n := by
  have hbelow : natBelow? UInt64.size (Json.ofUInt64 n) = some n.toNat :=
    if_pos n.toNat_lt
  rw [uint64?, hbelow, Option.map_some, UInt64.ofNat_toNat]

theorem Endpoint.readHeaders?_object {headers : List (String × String)}
    (h : (headers.map Prod.fst).Pairwise (· < ·)) :
    readHeaders? (Json.object (headers.map fun (name, value) => (name, .string value))) =
      some headers := by
  have hmapM (headers : List (String × String)) :
      ((headers.map fun (name, value) => (name, Json.string value)).mapM
        fun (name, value) => (text? value).map fun text => (name, text)) = some headers := by
    induction headers with
    | nil => rfl
    | cons header rest ih =>
      have htext : text? (Json.string header.2) = some header.2 := rfl
      rw [List.map_cons, List.mapM_cons, ih]
      simp [htext]
  have hread : readHeaders? (Json.object (headers.map fun (name, value) => (name, .string value))) =
      some (Assoc.ofEntries headers) := congrArg (Option.map Assoc.ofEntries) (hmapM headers)
  rw [hread, Assoc.ofEntries_eq_self h]

/-- An endpoint whose headers are a map: their names ascend, so that none comes twice. -/
def Endpoint.Ordered (endpoint : Endpoint) : Prop :=
  (endpoint.headers.map Prod.fst).Pairwise (· < ·)

instance (endpoint : Endpoint) : Decidable endpoint.Ordered :=
  inferInstanceAs (Decidable (List.Pairwise _ _))

theorem Endpoint.lenient :
    Lenient standard.toJson.members Endpoint.fields (ofFields? : List (Option Json) → _) where
  fields_eq := by decide
  apart := ⟨by decide, by decide⟩
  completed_eq found hlength := by
    match found, hlength with
    | [baseUrl, accessTokenEnv, timeoutSecs, headers], _ =>
      show ofFields? [some (baseUrl.getD _), some (accessTokenEnv.getD _),
        some (timeoutSecs.getD _), some (headers.getD _)] = _
      rw [ofFields?, ofFields?, defaulted?_completed, defaulted?_completed, defaulted?_completed,
        defaulted?_completed] <;> rfl

theorem Storage.lenient :
    Lenient standard.toJson.members Storage.fields (ofFields? : List (Option Json) → _) where
  fields_eq := by decide
  apart := ⟨by decide, by decide⟩
  completed_eq found hlength := by
    match found, hlength with
    | [backend, root, baseUrl, bucket, apiKeyEnv, signedUrlTtlSecs, userId], _ =>
      show ofFields? [some (backend.getD _), some (root.getD _), some (baseUrl.getD _),
        some (bucket.getD _), some (apiKeyEnv.getD _), some (signedUrlTtlSecs.getD _),
        some (userId.getD _)] = _
      rw [ofFields?, ofFields?, defaulted?_completed, defaulted?_completed, defaulted?_completed,
        defaulted?_completed, defaulted?_completed, defaulted?_completed,
        defaulted?_completed] <;> rfl

theorem Step.Defaults.lenient :
    Lenient standard.toJson.members Step.Defaults.fields
      (ofFields? : List (Option Json) → _) where
  fields_eq := by decide
  apart := ⟨by decide, by decide⟩
  completed_eq found hlength := by
    match found, hlength with
    | [modelId, imageModelId], _ =>
      show ofFields? [some (modelId.getD _), some (imageModelId.getD _)] = _
      rw [ofFields?, ofFields?, defaulted?_completed, defaulted?_completed] <;> rfl

theorem Endpoint.ofFields?_eq_some {timeout headers : Json} {timeoutSecs : Option UInt64}
    {entries : List (String × String)} (htimeout : nullable? uint64? timeout = some timeoutSecs)
    (hheaders : readHeaders? headers = some entries) (baseUrl accessTokenEnv : String) :
    ofFields? [some (.string baseUrl), some (.string accessTokenEnv), some timeout, some headers] =
      some { baseUrl, accessTokenEnv, timeoutSecs, headers := entries } := by
  show (nullable? uint64? timeout).bind (fun timeoutSecs =>
    (readHeaders? headers).bind fun headers => some _) = _
  rw [htimeout, hheaders]
  rfl

theorem Endpoint.read?_toJson {endpoint : Endpoint} (h : endpoint.Ordered) :
    read? endpoint.toJson = some endpoint := by
  refine (lenient.written endpoint.toJson.members rfl).trans
    (ofFields?_eq_some ?_ (readHeaders?_object h) endpoint.baseUrl endpoint.accessTokenEnv)
  cases endpoint.timeoutSecs with
  | none => rfl
  | some secs => exact congrArg (Option.map some) (uint64?_ofUInt64 secs)

theorem Storage.read?_toJson (storage : Storage) : read? storage.toJson = some storage := by
  refine (lenient.written storage.toJson.members rfl).trans ?_
  have hbackend : Backend.read? (Json.string storage.backend.name) = some storage.backend := by
    cases storage.backend <;> rfl
  show (Backend.read? _).bind (fun backend => (uint64? _).bind fun signedUrlTtlSecs => some _) = _
  rw [hbackend, uint64?_ofUInt64]
  rfl

theorem Step.Defaults.read?_toJson (defaults : Step.Defaults) :
    read? defaults.toJson = some defaults :=
  (lenient.written defaults.toJson.members rfl).trans rfl

theorem Settings.lenient :
    Lenient standard.toJson.members Settings.fields (ofFields? : List (Option Json) → _) where
  fields_eq := by decide
  apart := ⟨by decide, by decide⟩
  completed_eq found hlength := by
    match found, hlength with
    | [endpoint, storage, defaults], _ =>
      show ofFields? [some (endpoint.getD _), some (storage.getD _), some (defaults.getD _)] = _
      rw [ofFields?, ofFields?, defaulted?_completed (@Endpoint.read?_toJson standard.endpoint .nil),
        defaulted?_completed (Storage.read?_toJson _),
        defaulted?_completed (Step.Defaults.read?_toJson _)]

theorem Settings.read?_toJson {settings : Settings} (h : settings.endpoint.Ordered) :
    read? settings.toJson = some settings := by
  refine (lenient.written settings.toJson.members rfl).trans ?_
  show (Endpoint.read? _).bind (fun endpoint => (Storage.read? _).bind fun storage =>
    (Step.Defaults.read? _).bind fun defaults => some _) = _
  rw [Endpoint.read?_toJson h, Storage.read?_toJson, Step.Defaults.read?_toJson]
  rfl

/-! ## Edits of settings -/

inductive Settings.Edit (a b : Json) : Prop
  | sections {members members' : List (String × Json)}
      (h : MemberEdit standard.toJson.members members members') (ha : a = .object members)
      (hb : b = .object members')
  | fields {name : String} {defaults : Json} {inner inner' front back : List (String × Json)}
      (hname : (name, defaults) ∈ standard.toJson.members)
      (h : MemberEdit defaults.members inner inner')
      (ha : a = .object (front ++ (name, .object inner) :: back))
      (hb : b = .object (front ++ (name, .object inner') :: back))

theorem Settings.mem_standard_iff {name : String} {defaults : Json} :
    (name, defaults) ∈ standard.toJson.members ↔
      name = "endpoint" ∧ defaults = Endpoint.standard.toJson ∨
        name = "storage" ∧ defaults = Storage.standard.toJson ∨
          name = "defaults" ∧ defaults = Step.Defaults.standard.toJson := by
  simp [toJson, Json.members, standard]

theorem Settings.ofFields?_eq_some_iff {endpoint storage defaults : Json} {settings : Settings} :
    ofFields? [some endpoint, some storage, some defaults] = some settings ↔
      Endpoint.read? endpoint = some settings.endpoint ∧
        Storage.read? storage = some settings.storage ∧
          Step.Defaults.read? defaults = some settings.defaults := by
  obtain ⟨endpoint', storage', defaults'⟩ := settings
  show (Endpoint.read? endpoint).bind (fun endpoint => (Storage.read? storage).bind fun storage =>
    (Step.Defaults.read? defaults).bind fun defaults =>
      some (Settings.mk endpoint storage defaults)) = _ ↔ _
  simp [Option.bind_eq_some_iff]

/-- Settings are read from their three sections. -/
theorem Settings.read?_object_eq_some_iff {members : List (String × Json)} (settings : Settings) :
    read? (Json.object members) = some settings ↔
      (field Endpoint.standard.toJson "endpoint" members).bind Endpoint.read? =
          some settings.endpoint ∧
        (field Storage.standard.toJson "storage" members).bind Storage.read? =
            some settings.storage ∧
          (field Step.Defaults.standard.toJson "defaults" members).bind Step.Defaults.read? =
            some settings.defaults := by
  have hsections : standard.toJson.members = [("endpoint", Endpoint.standard.toJson),
      ("storage", Storage.standard.toJson), ("defaults", Step.Defaults.standard.toJson)] := rfl
  rw [read?, lenient.record?_bind, hsections, filled?_cons, filled?_cons, filled?_cons]
  cases field Endpoint.standard.toJson "endpoint" members with
  | none => simp
  | some endpoint =>
    cases field Storage.standard.toJson "storage" members with
    | none => simp
    | some storage =>
      cases field Step.Defaults.standard.toJson "defaults" members with
      | none => simp
      | some defaults => exact ofFields?_eq_some_iff

/-- Of a section only what it is read as matters. -/
theorem Settings.read?_replace {name : String} {value value' : Json}
    {front back : List (String × Json)}
    (hendpoint : name = "endpoint" → Endpoint.read? value = Endpoint.read? value')
    (hstorage : name = "storage" → Storage.read? value = Storage.read? value')
    (hdefaults : name = "defaults" → Step.Defaults.read? value = Step.Defaults.read? value') :
    read? (Json.object (front ++ (name, value) :: back)) =
      read? (Json.object (front ++ (name, value') :: back)) := by
  have hone : spellings "endpoint" = ["endpoint"] ∧ spellings "storage" = ["storage"] ∧
      spellings "defaults" = ["defaults"] := by decide
  have hendpoint' : name ∈ spellings "endpoint" →
      Endpoint.read? value = Endpoint.read? value' := by simpa [hone] using hendpoint
  have hstorage' : name ∈ spellings "storage" →
      Storage.read? value = Storage.read? value' := by simpa [hone] using hstorage
  have hdefaults' : name ∈ spellings "defaults" →
      Step.Defaults.read? value = Step.Defaults.read? value' := by simpa [hone] using hdefaults
  apply Option.ext
  intro settings
  rw [read?_object_eq_some_iff, read?_object_eq_some_iff, field_bind_congr hendpoint',
    field_bind_congr hstorage', field_bind_congr hdefaults']

theorem Settings.Edit.read?_eq {a b : Json} (h : Settings.Edit a b) : read? a = read? b := by
  cases h with
  | sections h ha hb =>
    rw [ha, hb]
    exact lenient.edit h
  | @fields name defaults inner inner' front back hname h ha hb =>
    rw [ha, hb]
    rcases mem_standard_iff.mp hname with ⟨rfl, rfl⟩ | ⟨rfl, rfl⟩ | ⟨rfl, rfl⟩
    · exact read?_replace (fun _ => Endpoint.lenient.edit h) (absurd · (by decide))
        (absurd · (by decide))
    · exact read?_replace (absurd · (by decide)) (fun _ => Storage.lenient.edit h)
        (absurd · (by decide))
    · exact read?_replace (absurd · (by decide)) (absurd · (by decide))
        fun _ => Step.Defaults.lenient.edit h

/-- A field that goes by both of its names in a section leaves no settings. -/
theorem Settings.read?_eq_none {name field : String} {defaults value value' : Json}
    {members inner : List (String × Json)} (hname : (name, defaults) ∈ standard.toJson.members)
    (hfield : field ∈ defaults.members.map Prod.fst) (hne : camelCase field ≠ field)
    (hmem : (field, value) ∈ inner) (hmem' : (camelCase field, value') ∈ inner)
    (hinner : (name, Json.object inner) ∈ members) : read? (Json.object members) = none := by
  have hself := mem_spellings_self name
  rw [Option.eq_none_iff_forall_ne_some]
  intro settings hread
  obtain ⟨hendpoint, hstorage, hdefaults⟩ := (read?_object_eq_some_iff settings).mp hread
  rcases mem_standard_iff.mp hname with ⟨rfl, rfl⟩ | ⟨rfl, rfl⟩ | ⟨rfl, rfl⟩
  · have hnone : Endpoint.read? (Json.object inner) = none :=
      Endpoint.lenient.doubled hfield hne hmem hmem'
    rw [field_bind_eq_none hinner hself hnone] at hendpoint
    cases hendpoint
  · have hnone : Storage.read? (Json.object inner) = none :=
      Storage.lenient.doubled hfield hne hmem hmem'
    rw [field_bind_eq_none hinner hself hnone] at hstorage
    cases hstorage
  · have hnone : Step.Defaults.read? (Json.object inner) = none :=
      Step.Defaults.lenient.doubled hfield hne hmem hmem'
    rw [field_bind_eq_none hinner hself hnone] at hdefaults
    cases hdefaults

/-! ## What is read -/

/-- What holds of a default and of whatever is read holds of a field. -/
theorem of_defaulted?_eq_some {β : Type} {read? : Json → Option β} {default x : β}
    {field : Option Json} {P : β → Prop} (hdefault : P default)
    (hread : ∀ value x, read? value = some x → P x)
    (h : defaulted? read? default field = some x) : P x := by
  cases field with
  | none => exact Option.some.inj h ▸ hdefault
  | some value => exact hread value x h

theorem Endpoint.pairwise_of_readHeaders? {value : Json} {headers : List (String × String)}
    (h : readHeaders? value = some headers) : (headers.map Prod.fst).Pairwise (· < ·) := by
  rw [readHeaders?] at h
  split at h
  · obtain ⟨entries, _, rfl⟩ := Option.map_eq_some_iff.mp h
    exact Assoc.pairwise_ofEntries entries
  · cases h

theorem Endpoint.ordered_of_read? {value : Json} {endpoint : Endpoint}
    (h : read? value = some endpoint) : endpoint.Ordered := by
  obtain ⟨found, -, h⟩ := Option.bind_eq_some_iff.mp h
  rw [ofFields?.eq_def] at h
  split at h
  · obtain ⟨_, -, h⟩ := Option.bind_eq_some_iff.mp h
    obtain ⟨_, -, h⟩ := Option.bind_eq_some_iff.mp h
    obtain ⟨_, -, h⟩ := Option.bind_eq_some_iff.mp h
    obtain ⟨headers, hheaders, h⟩ := Option.bind_eq_some_iff.mp h
    obtain rfl := Option.some_inj.mp h
    exact of_defaulted?_eq_some (P := fun headers => (headers.map Prod.fst).Pairwise (· < ·))
      List.Pairwise.nil (fun _ _ => pairwise_of_readHeaders?) hheaders
  · cases h

/-- Whatever is read, its headers are a map. -/
theorem Settings.ordered_of_read? {value : Json} {settings : Settings}
    (h : read? value = some settings) : settings.endpoint.Ordered := by
  obtain ⟨found, -, h⟩ := Option.bind_eq_some_iff.mp h
  rw [ofFields?.eq_def] at h
  split at h
  · obtain ⟨endpoint, hendpoint, h⟩ := Option.bind_eq_some_iff.mp h
    obtain ⟨_, -, h⟩ := Option.bind_eq_some_iff.mp h
    obtain ⟨_, -, h⟩ := Option.bind_eq_some_iff.mp h
    obtain rfl := Option.some_inj.mp h
    have hstandard : Endpoint.standard.Ordered := List.Pairwise.nil
    exact of_defaulted?_eq_some hstandard (fun _ _ => Endpoint.ordered_of_read?) hendpoint
  · cases h

/-- What is written is read back, and whatever is read can be written. No number of edits matters to
the reader. A field of a section that goes by both of its names is a mistake. -/
theorem settings_forms :
    (∀ settings : Settings, settings.endpoint.Ordered →
      Settings.read? settings.toJson = some settings) ∧
      (∀ (value : Json) (settings : Settings), Settings.read? value = some settings →
        settings.endpoint.Ordered) ∧
        (∀ a b, Relation.EqvGen Settings.Edit a b → Settings.read? a = Settings.read? b) ∧
          ∀ (members inner : List (String × Json)) (name field : String)
            (defaults value value' : Json),
            (name, defaults) ∈ Settings.standard.toJson.members →
              (name, Json.object inner) ∈ members →
                field ∈ defaults.members.map Prod.fst → camelCase field ≠ field →
                  (field, value) ∈ inner → (camelCase field, value') ∈ inner →
                    Settings.read? (Json.object members) = none := by
  refine ⟨fun _ => Settings.read?_toJson, fun _ _ => Settings.ordered_of_read?, ?_, ?_⟩
  · intro a b hedits
    exact eq_of_eqvGen (fun _ _ hedit => hedit.read?_eq) hedits
  · intro members inner name field defaults value value' hname hinner hfield hne hmem hmem'
    exact Settings.read?_eq_none hname hfield hne hmem hmem' hinner

def hurried : Settings :=
  { Settings.standard with
    endpoint := { Endpoint.standard with
      timeoutSecs := some 90
      headers := [("X-Cat", "Maru"), ("X-Mood", "sleepy")] } }

def terse : Json :=
  .object [("endpoint", .object [("timeoutSecs", .ofUInt64 90)]), ("toys", .null)]

def wordy : Json :=
  .object [("defaults", Step.Defaults.standard.toJson),
    ("endpoint", .object [("base_url", .string "http://localhost:8787/v1"),
      ("timeout_secs", .ofUInt64 90)])]

theorem eqvGen_edit_terse_wordy : Relation.EqvGen Settings.Edit terse wordy := by
  have htoys : Settings.Edit (.object [("endpoint", .object [("timeoutSecs", .ofUInt64 90)])])
      terse :=
    .sections (@MemberEdit.unknown _ _ _ "toys" .null [_] [] (by decide) rfl rfl) rfl rfl
  have hname : Settings.Edit (.object [("endpoint", .object [("timeout_secs", .ofUInt64 90)])])
      (.object [("endpoint", .object [("timeoutSecs", .ofUInt64 90)])]) :=
    @Settings.Edit.fields _ _ "endpoint" _ _ _ [] [] (.head _)
      (@MemberEdit.respell _ _ _ "timeout_secs" _ [] [] (by decide) rfl rfl) rfl rfl
  have hbaseUrl : Settings.Edit (.object [("endpoint", .object [("timeout_secs", .ofUInt64 90)])])
      (.object [("endpoint", .object [("base_url", .string "http://localhost:8787/v1"),
        ("timeout_secs", .ofUInt64 90)])]) :=
    @Settings.Edit.fields _ _ "endpoint" _ _ _ [] [] (.head _)
      (@MemberEdit.missing _ _ _ "base_url" _ [] [_] (.head _) (by decide) rfl rfl) rfl rfl
  have hdefaults : Settings.Edit
      (.object [("endpoint", .object [("base_url", .string "http://localhost:8787/v1"),
        ("timeout_secs", .ofUInt64 90)])]) wordy :=
    .sections (@MemberEdit.missing _ _ _ "defaults" _ [] [_] (.tail _ (.tail _ (.head _)))
      (by decide) rfl rfl) rfl rfl
  exact .trans _ _ _ (.symm _ _ (.rel _ _ htoys)) (.trans _ _ _ (.symm _ _ (.rel _ _ hname))
    (.trans _ _ _ (.rel _ _ hbaseUrl) (.rel _ _ hdefaults)))

theorem settings_forms_hurried :
    Settings.read? hurried.toJson = some hurried ∧ hurried.endpoint.Ordered ∧
      Settings.read? terse = Settings.read? wordy ∧
        Settings.read? (Json.object [("storage", .object [("userId", .string "momo"),
          ("user_id", .string "maru")])]) = none := by
  have hread : Settings.read? hurried.toJson = some hurried :=
    settings_forms.1 hurried (by decide)
  refine ⟨hread, settings_forms.2.1 _ _ hread,
    settings_forms.2.2.1 _ _ eqvGen_edit_terse_wordy, ?_⟩
  exact settings_forms.2.2.2 _ _ "storage" "user_id" Storage.standard.toJson _ _
    (.tail _ (.head _)) (.head _) (by decide) (by decide) (.tail _ (.head _)) (.head _)

end Cattery
