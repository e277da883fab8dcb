import Mathlib
import TimeSync.Json.Record

/-!
# Reading the fields of a record

A field of a record is found wherever its member stands in the object, and whatever other
members there are.  What is found there was written by the encoding of its kind, which the
reader of the kind inverts.
-/

namespace TimeSync.Json

/-- The members of an object; any other value has none. -/
def entries : Json → List (String × Json)
  | .object members => members.map fun entry => (entry.1.getD "", entry.2)
  | _ => []

@[simp] theorem entries_ofMembers (members : List (String × Json)) :
    (ofMembers members).entries = members := by
  rw [ofMembers, entries, List.map_map]
  exact List.map_id members

theorem givenFor_map_some (name : String) (members : List (String × Json)) :
    givenFor name (members.map fun member => (some member.1, member.2)) =
      (members.filter fun member => member.1 = name).map Prod.snd := by
  simp only [givenFor, List.filter_map, List.map_map, Function.comp_def, Option.some.injEq]

theorem lookup_filter (given : String → Bool) (members : List (String × Json)) (name : String) :
    (members.filter fun member => given member.1).lookup name =
      if given name then members.lookup name else none := by
  induction members with
  | nil => simp
  | cons member members induction =>
    obtain ⟨other, value⟩ := member
    by_cases same : name = other
    · subst same
      cases taken : given name <;> simp [taken, induction]
    · have different : (name == other) = false := by simp [same]
      cases taken : given other <;> simp [taken, induction, List.lookup_cons, different]

/-- Where names do not repeat, a name is given the one value that looking it up finds. -/
theorem filter_name_of_nodup {members : List (String × Json)}
    (distinct : (members.map Prod.fst).Nodup) (name : String) :
    (members.filter fun member => member.1 = name).map Prod.snd =
      (members.lookup name).toList := by
  induction members with
  | nil => rfl
  | cons member members induction =>
    obtain ⟨other, value⟩ := member
    obtain ⟨once, rest⟩ := List.nodup_cons.mp distinct
    by_cases same : name = other
    · subst same
      have noneLater : members.filter (fun member => member.1 = name) = [] := by
        rw [List.filter_eq_nil_iff]
        intro later listed found
        exact once (List.mem_map.mpr ⟨later, listed, of_decide_eq_true found⟩)
      simp [noneLater]
    · have different : (name == other) = false := by simp [same]
      simp [List.lookup_cons, different, Ne.symm same, induction rest]

theorem fields?_ofMembers {names : List String} {known extras members : List (String × Json)}
    (distinct : (known.map Prod.fst).Nodup) (unknown : ∀ extra ∈ extras, extra.1 ∉ names)
    (order : members.Perm (known ++ extras)) :
    ∃ fields, (ofMembers members).fields? names = some fields ∧
      ∀ name ∈ names, fields name = known.lookup name := by
  have found : ∀ name ∈ names,
      givenFor name (members.map fun member => (some member.1, member.2)) =
        (known.lookup name).toList := by
    intro name listed
    have others : extras.filter (fun member => member.1 = name) = [] := by
      rw [List.filter_eq_nil_iff]
      intro extra member same
      exact unknown extra member (of_decide_eq_true same ▸ listed)
    have reordered := (order.filter fun member => member.1 = name).map Prod.snd
    rw [List.filter_append, others, List.append_nil, filter_name_of_nodup distinct] at reordered
    rw [givenFor_map_some]
    cases looked : known.lookup name with
    | none =>
      rw [looked] at reordered
      exact reordered.eq_nil
    | some value =>
      rw [looked] at reordered
      exact List.perm_singleton.mp reordered
  have readable : ¬ ((members.map fun member => (some member.1, member.2)).any
        (fun member => member.1.isNone) = true ∨
      names.any (fun name => 1 <
        (givenFor name (members.map fun member => (some member.1, member.2))).length) = true) := by
    rintro (noName | twice)
    · simp at noName
    · obtain ⟨name, listed, more⟩ := List.any_eq_true.mp twice
      have once := Option.length_toList_le (o := known.lookup name)
      rw [found name listed, decide_eq_true_eq] at more
      omega
  refine ⟨_, if_neg readable, fun name listed => ?_⟩
  rw [found name listed]
  cases known.lookup name <;> rfl

theorem fields?_whole (names : List String) (json : Json)
    (whole : ∃ members, json = ofMembers members)
    (distinct : (json.entries.map Prod.fst).Nodup) :
    ∃ fields, json.fields? names = some fields ∧
      ∀ name ∈ names, fields name = json.entries.lookup name := by
  obtain ⟨members, rfl⟩ := whole
  rw [entries_ofMembers] at distinct ⊢
  exact fields?_ofMembers distinct (List.forall_mem_nil _) (by rw [List.append_nil])

/-- Some of the known members, in any order and among unknown ones, are found where they
are given. -/
theorem fields?_given {names : List String} {known extras members : List (String × Json)}
    {given : String → Bool} (distinct : (known.map Prod.fst).Nodup)
    (unknown : ∀ extra ∈ extras, extra.1 ∉ names)
    (order : members.Perm ((known.filter fun member => given member.1) ++ extras)) :
    ∃ fields, (ofMembers members).fields? names = some fields ∧
      ∀ name ∈ names, fields name = if given name then known.lookup name else none := by
  obtain ⟨fields, read, found⟩ := fields?_ofMembers
    ((List.filter_sublist.map Prod.fst).nodup distinct) unknown order
  exact ⟨fields, read, fun name listed =>
    (found name listed).trans (lookup_filter given known name)⟩

theorem perm_whole (members : List (String × Json)) :
    members.Perm ((members.filter fun _ => true) ++ []) := by
  rw [List.filter_true, List.append_nil]

section Fields

variable {α : Type} {fields : Fields} {name : String} {decode : Json → Option α} {json : Json}
  {value : α}

theorem bind_of_read {β : Type} {first : Option α} (read : first = some value)
    (after : α → Option β) : (first >>= after) = after value := by
  rw [read]
  rfl

theorem bind_required {β : Type} {after : α → Option β} (found : fields name = some json)
    (read : decode json = some value) : (required fields name decode >>= after) = after value := by
  refine bind_of_read ?_ after
  rw [required, found]
  exact read

theorem defaulted_of_found {given : Bool} {known : List (String × Json)} {base : α}
    (found : fields name = if given then known.lookup name else none)
    (looked : known.lookup name = some json) (read : given = true → decode json = some value) :
    defaulted fields name decode base = some (if given then value else base) := by
  rw [looked] at found
  cases given with
  | true =>
    rw [defaulted, found]
    exact read rfl
  | false =>
    rw [defaulted, found]
    rfl

theorem bind_defaulted {β : Type} {after : α → Option β} {given : Bool}
    {known : List (String × Json)} {base : α}
    (found : fields name = if given then known.lookup name else none)
    (looked : known.lookup name = some json) (read : given = true → decode json = some value) :
    (defaulted fields name decode base >>= after) = after (if given then value else base) :=
  bind_of_read (defaulted_of_found found looked read) after

theorem ofInt_ne_null (value : Int) : ofInt value ≠ .null := nofun

theorem ofString_ne_null (text : String) : ofString text ≠ .null := nofun

theorem nullable_of_ne_null (other : json ≠ .null) (read : decode json = some value) :
    nullable decode json = some (some value) := by
  rw [nullable, read]
  · rfl
  · exact other

theorem nullable_ofOption {encode : α → Json} {given : Option α}
    (other : ∀ value, encode value ≠ .null)
    (read : ∀ value, given = some value → decode (encode value) = some value) :
    nullable decode (ofOption encode given) = some given := by
  cases given with
  | none => rfl
  | some value => exact nullable_of_ne_null (other value) (read value rfl)

theorem bind_optional {β : Type} {after : Option α → Option β} {encode : α → Json}
    {given : Option α} (found : fields name = some (ofOption encode given))
    (other : ∀ value, encode value ≠ .null)
    (read : ∀ value, given = some value → decode (encode value) = some value) :
    (optional fields name decode >>= after) = after given := by
  refine bind_of_read ?_ after
  rw [optional, defaulted, found]
  exact nullable_ofOption other read

end Fields

theorem string?_ofString (content : String) : (ofString content).string? = some content := rfl

theorem bool?_bool (value : Bool) : (Json.bool value).bool? = some value := rfl

theorem intWithin?_ofInt {low high value : Int} (inside : low ≤ value ∧ value ≤ high) :
    intWithin? low high (ofInt value) = some value := by
  have read : (ofInt value).int? = some value := NumberText.int?_ofInt value
  simp [intWithin?, read, inside]

theorem natBelow?_ofInt {bound value : Nat} (below : value < bound) :
    natBelow? bound (ofInt value) = some value := by
  have read : (ofInt value).int? = some (value : Int) := NumberText.int?_ofInt value
  simp [natBelow?, read, below]

theorem word8?_ofInt (word : UInt8) : word8? (ofInt word.toNat) = some word := by
  simp [word8?, natBelow?_ofInt word.toNat_lt]

theorem word16?_ofInt (word : UInt16) : word16? (ofInt word.toNat) = some word := by
  simp [word16?, natBelow?_ofInt word.toNat_lt]

theorem word32?_ofInt (word : UInt32) : word32? (ofInt word.toNat) = some word := by
  simp [word32?, natBelow?_ofInt word.toNat_lt]

theorem word64?_ofInt (word : UInt64) : word64? (ofInt word.toNat) = some word := by
  simp [word64?, natBelow?_ofInt word.toNat_lt]

theorem list?_array {α : Type} {decode : Json → Option α} {elements : List Json}
    {values : List α} (read : List.Forall₂ (fun element value => decode element = some value)
      elements values) : list? decode (.array elements) = some values := by
  change elements.mapM decode = some values
  induction read with
  | nil => rfl
  | cons first rest induction => simp [first, induction]

theorem list?_array_map {α : Type} {encode : α → Json} {decode : Json → Option α}
    {values : List α} (read : ∀ value ∈ values, decode (encode value) = some value) :
    list? decode (.array (values.map encode)) = some values := by
  refine list?_array ?_
  rw [List.forall₂_map_left_iff]
  exact List.forall₂_same.mpr read

end TimeSync.Json
