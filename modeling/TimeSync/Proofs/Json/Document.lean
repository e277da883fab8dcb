import TimeSync.Json.Document
import TimeSync.Proofs.Json.Scan

/-!
# Reading a document as it was written

Reading the tokens of a value leads to that value, in whatever containers it stands.  With
the tokens cut out of its text again, a value that can be read as it is written is read
back from its text.
-/

namespace TimeSync.Json

theorem elementTokens_eq_map (elements : List Json) :
    elementTokens elements = elements.map tokens := by
  induction elements with
  | nil => rfl
  | cons element elements induction => rw [elementTokens, induction, List.map_cons]

theorem memberTokens_eq_map (members : List (Option String × Json)) :
    memberTokens members =
      members.map fun member => .text member.1 :: .colon :: tokens member.2 := by
  induction members with
  | nil => rfl
  | cons member members induction => rw [memberTokens, induction, List.map_cons]

theorem separated_cons_cons (first second : List Token) (rest : List (List Token)) :
    separated (first :: second :: rest) = first ++ .comma :: separated (second :: rest) := rfl

theorem spaced_append {first second : List Token} {token : Token} (tight : ¬ token.Loose)
    (before : Spaced first) (after : Spaced second) : Spaced (first ++ token :: second) := by
  refine List.isChain_append.mpr ⟨before, ?_, ?_⟩
  · cases second with
    | nil => exact List.isChain_singleton _
    | cons next rest => exact List.isChain_cons_cons.mpr ⟨fun loose => absurd loose tight, after⟩
  · intro last _ next same _
    cases same
    exact tight

theorem spaced_singleton (token : Token) : Spaced [token] := List.isChain_singleton _

theorem spaced_separated {parts : List (List Token)} (spaced : ∀ part ∈ parts, Spaced part) :
    Spaced (separated parts) := by
  induction parts with
  | nil => exact List.IsChain.nil
  | cons part parts induction =>
    obtain ⟨here, others⟩ := List.forall_mem_cons.mp spaced
    cases parts with
    | nil => exact here
    | cons next rest =>
      rw [separated_cons_cons]
      exact spaced_append id here (induction others)

theorem spaced_brackets {inside : List Token} {first last : Token} (tight : ¬ first.Loose)
    (tightLast : ¬ last.Loose) (spaced : Spaced inside) :
    Spaced (first :: (inside ++ [last])) :=
  spaced_append tight List.IsChain.nil (spaced_append tightLast spaced List.IsChain.nil)

mutual

theorem spaced_tokens : ∀ json : Json, Spaced json.tokens
  | .null | .bool _ | .number _ | .text _ => spaced_singleton _
  | .array elements => spaced_brackets id id (spaced_separated (spaced_elements elements))
  | .object members => spaced_brackets id id (spaced_separated (spaced_members members))

theorem spaced_elements : ∀ (elements : List Json), ∀ part ∈ elementTokens elements, Spaced part
  | [] => fun _ member => nomatch member
  | element :: rest =>
    List.forall_mem_cons.mpr ⟨spaced_tokens element, spaced_elements rest⟩

theorem spaced_members : ∀ (members : List (Option String × Json)),
    ∀ part ∈ memberTokens members, Spaced part
  | [] => fun _ member => nomatch member
  | (_, value) :: rest =>
    List.forall_mem_cons.mpr
      ⟨spaced_append id List.IsChain.nil (spaced_append id List.IsChain.nil (spaced_tokens value)),
        spaced_members rest⟩

end

theorem run_cons (reading : Reading) (token : Token) (rest : List Token) :
    reading.run (token :: rest) = reading.step token >>= fun next => next.run rest := rfl

theorem tokens_head (json : Json) :
    ∃ first rest, json.tokens = first :: rest ∧ first ≠ .closeArray := by
  cases json <;> exact ⟨_, _, rfl, nofun⟩

/-- Where an array may also close, its first element is read as any other. -/
theorem run_valueOrClose (frames : List Frame) (json : Json) (rest : List Token) :
    Reading.run ⟨.valueOrClose, frames⟩ (json.tokens ++ rest) =
      Reading.run ⟨.value, .array [] :: frames⟩ (json.tokens ++ rest) := by
  obtain ⟨first, later, tokens, opens⟩ := json.tokens_head
  rw [tokens, List.cons_append, run_cons, run_cons]
  cases first <;> first | rfl | exact absurd rfl opens

mutual

/-- Reading the tokens of a value completes it, whatever containers are open. -/
theorem run_tokens : ∀ (json : Json) (frames : List Frame) (rest : List Token),
    Reading.run ⟨.value, frames⟩ (json.tokens ++ rest) = Reading.run ⟨.rest json, frames⟩ rest
  | .null, _, _ | .bool _, _, _ | .number _, _, _ | .text _, _, _ => rfl
  | .array elements, frames, rest => by
    rw [tokens, List.cons_append, List.append_assoc, List.singleton_append]
    change Reading.run ⟨.valueOrClose, frames⟩ _ = _
    cases elements with
    | nil => rfl
    | cons element elements =>
      have read := run_elements (element :: elements) (List.cons_ne_nil _ _) [] frames rest
      refine Eq.trans ?_ read
      cases elements with
      | nil => exact run_valueOrClose frames element _
      | cons next elements =>
        rw [elementTokens, elementTokens, separated_cons_cons, List.append_assoc]
        exact run_valueOrClose frames element _
  | .object members, frames, rest => by
    rw [tokens, List.cons_append, List.append_assoc, List.singleton_append]
    change Reading.run ⟨.nameOrClose, frames⟩ _ = _
    cases members with
    | nil => rfl
    | cons member members =>
      have read := run_members (member :: members) (List.cons_ne_nil _ _) [] frames rest
      refine Eq.trans ?_ read
      cases members with
      | nil => rfl
      | cons next members => rfl

theorem run_elements : ∀ (elements : List Json), elements ≠ [] →
    ∀ (done : List Json) (frames : List Frame) (rest : List Token),
    Reading.run ⟨.value, .array done :: frames⟩
        (separated (elementTokens elements) ++ .closeArray :: rest) =
      Reading.run ⟨.rest (.array (done.reverse ++ elements)), frames⟩ rest
  | [], empty, _, _, _ => absurd rfl empty
  | [element], _, done, frames, rest => by
    rw [elementTokens, elementTokens, separated, run_tokens element, run_cons]
    change Reading.run ⟨.rest (.array (element :: done).reverse), frames⟩ rest = _
    rw [List.reverse_cons]
  | element :: next :: elements, _, done, frames, rest => by
    have read := run_elements (next :: elements) (List.cons_ne_nil _ _) (element :: done) frames
      rest
    rw [elementTokens] at read
    rw [elementTokens, elementTokens, separated_cons_cons, List.append_assoc, List.cons_append,
      run_tokens element, run_cons]
    change Reading.run ⟨.value, .array (element :: done) :: frames⟩ _ = _
    rw [read, List.reverse_cons, List.append_assoc, List.singleton_append]

theorem run_members : ∀ (members : List (Option String × Json)), members ≠ [] →
    ∀ (done : List (Option String × Json)) (frames : List Frame) (rest : List Token),
    Reading.run ⟨.name done, frames⟩
        (separated (memberTokens members) ++ .closeObject :: rest) =
      Reading.run ⟨.rest (.object (done.reverse ++ members)), frames⟩ rest
  | [], empty, _, _, _ => absurd rfl empty
  | [(name, value)], _, done, frames, rest => by
    rw [memberTokens, memberTokens, separated]
    change Reading.run ⟨.value, .object done name :: frames⟩ (value.tokens ++ _) = _
    rw [run_tokens value, run_cons]
    change Reading.run ⟨.rest (.object ((name, value) :: done).reverse), frames⟩ rest = _
    rw [List.reverse_cons]
  | (name, value) :: (other, next) :: members, _, done, frames, rest => by
    have read := run_members ((other, next) :: members) (List.cons_ne_nil _ _)
      ((name, value) :: done) frames rest
    rw [memberTokens] at read
    rw [memberTokens, memberTokens, separated_cons_cons, List.append_assoc, List.cons_append]
    change Reading.run ⟨.value, .object done name :: frames⟩ (value.tokens ++ _) = _
    rw [run_tokens value, List.cons_append, run_cons]
    change Reading.run ⟨.name ((name, value) :: done), frames⟩ _ = _
    rw [read, List.reverse_cons, List.append_assoc, List.singleton_append]

end

theorem ofTokens?_tokens (json : Json) : ofTokens? json.tokens = some json := by
  have read := run_tokens json [] []
  rw [List.append_nil] at read
  rw [ofTokens?, read]
  rfl

/-- Whether all names, texts and numbers of a value can be read as they are written. -/
def Plain (json : Json) : Prop := ∀ token ∈ json.tokens, token.Plain

theorem parse?_chars {json : Json} (plain : json.Plain) : parse? json.chars = some json := by
  rw [parse?, chars, scan_flatMap_chars plain json.spaced_tokens]
  exact ofTokens?_tokens json

theorem parse?_render {json : Json} (plain : json.Plain) :
    parse? json.render.toList = some json := by
  rw [render, String.toList_ofList]
  exact parse?_chars plain

theorem plain_of_tokens_eq {json : Json} {token : Token} (single : json.tokens = [token])
    (plain : token.Plain) : json.Plain := by
  rw [Plain, single]
  exact List.forall_mem_singleton.mpr plain

theorem plain_null : Json.null.Plain := plain_of_tokens_eq rfl trivial

theorem plain_bool (value : Bool) : (Json.bool value).Plain := plain_of_tokens_eq rfl trivial

theorem plain_number {written : NumberText} (plain : written.Plain) :
    (Json.number written).Plain := plain_of_tokens_eq rfl plain

theorem plain_ofString (content : String) : (ofString content).Plain := plain_of_tokens_eq rfl rfl

theorem plain_separated {parts : List (List Token)}
    (plain : ∀ part ∈ parts, ∀ token ∈ part, token.Plain) :
    ∀ token ∈ separated parts, token.Plain := by
  induction parts with
  | nil => exact List.forall_mem_nil _
  | cons part parts induction =>
    obtain ⟨here, others⟩ := List.forall_mem_cons.mp plain
    cases parts with
    | nil => exact here
    | cons next rest =>
      rw [separated_cons_cons]
      exact List.forall_mem_append.mpr ⟨here, List.forall_mem_cons.mpr ⟨trivial, induction others⟩⟩

theorem plain_brackets {inside : List Token} {first last : Token} (plainFirst : first.Plain)
    (plainLast : last.Plain) (plain : ∀ token ∈ inside, token.Plain) :
    ∀ token ∈ first :: (inside ++ [last]), token.Plain :=
  List.forall_mem_cons.mpr ⟨plainFirst,
    List.forall_mem_append.mpr ⟨plain, List.forall_mem_singleton.mpr plainLast⟩⟩

theorem plain_array {elements : List Json} (plain : ∀ element ∈ elements, element.Plain) :
    (Json.array elements).Plain := by
  rw [Plain, tokens, elementTokens_eq_map]
  exact plain_brackets trivial trivial (plain_separated (List.forall_mem_map.mpr plain))

theorem plain_ofMembers {members : List (String × Json)}
    (plain : ∀ member ∈ members, member.2.Plain) : (ofMembers members).Plain := by
  rw [Plain, ofMembers, tokens, memberTokens_eq_map, List.map_map]
  refine plain_brackets trivial trivial (plain_separated (List.forall_mem_map.mpr ?_))
  intro member listed
  exact List.forall_mem_cons.mpr ⟨rfl, List.forall_mem_cons.mpr ⟨trivial, plain member listed⟩⟩

theorem plain_ofOption {α : Type} {encode : α → Json} (plain : ∀ value, (encode value).Plain)
    (given : Option α) : (ofOption encode given).Plain := by
  cases given with
  | none => exact plain_null
  | some value => exact plain value

end TimeSync.Json
