import TimeSync.Endpoint
import TimeSync.Proofs.Json.Numbers

/-!
# Endpoints read from their text

An endpoint is written with brackets if its host has a colon, and is read by other marks: a
bracket in front, the first bracket that closes, the number of colons, and blanks that are
left out.  The two agree on exactly those hosts whose text shows none of these marks by
accident.
-/

namespace TimeSync

namespace Text

theorem toDigits_eq_ofDigitValues (number : Nat) :
    Nat.toDigits 10 number = ofDigitValues (digits number) := by
  rw [Nat.toDigits_eq_if (by decide), digits]
  split
  · rfl
  · rw [toDigits_eq_ofDigitValues (number / 10)]
    simp only [ofDigitValues, List.map_append, List.map_cons, List.map_nil]
termination_by number

theorem isDigit_of_mem_toDigits {number : Nat} {char : Char}
    (member : char ∈ Nat.toDigits 10 number) : char.isDigit = true := by
  rw [toDigits_eq_ofDigitValues] at member
  exact Json.isDigit_ofDigitValues (small_of_mem_digits number) char member

theorem natural?_toDigits {bound number : Nat} (within : number ≤ bound) :
    natural? bound (Nat.toDigits 10 number) = some number := by
  have unsigned : ∀ rest, Nat.toDigits 10 number ≠ '+' :: rest := by
    intro rest same
    have digit : '+'.isDigit = true :=
      isDigit_of_mem_toDigits (same ▸ List.mem_cons_self)
    exact absurd digit (by decide)
  have read : digits? (Nat.toDigits 10 number) = some (digits number) := by
    rw [toDigits_eq_ofDigitValues]
    exact Json.digits?_ofDigitValues (digits_ne_nil number) (small_of_mem_digits number)
  unfold natural?
  split
  · rename_i rest same
    exact absurd same (unsigned rest)
  · simp [read, within]

theorem natural16?_toString (number : UInt16) :
    natural16? (toString number).toList = some number := by
  have written : (toString number).toList = Nat.toDigits 10 number.toNat := Nat.toList_repr
  have within : number.toNat ≤ UInt16.size - 1 := Nat.le_pred_of_lt number.toNat_lt
  rw [natural16?, written, natural?_toDigits within, Option.map_some, UInt16.ofNat_toNat]

theorem isDigit_of_mem_toString {number : UInt16} {char : Char}
    (member : char ∈ (toString number).toList) : char.isDigit = true := by
  have written : (toString number).toList = Nat.toDigits 10 number.toNat := Nat.toList_repr
  exact isDigit_of_mem_toDigits (written ▸ member)

theorem not_isBlank_of_isDigit {char : Char} (digit : char.isDigit = true) :
    isBlank char = false := by
  simp only [Char.isDigit, Bool.and_eq_true, decide_eq_true_eq, ge_iff_le,
    UInt32.le_iff_toNat_le] at digit
  have range : 48 ≤ char.toNat ∧ char.toNat ≤ 57 := digit
  simp only [isBlank, blankRanges, List.any_cons, List.any_nil, Bool.or_eq_false_iff,
    decide_eq_false_iff_not, and_true]
  omega

theorem trim_append {chars ending : List Char} (someEnd : ending ≠ [])
    (visible : ∀ char ∈ ending, isBlank char = false) :
    trim (chars ++ ending) = chars.dropWhile isBlank ++ ending := by
  have front : (chars ++ ending).dropWhile isBlank = chars.dropWhile isBlank ++ ending := by
    rw [List.dropWhile_append]
    split
    · rename_i blank
      obtain ⟨first, rest, rfl⟩ := List.exists_cons_of_ne_nil someEnd
      have stays : ¬ isBlank first = true := by simp [visible first List.mem_cons_self]
      rw [List.isEmpty_iff.mp blank, List.nil_append, List.dropWhile_cons_of_neg stays]
    · rfl
  have back : (chars.dropWhile isBlank ++ ending).rdropWhile isBlank =
      chars.dropWhile isBlank ++ ending := by
    apply List.rdropWhile_eq_self_iff.mpr
    intro someText
    rw [List.getLast_append_of_ne_nil someText someEnd]
    simp [visible _ (List.getLast_mem someEnd)]
  calc trim (chars ++ ending)
      = ((chars ++ ending).dropWhile isBlank).rdropWhile isBlank := rfl
    _ = (chars.dropWhile isBlank ++ ending).rdropWhile isBlank := by rw [front]
    _ = chars.dropWhile isBlank ++ ending := back

end Text

namespace Endpoint

/-- Hosts that are read from the text of an endpoint as they were written. -/
def Legible (host : List Char) : Prop :=
  (':' ∈ host ∧ ']' ∉ host) ∨
    (':' ∉ host ∧ ∃ first rest, host = first :: rest ∧ Text.isBlank first = false ∧ first ≠ '[')

theorem read_eq_ok_iff {text : String} {endpoint : Endpoint} :
    read text = .ok endpoint ↔ ofChars? (Text.trim text.toList) = some endpoint := by
  unfold read
  dsimp only
  split
  · rename_i found result
    simp [result]
  · rename_i result
    simp [result]

theorem withPort?_eq_some_iff {host port : List Char} {endpoint : Endpoint} :
    withPort? host port = some endpoint ↔
      ∃ number, Text.natural16? port = some number ∧ host ≠ [] ∧
        { host := .ofList host, port := number } = endpoint := by
  unfold withPort?
  cases Text.natural16? port with
  | none => simp
  | some number => simp

/-- In brackets a host goes up to the first bracket that closes. -/
theorem host_of_bracketed? {chars : List Char} {endpoint : Endpoint}
    (found : bracketed? chars = some endpoint) :
    endpoint.host.toList = chars.takeWhile (· ≠ ']') := by
  unfold bracketed? at found
  dsimp only at found
  split at found
  · split at found
    · cases found
    · cases found
      exact String.toList_ofList
  · obtain ⟨number, -, -, rfl⟩ := withPort?_eq_some_iff.mp found
    exact String.toList_ofList
  · cases found

theorem span_of_notMem {mark : Char} {before : List Char} (absent : mark ∉ before)
    (after : List Char) :
    (before ++ mark :: after).takeWhile (· ≠ mark) = before ∧
      (before ++ mark :: after).dropWhile (· ≠ mark) = mark :: after := by
  have inside : ∀ char ∈ before, decide (char ≠ mark) = true := by
    intro char member
    exact decide_eq_true (fun same => absent (same ▸ member))
  exact Json.span_of_stops inside (Json.stops_cons (by simp) after)

theorem bracketed?_append {host : List Char} (unclosed : ']' ∉ host) (port : List Char) :
    bracketed? (host ++ ']' :: ':' :: port) = withPort? host port := by
  obtain ⟨taken, dropped⟩ := span_of_notMem unclosed (':' :: port)
  unfold bracketed?
  rw [taken, dropped]
  rfl

/-- With one colon a text is a host and a port, unless it begins with a bracket. -/
theorem ofChars?_append {host port : List Char} (unbracketed : ∀ rest, host ≠ '[' :: rest)
    (noColon : ':' ∉ host) (noColonAfter : ':' ∉ port) :
    ofChars? (host ++ ':' :: port) = withPort? host port := by
  obtain ⟨taken, dropped⟩ := span_of_notMem noColon port
  have colons : (host ++ ':' :: port).count ':' = 1 := by
    rw [List.count_append, List.count_cons_self, List.count_eq_zero_of_not_mem noColon,
      List.count_eq_zero_of_not_mem noColonAfter]
  unfold ofChars?
  split
  · rename_i empty
    simp at empty
  · rename_i rest bracket
    cases host with
    | nil => cases bracket
    | cons first others =>
      cases bracket
      exact absurd rfl (unbracketed others)
  · rw [colons, taken, dropped]
    rfl

theorem length_le_of_prefix {start before after : List Char}
    (begins : start <+: before ++ ':' :: after) (noColon : ':' ∉ start) :
    start.length ≤ before.length := by
  by_contra longer
  have through : before ++ [':'] <+: before ++ ':' :: after := ⟨after, by simp⟩
  have reaches : before ++ [':'] <+: start := by
    apply List.prefix_of_prefix_length_le through begins
    rw [List.length_append, List.length_singleton]
    omega
  exact noColon (reaches.subset (by simp))

section Written

variable {host : String} {port : UInt16}

theorem port_chars_visible : ∀ char ∈ ':' :: (toString port).toList,
    Text.isBlank char = false := by
  intro char member
  rcases List.mem_cons.mp member with rfl | digit
  · decide
  · exact Text.not_isBlank_of_isDigit (Text.isDigit_of_mem_toString digit)

theorem not_mem_port {char : Char} (mark : char.isDigit = false) :
    char ∉ (toString port).toList := by
  intro member
  rw [Text.isDigit_of_mem_toString member] at mark
  cases mark

theorem trim_text_of_colon (colon : ':' ∈ host.toList) :
    Text.trim (text { host, port }).toList =
      '[' :: (host.toList ++ ']' :: ':' :: (toString port).toList) := by
  have written : (text { host, port }).toList =
      ('[' :: host.toList ++ [']']) ++ ':' :: (toString port).toList := by
    simp only [text, colon, if_true, String.toList_append, List.append_assoc,
      List.cons_append, List.nil_append]
    rfl
  rw [written, Text.trim_append (List.cons_ne_nil _ _) port_chars_visible, List.cons_append,
    List.dropWhile_cons_of_neg (by decide)]
  simp only [List.append_assoc, List.cons_append, List.nil_append]

theorem trim_text_of_no_colon (noColon : ':' ∉ host.toList) :
    Text.trim (text { host, port }).toList =
      host.toList.dropWhile Text.isBlank ++ ':' :: (toString port).toList := by
  have written : (text { host, port }).toList =
      host.toList ++ ':' :: (toString port).toList := by
    simp only [text, noColon, if_false, String.toList_append, List.append_assoc]
    rfl
  rw [written, Text.trim_append (List.cons_ne_nil _ _) port_chars_visible]

theorem withPort?_toString (someHost : host.toList ≠ []) :
    withPort? host.toList (toString port).toList = some { host, port } := by
  apply withPort?_eq_some_iff.mpr
  exact ⟨port, Text.natural16?_toString port, someHost, by rw [String.ofList_toList]⟩

theorem read_text_of_legible (legible : Legible host.toList) :
    read (text { host, port }) = .ok { host, port } := by
  apply read_eq_ok_iff.mpr
  rcases legible with ⟨colon, unclosed⟩ | ⟨noColon, first, rest, begins, visible, unbracketed⟩
  · rw [trim_text_of_colon colon]
    calc ofChars? ('[' :: (host.toList ++ ']' :: ':' :: (toString port).toList))
        = bracketed? (host.toList ++ ']' :: ':' :: (toString port).toList) := rfl
      _ = withPort? host.toList (toString port).toList := bracketed?_append unclosed _
      _ = some { host, port } := withPort?_toString (List.ne_nil_of_mem colon)
  · have untouched : host.toList.dropWhile Text.isBlank = host.toList := by
      rw [begins, List.dropWhile_cons_of_neg (by simp [visible])]
    have openHost : ∀ others, host.toList ≠ '[' :: others := by
      intro others same
      rw [begins] at same
      exact unbracketed (List.head_eq_of_cons_eq same)
    rw [trim_text_of_no_colon noColon, untouched,
      ofChars?_append openHost noColon (not_mem_port (by decide))]
    exact withPort?_toString (by rw [begins]; exact List.cons_ne_nil _ _)

theorem unclosed_of_read (colon : ':' ∈ host.toList) {endpoint : Endpoint}
    (found : read (text { host, port }) = .ok endpoint) (same : endpoint.host = host) :
    ']' ∉ host.toList := by
  rw [read_eq_ok_iff, trim_text_of_colon colon] at found
  have inner := host_of_bracketed? found
  rw [same] at inner
  intro closed
  rw [inner] at closed
  exact absurd (List.mem_takeWhile_imp closed) (by decide)

/-- Without its blanks a host that comes back does not begin with a bracket, since the bracket
would be left out. -/
theorem unbracketed_of_read (noColon : ':' ∉ host.toList) {endpoint : Endpoint}
    (found : read (text { host, port }) = .ok endpoint) (same : endpoint.host = host) :
    ∀ rest, host.toList.dropWhile Text.isBlank ≠ '[' :: rest := by
  intro rest begins
  rw [read_eq_ok_iff, trim_text_of_no_colon noColon, begins] at found
  have inner := host_of_bracketed? found
  rw [same] at inner
  have start : host.toList <+: rest ++ ':' :: (toString port).toList := by
    rw [inner]
    exact List.takeWhile_prefix _
  have length := length_le_of_prefix start noColon
  have shorter := List.length_dropWhile_le Text.isBlank host.toList
  rw [begins, List.length_cons] at shorter
  omega

theorem begins_of_read (noColon : ':' ∉ host.toList) {endpoint : Endpoint}
    (found : read (text { host, port }) = .ok endpoint) (same : endpoint.host = host) :
    ∃ first rest, host.toList = first :: rest ∧ Text.isBlank first = false ∧ first ≠ '[' := by
  have unbracketed := unbracketed_of_read noColon found same
  have noColonLeft : ':' ∉ host.toList.dropWhile Text.isBlank :=
    fun member => noColon ((List.dropWhile_suffix _).subset member)
  rw [read_eq_ok_iff, trim_text_of_no_colon noColon,
    ofChars?_append unbracketed noColonLeft (not_mem_port (by decide))] at found
  obtain ⟨number, -, someHost, rfl⟩ := withPort?_eq_some_iff.mp found
  -- What was read is the host without its blanks, so there were none.
  have untouched : host.toList.dropWhile Text.isBlank = host.toList := by
    have chars := congrArg String.toList same
    rwa [String.toList_ofList] at chars
  rw [untouched] at unbracketed someHost
  obtain ⟨first, rest, begins⟩ := List.exists_cons_of_ne_nil someHost
  refine ⟨first, rest, begins, ?_, ?_⟩
  · rw [begins, List.dropWhile_eq_self_iff] at untouched
    exact Bool.eq_false_iff.mpr (untouched (Nat.succ_pos _))
  · rintro rfl
    exact unbracketed rest begins

theorem legible_of_read {endpoint : Endpoint} (found : read (text { host, port }) = .ok endpoint)
    (same : endpoint.host = host) : Legible host.toList := by
  by_cases colon : ':' ∈ host.toList
  · exact .inl ⟨colon, unclosed_of_read colon found same⟩
  · exact .inr ⟨colon, begins_of_read colon found same⟩

end Written

/-- Written with its port and read again, a host comes back exactly if it has a colon and no
bracket that closes, or has no colon, is not empty and begins neither with a blank nor with a
bracket.  In every other case the text cannot be read, or says another host or port. -/
theorem text_reads_back_iff (host : String) (port : UInt16) :
    (read (text { host, port }) = .ok { host, port } ↔ Legible host.toList) ∧
    ((∃ endpoint, read (text { host, port }) = .ok endpoint ∧
      endpoint.host = host ∧ endpoint.port = port) ↔ Legible host.toList) := by
  refine ⟨⟨fun found => legible_of_read found rfl, read_text_of_legible⟩, ?_, ?_⟩
  · rintro ⟨endpoint, found, same, -⟩
    exact legible_of_read found same
  · intro legible
    exact ⟨_, read_text_of_legible legible, rfl, rfl⟩

end Endpoint

end TimeSync
