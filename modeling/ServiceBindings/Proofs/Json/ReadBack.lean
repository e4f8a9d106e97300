import ServiceBindings.Json.Reader
import ServiceBindings.Proofs.Json.Number

/-!
# Values that read back

A value whose strings are text and whose numbers read back is read back from its compact form.  The
rest of the document may follow as long as no number could go on with it.
-/

namespace ServiceBindings.Json

open JsonNumber

/-! ### Strings -/

variable {cs : List Char}

theorem readUnits_escape {c : Char} {unit : Nat} (h : escapeUnit c = some unit) :
  readUnits ('\\' :: c :: cs) = (readUnits cs).map fun (units, rest) => (unit :: units, rest)
  := by
  have hc : c ≠ 'u' := by
    rintro rfl
    cases h
  rw [readUnits]
  · rw [h]
    cases readUnits cs with
    | none => rfl
    | some result => rfl
  · intro a b c' d rest hu
    contradiction

theorem readUnits_hex {a b c d : Char} {unit : Nat} (h : hexUnit a b c d = some unit) :
  readUnits ('\\' :: 'u' :: a :: b :: c :: d :: cs)
    = (readUnits cs).map fun (units, rest) => (unit :: units, rest)
  := by
  rw [readUnits, h]
  cases readUnits cs with
  | none => rfl
  | some result => rfl

theorem readUnits_plain {c : Char} (hquote : c ≠ '"') (hslash : c ≠ '\\')
    (h : ¬c.toNat < 0x20) :
  readUnits (c :: cs) = (readUnits cs).map fun (units, rest) => (c.toNat :: units, rest)
  := by
  rw [readUnits]
  · rw [if_neg h]
    cases readUnits cs with
    | none => rfl
    | some result => rfl
  · exact hquote
  · intro a b c' d rest hc
    contradiction
  · intro c' rest hc
    contradiction

theorem hexUnit_hexPair {n : Nat} (h : n < 0x20) :
  hexUnit '0' '0' (Nat.digitChar (n / 16)) (Nat.digitChar (n % 16)) = some n
  := by
  revert n
  decide

/-- A written character is read as its code unit. -/
theorem readUnits_writeChar (c : Char) (cs : List Char) :
  readUnits (writeChar c ++ cs)
    = (readUnits cs).map fun (units, rest) => (c.toNat :: units, rest)
  := by
  unfold writeChar
  split
  case isTrue h => subst h; exact readUnits_escape rfl
  split
  case isTrue h => subst h; exact readUnits_escape rfl
  split
  case isTrue h => subst h; exact readUnits_escape rfl
  split
  case isTrue h => subst h; exact readUnits_escape rfl
  split
  case isTrue h => subst h; exact readUnits_escape rfl
  split
  case isTrue h => rw [h]; exact readUnits_escape rfl
  split
  case isTrue h => rw [h]; exact readUnits_escape rfl
  split
  case isTrue h => exact readUnits_hex (hexUnit_hexPair h)
  case isFalse hquote hslash _ _ _ _ _ h => exact readUnits_plain hquote hslash h

theorem readUnits_flatMap_writeChar (text rest : List Char) :
  readUnits (text.flatMap writeChar ++ '"' :: rest) = some (text.map Char.toNat, rest)
  := by
  induction text with
  | nil => rfl
  | cons c text ih =>
      rw [List.flatMap_cons, List.append_assoc, readUnits_writeChar, ih]
      rfl

/-- No character is half of a surrogate pair. -/
theorem decodeUnits_toNat (text : List Char) :
  decodeUnits (text.map Char.toNat) = some text
  := by
  induction text with
  | nil => rfl
  | cons c text ih =>
      have hvalid : c.toNat < 0xd800 ∨ 0xdfff < c.toNat := by
        rcases c.valid with h | h
        · exact Or.inl h
        · exact Or.inr h.1
      have hhigh : (0xd800 ≤ c.toNat && c.toNat < 0xdc00) = false := by
        simp
        omega
      have hlow : (0xdc00 ≤ c.toNat && c.toNat < 0xe000) = false := by
        simp
        omega
      rw [List.map_cons, decodeUnits.eq_def]
      simp [hhigh, hlow, ih]

theorem readString_writeString (text : String) (rest : List Char) :
  readString (text.toList.flatMap writeChar ++ '"' :: rest) = some (some text, rest)
  := by
  rw [readString, readUnits_flatMap_writeChar]
  simp [decodeUnits_toNat]

/-! ### Values -/

/-- The values that read back, with arrays and objects nested at most `room` deep. -/
inductive ReadsBack : Nat → Json → Prop where
  | null {room} : ReadsBack room .null
  | bool {room value} : ReadsBack room (.bool value)
  | number {room value} : value.ReadsBack → ReadsBack room (.number value)
  | string {room} {text : String} : ReadsBack room (.string (some text))
  | array {room items} : (∀ item ∈ items, ReadsBack room item) → ReadsBack (room + 1) (.array items)
  | object {room} {members : List (Option String × Json)} :
      (∀ member ∈ members, member.1.isSome) → (∀ member ∈ members, ReadsBack room member.2) →
      ReadsBack (room + 1) (.object members)

/-- Whether a value is read from its compact form in front of any text that no number goes on
with. -/
def IsRead (json : Json) : Prop :=
  ∀ fuel rest, json.writeChars.length ≤ fuel → EndsBefore rest →
    readValue fuel (json.writeChars ++ rest) = some (json, rest)

theorem endsBefore_cons {c : Char} {rest : List Char}
    (h : c.isDigit = false ∧ c ≠ '.' ∧ c ≠ 'e' ∧ c ≠ 'E') :
  EndsBefore (c :: rest)
  := by
  rintro _ ⟨⟩
  exact h

theorem skipSpace_cons {c : Char} (h : isSpace c = false) : skipSpace (c :: cs) = c :: cs := by
  rw [skipSpace, List.dropWhile_cons, h]
  rfl

theorem ne_of_starts_number {c other : Char} (hc : c = '-' ∨ c.isDigit = true)
    (hminus : other ≠ '-') (hdigit : other.isDigit = false) :
  c ≠ other
  := by
  rintro rfl
  rcases hc with rfl | hc
  · exact hminus rfl
  · rw [hdigit] at hc
    cases hc

theorem isSpace_of_starts_number {c : Char} (hc : c = '-' ∨ c.isDigit = true) :
  isSpace c = false
  := by
  have hne : ∀ other : Char, other ≠ '-' → other.isDigit = false → c ≠ other := fun other =>
    ne_of_starts_number hc
  simp [isSpace, hne ' ' (by decide) (by decide), hne '\n' (by decide) (by decide),
    hne '\t' (by decide) (by decide), hne '\r' (by decide) (by decide)]

theorem readValue_number {c : Char} (hc : c = '-' ∨ c.isDigit = true) (fuel : Nat) :
  readValue (fuel + 1) (c :: cs)
    = (JsonNumber.read (c :: cs)).map fun (value, rest) => (.number value, rest)
  := by
  have hne : ∀ other : Char, other ≠ '-' → other.isDigit = false → c ≠ other := fun other =>
    ne_of_starts_number hc
  rw [readValue, skipSpace_cons (isSpace_of_starts_number hc)]
  split
  case h_1 heq => cases heq; cases hne 'n' (by decide) (by decide) rfl
  case h_2 heq => cases heq; cases hne 't' (by decide) (by decide) rfl
  case h_3 heq => cases heq; cases hne 'f' (by decide) (by decide) rfl
  case h_4 heq => cases heq; cases hne '"' (by decide) (by decide) rfl
  case h_5 heq => cases heq; cases hne '[' (by decide) (by decide) rfl
  case h_6 heq => cases heq; cases hne '\x7b' (by decide) (by decide) rfl
  case h_7 => rfl

theorem exists_cons_of_readsBack {value : JsonNumber} (h : value.ReadsBack) :
  ∃ c cs, writeNumber value = c :: cs ∧ (c = '-' ∨ c.isDigit = true)
  := by
  rw [JsonNumber.ReadsBack] at h
  cases htext : writeNumber value with
  | nil =>
      rw [htext] at h
      cases h
  | cons c cs =>
      rw [htext] at h
      use c, cs, rfl
      exact head_of_read h

theorem isRead_number {value : JsonNumber} (h : value.ReadsBack) : (number value).IsRead := by
  intro fuel rest hfuel hrest
  obtain ⟨c, cs, htext, hc⟩ := exists_cons_of_readsBack h
  rw [writeChars, htext] at hfuel ⊢
  rw [JsonNumber.ReadsBack, htext] at h
  cases fuel with
  | zero => cases hfuel
  | succ fuel =>
      rw [List.cons_append, readValue_number hc, ← List.cons_append, read_append hrest h]
      rfl

theorem isRead_string (text : String) : (string (some text)).IsRead := by
  intro fuel rest hfuel hrest
  cases fuel with
  | zero => cases hfuel
  | succ fuel =>
      have hchars : (string (some text)).writeChars ++ rest
          = '"' :: (text.toList.flatMap writeChar ++ '"' :: rest) := by
        simp [writeChars, writeText, writeString]
      rw [hchars, readValue, skipSpace_cons rfl]
      simp [readString_writeString]

/-- A compact form starts with neither a blank nor a closing bracket. -/
theorem ReadsBack.head {room : Nat} {json : Json} (h : ReadsBack room json) :
  ∃ c cs, json.writeChars = c :: cs ∧ isSpace c = false ∧ c ≠ ']'
  := by
  cases h with
  | null => exact ⟨_, _, rfl, rfl, by decide⟩
  | @bool _ value =>
      cases value with
      | true => exact ⟨_, _, rfl, rfl, by decide⟩
      | false => exact ⟨_, _, rfl, rfl, by decide⟩
  | number h =>
      obtain ⟨c, cs, htext, hc⟩ := exists_cons_of_readsBack h
      use c, cs, htext, isSpace_of_starts_number hc
      apply ne_of_starts_number hc
      · decide
      · decide
  | string => exact ⟨_, _, rfl, rfl, by decide⟩
  | array h => exact ⟨_, _, rfl, rfl, by decide⟩
  | object hkeys h => exact ⟨_, _, rfl, rfl, by decide⟩

/-! ### Arrays -/

variable {fuel : Nat} {rest : List Char}

theorem readItems_last {item : Json} (h : readValue fuel cs = some (item, ']' :: rest)) :
  readItems (fuel + 1) cs = some ([item], rest)
  := by
  rw [readItems, h]
  rfl

theorem readItems_more {item : Json} {items : List Json} {others : List Char}
    (h : readValue fuel cs = some (item, ',' :: others))
    (hitems : readItems fuel others = some (items, rest)) :
  readItems (fuel + 1) cs = some (item :: items, rest)
  := by
  simp [readItems, h, hitems, skipSpace, isSpace]

/-- Items that are read one by one are read as the items of an array. -/
theorem readItems_writeItems {items : List Json} (hitems : ∀ item ∈ items, item.IsRead)
    (hne : items ≠ []) (hfuel : (writeItems items).length < fuel) :
  readItems fuel (writeItems items ++ ']' :: rest) = some (items, rest)
  := by
  induction items generalizing fuel with
  | nil => contradiction
  | cons item items ih =>
      obtain ⟨hitem, hitems⟩ := List.forall_mem_cons.mp hitems
      cases fuel with
      | zero => cases hfuel
      | succ fuel =>
          cases items with
          | nil =>
              rw [writeItems] at hfuel ⊢
              apply readItems_last
              apply hitem
              · omega
              · apply endsBefore_cons
                decide
          | cons next items =>
              have hchars : writeItems (item :: next :: items)
                  = item.writeChars ++ ',' :: writeItems (next :: items) := by
                rw [writeItems]
                nofun
              rw [hchars, List.length_append, List.length_cons] at hfuel
              rw [hchars, List.append_assoc, List.cons_append]
              apply readItems_more
              · apply hitem
                · omega
                · apply endsBefore_cons
                  decide
              · apply ih hitems
                · nofun
                · omega

theorem readValue_array {c : Char} {items : List Json} (hspace : isSpace c = false)
    (hc : c ≠ ']') (h : readItems fuel (c :: cs) = some (items, rest)) :
  readValue (fuel + 1) ('[' :: c :: cs) = some (.array items, rest)
  := by
  rw [readValue, skipSpace_cons rfl]
  simp [skipSpace_cons hspace, hc, h]

theorem exists_writeItems_cons {c : Char} {item : Json} (h : item.writeChars = c :: cs)
    (items : List Json) :
  ∃ others, writeItems (item :: items) = c :: others
  := by
  cases items with
  | nil =>
      use cs
      rw [writeItems, h]
  | cons next items =>
      use cs ++ ',' :: writeItems (next :: items)
      rw [writeItems, h, List.cons_append]
      nofun

theorem isRead_array {items : List Json} (hitems : ∀ item ∈ items, item.IsRead)
    (hhead : ∀ item ∈ items, ∃ c cs, item.writeChars = c :: cs ∧ isSpace c = false ∧ c ≠ ']') :
  (array items).IsRead
  := by
  intro fuel rest hfuel hrest
  rw [writeChars, List.length_append, List.length_cons, List.length_singleton] at hfuel
  rw [writeChars, List.append_assoc, List.cons_append]
  cases fuel with
  | zero => cases hfuel
  | succ fuel =>
      cases items with
      | nil => rfl
      | cons item items =>
          obtain ⟨c, cs, hchars, hspace, hc⟩ := hhead item List.mem_cons_self
          obtain ⟨others, hothers⟩ := exists_writeItems_cons hchars items
          have hread : readItems fuel (writeItems (item :: items) ++ ']' :: rest)
              = some (item :: items, rest) := by
            apply readItems_writeItems hitems
            · nofun
            · omega
          rw [hothers] at hread ⊢
          exact readValue_array hspace hc hread

/-! ### Objects -/

theorem writeText_append (key : String) :
  writeText (some key) ++ rest = '"' :: (key.toList.flatMap writeChar ++ '"' :: rest)
  := by
  simp [writeText, writeString]

theorem readMembers_last {key : String} {value : Json}
    (h : readValue fuel cs = some (value, '\x7d' :: rest)) :
  readMembers (fuel + 1) (writeText (some key) ++ ':' :: cs) = some ([(some key, value)], rest)
  := by
  simp [readMembers, writeText_append, readString_writeString, h, skipSpace, isSpace]

theorem readMembers_more {key : String} {value : Json} {members : List (Option String × Json)}
    {others : List Char} (h : readValue fuel cs = some (value, ',' :: others))
    (hmembers : readMembers fuel others = some (members, rest)) :
  readMembers (fuel + 1) (writeText (some key) ++ ':' :: cs)
    = some ((some key, value) :: members, rest)
  := by
  simp [readMembers, writeText_append, readString_writeString, h, hmembers, skipSpace, isSpace]

/-- Members whose values are read one by one are read as the members of an object. -/
theorem readMembers_writeMembers {members : List (Option String × Json)}
    (hkeys : ∀ member ∈ members, member.1.isSome) (hvalues : ∀ member ∈ members, member.2.IsRead)
    (hne : members ≠ []) (hfuel : (writeMembers members).length < fuel) :
  readMembers fuel (writeMembers members ++ '\x7d' :: rest) = some (members, rest)
  := by
  induction members generalizing fuel with
  | nil => contradiction
  | cons member members ih =>
      rw [List.forall_mem_cons] at hkeys hvalues
      obtain ⟨_ | key, value⟩ := member
      · cases hkeys.1
      cases fuel with
      | zero => cases hfuel
      | succ fuel =>
          cases members with
          | nil =>
              rw [writeMembers, List.length_append, List.length_cons] at hfuel
              rw [writeMembers, List.append_assoc, List.cons_append]
              apply readMembers_last
              apply hvalues.1
              · dsimp only
                omega
              · apply endsBefore_cons
                decide
          | cons next members =>
              have hchars : writeMembers ((some key, value) :: next :: members)
                  = writeText (some key) ++ ':' :: value.writeChars
                    ++ ',' :: writeMembers (next :: members) := by
                rw [writeMembers]
                nofun
              rw [hchars] at hfuel ⊢
              simp only [List.length_append, List.length_cons] at hfuel
              simp only [List.append_assoc, List.cons_append]
              apply readMembers_more
              · apply hvalues.1
                · dsimp only
                  omega
                · apply endsBefore_cons
                  decide
              · apply ih hkeys.2 hvalues.2
                · nofun
                · omega

theorem readValue_object {members : List (Option String × Json)}
    (h : readMembers fuel ('"' :: cs) = some (members, rest)) :
  readValue (fuel + 1) ('\x7b' :: '"' :: cs) = some (.object members, rest)
  := by
  rw [readValue, skipSpace_cons rfl]
  simp [skipSpace_cons, isSpace, h]

theorem exists_writeMembers_cons (key : String) (value : Json)
    (members : List (Option String × Json)) :
  ∃ others, writeMembers ((some key, value) :: members) = '"' :: others
  := by
  cases members with
  | nil =>
      rw [writeMembers, writeText_append]
      exact ⟨_, rfl⟩
  | cons next members =>
      rw [writeMembers, List.append_assoc, writeText_append]
      · exact ⟨_, rfl⟩
      · nofun

theorem isRead_object {members : List (Option String × Json)}
    (hkeys : ∀ member ∈ members, member.1.isSome)
    (hvalues : ∀ member ∈ members, member.2.IsRead) :
  (object members).IsRead
  := by
  intro fuel rest hfuel hrest
  rw [writeChars, List.length_append, List.length_cons, List.length_singleton] at hfuel
  rw [writeChars, List.append_assoc, List.cons_append]
  cases fuel with
  | zero => cases hfuel
  | succ fuel =>
      cases members with
      | nil => rfl
      | cons member members =>
          have hread : readMembers fuel (writeMembers (member :: members) ++ '\x7d' :: rest)
              = some (member :: members, rest) := by
            apply readMembers_writeMembers hkeys hvalues
            · nofun
            · omega
          obtain ⟨_ | key, value⟩ := member
          · cases hkeys _ List.mem_cons_self
          obtain ⟨others, hothers⟩ := exists_writeMembers_cons key value members
          rw [hothers] at hread ⊢
          exact readValue_object hread

/-! ### Documents -/

theorem ReadsBack.isRead {room : Nat} {json : Json} (h : ReadsBack room json) : json.IsRead := by
  induction h with
  | null =>
      intro fuel rest hfuel hrest
      cases fuel with
      | zero => cases hfuel
      | succ fuel => rfl
  | @bool _ value =>
      intro fuel rest hfuel hrest
      cases value with
      | true =>
          cases fuel with
          | zero => cases hfuel
          | succ fuel => rfl
      | false =>
          cases fuel with
          | zero => cases hfuel
          | succ fuel => rfl
  | number h => exact isRead_number h
  | string => exact isRead_string _
  | array h ih =>
      apply isRead_array ih
      intro item hitem
      exact (h item hitem).head
  | object hkeys h ih => exact isRead_object hkeys ih

/-- A value that reads back is read from its compact form. -/
theorem ReadsBack.read_write {room : Nat} {json : Json} (h : ReadsBack room json) :
  Json.read json.write = some json
  := by
  have hread := h.isRead (2 * json.writeChars.length + 2) [] (by omega) (by nofun)
  rw [List.append_nil] at hread
  rw [Json.read, write, String.toList_ofList, hread]
  rfl

theorem allSound_of_forall {room : Nat} {items : List Json}
    (h : ∀ item ∈ items, item.isSound room = true) :
  allSound items room = true
  := by
  induction items with
  | nil => rfl
  | cons item items ih =>
      rw [List.forall_mem_cons] at h
      rw [allSound, h.1, ih h.2]
      rfl

theorem membersSound_of_forall {room : Nat} {members : List (Option String × Json)}
    (hkeys : ∀ member ∈ members, member.1.isSome)
    (h : ∀ member ∈ members, member.2.isSound room = true) :
  membersSound members room = true
  := by
  induction members with
  | nil => rfl
  | cons member members ih =>
      rw [List.forall_mem_cons] at hkeys h
      rw [membersSound, hkeys.1, h.1, ih hkeys.2 h.2]
      rfl

/-- A value that reads back is sound. -/
theorem ReadsBack.isSound {room : Nat} {json : Json} (h : ReadsBack room json) :
  json.isSound room = true
  := by
  induction h with
  | null => rfl
  | bool => rfl
  | @number _ value h =>
      cases value with
      | natural n => rfl
      | negative n => rfl
      | fraction x => rfl
      | tooGreat => cases h
  | string => rfl
  | array h ih => exact allSound_of_forall ih
  | object hkeys h ih => exact membersSound_of_forall hkeys ih

end ServiceBindings.Json
