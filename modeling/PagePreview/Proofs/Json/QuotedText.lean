import PagePreview.Json.Printer
import PagePreview.Json.Reader
import PagePreview.Proofs.Text.WrittenUtf8

/-!
# Texts that are read back from JSON

A reader of JSON that comes to a quoted text takes all of it and gives back
what was quoted (`read_quoted`).  Each character is written so that it is read
on its own (`stringBody_escaped`), so nothing in a text can end the quotes.

A row of texts is written with a comma in front of every text but the first.
A reader that stands behind a text finds the comma, and behind the comma the
next quote, so it takes the texts one by one up to the bracket
(`items_itemsChars`).  The whole row is read back: `readWhole_texts`.
-/

namespace PagePreview.Json

open Text

theorem digits_two {n : Nat} (h : n < 0x20) :
    Hex.digits 2 n = [Hex.lower (n / 16), Hex.lower (n % 16)] := by
  have hAll : ∀ k ∈ List.range 0x20, Hex.digits 2 k = [Hex.lower (k / 16), Hex.lower (k % 16)] := by
    decide
  exact hAll n (List.mem_range.mpr h)

theorem toNat_lower_lt {n : Nat} (h : n < 16) : (Hex.lower n).toNat < 0x80 := by
  have hAll : ∀ k ∈ List.range 16, (Hex.lower k).toNat < 0x80 := by decide
  exact hAll n (List.mem_range.mpr h)

/-- The four digits of a control character. -/
theorem hexUnit_digits {n : Nat} (h : n < 0x20) (rest : List Char) (place : Place) :
    hexUnit ('0' :: '0' :: (Hex.digits 2 n ++ rest)) place = .ok n := by
  have hHigh : Hex.value? (Hex.lower (n / 16)) = some (n / 16) := Hex.value?_lower (by omega)
  have hLow : Hex.value? (Hex.lower (n % 16)) = some (n % 16) := Hex.value?_lower (by omega)
  have hRead : Hex.read? ['0', '0', Hex.lower (n / 16), Hex.lower (n % 16)] = some n := by
    simp [Hex.read?, hHigh, hLow, show Hex.value? '0' = some 0 by decide]
    omega
  have hBytes : (Utf8.encode ['0', '0', Hex.lower (n / 16), Hex.lower (n % 16)]).length = 4 := by
    rw [Utf8.encode_of_forall_lt, List.length_map]
    · rfl
    · simp only [List.forall_mem_cons]
      exact ⟨by decide, by decide, toNat_lower_lt (by omega), toNat_lower_lt (by omega), by simp⟩
  rw [digits_two h]
  simp [hexUnit, hRead, hBytes]

/-- Puts a character in front of what has been read. -/
def withFront (c : Char) : Except Fault (List Char × Cursor) → Except Fault (List Char × Cursor) :=
  Except.map fun p => (c :: p.1, p.2)

/-- A character that is written behind a backslash. -/
theorem stringBody_backslash {c : Char} {cs : List Char} {taken : Nat} {place : Place}
    (h : escape cs (place.after '\\') = .ok (c, taken)) :
    stringBody ('\\' :: cs) place =
      withFront c (stringBody (cs.drop taken) ⟨place.line, place.column + 1 + taken⟩) := by
  rw [stringBody, h]
  change (stringBody (cs.drop taken) _).bind _ = _
  cases stringBody (cs.drop taken) ⟨place.line, place.column + 1 + taken⟩ <;> rfl

/-- A character with a letter of its own. -/
theorem stringBody_letter {c letter : Char} (cs : List Char) (place : Place)
    (h : escape (letter :: cs) (place.after '\\') = .ok (c, 1)) :
    ∃ after, stringBody (['\\', letter] ++ cs) place = withFront c (stringBody cs after) :=
  ⟨_, stringBody_backslash h⟩

/-- A control character without one. -/
theorem stringBody_control {c : Char} (h : c.toNat < 0x20) (cs : List Char) (place : Place) :
    ∃ after, stringBody (['\\', 'u', '0', '0'] ++ Hex.digits 2 c.toNat ++ cs) place =
      withFront c (stringBody cs after) := by
  have hEscape : escape ('u' :: '0' :: '0' :: (Hex.digits 2 c.toNat ++ cs)) (place.after '\\') =
      .ok (c, 5) := by
    rw [escape, hexUnit_digits h]
    change (if _ then _ else if _ then _ else _) = _
    rw [if_neg (by simp; omega), if_pos (by simp; omega), Char.ofNat_toNat]
  have hRead := stringBody_backslash hEscape
  rw [digits_two h] at hRead ⊢
  exact ⟨_, hRead⟩

/-- A character that stands for itself. -/
theorem stringBody_plain {c : Char} (hQuote : c ≠ '"') (hBackslash : c ≠ '\\')
    (hControl : ¬ c.toNat < 0x20) (cs : List Char) (place : Place) :
    stringBody (c :: cs) place = withFront c (stringBody cs (place.after c)) := by
  rw [stringBody, if_neg hControl]
  · change (stringBody cs _).bind _ = _
    cases stringBody cs (place.after c) <;> rfl
  · exact hQuote
  · exact hBackslash

/-- **A character in quotes is read on its own.** -/
theorem stringBody_escaped (c : Char) (rest : List Char) (place : Place) :
    ∃ after, stringBody (escaped c ++ rest) place = withFront c (stringBody rest after) := by
  unfold escaped
  split
  case h_8 hQuote hBackslash _ _ _ _ _ =>
    split
    · next hControl => exact stringBody_control hControl rest place
    · next hPlain => exact ⟨_, stringBody_plain hQuote hBackslash hPlain rest place⟩
  all_goals exact stringBody_letter rest place (by rw [escape])

theorem stringBody_flatMap_escaped (cs rest : List Char) (place : Place) :
    ∃ after, stringBody (cs.flatMap escaped ++ '"' :: rest) place = .ok (cs, ⟨rest, after⟩) := by
  induction cs generalizing place with
  | nil => exact ⟨_, by rw [List.flatMap_nil, List.nil_append, stringBody]⟩
  | cons c cs ih =>
      obtain ⟨between, hFirst⟩ := stringBody_escaped c (cs.flatMap escaped ++ '"' :: rest) place
      obtain ⟨after, hRest⟩ := ih between
      refine ⟨after, ?_⟩
      rw [List.flatMap_cons, List.append_assoc, hFirst, hRest]
      rfl

/-! ## Values -/

theorem Reader.bind_of_eq_ok {α β : Type} {r : Reader α} {a : α} {c d : Cursor}
    (h : r c = .ok (a, d)) (f : α → Reader β) : (r >>= f) c = f a d := by
  simp only [bind, h]

theorem toList_quoted (s : String) :
    (quoted s).toList = '"' :: (s.toList.flatMap escaped ++ ['"']) := by
  simp [quoted, quote]

theorem quotedString_quoted (s : String) :
    ∃ after, quotedString ⟨(quoted s).toList, {}⟩ = .ok (s, ⟨[], after⟩) := by
  obtain ⟨after, hBody⟩ := stringBody_flatMap_escaped s.toList [] (Place.after {} '"')
  refine ⟨after, ?_⟩
  rw [toList_quoted]
  change (stringBody (s.toList.flatMap escaped ++ ['"']) (Place.after {} '"')).bind _ = _
  rw [hBody]
  change Except.ok (String.ofList s.toList, _) = _
  rw [String.ofList_toList]

/-- **A reader of JSON takes a text in quotes and gives back the text**, whatever stands in it. -/
theorem read_quoted (s : String) : Json.read (quoted s) = .ok (.string s) := by
  obtain ⟨after, hString⟩ := quotedString_quoted s
  have hPeek : peekPastBlanks ⟨(quoted s).toList, {}⟩ =
      .ok (some '"', ⟨(quoted s).toList, {}⟩) := by
    rw [toList_quoted]
    rfl
  have hValue : value ⟨(quoted s).toList, {}⟩ = .ok (.string s, ⟨[], after⟩) := by
    rw [value, depthLimit, valueWithin, Reader.bind_of_eq_ok hPeek]
    exact Reader.bind_of_eq_ok hString _
  rw [Json.read, readWhole, hValue]
  rfl

/-! ## Rows of texts -/

theorem peekPastBlanks_cons {d : Char} (h : isBlank d = false) (cs : List Char) (place : Place) :
    peekPastBlanks ⟨d :: cs, place⟩ = .ok (some d, ⟨d :: cs, place⟩) := by
  have hNone : Reader.takeWhile isBlank ⟨d :: cs, place⟩ = .ok ([], ⟨d :: cs, place⟩) := by
    rw [Reader.takeWhile, List.takeWhile_cons_of_neg (by simp [h])]
    rfl
  rw [peekPastBlanks, Reader.bind_of_eq_ok hNone]
  rfl

section Items

variable (cs rest : List Char) (place : Place)

theorem peekPastBlanks_quote : peekPastBlanks ⟨quote cs ++ rest, place⟩ =
    .ok (some '"', ⟨quote cs ++ rest, place⟩) :=
  peekPastBlanks_cons rfl _ place

theorem valueWithin_quote (depth : Nat) :
    ∃ after, valueWithin (depth + 1) ⟨quote cs ++ rest, place⟩ =
      .ok (.string (String.ofList cs), ⟨rest, after⟩) := by
  obtain ⟨after, hBody⟩ := stringBody_flatMap_escaped cs rest (place.after '"')
  have hString : quotedString ⟨quote cs ++ rest, place⟩ =
      .ok (String.ofList cs, ⟨rest, after⟩) := by
    rw [quote, List.append_assoc]
    change (stringBody (cs.flatMap escaped ++ '"' :: rest) (place.after '"')).bind _ = _
    rw [hBody]
    rfl
  refine ⟨after, ?_⟩
  rw [valueWithin, Reader.bind_of_eq_ok (peekPastBlanks_quote cs rest place)]
  exact Reader.bind_of_eq_ok hString _

theorem hasItem_quote :
    hasItem true ⟨quote cs ++ rest, place⟩ = .ok (true, ⟨quote cs ++ rest, place⟩) := by
  rw [hasItem, Reader.bind_of_eq_ok (peekPastBlanks_quote cs rest place)]
  rfl

theorem hasItem_comma_quote :
    ∃ after, hasItem false ⟨',' :: (quote cs ++ rest), place⟩ =
      .ok (true, ⟨quote cs ++ rest, after⟩) := by
  have hComma : peekPastBlanks ⟨',' :: (quote cs ++ rest), place⟩ =
      .ok (some ',', ⟨',' :: (quote cs ++ rest), place⟩) := peekPastBlanks_cons rfl _ place
  have hSkip : Reader.skip 1 ⟨',' :: (quote cs ++ rest), place⟩ =
      .ok ((), ⟨quote cs ++ rest, place.after ','⟩) := rfl
  refine ⟨place.after ',', ?_⟩
  rw [hasItem, Reader.bind_of_eq_ok hComma]
  show (Reader.skip 1 >>= fun _ => peekPastBlanks >>= _) _ = _
  rw [Reader.bind_of_eq_ok hSkip, Reader.bind_of_eq_ok (peekPastBlanks_quote cs rest _)]
  rfl

end Items

/-- The texts behind the first one of a row. -/
theorem items_itemsChars (depth : Nat) (texts : List String) (rest : List Char) (place : Place)
    {steps : Nat} (hSteps : texts.length < steps) :
    ∃ after, items (valueWithin (depth + 1)) steps false
        ⟨itemsChars (texts.map .string) ++ ']' :: rest, place⟩ =
      .ok (texts.map .string, ⟨']' :: rest, after⟩) := by
  induction texts generalizing steps place with
  | nil =>
      obtain ⟨steps, rfl⟩ : ∃ k, steps = k + 1 := ⟨steps - 1, by simp at hSteps; omega⟩
      exact ⟨place, rfl⟩
  | cons text texts ih =>
      rw [List.length_cons] at hSteps
      obtain ⟨steps, rfl⟩ : ∃ k, steps = k + 1 := ⟨steps - 1, by omega⟩
      have hChars : itemsChars ((text :: texts).map .string) ++ ']' :: rest =
          ',' :: (quote text.toList ++ (itemsChars (texts.map .string) ++ ']' :: rest)) := by
        simp [itemsChars, chars]
      obtain ⟨p, hItem⟩ := hasItem_comma_quote text.toList
        (itemsChars (texts.map .string) ++ ']' :: rest) place
      obtain ⟨q, hValue⟩ := valueWithin_quote text.toList
        (itemsChars (texts.map .string) ++ ']' :: rest) p depth
      obtain ⟨after, hRest⟩ := ih q (show texts.length < steps by omega)
      refine ⟨after, ?_⟩
      rw [hChars, items, Reader.bind_of_eq_ok hItem, if_pos rfl, Reader.bind_of_eq_ok hValue,
        Reader.bind_of_eq_ok hRest, String.ofList_toList]
      rfl

theorem length_le_length_itemsChars (vs : List Json) : vs.length ≤ (itemsChars vs).length := by
  induction vs with
  | nil => exact Nat.zero_le _
  | cons v vs ih =>
      rw [itemsChars, List.cons_append, List.length_cons, List.length_cons, List.length_append]
      omega

/-- All texts of a row, from the first one on. -/
theorem items_quote_itemsChars (depth : Nat) (text : String) (texts : List String)
    (rest : List Char) (place : Place) {steps : Nat} (hSteps : texts.length < steps) :
    ∃ after, items (valueWithin (depth + 1)) (steps + 1) true
        ⟨quote text.toList ++ (itemsChars (texts.map .string) ++ ']' :: rest), place⟩ =
      .ok ((text :: texts).map .string, ⟨']' :: rest, after⟩) := by
  obtain ⟨p, hValue⟩ := valueWithin_quote text.toList
    (itemsChars (texts.map .string) ++ ']' :: rest) place depth
  obtain ⟨after, hRest⟩ := items_itemsChars depth texts rest p hSteps
  refine ⟨after, ?_⟩
  rw [items, Reader.bind_of_eq_ok (hasItem_quote _ _ place), if_pos rfl,
    Reader.bind_of_eq_ok hValue, Reader.bind_of_eq_ok hRest, String.ofList_toList]
  rfl

/-- **A reader of JSON takes a row of texts and gives them back.** -/
theorem readWhole_texts (texts : List String) :
    readWhole anySequence (Json.array (texts.map .string)).compact =
      .ok (texts.map .string) := by
  cases texts with
  | nil => rfl
  | cons text texts =>
      have hChars : (Json.array ((text :: texts).map .string)).compact.toList =
          '[' :: (quote text.toList ++ (itemsChars (texts.map .string) ++ [']'])) := by
        simp [compact, chars]
      have hLength : texts.length <
          (quote text.toList ++ (itemsChars (texts.map .string) ++ [']'])).length := by
        have hItems := length_le_length_itemsChars (texts.map Json.string)
        rw [List.length_map] at hItems
        rw [List.length_append, List.length_append, List.length_singleton]
        omega
      obtain ⟨q, hItems⟩ :=
        items_quote_itemsChars 126 text texts [] (Place.after {} '[') hLength
      have hPeek := peekPastBlanks_cons (d := '[') rfl
        (quote text.toList ++ (itemsChars (texts.map .string) ++ [']'])) {}
      have hRead : anySequence
          ⟨'[' :: (quote text.toList ++ (itemsChars (texts.map .string) ++ [']'])), {}⟩ =
          .ok ((text :: texts).map .string, ⟨[], q.after ']'⟩) := by
        rw [anySequence, sequence, Reader.bind_of_eq_ok hPeek]
        exact Reader.bind_of_eq_ok hItems fun list => do endArray; return list
      rw [readWhole, hChars, hRead]
      rfl

end PagePreview.Json
